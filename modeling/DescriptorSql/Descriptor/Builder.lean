import DescriptorSql.Descriptor.Query

/-!
# `Descriptor/Builder.lean` — building descriptors step by step

Descriptors can be built in code as well as read. Every step writes one entry of an ordered map, so
a step that repeats a key replaces what the key had, in its old place. Operators on one column and
relations of one existence test accumulate under their key.
-/

set_option autoImplicit false

namespace DescriptorSql

/-- An operand from a value: an array lists values, anything else is a value. -/
def Operand.ofJson : Json → Operand
  | .array items => .list items
  | other => .value other

namespace Predicate

def get? (predicate : Predicate) (key : String) : Option Condition :=
  Entries.get? predicate.entries key

def size (predicate : Predicate) : Nat := predicate.entries.length

def insert (predicate : Predicate) (key : String) (condition : Condition) : Predicate :=
  .ofEntries (Entries.insert predicate.entries key condition)

def merge (predicate other : Predicate) : Predicate :=
  .ofEntries (Entries.merge predicate.entries other.entries)

theorem entries_foldl_merge (first : Predicate) (rest : List Predicate) :
    (rest.foldl merge first).entries =
      Entries.merge first.entries (rest.flatMap Predicate.entries) := by
  induction rest generalizing first with
  | nil => rfl
  | cons next rest ih =>
    have hnext : (first.merge next).entries = Entries.merge first.entries next.entries := rfl
    rw [List.foldl_cons, ih, hnext, List.flatMap_cons, Entries.merge_append]

/-- An entry of merged predicates is an entry of one of them. -/
theorem exists_of_mem_foldl_merge {first : Predicate} {rest : List Predicate}
    {entry : String × Condition} (h : entry ∈ (rest.foldl merge first).entries) :
    ∃ predicate ∈ first :: rest, entry ∈ predicate.entries := by
  rw [entries_foldl_merge] at h
  rcases Entries.mem_or_mem_of_mem_merge h with h | h
  · exact ⟨first, List.mem_cons_self, h⟩
  · obtain ⟨next, hnext, h⟩ := List.mem_flatMap.mp h
    exact ⟨next, List.mem_cons_of_mem first hnext, h⟩

/-- `field = value`. -/
def equals (predicate : Predicate) (field : String) (value : Json) : Predicate :=
  predicate.insert field (.equals value)

/-- One more operator on a column. -/
def compare (predicate : Predicate) (field : String) (operator : Operator) (operand : Operand) :
    Predicate :=
  match predicate.get? field with
  | some (.comparisons entries) =>
    predicate.insert field (.comparisons (Entries.insert entries operator operand))
  | _ => predicate.insert field (.comparisons [(operator, operand)])

def anyOf (predicate : Predicate) (branches : List Predicate) : Predicate :=
  predicate.insert "OR" (.anyOf branches)

def allOf (predicate : Predicate) (branches : List Predicate) : Predicate :=
  predicate.insert "AND" (.allOf branches)

/-- The inner predicate does not hold. -/
def negate (predicate inner : Predicate) : Predicate :=
  predicate.insert "NOT" (.negation inner)

def hasRow (predicate : Predicate) (relation : String) (body : ExistsBody) : Predicate :=
  match predicate.get? "exists" with
  | some (.existence entries) =>
    predicate.insert "exists" (.existence (Entries.insert entries relation body))
  | _ => predicate.insert "exists" (.existence [(relation, body)])

end Predicate

namespace QueryBody

/-- Selects columns under their own names. -/
def selectColumns (body : QueryBody) (names : List String) : QueryBody :=
  { body with select := Entries.merge body.select (names.map (·, Column.reuse)) }

/-- Selects an expression under a name. -/
def selectAs (body : QueryBody) (name source : String) : QueryBody :=
  { body with select := Entries.insert body.select name (.source source) }

def sortBy (body : QueryBody) (column : String) (direction : SortDir) : QueryBody :=
  { body with orderBy := Entries.insert body.orderBy column direction }

def joinLeft (body : QueryBody) (relation : String) (query : JoinQuery) : QueryBody :=
  { body with leftJoin := Entries.insert body.leftJoin relation query }

end QueryBody

namespace SelectQuery

/-- Changes the clauses of a query. -/
def mapBody (change : QueryBody → QueryBody) (query : SelectQuery) : SelectQuery :=
  .mk (change query.body) query.includes

def nest (query : SelectQuery) (relation : String) (nested : SelectQuery) : SelectQuery :=
  .mk query.body (Entries.insert query.includes relation nested)

end SelectQuery

end DescriptorSql
