import DescriptorSql.Proofs.Descriptor.Faithful

/-!
# `Proofs/Descriptor/Grammar.lean` — the grammar of predicates

What a predicate may be written as, and what it is read as: `PredicateReads` and the relations it
needs have one rule for each form. Every list and every map is read item by item, so what is read
has the length and the order of what is written. `PredicateFails` and its relations say what is
wrong with a value that has none of the forms. The reader does exactly this (`faithful_predicate`).

Records inside a predicate are subqueries and joins. Their fields that hold predicates are read by
the grammar again; the other ones are plain, and what they do is left to the reader of the field
(`storeSubQueryField`, `storeJoinField`).
-/

set_option autoImplicit false

namespace DescriptorSql

/-! ## The forms -/

/-- What the field of a query holds. -/
inductive FieldKind where
  | plain
  | filter
  | joins
  deriving DecidableEq, Repr

def FieldKind.ofName : String → FieldKind
  | "where" | "having" => .filter
  | "leftJoin" | "rightJoin" | "innerJoin" | "fullJoin" => .joins
  | _ => .plain

mutual

inductive PredicateReads : Json → Predicate → Prop
  | object {members : List (String × Json)} {entries : List (String × Condition)} :
      List.Forall₂ EntryReads members entries →
      PredicateReads (.object members) (.ofEntries entries)

/-- An entry keeps its key. Under a word it has the form of the word; under any other key an object
is a map of operators, and everything else a value. -/
inductive EntryReads : String × Json → String × Condition → Prop
  | anyOf {key : String} {items : List Json} {branches : List Predicate} :
      EntryKey.ofText key = .anyOf → List.Forall₂ PredicateReads items branches →
      EntryReads (key, .array items) (key, .anyOf branches)
  | allOf {key : String} {items : List Json} {branches : List Predicate} :
      EntryKey.ofText key = .allOf → List.Forall₂ PredicateReads items branches →
      EntryReads (key, .array items) (key, .allOf branches)
  | negation {key : String} {value : Json} {inner : Predicate} :
      EntryKey.ofText key = .negation → PredicateReads value inner →
      EntryReads (key, value) (key, .negation inner)
  | existence {key : String} {members : List (String × Json)}
    {entries : List (String × ExistsBody)} :
      EntryKey.ofText key = .existence → List.Forall₂ ExistsReads members entries →
      EntryReads (key, .object members) (key, .existence entries)
  | equals {key : String} {value : Json} :
      EntryKey.ofText key = .column → (∀ members, value ≠ .object members) →
      EntryReads (key, value) (key, .equals value)
  | comparisons {key : String} {members : List (String × Json)}
      {entries : List (Operator × Operand)} :
      EntryKey.ofText key = .column → List.Forall₂ ComparisonReads members entries →
      EntryReads (key, .object members) (key, .comparisons entries)

/-- A relation that has a row at all, or one among those of a subquery. -/
inductive ExistsReads : String × Json → String × ExistsBody → Prop
  | anyRow {name : String} : ExistsReads (name, .bool true) (name, .anyRow)
  | rowsOf {name : String} {members : List (String × Json)} {query : SubQuery} :
      RecordReads SubQuery.form SubQueryFieldReads SubQuery.empty (.object members) query →
      ExistsReads (name, .object members) (name, .rowsOf query)

/-- An operator under its name. Every operator takes an array; the other operands depend on it. -/
inductive ComparisonReads : String × Json → Operator × Operand → Prop
  | list {name : String} {operator : Operator} {items : List Json} :
      Operator.ofName? name = some operator →
      ComparisonReads (name, .array items) (operator, .list items)
  | subqueries {name : String} {operator : Operator} {members : List (String × Json)}
      {queries : List (String × SubQuery)} :
      Operator.ofName? name = some operator → operator.isMembership = true →
      List.Forall₂ NamedQueryReads members queries →
      ComparisonReads (name, .object members) (operator, .subqueries queries)
  | value {name : String} {operator : Operator} {value : Json} :
      Operator.ofName? name = some operator → operator.isMembership = false →
      operator.isRange = false → (∀ items, value ≠ .array items) →
      (∀ members, value ≠ .object members) → ComparisonReads (name, value) (operator, .value value)
  | quantified {name : String} {operator : Operator} {members : List (String × Json)}
      {groups : List (Quantifier × List (String × SubQuery))} :
      Operator.ofName? name = some operator → operator.isMembership = false →
      operator.isRange = false → List.Forall₂ GroupReads members groups →
      ComparisonReads (name, .object members) (operator, .quantified groups)

inductive GroupReads : String × Json → Quantifier × List (String × SubQuery) → Prop
  | rows {name : String} {quantifier : Quantifier} {members : List (String × Json)}
      {queries : List (String × SubQuery)} :
      Quantifier.ofName? name = some quantifier → List.Forall₂ NamedQueryReads members queries →
      GroupReads (name, .object members) (quantifier, queries)

inductive NamedQueryReads : String × Json → String × SubQuery → Prop
  | named {name : String} {value : Json} {query : SubQuery} :
      RecordReads SubQuery.form SubQueryFieldReads SubQuery.empty value query →
      NamedQueryReads (name, value) (name, query)

/-- A field of a subquery takes the subquery that has been read so far to the next one. -/
inductive SubQueryFieldReads : String × Json → SubQuery → SubQuery → Prop
  | plain {name : String} {value : Json} {query next : SubQuery} :
      FieldKind.ofName name = .plain →
      storeSubQueryField name value (fun _ => .ok none) (fun _ => .ok []) query = .ok next →
      SubQueryFieldReads (name, value) query next
  | filter {name : String} {value : Json} {filter : Option Predicate} {query next : SubQuery} :
      FieldKind.ofName name = .filter → FilterReads value filter →
      storeSubQueryField name value (fun _ => .ok filter) (fun _ => .ok []) query = .ok next →
      SubQueryFieldReads (name, value) query next
  | joins {name : String} {members : List (String × Json)} {joins : List (String × JoinQuery)}
      {query next : SubQuery} :
      FieldKind.ofName name = .joins → List.Forall₂ NamedJoinReads members joins →
      storeSubQueryField name (.object members) (fun _ => .ok none) (fun _ => .ok joins) query =
        .ok next →
      SubQueryFieldReads (name, .object members) query next

inductive FilterReads : Json → Option Predicate → Prop
  | null : FilterReads .null none
  | predicate {value : Json} {predicate : Predicate} : PredicateReads value predicate →
      FilterReads value (some predicate)

inductive NamedJoinReads : String × Json → String × JoinQuery → Prop
  | named {name : String} {value : Json} {join : JoinQuery} :
      RecordReads JoinQuery.form JoinFieldReads JoinQuery.empty value join →
      NamedJoinReads (name, value) (name, join)

inductive JoinFieldReads : String × Json → JoinQuery → JoinQuery → Prop
  | plain {name : String} {value : Json} {join next : JoinQuery} : name ≠ "where" →
      storeJoinField name value (fun _ => .ok none) join = .ok next →
      JoinFieldReads (name, value) join next
  | filter {name : String} {value : Json} {filter : Option Predicate} {join : JoinQuery} :
      name = "where" → FilterReads value filter →
      JoinFieldReads (name, value) join { join with filter := filter }

end

/-- A subquery is a record. -/
abbrev SubQueryReads : Json → SubQuery → Prop :=
  RecordReads SubQuery.form SubQueryFieldReads SubQuery.empty

abbrev JoinReads : Json → JoinQuery → Prop :=
  RecordReads JoinQuery.form JoinFieldReads JoinQuery.empty

/-! ## Mistakes -/

mutual

inductive PredicateFails : Json → QueryError → Prop
  | shape {value : Json} : (∀ members, value ≠ .object members) →
      PredicateFails value (.validation .predicateForm)
  | entry {members : List (String × Json)} {error : QueryError} :
      FirstFails (fun member => ∃ entry, EntryReads member entry) EntryFails members error →
      PredicateFails (.object members) error

inductive EntryFails : String × Json → QueryError → Prop
  | branchesShape {key : String} {value : Json} :
      EntryKey.ofText key = .anyOf ∨ EntryKey.ofText key = .allOf →
        (∀ items, value ≠ .array items) →
      EntryFails (key, value) (.malformedOperator key .branches)
  | branch {key : String} {items : List Json} {error : QueryError} :
      EntryKey.ofText key = .anyOf ∨ EntryKey.ofText key = .allOf →
      FirstFails (fun item => ∃ branch, PredicateReads item branch) PredicateFails items error →
      EntryFails (key, .array items) error
  | negation {key : String} {value : Json} {error : QueryError} :
      EntryKey.ofText key = .negation → PredicateFails value error → EntryFails (key, value) error
  | existenceShape {key : String} {value : Json} :
      EntryKey.ofText key = .existence → (∀ members, value ≠ .object members) →
      EntryFails (key, value) (.malformedOperator key .relations)
  | existence {key : String} {members : List (String × Json)} {error : QueryError} :
      EntryKey.ofText key = .existence →
      FirstFails (fun member => ∃ entry, ExistsReads member entry) ExistsFails members error →
      EntryFails (key, .object members) error
  | comparison {key : String} {members : List (String × Json)} {error : QueryError} :
      EntryKey.ofText key = .column →
      FirstFails (fun member => ∃ entry, ComparisonReads member entry) ComparisonFails
        members error →
      EntryFails (key, .object members) error

inductive ExistsFails : String × Json → QueryError → Prop
  | shape {name : String} {value : Json} : value ≠ .bool true →
    (∀ members, value ≠ .object members) →
      ExistsFails (name, value) (.malformedOperator "exists" .existsBody)
  | query {name : String} {members : List (String × Json)} {mistake : Mistake} :
      RecordFails SubQuery.form SubQueryFieldReads SubQueryFieldFails SubQuery.empty
        (.object members) mistake →
      ExistsFails (name, .object members) (.invalidDescriptor mistake)

inductive ComparisonFails : String × Json → QueryError → Prop
  | unknown {name : String} {value : Json} : Operator.ofName? name = none →
      ComparisonFails (name, value) (.unknownOperator name)
  | membershipShape {name : String} {operator : Operator} {value : Json} :
      Operator.ofName? name = some operator → operator.isMembership = true →
      (∀ items, value ≠ .array items) → (∀ members, value ≠ .object members) →
      ComparisonFails (name, value) (.malformedOperator name .listOrSubqueries)
  | rangeShape {name : String} {operator : Operator} {value : Json} :
      Operator.ofName? name = some operator → operator.isRange = true →
      (∀ items, value ≠ .array items) →
      ComparisonFails (name, value) (.malformedOperator name .pair)
  | subquery {name : String} {operator : Operator} {members : List (String × Json)}
      {error : QueryError} :
      Operator.ofName? name = some operator → operator.isMembership = true →
      FirstFails (fun member => ∃ query, NamedQueryReads member query) NamedQueryFails
        members error →
      ComparisonFails (name, .object members) error
  | group {name : String} {operator : Operator} {members front back : List (String × Json)}
      {member : String × Json} {error : QueryError} :
      Operator.ofName? name = some operator → operator.isMembership = false →
      operator.isRange = false → members = front ++ member :: back →
      (∀ other ∈ front, ∃ group, GroupReads other group) → GroupFails name member error →
      ComparisonFails (name, .object members) error

/-- A group of the operator of the given name. -/
inductive GroupFails : String → String × Json → QueryError → Prop
  | unknown {operator name : String} {value : Json} : Quantifier.ofName? name = none →
      GroupFails operator (name, value) (.malformedOperator operator .valueOrQuantified)
  | shape {operator name : String} {quantifier : Quantifier} {value : Json} :
      Quantifier.ofName? name = some quantifier → (∀ members, value ≠ .object members) →
      GroupFails operator (name, value) (.malformedOperator operator .subqueries)
  | query {operator name : String} {quantifier : Quantifier} {members : List (String × Json)}
      {error : QueryError} :
      Quantifier.ofName? name = some quantifier →
      FirstFails (fun member => ∃ query, NamedQueryReads member query) NamedQueryFails
        members error →
      GroupFails operator (name, .object members) error

inductive NamedQueryFails : String × Json → QueryError → Prop
  | named {name : String} {value : Json} {mistake : Mistake} :
      RecordFails SubQuery.form SubQueryFieldReads SubQueryFieldFails SubQuery.empty value mistake →
      NamedQueryFails (name, value) (.invalidDescriptor mistake)

inductive SubQueryFieldFails : String × Json → Mistake → Prop
  | plain {name : String} {value : Json} {mistake : Mistake} : FieldKind.ofName name = .plain →
      storeSubQueryField name value (fun _ => .ok none) (fun _ => .ok []) SubQuery.empty =
        .error mistake →
      SubQueryFieldFails (name, value) mistake
  | filter {name : String} {value : Json} {mistake : Mistake} : FieldKind.ofName name = .filter →
      FilterFails value mistake → SubQueryFieldFails (name, value) mistake
  | joinsShape {name : String} {value : Json} : FieldKind.ofName name = .joins →
      (∀ members, value ≠ .object members) →
      SubQueryFieldFails (name, value) (.wrongType value .map)
  | join {name : String} {members : List (String × Json)} {mistake : Mistake} :
      FieldKind.ofName name = .joins →
      FirstFails (fun member => ∃ join, NamedJoinReads member join) NamedJoinFails members mistake →
      SubQueryFieldFails (name, .object members) mistake

inductive FilterFails : Json → Mistake → Prop
  | predicate {value : Json} {error : QueryError} : value ≠ .null → PredicateFails value error →
      FilterFails value (.predicate error)

inductive NamedJoinFails : String × Json → Mistake → Prop
  | named {name : String} {value : Json} {mistake : Mistake} :
      RecordFails JoinQuery.form JoinFieldReads JoinFieldFails JoinQuery.empty value mistake →
      NamedJoinFails (name, value) mistake

inductive JoinFieldFails : String × Json → Mistake → Prop
  | plain {name : String} {value : Json} {mistake : Mistake} : name ≠ "where" →
      storeJoinField name value (fun _ => .ok none) JoinQuery.empty = .error mistake →
      JoinFieldFails (name, value) mistake
  | filter {name : String} {value : Json} {mistake : Mistake} : name = "where" →
      FilterFails value mistake → JoinFieldFails (name, value) mistake

end

abbrev SubQueryFails : Json → Mistake → Prop :=
  RecordFails SubQuery.form SubQueryFieldReads SubQueryFieldFails SubQuery.empty

abbrev JoinFails : Json → Mistake → Prop :=
  RecordFails JoinQuery.form JoinFieldReads JoinFieldFails JoinQuery.empty

end DescriptorSql
