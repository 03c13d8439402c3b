import DescriptorSql.Proofs.Descriptor.Grammar

/-!
# `Proofs/Descriptor/Items.lean` — readers of one item

The readers of lists and of records go through them in one recursion each. Here each of them is the
reader of one item, repeated: a list is read by `List.mapM`, and a record by `List.foldlM`, which
stores one field after the other. What a field does with the record is one of three things: it
stores what the reader of the value gives, a predicate or joins.
-/

set_option autoImplicit false

namespace DescriptorSql

/-! ## Readers of one item -/

/-- An error in a subquery is reported as one of the predicate around it. -/
theorem asInvalid_eq {α : Type} (result : Except Mistake α) :
    asInvalid result = result.mapError .invalidDescriptor := by
  cases result <;> rfl

/-- An error in a predicate is reported as one of the record around it. -/
theorem asMistake_eq {α : Type} (result : Except QueryError α) :
    asMistake result = result.mapError .predicate := by
  cases result <;> rfl

/-- One entry of a predicate. -/
def readEntry : String × Json → Except QueryError (String × Condition)
  | (key, value) => (key, ·) <$> readCondition key value

/-- One relation of an existence test: any of its rows, or the rows of a query. -/
def readExistsEntry : String × Json → Except QueryError (String × ExistsBody)
  | (name, .bool true) => .ok (name, .anyRow)
  | (name, .object members) =>
    (fun query => (name, .rowsOf query)) <$> asInvalid (SubQuery.ofJson? (.object members))
  | _ => .error (.malformedOperator "exists" .existsBody)

/-- One operator of a comparison, with what it compares to. -/
def readComparison : String × Json → Except QueryError (Operator × Operand)
  | (name, value) =>
    match Operator.ofName? name with
    | none => .error (.unknownOperator name)
    | some operator => (operator, ·) <$> readOperand operator value

/-- One subquery under the name of its relation. -/
def readNamedQuery : String × Json → Except QueryError (String × SubQuery)
  | (name, value) => (name, ·) <$> asInvalid (SubQuery.ofJson? value)

/-- The subqueries behind one quantifier. -/
def readGroup (operator : Operator) :
    String × Json → Except QueryError (Quantifier × List (String × SubQuery))
  | (name, value) =>
    match Quantifier.ofName? name, value with
    | none, _ => .error (.malformedOperator operator.name .valueOrQuantified)
    | some quantifier, .object members => (quantifier, ·) <$> members.mapM readNamedQuery
    | some _, _ => .error (.malformedOperator operator.name .subqueries)

/-- One join under the name of its relation. -/
def readNamedJoin : String × Json → Except Mistake (String × JoinQuery)
  | (name, value) => (name, ·) <$> JoinQuery.ofJson? value

/-- One field of a subquery, its value read as the field asks for. -/
def readSubQueryField (query : SubQuery) : String × Json → Except Mistake SubQuery
  | (name, value) =>
    storeSubQueryField name value (fun _ => readFilter value) (fun _ => readJoins value) query

/-- One field of a join, its value read as the field asks for. -/
def readJoinField (join : JoinQuery) : String × Json → Except Mistake JoinQuery
  | (name, value) => storeJoinField name value (fun _ => readFilter value) join

/-- The reader of a predicate's entries is a recursion of its own, as it calls itself for what is
inside; here it is the reader of one entry, repeated. So are the readers below. -/
theorem readEntries_eq_mapM (members : List (String × Json)) :
    readEntries members = members.mapM readEntry := by
  induction members with
  | nil => rfl
  | cons member rest ih =>
    obtain ⟨key, value⟩ := member
    rw [readEntries, ih, List.mapM_cons, readEntry]
    cases readCondition key value <;> rfl

theorem ofJson?_object (members : List (String × Json)) :
    Predicate.ofJson? (.object members) = .ofEntries <$> members.mapM readEntry := by
  rw [Predicate.ofJson?, readEntries_eq_mapM]

theorem readBranches_eq_mapM (items : List Json) :
    readBranches items = items.mapM Predicate.ofJson? := by
  induction items with
  | nil => rfl
  | cons item rest ih =>
    rw [List.mapM_cons]
    cases item with
    | object members =>
      rw [readBranches, ih, Predicate.ofJson?]
      cases readEntries members <;> rfl
    | _ => rfl

theorem readExistence_eq_mapM (members : List (String × Json)) :
    readExistence members = members.mapM readExistsEntry := by
  induction members with
  | nil => rfl
  | cons member rest ih =>
    obtain ⟨name, value⟩ := member
    rw [List.mapM_cons]
    cases value with
    | object members =>
      rw [readExistence, ih, readExistsEntry, SubQuery.ofJson?]
      cases asInvalid (readSubQueryMembers members SubQuery.empty) <;> rfl
    | bool b =>
      cases b with
      | true => rw [readExistence, ih, readExistsEntry]; rfl
      | false => rfl
    | _ => rfl

/-- An unknown operator is reported without looking at what stands behind it. -/
theorem readComparisons_eq_mapM (members : List (String × Json)) :
    readComparisons members = members.mapM readComparison := by
  induction members with
  | nil => rfl
  | cons member rest ih =>
    obtain ⟨name, value⟩ := member
    rw [List.mapM_cons, readComparisons, readComparison]
    cases Operator.ofName? name with
    | none => rfl
    | some operator =>
      dsimp only
      rw [ih]
      cases readOperand operator value <;> rfl

theorem readSubQueries_eq_mapM (members : List (String × Json)) :
    readSubQueries members = members.mapM readNamedQuery := by
  induction members with
  | nil => rfl
  | cons member rest ih =>
    obtain ⟨name, value⟩ := member
    rw [List.mapM_cons, readNamedQuery]
    cases value with
    | object members =>
      rw [readSubQueries, ih, SubQuery.ofJson?]
      cases asInvalid (readSubQueryMembers members SubQuery.empty) <;> rfl
    | array items =>
      rw [readSubQueries, ih, SubQuery.ofJson?]
      cases asInvalid (readSubQueryItems items.length SubQuery.form.names items SubQuery.empty) <;>
        rfl
    | _ => rfl

/-- The quantifiers of an operator, each with its subqueries. -/
theorem readQuantified_eq_mapM (operator : Operator) (members : List (String × Json)) :
    readQuantified operator members = members.mapM (readGroup operator) := by
  induction members with
  | nil => rfl
  | cons member rest ih =>
    obtain ⟨name, value⟩ := member
    rw [List.mapM_cons, readQuantified.eq_def, readGroup.eq_def]
    dsimp only
    cases Quantifier.ofName? name with
    | none => rfl
    | some quantifier =>
      cases value with
      | object members =>
        dsimp only
        rw [readSubQueries_eq_mapM, ih]
        cases members.mapM readNamedQuery <;> rfl
      | _ => rfl

theorem readJoinEntries_eq_mapM (members : List (String × Json)) :
    readJoinEntries members = members.mapM readNamedJoin := by
  induction members with
  | nil => rfl
  | cons member rest ih =>
    obtain ⟨name, value⟩ := member
    rw [List.mapM_cons, readNamedJoin]
    cases value with
    | object members =>
      rw [readJoinEntries, ih, JoinQuery.ofJson?]
      cases readJoinMembers members JoinQuery.empty <;> rfl
    | array items =>
      rw [readJoinEntries, ih, JoinQuery.ofJson?]
      cases readJoinItems items.length JoinQuery.form.names items JoinQuery.empty <;> rfl
    | _ => rfl

/-- A reader that stores one member after the other. -/
theorem eq_foldlM {σ : Type} {read : List (String × Json) → σ → Except Mistake σ}
    {store : σ → String × Json → Except Mistake σ} (hnil : ∀ state, read [] state = .ok state)
    (hcons : ∀ member rest state, read (member :: rest) state = store state member >>= read rest)
    (members : List (String × Json)) (state : σ) :
    read members state = members.foldlM store state := by
  induction members generalizing state with
  | nil => exact hnil state
  | cons member rest ih =>
    rw [hcons, List.foldlM_cons]
    exact bind_congr fun next => ih next

/-- A reader that stores one item after the other under the names of the fields. -/
theorem eq_foldlM_zip {σ : Type} {count : Nat}
    (read : List String → List Json → σ → Except Mistake σ)
    {store : σ → String × Json → Except Mistake σ}
    (hnil : ∀ names state, read names [] state = .ok state)
    (hextra : ∀ item rest state, read [] (item :: rest) state = .error (.extraItems count))
    (hcons : ∀ name names item rest state,
      read (name :: names) (item :: rest) state = store state (name, item) >>= read names rest)
    (names : List String) (items : List Json) (state : σ) :
    read names items state = (names.zip items).foldlM store state >>= fun result =>
      if names.length < items.length then .error (.extraItems count) else .ok result := by
  induction items generalizing names state with
  | nil =>
    rw [hnil, List.zip_nil_right]
    rfl
  | cons item rest ih =>
    cases names with
    | nil => exact hextra item rest state
    | cons name names =>
      rw [hcons, List.zip_cons_cons, List.foldlM_cons, bind_assoc]
      refine bind_congr fun next => ?_
      rw [ih]
      simp

/-! ## Storing a field -/

/-- Storing fails if its reading does, whatever it is stored into. -/
theorem error_of_bind_pure {α β : Type} {read : Except Mistake α} {mistake : Mistake} {f g : α → β}
    (h : (do return f (← read)) = .error mistake) : (do return g (← read)) = .error mistake := by
  cases read with
  | error other => exact h
  | ok value => cases h

/-- Whether a field of a body is read depends on its value alone. -/
theorem storeBodyField_error {name : String} {value : Json}
    {filter : Unit → Except Mistake (Option Predicate)}
    {joins : Unit → Except Mistake (List (String × JoinQuery))} {body other : QueryBody}
    {mistake : Mistake} (h : storeBodyField name value filter joins body = .error mistake) :
    storeBodyField name value filter joins other = .error mistake := by
  unfold storeBodyField at h ⊢
  split at h
  all_goals first
    | exact error_of_bind_pure h
    | cases h

theorem storeSubQueryField_error {name : String} {value : Json}
    {filter : Unit → Except Mistake (Option Predicate)}
    {joins : Unit → Except Mistake (List (String × JoinQuery))} {query other : SubQuery}
    {mistake : Mistake} (h : storeSubQueryField name value filter joins query = .error mistake) :
    storeSubQueryField name value filter joins other = .error mistake := by
  unfold storeSubQueryField at h ⊢
  split at h
  · exact error_of_bind_pure h
  · next hname =>
    cases hbody : storeBodyField name value filter joins query.body with
    | error other =>
      rw [hbody] at h
      rw [storeBodyField_error hbody]
      exact h
    | ok body =>
      rw [hbody] at h
      cases h

/-- A field that holds neither conditions nor joins is read without their readers. -/
theorem storeSubQueryField_plain {name : String} (hkind : FieldKind.ofName name = .plain)
    (value : Json) (filter filter' : Unit → Except Mistake (Option Predicate))
    (joins joins' : Unit → Except Mistake (List (String × JoinQuery))) (query : SubQuery) :
    storeSubQueryField name value filter joins query =
      storeSubQueryField name value filter' joins' query := by
  unfold storeSubQueryField storeBodyField
  split
  · rfl
  · split
    all_goals first
      | rfl
      | cases hkind

/-- A field with conditions reads them and stores them. -/
theorem storeSubQueryField_filter {name : String} (hkind : FieldKind.ofName name = .filter)
    (value : Json) (query : SubQuery) : ∃ update : Option Predicate → SubQuery, ∀ filter joins,
      storeSubQueryField name value filter joins query = update <$> filter () := by
  unfold FieldKind.ofName at hkind
  split at hkind
  · refine ⟨fun filter => { query with body := { query.body with filter := filter } }, ?_⟩
    intro filter joins
    cases hfilter : filter () <;> simp [storeSubQueryField, storeBodyField, hfilter]
  · refine ⟨fun filter => { query with body := { query.body with having := filter } }, ?_⟩
    intro filter joins
    cases hfilter : filter () <;> simp [storeSubQueryField, storeBodyField, hfilter]
  all_goals cases hkind

/-- A field with joins reads them and stores them. -/
theorem storeSubQueryField_joins {name : String} (hkind : FieldKind.ofName name = .joins)
    (value : Json) (query : SubQuery) :
    ∃ update : List (String × JoinQuery) → SubQuery, ∀ filter joins,
      storeSubQueryField name value filter joins query = update <$> joins () := by
  unfold FieldKind.ofName at hkind
  split at hkind
  case h_3 =>
    refine ⟨fun joins => { query with body := { query.body with leftJoin := joins } }, ?_⟩
    intro filter joins
    cases hjoins : joins () <;> simp [storeSubQueryField, storeBodyField, hjoins]
  case h_4 =>
    refine ⟨fun joins => { query with body := { query.body with rightJoin := joins } }, ?_⟩
    intro filter joins
    cases hjoins : joins () <;> simp [storeSubQueryField, storeBodyField, hjoins]
  case h_5 =>
    refine ⟨fun joins => { query with body := { query.body with innerJoin := joins } }, ?_⟩
    intro filter joins
    cases hjoins : joins () <;> simp [storeSubQueryField, storeBodyField, hjoins]
  case h_6 =>
    refine ⟨fun joins => { query with body := { query.body with fullJoin := joins } }, ?_⟩
    intro filter joins
    cases hjoins : joins () <;> simp [storeSubQueryField, storeBodyField, hjoins]
  all_goals cases hkind

theorem storeJoinField_error {name : String} {value : Json}
    {filter : Unit → Except Mistake (Option Predicate)} {join other : JoinQuery} {mistake : Mistake}
    (h : storeJoinField name value filter join = .error mistake) :
    storeJoinField name value filter other = .error mistake := by
  unfold storeJoinField at h ⊢
  split at h
  all_goals first
    | exact error_of_bind_pure h
    | cases h

/-- Of a join's fields, the reader of conditions is asked for "where" only. -/
theorem storeJoinField_plain {name : String} (hname : name ≠ "where") (value : Json)
    (filter filter' : Unit → Except Mistake (Option Predicate)) (join : JoinQuery) :
    storeJoinField name value filter join = storeJoinField name value filter' join := by
  unfold storeJoinField
  split
  · rfl
  · exact absurd rfl hname
  · rfl

end DescriptorSql
