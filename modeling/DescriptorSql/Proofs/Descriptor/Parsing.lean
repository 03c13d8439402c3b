import DescriptorSql.Proofs.Descriptor.Records
import Mathlib.Data.List.Nodup

/-!
# `Proofs/Descriptor/Parsing.lean` — predicates are read by their grammar

One lemma for each form says that its reader does what the grammar says, if the readers of the
values inside do. An induction on the JSON value puts them together: the reader of predicates is
faithful to the grammar on every value (`faithful_predicate`).
-/

set_option autoImplicit false

namespace DescriptorSql

/-! ## Existence tests and operators -/

/-- An existence test takes the value true or a query. The reader looks at the kind of the value
only, and so does the grammar. -/
theorem faithful_exists {name : String} {value : Json} (h : IsFaithfulBelow value) :
    Faithful readExistsEntry ExistsReads ExistsFails (name, value) := by
  -- the test for any row has no query to be read
  by_cases htrue : value = .bool true
  · subst htrue
    refine .of_ok rfl .anyRow ?_ ?_
    · rintro other (_ | _)
      rfl
    · rintro error (⟨hne, -⟩ | _)
      exact hne rfl
  -- a query is an object, and nothing else is read as one
  rcases value.object_or with ⟨members, rfl⟩ | hshape
  · refine .of_map (faithful_subQuery h) (f := fun query => (name, .rowsOf query))
      (g := .invalidDescriptor) ?_ ?_ ?_
    · rw [readExistsEntry, asInvalid_eq]
      cases SubQuery.ofJson? (.object members) <;> rfl
    · intro result
      constructor
      · rintro (_ | hquery)
        exact ⟨_, hquery, rfl⟩
      · rintro ⟨query, hquery, rfl⟩
        exact .rowsOf hquery
    · intro error
      constructor
      · rintro (⟨-, hshape⟩ | hfails)
        · exact absurd rfl (hshape members)
        · exact ⟨_, hfails, rfl⟩
      · rintro ⟨mistake, hfails, rfl⟩
        exact .query hfails
  · have hread :
        readExistsEntry (name, value) = .error (.malformedOperator "exists" .existsBody) := by
      unfold readExistsEntry
      split
      · next heq => exact absurd (congrArg Prod.snd heq) htrue
      · next heq => exact absurd (congrArg Prod.snd heq) (hshape _)
      · rfl
    refine .of_error hread (.shape htrue hshape) ?_ ?_
    · rintro other (_ | _)
      · rfl
      · exact absurd rfl (hshape _)
    · rintro result (_ | _)
      · exact htrue rfl
      · exact hshape _ rfl

/-- The name of a quantifier is looked at before what stands behind it. -/
theorem faithful_group (operator : Operator) {name : String} {value : Json}
    (h : IsFaithfulBelow value) :
    Faithful (readGroup operator) GroupReads (GroupFails operator.name) (name, value) := by
  cases hname : Quantifier.ofName? name with
  | none =>
    have hread : readGroup operator (name, value) =
        .error (.malformedOperator operator.name .valueOrQuantified) := by
      rw [readGroup.eq_def]
      dsimp only
      rw [hname]
    refine .of_error hread (.unknown hname) ?_ ?_
    · rintro other (_ | _ | _) <;> simp_all
    · rintro result ⟨hother, -⟩
      simp_all
  | some quantifier =>
    -- behind a quantifier there are subqueries under their names
    rcases value.object_or with ⟨members, rfl⟩ | hshape
    · refine .of_map (faithful_namedQueries h) (f := (quantifier, ·)) (g := id) ?_ ?_ ?_
      · rw [readGroup.eq_def]
        dsimp only
        rw [hname]
        dsimp only
        cases members.mapM readNamedQuery <;> rfl
      · intro result
        constructor
        · rintro ⟨hother, hqueries⟩
          obtain rfl := Option.some.inj (hname.symm.trans hother)
          exact ⟨_, hqueries, rfl⟩
        · rintro ⟨queries, hqueries, rfl⟩
          exact .rows hname hqueries
      · intro error
        constructor
        · rintro (hnone | ⟨-, hshape⟩ | ⟨-, hfails⟩)
          · simp_all
          · exact absurd rfl (hshape members)
          · exact ⟨_, hfails, rfl⟩
        · rintro ⟨_, hfails, rfl⟩
          exact .query hname hfails
    · have hread : readGroup operator (name, value) =
          .error (.malformedOperator operator.name .subqueries) := by
        rw [readGroup.eq_def]
        dsimp only
        rw [hname]
        cases value with
        | object members => exact absurd rfl (hshape members)
        | _ => rfl
      refine .of_error hread (.shape hname hshape) ?_ ?_
      · rintro other (hnone | _ | _)
        · simp_all
        · rfl
        · exact absurd rfl (hshape _)
      · rintro result ⟨-, -⟩
        exact hshape _ rfl

/-- The first quantifier that cannot be read decides the error. -/
theorem faithful_groups (operator : Operator) {members : List (String × Json)}
    (h : IsFaithfulBelow (.object members)) :
    Faithful (List.mapM (readGroup operator)) (List.Forall₂ GroupReads)
      (FirstFails (fun member => ∃ group, GroupReads member group) (GroupFails operator.name))
      members :=
  .mapM fun _ hmember =>
    faithful_group operator (h.inside (Json.sizeOf_lt_of_mem_members hmember))

theorem Operator.isRange_eq_false {operator : Operator} (h : operator.isMembership = true) :
    operator.isRange = false := by
  cases operator <;> simp_all [isMembership, isRange]

/-- Every operator takes a list. -/
theorem readOperand_array (operator : Operator) (items : List Json) :
    readOperand operator (.array items) = .ok (.list items) := by
  unfold readOperand
  split
  · rfl
  · split <;> rfl

/-- IN and NOT IN take a list or subqueries, and anything else is refused. -/
theorem faithful_membership {name : String} {operator : Operator} {value : Json}
    (hname : Operator.ofName? name = some operator) (hmembership : operator.isMembership = true)
    (hitems : ∀ items, value ≠ .array items) (h : IsFaithfulBelow value) :
    Faithful readComparison ComparisonReads ComparisonFails (name, value) := by
  have hread : readComparison (name, value) = (operator, ·) <$> readOperand operator value := by
    rw [readComparison, hname]
  -- no other form of the grammar fits a name that is a membership
  have hrange : ∀ other, Operator.ofName? name = some other → other.isRange = false := by
    intro other hother
    obtain rfl := Option.some.inj (hname.symm.trans hother)
    exact Operator.isRange_eq_false hmembership
  -- lists were read before, so what is left is subqueries or a mistake
  rcases value.object_or with ⟨members, rfl⟩ | hmembers
  · refine .of_map (faithful_namedQueries h) (f := fun queries => (operator, .subqueries queries))
      (g := id) ?_ ?_ ?_
    · rw [hread, readOperand, if_pos hmembership, readSubQueries_eq_mapM]
      cases members.mapM readNamedQuery <;> rfl
    · intro result
      constructor
      · intro hresult
        cases hresult with
        | subqueries hother _ hqueries =>
          obtain rfl := Option.some.inj (hname.symm.trans hother)
          exact ⟨_, hqueries, rfl⟩
        | value | quantified => simp_all
      · rintro ⟨queries, hqueries, rfl⟩
        exact .subqueries hname hmembership hqueries
    · intro error
      constructor
      · intro herror
        cases herror with
        | subquery _ _ hfails => exact ⟨_, hfails, rfl⟩
        | unknown | membershipShape | rangeShape | group => simp_all
      · rintro ⟨_, hfails, rfl⟩
        exact .subquery hname hmembership hfails
  · have hnone :
        readOperand operator value = .error (.malformedOperator name .listOrSubqueries) := by
      unfold readOperand
      rw [if_pos hmembership, Operator.name_eq_of_ofName? hname]
      cases value with
      | array items => exact absurd rfl (hitems items)
      | object members => exact absurd rfl (hmembers members)
      | _ => rfl
    refine .of_error (by rw [hread, hnone]; rfl)
      (.membershipShape hname hmembership hitems hmembers) ?_ ?_
    · intro other hother
      cases hother <;> simp_all
    · intro result hresult
      cases hresult <;> simp_all

/-- A range takes a list and nothing else. How long the list is, is looked at when it is compiled.
-/
theorem faithful_range {name : String} {operator : Operator} {value : Json}
    (hname : Operator.ofName? name = some operator) (hmembership : operator.isMembership = false)
    (hrange : operator.isRange = true) (hitems : ∀ items, value ≠ .array items) :
    Faithful readComparison ComparisonReads ComparisonFails (name, value) := by
  have hnone : readOperand operator value = .error (.malformedOperator name .pair) := by
    unfold readOperand
    rw [hmembership, hrange, Operator.name_eq_of_ofName? hname]
    cases value with
    | array items => exact absurd rfl (hitems items)
    | _ => rfl
  have hread : readComparison (name, value) = .error (.malformedOperator name .pair) := by
    rw [readComparison, hname]
    dsimp only
    rw [hnone]
    rfl
  refine .of_error hread (.rangeShape hname hrange hitems) ?_ ?_
  · intro other hother
    cases hother <;> simp_all
  · intro result hresult
    cases hresult <;> simp_all

/-- Operators that compare with one value, or with the rows of a quantified subquery. -/
theorem faithful_value {name : String} {operator : Operator} {value : Json}
    (hname : Operator.ofName? name = some operator) (hmembership : operator.isMembership = false)
    (hrange : operator.isRange = false) (hitems : ∀ items, value ≠ .array items)
    (h : IsFaithfulBelow value) :
    Faithful readComparison ComparisonReads ComparisonFails (name, value) := by
  have hread : readComparison (name, value) = (operator, ·) <$> readOperand operator value := by
    rw [readComparison, hname]
  -- an object is quantified subqueries here, and any other value is compared with as it is
  rcases value.object_or with ⟨members, rfl⟩ | hmembers
  · have hspelled : operator.name = name := Operator.name_eq_of_ofName? hname
    refine .of_map (faithful_groups operator h) (f := fun groups => (operator, .quantified groups))
      (g := id) ?_ ?_ ?_
    · rw [hread, readOperand, hmembership, hrange, ← readQuantified_eq_mapM]
      simp only [Bool.false_eq_true, if_false]
      cases readQuantified operator members <;> rfl
    · intro result
      constructor
      · intro hresult
        cases hresult with
        | quantified hother _ _ hgroups =>
          obtain rfl := Option.some.inj (hname.symm.trans hother)
          exact ⟨_, hgroups, rfl⟩
        | value | subqueries => simp_all
      · rintro ⟨groups, hgroups, rfl⟩
        exact .quantified hname hmembership hrange hgroups
    · intro error
      -- the grammar names the operator, the reader of groups its spelling
      simp only [firstFails_iff, id, exists_eq_right]
      constructor
      · intro herror
        cases herror with
        | group _ _ _ hmembers hfront hfails =>
          rw [hspelled]
          exact ⟨_, _, _, hmembers, hfront, hfails⟩
        | unknown | membershipShape | rangeShape | subquery => simp_all
      · rintro ⟨front, member, back, hmembers, hfront, hfails⟩
        rw [hspelled] at hfails
        exact .group hname hmembership hrange hmembers hfront hfails
  · have hvalue : readOperand operator value = .ok (.value value) := by
      unfold readOperand
      rw [hmembership, hrange]
      cases value with
      | array items => exact absurd rfl (hitems items)
      | object members => exact absurd rfl (hmembers members)
      | _ => rfl
    refine .of_ok (by rw [hread, hvalue]; rfl)
      (.value hname hmembership hrange hitems hmembers) ?_ ?_
    · intro other hother
      cases hother <;> simp_all
    · intro error herror
      cases herror <;> simp_all

/-- The kinds of operators exclude each other, and each has its own lemma above. -/
theorem faithful_comparison {name : String} {value : Json} (h : IsFaithfulBelow value) :
    Faithful readComparison ComparisonReads ComparisonFails (name, value) := by
  cases hname : Operator.ofName? name with
  | none =>
    have hread : readComparison (name, value) = .error (.unknownOperator name) := by
      rw [readComparison, hname]
    refine .of_error hread (.unknown hname) ?_ ?_
    · intro other hother
      cases hother <;> simp_all
    · intro result hresult
      cases hresult <;> simp_all
  | some operator =>
    rcases value.array_or with ⟨items, rfl⟩ | hitems
    · have hread : readComparison (name, .array items) = .ok (operator, .list items) := by
        rw [readComparison, hname]
        dsimp only
        rw [readOperand_array]
        rfl
      refine .of_ok hread (.list hname) ?_ ?_
      · intro other hother
        cases hother <;> simp_all
      · intro error herror
        cases herror <;> simp_all
    · cases hmembership : operator.isMembership with
      | true => exact faithful_membership hname hmembership hitems h
      | false =>
        cases hrange : operator.isRange with
        | true => exact faithful_range hname hmembership hrange hitems
        | false => exact faithful_value hname hmembership hrange hitems h

/-! ## Entries -/

/-- The word makes a group of its branches. -/
def EntryKey.Groups (word : EntryKey) (make : List Predicate → Condition) : Prop :=
  word = .anyOf ∧ make = .anyOf ∨ word = .allOf ∧ make = .allOf

/-- There are two words that make groups. -/
theorem EntryKey.Groups.word {word : EntryKey} {make : List Predicate → Condition}
    (h : word.Groups make) : word = .anyOf ∨ word = .allOf :=
  h.imp And.left And.left

/-- A group is read branch by branch. -/
theorem readCondition_items {key : String} {make : List Predicate → Condition}
    (hkey : (EntryKey.ofText key).Groups make) (items : List Json) :
    readCondition key (.array items) = make <$> items.mapM Predicate.ofJson? := by
  rw [← readBranches_eq_mapM]
  unfold readCondition
  rcases hkey with ⟨hkey, rfl⟩ | ⟨hkey, rfl⟩ <;> rw [hkey]

/-- Branches have to be a list, whatever they are. -/
theorem readCondition_noItems {key : String} (hkey : EntryKey.ofText key = .anyOf ∨
    EntryKey.ofText key = .allOf) {value : Json} (hnone : ∀ items, value ≠ .array items) :
    readCondition key value = .error (.malformedOperator key .branches) := by
  unfold readCondition
  rcases hkey with hkey | hkey
  all_goals
    rw [hkey]
    cases value with
    | array items => exact absurd rfl (hnone items)
    | _ => rfl

theorem entryReads_items_iff {key : String} {make : List Predicate → Condition}
    (hkey : (EntryKey.ofText key).Groups make) {items : List Json} {entry : String × Condition} :
    EntryReads (key, .array items) entry ↔
      ∃ branches, List.Forall₂ PredicateReads items branches ∧ (key, make branches) = entry := by
  rcases hkey with ⟨hkey, rfl⟩ | ⟨hkey, rfl⟩
  · constructor
    · intro hentry
      cases hentry with
      | anyOf _ hbranches => exact ⟨_, hbranches, rfl⟩
      | allOf | negation | equals => simp_all
    · rintro ⟨branches, hbranches, rfl⟩
      exact .anyOf hkey hbranches
  · constructor
    · intro hentry
      cases hentry with
      | allOf _ hbranches => exact ⟨_, hbranches, rfl⟩
      | anyOf | negation | equals => simp_all
    · rintro ⟨branches, hbranches, rfl⟩
      exact .allOf hkey hbranches

/-- Both words are read in the same way, so there is one lemma for the two. -/
theorem faithful_branches {key : String} {value : Json} {make : List Predicate → Condition}
    (hgroups : (EntryKey.ofText key).Groups make) (h : IsFaithfulBelow value) :
    Faithful readEntry EntryReads EntryFails (key, value) := by
  have hkey := hgroups.word
  rcases value.array_or with ⟨items, rfl⟩ | hnone
  · have hbranches : Faithful (List.mapM Predicate.ofJson?) (List.Forall₂ PredicateReads)
        (FirstFails (fun item => ∃ branch, PredicateReads item branch) PredicateFails) items :=
      .mapM fun item hitem => h item (Json.sizeOf_lt_of_mem_items hitem)
    refine .of_map hbranches (f := fun branches => (key, make branches)) (g := id) ?_
      (fun entry => entryReads_items_iff hgroups) ?_
    · rw [readEntry, readCondition_items hgroups]
      cases items.mapM Predicate.ofJson? <;> rfl
    · intro error
      constructor
      · intro herror
        cases herror with
        | branch _ hfails => exact ⟨_, hfails, rfl⟩
        | branchesShape _ hnone => exact absurd rfl (hnone items)
        | negation | existenceShape => simp_all
      · rintro ⟨_, hfails, rfl⟩
        exact .branch hkey hfails
  · have hread : readEntry (key, value) = .error (.malformedOperator key .branches) := by
      rw [readEntry, readCondition_noItems hkey hnone]
      rfl
    refine .of_error hread (.branchesShape hkey hnone) ?_ ?_
    · intro other hother
      cases hother <;> simp_all
    · intro result hresult
      cases hresult <;> simp_all

/-- A negation is a predicate, and it fails as the predicate in it does. -/
theorem faithful_negation {key : String} {value : Json} (hkey : EntryKey.ofText key = .negation)
    (h : IsFaithful value) : Faithful readEntry EntryReads EntryFails (key, value) := by
  have hread : readEntry (key, value) =
      ((fun inner => (key, .negation inner)) <$> Predicate.ofJson? value).mapError id := by
    rw [readEntry]
    unfold readCondition
    rw [hkey]
    cases value with
    | object members =>
      dsimp only
      rw [Predicate.ofJson?]
      cases readEntries members <;> rfl
    | _ => rfl
  refine .of_map h hread ?_ ?_
  · intro result
    constructor
    · intro hentry
      cases hentry with
      | negation _ hinner => exact ⟨_, hinner, rfl⟩
      | anyOf | allOf | existence | equals | comparisons => simp_all
    · rintro ⟨inner, hinner, rfl⟩
      exact .negation hkey hinner
  · intro error
    constructor
    · intro herror
      cases herror with
      | negation _ hfails => exact ⟨_, hfails, rfl⟩
      | branchesShape | branch | existenceShape | existence | comparison => simp_all
    · rintro ⟨_, hfails, rfl⟩
      exact .negation hkey hfails

/-- Existence tests are an object with a relation under each key, and the first that cannot be read
fails. -/
theorem faithful_existence {key : String} {value : Json} (hkey : EntryKey.ofText key = .existence)
    (h : IsFaithfulBelow value) : Faithful readEntry EntryReads EntryFails (key, value) := by
  rcases value.object_or with ⟨members, rfl⟩ | hnone
  · -- every relation under the key is smaller than the object that has it
    have hentries : Faithful (List.mapM readExistsEntry) (List.Forall₂ ExistsReads)
        (FirstFails (fun member => ∃ entry, ExistsReads member entry) ExistsFails) members :=
      .mapM fun member hmember =>
        faithful_exists (h.inside (Json.sizeOf_lt_of_mem_members hmember))
    have hread : readEntry (key, .object members) =
        ((fun entries => (key, .existence entries)) <$>
          members.mapM readExistsEntry).mapError id := by
      rw [readEntry]
      unfold readCondition
      rw [hkey]
      dsimp only
      rw [readExistence_eq_mapM]
      cases members.mapM readExistsEntry <;> rfl
    refine .of_map hentries hread ?_ ?_
    · intro result
      constructor
      · intro hentry
        cases hentry with
        | existence _ hentries => exact ⟨_, hentries, rfl⟩
        | negation | equals | comparisons => simp_all
      · rintro ⟨entries, hentries, rfl⟩
        exact .existence hkey hentries
    · intro error
      constructor
      · intro herror
        cases herror with
        | existence _ hfails => exact ⟨_, hfails, rfl⟩
        | existenceShape _ hnone => exact absurd rfl (hnone members)
        | branchesShape | negation | comparison => simp_all
      · rintro ⟨_, hfails, rfl⟩
        exact .existence hkey hfails
  · have hread : readEntry (key, value) = .error (.malformedOperator key .relations) := by
      rw [readEntry]
      unfold readCondition
      rw [hkey]
      cases value with
      | object members => exact absurd rfl (hnone members)
      | _ => rfl
    refine .of_error hread (.existenceShape hkey hnone) ?_ ?_
    · intro other hother
      cases hother <;> simp_all
    · intro result hresult
      cases hresult <;> simp_all

/-- A column has an object of operators behind it, or a value that it equals. -/
theorem faithful_column {key : String} {value : Json} (hkey : EntryKey.ofText key = .column)
    (h : IsFaithfulBelow value) : Faithful readEntry EntryReads EntryFails (key, value) := by
  rcases value.object_or with ⟨members, rfl⟩ | hnone
  · -- every operator on the column is smaller than the object that has it
    have hentries : Faithful (List.mapM readComparison) (List.Forall₂ ComparisonReads)
        (FirstFails (fun member => ∃ entry, ComparisonReads member entry) ComparisonFails)
        members :=
      .mapM fun member hmember =>
        faithful_comparison (h.inside (Json.sizeOf_lt_of_mem_members hmember))
    have hread : readEntry (key, .object members) =
        ((fun entries => (key, .comparisons entries)) <$>
          members.mapM readComparison).mapError id := by
      rw [readEntry]
      unfold readCondition
      rw [hkey]
      dsimp only
      rw [readComparisons_eq_mapM]
      cases members.mapM readComparison <;> rfl
    refine .of_map hentries hread ?_ ?_
    · intro result
      constructor
      · intro hentry
        cases hentry with
        | comparisons _ hentries => exact ⟨_, hentries, rfl⟩
        | equals _ hnone => exact absurd rfl (hnone members)
        | negation | existence => simp_all
      · rintro ⟨entries, hentries, rfl⟩
        exact .comparisons hkey hentries
    · intro error
      constructor
      · intro herror
        cases herror with
        | comparison _ hfails => exact ⟨_, hfails, rfl⟩
        | branchesShape | negation | existenceShape | existence => simp_all
      · rintro ⟨_, hfails, rfl⟩
        exact .comparison hkey hfails
  · -- a value that is no object can not fail
    have hread : readEntry (key, value) = .ok (key, .equals value) := by
      rw [readEntry]
      unfold readCondition
      rw [hkey]
      cases value with
      | object members => exact absurd rfl (hnone members)
      | _ => rfl
    refine .of_ok hread (.equals hkey hnone) ?_ ?_
    · intro other hother
      cases hother <;> simp_all
    · intro error herror
      cases herror <;> simp_all

/-- What an entry is depends on its key alone. -/
theorem faithful_entry {key : String} {value : Json} (h : IsFaithful value)
    (hbelow : IsFaithfulBelow value) : Faithful readEntry EntryReads EntryFails (key, value) := by
  cases hkey : EntryKey.ofText key with
  | anyOf => exact faithful_branches (Or.inl ⟨hkey, rfl⟩) hbelow
  | allOf => exact faithful_branches (Or.inr ⟨hkey, rfl⟩) hbelow
  | negation => exact faithful_negation hkey h
  | existence => exact faithful_existence hkey hbelow
  | column => exact faithful_column hkey hbelow

/-! ## Predicates -/

/-- The reader of predicates does what the grammar says, on every value. -/
theorem faithful_predicate (value : Json) : IsFaithful value := by
  rcases value.object_or with ⟨members, rfl⟩ | hnone
  · have hentries : Faithful (List.mapM readEntry) (List.Forall₂ EntryReads)
        (FirstFails (fun member => ∃ entry, EntryReads member entry) EntryFails) members := by
      refine .mapM fun member hmember => ?_
      -- the recursion goes to values inside the object
      have hlt := Json.sizeOf_lt_of_mem_members hmember
      exact faithful_entry (faithful_predicate member.2) fun inner hinner =>
        faithful_predicate inner
    refine .of_map hentries (f := .ofEntries) (g := id) ?_ ?_ ?_
    · rw [ofJson?_object]
      cases members.mapM readEntry <;> rfl
    · intro result
      constructor
      · rintro ⟨hread⟩
        exact ⟨_, hread, rfl⟩
      · rintro ⟨entries, hread, rfl⟩
        exact .object hread
    · intro error
      constructor
      · rintro (hnone | hfails)
        · exact absurd rfl (hnone members)
        · exact ⟨_, hfails, rfl⟩
      · rintro ⟨_, hfails, rfl⟩
        exact .entry hfails
  · have hread : Predicate.ofJson? value = .error (.validation .predicateForm) := by
      cases value with
      | object members => exact absurd rfl (hnone members)
      | _ => rfl
    refine .of_error hread (.shape hnone) ?_ ?_
    · rintro other (_ | _)
      · rfl
      · exact absurd rfl (hnone _)
    · rintro result ⟨-⟩
      exact hnone _ rfl
termination_by sizeOf value

/-! ## What is kept -/

/-- A predicate has a condition for each key, in the order of the keys. -/
theorem keys_of_entriesRead {members : List (String × Json)} {entries : List (String × Condition)}
    (h : List.Forall₂ EntryReads members entries) :
    Entries.keys entries = Entries.keys members := by
  induction h with
  | nil => rfl
  | cons hentry _ ih =>
    rw [Entries.keys, List.map_cons, ← Entries.keys, ih]
    cases hentry <;> rfl

/-- A map of operators has an operand for each name, in the order of the names. -/
theorem names_of_comparisonsRead {members : List (String × Json)}
    {entries : List (Operator × Operand)} (h : List.Forall₂ ComparisonReads members entries) :
    (Entries.keys entries).map Operator.name = Entries.keys members := by
  induction h with
  | nil => rfl
  | @cons member entry _ _ hentry _ ih =>
    have hname : entry.1.name = member.1 := by
      cases hentry with
      | list hname | subqueries hname | value hname | quantified hname =>
        exact Operator.name_eq_of_ofName? hname
    rw [Entries.keys, List.map_cons, ← Entries.keys, List.map_cons, ih, hname]
    rfl

/-- A map of operators is read from an object under its key. No name in it is lost, and no two names
become one operator. -/
theorem names_of_entriesRead {members : List (String × Json)} {entries : List (String × Condition)}
    (h : List.Forall₂ EntryReads members entries) {key : String}
    {operators : List (Operator × Operand)} (hkey : (key, .comparisons operators) ∈ entries) :
    ∃ names, (key, .object names) ∈ members ∧
      (Entries.keys operators).map Operator.name = Entries.keys names ∧
      ((Entries.keys names).Nodup → (Entries.keys operators).Nodup) := by
  obtain ⟨member, hmember, hentry⟩ := exists_mem_of_forall₂ h hkey
  cases hentry with
  | comparisons _ hoperators =>
    have hnames := names_of_comparisonsRead hoperators
    exact ⟨_, hmember, hnames, fun hnodup => .of_map Operator.name (hnames ▸ hnodup)⟩

/-- A predicate is read exactly from what the grammar says, and as what it says; of everything else
the error is the one that the grammar gives, which is that of the first part that cannot be read.
What is read has a condition for each key, in order, and an operator for each name of a map of
operators. -/
theorem Predicate.ofJson?_grammar (json : Json) :
    (∀ predicate, Predicate.ofJson? json = .ok predicate ↔ PredicateReads json predicate) ∧
    (∀ error, Predicate.ofJson? json = .error error ↔ PredicateFails json error) ∧
    ∀ predicate, Predicate.ofJson? json = .ok predicate →
      ∃ members, json = .object members ∧ Entries.keys predicate.entries = Entries.keys members ∧
        ∀ key operators, (key, .comparisons operators) ∈ predicate.entries →
          ∃ names, (key, .object names) ∈ members ∧
            (Entries.keys operators).map Operator.name = Entries.keys names ∧
            ((Entries.keys names).Nodup → (Entries.keys operators).Nodup) := by
  refine ⟨fun _ => (faithful_predicate json).ok_iff,
    fun _ => (faithful_predicate json).error_iff, ?_⟩
  intro predicate hread
  obtain ⟨hentries⟩ := (faithful_predicate json).ok_iff.mp hread
  refine ⟨_, rfl, keys_of_entriesRead hentries, ?_⟩
  intro key operators hkey
  exact names_of_entriesRead hentries hkey

/-- A group, and two operators on one column. -/
def adultJson : Json :=
  .object [("OR", .array [.object [("name", .string "Ann")]]),
    ("age", .object [("greaterThan", .number (.int 17)), ("notIn", .array [.number (.int 99)])])]

def adultPredicate : Predicate :=
  .ofEntries [("OR", .anyOf [.ofEntries [("name", .equals (.string "Ann"))]]),
    ("age", .comparisons [(.greaterThan, .value (.number (.int 17))),
      (.notIn, .list [.number (.int 99)])])]

/-- A group and two operators are read as the grammar says, and nothing of the JSON is lost. -/
theorem ofJson?_adult :
    Predicate.ofJson? adultJson = .ok adultPredicate ∧ PredicateReads adultJson adultPredicate ∧
      ∃ members, adultJson = .object members ∧
        Entries.keys adultPredicate.entries = Entries.keys members ∧
        ∀ key operators, (key, .comparisons operators) ∈ adultPredicate.entries →
          ∃ names, (key, .object names) ∈ members ∧
            (Entries.keys operators).map Operator.name = Entries.keys names ∧
            ((Entries.keys names).Nodup → (Entries.keys operators).Nodup) := by
  obtain ⟨hreads, -, hkept⟩ := Predicate.ofJson?_grammar adultJson
  have hread : Predicate.ofJson? adultJson = .ok adultPredicate := rfl
  exact ⟨hread, (hreads _).mp hread, hkept _ hread⟩

end DescriptorSql
