import DescriptorSql.Proofs.Compile.Emptiness
import DescriptorSql.Proofs.Compile.Failure
import DescriptorSql.Proofs.Reading.Predicate

/-!
# `Proofs/Compile/Connectives.lean` — where connectives and parentheses stand

A compiled predicate is a row of marks: its atoms, the connectives between them, and the parentheses
of its groups and negations (`Predicate.marks`). Where the marks stand can be said without reference
to text, and it is as one expects whatever the predicate is (`Predicate.isPlaced_marks`): a
connective stands between two things that can be connected, and there is something in parentheses.

The compiler looks at texts instead. It leaves out what is empty and connects what is left, at every
level, so the two agree only because an atom is never an empty text (`Atom.written_ne_empty`). A
predicate that was read is compiled to its marks one behind the other, and so is each condition in
it, also one that has the conditions of joins laid over it (`Predicate.DrawsFrom.marked`).
-/

set_option autoImplicit false

namespace DescriptorSql

/-! ## Marks -/

/-- A part of a compiled predicate. -/
inductive Mark where
  | connective (connective : Connective)
  | opening (negated : Bool)
  | closing
  | atom (atom : Atom)

namespace Mark

/-- The mark is the first of something that can be connected. -/
def begins : Mark → Bool
  | opening _ | atom _ => true
  | connective _ | closing => false

/-- The mark is the last of something that can be connected. -/
def ends : Mark → Bool
  | closing | atom _ => true
  | connective _ | opening _ => false

end Mark

/-- Between two things that can be connected there is a connective, around them there are
parentheses, and there are no others: the marks begin and end with something that can be connected,
something begins behind every connective and every opening parenthesis, and nothing begins where
something ends. -/
structure IsPlaced (marks : List Mark) : Prop where
  begins : ∀ mark ∈ marks.head?, mark.begins = true
  ends : ∀ mark ∈ marks.getLast?, mark.ends = true
  alternates : marks.IsChain fun mark next => next.begins = !mark.ends

def Connective.joinMarks (connective : Connective) (clauses : List (List Mark)) : List Mark :=
  [Mark.connective connective].intercalate clauses

/-- The branches of a group that have marks, in parentheses. -/
def groupMarks (connective : Connective) (branches : List (List Mark)) : List (List Mark) :=
  let shown := branches.filter (!·.isEmpty)
  if shown.isEmpty then [] else [.opening false :: (connective.joinMarks shown ++ [.closing])]

def negationMarks (marks : List Mark) : List (List Mark) :=
  if marks.isEmpty then [] else [.opening true :: (marks ++ [.closing])]

def existenceMarks (tests : List (List Mark)) : List (List Mark) :=
  if tests.isEmpty then [] else [Connective.and.joinMarks tests]

mutual

/-- The marks of each clause of the entries. -/
def entryMarks : List (String × Condition) → List (List Mark)
  | [] => []
  | (field, condition) :: rest => condition.marks field ++ entryMarks rest

def Condition.marks (field : String) : Condition → List (List Mark)
  | .anyOf branches => groupMarks .or (branchMarks .or branches)
  | .allOf branches => groupMarks .and (branchMarks .and branches)
  | .negation (.ofEntries entries) => negationMarks (Connective.and.joinMarks (entryMarks entries))
  | .existence entries =>
    existenceMarks (entries.map fun (name, body) => [.atom (.existence name body)])
  | .equals value => [[.atom (.comparison field .equals value)]]
  | .comparisons entries =>
    entries.flatMap fun (operator, operand) => (operand.atoms field operator).map fun atom =>
      [.atom atom]

def branchMarks (connective : Connective) : List Predicate → List (List Mark)
  | [] => []
  | .ofEntries entries :: rest =>
    connective.joinMarks (entryMarks entries) :: branchMarks connective rest

end

/-- The marks of a predicate, its clauses connected by a connective. -/
def Predicate.marks (connective : Connective) (predicate : Predicate) : List Mark :=
  connective.joinMarks (entryMarks predicate.entries)

/-! ## Placement -/

namespace IsPlaced

variable {marks others : List Mark}

theorem nil : IsPlaced [] := ⟨by simp, by simp, .nil⟩

theorem atom (atom : Atom) : IsPlaced [.atom atom] where
  begins := by
    intro mark hmark
    cases hmark
    rfl
  ends := by
    intro mark hmark
    cases hmark
    rfl
  alternates := .singleton _

/-- Two rows that can be connected are one with a connective between them. -/
theorem connect (h : IsPlaced marks) (h' : IsPlaced others) (hne : marks ≠ []) (hne' : others ≠ [])
    (connective : Connective) : IsPlaced (marks ++ [.connective connective] ++ others) where
  begins := by
    rw [List.append_assoc, List.head?_append_of_ne_nil _ hne]
    exact h.begins
  ends := by
    rw [List.getLast?_append_of_ne_nil _ hne']
    exact h'.ends
  alternates := by
    rw [List.append_assoc, List.singleton_append, List.isChain_append, List.isChain_cons]
    refine ⟨h.alternates, ⟨?_, h'.alternates⟩, ?_⟩
    · intro next hnext
      exact h'.begins next hnext
    · intro last hlast next hnext
      cases hnext
      rw [h.ends last hlast]
      rfl

/-- In parentheses, with or without NOT, a row can be connected as a whole. -/
theorem enclose (h : IsPlaced marks) (hne : marks ≠ []) (negated : Bool) :
    IsPlaced (.opening negated :: (marks ++ [.closing])) where
  begins := by
    intro mark hmark
    cases hmark
    rfl
  ends := by
    intro mark hmark
    rw [← List.cons_append, List.getLast?_concat] at hmark
    cases hmark
    rfl
  alternates := by
    rw [List.isChain_cons, List.head?_append_of_ne_nil _ hne, List.isChain_append]
    refine ⟨?_, h.alternates, .singleton _, ?_⟩
    · intro next hnext
      exact h.begins next hnext
    · intro last hlast next hnext
      cases hnext
      rw [h.ends last hlast]
      rfl

end IsPlaced

/-- All of the clauses are something that can be connected. -/
def AllPlaced (clauses : List (List Mark)) : Prop :=
  ∀ clause ∈ clauses, clause ≠ [] ∧ IsPlaced clause

/-- Clauses that can be connected are one row, and it is empty only if there are none. -/
theorem isPlaced_joinMarks {clauses : List (List Mark)} (h : AllPlaced clauses)
    (connective : Connective) :
    (clauses ≠ [] → connective.joinMarks clauses ≠ []) ∧
      IsPlaced (connective.joinMarks clauses) := by
  induction clauses with
  | nil => exact ⟨fun hne => absurd rfl hne, .nil⟩
  | cons clause rest ih =>
    obtain ⟨⟨hne, hclause⟩, hrest⟩ := List.forall_mem_cons.mp h
    cases rest with
    | nil => simpa [Connective.joinMarks] using ⟨hne, hclause⟩
    | cons next rest =>
      obtain ⟨hothers, hplaced⟩ := ih hrest
      rw [Connective.joinMarks, List.intercalate_cons_cons]
      exact ⟨by simp, hclause.connect hplaced hne (hothers (by simp)) connective⟩

namespace AllPlaced

theorem nil : AllPlaced [] := by simp [AllPlaced]

theorem single {clause : List Mark} (hne : clause ≠ []) (h : IsPlaced clause) :
    AllPlaced [clause] :=
  List.forall_mem_singleton.mpr ⟨hne, h⟩

theorem append {clauses others : List (List Mark)} (h : AllPlaced clauses) (h' : AllPlaced others) :
    AllPlaced (clauses ++ others) := List.forall_mem_append.mpr ⟨h, h'⟩

/-- Branches without marks are left out, and the others are enclosed together. -/
theorem group {branches : List (List Mark)} (h : ∀ branch ∈ branches, IsPlaced branch)
    (connective : Connective) : AllPlaced (groupMarks connective branches) := by
  have hshown : AllPlaced (branches.filter (!·.isEmpty)) := by
    intro branch hbranch
    obtain ⟨hmem, hne⟩ := List.mem_filter.mp hbranch
    exact ⟨by simpa using hne, h branch hmem⟩
  obtain ⟨hne, hplaced⟩ := isPlaced_joinMarks hshown connective
  rw [groupMarks]
  split
  · exact nil
  · next hsome => exact single (by simp) (hplaced.enclose (hne (by simpa using hsome)) false)

theorem negation {marks : List Mark} (h : IsPlaced marks) : AllPlaced (negationMarks marks) := by
  rw [negationMarks]
  split
  · exact nil
  · next hne => exact single (by simp) (h.enclose (by simpa using hne) true)

theorem existence {tests : List (List Mark)} (h : AllPlaced tests) :
    AllPlaced (existenceMarks tests) := by
  obtain ⟨hne, hplaced⟩ := isPlaced_joinMarks h .and
  rw [existenceMarks]
  split
  · exact nil
  · next hsome => exact single (hne (by simpa using hsome)) hplaced

end AllPlaced

mutual

/-- The induction follows the marks. It asks nothing of the predicate, for what is empty is left out
wherever it is. -/
theorem allPlaced_entryMarks : ∀ entries : List (String × Condition), AllPlaced (entryMarks entries)
  | [] => .nil
  | (field, condition) :: rest => by
    rw [entryMarks]
    exact (allPlaced_marks field condition).append (allPlaced_entryMarks rest)

theorem allPlaced_marks (field : String) :
    ∀ condition : Condition, AllPlaced (condition.marks field)
  | .anyOf branches => by
    rw [Condition.marks]
    exact .group (isPlaced_branchMarks .or branches) .or
  | .allOf branches => by
    rw [Condition.marks]
    exact .group (isPlaced_branchMarks .and branches) .and
  | .negation (.ofEntries entries) => by
    rw [Condition.marks]
    exact .negation (isPlaced_joinMarks (allPlaced_entryMarks entries) .and).2
  | .existence entries => by
    rw [Condition.marks]
    refine .existence (List.forall_mem_map.mpr fun entry _ => ?_)
    exact ⟨by simp, .atom (.existence entry.1 entry.2)⟩
  | .equals value => by
    rw [Condition.marks]
    exact .single (by simp) (.atom _)
  | .comparisons entries => by
    rw [Condition.marks]
    intro clause hclause
    obtain ⟨entry, -, hclause⟩ := List.mem_flatMap.mp hclause
    obtain ⟨atom, -, rfl⟩ := List.mem_map.mp hclause
    exact ⟨by simp, .atom atom⟩

theorem isPlaced_branchMarks (connective : Connective) :
    ∀ branches : List Predicate, ∀ branch ∈ branchMarks connective branches, IsPlaced branch
  | [] => by simp [branchMarks]
  | .ofEntries entries :: rest => by
    rw [branchMarks]
    exact List.forall_mem_cons.mpr
      ⟨(isPlaced_joinMarks (allPlaced_entryMarks entries) connective).2,
      isPlaced_branchMarks connective rest⟩

end

theorem Predicate.isPlaced_marks (connective : Connective) (predicate : Predicate) :
    IsPlaced (predicate.marks connective) :=
  (isPlaced_joinMarks (allPlaced_entryMarks predicate.entries) connective).2

/-! ## Texts -/

/-- The text of an atom as it stands in a clause. -/
def Atom.written (catalog : Catalog) : Atom → Except QueryError String
  | .comparison field operator value => valueText field operator value
  | .rows field operator none name query =>
    (Sql.identifier field ++ " " ++ ·) <$> query.toSql catalog (.rows operator.sql) name
  | .rows field operator (some quantifier) name query =>
    comparisonText field operator <$> query.toSql catalog (.rows quantifier.sql) name
  | .existence name body => body.toSubQuery.toSql catalog .existence name

def Mark.text (catalog : Catalog) : Mark → Except QueryError String
  | .connective between => .ok between.separator
  | .opening false => .ok "("
  | .opening true => .ok "NOT("
  | .closing => .ok ")"
  | .atom content => content.written catalog

/-- The marks one behind the other; the first one without a text decides the error. -/
def spell (catalog : Catalog) : List Mark → Except QueryError String
  | [] => .ok ""
  | mark :: rest => do return (← mark.text catalog) ++ (← spell catalog rest)

section

variable {catalog : Catalog}

/-- Two rows of marks are spelled one after the other, and the first that fails decides the error.
-/
theorem spell_append (marks others : List Mark) :
    spell catalog (marks ++ others) =
      do return (← spell catalog marks) ++ (← spell catalog others) := by
  induction marks with
  | nil =>
    rw [List.nil_append, spell]
    cases spell catalog others with
    | error error => rfl
    | ok text => exact congrArg Except.ok String.empty_append.symm
  | cons mark rest ih =>
    rw [List.cons_append, spell, spell, ih]
    cases mark.text catalog with
    | error error => rfl
    | ok own =>
      cases spell catalog rest with
      | error error => rfl
      | ok text =>
        cases spell catalog others with
        | error error => rfl
        | ok text' => exact congrArg Except.ok String.append_assoc.symm

theorem spell_atom (atom : Atom) : spell catalog [.atom atom] = atom.written catalog := by
  rw [spell, Mark.text]
  cases atom.written catalog with
  | error error => rfl
  | ok text => exact congrArg Except.ok String.append_empty

/-- Parentheses have a text always, so only what is between them can fail. -/
theorem spell_enclose (negated : Bool) (marks : List Mark) :
    spell catalog (.opening negated :: (marks ++ [.closing])) =
      (fun text => (if negated then "NOT(" else "(") ++ text ++ ")") <$> spell catalog marks := by
  have hclosing : spell catalog [.closing] = .ok ")" := rfl
  have hopening : Mark.text catalog (.opening negated) = .ok (if negated then "NOT(" else "(") := by
    cases negated <;> rfl
  rw [spell, hopening, spell_append, hclosing]
  cases spell catalog marks with
  | error error => rfl
  | ok text => exact congrArg Except.ok String.append_assoc.symm

/-- Connecting the marks of clauses and spelling them is spelling the clauses and joining their
texts. -/
theorem spell_joinMarks (connective : Connective) (clauses : List (List Mark)) :
    spell catalog (connective.joinMarks clauses) =
      connective.join <$> clauses.mapM (spell catalog) := by
  induction clauses with
  | nil => rfl
  | cons clause rest ih =>
    rw [List.mapM_cons]
    cases rest with
    | nil =>
      rw [Connective.joinMarks, List.intercalate_singleton]
      cases spell catalog clause with
      | error error => rfl
      | ok text => exact congrArg Except.ok String.intercalate_singleton.symm
    | cons next rest =>
      have hseparator : spell catalog [.connective connective] = .ok connective.separator :=
        congrArg Except.ok String.append_empty
      rw [Connective.joinMarks, List.intercalate_cons_cons, spell_append, spell_append, hseparator,
        ← Connective.joinMarks, ih]
      cases spell catalog clause with
      | error error => rfl
      | ok text =>
        cases htexts : (next :: rest).mapM (spell catalog) with
        | error error => rfl
        | ok texts =>
          have hne : texts ≠ [] := by
            have hsome := isEmpty_of_mapM htexts
            rw [List.isEmpty_cons] at hsome
            exact List.isEmpty_eq_false_iff.mp hsome
          exact congrArg Except.ok (connective.join_cons text hne).symm

/-! ## Clauses -/

/-- The branches that have a text, in parentheses. -/
def enclosedClauses (connective : Connective) (shown : List String) : List String :=
  if shown.isEmpty then [] else ["(" ++ connective.join shown ++ ")"]

/-- Leaving out empty branches comes first, and the parentheses come after. -/
theorem map_groupClauses (connective : Connective) (texts : Clausal) :
    groupClauses connective <$> texts =
      enclosedClauses connective <$> List.filter (!·.isEmpty) <$> texts := by
  cases texts <;> rfl

/-- An atom has an operator or a keyword in its text. This is what the marks and the texts have to
agree on. -/
theorem Atom.written_ne_empty {atom : Atom} {text : String} (h : atom.written catalog = .ok text) :
    text ≠ "" := by
  cases atom with
  | comparison field operator value =>
    rw [Atom.written] at h
    unfold valueText at h
    split at h
    · split at h
      · cases h
        exact comparisonText_ne_empty field operator _
      · cases h
    · cases h
      exact comparisonText_ne_empty field operator _
  | rows field operator quantifier? name query =>
    cases quantifier? with
    | none =>
      obtain ⟨rows, -, rfl⟩ := exists_of_map_eq_ok h
      simp
    | some quantifier =>
      obtain ⟨rows, -, rfl⟩ := exists_of_map_eq_ok h
      exact comparisonText_ne_empty field operator rows
  | existence name body =>
    obtain ⟨place, -, h⟩ := exists_of_bind_eq_ok h
    obtain ⟨expansion, -, h⟩ := exists_of_bind_eq_ok h
    cases h
    exact subQueryText_ne_empty .existence place body.toSubQuery.body expansion

theorem Mark.text_ne_empty {mark : Mark} {text : String} (h : mark.text catalog = .ok text) :
    text ≠ "" := by
  cases mark with
  | connective between =>
    cases h
    cases between <;> decide
  | opening negated => cases negated <;> cases h <;> decide
  | closing =>
    cases h
    decide
  | atom content => exact content.written_ne_empty h

/-- There is no text exactly if there are no marks. -/
theorem isEmpty_spell {marks : List Mark} {text : String} (h : spell catalog marks = .ok text) :
    text.isEmpty = marks.isEmpty := by
  cases marks with
  | nil =>
    cases h
    rfl
  | cons mark rest =>
    obtain ⟨own, hown, h⟩ := exists_of_bind_eq_ok h
    obtain ⟨others, -, h⟩ := exists_of_bind_eq_ok h
    cases h
    have hne := mark.text_ne_empty hown
    rw [List.isEmpty_cons, ← Bool.not_eq_true, String.isEmpty_iff]
    simp [hne]

/-- The branches without marks are those without a text, so leaving out the ones is leaving out the
others. -/
theorem filter_mapM_spell (branches : List (List Mark)) :
    List.filter (!·.isEmpty) <$> branches.mapM (spell catalog) =
      (branches.filter (!·.isEmpty)).mapM (spell catalog) := by
  induction branches with
  | nil => rfl
  | cons branch rest ih =>
    rw [List.mapM_cons, List.filter_cons]
    -- a branch that fails has marks, so it is not left out
    cases hbranch : spell catalog branch with
    | error error =>
      have hne : branch.isEmpty = false := by
        cases branch with
        | nil => cases hbranch
        | cons => rfl
      rw [if_pos (by simp [hne]), List.mapM_cons, hbranch]
      rfl
    | ok text =>
      have hempty := isEmpty_spell hbranch
      cases hshown : branch.isEmpty with
      | true =>
        rw [if_neg (by simp), ← ih]
        cases rest.mapM (spell catalog) with
        | error error => rfl
        | ok others =>
          refine congrArg Except.ok ?_
          rw [List.filter_cons, if_neg (by simp [hempty, hshown])]
      | false =>
        rw [if_pos (by simp), List.mapM_cons, hbranch, ← ih]
        cases rest.mapM (spell catalog) with
        | error error => rfl
        | ok others =>
          refine congrArg Except.ok ?_
          rw [List.filter_cons, if_pos (by simp [hempty, hshown])]

/-- A group is spelled as the compiler writes it, and likewise a negation and existence tests below.
-/
theorem mapM_groupMarks (connective : Connective) (branches : List (List Mark)) :
    (groupMarks connective branches).mapM (spell catalog) =
      groupClauses connective <$> branches.mapM (spell catalog) := by
  rw [map_groupClauses, filter_mapM_spell, groupMarks]
  generalize branches.filter (!·.isEmpty) = shown
  by_cases hshown : shown.isEmpty = true
  · rw [if_pos hshown, List.isEmpty_iff.mp hshown]
    rfl
  · rw [if_neg hshown, mapM_singleton, spell_enclose, spell_joinMarks]
    cases htexts : shown.mapM (spell catalog) with
    | error error => rfl
    | ok texts =>
      refine congrArg Except.ok ?_
      rw [enclosedClauses, isEmpty_of_mapM htexts, if_neg hshown]
      rfl

theorem mapM_negationMarks (marks : List Mark) :
    (negationMarks marks).mapM (spell catalog) = negationClauses <$> spell catalog marks := by
  rw [negationMarks]
  by_cases hmarks : marks.isEmpty = true
  · rw [if_pos hmarks, List.isEmpty_iff.mp hmarks]
    rfl
  · rw [if_neg hmarks, mapM_singleton, spell_enclose]
    cases htext : spell catalog marks with
    | error error => rfl
    | ok text =>
      refine congrArg Except.ok ?_
      rw [negationClauses, isEmpty_spell htext, if_neg hmarks]
      rfl

theorem mapM_existenceMarks (tests : List (List Mark)) :
    (existenceMarks tests).mapM (spell catalog) =
      existenceClauses <$> tests.mapM (spell catalog) := by
  rw [existenceMarks]
  by_cases htests : tests.isEmpty = true
  · rw [if_pos htests, List.isEmpty_iff.mp htests]
    rfl
  · rw [if_neg htests, mapM_singleton, spell_joinMarks]
    cases htexts : tests.mapM (spell catalog) with
    | error error => rfl
    | ok texts =>
      refine congrArg Except.ok ?_
      rw [existenceClauses, isEmpty_of_mapM htexts, if_neg htests]

/-! ## Conditions -/

/-- The operands of the condition are such that their operators can be written with them. -/
def Condition.OperandsFit : Condition → Prop
  | .comparisons entries => ∀ entry ∈ entries, entry.2.fits entry.1 = true
  | _ => True

/-- A predicate that was read has no operand that its operator cannot be written with. -/
theorem Predicate.IsRead.operandsFit {predicate : Predicate} (hread : predicate.IsRead)
    {key : String} {condition : Condition} (hentry : (key, condition) ∈ predicate.entries) :
    condition.OperandsFit := by
  cases condition with
  | comparisons entries =>
    exact fun entry hcomparison => hread.fits ⟨key, entries, hentry, hcomparison⟩
  | _ => trivial

variable {field : String} {operator : Operator}

/-- An operator that is not a range is written with the one value behind it. -/
theorem valueText_of_isRange {value : Json} (hrange : operator.isRange = false) :
    valueText field operator value = .ok (comparisonText field operator (Sql.literal value)) := by
  unfold valueText
  rw [if_neg (by simp [hrange])]

/-- A list is compared with as a whole, and two bounds as what they are. -/
theorem operandClauses_items (items : List Json) :
    operandClauses catalog field operator (.list items) =
      (fun text => [text]) <$> valueText field operator (.array items) := by
  rw [operandClauses]
  by_cases hmember : operator.isMembership = true
  · rw [if_pos hmember, valueText_of_isRange (isRange_of_isMembership hmember),
      ← Sql.literalList_eq]
    rfl
  · rw [if_neg hmember]
    by_cases hrange : operator.isRange = true
    · unfold rangeClauses valueText
      rw [if_pos hrange, if_pos hrange]
      rcases items with _ | ⟨low, _ | ⟨high, _ | ⟨other, rest⟩⟩⟩ <;> rfl
    · rw [if_neg hrange, valueText_of_isRange (by simpa using hrange), ← Sql.literalList_eq]
      rfl

/-- Each subquery becomes one clause, with the same text in front of it. -/
theorem map_rowsTexts (keyword : String) (text : String → String)
    (queries : List (String × SubQuery)) :
    List.map text <$> rowsTexts catalog keyword queries =
      queries.mapM fun entry => text <$> entry.2.toSql catalog (.rows keyword) entry.1 := by
  rw [rowsTexts_eq, map_mapM]

/-- The subqueries of all quantifiers are one list of atoms. -/
theorem map_quantifiedTexts (groups : List (Quantifier × List (String × SubQuery))) :
    List.map (comparisonText field operator) <$> quantifiedTexts catalog groups =
      ((Operand.quantified groups).atoms field operator).mapM (Atom.written catalog) := by
  induction groups with
  | nil => rfl
  | cons group rest ih =>
    obtain ⟨quantifier, queries⟩ := group
    have hown :
        (queries.map fun entry => Atom.rows field operator (some quantifier) entry.1 entry.2).mapM
        (Atom.written catalog) =
          List.map (comparisonText field operator) <$> rowsTexts catalog quantifier.sql
            queries := by
      rw [map_rowsTexts, List.mapM_map]
      rfl
    rw [Operand.atoms, List.flatMap_cons, List.mapM_append, hown, ← Operand.atoms, ← ih,
      quantifiedTexts]
    cases rowsTexts catalog quantifier.sql queries with
    | error error => rfl
    | ok own =>
      cases quantifiedTexts catalog rest with
      | error error => rfl
      | ok others => exact congrArg Except.ok List.map_append

/-- The clauses of an operand that fits are its atoms. -/
theorem operandClauses_eq {operand : Operand} (hfits : operand.fits operator = true) :
    operandClauses catalog field operator operand =
      (operand.atoms field operator).mapM (Atom.written catalog) := by
  cases operand with
  | value value =>
    rw [Operand.fits, Bool.and_eq_true, Bool.not_eq_true', Bool.not_eq_true'] at hfits
    unfold operandClauses
    rw [if_neg (by simp [hfits.1]), if_neg (by simp [hfits.2]), Operand.atoms, mapM_singleton,
      Atom.written,
      valueText_of_isRange hfits.2]
    rfl
  | list items =>
    rw [operandClauses_items, Operand.atoms, mapM_singleton, Atom.written]
  | subqueries queries =>
    rw [Operand.fits] at hfits
    rw [operandClauses, if_pos hfits, Operand.atoms, List.mapM_map]
    dsimp only
    rw [map_rowsTexts]
    rfl
  | quantified groups =>
    rw [Operand.fits, Bool.and_eq_true, Bool.not_eq_true', Bool.not_eq_true'] at hfits
    rw [operandClauses, if_neg (by simp [hfits.1]), if_neg (by simp [hfits.2])]
    exact map_quantifiedTexts groups

theorem entryMarks_eq (entries : List (String × Condition)) :
    entryMarks entries = entries.flatMap fun entry => entry.2.marks entry.1 := by
  induction entries with
  | nil => rfl
  | cons entry rest ih => rw [entryMarks, ih, List.flatMap_cons]

theorem branchMarks_eq (connective : Connective) (branches : List Predicate) :
    branchMarks connective branches = branches.map (Predicate.marks connective) := by
  induction branches with
  | nil => rfl
  | cons branch rest ih =>
    obtain ⟨entries⟩ := branch
    rw [branchMarks, ih, List.map_cons, Predicate.marks, Predicate.entries]

/-- The clauses of the predicate are spelled by its marks. -/
def Predicate.Marked (catalog : Catalog) (predicate : Predicate) : Prop :=
  gather (entryClauses catalog predicate.entries) =
    (entryMarks predicate.entries).mapM (spell catalog)

/-- If its clauses are spelled by its marks, a predicate is spelled by them behind any connective.
-/
theorem Predicate.Marked.toSql_eq {predicate : Predicate} (h : predicate.Marked catalog)
    (connective : Connective) :
    predicate.toSql catalog connective = spell catalog (predicate.marks connective) := by
  rw [Predicate.toSql, h, Predicate.marks, spell_joinMarks]

theorem mapM_branchMarks {branches : List Predicate}
    (h : ∀ branch ∈ branches, branch.Marked catalog) (connective : Connective) :
    (branchMarks connective branches).mapM (spell catalog) =
      branchTexts catalog connective branches := by
  rw [branchTexts_eq, branchMarks_eq]
  exact mapM_map_eq fun branch hbranch => ((h branch hbranch).toSql_eq connective).symm

/-- The clauses of a condition are its marks. -/
theorem conditionClauses_eq {condition : Condition}
    (hparts : ∀ part ∈ condition.parts, part.Marked catalog) (hfit : condition.OperandsFit) :
    conditionClauses catalog field condition = (condition.marks field).mapM (spell catalog) := by
  cases condition with
  | anyOf branches | allOf branches =>
    have hbranches : ∀ branch ∈ branches, branch.Marked catalog := hparts
    rw [conditionClauses, Condition.marks, mapM_groupMarks, mapM_branchMarks hbranches]
  | negation inner =>
    obtain ⟨entries⟩ := inner
    have hinner := hparts _ (List.mem_singleton_self _)
    rw [Predicate.Marked, Predicate.entries] at hinner
    rw [conditionClauses, Condition.marks, mapM_negationMarks, spell_joinMarks, hinner,
      Functor.map_map]
    rfl
  | existence entries =>
    rw [conditionClauses, Condition.marks, mapM_existenceMarks, existenceTexts_eq]
    refine congrArg (existenceClauses <$> ·) (mapM_map_eq ?_).symm
    intro entry _
    exact spell_atom (.existence entry.1 entry.2)
  | equals value =>
    rw [conditionClauses, Condition.marks, mapM_singleton, spell_atom, Atom.written,
      valueText_of_isRange rfl,
      comparisonText_equals]
    rfl
  | comparisons entries =>
    rw [conditionClauses, Condition.marks, comparisonsClauses_eq, mapM_flatMap]
    refine congrArg (List.flatten <$> ·) (mapM_congr fun entry hentry => ?_)
    rw [operandClauses_eq (hfit entry hentry)]
    exact (mapM_map_eq fun atom _ => spell_atom atom).symm

/-! ## Predicates -/

/-- A condition that is compiled along with a predicate: it is the predicate or within it, or it is
what the condition of a query within it becomes when those of the query's joins are laid over it. -/
inductive Predicate.IsCompiledWith (inner predicate : Predicate) : Prop
  | within (h : inner.Within predicate)
  | merged (body : QueryBody) (h : ∀ part ∈ body.predicates, part.Within predicate)
      (hmerged : body.mergedFilter = some inner)

/-- Every entry of the first predicate is an entry of the second one or of one within it. -/
def Predicate.DrawsFrom (inner predicate : Predicate) : Prop :=
  ∀ entry ∈ inner.entries, ∃ part : Predicate, part.Within predicate ∧ entry ∈ part.entries

/-- What is inside a predicate draws from itself. -/
theorem Predicate.Within.drawsFrom {inner predicate : Predicate} (h : inner.Within predicate) :
    inner.DrawsFrom predicate := fun _ hentry => ⟨inner, h, hentry⟩

/-- Laying predicates over each other adds no entry that none of them has. -/
theorem Predicate.DrawsFrom.foldl_merge {first predicate : Predicate} {rest : List Predicate}
    (hfirst : first.DrawsFrom predicate) (hrest : ∀ overlay ∈ rest, overlay.DrawsFrom predicate) :
    (rest.foldl Predicate.merge first).DrawsFrom predicate := by
  intro entry hentry
  obtain ⟨layer, hlayer, hmem⟩ := Predicate.exists_of_mem_foldl_merge hentry
  rcases List.mem_cons.mp hlayer with rfl | hlayer
  · exact hfirst entry hmem
  · exact hrest layer hlayer entry hmem

/-- The condition of a body draws from what its predicates are within. -/
theorem Predicate.drawsFrom_mergedFilter {body : QueryBody} {merged predicate : Predicate}
    (hbody : ∀ part ∈ body.predicates, part.Within predicate)
    (hmerged : body.mergedFilter = some merged) :
    merged.DrawsFrom predicate := by
  have hfilters : ∀ part ∈ body.filters, part.DrawsFrom predicate := by
    intro part hpart
    exact (hbody part (List.mem_append_left _ hpart)).drawsFrom
  rw [QueryBody.mergedFilter] at hmerged
  split at hmerged
  · cases hmerged
  · next first rest heq =>
    rw [heq] at hfilters
    obtain ⟨hfirst, hrest⟩ := List.forall_mem_cons.mp hfilters
    cases hmerged
    exact hfirst.foldl_merge hrest

/-- Every condition that is compiled along, merged or not, has entries that were read. -/
theorem Predicate.IsCompiledWith.drawsFrom {inner predicate : Predicate}
    (h : inner.IsCompiledWith predicate) :
    inner.DrawsFrom predicate := by
  cases h with
  | within h => exact h.drawsFrom
  | merged body h hmerged => exact Predicate.drawsFrom_mergedFilter h hmerged

/-- A predicate with entries that were read is compiled to its marks. -/
theorem Predicate.DrawsFrom.marked {inner predicate : Predicate} (hread : predicate.IsRead)
    (h : inner.DrawsFrom predicate) : inner.Marked catalog := by
  have hparts : ∀ entry ∈ inner.entries, ∀ part ∈ entry.2.parts, part.Marked catalog := by
    intro entry hentry part hpart
    have hsize := Predicate.sizeOf_lt_of_mem_parts hentry hpart
    obtain ⟨outer, houter, hentry⟩ := h _ hentry
    exact Predicate.DrawsFrom.marked (hread.of_within houter)
      (Within.inside hentry hpart .self).drawsFrom
  rw [Marked, gather_entryClauses, entryMarks_eq, mapM_flatMap]
  refine congrArg (List.flatten <$> ·) (mapM_congr fun entry hentry => ?_)
  obtain ⟨outer, houter, hfrom⟩ := h entry hentry
  exact conditionClauses_eq (hparts entry hentry) ((hread.of_within houter).operandsFit hfrom)
termination_by sizeOf inner
decreasing_by exact hsize

end

end DescriptorSql
