import DescriptorSql.Proofs.Reading.Atom
import DescriptorSql.Proofs.Reading.Predicate

/-!
# `Proofs/Reading/Meaning.lean` — compiled predicates say what they prescribe

The text of a plain predicate, read as the database reads it, is as true as the formula that the
predicate prescribes, whatever the truth of the atoms (`Predicate.toSql_means`). The compiler puts
parentheses around groups and negations and nowhere else, so the proof follows what is between them:
a clause is a conjunction, of one factor or of several existence tests, and a conjunction is a term
of an OR as well as a part of a longer conjunction (`Means`).
-/

set_option autoImplicit false

namespace DescriptorSql

open Sql (Alike Grade isPlainName Conjoins Disjoins readCondition?)

/-! ## Connected texts -/

/-- The text is a sequence behind the connective, and reads as these formulas. -/
def Connects : Connective → String → List (Formula String) → Prop
  | .and => Conjoins
  | .or => Disjoins

namespace Connects

variable {connective : Connective} {a b : String} {first second : List (Formula String)}

/-- Two sequences behind the same connective are one with the connective between them. -/
theorem append (ha : Connects connective a first) (hb : Connects connective b second) :
    Connects connective (a ++ connective.separator ++ b) (first ++ second) := by
  cases connective with
  | and => exact Conjoins.and ha hb
  | or => exact Disjoins.or ha hb

theorem ne_nil (h : Connects connective a first) : first ≠ [] := by
  cases connective with
  | and =>
    obtain ⟨_, _, _, hfactors⟩ := h
    exact Sql.ne_nil_of_mapM_cut hfactors
  | or =>
    obtain ⟨_, _, hterms⟩ := h
    exact Sql.ne_nil_of_mapM_cut hterms

/-- A sequence that is read is not empty, so its formulas have a conjunction or a disjunction. -/
theorem exists_chain (h : Connects connective a first) :
    ∃ formula, connective.chain first = some formula :=
  Option.ne_none_iff_exists'.mp fun hnone => h.ne_nil (Connective.chain_eq_none_iff.mp hnone)

theorem ne_empty (h : Connects connective a first) : a ≠ "" := by
  rintro rfl
  cases connective with
  | and =>
    obtain ⟨_, hitems, _, hfactors⟩ := h
    cases hitems
    cases hfactors
  | or =>
    obtain ⟨_, hitems, hterms⟩ := h
    cases hitems
    cases hterms

/-- Whatever the connective, the text is a disjunction that reads as one formula. -/
theorem disjoins (h : Connects connective a first) {formula : Formula String}
    (hformula : connective.chain first = some formula) :
    ∃ read, Disjoins a read ∧ Connective.or.chain read = some formula := by
  cases connective with
  | and => exact ⟨[formula], Conjoins.disjoins h hformula, rfl⟩
  | or => exact ⟨first, h, hformula⟩

end Connects

/-! ## Meaning -/

/-- The text is a sequence behind the connective, as true as the formulas behind the connective. -/
def Expresses (catalog : Catalog) (connective : Connective) (text : String)
    (formulas : List (Formula Atom)) : Prop :=
  ∃ read spelled, Connects connective text read ∧
    List.Forall₂ (fun formula result => formula.spell (Atom.text catalog) = .ok result)
      formulas spelled ∧
    ∀ valuation, connective.truth? valuation read = connective.truth? valuation spelled

/-- The clause is a conjunction that is as true as the formula. -/
def Means (catalog : Catalog) (clause : String) (formula : Formula Atom) : Prop :=
  Expresses catalog .and clause [formula]

section

variable {catalog : Catalog} {connective : Connective} {a b : String}
  {first second formulas : List (Formula Atom)} {formula : Formula Atom}

/-- The formula that connects a sequence is as true as the sequence. -/
theorem truth?_of_chain {α : Type} {formulas : List (Formula α)} {formula : Formula α}
    (h : connective.chain formulas = some formula) (valuation : α → Truth) :
    connective.truth? valuation formulas = some (formula.eval valuation) := by
  rw [Connective.truth?, h]
  rfl

namespace Expresses

theorem append (ha : Expresses catalog connective a first)
    (hb : Expresses catalog connective b second) :
    Expresses catalog connective (a ++ connective.separator ++ b) (first ++ second) := by
  obtain ⟨read, spelled, hconnects, hspelled, htruth⟩ := ha
  obtain ⟨read', spelled', hconnects', hspelled', htruth'⟩ := hb
  refine ⟨read ++ read', spelled ++ spelled', hconnects.append hconnects',
    List.rel_append hspelled hspelled', ?_⟩
  intro valuation
  rw [Connective.truth?_append, Connective.truth?_append, htruth, htruth']

theorem ne_empty (h : Expresses catalog connective a formulas) : a ≠ "" :=
  let ⟨_, _, hconnects, _⟩ := h
  hconnects.ne_empty

/-- What is expressed is at least one formula. -/
theorem exists_chain (h : Expresses catalog connective a formulas) :
    ∃ formula, connective.chain formulas = some formula := by
  obtain ⟨read, spelled, hconnects, hspelled, htruth⟩ := h
  obtain ⟨result, hresult⟩ := hconnects.exists_chain
  refine Option.ne_none_iff_exists'.mp fun hnone => ?_
  have hnil := Connective.chain_eq_none_iff.mp hnone
  subst hnil
  cases hspelled
  -- some truth or other: what is read has one, and no formulas have none
  have heval := htruth fun _ => .no
  rw [truth?_of_chain hresult] at heval
  cases heval

theorem exists_read (h : Expresses catalog connective a formulas)
    (hformula : connective.chain formulas = some formula) :
    ∃ read result spelled, Disjoins a read ∧ Connective.or.chain read = some result ∧
      formula.spell (Atom.text catalog) = .ok spelled ∧
      ∀ valuation, result.eval valuation = spelled.eval valuation := by
  obtain ⟨read, spelled, hconnects, hspelled, htruth⟩ := h
  obtain ⟨result, hresult⟩ := hconnects.exists_chain
  obtain ⟨read', hread', hchain⟩ := hconnects.disjoins hresult
  obtain ⟨whole, hwhole, hspell⟩ := Connective.spell_chain hspelled hformula
  refine ⟨read', result, whole, hread', hchain, hspell, ?_⟩
  intro valuation
  have heval := htruth valuation
  rw [truth?_of_chain hresult, truth?_of_chain hwhole] at heval
  exact Option.some.inj heval

/-- A sequence says the same as the one formula that connects it. -/
theorem chain (h : Expresses catalog connective a formulas)
    (hformula : connective.chain formulas = some formula) :
    Expresses catalog connective a [formula] := by
  obtain ⟨read, spelled, hconnects, hspelled, htruth⟩ := h
  obtain ⟨whole, hwhole, hspell⟩ := Connective.spell_chain hspelled hformula
  refine ⟨read, [whole], hconnects, .cons hspell .nil, ?_⟩
  intro valuation
  rw [htruth, truth?_of_chain hwhole]
  rfl

end Expresses

namespace Means

/-- A clause is a sequence of one, behind either connective. -/
theorem expresses (h : Means catalog a formula) (connective : Connective) :
    Expresses catalog connective a [formula] := by
  cases connective with
  | and => exact h
  | or =>
    -- the conjunction is one term of the OR, and no parentheses are needed for it
    obtain ⟨read, result, spelled, hdisjoins, hresult, hspell, heval⟩ := h.exists_read rfl
    refine ⟨read, [spelled], hdisjoins, .cons hspell .nil, ?_⟩
    intro valuation
    rw [truth?_of_chain hresult, heval]
    rfl

/-- A clause that is read as one atom means this atom. -/
theorem atom {atom : Atom} (hclause : Conjoins a [.atom (Text.trim a)])
    (htext : atom.text catalog = .ok (Text.trim a)) : Means catalog a (.atom atom) :=
  ⟨_, [.atom (Text.trim a)], hclause, .cons (by rw [Formula.spell, htext]; rfl) .nil, fun _ => rfl⟩

/-- In parentheses a sequence is one clause, whichever connective is in it. This is where an OR is
closed. -/
theorem group (h : Expresses catalog connective a formulas)
    (hformula : connective.chain formulas = some formula) :
    Means catalog ("(" ++ a ++ ")") formula := by
  obtain ⟨read, result, spelled, hdisjoins, hresult, hspell, heval⟩ := h.exists_read hformula
  exact ⟨[result], [spelled], Sql.conjoins_group hdisjoins hresult, .cons hspell .nil,
    fun valuation => congrArg some (heval valuation)⟩

/-- NOT takes the parentheses behind it, and nothing of what follows them. -/
theorem negation (h : Expresses catalog .and a formulas)
    (hformula : Connective.and.chain formulas = some formula) :
    Means catalog ("NOT(" ++ a ++ ")") (.negation formula) := by
  obtain ⟨read, result, spelled, hdisjoins, hresult, hspell, heval⟩ := h.exists_read hformula
  rw [negationText_eq]
  refine ⟨[.negation result], [.negation spelled], Sql.conjoins_negation hdisjoins hresult,
    .cons (by rw [Formula.spell, hspell]; rfl) .nil, ?_⟩
  intro valuation
  exact congrArg (some ∘ Truth.negate) (heval valuation)

end Means

theorem expresses_join (connective : Connective) {clauses : List String}
    (h : List.Forall₂ (Means catalog) clauses formulas) (hne : clauses ≠ []) :
    Expresses catalog connective (connective.join clauses) formulas := by
  induction h with
  | nil => exact absurd rfl hne
  | @cons clause formula clauses formulas hfirst hrest ih =>
    cases hrest with
    | nil => simpa [Connective.join] using hfirst.expresses connective
    | cons hnext hothers =>
      rw [Connective.join, String.intercalate_cons_cons]
      exact (hfirst.expresses connective).append (ih (by simp))

/-- Without clauses there is no text and nothing to be said. This is the only case in which a text
of the compiler is empty. -/
theorem join_cases (connective : Connective) {clauses : List String}
    (h : List.Forall₂ (Means catalog) clauses formulas) :
    (connective.join clauses = "" ∧ formulas = []) ∨
      Expresses catalog connective (connective.join clauses) formulas := by
  cases h with
  | nil => exact Or.inl ⟨rfl, rfl⟩
  | cons hfirst hrest => exact Or.inr (expresses_join connective (.cons hfirst hrest) (by simp))

/-! ## Subqueries -/

/-- A subquery in a plain descriptor is its keyword and a group. -/
theorem isCall_subQueryText (hcatalog : AllPlain catalog.written) {kind : SubQueryKind}
    {name : String} {table? : Option String} {body : QueryBody}
    (hplain : AllPlain (Harvest.written.place kind name table? body))
    (hbody : AllPlain (Harvest.written.body body)) {place : SubQueryPlace} {expansion : Expansion}
    (hplace : subQueryPlace catalog name table? = .ok place)
    (hexpansion : expandBody catalog body = .ok expansion) :
    IsCall kind.keyword (subQueryText kind place body expansion) := by
  have hplace := PlainPlace.of hcatalog hplain hplace
  obtain ⟨_, -, halike⟩ := (agree_expandBody hcatalog hbody).exists_ok hexpansion
  obtain ⟨inner, _, hinner, htext, -⟩ :=
    exists_subQueryText kind hplace (allPlain_body hbody).1 halike Json.withoutData
  exact ⟨inner, hinner.right, htext⟩

/-- A subquery is an atom by its text, whatever is in it. -/
theorem text_subQuery {kind : SubQueryKind} {name : String} {query : SubQuery}
    {place : SubQueryPlace} {expansion : Expansion}
    (hplace : subQueryPlace catalog name query.table = .ok place)
    (hexpansion : expandBody catalog query.body = .ok expansion) :
    query.text catalog kind name = .ok (subQueryText kind place query.body expansion) := by
  rw [SubQuery.text, hplace, hexpansion]
  rfl

theorem means_existenceText (hcatalog : AllPlain catalog.written) {name : String}
    (body : ExistsBody)
    (hplain : AllPlain (Harvest.written.place .existence name body.toSubQuery.table
      body.toSubQuery.body))
    (hbody : AllPlain (Harvest.written.body body.toSubQuery.body)) {place : SubQueryPlace}
    {expansion : Expansion} (hplace : subQueryPlace catalog name body.toSubQuery.table = .ok place)
    (hexpansion : expandBody catalog body.toSubQuery.body = .ok expansion) :
    Means catalog (subQueryText .existence place body.toSubQuery.body expansion)
      (.atom (.existence name body)) := by
  have hcall := isCall_subQueryText hcatalog hplain hbody hplace hexpansion
  have hleads : Leads SubQueryKind.existence.keyword := .ofText (by decide +kernel)
  exact .atom ((hcall.leads hleads).conjoins (hcall.inert alike_exists))
    (by rw [Atom.text, text_subQuery hplace hexpansion]; rfl)

/-- Each test is an atom of its own, so several of them are a conjunction. -/
theorem means_existenceTexts (hcatalog : AllPlain catalog.written) :
    ∀ {entries : List (String × ExistsBody)} {tests : List String},
      AllPlain (Harvest.written.existence entries) → existenceTexts catalog entries = .ok tests →
      List.Forall₂ (Means catalog) tests
        (entries.map fun (name, body) => .atom (.existence name body))
  | [], _, _, h => by
    cases h
    exact .nil
  | (name, .anyRow) :: rest, _, hplain, h => by
    rw [existenceTexts] at h
    obtain ⟨place, hplace, h⟩ := exists_of_bind_eq_ok h
    obtain ⟨others, hothers, h⟩ := exists_of_bind_eq_ok h
    cases h
    exact .cons (means_existenceText hcatalog .anyRow allPlain_nil (by decide) hplace rfl)
      (means_existenceTexts hcatalog hplain hothers)
  | (name, .rowsOf ⟨table?, body⟩) :: rest, _, hplain, h => by
    rw [Harvest.existence, allPlain_append, allPlain_append] at hplain
    obtain ⟨⟨hown, hbody⟩, hrest⟩ := hplain
    rw [existenceTexts] at h
    obtain ⟨place, hplace, h⟩ := exists_of_bind_eq_ok h
    obtain ⟨expansion, hexpansion, h⟩ := exists_of_bind_eq_ok h
    obtain ⟨others, hothers, h⟩ := exists_of_bind_eq_ok h
    cases h
    exact .cons (means_existenceText hcatalog (.rowsOf ⟨table?, body⟩) hown hbody hplace hexpansion)
      (means_existenceTexts hcatalog hrest hothers)

theorem isCall_rowsTexts (hcatalog : AllPlain catalog.written) {keyword : String} :
    ∀ {queries : List (String × SubQuery)} {texts : List String},
      AllPlain (Harvest.written.subqueries keyword queries) →
      rowsTexts catalog keyword queries = .ok texts →
      List.Forall₂ (fun text entry => entry.2.text catalog (.rows keyword) entry.1 = .ok text ∧
        IsCall keyword text) texts queries
  | [], _, _, h => by
    cases h
    exact .nil
  | (name, ⟨table?, body⟩) :: rest, _, hplain, h => by
    rw [Harvest.subqueries, allPlain_append, allPlain_append] at hplain
    obtain ⟨⟨hown, hbody⟩, hrest⟩ := hplain
    rw [rowsTexts] at h
    obtain ⟨place, hplace, h⟩ := exists_of_bind_eq_ok h
    obtain ⟨expansion, hexpansion, h⟩ := exists_of_bind_eq_ok h
    obtain ⟨others, hothers, h⟩ := exists_of_bind_eq_ok h
    cases h
    exact .cons ⟨@text_subQuery _ _ name ⟨table?, body⟩ _ _ hplace hexpansion,
      isCall_subQueryText hcatalog hown hbody hplace hexpansion⟩
      (isCall_rowsTexts hcatalog hrest hothers)

/-! ## Comparisons -/

variable {field : String} {operator : Operator}

/-- A comparison means the atom that has its text. -/
theorem means_comparisonText (hfield : isPlainName field = true) (hrange : operator.isRange = false)
    {value : Json} (hvalue : value.isPlain = true) :
    Means catalog (comparisonText field operator (Sql.literal value))
      (.atom (.comparison field operator value)) := by
  refine .atom (conjoins_comparisonText hfield hrange (Sql.alike_literal hvalue)) ?_
  have htext :
      valueText field operator value = .ok (comparisonText field operator (Sql.literal value)) := by
    unfold valueText
    rw [if_neg (by simp [hrange])]
  rw [Atom.text, htext]
  rfl

theorem means_listText (hfield : isPlainName field = true) (hrange : operator.isRange = false)
    {items : List Json} (hitems : (Json.array items).isPlain = true) :
    Means catalog (comparisonText field operator (Sql.literalList items))
      (.atom (.comparison field operator (.array items))) := by
  rw [Sql.literalList_eq]
  exact means_comparisonText hfield hrange hitems

/-- The operand of a range lists its bounds, and means the comparison with both. -/
theorem means_rangeClauses (hrange : operator.isRange = true) {operand : Operand}
    (hplain : AllPlain (Harvest.written.operand field operator operand)) {clauses : List String}
    (h : rangeClauses field operator operand = .ok clauses) :
    List.Forall₂ (Means catalog) clauses ((operand.atoms field operator).map .atom) := by
  unfold rangeClauses at h
  split at h
  · next low high hvalues =>
    cases h
    obtain ⟨hfield, hitems⟩ := plain_values hplain hvalues
    rw [Json.itemsArePlain_iff] at hitems
    have hatoms :
        operand.atoms field operator = [.comparison field operator (.array [low, high])] := by
      cases operand with
      | value value =>
        cases value <;> cases hvalues
        rfl
      | list items =>
        cases hvalues
        rfl
      | _ => cases hvalues
    rw [hatoms]
    refine .cons (.atom (conjoins_rangeText hfield hrange (Sql.alike_literal (hitems low (by simp)))
      (Sql.alike_literal (hitems high (by simp)))) ?_) .nil
    rw [Atom.text, valueText, if_pos hrange]
    rfl
  · cases h

/-- Behind IN, each subquery is compared with on its own, as one atom. -/
theorem means_subqueries (hcatalog : AllPlain catalog.written) (hfield : isPlainName field = true)
    (hmember : operator.isMembership = true) {queries : List (String × SubQuery)}
    (hplain : AllPlain (Harvest.written.subqueries operator.sql queries)) {texts : List String}
    (h : rowsTexts catalog operator.sql queries = .ok texts) :
    List.Forall₂ (Means catalog) (texts.map (Sql.identifier field ++ " " ++ ·))
      (queries.map fun (name, query) => .atom (.rows field operator none name query)) := by
  have hoperator : Leads (" " ++ operator.sql) := by
    cases operator with
    | isIn | notIn => exact .ofText (by decide +kernel)
    | _ => cases hmember
  refine Sql.forall₂_map ((isCall_rowsTexts hcatalog hplain h).imp ?_)
  rintro text entry ⟨htext, hcall⟩
  have halike := (Sql.alike_identifier hfield).glue (hcall.inert (alike_membership hmember))
    (Grade.separates_space _)
  have hleads := ((hcall.append " ").leads hoperator).name hfield (.before (by decide))
  rw [← String.append_assoc] at hleads
  exact .atom (hleads.conjoins halike) (by rw [Atom.text, htext]; rfl)

/-- Behind a quantifier too, one atom for each subquery, in the order of the groups. -/
theorem means_quantified (hcatalog : AllPlain catalog.written) (hfield : isPlainName field = true)
    (hrange : operator.isRange = false) :
    ∀ {groups : List (Quantifier × List (String × SubQuery))} {texts : List String},
      AllPlain (Harvest.written.quantified groups) → quantifiedTexts catalog groups = .ok texts →
      List.Forall₂ (Means catalog) (texts.map (comparisonText field operator))
        (((Operand.quantified groups).atoms field operator).map .atom)
  | [], _, _, h => by
    cases h
    exact .nil
  | (quantifier, queries) :: rest, _, hplain, h => by
    obtain ⟨hown, hothers⟩ := allPlain_append.mp hplain
    rw [quantifiedTexts] at h
    obtain ⟨own, htexts, h⟩ := exists_of_bind_eq_ok h
    obtain ⟨others, hrest, h⟩ := exists_of_bind_eq_ok h
    cases h
    rw [Operand.atoms, List.flatMap_cons, List.map_append, List.map_append, List.map_map]
    refine List.rel_append ?_ (means_quantified hcatalog hfield hrange hothers hrest)
    refine Sql.forall₂_map
      ((isCall_rowsTexts hcatalog hown htexts).imp ?_)
    rintro text entry ⟨htext, hcall⟩
    exact .atom (conjoins_comparisonText hfield hrange (hcall.inert (alike_quantifier quantifier)))
      (by rw [Atom.text, htext]; rfl)

/-- The kinds of operands, by the kind of operator: a range lists two bounds, a membership a list or
subqueries, and any other operator has one value or quantified subqueries. -/
theorem means_operandClauses (hcatalog : AllPlain catalog.written) {operand : Operand}
    (hplain : AllPlain (Harvest.written.operand field operator operand)) {clauses : List String}
    (h : operandClauses catalog field operator operand = .ok clauses) :
    List.Forall₂ (Means catalog) clauses ((operand.atoms field operator).map .atom) := by
  unfold operandClauses at h
  split at h
  · next hmember =>
    have hrange := isRange_of_isMembership hmember
    split at h
    · next items =>
      obtain ⟨hfield, hitems⟩ := allPlain_append.mp hplain
      cases h
      exact .cons (means_listText (allPlain_name.mp hfield) hrange (allPlain_value.mp hitems)) .nil
    · next items =>
      obtain ⟨hfield, hitems⟩ := allPlain_append.mp hplain
      cases h
      exact .cons (means_listText (allPlain_name.mp hfield) hrange (allPlain_value.mp hitems)) .nil
    · -- each subquery behind a membership is one clause and one atom
      next queries =>
      obtain ⟨hfield, hqueries⟩ := allPlain_append.mp hplain
      obtain ⟨texts, htexts, rfl⟩ := exists_of_map_eq_ok h
      rw [Operand.atoms, List.map_map]
      exact means_subqueries hcatalog (allPlain_name.mp hfield) hmember hqueries htexts
    · cases h
  split at h
  · -- a range is one clause whatever its two bounds are
    next hrange => exact means_rangeClauses hrange hplain h
  · next hrange =>
    rw [Bool.not_eq_true] at hrange
    split at h
    · obtain ⟨hfield, hvalue⟩ := allPlain_append.mp hplain
      cases h
      exact .cons
        (means_comparisonText (allPlain_name.mp hfield) hrange (allPlain_value.mp hvalue)) .nil
    · obtain ⟨hfield, hitems⟩ := allPlain_append.mp hplain
      cases h
      exact .cons (means_listText (allPlain_name.mp hfield) hrange (allPlain_value.mp hitems)) .nil
    · next groups =>
      obtain ⟨hfield, hgroups⟩ := allPlain_append.mp hplain
      obtain ⟨texts, htexts, rfl⟩ := exists_of_map_eq_ok h
      exact means_quantified hcatalog (allPlain_name.mp hfield) hrange hgroups htexts
    · cases h

theorem means_comparisonsClauses (hcatalog : AllPlain catalog.written) :
    ∀ {entries : List (Operator × Operand)} {clauses : List String},
      AllPlain (Harvest.written.comparisons field entries) →
      comparisonsClauses catalog field entries = .ok clauses →
      List.Forall₂ (Means catalog) clauses ((Condition.comparisons entries).formulas field)
  | [], _, _, h => by
    cases h
    exact .nil
  | (operator, operand) :: rest, _, hplain, h => by
    obtain ⟨hown, hrest⟩ := allPlain_append.mp hplain
    rw [comparisonsClauses] at h
    obtain ⟨own, hclauses, h⟩ := exists_of_bind_eq_ok h
    obtain ⟨others, hothers, h⟩ := exists_of_bind_eq_ok h
    cases h
    exact List.rel_append (means_operandClauses hcatalog hown hclauses)
      (means_comparisonsClauses hcatalog hrest hothers)

/-! ## Groups -/

/-- The branches that are not empty say the formulas behind the connective; if there is none, there
is no formula. -/
def MeansBranches (catalog : Catalog) (connective : Connective) (branches : List String)
    (formulas : List (Formula Atom)) : Prop :=
  (branches.filter (!·.isEmpty) = [] ∧ formulas = []) ∨
    branches.filter (!·.isEmpty) ≠ [] ∧
      Expresses catalog connective (connective.join (branches.filter (!·.isEmpty))) formulas

/-- A branch without clauses is empty text and says nothing. It is left out on both sides. -/
theorem MeansBranches.cons {clauses branches : List String}
    (hclauses : List.Forall₂ (Means catalog) clauses first)
    (hbranches : MeansBranches catalog connective branches second) :
    MeansBranches catalog connective (connective.join clauses :: branches)
      ((connective.chain first).toList ++ second) := by
  unfold MeansBranches
  rcases join_cases connective hclauses with ⟨htext, rfl⟩ | hexpresses
  · -- a branch that says nothing is left out, as are its formulas
    rw [htext, List.filter_cons_of_neg (by simp)]
    exact hbranches
  · obtain ⟨formula, hformula⟩ := hexpresses.exists_chain
    have hfirst := hexpresses.chain hformula
    rw [List.filter_cons_of_pos (by simpa using hexpresses.ne_empty), hformula]
    refine Or.inr ⟨by simp, ?_⟩
    rcases hbranches with ⟨hnil, rfl⟩ | ⟨hne, hothers⟩
    · rw [hnil]
      simpa [Connective.join] using hfirst
    · obtain ⟨branch, others, hshown⟩ := List.exists_cons_of_ne_nil hne
      rw [hshown] at hothers ⊢
      rw [Connective.join, String.intercalate_cons_cons]
      exact hfirst.append hothers

/-- A group whose branches are all empty is left out as a whole. -/
theorem MeansBranches.group {branches : List String}
    (h : MeansBranches catalog connective branches formulas) :
    List.Forall₂ (Means catalog) (groupClauses connective branches)
      (connective.chain formulas).toList := by
  unfold groupClauses
  rcases h with ⟨hnil, rfl⟩ | ⟨hne, hexpresses⟩
  · rw [hnil]
    exact .nil
  · obtain ⟨formula, hformula⟩ := hexpresses.exists_chain
    rw [if_neg (by simpa using hne), hformula]
    exact .cons (.group hexpresses hformula) .nil

/-! ## Predicates -/

mutual

/-- The induction follows the compiler and the formula together, entry by entry. The formula is
prescribed without the compiler, so what both leave out has to be compared in each case. -/
theorem means_entryClauses (hcatalog : AllPlain catalog.written) :
    ∀ {entries : List (String × Condition)} {clauses : List String},
      AllPlain (Harvest.all (Harvest.written.entries entries)) →
      gather (entryClauses catalog entries) = .ok clauses →
      List.Forall₂ (Means catalog) clauses (entryFormulas entries)
  | [], _, _, h => by
    cases h
    exact .nil
  | (field, condition) :: rest, _, hplain, h => by
    obtain ⟨hown, hrest⟩ := allPlain_append.mp hplain
    rw [entryClauses, gather] at h
    obtain ⟨own, hclauses, h⟩ := exists_of_bind_eq_ok h
    obtain ⟨others, hothers, h⟩ := exists_of_bind_eq_ok h
    cases h
    exact List.rel_append (means_conditionClauses hcatalog hown hclauses)
      (means_entryClauses hcatalog hrest hothers)

theorem means_conditionClauses (hcatalog : AllPlain catalog.written) {field : String} :
    ∀ {condition : Condition} {clauses : List String},
      AllPlain (Harvest.written.condition field condition) →
      conditionClauses catalog field condition = .ok clauses →
      List.Forall₂ (Means catalog) clauses (condition.formulas field)
  | .anyOf branches, _, hplain, h => by
    rw [conditionClauses] at h
    obtain ⟨texts, htexts, rfl⟩ := exists_of_map_eq_ok h
    exact (means_branchTexts hcatalog .or hplain htexts).group
  | .allOf branches, _, hplain, h => by
    rw [conditionClauses] at h
    obtain ⟨texts, htexts, rfl⟩ := exists_of_map_eq_ok h
    exact (means_branchTexts hcatalog .and hplain htexts).group
  | .negation (.ofEntries entries), _, hplain, h => by
    rw [conditionClauses] at h
    obtain ⟨inner, hinner, rfl⟩ := exists_of_map_eq_ok h
    rw [Function.comp_apply, negationClauses, Condition.formulas]
    rcases join_cases .and (means_entryClauses hcatalog hplain hinner)
      with ⟨htext, hnil⟩ | hexpresses
    · rw [htext, hnil]
      exact .nil
    · obtain ⟨formula, hformula⟩ := hexpresses.exists_chain
      rw [if_neg (by simpa using hexpresses.ne_empty), hformula]
      exact .cons (.negation hexpresses hformula) .nil
  | .existence entries, _, hplain, h => by
    rw [conditionClauses] at h
    obtain ⟨tests, htests, rfl⟩ := exists_of_map_eq_ok h
    have hmeans := means_existenceTexts hcatalog hplain htests
    -- the tests are one clause, an AND without parentheses, whatever connects the clauses
    rw [existenceClauses, Condition.formulas]
    cases tests with
    | nil =>
      rw [List.forall₂_nil_left_iff.mp hmeans]
      exact .nil
    | cons test tests =>
      have hexpresses := expresses_join .and hmeans (by simp)
      obtain ⟨formula, hformula⟩ := hexpresses.exists_chain
      rw [hformula]
      exact .cons (hexpresses.chain hformula) .nil
  | .equals value, _, hplain, h => by
    obtain ⟨hfield, hvalue⟩ := allPlain_append.mp hplain
    rw [conditionClauses] at h
    cases h
    rw [← comparisonText_equals]
    exact .cons (means_comparisonText (allPlain_name.mp hfield) rfl (allPlain_value.mp hvalue)) .nil
  | .comparisons entries, _, hplain, h => by
    rw [conditionClauses] at h
    exact means_comparisonsClauses hcatalog hplain h

theorem means_branchTexts (hcatalog : AllPlain catalog.written) (connective : Connective) :
    ∀ {branches : List Predicate} {texts : List String},
      AllPlain (Harvest.written.branches branches) →
      branchTexts catalog connective branches = .ok texts →
      MeansBranches catalog connective texts (branchFormulas connective branches)
  | [], _, _, h => by
    cases h
    exact Or.inl ⟨rfl, rfl⟩
  | .ofEntries entries :: rest, _, hplain, h => by
    obtain ⟨hown, hrest⟩ := allPlain_append.mp hplain
    rw [branchTexts] at h
    obtain ⟨clauses, hclauses, h⟩ := exists_of_bind_eq_ok h
    obtain ⟨others, hothers, h⟩ := exists_of_bind_eq_ok h
    cases h
    exact .cons (means_entryClauses hcatalog hown hclauses)
      (means_branchTexts hcatalog connective hrest hothers)

end

/-- The text of a plain predicate, read as the database reads it, is as true as the formula that the
predicate prescribes, whatever the truth of the atoms. -/
theorem Predicate.toSql_means (catalog : Catalog) (hcatalog : AllPlain catalog.written)
    (connective : Connective) (predicate : Predicate)
    (hpredicate : AllPlain (Harvest.written.predicate predicate)) (sql : String)
    (hsql : predicate.toSql catalog connective = .ok sql) (hne : sql ≠ "") :
    ∃ formula spelled read, predicate.formula connective = some formula ∧
      formula.spell (Atom.text catalog) = .ok spelled ∧ readCondition? sql = some read ∧
      ∀ valuation, read.eval valuation = spelled.eval valuation := by
  obtain ⟨clauses, hclauses, rfl⟩ := exists_of_map_eq_ok hsql
  have hmeans := means_entryClauses hcatalog hpredicate hclauses
  obtain ⟨hempty, -⟩ | hexpresses := join_cases connective hmeans
  · exact absurd hempty hne
  · obtain ⟨formula, hformula⟩ := hexpresses.exists_chain
    obtain ⟨read, result, spelled, hdisjoins, hresult, hspell, heval⟩ :=
      hexpresses.exists_read hformula
    exact ⟨formula, spelled, result, hformula, hspell, hdisjoins.read.trans hresult, heval⟩

end

/-- A group with a range in one branch and a negation in the other, and an existence test. -/
def mixedPredicate : Predicate :=
  .ofEntries
    [("OR", .anyOf
        [.ofEntries
            [("year", .comparisons [(.between, .list [.string "1970", .string "1979"])]),
              ("name", .equals (.string "Abba"))],
          .ofEntries [("NOT", .negation (.ofEntries [("name", .equals (.string "Queen"))]))]]),
      ("exists", .existence [("albums", .anyRow)])]

/-- What `mixedPredicate` compiles to behind an OR. -/
def mixedText : String :=
  "(\"year\" BETWEEN '1970' AND '1979' OR \"name\" = 'Abba' OR NOT(\"name\" = 'Queen'))" ++
    " OR EXISTS(SELECT 1 FROM \"albums\" WHERE \"albums\".\"artist_id\" = \"artists\".\"id\")"

/-- The AND of the range and the OR around it are told apart. -/
theorem mixedPredicate_means :
    (AllPlain albumCatalog.written ∧ AllPlain (Harvest.written.predicate mixedPredicate) ∧
        mixedPredicate.toSql albumCatalog .or = .ok mixedText ∧ mixedText ≠ "") ∧
      ∃ formula spelled read, mixedPredicate.formula .or = some formula ∧
        formula.spell (Atom.text albumCatalog) = .ok spelled ∧
          readCondition? mixedText = some read ∧
        ∀ valuation, read.eval valuation = spelled.eval valuation := by
  have hpredicate : AllPlain (Harvest.written.predicate mixedPredicate) := by decide
  have hsql : mixedPredicate.toSql albumCatalog .or = .ok mixedText :=
    eq_ok_of_toOption (by decide +kernel)
  have hne : mixedText ≠ "" := by decide +kernel
  exact ⟨⟨allPlain_albumCatalog, hpredicate, hsql, hne⟩,
    Predicate.toSql_means albumCatalog allPlain_albumCatalog .or mixedPredicate hpredicate
      mixedText hsql hne⟩

end DescriptorSql
