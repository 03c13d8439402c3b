import DescriptorSql.Proofs.Compile.Sequence
import DescriptorSql.Proofs.Reading.Filter
import DescriptorSql.Proofs.Reading.Meaning

/-!
# `Proofs/Reading/Terms.lean` — alternatives behind an AND

A text without parentheses around it is an alternation: terms with OR between them, each of clauses
with AND between them. With an AND between two such texts the whole is an alternation again, but AND
binds stronger, and takes what stands next to it only: the last term of the first and the first term
of the second become one (`splice`). Texts of one term each are an exception; there nothing but ANDs
is in the whole, and it says what all of them say (`conjoins_join`).
-/

set_option autoImplicit false

namespace DescriptorSql

open Sql (Conjoins StaysInClause readCondition?)

/-! ## Terms -/

/-- The terms of what is connected by a connective. -/
def Connective.terms {α : Type} : Connective → List α → List (List α)
  | _, [] => []
  | .and, items => [items]
  | .or, items => items.map ([·])

/-- The terms of two alternations with an AND between them. -/
def splice {α : Type} : List (List α) → List (List α) → List (List α)
  | [], second => second
  | [last], [] => [last]
  | [last], next :: rest => (last ++ next) :: rest
  | first :: next :: rest, second => first :: splice (next :: rest) second

/-- The disjunction of the conjunctions. -/
def chainTerms {α : Type} (terms : List (List (Formula α))) : Option (Formula α) :=
  Connective.or.chain (terms.filterMap Connective.and.chain)

/-- The text of an alternation. -/
def alternation (terms : List (List String)) : String :=
  Connective.or.join (terms.map Connective.and.join)

section

variable {α β : Type} {R : α → β → Prop}

theorem splice_nil (terms : List (List α)) : splice terms [] = terms := by
  induction terms with
  | nil => rfl
  | cons first rest ih =>
    cases rest with
    | nil => rfl
    | cons next rest => rw [splice, ih]

theorem splice_cons_ne_nil (first : List α) (rest second : List (List α)) :
    splice (first :: rest) second ≠ [] := by
  cases rest with
  | nil => cases second <;> simp [splice]
  | cons next rest => simp [splice]

theorem forall_mem_splice {P : List α → Prop} (happend : ∀ as bs, P as → P bs → P (as ++ bs)) :
    ∀ {first second : List (List α)}, (∀ term ∈ first, P term) → (∀ term ∈ second, P term) →
      ∀ term ∈ splice first second, P term
  | [], _, _, hsecond => hsecond
  | [_], [], hfirst, _ => hfirst
  | [last], next :: rest, hfirst, hsecond => by
    rw [splice, List.forall_mem_cons]
    rw [List.forall_mem_cons] at hsecond
    exact ⟨happend last next (hfirst last List.mem_cons_self) hsecond.1, hsecond.2⟩
  | first :: next :: rest, _, hfirst, hsecond => by
    rw [List.forall_mem_cons] at hfirst
    rw [splice, List.forall_mem_cons]
    exact ⟨hfirst.1, forall_mem_splice happend hfirst.2 hsecond⟩

theorem forall₂_splice {first second : List (List α)} {first' second' : List (List β)}
    (hfirst : List.Forall₂ (List.Forall₂ R) first first')
    (hsecond : List.Forall₂ (List.Forall₂ R) second second') :
    List.Forall₂ (List.Forall₂ R) (splice first second) (splice first' second') := by
  induction hfirst with
  | nil => exact hsecond
  | cons hterm hrest ih =>
    cases hrest with
    | nil =>
      cases hsecond with
      | nil => exact .cons hterm .nil
      | cons hnext hothers => exact .cons (List.rel_append hterm hnext) hothers
    | cons hnext hothers => exact .cons hterm ih

theorem forall₂_terms (connective : Connective) {as : List α} {bs : List β}
    (h : List.Forall₂ R as bs) :
    List.Forall₂ (List.Forall₂ R) (connective.terms as) (connective.terms bs) := by
  cases h with
  | nil => cases connective <;> exact .nil
  | cons hfirst hrest =>
    cases connective with
    | and => exact .cons (.cons hfirst hrest) .nil
    | or => exact Sql.forall₂_map ((List.Forall₂.cons hfirst hrest).imp fun _ _ h => .cons h .nil)

theorem ne_nil_of_mem_terms {connective : Connective} {items term : List α}
    (h : term ∈ connective.terms items) : term ≠ [] := by
  cases items with
  | nil => cases connective <;> cases h
  | cons first rest =>
    cases connective with
    | and =>
      rw [List.mem_singleton.mp h]
      simp
    | or =>
      obtain ⟨item, -, rfl⟩ := List.mem_map.mp h
      simp

end

/-! ## Texts -/

theorem Connective.join_ne_empty (connective : Connective) {texts : List String} (hne : texts ≠ [])
    (h : ∀ text ∈ texts, text ≠ "") : connective.join texts ≠ "" := by
  obtain ⟨first, rest, rfl⟩ := List.exists_cons_of_ne_nil hne
  have hfirst := h first List.mem_cons_self
  by_cases hrest : rest = []
  · rwa [hrest, connective.join_singleton]
  · rw [connective.join_cons first hrest]
    simp [String.append_eq_empty_iff, hfirst]

theorem alternation_cons (term : List String) {rest : List (List String)} (hrest : rest ≠ []) :
    alternation (term :: rest) =
      Connective.and.join term ++ Connective.or.separator ++ alternation rest := by
  rw [alternation, List.map_cons, Connective.join_cons _ _ (by simpa using hrest), alternation]

theorem alternation_singleton (term : List String) :
    alternation [term] = Connective.and.join term := by
  rw [alternation, List.map_singleton, Connective.join_singleton]

theorem alternation_terms (connective : Connective) (clauses : List String) :
    alternation (connective.terms clauses) = connective.join clauses := by
  have hsingle : Connective.and.join ∘ (fun clause => [clause]) = id :=
    funext Connective.and.join_singleton
  cases clauses with
  | nil => cases connective <;> rfl
  | cons clause rest =>
    cases connective with
    | and => exact alternation_singleton _
    | or =>
      rw [alternation, Connective.terms, List.map_map, hsingle, List.map_id]
      simp

/-- AND between the texts takes the terms next to it. -/
theorem alternation_splice : ∀ {first second : List (List String)}, first ≠ [] → second ≠ [] →
    (∀ term ∈ first, term ≠ []) → (∀ term ∈ second, term ≠ []) →
    alternation (splice first second) =
      alternation first ++ Connective.and.separator ++ alternation second
  | [], _, hne, _, _, _ => absurd rfl hne
  | [_], [], _, hne, _, _ => absurd rfl hne
  | [last], next :: rest, _, _, hfirst, hsecond => by
    have hlast := hfirst last List.mem_cons_self
    have hnext := hsecond next List.mem_cons_self
    have hterm := Connective.and.join_append hlast hnext
    cases rest with
    | nil => rw [splice, alternation_singleton, alternation_singleton, alternation_singleton, hterm]
    | cons other others =>
      rw [splice, alternation_cons _ (by simp), alternation_singleton,
        alternation_cons next (by simp),
        hterm]
      simp only [String.append_assoc]
  | first :: next :: rest, second, _, hne, hfirst, hsecond => by
    have hrest := alternation_splice (List.cons_ne_nil next rest) hne
      (fun term hterm => hfirst term (List.mem_cons_of_mem first hterm)) hsecond
    rw [splice, alternation_cons _ (splice_cons_ne_nil next rest second), hrest,
      alternation_cons first (List.cons_ne_nil next rest)]
    simp only [String.append_assoc]

/-! ## What an alternation says -/

/-- What is read is as true as the formula, whatever the truth of the atoms. -/
def Denotes (catalog : Catalog) (read : Formula String) (formula : Formula Atom) : Prop :=
  ∃ spelled, formula.spell (Atom.text catalog) = .ok spelled ∧
    ∀ valuation, read.eval valuation = spelled.eval valuation

/-- The text is an alternation of clauses that mean the formulas. -/
def Alternates (catalog : Catalog) (text : String) (formulas : List (List (Formula Atom))) : Prop :=
  ∃ terms, alternation terms = text ∧ List.Forall₂ (List.Forall₂ (Means catalog)) terms formulas ∧
    ∀ term ∈ terms, term ≠ []

section

variable {catalog : Catalog} {clause text : String} {formula : Formula Atom}

theorem Means.staysInClause (h : Means catalog clause formula) : StaysInClause clause := by
  obtain ⟨_, _, ⟨items, hitems, hallows, -⟩, -⟩ := h
  exact ⟨items, hitems, Sql.staysInClause_of_allows (by decide) hallows⟩

theorem staysInClause_join (connective : Connective) {clauses : List String}
    {formulas : List (Formula Atom)} (h : List.Forall₂ (Means catalog) clauses formulas) :
    StaysInClause (connective.join clauses) := by
  have hseparator : StaysInClause connective.separator ∧
      Sql.isGlue connective.separator = true := by
    cases connective with
    | and => exact ⟨⟨_, Sql.items?_and, by decide⟩, by decide⟩
    | or => exact ⟨⟨_, Sql.items?_or, by decide⟩, by decide⟩
  induction h with
  | nil => exact ⟨[], rfl, by simp⟩
  | cons hfirst hrest ih =>
    cases hrest with
    | nil =>
      rw [connective.join_singleton]
      exact hfirst.staysInClause
    | cons hnext hothers =>
      rw [connective.join_cons _ (by simp)]
      exact hfirst.staysInClause.glue ih hseparator.1 hseparator.2

namespace Alternates

variable {a b : String} {formulas first second : List (List (Formula Atom))}

theorem ofClauses (connective : Connective) {clauses : List String} {formulas : List (Formula Atom)}
    (h : List.Forall₂ (Means catalog) clauses formulas) :
    Alternates catalog (connective.join clauses) (connective.terms formulas) :=
  ⟨connective.terms clauses, alternation_terms connective clauses, forall₂_terms connective h,
    fun _ => ne_nil_of_mem_terms⟩

/-- A term is a conjunction, and so means the chain of its formulas. -/
theorem exists_means {terms : List (List String)} (hne : ∀ term ∈ terms, term ≠ [])
    (h : List.Forall₂ (List.Forall₂ (Means catalog)) terms formulas) :
    ∃ chained, formulas.filterMap Connective.and.chain = chained ∧
      List.Forall₂ (Means catalog) (terms.map Connective.and.join) chained := by
  induction h with
  | nil => exact ⟨[], rfl, .nil⟩
  | @cons term formulas terms others hterm hterms ih =>
    rw [List.forall_mem_cons] at hne
    obtain ⟨chained, hchained, hmeans⟩ := ih hne.2
    have hexpresses := expresses_join .and hterm hne.1
    obtain ⟨formula, hformula⟩ := hexpresses.exists_chain
    exact ⟨formula :: chained, by rw [List.filterMap_cons_some hformula, hchained],
      .cons (hexpresses.chain hformula) hmeans⟩

/-- An empty text has no term. Any other stays in its clause, and says the disjunction of its
terms. -/
theorem cases (h : Alternates catalog text formulas) :
    (text = "" ∧ formulas = []) ∨ text ≠ "" ∧ StaysInClause text ∧
      ∃ read formula, readCondition? text = some read ∧ chainTerms formulas = some formula ∧
        Denotes catalog read formula := by
  obtain ⟨terms, rfl, hterms, hne⟩ := h
  obtain ⟨chained, hchained, hmeans⟩ := exists_means hne hterms
  rcases join_cases .or hmeans with ⟨hempty, rfl⟩ | hexpresses
  · cases hterms with
    | nil => exact Or.inl ⟨rfl, rfl⟩
    | cons => cases hmeans
  · obtain ⟨formula, hformula⟩ := hexpresses.exists_chain
    obtain ⟨read, result, spelled, hdisjoins, hresult, hspell, heval⟩ :=
      hexpresses.exists_read hformula
    refine Or.inr ⟨hexpresses.ne_empty, staysInClause_join .or hmeans, result, formula,
      hdisjoins.read.trans hresult, ?_, spelled, hspell, heval⟩
    rw [chainTerms, hchained, hformula]

theorem and (ha : Alternates catalog a first) (hb : Alternates catalog b second) (hne : a ≠ "")
    (hne' : b ≠ "") :
    Alternates catalog (a ++ Connective.and.separator ++ b) (splice first second) := by
  obtain ⟨terms, rfl, hterms, hfilled⟩ := ha
  obtain ⟨terms', rfl, hterms', hfilled'⟩ := hb
  have hcons : terms ≠ [] := fun hnil => hne (by rw [hnil]; rfl)
  have hcons' : terms' ≠ [] := fun hnil => hne' (by rw [hnil]; rfl)
  refine ⟨splice terms terms', alternation_splice hcons hcons' hfilled hfilled',
    forall₂_splice hterms hterms', forall_mem_splice ?_ hfilled hfilled'⟩
  intro as bs has _
  simp [has]

/-- The empty texts among them have no terms, and leave nothing behind. -/
theorem join {texts : List String} {formulas : List (List (List (Formula Atom)))}
    (h : List.Forall₂ (Alternates catalog) texts formulas) :
    Alternates catalog (Connective.and.join (texts.filter (!·.isEmpty)))
      (formulas.foldr splice []) := by
  induction h with
  | nil => exact ⟨[], rfl, .nil, by simp⟩
  | @cons text first texts others htext hrest ih =>
    rw [List.foldr_cons]
    rcases htext.cases with ⟨rfl, rfl⟩ | ⟨hne, -⟩
    · exact ih
    · rw [List.filter_cons_of_pos (by simpa using hne)]
      by_cases hshown : texts.filter (!·.isEmpty) = []
      · rw [hshown] at ih ⊢
        rcases ih.cases with ⟨-, hnil⟩ | ⟨hne, -⟩
        · rw [hnil, splice_nil, Connective.join_singleton]
          exact htext
        · exact absurd rfl hne
      · have hjoined : Connective.and.join (texts.filter (!·.isEmpty)) ≠ "" :=
          Connective.join_ne_empty _ hshown fun text htext => by
            simpa using (List.mem_filter.mp htext).2
        rw [Connective.join_cons _ _ hshown]
        exact htext.and ih hne hjoined

/-- A text of one term is a conjunction. -/
theorem exists_conjoins (h : Alternates catalog text formulas) (hne : text ≠ "")
    (hterm : formulas.length ≤ 1) : ∃ read, Conjoins text read := by
  obtain ⟨terms, rfl, hterms, hfilled⟩ := h
  rw [← hterms.length_eq] at hterm
  cases hterms with
  | nil => exact absurd rfl hne
  | @cons term _ rest _ hclauses hrest =>
    have hrest : rest = [] := List.eq_nil_of_length_eq_zero (by simpa using hterm)
    obtain ⟨read, _, hconjoins, -⟩ := expresses_join .and hclauses (hfilled term List.mem_cons_self)
    rw [hrest, alternation_singleton]
    exact ⟨read, hconjoins⟩

/-- What the text says is the disjunction of its terms. -/
theorem denotes (h : Alternates catalog text formulas) :
    Option.Rel (Denotes catalog) (readCondition? text) (chainTerms formulas) := by
  rcases h.cases with ⟨rfl, rfl⟩ | ⟨-, -, read, formula, hread, hformula, hdenotes⟩
  · exact .none
  · rw [hread, hformula]
    exact .some hdenotes

end Alternates

end

/-! ## Conjunctions -/

theorem Sql.Conjoins.read {text : String} {factors : List (Formula String)}
    (h : Conjoins text factors) :
    readCondition? text = Connective.and.chain factors := by
  obtain ⟨formula, hformula⟩ := @Connects.exists_chain .and _ _ h
  rw [(h.disjoins hformula).read, hformula]
  rfl

theorem conjoins_join {texts : List String} {reads : List (List (Formula String))}
    (h : List.Forall₂ Conjoins texts reads) (hne : texts ≠ []) :
    Conjoins (Connective.and.join texts) reads.flatten := by
  induction h with
  | nil => exact absurd rfl hne
  | @cons text read texts reads hfirst hrest ih =>
    rw [List.flatten_cons]
    cases hrest with
    | nil => simpa using hfirst
    | cons hnext hothers =>
      rw [Connective.join_cons _ _ (by simp)]
      exact hfirst.and (ih (by simp))

/-- Conjunctions with AND between them say what each of them says. -/
theorem eval_read_join {texts : List String} (h : ∀ text ∈ texts, ∃ read, Conjoins text read)
    (valuation : String → Truth) :
    (readCondition? (Connective.and.join texts)).map (·.eval valuation) =
      Connective.and.truth? valuation (texts.filterMap readCondition?) := by
  obtain ⟨reads, hreads⟩ : ∃ reads, List.Forall₂ Conjoins texts reads := by
    induction texts with
    | nil => exact ⟨[], .nil⟩
    | cons text rest ih =>
      rw [List.forall_mem_cons] at h
      obtain ⟨read, hread⟩ := h.1
      obtain ⟨reads, hreads⟩ := ih h.2
      exact ⟨read :: reads, .cons hread hreads⟩
  have hchained : texts.filterMap readCondition? = reads.filterMap Connective.and.chain := by
    clear h
    induction hreads with
    | nil => rfl
    | cons hread hreads ih => rw [List.filterMap_cons, List.filterMap_cons, hread.read, ih]
  rw [hchained, Connective.truth?_filterMap_chain]
  by_cases hne : texts = []
  · subst hne
    cases hreads
    rfl
  · rw [(conjoins_join hreads hne).read]
    rfl

end DescriptorSql
