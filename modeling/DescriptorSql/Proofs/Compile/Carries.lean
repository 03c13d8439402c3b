import DescriptorSql.Compile.Overlay
import DescriptorSql.Proofs.Binding.Phrase
import DescriptorSql.Proofs.Compile.Agreement

/-!
# `Proofs/Compile/Carries.lean` — the compiler and named values

Where the values of a descriptor are named, what the compiler makes of it is a text with slots; and
the text with numbers in the slots is what the compiler makes of the descriptor with numbers for the
names (`Carries`). The compiler is put together from a few steps, and each of them carries names
through: one text after the other, texts in a list, in parentheses or behind a keyword, and
predicates laid over each other.
-/

set_option autoImplicit false

namespace DescriptorSql

open Binding (Lifts LiftsAll LiftsOption SlotNumbers)
open Sql (ClosesApart NoAt OpensApart)

variable {values : Entries String Json} {catalog : Catalog}

/-! ## Carrying names through -/

/-- If it compiles, its texts lift: to what is compiled from it with numbers. -/
def Carries (values : Entries String Json) {α : Type} (R : SlotNumbers → α → α → Prop)
    (compile : α → Clausal) (a : α) : Prop :=
  ∀ texts, compile a = .ok texts →
    LiftsAll values texts fun numbers texts' => ∃ a', R numbers a a' ∧ compile a' = .ok texts'

/-- Lists of texts are changed alike with names and with numbers. -/
def Transports (values : Entries String Json) (F : List String → List String) : Prop :=
  ∀ {texts : List String} {P : SlotNumbers → List String → Prop}, LiftsAll values texts P →
    LiftsAll values (F texts) fun numbers texts' => ∃ as, texts' = F as ∧ P numbers as

namespace Carries

variable {α β : Type} {R : SlotNumbers → α → α → Prop} {S : SlotNumbers → β → β → Prop}
  {f : α → Clausal} {g : β → Clausal} {a : α}

/-- A text of its own. -/
theorem single (text : α → String) (hf : ∀ a, f a = .ok [text a])
    (h : Lifts values (text a) fun numbers text' => ∃ a', R numbers a a' ∧ text a' = text') :
    Carries values R f a := by
  intro texts hok
  rw [hf] at hok
  cases hok
  refine (LiftsAll.single h).mono ?_
  rintro numbers _ ⟨_, rfl, a', ha, rfl⟩
  exact ⟨a', ha, hf a'⟩

/-- What is compiled as a part of something else. -/
theorem wrap (h : Carries values R f a) {c : α → β} (hcompile : ∀ a, g (c a) = f a)
    (hrel : ∀ {numbers : SlotNumbers} {a a' : α}, R numbers a a' → S numbers (c a) (c a')) :
    Carries values S g (c a) := by
  intro texts hok
  rw [hcompile] at hok
  refine (h texts hok).mono ?_
  rintro numbers texts' ⟨a', ha, hok'⟩
  exact ⟨c a', hrel ha, by rw [hcompile, hok']⟩

theorem through (h : Carries values R f a) {F : List String → List String}
    (hF : Transports values F) : Carries values R (fun a => F <$> f a) a := by
  intro texts hok
  obtain ⟨own, hown, rfl⟩ := exists_of_map_eq_ok hok
  refine (hF (h own hown)).mono ?_
  rintro numbers _ ⟨own', rfl, a', ha, hown'⟩
  refine ⟨a', ha, ?_⟩
  dsimp only
  rw [hown']
  rfl

section

variable {f : α → Clausal} {g : List α → Clausal}

theorem nil (hg : g [] = .ok []) :
    Carries values (fun numbers => List.Forall₂ (R numbers)) g [] := by
  intro texts hok
  rw [hg] at hok
  cases hok
  refine LiftsAll.nil.mono ?_
  rintro numbers _ rfl
  exact ⟨[], .nil, hg⟩

/-- One after the other. -/
theorem cons (h : Carries values R f a) {rest : List α}
    (hrest : Carries values (fun numbers => List.Forall₂ (R numbers)) g rest)
    (hg : ∀ a rest, g (a :: rest) = do return (← f a) ++ (← g rest)) :
    Carries values (fun numbers => List.Forall₂ (R numbers)) g (a :: rest) := by
  intro texts hok
  rw [hg] at hok
  obtain ⟨own, hown, hok⟩ := exists_of_bind_eq_ok hok
  obtain ⟨others, hothers, hok⟩ := exists_of_bind_eq_ok hok
  cases hok
  refine ((h own hown).append (hrest others hothers)).mono ?_
  rintro numbers _ ⟨_, _, rfl, ⟨a', ha, hown'⟩, rest', hrest', hothers'⟩
  refine ⟨a' :: rest', .cons ha hrest', ?_⟩
  rw [hg, hown', hothers']
  rfl

end

end Carries

/-! ## Clauses -/

/-- The texts joined by a connective. -/
theorem lifts_join (connective : Connective) {texts : List String}
    {P : SlotNumbers → List String → Prop} (h : LiftsAll values texts P) :
    Lifts values (connective.join texts) fun numbers text =>
      ∃ texts', text = connective.join texts' ∧ P numbers texts' := by
  cases connective
  · exact h.intercalate (show NoAt " AND " by decide) (by decide)
  · exact h.intercalate (show NoAt " OR " by decide) (by decide)

/-- One text out of several, unless there are none. -/
theorem transports_unlessEmpty {pack : List String → String}
    (hpack : ∀ {texts : List String} {P : SlotNumbers → List String → Prop},
      LiftsAll values texts P →
      Lifts values (pack texts) fun numbers text =>
        ∃ texts', text = pack texts' ∧ P numbers texts') :
    Transports values fun texts => if texts.isEmpty then [] else [pack texts] := by
  intro texts P h
  by_cases hempty : texts.isEmpty = true
  · obtain rfl := List.isEmpty_iff.mp hempty
    obtain ⟨templates, htexts, hlift⟩ := h
    cases htexts
    refine LiftsAll.nil.mono ?_
    rintro numbers _ rfl
    exact ⟨[], rfl, hlift numbers [] .nil⟩
  · dsimp only
    rw [if_neg hempty]
    refine (LiftsAll.single (hpack h.isEmpty)).mono ?_
    rintro numbers _ ⟨_, rfl, texts', rfl, htexts, hsame⟩
    exact ⟨texts', by rw [hsame, if_neg hempty], htexts⟩

theorem transports_groupClauses (connective : Connective) :
    Transports values (groupClauses connective) := by
  intro texts P h
  have hgroup : Transports values fun texts =>
      if texts.isEmpty then [] else ["(" ++ connective.join texts ++ ")"] := by
    apply transports_unlessEmpty
    intro texts P h
    refine ((lifts_join connective h).enclosed (show OpensApart "(" by decide)
      (show ClosesApart ")" by decide)).mono ?_
    rintro numbers _ ⟨_, rfl, texts', rfl, htexts⟩
    exact ⟨texts', rfl, htexts⟩
  refine (hgroup h.filter).mono ?_
  rintro numbers _ ⟨_, rfl, texts', rfl, htexts⟩
  exact ⟨texts', rfl, htexts⟩

theorem transports_existenceClauses : Transports values existenceClauses :=
  transports_unlessEmpty (lifts_join .and)

theorem transports_negation :
    Transports values fun clauses => negationClauses (Connective.and.join clauses) := by
  have hfilter : ∀ text : String,
      negationClauses text = ([text].filter (!·.isEmpty)).map fun text =>
        "NOT(" ++ text ++ ")" := by
    intro text
    rw [negationClauses, List.filter_cons]
    by_cases hempty : text.isEmpty = true
    · simp [hempty]
    · simp [hempty]
  intro texts P h
  have hnot := ((LiftsAll.single (lifts_join .and h)).filter).map fun htext =>
    htext.enclosed (show OpensApart "NOT(" by decide) (show ClosesApart ")" by decide)
  dsimp only
  rw [hfilter]
  refine hnot.mono ?_
  rintro numbers _ ⟨_, rfl, _, rfl, _, rfl, texts', rfl, htexts⟩
  exact ⟨texts', (hfilter _).symm, htexts⟩

/-- Every text behind the same words. -/
theorem transports_map {lead : String} (hlead : OpensApart lead) :
    Transports values (List.map (lead ++ ·)) := fun h => h.map fun htext => htext.behind hlead

/-! ## Predicates -/

/-- A condition carries names through. -/
abbrev CarriesCondition (values : Entries String Json) (catalog : Catalog) (field : String)
    (condition : Condition) : Prop :=
  Carries values (fun numbers => Condition.Related (Json.Numbered numbers))
    (conditionClauses catalog field) condition

/-- All conditions of a predicate carry names through. -/
def CarriesPredicate (values : Entries String Json) (catalog : Catalog) (predicate : Predicate) :
    Prop :=
  ∀ entry ∈ predicate.entries, CarriesCondition values catalog entry.1 entry.2

namespace CarriesPredicate

theorem gather {entries : List (String × Condition)}
    (h : CarriesPredicate values catalog (.ofEntries entries)) :
    Carries values (fun numbers => List.Forall₂ (Keyed (Condition.Related (Json.Numbered numbers))))
      (fun entries => DescriptorSql.gather (entryClauses catalog entries)) entries := by
  induction entries with
  | nil => exact .nil rfl
  | cons entry rest ih =>
    obtain ⟨hentry, hrest⟩ := List.forall_mem_cons.mp h
    have hpair : Carries values
        (fun numbers => Keyed (Condition.Related (Json.Numbered numbers)))
        (fun entry => conditionClauses catalog entry.1 entry.2) entry :=
      hentry.wrap (c := fun condition => (entry.1, condition)) (fun _ => rfl) .mk
    exact hpair.cons (ih hrest) fun _ _ => rfl

/-- The text of a predicate. -/
theorem lifts_toSql {predicate : Predicate} (h : CarriesPredicate values catalog predicate)
    {connective : Connective} {text : String}
    (hok : predicate.toSql catalog connective = .ok text) :
    Lifts values text fun numbers text' => ∃ predicate',
      Predicate.Related (Json.Numbered numbers) predicate predicate' ∧
        predicate'.toSql catalog connective = .ok text' := by
  obtain ⟨entries⟩ := predicate
  obtain ⟨clauses, hclauses, rfl⟩ := exists_of_map_eq_ok hok
  refine (lifts_join connective (h.gather clauses hclauses)).mono ?_
  rintro numbers _ ⟨clauses', rfl, entries', hentries, hclauses'⟩
  refine ⟨.ofEntries entries', .ofEntries hentries, ?_⟩
  dsimp only at hclauses'
  rw [Predicate.toSql, Predicate.entries, hclauses']
  rfl

theorem foldl_merge {first : Predicate} {rest : List Predicate}
    (hfirst : CarriesPredicate values catalog first)
    (hrest : ∀ predicate ∈ rest, CarriesPredicate values catalog predicate) :
    CarriesPredicate values catalog (rest.foldl Predicate.merge first) := by
  intro entry hentry
  obtain ⟨layer, hlayer, hmem⟩ := Predicate.exists_of_mem_foldl_merge hentry
  rcases List.mem_cons.mp hlayer with rfl | hlayer
  · exact hfirst entry hmem
  · exact hrest layer hlayer entry hmem

end CarriesPredicate

/-- Predicates laid over each other. -/
theorem lifts_overlaid {predicates : List Predicate}
    (h : ∀ predicate ∈ predicates, CarriesPredicate values catalog predicate)
    {text? : Option String}
    (hok : (overlaidFilter predicates).mapM (Predicate.toSql catalog .and) = .ok text?) :
    LiftsOption values text? fun numbers text?' => ∃ predicates',
      List.Forall₂ (Predicate.Related (Json.Numbered numbers)) predicates predicates' ∧
        (overlaidFilter predicates').mapM (Predicate.toSql catalog .and) = .ok text?' := by
  cases predicates with
  | nil =>
    cases hok
    exact .none fun _ => ⟨[], .nil, rfl⟩
  | cons first rest =>
    obtain ⟨hfirst, hrest⟩ := List.forall_mem_cons.mp h
    rw [overlaidFilter, Option.mapM_some] at hok
    obtain ⟨text, htext, rfl⟩ := exists_of_map_eq_ok hok
    refine (LiftsOption.some ((hfirst.foldl_merge hrest).lifts_toSql htext)).mono ?_
    rintro numbers _ ⟨text', rfl, merged, hmerged, htext'⟩
    obtain ⟨first', rest', hfirst', hrest', rfl⟩ := exists_foldl_merge hmerged
    refine ⟨first' :: rest', .cons hfirst' hrest', ?_⟩
    rw [overlaidFilter, Option.mapM_some, htext']
    rfl

/-- A predicate on its own is laid over nothing. -/
theorem overlayText_filterClauses (catalog : Catalog) (filter : Option Predicate) :
    overlayText (filterClauses catalog filter) =
      (overlaidFilter filter.toList).mapM (Predicate.toSql catalog .and) := by
  cases filter with
  | none => rfl
  | some predicate =>
    obtain ⟨entries⟩ := predicate
    rw [Option.toList_some, overlaidFilter, Option.mapM_some, filterClauses, overlayText]
    simp only [List.foldl_nil, Predicate.toSql, Predicate.entries]
    cases DescriptorSql.gather (entryClauses catalog entries) <;> rfl

end DescriptorSql
