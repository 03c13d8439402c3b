import DescriptorSql.Compile.Condition
import Mathlib.Data.List.Forall2

/-!
# `Proofs/Compile/Agreement.lean` — two runs of the compiler, side by side

Two compilations agree when they fail with the same error or succeed with related results (`Agree`).
Agreement goes through every step the compiler is made of: doing one thing after the other, laying
entries over each other, and putting the clauses of entries in sequence.
-/

set_option autoImplicit false

namespace DescriptorSql

/-! ## Agreement -/

/-- Both fail with the same error, or both succeed and the results are related. -/
def Agree {α β : Type} (R : α → β → Prop) : Except QueryError α → Except QueryError β → Prop
  | .ok a, .ok b => R a b
  | .error e, .error f => e = f
  | _, _ => False

namespace Agree

variable {α β γ δ : Type} {R : α → β → Prop} {S : γ → δ → Prop}
  {x : Except QueryError α} {y : Except QueryError β}

/-- Agreement is one of two things, so it is split once here. -/
theorem cases (h : Agree R x y) :
    (∃ e, x = .error e ∧ y = .error e) ∨ ∃ a b, x = .ok a ∧ y = .ok b ∧ R a b := by
  cases x with
  | error e =>
    cases y with
    | error e' =>
      obtain rfl : e = e' := h
      exact Or.inl ⟨e, rfl, rfl⟩
    | ok b => exact h.elim
  | ok a =>
    cases y with
    | error e' => exact h.elim
    | ok b => exact Or.inr ⟨a, b, rfl, rfl, h⟩

/-- Both go on, with what they gave. What they go on to has to agree only on results that they can
have. -/
theorem bind {f : α → Except QueryError γ} {g : β → Except QueryError δ} (h : Agree R x y)
    (hfg : ∀ a b, x = .ok a → y = .ok b → R a b → Agree S (f a) (g b)) :
    Agree S (x >>= f) (y >>= g) := by
  rcases h.cases with ⟨e, rfl, rfl⟩ | ⟨a, b, rfl, rfl, hab⟩
  · exact rfl
  · exact hfg a b rfl rfl hab

/-- Both go on with the same result. -/
theorem bind_same {f g : α → Except QueryError γ} {T : γ → γ → Prop}
    (hfg : ∀ a, x = .ok a → Agree T (f a) (g a)) : Agree T (x >>= f) (x >>= g) := by
  cases x with
  | error e => exact rfl
  | ok a => exact hfg a rfl

/-- What is done to both results keeps them related, or the error. -/
theorem map {f : α → γ} {g : β → δ} (h : Agree R x y) (hfg : ∀ a b, R a b → S (f a) (g b)) :
    Agree S (f <$> x) (g <$> y) := by
  rcases h.cases with ⟨e, rfl, rfl⟩ | ⟨a, b, rfl, rfl, hab⟩
  · exact rfl
  · exact hfg a b hab

theorem mono {R' : α → β → Prop} (h : Agree R x y) (hR : ∀ a b, R a b → R' a b) :
    Agree R' x y := by
  rcases h.cases with ⟨e, rfl, rfl⟩ | ⟨a, b, rfl, rfl, hab⟩
  · exact rfl
  · exact hR a b hab

/-- What agrees with one and the same result agrees. -/
theorem of_common {T : β → γ → Prop} {S : α → γ → Prop} {z : Except QueryError γ}
    (hxy : Agree R x y) (hxz : Agree S x z) (hT : ∀ a b c, R a b → S a c → T b c) :
    Agree T y z := by
  rcases hxy.cases with ⟨e, rfl, rfl⟩ | ⟨a, b, rfl, rfl, hab⟩
  · rcases hxz.cases with ⟨e', herror, rfl⟩ | ⟨a', c, hok, -, -⟩
    · exact Except.error.inj herror
    · cases hok
  · rcases hxz.cases with ⟨e', herror, -⟩ | ⟨a', c, hok, rfl, hac⟩
    · cases herror
    · cases hok
      exact hT a b c hab hac

/-- What agrees with a success succeeds. -/
theorem exists_ok {b : β} (h : Agree R x y) (hy : y = .ok b) : ∃ a, x = .ok a ∧ R a b := by
  rcases h.cases with ⟨e, -, herror⟩ | ⟨a, b', hx, hok, hab⟩
  · rw [hy] at herror
    cases herror
  · rw [hy] at hok
    cases hok
    exact ⟨a, hx, hab⟩

end Agree

/-- Two steps that succeed together succeed one by one. -/
theorem exists_of_bind_eq_ok {ε α β : Type} {x : Except ε α} {f : α → Except ε β} {b : β}
    (h : x >>= f = .ok b) : ∃ a, x = .ok a ∧ f a = .ok b := by
  cases x with
  | error e => cases h
  | ok a => exact ⟨a, rfl, h⟩

theorem exists_of_map_eq_ok {ε α β : Type} {x : Except ε α} {f : α → β} {b : β}
    (h : f <$> x = .ok b) : ∃ a, x = .ok a ∧ f a = b := by
  cases x with
  | error e => cases h
  | ok a => exact ⟨a, rfl, Except.ok.inj h⟩

theorem eq_ok_of_toOption {α : Type} {x : Except QueryError α} {a : α} (h : x.toOption = some a) :
    x = .ok a := by
  cases x with
  | error e => cases h
  | ok a' => rw [Option.some.inj h]

theorem exists_eq_ok {α : Type} {x : Except QueryError α} (h : x.toOption.isSome = true) :
    ∃ a, x = .ok a := by
  cases x with
  | error e => cases h
  | ok a => exact ⟨a, rfl⟩

/-- Every result of a list comes from an item. -/
theorem exists_of_mem_mapM {α β : Type} {f : α → Except QueryError β} {items : List α}
    {results : List β} (hok : items.mapM f = .ok results) :
    ∀ result ∈ results, ∃ item ∈ items, f item = .ok result := by
  induction items generalizing results with
  | nil =>
    cases hok
    simp
  | cons item rest ih =>
    rw [List.mapM_cons] at hok
    obtain ⟨first, hfirst, hok⟩ := exists_of_bind_eq_ok hok
    obtain ⟨others, hothers, hok⟩ := exists_of_bind_eq_ok hok
    cases hok
    refine List.forall_mem_cons.mpr ⟨⟨item, List.mem_cons_self, hfirst⟩, fun result hresult => ?_⟩
    obtain ⟨other, hother, hresult⟩ := ih hothers result hresult
    exact ⟨other, List.mem_cons_of_mem item hother, hresult⟩

/-- The text of joins is one after the other, each of a relation in the catalog. -/
theorem exists_of_joinsText {catalog : Catalog} {joins : List (JoinKind × String × JoinQuery)}
    {text : String} (hok : joinsText catalog joins = .ok text) :
    ∃ texts, text = String.join texts ∧ ∀ text ∈ texts, ∃ kind name relation,
      catalog.resolve name = .ok relation ∧ text = Sql.relationJoin kind relation := by
  obtain ⟨texts, htexts, hjoin⟩ := exists_of_bind_eq_ok hok
  refine ⟨texts, (Except.ok.inj hjoin).symm, fun text htext => ?_⟩
  obtain ⟨⟨kind, name, join⟩, -, hjoined⟩ := exists_of_mem_mapM htexts text htext
  obtain ⟨relation, hrelation, hjoined⟩ := exists_of_bind_eq_ok hjoined
  exact ⟨kind, name, relation, hrelation, (Except.ok.inj hjoined).symm⟩

/-! ## Maps -/

/-- The maps have the same keys in the same order, and the values are related. -/
def Entries.Related {κ ν ω : Type} (R : ν → ω → Prop) : Entries κ ν → Entries κ ω → Prop :=
  List.Forall₂ fun first second => first.1 = second.1 ∧ R first.2 second.2

namespace Entries.Related

variable {κ ν ω : Type} [DecidableEq κ] {R : ν → ω → Prop} {as : Entries κ ν} {bs : Entries κ ω}

/-- A write goes to the same place in both maps, for the keys are the same. -/
theorem insert (h : Related R as bs) (key : κ) {v : ν} {w : ω} (hvw : R v w) :
    Related R (Entries.insert as key v) (Entries.insert bs key w) := by
  induction h with
  | nil => exact .cons ⟨rfl, hvw⟩ .nil
  | @cons a b as bs hab hrest ih =>
    obtain ⟨k, v'⟩ := a
    obtain ⟨l, w'⟩ := b
    obtain ⟨hkey, hvalue⟩ := hab
    dsimp only at hkey hvalue
    subst hkey
    by_cases hk : k = key
    · rw [Entries.insert, Entries.insert, if_pos hk, if_pos hk]
      exact .cons ⟨rfl, hvw⟩ hrest
    · rw [Entries.insert, Entries.insert, if_neg hk, if_neg hk]
      exact .cons ⟨rfl, hvalue⟩ ih

/-- Merging is writing the entries of the overlay one after the other. -/
theorem merge {overlay : Entries κ ν} {overlay' : Entries κ ω} (h : Related R as bs)
    (hover : Related R overlay overlay') :
    Related R (Entries.merge as overlay) (Entries.merge bs overlay') := by
  induction hover generalizing as bs with
  | nil => exact h
  | @cons a b rest rest' hab hrest ih =>
    obtain ⟨k, v⟩ := a
    obtain ⟨l, w⟩ := b
    obtain ⟨hkey, hvalue⟩ := hab
    dsimp only at hkey hvalue
    subst hkey
    exact ih (h.insert k hvalue)

theorem foldl_merge {overlays : List (Entries κ ν)} {overlays' : List (Entries κ ω)}
    (h : Related R as bs) (hovers : List.Forall₂ (Related R) overlays overlays') :
    Related R (overlays.foldl Entries.merge as) (overlays'.foldl Entries.merge bs) := by
  induction hovers generalizing as bs with
  | nil => exact h
  | cons hover hrest ih => exact ih (h.merge hover)

end Entries.Related

/-! ## Clauses -/

variable {R : String → String → Prop}

/-- Putting the clauses of entries in sequence fails with the first entry that does, in both alike.
-/
theorem agree_gather {as bs : Entries String Clausal}
    (h : Entries.Related (Agree (List.Forall₂ R)) as bs) :
    Agree (List.Forall₂ R) (gather as) (gather bs) := by
  induction h with
  | nil => exact .nil
  | @cons a b as bs hab hrest ih =>
    refine hab.2.bind fun own own' _ _ hown => ih.bind fun others others' _ _ hothers => ?_
    exact List.rel_append hown hothers

/-- What is left of a level is compiled after the predicates are laid over each other, and this
looks at keys alone. So it leaves the same entries in both. -/
theorem agree_overlayText {S : Option String → Option String → Prop}
    {as bs : List (Entries String Clausal)}
    (h : List.Forall₂ (Entries.Related (Agree (List.Forall₂ R))) as bs) (hnone : S none none)
    (hjoin : ∀ {cs ds : List String}, List.Forall₂ R cs ds →
      S (some (Connective.and.join cs)) (some (Connective.and.join ds))) :
    Agree S (overlayText as) (overlayText bs) := by
  cases h with
  | nil => exact hnone
  | cons hfirst hrest => exact (agree_gather (hfirst.foldl_merge hrest)).map fun _ _ => hjoin

end DescriptorSql
