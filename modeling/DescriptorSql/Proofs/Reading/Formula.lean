import DescriptorSql.Descriptor.Operator
import Mathlib.Data.List.Forall2

/-!
# `Proofs/Reading/Formula.lean` — conditions as formulas

A condition is a formula over atoms, and its truth is one of three values, since a comparison with
`NULL` is neither true nor false. A sequence of formulas behind one connective is a formula as well
(`Connective.chain`), and how the sequence is grouped makes no difference to its truth
(`truth?_append`).
-/

set_option autoImplicit false

namespace DescriptorSql

/-! ## Truth -/

inductive Truth where
  | no
  | unknown
  | yes
  deriving DecidableEq, Repr

/-- NOT leaves what is unknown unknown. -/
def Truth.negate : Truth → Truth
  | no => yes
  | unknown => unknown
  | yes => no

/-- AND is as true as its less true side, OR as its more true side. -/
def Connective.truth : Connective → Truth → Truth → Truth
  | .and, .no, _ | .and, _, .no => .no
  | .and, .yes, t | .and, t, .yes => t
  | .or, .yes, _ | .or, _, .yes => .yes
  | .or, .no, t | .or, t, .no => t
  | _, .unknown, .unknown => .unknown

theorem Connective.truth_assoc (connective : Connective) (a b c : Truth) :
    connective.truth (connective.truth a b) c = connective.truth a (connective.truth b c) := by
  cases connective <;> cases a <;> cases b <;> cases c <;> rfl

/-! ## Formulas -/

inductive Formula (α : Type) where
  | atom (content : α)
  | negation (inner : Formula α)
  | joined (connective : Connective) (first second : Formula α)

namespace Formula

variable {α β ε : Type}

/-- The truth of a formula, from the truth of its atoms. -/
def eval (valuation : α → Truth) : Formula α → Truth
  | .atom content => valuation content
  | .negation inner => (inner.eval valuation).negate
  | .joined connective first second =>
    connective.truth (first.eval valuation) (second.eval valuation)

/-- The formula with every atom spelled out; the first atom that fails decides the error. -/
def spell (text : α → Except ε β) : Formula α → Except ε (Formula β)
  | .atom content => .atom <$> text content
  | .negation inner => .negation <$> inner.spell text
  | .joined connective first second => do
    let first ← first.spell text
    let second ← second.spell text
    return .joined connective first second

end Formula

/-! ## Sequences of formulas -/

namespace Connective

variable {α β ε : Type}

/-- A sequence of formulas behind one connective; nothing for no formula. -/
def chain (connective : Connective) : List (Formula α) → Option (Formula α)
  | [] => none
  | first :: rest =>
    match connective.chain rest with
    | none => some first
    | some others => some (.joined connective first others)

theorem chain_eq_none_iff {connective : Connective} {formulas : List (Formula α)} :
    connective.chain formulas = none ↔ formulas = [] := by
  cases formulas with
  | nil => simp [chain]
  | cons first rest =>
    rw [chain]
    split <;> simp

/-- Two truths, either of which may be missing. -/
def truth₂ (connective : Connective) : Option Truth → Option Truth → Option Truth
  | none, t | t, none => t
  | some a, some b => some (connective.truth a b)

@[simp] theorem truth₂_none (connective : Connective) (t : Option Truth) :
    connective.truth₂ t none = t := by
  cases t <;> rfl

theorem truth₂_assoc (connective : Connective) (a b c : Option Truth) :
    connective.truth₂ (connective.truth₂ a b) c = connective.truth₂ a (connective.truth₂ b c) := by
  cases a with
  | none => rfl
  | some a =>
    cases b with
    | none => rfl
    | some b =>
      cases c with
      | none => rfl
      | some c => exact congrArg some (connective.truth_assoc a b c)

/-- The truth of a sequence of formulas. -/
def truth? (connective : Connective) (valuation : α → Truth) (formulas : List (Formula α)) :
    Option Truth := (connective.chain formulas).map (·.eval valuation)

variable {connective : Connective} {valuation : α → Truth}

theorem truth?_cons (first : Formula α) (rest : List (Formula α)) :
    connective.truth? valuation (first :: rest) =
      connective.truth₂ (some (first.eval valuation)) (connective.truth? valuation rest) := by
  rw [truth?, chain, truth?]
  cases connective.chain rest <;> rfl

theorem truth?_append (first second : List (Formula α)) :
    connective.truth? valuation (first ++ second) =
      connective.truth₂ (connective.truth? valuation first)
        (connective.truth? valuation second) := by
  induction first with
  | nil => rfl
  | cons formula rest ih =>
    rw [List.cons_append, truth?_cons, truth?_cons, ih, truth₂_assoc]

/-- Chained in parts and then as a whole, a sequence is as true as it is in one piece. -/
theorem truth?_filterMap_chain (parts : List (List (Formula α))) :
    connective.truth? valuation (parts.filterMap connective.chain) =
      connective.truth? valuation parts.flatten := by
  induction parts with
  | nil => rfl
  | cons part rest ih =>
    have hfirst : connective.truth? valuation part =
        (connective.chain part).map (·.eval valuation) := rfl
    rw [List.flatten_cons, truth?_append, hfirst]
    cases hpart : connective.chain part with
    | none =>
      rw [List.filterMap_cons_none hpart, ih]
      rfl
    | some formula =>
      rw [List.filterMap_cons_some hpart, truth?_cons, ih]
      rfl

/-- AND is true if all of its sides are. -/
theorem forall_truth?_and_iff {formulas : List (Formula α)} :
    (∀ truth ∈ Connective.and.truth? valuation formulas, truth = .yes) ↔
      ∀ formula ∈ formulas, formula.eval valuation = .yes := by
  induction formulas with
  | nil => simp [truth?, chain]
  | cons first rest ih =>
    rw [List.forall_mem_cons, ← ih, truth?_cons]
    cases Connective.and.truth? valuation rest with
    | none => simp [truth₂]
    | some others => cases first.eval valuation <;> cases others <;> simp [truth₂, truth]

theorem spell_chain {text : α → Except ε β} {formulas : List (Formula α)}
    {spelled : List (Formula β)}
    (h : List.Forall₂ (fun f g => f.spell text = .ok g) formulas spelled) {formula : Formula α}
    (hchain : connective.chain formulas = some formula) :
    ∃ result, connective.chain spelled = some result ∧ formula.spell text = .ok result := by
  induction h generalizing formula with
  | nil => cases hchain
  | @cons first first' rest rest' hfirst hrest ih =>
    rw [chain] at hchain ⊢
    cases hothers : connective.chain rest with
    | none =>
      rw [hothers] at hchain
      cases hchain
      rw [chain_eq_none_iff] at hothers
      subst hothers
      cases hrest
      exact ⟨first', rfl, hfirst⟩
    | some others =>
      rw [hothers] at hchain
      cases hchain
      obtain ⟨result, hresult, hspell⟩ := ih hothers
      refine ⟨.joined connective first' result, by rw [hresult], ?_⟩
      rw [Formula.spell, hfirst, hspell]
      rfl

end Connective

end DescriptorSql
