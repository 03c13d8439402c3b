import DescriptorSql.Proofs.Binding.Replacement
import Mathlib

/-!
# `Proofs/Binding/Template.lean` — texts with named values in quotes

A *template* is a text as characters and slots. A slot is a name behind one at sign between single
quotes, and stands for a value. Where no other at sign stands in the text and nothing runs up to a
slot (`Template.Fits`), the binder finds exactly the slots: it numbers them in their order and binds
one value for each (`bind_spelled`).

A template can have other numbers as well. `Numbered` puts *some* number in the place of each slot,
out of those that its name may have; the binder's numbers are one way to do so
(`numbered_positional`).
-/

set_option autoImplicit false

namespace DescriptorSql.Binding

open CharClass (isWord)

/-! ## Templates -/

/-- A character, or a named value in single quotes. -/
inductive Atom where
  | char (c : Char)
  | slot (name : String)
  deriving DecidableEq, Repr

abbrev Template := List Atom

/-- Names with numbers that may stand for their values. -/
abbrev SlotNumbers := List (String × Nat)

/-- A name that a value can be bound to: one or more word characters, and there is a value for
it. -/
structure IsBindable (values : Entries String Json) (name : String) : Prop where
  ne_nil : name.toList ≠ []
  isWord : ∀ c ∈ name.toList, isWord c = true
  isSome : (Entries.get? values name).isSome = true

namespace Atom

/-- The atom as it stands in the text. -/
def chars : Atom → List Char
  | char c => [c]
  | slot name => '\'' :: '@' :: (name.toList ++ ['\''])

def name? : Atom → Option String
  | char _ => none
  | slot name => some name

/-- The character is no at sign, or the name can be bound. -/
def IsFit (values : Entries String Json) : Atom → Prop
  | char c => c ≠ '@'
  | slot name => IsBindable values name

/-- Neither makes the other a part of something else. -/
def Apart : Atom → Atom → Prop
  | char c, slot _ => isGlue c = false
  | slot _, char c => isGlue c = false
  | _, _ => True

theorem exists_chars (atom : Atom) : ∃ c cs, atom.chars = c :: cs := by
  cases atom with
  | char c => exact ⟨c, [], rfl⟩
  | slot name => exact ⟨_, _, rfl⟩

end Atom

namespace Template

/-- The text that a template spells. -/
def spelled (template : Template) : List Char := template.flatMap Atom.chars

/-- The names of the slots, in order. -/
def names (template : Template) : List String := template.filterMap Atom.name?

/-- The text with its slots numbered in order, after a number of values. -/
def positional (bound : Nat) : Template → List Char
  | [] => []
  | .char c :: rest => c :: positional bound rest
  | .slot _ :: rest => '$' :: ((Nat.repr (bound + 1)).toList ++ positional (bound + 1) rest)

/-- All atoms are fit, and every slot stands alone. -/
structure Fits (values : Entries String Json) (template : Template) : Prop where
  isFit : ∀ atom ∈ template, atom.IsFit values
  apart : template.IsChain Atom.Apart

@[simp] theorem spelled_nil : spelled [] = [] := rfl

@[simp] theorem spelled_cons (atom : Atom) (rest : Template) :
    spelled (atom :: rest) = atom.chars ++ spelled rest := List.flatMap_cons

@[simp] theorem spelled_append (first second : Template) :
    spelled (first ++ second) = spelled first ++ spelled second := List.flatMap_append

variable {values : Entries String Json} {template : Template}

theorem Fits.tail {atom : Atom} (h : Fits values (atom :: template)) : Fits values template :=
  ⟨fun other hother => h.isFit other (List.mem_cons_of_mem atom hother), h.apart.tail⟩

/-- A part of a template that fits. -/
theorem Fits.ofInfix {part : Template} (h : Fits values template) (hpart : part <:+: template) :
    Fits values part :=
  ⟨fun atom hatom => h.isFit atom (hpart.subset hatom), h.apart.infix hpart⟩

/-- The text of a template that fits does not begin with an at sign. -/
theorem Fits.head?_spelled (h : Fits values template) :
    ∀ c ∈ (spelled template).head?, c ≠ '@' := by
  cases template with
  | nil => simp [spelled]
  | cons atom rest =>
    cases atom with
    | char c =>
      rintro d ⟨⟩
      exact h.isFit (.char c) List.mem_cons_self
    | slot name =>
      rintro d ⟨⟩
      decide

/-- Nothing runs up to the atom behind a slot. -/
theorem Fits.isFree_behind {name : String} (h : Fits values (.slot name :: template)) :
    isFree false (spelled template).head? = true := by
  rw [isFree_false]
  cases template with
  | nil => simp [spelled]
  | cons atom rest =>
    have hapart := (List.isChain_cons_cons.mp h.apart).1
    cases atom with
    | char c =>
      rintro d ⟨⟩
      exact hapart
    | slot other =>
      rintro d ⟨⟩
      exact Run.isGlue_of_isQuote rfl

end Template

/-! ## What the binder finds -/

/-- A run that no parameter begins with is text. -/
theorem segments_text {run : Run} {rest : List Run} (hrun : ∀ count, run ≠ .sigils count)
    (hrest : ∀ count, rest.head? ≠ some (.sigils count)) (before : Option Char) :
    segments before (run :: rest) = .text run.chars :: segments (some run.last) rest := by
  cases run with
  | sigils count => exact absurd rfl (hrun count)
  | quote mark =>
    rw [segments]
    · rintro _ count _ _ _ _ - rfl
      exact hrest count rfl
    · rintro _ count _ _ _ - rfl
      exact hrest count rfl
    all_goals simp
  | word first more => rw [segments] <;> simp
  | other c => rw [segments] <;> simp

/-- No at sign begins the text, so no run of at signs is the first. -/
theorem head?_ofChars_ne {cs : List Char} (h : ∀ c ∈ cs.head?, c ≠ '@') (count : Nat) :
    (Run.ofChars cs).head? ≠ some (.sigils count) := by
  intro hruns
  obtain ⟨rest, hrest⟩ := List.head?_eq_some_iff.mp hruns
  have hspelled := congrArg List.head? (Run.chars_ofChars cs)
  rw [hrest] at hspelled
  have hhead : cs.head? = some '@' := by
    rw [← hspelled]
    simp [Run.chars, List.replicate_succ]
  exact h '@' hhead rfl

variable {values : Entries String Json}

theorem fillAll_text (cs : List Char) (bound : Nat) (rest : List Segment) :
    fillAll values bound (.text cs :: rest) =
      (fillAll values bound rest).map fun others =>
        ⟨String.ofList cs ++ others.sql, others.values⟩ :=
  fillAll_cons (show fill values bound (.text cs) = .ok (String.ofList cs, []) from rfl) rest

/-- A character that is no at sign is kept. -/
theorem fillAll_push {c : Char} (hc : c ≠ '@') {runs : List Run}
    (hruns : ∀ count, runs.head? ≠ some (.sigils count)) (before : Option Char) (bound : Nat) :
    fillAll values bound (segments before (Run.push c runs)) =
      (fillAll values bound (segments (some c) runs)).map
        fun others => ⟨String.ofList [c] ++ others.sql, others.values⟩ := by
  rcases Run.push_cases c runs with ⟨_, _, _, hat, -⟩ | ⟨first, more, rest, rfl, -, hpush⟩ |
    ⟨run, hpush, hsingle, -, -⟩
  · exact absurd hat hc
  · -- the character makes a word longer, and a word is text with it and without it
    have hlast : (Run.word c (first :: more)).last = (Run.word first more).last := by
      rw [Run.last, Run.last, List.getLastD_cons]
    have hword : ∀ (first : Char) (more : List Char) (before : Option Char),
        segments before (.word first more :: rest) =
          .text (first :: more) :: segments (some (Run.word first more).last) rest := by
      intro first more before
      rw [segments] <;> simp [Run.chars]
    rw [hpush, hword, hword, hlast, fillAll_text, fillAll_text]
    cases fillAll values bound (segments (some (Run.word first more).last) rest) with
    | error e => rfl
    | ok others =>
      show Except.ok (⟨_, _⟩ : BoundQuery) = Except.ok ⟨_ ++ (_ ++ _), _⟩
      rw [← String.append_assoc, ← String.ofList_append]
      rfl
  · have hchars : run.chars = [c] := by
      have hspelled := Run.chars_push c []
      rw [hsingle] at hspelled
      simpa using hspelled
    have hlast : run.last = c := by
      have hspelled := Run.getLast?_chars run
      rw [hchars] at hspelled
      simpa using hspelled.symm
    have hrun : ∀ count, run ≠ .sigils count := by
      rintro count rfl
      exact hc hlast.symm
    rw [hpush, segments_text hrun hruns, hchars, hlast, fillAll_text]

/-- A slot is found with its quotes. -/
theorem segments_slot {name : String} (hname : IsBindable values name) {cs : List Char}
    {before : Option Char} (hbefore : isFree false before = true)
    (hafter : isFree false cs.head? = true) :
    segments before (Run.ofChars ((Atom.slot name).chars ++ cs)) =
      .slot .value name.toList :: segments (some '\'') (Run.ofChars cs) := by
  obtain ⟨first, more, hsplit⟩ := List.exists_cons_of_ne_nil hname.ne_nil
  have hword := hname.isWord
  rw [hsplit] at hword
  have hmark : isWord '\'' = false := Run.isWord_of_isQuote rfl
  -- a quote is a run of its own, whatever is behind it
  have hquote : ∀ cs : List Char, Run.ofChars ('\'' :: cs) = .quote '\'' :: Run.ofChars cs := by
    intro cs
    have hseam : ∀ c ∈ ['\''].getLast?, ∀ d ∈ cs.head?, Run.joins c d = false := by
      rintro c ⟨⟩ d -
      simp [Run.joins, hmark]
    have hrun : Run.ofChars ['\''] = [.quote '\''] := by decide +kernel
    have hsplit := Run.ofChars_append hseam
    rwa [hrun] at hsplit
  have hsigil : ∀ d ∈ (first :: more ++ '\'' :: cs).head?, Run.joins '@' d = false := by
    rintro d ⟨⟩
    have hne : first ≠ '@' := by
      rintro rfl
      simpa using hword '@' List.mem_cons_self
    simp [Run.joins, hne]
  -- so the slot is four runs: a quote, the at sign, the name and a quote
  have hruns : Run.ofChars ((Atom.slot name).chars ++ cs) =
      .quote '\'' :: .sigils 0 :: .word first more :: .quote '\'' :: Run.ofChars cs := by
    have hchars : (Atom.slot name).chars ++ cs =
        '\'' :: (['@'] ++ (first :: more ++ '\'' :: cs)) := by simp [Atom.chars, hsplit]
    rw [hchars, hquote, Run.ofChars_append (by rintro c ⟨⟩; exact hsigil),
      Run.ofChars_append (by rintro c - d ⟨⟩; simp [Run.joins, hmark]),
      Run.ofChars_word hword, hquote]
    rfl
  have hfirst : firstChar? (Run.ofChars cs) = cs.head? := by
    rw [← head?_flatMap_chars, Run.chars_ofChars]
  rw [hruns, segments, Occurrence.segments, hfirst, hsplit]
  simp [Sigil.ofCount?, Occurrence.isQuoted, Occurrence.isFreeWithQuotes, hbefore, hafter]

namespace Template

variable {template : Template}

/-- The binder finds the slots and nothing else. -/
theorem Fits.fillAll (h : Fits values template) {before : Option Char}
    (hbefore : ∀ name, template.head? = some (.slot name) → isFree false before = true)
    (bound : Nat) :
    Binding.fillAll values bound (segments before (Run.ofChars (spelled template))) =
      .ok ⟨String.ofList (positional bound template), template.names.map (valueOf values)⟩ := by
  induction template generalizing before bound with
  | nil => rfl
  | cons atom rest ih =>
    cases atom with
    -- a character outside of slots is text, and has no at sign
    | char c =>
      have hfree : ∀ name, rest.head? = some (.slot name) → isFree false (some c) = true := by
        intro name hname
        obtain ⟨others, rfl⟩ := List.head?_eq_some_iff.mp hname
        rw [isFree_false]
        rintro d ⟨⟩
        exact (List.isChain_cons_cons.mp h.apart).1
      rw [spelled_cons, Atom.chars, List.singleton_append, Run.ofChars,
        fillAll_push (h.isFit (.char c) List.mem_cons_self) (head?_ofChars_ne h.tail.head?_spelled),
        ih h.tail hfree bound]
      show Except.ok (⟨_ ++ _, _⟩ : BoundQuery) = _
      rw [← String.ofList_append]
      rfl
    -- a slot is the placeholder of its name, and takes the next number
    | slot name =>
      have hname : IsBindable values name := h.isFit (.slot name) List.mem_cons_self
      have hfree : ∀ name, rest.head? = some (.slot name) → isFree false (some '\'') = true := by
        intro _ _
        decide +kernel
      obtain ⟨value, hvalue⟩ := Option.isSome_iff_exists.mp hname.isSome
      have hfill : fill values bound (.slot .value name.toList) =
          .ok ("$" ++ Nat.repr (bound + 1), [valueOf values name]) := by
        rw [fill, String.ofList_toList, valueOf, hvalue]
        rfl
      rw [spelled_cons, segments_slot hname (hbefore name rfl) h.isFree_behind, fillAll_cons hfill,
        List.length_singleton, ih h.tail hfree (bound + 1)]
      have hnumber : "$" ++ Nat.repr (bound + 1) =
          String.ofList ('$' :: (Nat.repr (bound + 1)).toList) := by
        rw [← String.toList_inj]
        simp
      rw [positional, ← List.cons_append, String.ofList_append, hnumber]
      rfl

/-- A text whose named values are quoted and stand alone: they are numbered in their order, and each
is bound once for every time that it is named. -/
theorem Fits.bind_spelled (h : Fits values template) {sql : String}
    (hsql : sql.toList = spelled template) (hblank : Text.isBlankText sql = false) :
    bind values sql =
      .ok ⟨String.ofList (positional 0 template), template.names.map (valueOf values)⟩ := by
  rw [bind, hblank, segmentsOfText, hsql]
  exact h.fillAll (fun _ _ => rfl) 0

/-! ## Other numbers -/

/-- The text of a template with a number in the place of each slot, one that its name may have. -/
inductive Numbered (numbers : SlotNumbers) : Template → List Char → Prop
  | nil : Numbered numbers [] []
  | char {template : Template} {cs : List Char} (c : Char) :
      Numbered numbers template cs → Numbered numbers (.char c :: template) (c :: cs)
  | slot {template : Template} {cs : List Char} {name : String} {k : Nat} :
      (name, k) ∈ numbers → Numbered numbers template cs →
      Numbered numbers (.slot name :: template) ('$' :: ((Nat.repr k).toList ++ cs))

/-- The numbers in order are numbers of the names in order. -/
theorem numbered_positional {numbers : SlotNumbers} {template : Template} {bound : Nat}
    (h : template.names.zipIdx (bound + 1) ⊆ numbers) :
    Numbered numbers template (positional bound template) := by
  induction template generalizing bound with
  | nil => exact .nil
  | cons atom rest ih =>
    cases atom with
    | char c => exact .char c (ih h)
    | slot name =>
      have hnames : names (.slot name :: rest) = name :: names rest := rfl
      rw [hnames, List.zipIdx_cons, List.cons_subset] at h
      exact .slot h.1 (ih h.2)

end Template

end DescriptorSql.Binding
