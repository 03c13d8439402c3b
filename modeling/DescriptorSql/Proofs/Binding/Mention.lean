import DescriptorSql.Binding.Slot
import Mathlib

/-!
# `Proofs/Binding/Mention.lean` — names behind at signs

The binder reads a text as runs. What it is about can be said without runs: a *mention* is a name
with at signs in front of it, where neither the at signs nor the name could be longer
(`Mention.IsLongest`), and a mention is a *parameter* if it has one to three at signs and stands
alone (`Mention.IsParameter`). The main statement is that the runs of a text show all of its
mentions, and nothing else (`mem_mentionsOfRuns_iff`).
-/

set_option autoImplicit false

namespace DescriptorSql.Binding

open CharClass (isWord)

/-! ## Mentions -/

/-- A name behind at signs, with the text before and after it. -/
structure Mention where
  before : List Char
  count : Nat
  name : List Char
  after : List Char

namespace Mention

def text (m : Mention) : List Char :=
  m.before ++ (List.replicate m.count '@' ++ (m.name ++ m.after))

/-- There is an at sign and a name, and neither the at signs nor the name could be longer. -/
structure IsLongest (m : Mention) : Prop where
  count_pos : 0 < m.count
  before_ne : ∀ c ∈ m.before.getLast?, c ≠ '@'
  name_ne : m.name ≠ []
  isWord_name : ∀ c ∈ m.name, isWord c = true
  isWord_after : ∀ c ∈ m.after.head?, isWord c = false

/-- There are one to three at signs, and no neighbour makes the mention a part of something else. -/
structure IsParameter (m : Mention) : Prop where
  count_le : m.count ≤ 3
  isGlue_before : ∀ c ∈ m.before.getLast?, isGlue c = false
  isGlue_after : ∀ c ∈ m.after.head?, isGlue c = false

end Mention

/-! ## Runs -/

namespace Run

/-- The characters of the run are of its class. -/
def IsValid : Run → Prop
  | sigils _ => True
  | word first rest => ∀ c ∈ first :: rest, isWord c = true
  | quote mark => isQuote mark = true
  | other c => c ≠ '@' ∧ isWord c = false ∧ isQuote c = false

/-- The runs would not be one if they stood together. -/
def Apart : Run → Run → Prop
  | sigils _, sigils _ => False
  | word _ _, word _ _ => False
  | _, _ => True

/-- Valid runs, none of which could be longer. -/
structure AreLongest (runs : List Run) : Prop where
  valid : ∀ run ∈ runs, run.IsValid
  apart : runs.IsChain Apart

theorem AreLongest.tail {run : Run} {runs : List Run} (h : AreLongest (run :: runs)) :
    AreLongest runs :=
  ⟨fun other hother => h.valid other (List.mem_cons_of_mem run hother), h.apart.tail⟩

@[simp] theorem isWord_at : isWord '@' = false := by decide +kernel

theorem isWord_of_isQuote {c : Char} (hc : isQuote c = true) : isWord c = false := by
  simp only [isQuote, Bool.or_eq_true, beq_iff_eq] at hc
  rcases hc with rfl | rfl <;> decide +kernel

theorem isGlue_of_isQuote {c : Char} (hc : isQuote c = true) : isGlue c = false := by
  simp only [isQuote, Bool.or_eq_true, beq_iff_eq] at hc
  rcases hc with rfl | rfl <;> decide +kernel

theorem chars_ne_nil (run : Run) : run.chars ≠ [] := by
  cases run <;> simp [chars]

theorem head?_chars (run : Run) : run.chars.head? = some run.head := by
  cases run <;> simp [chars, head, List.replicate_succ]

theorem getLast?_chars (run : Run) : run.chars.getLast? = some run.last := by
  cases run with
  | sigils count => simp [chars, last, List.getLast?_replicate]
  | word first rest => simp [chars, last, List.getLast?_cons]
  | quote mark => simp [chars, last]
  | other c => simp [chars, last]

/-- A character in front of runs is a run of its own, or makes the first run longer. -/
theorem push_cases (c : Char) (runs : List Run) :
    (∃ count rest, runs = sigils count :: rest ∧ c = '@' ∧
        push c runs = sigils (count + 1) :: rest) ∨
      (∃ first more rest, runs = word first more :: rest ∧ isWord c = true ∧
        push c runs = word c (first :: more) :: rest) ∨
      ∃ run : Run, push c runs = run :: runs ∧ push c [] = [run] ∧ run.IsValid ∧
        ∀ next ∈ runs.head?, Apart run next := by
  unfold push
  split
  · next hc =>
    subst hc
    -- a run of at signs takes one more
    split
    · next count rest => exact Or.inl ⟨count, rest, rfl, rfl, rfl⟩
    · next hno =>
      refine Or.inr (Or.inr ⟨sigils 0, rfl, rfl, trivial, ?_⟩)
      intro next hnext
      cases next with
      | sigils count =>
        obtain ⟨rest, rfl⟩ := List.head?_eq_some_iff.mp hnext
        exact (hno count rest rfl).elim
      | _ => trivial
  · next hat =>
    split
    · next hword =>
      split
      · next first more rest => exact Or.inr (Or.inl ⟨first, more, rest, rfl, hword, rfl⟩)
      · next hno =>
        refine Or.inr (Or.inr ⟨word c [], rfl, rfl, by simpa [IsValid] using hword, ?_⟩)
        intro next hnext
        cases next with
        | word first more =>
          obtain ⟨rest, rfl⟩ := List.head?_eq_some_iff.mp hnext
          exact (hno first more rest rfl).elim
        | _ => trivial
    · next hword =>
      split
      · next hquote =>
        exact Or.inr (Or.inr ⟨quote c, rfl, rfl, hquote, fun next _ => by cases next <;> trivial⟩)
      · next hquote =>
        refine Or.inr (Or.inr ⟨other c, rfl, rfl, ⟨hat, ?_, ?_⟩, fun next _ => by
          cases next <;> trivial⟩)
        · exact Bool.eq_false_iff.mpr hword
        · exact Bool.eq_false_iff.mpr hquote

theorem areLongest_push {runs : List Run} (h : AreLongest runs) (c : Char) :
    AreLongest (push c runs) := by
  obtain ⟨hvalid, hapart⟩ := h
  rcases push_cases c runs with ⟨count, rest, rfl, -, hpush⟩ | ⟨first, more, rest, rfl, hc, hpush⟩ |
    ⟨run, hpush, -, hrun, hnext⟩
  · rw [hpush]
    refine ⟨fun run hrun => ?_, ?_⟩
    · rcases List.mem_cons.mp hrun with rfl | hrun
      · trivial
      · exact hvalid run (List.mem_cons_of_mem _ hrun)
    · rw [List.isChain_cons] at hapart ⊢
      refine ⟨fun next hnext => ?_, hapart.2⟩
      have hfirst := hapart.1 next hnext
      cases next <;> exact hfirst
  · rw [hpush]
    refine ⟨fun run hrun => ?_, ?_⟩
    · rcases List.mem_cons.mp hrun with rfl | hrun
      · exact List.forall_mem_cons.mpr ⟨hc, hvalid _ List.mem_cons_self⟩
      · exact hvalid run (List.mem_cons_of_mem _ hrun)
    · rw [List.isChain_cons] at hapart ⊢
      refine ⟨fun next hnext => ?_, hapart.2⟩
      have hfirst := hapart.1 next hnext
      cases next <;> exact hfirst
  · rw [hpush]
    exact ⟨List.forall_mem_cons.mpr ⟨hrun, hvalid⟩, List.isChain_cons.mpr ⟨hnext, hapart⟩⟩

/-- The runs of a text are longest. -/
theorem areLongest_ofChars (cs : List Char) : AreLongest (ofChars cs) := by
  induction cs with
  | nil => exact ⟨by simp [ofChars], List.IsChain.nil⟩
  | cons c rest ih => exact areLongest_push ih c

/-! ### Runs of two texts in a row -/

/-- The characters are of one class whose runs are longer than one character. -/
def joins (c d : Char) : Bool := (c == '@' && d == '@') || (isWord c && isWord d)

theorem push_append (c : Char) {runs : List Run} (hne : runs ≠ []) (more : List Run) :
    push c (runs ++ more) = push c runs ++ more := by
  obtain ⟨run, rest, rfl⟩ := List.exists_cons_of_ne_nil hne
  unfold push
  cases run <;> (repeat' split) <;> simp_all

theorem ofChars_ne_nil {cs : List Char} (hne : cs ≠ []) : ofChars cs ≠ [] := by
  intro hnil
  have hchars := chars_ofChars cs
  rw [hnil] at hchars
  exact hne hchars.symm

/-- The first run of a text is of the class of its first character. -/
theorem push_of_joins_eq_false {c d : Char} (h : joins c d = false) (cs : List Char) :
    push c (ofChars (d :: cs)) = push c [] ++ ofChars (d :: cs) := by
  simp only [joins, Bool.or_eq_false_iff, Bool.and_eq_false_iff, beq_eq_false_iff_ne] at h
  obtain ⟨hat, hword⟩ := h
  rcases push_cases c (ofChars (d :: cs)) with ⟨count, rest, hruns, rfl, -⟩ |
    ⟨first, more, rest, hruns, hc, -⟩ | ⟨run, hpush, hsingle, -, -⟩
  · have hhead := congrArg List.head? (chars_ofChars (d :: cs))
    rw [hruns, List.flatMap_cons] at hhead
    have hd : '@' = d := by simpa [chars, List.replicate_succ] using hhead
    rcases hat with hat | hat
    · exact absurd rfl hat
    · exact absurd hd.symm hat
  · have hhead := congrArg List.head? (chars_ofChars (d :: cs))
    have hvalid := (areLongest_ofChars (d :: cs)).valid (word first more) (by simp [hruns])
    rw [hruns, List.flatMap_cons] at hhead
    have hd : first = d := by simpa [chars] using hhead
    have hword' : isWord d = true := hd ▸ hvalid first List.mem_cons_self
    rcases hword with hword | hword
    · simp [hword] at hc
    · simp [hword] at hword'
  · rw [hpush, hsingle]
    rfl

/-- The runs of two texts in a row are the runs of the one and then those of the other, if no run
goes on across the seam. -/
theorem ofChars_append {as bs : List Char}
    (h : ∀ c ∈ as.getLast?, ∀ d ∈ bs.head?, joins c d = false) :
    ofChars (as ++ bs) = ofChars as ++ ofChars bs := by
  induction as with
  | nil => rfl
  | cons c as ih =>
    rw [List.cons_append, ofChars, ofChars]
    cases as with
    | nil =>
      cases bs with
      | nil => simp [ofChars]
      | cons d bs => exact push_of_joins_eq_false (h c rfl d rfl) bs
    | cons e as =>
      rw [ih fun c hc => h c (by rwa [List.getLast?_cons_cons])]
      exact push_append c (ofChars_ne_nil (List.cons_ne_nil e as)) _

theorem ofChars_sigils (count : Nat) :
    ofChars (List.replicate (count + 1) '@') = [sigils count] := by
  induction count with
  | zero => rfl
  | succ count ih => rw [List.replicate_succ, ofChars, ih]; rfl

theorem ofChars_word {first : Char} {rest : List Char} (h : ∀ c ∈ first :: rest, isWord c = true) :
    ofChars (first :: rest) = [word first rest] := by
  have hne : ∀ {c : Char}, isWord c = true → c ≠ '@' := by
    rintro c hc rfl
    simp at hc
  induction rest generalizing first with
  | nil =>
    have hfirst := h first List.mem_cons_self
    simp [ofChars, push, hfirst, hne hfirst]
  | cons second rest ih =>
    have hfirst := h first List.mem_cons_self
    rw [ofChars, ih fun c hc => h c (List.mem_cons_of_mem _ hc)]
    simp [push, hfirst, hne hfirst]

end Run

/-! ## The mentions that runs show -/

/-- The mentions in runs; `front` is the text before the runs. -/
def mentionsOfRuns (front : List Char) : List Run → List Mention
  | .sigils count :: .word first name :: rest =>
    ⟨front, count + 1, first :: name, rest.flatMap Run.chars⟩ ::
      mentionsOfRuns (front ++ (List.replicate (count + 1) '@' ++ first :: name)) rest
  | run :: rest => mentionsOfRuns (front ++ run.chars) rest
  | [] => []

/-- A run that is no at signs in front of a name shows no mention. -/
theorem mentionsOfRuns_cons {run : Run} {rest : List Run}
    (h : ∀ count, run = .sigils count → ∀ first name, rest.head? ≠ some (.word first name))
    (front : List Char) :
    mentionsOfRuns front (run :: rest) = mentionsOfRuns (front ++ run.chars) rest := by
  cases run with
  | sigils count =>
    cases rest with
    | nil => rfl
    | cons next rest =>
      cases next with
      | word first name => exact absurd rfl (h count rfl first name)
      | _ => rfl
  | _ => rfl

theorem isWord_head_eq_false {run : Run} {runs : List Run} {first : Char} {name : List Char}
    (h : Run.AreLongest (.word first name :: runs)) (hrun : runs.head? = some run) :
    isWord run.head = false := by
  obtain ⟨rest, rfl⟩ := List.head?_eq_some_iff.mp hrun
  have hvalid := h.valid run (by simp)
  have hapart : Run.Apart (.word first name) run := (List.isChain_cons.mp h.apart).1 run rfl
  cases run with
  | sigils count => exact Run.isWord_at
  | word first' name' => exact hapart.elim
  | quote mark => exact Run.isWord_of_isQuote hvalid
  | other c => exact hvalid.2.1

/-- The first character that runs spell is that of the first run. -/
theorem head?_flatMap_chars (runs : List Run) :
    (runs.flatMap Run.chars).head? = firstChar? runs := by
  cases runs with
  | nil => rfl
  | cons run rest =>
    rw [List.flatMap_cons, List.head?_append, Run.head?_chars]
    rfl

/-- The runs show longest mentions of the text they spell. -/
theorem longest_of_mem_mentionsOfRuns {runs : List Run} (hruns : Run.AreLongest runs)
    {front : List Char}
    (hfront : ∀ count, runs.head? = some (.sigils count) → ∀ c ∈ front.getLast?, c ≠ '@')
    {m : Mention} (hm : m ∈ mentionsOfRuns front runs) :
    m.text = front ++ runs.flatMap Run.chars ∧ m.IsLongest := by
  induction front, runs using mentionsOfRuns.induct with
  | case1 front count first name rest ih =>
    rw [mentionsOfRuns, List.mem_cons] at hm
    rcases hm with rfl | hm
    · refine ⟨by simp [Mention.text, Run.chars], ⟨Nat.succ_pos count, hfront count rfl, by simp,
        hruns.valid (.word first name) (by simp), ?_⟩⟩
      intro c hc
      rw [head?_flatMap_chars, Option.mem_def, firstChar?, Option.map_eq_some_iff] at hc
      obtain ⟨run, hrun, rfl⟩ := hc
      exact isWord_head_eq_false hruns.tail hrun
    · have hword := hruns.valid (.word first name) (by simp)
      have hrest := ih hruns.tail.tail ?_ hm
      · obtain ⟨htext, hlongest⟩ := hrest
        exact ⟨by rw [htext]; simp [Run.chars], hlongest⟩
      · -- what stands before the rest ends with the name
        intro _ _ c hc
        have hmem : c ∈ first :: name := by
          rw [List.getLast?_append, List.getLast?_append, Option.mem_def,
            List.getLast?_eq_some_getLast (List.cons_ne_nil first name)] at hc
          simp only [Option.some_or, Option.some.injEq] at hc
          exact hc ▸ List.getLast_mem _
        rintro rfl
        simpa using hword '@' hmem
  | case2 front run rest hno ih =>
    rw [mentionsOfRuns_cons ?_ front] at hm
    · have hrest := ih hruns.tail ?_ hm
      · obtain ⟨htext, hlongest⟩ := hrest
        exact ⟨by rw [htext]; simp, hlongest⟩
      · intro count hcount c hc
        rw [List.getLast?_append, Run.getLast?_chars] at hc
        simp only [Option.some_or, Option.mem_def, Option.some.injEq] at hc
        subst hc
        have hvalid := hruns.valid run List.mem_cons_self
        have hapart : Run.Apart run (.sigils count) :=
          (List.isChain_cons.mp hruns.apart).1 _ hcount
        cases run with
        | sigils count' => exact hapart.elim
        | word first name =>
          intro hlast
          have hmem : (Run.word first name).last ∈ first :: name :=
            List.mem_of_getLast? (Run.getLast?_chars (.word first name))
          simpa [hlast] using hvalid _ hmem
        | quote mark =>
          rintro rfl
          simp [Run.IsValid, isQuote] at hvalid
        | other c => exact hvalid.1
    · rintro count rfl first name hnext
      obtain ⟨rest', rfl⟩ := List.head?_eq_some_iff.mp hnext
      exact hno count first name rest' rfl rfl
  | case3 front => simp [mentionsOfRuns] at hm

/-- A name behind at signs is shown wherever it stands among runs. -/
theorem mem_mentionsOfRuns (count : Nat) (first : Char) (name : List Char) (after before : List Run)
    (front : List Char) :
    ⟨front ++ before.flatMap Run.chars, count + 1, first :: name, after.flatMap Run.chars⟩ ∈
      mentionsOfRuns front (before ++ .sigils count :: .word first name :: after) := by
  rcases before with _ | ⟨run, before⟩
  · simp [mentionsOfRuns]
  by_cases hrun : ∃ other first' name' rest, run = .sigils other ∧
    before = .word first' name' :: rest
  · -- another mention stands in front
    obtain ⟨other, first', name', before, rfl, rfl⟩ := hrun
    have ih := mem_mentionsOfRuns count first name after before
      (front ++ (List.replicate (other + 1) '@' ++ first' :: name'))
    simp only [List.cons_append, mentionsOfRuns]
    refine List.mem_cons_of_mem _ ?_
    simpa [Run.chars] using ih
  · have ih := mem_mentionsOfRuns count first name after before (front ++ run.chars)
    rw [List.cons_append, mentionsOfRuns_cons]
    · simpa using ih
    · rintro other rfl first' name' hhead
      rcases before with _ | ⟨next, before⟩
      · simp at hhead
      · exact hrun ⟨other, first', name', before, rfl, by simpa using hhead⟩
termination_by before.length

/-- The runs of a text, with those of a longest mention in it. -/
theorem Mention.IsLongest.ofChars_text {before after rest : List Char} {count : Nat} {first : Char}
    (h : Mention.IsLongest ⟨before, count + 1, first :: rest, after⟩) :
    Run.ofChars (Mention.text ⟨before, count + 1, first :: rest, after⟩) =
      Run.ofChars before ++ .sigils count :: .word first rest :: Run.ofChars after := by
  obtain ⟨-, hbefore, -, hname, hafter⟩ := h
  rw [Mention.text, Run.ofChars_append, Run.ofChars_append, Run.ofChars_append,
    Run.ofChars_sigils, Run.ofChars_word hname]
  · rfl
  · intro c hc d hd
    have hword : isWord c = true := hname c (List.mem_of_getLast? hc)
    have hat : c ≠ '@' := by
      rintro rfl
      simp at hword
    simp [Run.joins, hat, hafter d hd]
  · intro c hc d hd
    rw [List.getLast?_replicate, if_neg (Nat.succ_ne_zero count), Option.mem_some] at hc
    subst hc
    rw [List.cons_append, List.head?_cons, Option.mem_some] at hd
    have hword : isWord d = true := hname d (hd ▸ List.mem_cons_self)
    have hat : d ≠ '@' := by
      rintro rfl
      simp at hword
    simp [Run.joins, hat]
  · intro c hc d hd
    rw [List.replicate_succ, List.cons_append, List.head?_cons, Option.mem_some] at hd
    subst hd
    simp [Run.joins, hbefore c hc]

/-- The runs of a text show exactly its longest mentions. -/
theorem mem_mentionsOfRuns_iff {cs : List Char} {m : Mention} :
    m ∈ mentionsOfRuns [] (Run.ofChars cs) ↔ m.text = cs ∧ m.IsLongest := by
  constructor
  · intro hm
    have hlongest := longest_of_mem_mentionsOfRuns (Run.areLongest_ofChars cs) (by simp) hm
    rwa [List.nil_append, Run.chars_ofChars] at hlongest
  · rintro ⟨rfl, hlongest⟩
    obtain ⟨before, count, name, after⟩ := m
    obtain ⟨count, rfl⟩ := Nat.exists_eq_succ_of_ne_zero (Nat.ne_of_gt hlongest.count_pos)
    obtain ⟨first, rest, rfl⟩ := List.exists_cons_of_ne_nil hlongest.name_ne
    have hmem := mem_mentionsOfRuns count first rest (Run.ofChars after) (Run.ofChars before) []
    rw [Run.chars_ofChars, Run.chars_ofChars, List.nil_append] at hmem
    rwa [hlongest.ofChars_text]

end DescriptorSql.Binding
