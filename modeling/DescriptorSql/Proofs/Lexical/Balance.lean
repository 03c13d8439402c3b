import DescriptorSql.Proofs.Lexical.Item

/-!
# `Proofs/Lexical/Balance.lean` — quotes and parentheses that are closed again

The least that a lexer has to know of a statement: whether it stands in a literal or a quoted name,
and under how many parentheses (`Scan`). Inside quotes nothing but the closing quote counts; a quote
that is written twice closes the text and begins it again. A text is balanced if the lexer ends
outside of quotes and parentheses, and no closing parenthesis comes without an opening one before it
(`IsBalanced`).

The reader of items builds more than that, but it goes along with the lexer character by character.
So every text that has items is balanced (`isBalanced_of_items?`).
-/

set_option autoImplicit false

namespace DescriptorSql.Sql

/-! ## The lexer -/

/-- The quotes that are open, and the number of open parentheses. -/
structure Scan where
  quote : Option Quote := none
  depth : Int := 0
  deriving DecidableEq

namespace Scan

def step (scan : Scan) (c : Char) : Scan :=
  match scan.quote with
  | some quote => if c = quote.mark then { scan with quote := none } else scan
  | none =>
    match Quote.ofMark? c with
    | some quote => { scan with quote := some quote }
    | none =>
      if c = '(' then { scan with depth := scan.depth + 1 }
      else if c = ')' then { scan with depth := scan.depth - 1 }
      else scan

/-- Where the lexer stands behind a text. -/
def after (cs : List Char) : Scan := cs.foldl step {}

end Scan

/-- The text leaves no quote open and closes every parenthesis, none of them before it is opened. -/
structure IsBalanced (text : String) : Prop where
  quote_eq : (Scan.after text.toList).quote = none
  depth_eq : (Scan.after text.toList).depth = 0
  depth_nonneg : ∀ front, front <+: text.toList → 0 ≤ (Scan.after front).depth

/-! ## The reader goes along with the lexer -/

def Pending.quote? : Pending → Option Quote
  | .inside quote _ => some quote
  | _ => none

/-- The lexer stands where the reader stands. -/
structure Scan.Tracks (scan : Scan) (r : Reader) : Prop where
  quote_eq : scan.quote = r.pending.quote?
  depth_eq : scan.depth = r.outer.length

theorem Quote.ofMark?_mark (quote : Quote) : Quote.ofMark? quote.mark = some quote := by
  cases quote <;> rfl

namespace Scan.Tracks

variable {scan : Scan} {r r' : Reader} {c : Char}

/-- Outside of quotes the reader takes one step of the lexer for each character, and both open and
close at the same ones. -/
theorem outside (h : scan.Tracks r) (hopen : r.pending.quote? = none)
    (hstep : r.outside c = some r') :
    (scan.step c).Tracks r' := by
  have hquote : scan.quote = none := h.quote_eq.trans hopen
  unfold Reader.outside at hstep
  rw [Scan.step, hquote]
  dsimp only
  cases hmark : Quote.ofMark? c with
  | some quote =>
    rw [hmark] at hstep
    cases hstep
    exact ⟨rfl, h.depth_eq⟩
  | none =>
    rw [hmark] at hstep
    dsimp only at hstep ⊢
    by_cases hleft : c = '('
    · rw [if_pos hleft] at hstep ⊢
      cases hstep
      exact ⟨rfl, by simp [h.depth_eq, Reader.enter, Reader.settle]⟩
    rw [if_neg hleft] at hstep ⊢
    by_cases hright : c = ')'
    · rw [if_pos hright] at hstep ⊢
      unfold Reader.close at hstep
      split at hstep
      · cases hstep
      · next frame outer houter =>
        cases hstep
        have hdepth : r.outer = frame :: outer := houter
        exact ⟨rfl, by simp [h.depth_eq, hdepth]⟩
    rw [if_neg hright] at hstep ⊢
    -- nothing that is left touches the parentheses or begins quoted text
    split at hstep
    · cases hstep
      exact ⟨hquote, h.depth_eq⟩
    · split at hstep
      · cases hstep
        exact ⟨hquote, h.depth_eq⟩
      · split at hstep
        · cases hstep
          exact ⟨hquote, h.depth_eq⟩
        · cases hstep
          exact ⟨hquote, h.depth_eq⟩

/-- Inside quotes too, where the reader waits for one more character to know whether the quote is
doubled. -/
theorem step (h : scan.Tracks r) (hstep : r.step c = some r') : (scan.step c).Tracks r' := by
  unfold Reader.step at hstep
  split at hstep
  · next quote body hpending =>
    have hquote : scan.quote = some quote := by
      rw [h.quote_eq, hpending]
      rfl
    cases hstep
    rw [Scan.step, hquote]
    dsimp only
    by_cases hmark : c = quote.mark
    · rw [if_pos hmark, if_pos hmark]
      exact ⟨rfl, h.depth_eq⟩
    · rw [if_neg hmark, if_neg hmark]
      exact ⟨hquote, h.depth_eq⟩
  · next quote body hpending =>
    have hopen : r.pending.quote? = none := by
      rw [hpending]
      rfl
    split at hstep
    · next hmark =>
      cases hstep
      rw [Scan.step, h.quote_eq, hopen, hmark, Quote.ofMark?_mark]
      exact ⟨rfl, h.depth_eq⟩
    · exact h.outside hopen hstep
  · next hpending => exact h.outside (hpending ▸ rfl) hstep
  · next cs hpending => exact h.outside (hpending ▸ rfl) hstep

theorem run {cs : List Char} (h : scan.Tracks r) (hrun : r.run cs = some r') :
    (cs.foldl Scan.step scan).Tracks r' := by
  induction cs generalizing scan r with
  | nil =>
    cases hrun
    exact h
  | cons c cs ih =>
    obtain ⟨next, hnext, hrest⟩ := Option.bind_eq_some_iff.mp hrun
    exact ih (h.step hnext) hrest

end Scan.Tracks

/-- A text that has items is balanced. -/
theorem isBalanced_of_items? {text : String} {items : List Item} (h : items? text = some items) :
    IsBalanced text := by
  obtain ⟨r, hrun, hfinish⟩ := Option.bind_eq_some_iff.mp h
  obtain ⟨hopen, houter, -⟩ := Reader.finish_eq_some_iff.mp hfinish
  have hstart : ({} : Scan).Tracks {} := ⟨rfl, rfl⟩
  have htracks : (Scan.after text.toList).Tracks r := hstart.run hrun
  refine ⟨?_, ?_, ?_⟩
  · rw [htracks.quote_eq]
    cases hpending : r.pending with
    | inside quote body =>
      rw [hpending] at hopen
      cases hopen
    | nothing | word | after => rfl
  · rw [htracks.depth_eq, houter]
    rfl
  · rintro front ⟨back, hback⟩
    -- the reader came through the front, so the depth there is a number of frames
    rw [← hback, Reader.run, List.foldlM_append] at hrun
    obtain ⟨middle, hmiddle, -⟩ := Option.bind_eq_some_iff.mp hrun
    rw [Scan.after, (hstart.run hmiddle).depth_eq]
    exact Int.natCast_nonneg _

/-- A parenthesis in a literal is no parenthesis, and a quote that is written twice does not end
it. -/
example : IsBalanced "SELECT f(')''(') AS \"a)\"" := isBalanced_of_items? rfl

end DescriptorSql.Sql
