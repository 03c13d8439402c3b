import DescriptorSql.Proofs.Lexical.Item
import DescriptorSql.Text.Quoted

/-!
# `Proofs/Lexical/Concat.lean` — reading texts that are put together

A statement is put together from pieces, and the pieces are read one by one: the items of `as ++ bs`
are the items of `as` and then those of `bs`, as long as nothing runs together where they meet
(`ofChars?_append`). A separator on either side of the seam is enough for that. A piece in
parentheses becomes one item (`ofChars?_parenthesized`).

Both rest on one fact about the reader: what it does with a piece does not depend on what stands
before the piece (`Reader.run_within`).
-/

set_option autoImplicit false

namespace DescriptorSql.Sql

theorem ne_mark {c : Char} (hc : isSeparator c = true) (quote : Quote) : c ≠ quote.mark := by
  rintro rfl
  cases quote <;> exact absurd hc (by decide)

theorem ofMark?_eq_none {c : Char} (hc : isSeparator c = true) : Quote.ofMark? c = none := by
  cases h : Quote.ofMark? c with
  | none => rfl
  | some quote => exact absurd (Quote.eq_mark_of_ofMark? h) (ne_mark hc quote)

theorem isSeparator_of_isBlank {c : Char} (hc : Text.isBlank c = true) : isSeparator c = true := by
  simp [isSeparator, hc]

namespace Reader

/-! ## A reader inside another text -/

/-- Items and open frames, with `base` before everything and the frames `outer` around it. -/
def surround (base : List Item) (outer : List (List Item)) :
    List Item → List (List Item) → List Item × List (List Item)
  | items, [] => (base ++ items, outer)
  | items, frame :: frames =>
    (items, (surround base outer frame frames).1 :: (surround base outer frame frames).2)

theorem surround_append (base : List Item) (outer : List (List Item)) (items more : List Item)
    (frames : List (List Item)) :
    surround base outer (items ++ more) frames =
      ((surround base outer items frames).1 ++ more, (surround base outer items frames).2) := by
  cases frames <;> simp [surround]

/-- A reader that has read the same, after `base` and inside the parentheses `outer`. -/
def within (base : List Item) (outer : List (List Item)) (r : Reader) : Reader :=
  ⟨r.pending, (surround base outer r.items r.outer).1, (surround base outer r.items r.outer).2⟩

variable {base : List Item} {outer : List (List Item)} {r r' : Reader}

/-- Whatever is pending becomes an item in the same place. -/
theorem settle_within : (r.within base outer).settle = r.settle.within base outer := by
  simp [settle, within, surround_append]

theorem add_within (item : Item) :
    (r.within base outer).add item = (r.add item).within base outer := by
  simp [add, within, surround_append]

/-- A closing parenthesis ends a frame of the piece itself, as long as the piece has opened one. -/
theorem close_within (h : outer = [] ∨ r.close.isSome) :
    (r.within base outer).close = r.close.map (within base outer) := by
  cases hframes : r.outer with
  | nil =>
    have hnone : r.close = none := by simp [close, hframes]
    rcases h with h | h
    · simp [close, within, hframes, h, surround]
    · simp [hnone] at h
  | cons frame frames => simp [close, within, hframes, surround, surround_append]

/-- Only a closing parenthesis can fail in the piece and succeed around it. -/
theorem outside_within {c : Char} (h : outer = [] ∨ (r.outside c).isSome) :
    (r.within base outer).outside c = (r.outside c).map (within base outer) := by
  unfold outside at h ⊢
  rw [settle_within]
  split
  · rfl
  split
  · rfl
  split
  · next hquote hopen hclose =>
    simp only [hquote, if_neg hopen, if_pos hclose] at h
    rw [close_within h]
  split
  · rw [add_within]; rfl
  split
  · rw [add_within]; rfl
  · -- a word goes on or begins, which depends on what is pending and on nothing else
    have hpending : (r.within base outer).pending = r.pending := rfl
    rw [hpending]
    cases r.pending <;> rfl

/-- What a reader does with a character does not depend on what was read before, but for a closing
parenthesis that would close one from before. -/
theorem step_within {c : Char} (h : outer = [] ∨ (r.step c).isSome) :
    (r.within base outer).step c = (r.step c).map (within base outer) := by
  have hpending : (r.within base outer).pending = r.pending := rfl
  unfold step at h ⊢
  rw [hpending]
  cases hp : r.pending <;> simp only [hp] at h ⊢
  case nothing | word => exact outside_within h
  case inside => rfl
  case after =>
    split
    · rfl
    · next hc => exact outside_within (by simpa [hc] using h)

/-- A piece in front of which something was read is read as if it were the first. -/
theorem run_after (cs : List Char) :
    (r.within base []).run cs = (r.run cs).map (within base []) := by
  induction cs generalizing r with
  | nil => rfl
  | cons c cs ih =>
    simp only [run, List.foldlM_cons, step_within (Or.inl rfl)]
    cases r.step c with
    | none => rfl
    | some next => exact ih

/-- And so is one inside parentheses that are still open. -/
theorem run_within {cs : List Char} (h : r.run cs = some r') :
    (r.within base outer).run cs = some (r'.within base outer) := by
  induction cs generalizing r with
  | nil => cases h; rfl
  | cons c cs ih =>
    obtain ⟨next, hnext, hrest⟩ := Option.bind_eq_some_iff.mp h
    have hstep : (r.within base outer).step c = some (next.within base outer) := by
      rw [step_within (Or.inr (by simp [hnext])), hnext]
      rfl
    simp only [run, List.foldlM_cons, hstep]
    exact ih hrest

/-! ## Seams -/

theorem run_append (as bs : List Char) : r.run (as ++ bs) = (r.run as).bind (·.run bs) :=
  List.foldlM_append

/-- No quote takes up its text again at a separator. -/
theorem step_eq_outside {c : Char} (hopen : r.pending.isOpen = false) (hc : isSeparator c = true) :
    r.step c = r.outside c := by
  unfold step
  split
  · next hp => simp [hp, Pending.isOpen] at hopen
  · rw [if_neg (ne_mark hc _)]
  · rfl
  · rfl

/-- A separator settles what is pending, so settling first changes nothing. -/
theorem step_settle {c : Char} (hopen : r.pending.isOpen = false) (hc : isSeparator c = true) :
    r.settle.step c = r.step c := by
  have hsettle : r.settle.settle = r.settle := by simp [settle, Pending.items]
  rw [step_eq_outside hopen hc, step_eq_outside rfl hc]
  unfold outside
  rw [ofMark?_eq_none hc, hsettle]
  simp only
  split
  · rfl
  split
  · rfl
  split
  · rfl
  split
  · rfl
  · -- the only branch that looks at what is pending, and no separator gets there
    simp_all [isSeparator]

theorem run_settle {cs : List Char} (hopen : r.pending.isOpen = false) (hne : cs ≠ [])
    (hsep : ∀ c ∈ cs.head?, isSeparator c = true) : r.settle.run cs = r.run cs := by
  cases cs with
  | nil => exact absurd rfl hne
  | cons c cs =>
    simp only [run, List.foldlM_cons, step_settle hopen (hsep c rfl)]

theorem pending_of_outside {c : Char} (hc : isSeparator c = true) (h : r.outside c = some r') :
    r'.pending = .nothing := by
  unfold outside at h
  rw [ofMark?_eq_none hc] at h
  simp only at h
  split at h
  · cases h; rfl
  split at h
  · unfold close at h
    split at h
    · cases h
    · cases h; rfl
  split at h
  · cases h; rfl
  split at h
  · cases h; rfl
  · simp_all [isSeparator]

/-- After a separator nothing is pending, unless it stands in quotes. -/
theorem settle_of_step {c : Char} (hc : isSeparator c = true) (h : r.step c = some r')
    (hopen : r'.pending.isOpen = false) : r'.settle = r' := by
  have hbefore : r.pending.isOpen = false := by
    cases hp : r.pending with
    | inside quote body =>
      -- the quote would still be open behind the separator
      rw [step, hp] at h
      cases h
      simp [hold, ne_mark hc _, Pending.isOpen] at hopen
    | _ => rfl
  rw [step_eq_outside hbefore hc] at h
  have hp := pending_of_outside hc h
  obtain ⟨pending, items, outer⟩ := r'
  cases hp
  simp [settle, Pending.items]

/-- Behind a text that ends with a separator nothing is pending. -/
theorem settle_of_run {cs : List Char} (hsep : ∃ c ∈ cs.getLast?, isSeparator c = true)
    (h : r.run cs = some r') (hopen : r'.pending.isOpen = false) : r'.settle = r' := by
  obtain ⟨c, hc, hsep⟩ := hsep
  rw [Option.mem_def, List.getLast?_eq_some_iff] at hc
  obtain ⟨front, rfl⟩ := hc
  rw [run_append] at h
  obtain ⟨mid, -, hlast⟩ := Option.bind_eq_some_iff.mp h
  have hstep : mid.step c = some r' := by simpa [run] using hlast
  exact settle_of_step hsep hstep hopen

end Reader

/-! ## Items of composed texts -/

/-- The text starts with a separator, or is empty. -/
def startsApart (cs : List Char) : Bool := cs.head?.all isSeparator

/-- The text ends with a separator, or is empty. -/
def endsApart (cs : List Char) : Bool := cs.getLast?.all isSeparator

/-- A text has these items if its reader ends outside of quotes and parentheses with them. -/
theorem ofChars?_eq_some_iff {cs : List Char} {items : List Item} :
    Item.ofChars? cs = some items ↔
      ∃ r : Reader, Reader.run {} cs = some r ∧ r.pending.isOpen = false ∧
        r.settle = ⟨.nothing, items, []⟩ := by
  constructor
  · intro h
    obtain ⟨r, hrun, hfinish⟩ := Option.bind_eq_some_iff.mp h
    obtain ⟨hopen, houter, hitems⟩ := Reader.finish_eq_some_iff.mp hfinish
    exact ⟨r, hrun, hopen, by rw [Reader.settle, hitems, houter]⟩
  · rintro ⟨r, hrun, hopen, hsettle⟩
    refine Option.bind_eq_some_iff.mpr ⟨r, hrun, Reader.finish_eq_some_iff.mpr ⟨hopen, ?_, ?_⟩⟩
    · exact congrArg Reader.outer hsettle
    · exact congrArg Reader.items hsettle

/-- A text that is read on its own is read the same after other items and inside parentheses. -/
theorem run_of_ofChars? {cs : List Char} {items : List Item} (h : Item.ofChars? cs = some items)
    (base : List Item) (outer : List (List Item)) :
    ∃ r : Reader, Reader.run ⟨.nothing, base, outer⟩ cs = some r ∧ r.pending.isOpen = false ∧
      r.settle = ⟨.nothing, base ++ items, outer⟩ := by
  obtain ⟨r, hrun, hopen, hsettle⟩ := ofChars?_eq_some_iff.mp h
  have hstart : (⟨.nothing, base, outer⟩ : Reader) = Reader.within base outer {} := by
    simp [Reader.within, Reader.surround]
  refine ⟨r.within base outer, by rw [hstart]; exact Reader.run_within hrun, hopen, ?_⟩
  rw [Reader.settle_within, hsettle]
  rfl

/-- What is pending at a seam is complete there, whichever side the separator is on. -/
theorem run_settle_of_seam {as bs : List Char} {r : Reader} (hrun : Reader.run {} as = some r)
    (hopen : r.pending.isOpen = false) (hne : bs ≠ [])
    (hseam : startsApart bs = true ∨ endsApart as = true) : r.settle.run bs = r.run bs := by
  rcases hseam with hseam | hseam
  · apply Reader.run_settle hopen hne
    intro c hc
    rw [Option.mem_def] at hc
    simpa [startsApart, hc] using hseam
  · cases hlast : as.getLast? with
    | none =>
      rw [List.getLast?_eq_none_iff] at hlast
      subst hlast
      cases hrun
      rfl
    | some c =>
      rw [endsApart, hlast] at hseam
      rw [Reader.settle_of_run ⟨c, hlast, by simpa using hseam⟩ hrun hopen]

/-- The items of two texts in a row are the items of the one and then those of the other, if a
separator stands at the seam. -/
theorem ofChars?_append {as bs : List Char} {a b : List Item} (ha : Item.ofChars? as = some a)
    (hb : Item.ofChars? bs = some b) (hseam : startsApart bs = true ∨ endsApart as = true) :
    Item.ofChars? (as ++ bs) = some (a ++ b) := by
  by_cases hnil : bs = []
  · subst hnil
    rw [(ofChars?_eq_nil_iff hb).mpr rfl, List.append_nil, List.append_nil, ha]
  obtain ⟨r, hrun, hopen, hsettle⟩ := ofChars?_eq_some_iff.mp ha
  obtain ⟨s, hrest, hsopen, hs⟩ := run_of_ofChars? hb a []
  refine ofChars?_eq_some_iff.mpr ⟨s, ?_, hsopen, hs⟩
  rw [Reader.run_append, hrun, Option.bind_some,
    ← run_settle_of_seam hrun hopen hnil hseam, hsettle]
  exact hrest

/-- When the first of two texts in a row is read on its own, so is the second. -/
theorem exists_of_ofChars?_append {as bs : List Char} {a items : List Item}
    (ha : Item.ofChars? as = some a) (hseam : startsApart bs = true ∨ endsApart as = true)
    (h : Item.ofChars? (as ++ bs) = some items) :
    ∃ b, Item.ofChars? bs = some b ∧ items = a ++ b := by
  by_cases hnil : bs = []
  · subst hnil
    rw [List.append_nil, ha] at h
    cases h
    exact ⟨[], rfl, (List.append_nil a).symm⟩
  obtain ⟨r, hrun, hopen, hsettle⟩ := ofChars?_eq_some_iff.mp ha
  obtain ⟨final, hfinal, hfopen, hfsettle⟩ := ofChars?_eq_some_iff.mp h
  have hstart : (⟨.nothing, a, []⟩ : Reader) = Reader.within a [] {} := by
    simp [Reader.within, Reader.surround]
  rw [Reader.run_append, hrun, Option.bind_some, ← run_settle_of_seam hrun hopen hnil hseam,
    hsettle, hstart,
    Reader.run_after] at hfinal
  obtain ⟨s, hs, rfl⟩ := Option.map_eq_some_iff.mp hfinal
  rw [Reader.settle_within] at hfsettle
  have houter : s.outer = [] := by
    cases hframes : s.outer with
    | nil => rfl
    | cons frame frames =>
      have := congrArg Reader.outer hfsettle
      simp [Reader.settle, Reader.within, Reader.surround, hframes] at this
  refine ⟨s.settle.items, ofChars?_eq_some_iff.mpr ⟨s, hs, hfopen, by simp [Reader.settle, houter]⟩,
    ?_⟩
  have hitems := congrArg Reader.items hfsettle
  simpa [Reader.settle, Reader.within, Reader.surround, houter] using hitems.symm

/-- In parentheses a text is one item, whatever its items are. -/
theorem ofChars?_parenthesized {cs : List Char} {items : List Item}
    (h : Item.ofChars? cs = some items) :
    Item.ofChars? ('(' :: cs ++ [')']) = some [.group items] := by
  obtain ⟨r, hrun, hopen, hsettle⟩ := run_of_ofChars? h [] [[]]
  refine ofChars?_eq_some_iff.mpr ⟨⟨.nothing, [.group items], []⟩, ?_, rfl, rfl⟩
  have hopening : Reader.run {} ['('] = some ⟨.nothing, [], [[]]⟩ := rfl
  have hclosing : r.run [')'] = some ⟨.nothing, [.group items], []⟩ := by
    rw [← Reader.run_settle hopen (by simp) (by simp [isSeparator]), hsettle]
    simp [Reader.run, Reader.step, Reader.outside, Quote.ofMark?, Reader.settle, Reader.close,
      Pending.items]
  rw [show '(' :: cs ++ [')'] = ['('] ++ (cs ++ [')']) from rfl, Reader.run_append, hopening,
    Option.bind_some, Reader.run_append, hrun, Option.bind_some, hclosing]

@[simp] theorem ofChars?_nil : Item.ofChars? [] = some [] := rfl

/-- A run of word characters is a word. -/
theorem ofChars?_word {cs : List Char} (hne : cs ≠ []) (h : ∀ c ∈ cs, isWordPart c = true) :
    Item.ofChars? cs = some [.word cs] := by
  have hstep : ∀ {r : Reader} {c : Char} {ds : List Char}, isWordPart c = true →
      (r.pending = .word ds ∨ r.pending = .nothing ∧ ds = []) →
      r.step c = some (r.hold (.word (ds ++ [c]))) := by
    intro r c ds hc hp
    obtain ⟨hsep, hquote⟩ : isSeparator c = false ∧ Quote.ofMark? c = none := by
      simpa [isWordPart] using hc
    simp only [isSeparator, Bool.or_eq_false_iff, decide_eq_false_iff_not] at hsep
    obtain ⟨⟨⟨hopen, hclose⟩, hcomma⟩, hblank⟩ := hsep
    rcases hp with hp | ⟨hp, rfl⟩ <;>
      simp [Reader.step, Reader.outside, hp, hquote, hopen, hclose, hcomma, hblank,
        Reader.settle, Reader.hold, Pending.items]
  have hrun : ∀ (cs ds : List Char), (∀ c ∈ cs, isWordPart c = true) →
      Reader.run ⟨.word ds, [], []⟩ cs = some ⟨.word (ds ++ cs), [], []⟩ := by
    intro cs
    induction cs with
    | nil => intro ds _; simp [Reader.run]
    | cons c cs ih =>
      intro ds hall
      rw [Reader.run, List.foldlM_cons, hstep (hall c List.mem_cons_self) (Or.inl rfl)]
      show Reader.run ⟨.word (ds ++ [c]), [], []⟩ cs = _
      rw [ih (ds ++ [c]) fun d hd => hall d (List.mem_cons_of_mem c hd)]
      simp
  cases cs with
  | nil => exact absurd rfl hne
  | cons c cs =>
    refine ofChars?_eq_some_iff.mpr ⟨⟨.word (c :: cs), [], []⟩, ?_, rfl, rfl⟩
    rw [Reader.run, List.foldlM_cons, hstep (h c List.mem_cons_self) (Or.inr ⟨rfl, rfl⟩)]
    exact hrun cs [c] fun d hd => h d (List.mem_cons_of_mem c hd)

/-! ## Quoted text -/

namespace Reader

/-- Inside quotes the reader goes on to the next quote that is not doubled. -/
theorem run_inside (quote : Quote) (s body : List Char) (items : List Item)
    (outer : List (List Item)) :
    run ⟨.inside quote body, items, outer⟩ (Text.double quote.mark s ++ [quote.mark]) =
      some ⟨.after quote (body ++ Text.double quote.mark s), items, outer⟩ := by
  induction s generalizing body with
  | nil => simp [run, step, hold]
  | cons c s ih =>
    rw [Text.double_cons, List.append_assoc, run_append]
    by_cases hc : c = quote.mark
    · have hquote : run ⟨.inside quote body, items, outer⟩ [c, c] =
          some ⟨.inside quote (body ++ [c, c]), items, outer⟩ := by simp [run, step, hold, hc]
      rw [if_pos hc, hquote, Option.bind_some, ih, List.append_assoc]
    · have hplain : run ⟨.inside quote body, items, outer⟩ [c] =
          some ⟨.inside quote (body ++ [c]), items, outer⟩ := by simp [run, step, hold, hc]
      rw [if_neg hc, hplain, Option.bind_some, ih, List.append_assoc]

end Reader

/-- Text between two quotes, its own quotes doubled, is one item. -/
theorem ofChars?_enclose (quote : Quote) (s : List Char) :
    Item.ofChars? (Text.enclose quote.mark s) =
      some [.quoted quote (Text.double quote.mark s)] := by
  have hopening : Reader.run {} [quote.mark] = some ⟨.inside quote [], [], []⟩ := by
    cases quote <;> rfl
  refine ofChars?_eq_some_iff.mpr ⟨⟨.after quote (Text.double quote.mark s), [], []⟩, ?_, rfl, rfl⟩
  rw [Text.enclose, show quote.mark :: Text.double quote.mark s ++ [quote.mark] =
    [quote.mark] ++ (Text.double quote.mark s ++ [quote.mark]) from rfl,
    Reader.run_append, hopening,
    Option.bind_some, Reader.run_inside, List.nil_append]

/-! ## Blanks at the ends -/

/-- The item is a blank. -/
def Item.isBlank : Item → Bool
  | .blank c => Text.isBlank c
  | _ => false

/-- The items without the blanks at the end. -/
def dropTrailingBlanks (items : List Item) : List Item :=
  (items.reverse.dropWhile Item.isBlank).reverse

/-- The items without the blanks at both ends. -/
def dropOuterBlanks (items : List Item) : List Item :=
  dropTrailingBlanks (items.dropWhile Item.isBlank)

theorem dropWhile_append_cons {α : Type} {p : α → Bool} {a : α} (ha : p a = false)
    (front rest : List α) :
    (front ++ a :: rest).dropWhile p = front.dropWhile p ++ a :: rest := by
  rw [List.dropWhile_append, List.dropWhile_cons_of_neg (by simp [ha])]
  split
  · next h => rw [List.isEmpty_iff.mp h, List.nil_append]
  · rfl

theorem reverse_dropWhile_append_cons {α : Type} {p : α → Bool} {a : α} (ha : p a = false)
    (front rest : List α) :
    ((front ++ a :: rest).reverse.dropWhile p).reverse =
      front ++ a :: (rest.reverse.dropWhile p).reverse := by
  have hreverse : (front ++ a :: rest).reverse = rest.reverse ++ a :: front.reverse := by simp
  rw [hreverse, dropWhile_append_cons ha]
  simp

/-- A blank is an item of its own, and ends what stands before it. -/
theorem step_blank {r : Reader} {c : Char} (hc : Text.isBlank c = true)
    (hopen : r.pending.isOpen = false) : r.step c = some (r.settle.add (.blank c)) := by
  have hsep := isSeparator_of_isBlank hc
  have hne : c ≠ '(' ∧ c ≠ ')' ∧ c ≠ ',' := by
    refine ⟨?_, ?_, ?_⟩ <;> (rintro rfl; exact absurd hc (by decide))
  rw [Reader.step_eq_outside hopen hsep]
  simp [Reader.outside, ofMark?_eq_none hsep, hne, hc]

theorem ofChars?_blank {c : Char} (hc : Text.isBlank c = true) :
    Item.ofChars? [c] = some [.blank c] := by
  refine ofChars?_eq_some_iff.mpr ⟨⟨.nothing, [.blank c], []⟩, ?_, rfl, rfl⟩
  rw [Reader.run, List.foldlM_cons, step_blank hc rfl]
  rfl

/-- A blank in front of a text is an item of its own. -/
theorem exists_of_ofChars?_blank_cons {c : Char} {cs : List Char} {items : List Item}
    (hc : Text.isBlank c = true) (h : Item.ofChars? (c :: cs) = some items) :
    ∃ rest, Item.ofChars? cs = some rest ∧ items = .blank c :: rest := by
  have hends : endsApart [c] = true := by simpa [endsApart] using isSeparator_of_isBlank hc
  exact exists_of_ofChars?_append (ofChars?_blank hc) (Or.inr hends) h

/-- A blank at the end of a text is an item of its own. -/
theorem exists_of_ofChars?_append_blank {c : Char} {cs : List Char} {items : List Item}
    (hc : Text.isBlank c = true) (h : Item.ofChars? (cs ++ [c]) = some items) :
    ∃ front, Item.ofChars? cs = some front ∧ items = front ++ [.blank c] := by
  obtain ⟨r, hrun, hopen, hsettle⟩ := ofChars?_eq_some_iff.mp h
  rw [Reader.run_append] at hrun
  obtain ⟨s, hs, hlast⟩ := Option.bind_eq_some_iff.mp hrun
  have hstep : s.step c = some r := by simpa [Reader.run] using hlast
  have hsopen : s.pending.isOpen = false := by
    cases hp : s.pending with
    | inside quote body =>
      -- the blank would be one more character of the quoted text
      rw [Reader.step, hp] at hstep
      simp only [if_neg (ne_mark (isSeparator_of_isBlank hc) quote)] at hstep
      cases hstep
      exact absurd hopen (by simp [Reader.hold, Pending.isOpen])
    | _ => rfl
  rw [step_blank hc hsopen] at hstep
  cases hstep
  refine ⟨s.settle.items, ofChars?_eq_some_iff.mpr ⟨s, hs, hsopen, ?_⟩, ?_⟩
  · have houter : s.outer = [] := congrArg Reader.outer hsettle
    simp [Reader.settle, houter]
  · have hitems := congrArg Reader.items hsettle
    simpa [Reader.settle, Reader.add, Pending.items] using hitems.symm

theorem isBlank_head_eq_false {c : Char} {cs : List Char} {item : Item} {rest : List Item}
    (hc : Text.isBlank c = false) (h : textOf (item :: rest) = c :: cs) : item.isBlank = false := by
  cases item with
  | blank d =>
    have hd : d = c := by simpa [textOf, Item.text] using congrArg List.head? h
    rw [Item.isBlank, hd, hc]
  | _ => rfl

theorem isBlank_last_eq_false {c : Char} {cs : List Char} {item : Item} {front : List Item}
    (hc : Text.isBlank c = false) (h : textOf (front ++ [item]) = cs ++ [c]) :
    item.isBlank = false := by
  cases item with
  | blank d =>
    have hd : d = c := by
      simpa [textOf_append, Item.text] using congrArg List.getLast? h
    rw [Item.isBlank, hd, hc]
  | _ => rfl

/-- The blank characters at the start of a text are its blank items there, so both can be dropped at
once. -/
theorem ofChars?_dropWhile {cs : List Char} {items : List Item}
    (h : Item.ofChars? cs = some items) :
    Item.ofChars? (cs.dropWhile Text.isBlank) = some (items.dropWhile Item.isBlank) := by
  induction cs generalizing items with
  | nil => cases h; rfl
  | cons c cs ih =>
    cases hc : Text.isBlank c with
    | true =>
      obtain ⟨rest, hrest, rfl⟩ := exists_of_ofChars?_blank_cons hc h
      rw [List.dropWhile_cons_of_pos hc, List.dropWhile_cons_of_pos (by exact hc), ih hrest]
    | false =>
      cases items with
      | nil => exact absurd ((ofChars?_eq_nil_iff h).mp rfl) (by simp)
      | cons item rest =>
        have hitem := isBlank_head_eq_false hc (textOf_ofChars? h)
        rw [List.dropWhile_cons_of_neg (by simp [hc]),
          List.dropWhile_cons_of_neg (by simp [hitem]), h]

/-- The same at the end, where the reader has to settle before the blanks. -/
theorem ofChars?_dropTrailingBlanks {cs : List Char} {items : List Item}
    (h : Item.ofChars? cs = some items) :
    Item.ofChars? (Text.dropTrailingBlanks cs) = some (dropTrailingBlanks items) := by
  induction cs using List.reverseRecOn generalizing items with
  | nil => cases h; rfl
  | append_singleton cs c ih =>
    cases hc : Text.isBlank c with
    | true =>
      obtain ⟨front, hfront, rfl⟩ := exists_of_ofChars?_append_blank hc h
      have hcs : Text.dropTrailingBlanks (cs ++ [c]) = Text.dropTrailingBlanks cs := by
        simp [Text.dropTrailingBlanks, hc]
      have hitems : dropTrailingBlanks (front ++ [.blank c]) = dropTrailingBlanks front := by
        simp [dropTrailingBlanks, Item.isBlank, hc]
      rw [hcs, hitems, ih hfront]
    | false =>
      rcases List.eq_nil_or_concat items with rfl | ⟨front, item, rfl⟩
      · exact absurd ((ofChars?_eq_nil_iff h).mp rfl) (by simp)
      · rw [List.concat_eq_append] at h ⊢
        have hitem := isBlank_last_eq_false hc (textOf_ofChars? h)
        have hcs : Text.dropTrailingBlanks (cs ++ [c]) = cs ++ [c] := by
          simp [Text.dropTrailingBlanks, hc]
        have hitems : dropTrailingBlanks (front ++ [item]) = front ++ [item] := by
          simp [dropTrailingBlanks, hitem]
        rw [hcs, hitems, h]

theorem ofChars?_dropOuterBlanks {cs : List Char} {items : List Item}
    (h : Item.ofChars? cs = some items) :
    Item.ofChars? (Text.dropOuterBlanks cs) = some (dropOuterBlanks items) :=
  ofChars?_dropTrailingBlanks (ofChars?_dropWhile h)

/-- A trimmed text has the items of the text without the blanks around them. -/
theorem items?_trim {text : String} {items : List Item} (h : items? text = some items) :
    items? (Text.trim text) = some (dropOuterBlanks items) := by
  rw [items?, Text.toList_trim]
  exact ofChars?_dropOuterBlanks h

end DescriptorSql.Sql
