import DescriptorSql.Proofs.Lexical.Word
import DescriptorSql.Sql.Identifier

/-!
# `Proofs/Lexical/Name.lean` — names in a statement

A name in a statement is either a dotted path of quoted pieces, or a text that is written as it is.
Both are made of quoted names, blanks and words that are no keywords (`nominal_identifier`), so a
name never begins a clause, connects conditions or opens a parenthesis, whatever characters it
holds. The names this is said of are the *plain* ones: neither marked as SQL, nor an expression in
parentheses, nor with a `${` in them.
-/

set_option autoImplicit false

namespace DescriptorSql.Sql

/-! ## Plain names -/

/-- `${` stands somewhere in the text. -/
def opensBrace : List Char → Bool
  | '$' :: '\x7b' :: _ => true
  | _ :: rest => opensBrace rest
  | [] => false

/-- The name is not marked as SQL, and neither a parenthesis nor `${` is in it. -/
def isPlainName (name : String) : Bool :=
  (stripRaw? name).isNone && !name.toList.contains '(' && !name.toList.contains ')' &&
    !opensBrace name.toList

/-! ## Blanks around a text -/

/-- A text is what is left of it without the blanks at its end, and these blanks. -/
theorem exists_trailingBlanks (cs : List Char) :
    ∃ back : List Char, (∀ c ∈ back, Text.isBlank c = true) ∧
      cs = Text.dropTrailingBlanks cs ++ back := by
  refine ⟨(cs.reverse.takeWhile Text.isBlank).reverse, ?_, ?_⟩
  · intro c hc
    exact List.mem_takeWhile_imp (List.mem_reverse.mp hc)
  · rw [Text.dropTrailingBlanks, ← List.reverse_append, List.takeWhile_append_dropWhile,
      List.reverse_reverse]

theorem exists_outerBlanks (cs : List Char) :
    ∃ front back : List Char, (∀ c ∈ front, Text.isBlank c = true) ∧
      (∀ c ∈ back, Text.isBlank c = true) ∧ cs = front ++ Text.dropOuterBlanks cs ++ back := by
  obtain ⟨back, hback, hsplit⟩ := exists_trailingBlanks (cs.dropWhile Text.isBlank)
  refine ⟨cs.takeWhile Text.isBlank, back, fun c hc => List.mem_takeWhile_imp hc, hback, ?_⟩
  rw [List.append_assoc, Text.dropOuterBlanks, ← hsplit, List.takeWhile_append_dropWhile]

/-- Every blank is an item of its own. -/
theorem ofChars?_blanks {cs : List Char} (h : ∀ c ∈ cs, Text.isBlank c = true) :
    Item.ofChars? cs = some (cs.map .blank) := by
  induction cs with
  | nil => rfl
  | cons c cs ih =>
    have hc := h c List.mem_cons_self
    have hrest := ih fun d hd => h d (List.mem_cons_of_mem c hd)
    refine ofChars?_append (ofChars?_blank hc) hrest (Or.inr ?_)
    simpa [endsApart] using isSeparator_of_isBlank hc

theorem isNominal_blank (c : Char) : (Item.blank c).isNominal = true := by
  simp [Item.isNominal, Item.isOneOf, Item.isKeyword]

/-- Blanks around a word add blank items, which stand for themselves as well. -/
theorem nominal_of_dropOuterBlanks {cs : List Char} (hne : Text.dropOuterBlanks cs ≠ [])
    (hparts : ∀ c ∈ Text.dropOuterBlanks cs, isWordPart c = true)
    (hnominal : (Item.word (Text.dropOuterBlanks cs)).isNominal = true) :
    ∃ items, Item.ofChars? cs = some items ∧ ∀ item ∈ items, item.isNominal = true := by
  obtain ⟨front, back, hfront, hback, hsplit⟩ := exists_outerBlanks cs
  have hword := ofChars?_word hne hparts
  have hends : endsApart front = true := by
    cases hlast : front.getLast? with
    | none => simp [endsApart, hlast]
    | some c => simp [endsApart, hlast,
        isSeparator_of_isBlank (hfront c (List.mem_of_getLast? hlast))]
  have hstarts : startsApart back = true := by
    cases back with
    | nil => rfl
    | cons c back => simpa [startsApart] using isSeparator_of_isBlank (hback c List.mem_cons_self)
  have hitems := ofChars?_append (ofChars?_append (ofChars?_blanks hfront) hword (Or.inr hends))
    (ofChars?_blanks hback) (Or.inl hstarts)
  rw [← hsplit] at hitems
  refine ⟨_, hitems, ?_⟩
  intro item hitem
  simp only [List.mem_append, List.mem_map, List.mem_singleton] at hitem
  rcases hitem with (⟨c, -, rfl⟩ | rfl) | ⟨c, -, rfl⟩
  · exact isNominal_blank c
  · exact hnominal
  · exact isNominal_blank c

/-! ## Numbers as names -/

/-- A sign is of a number too. -/
theorem isNumberPart_of_splitSign {cs : List Char}
    (h : ∀ c ∈ (Decimal.splitSign cs).2, isNumberPart c = true) :
    ∀ c ∈ cs, isNumberPart c = true := by
  have hsigns : isNumberPart '-' = true ∧ isNumberPart '+' = true := by decide
  unfold Decimal.splitSign at h
  split at h
  · exact List.forall_mem_cons.mpr ⟨hsigns.1, h⟩
  · exact List.forall_mem_cons.mpr ⟨hsigns.2, h⟩
  · exact h

/-- An exponent is digits behind its mark and its sign. -/
theorem isNumberPart_of_exponentOfChars? {cs : List Char} {e : Int}
    (h : Decimal.exponentOfChars? cs = some e) : ∀ c ∈ cs, isNumberPart c = true := by
  unfold Decimal.exponentOfChars? at h
  split at h
  · simp
  · next mark rest =>
    dsimp only at h
    split at h
    · next hexponent =>
      simp only [Bool.and_eq_true, Bool.or_eq_true, beq_iff_eq, List.all_eq_true] at hexponent
      obtain ⟨⟨hmark, -⟩, hdigits⟩ := hexponent
      refine List.forall_mem_cons.mpr ⟨?_, isNumberPart_of_splitSign fun c hc =>
        isNumberPart_of_isDigit (hdigits c hc)⟩
      rcases hmark with rfl | rfl <;> decide
    · cases h

/-- Digits, a point, digits and an exponent, with at least one digit. -/
theorem parts_of_decimal {whole point fraction tail : List Char} {e : Int}
    (hwhole : ∀ c ∈ whole, Decimal.isDigit c = true) (hpoint : ∀ c ∈ point, c = '.')
    (hfraction : ∀ c ∈ fraction, Decimal.isDigit c = true)
    (hne : (whole.isEmpty && fraction.isEmpty) = false)
    (htail : Decimal.exponentOfChars? tail = some e) :
    (∀ c ∈ whole ++ (point ++ fraction ++ tail), isNumberPart c = true) ∧
      ∃ c ∈ whole ++ (point ++ fraction ++ tail), Decimal.isDigit c = true := by
  constructor
  · intro c hc
    simp only [List.mem_append] at hc
    rcases hc with hc | (hc | hc) | hc
    · exact isNumberPart_of_isDigit (hwhole c hc)
    · rw [hpoint c hc]
      decide
    · exact isNumberPart_of_isDigit (hfraction c hc)
    · exact isNumberPart_of_exponentOfChars? htail c hc
  · cases whole with
    | cons c rest => exact ⟨c, by simp, hwhole c List.mem_cons_self⟩
    | nil =>
      cases fraction with
      | cons c rest => exact ⟨c, by simp, hfraction c List.mem_cons_self⟩
      | nil => simp at hne

/-- What is read as a decimal number is one word with a digit in it. -/
theorem isPlainWord_of_decimal {cs : List Char} {d : Decimal} (h : Decimal.ofChars? cs = some d) :
    IsPlainWord cs := by
  have hsplit : (Decimal.splitSign cs).2 <:+ cs := by
    unfold Decimal.splitSign
    split
    · exact List.suffix_cons ..
    · exact List.suffix_cons ..
    · exact List.suffix_rfl
  suffices hunsigned : (∀ c ∈ (Decimal.splitSign cs).2, isNumberPart c = true) ∧
      ∃ c ∈ (Decimal.splitSign cs).2, Decimal.isDigit c = true by
    obtain ⟨hparts, c, hc, hdigit⟩ := hunsigned
    exact IsNumberWord.isPlainWord ⟨isNumberPart_of_splitSign hparts, c, hsplit.subset hc,
      isAlpha_eq_false_of_isDigit hdigit⟩
  unfold Decimal.ofChars? at h
  dsimp only at h
  generalize (Decimal.splitSign cs).2 = unsigned at h ⊢
  have htake : ∀ cs : List Char, ∀ c ∈ cs.takeWhile Decimal.isDigit, Decimal.isDigit c = true :=
    fun cs c hc => List.mem_takeWhile_imp hc
  rw [← List.takeWhile_append_dropWhile (p := Decimal.isDigit) (l := unsigned)]
  split at h
  · next rest hafter =>
    dsimp only at h
    split at h
    · cases h
    · next hne =>
      obtain ⟨e, htail, -⟩ := Option.map_eq_some_iff.mp h
      have hparts := parts_of_decimal (htake unsigned) (show ∀ c ∈ ['.'], c = '.' by simp)
        (htake rest) (Bool.eq_false_iff.mpr hne) htail
      rw [List.append_assoc, List.takeWhile_append_dropWhile] at hparts
      rw [hafter]
      exact hparts
  · -- no point, so what is behind the digits is the exponent
    dsimp only at h
    split at h
    · cases h
    · next hne =>
      obtain ⟨e, htail, -⟩ := Option.map_eq_some_iff.mp h
      exact parts_of_decimal (htake unsigned) (show ∀ c ∈ [], c = '.' by simp) (htake [])
        (Bool.eq_false_iff.mpr hne) htail

/-- Digits of any radix are letters and digits. -/
theorem isAlphanum_of_radixDigit? {radix value : Nat} {c : Char}
    (h : radixDigit? radix c = some value) : c.isAlphanum = true := by
  simp only [Char.isAlphanum, Char.isAlpha, Char.isUpper, Char.isLower, Char.isDigit,
    Bool.or_eq_true, Bool.and_eq_true, decide_eq_true_eq]
  unfold radixDigit? at h
  dsimp only at h
  split at h
  · next hdigit => exact Or.inr (by simpa [Char.le_def] using hdigit)
  split at h
  · next hlower => exact Or.inl (Or.inr (by simpa [Char.le_def] using hlower))
  split at h
  · next hupper => exact Or.inl (Or.inl (by simpa [Char.le_def] using hupper))
  · simp at h

theorem isAlphanum_of_radixDigits {radix : Nat} {digits : List Char} {values : List Nat}
    (h : digits.mapM (radixDigit? radix) = some values) : ∀ c ∈ digits, c.isAlphanum = true := by
  induction digits generalizing values with
  | nil => simp
  | cons d digits ih =>
    rw [List.mapM_cons] at h
    obtain ⟨value, hvalue, h⟩ := Option.bind_eq_some_iff.mp h
    obtain ⟨others, hothers, -⟩ := Option.bind_eq_some_iff.mp h
    exact List.forall_mem_cons.mpr ⟨isAlphanum_of_radixDigit? hvalue, ih hothers⟩

/-- A number in a radix is one word as well, its prefix included. -/
theorem isWordPart_of_isWordInRadix {radix : Nat} {cs : List Char}
    (h : isWordInRadix radix cs = true) : ∀ c ∈ cs, isWordPart c = true := by
  have hdigits : ∀ {ds : List Char} {values : List Nat}, ds.mapM (radixDigit? radix) = some values →
      ∀ c ∈ ds, isWordPart c = true :=
    fun hmap c hc => isWordPart_of_isAlphanum (isAlphanum_of_radixDigits hmap c hc)
  unfold isWordInRadix at h
  dsimp only at h
  split at h
  · cases h
  · next values hmap =>
    cases cs with
    | nil => simp
    | cons c rest =>
      split at hmap
      · next hplus =>
        have hc : c = '+' := by simpa using hplus
        exact List.forall_mem_cons.mpr ⟨hc ▸ by decide, hdigits hmap⟩
      · exact hdigits hmap

/-- A text that is taken for a number is one word, no keyword, with blanks around it. -/
theorem nominal_of_isNumeric {cs : List Char} (h : isNumeric cs = true) :
    ∃ items, Item.ofChars? cs = some items ∧ ∀ item ∈ items, item.isNominal = true := by
  have hradix : ∀ {mark : Char} {digits : List Char} {radix : Nat}, isWordPart mark = true →
      Text.dropOuterBlanks cs = '0' :: mark :: digits → isWordInRadix radix digits = true →
      ∃ items, Item.ofChars? cs = some items ∧ ∀ item ∈ items, item.isNominal = true := by
    intro mark digits radix hmark hcore hdigits
    refine nominal_of_dropOuterBlanks (by simp [hcore]) ?_ ?_
    · rw [hcore]
      exact List.forall_mem_cons.mpr ⟨by decide,
        List.forall_mem_cons.mpr ⟨hmark, isWordPart_of_isWordInRadix hdigits⟩⟩
    · rw [hcore]
      exact isNominal_word ⟨'0', List.mem_cons_self, by decide⟩
  unfold isNumeric at h
  split at h
  · next digits hcore => exact hradix (by decide) hcore h
  · next digits hcore => exact hradix (by decide) hcore h
  · next digits hcore => exact hradix (by decide) hcore h
  · next digits hcore => exact hradix (by decide) hcore h
  · next digits hcore => exact hradix (by decide) hcore h
  · next digits hcore => exact hradix (by decide) hcore h
  · -- no radix mark, so the text is a number or an infinity by name
    simp only [Bool.or_eq_true, decide_eq_true_eq] at h
    have hname : ∀ name : List Char, Text.dropOuterBlanks cs = name → name ≠ [] →
        (∀ c ∈ name, isWordPart c = true) → (Item.word name).isNominal = true →
        ∃ items, Item.ofChars? cs = some items ∧ ∀ item ∈ items, item.isNominal = true := by
      rintro name rfl hne hparts hnominal
      exact nominal_of_dropOuterBlanks hne hparts hnominal
    rcases h with ((h | h) | h) | h
    · exact hname _ h (by decide) (List.all_eq_true.mp (by decide)) (by decide)
    · exact hname _ h (by decide) (List.all_eq_true.mp (by decide)) (by decide)
    · exact hname _ h (by decide) (List.all_eq_true.mp (by decide)) (by decide)
    · obtain ⟨x, hx⟩ := Option.isSome_iff_exists.mp h
      obtain ⟨d, hd, -⟩ := Option.bind_eq_some_iff.mp hx
      have hplain := isPlainWord_of_decimal hd
      obtain ⟨c, hc, -⟩ := hplain.mark
      exact hname _ rfl (List.ne_nil_of_mem hc) hplain.parts hplain.isNominal

/-! ## Placeholders -/

/-- So a plain name is not a `${…}`. -/
theorem opensBrace_of_isBracePlaceholder {cs : List Char} (h : isBracePlaceholder cs = true) :
    opensBrace cs = true := by
  unfold isBracePlaceholder at h
  split at h
  · rfl
  · cases h

/-- A placeholder without a brace is one word, and no keyword. -/
theorem isPlainWord_of_isPlaceholder {cs : List Char} (h : isPlaceholder cs = true)
    (hbrace : isBracePlaceholder cs = false) : IsPlainWord cs := by
  simp only [isPlaceholder, hbrace, Bool.or_false, Bool.or_eq_true] at h
  rcases h with (h | h) | h
  · simp only [isQuestionPlaceholder, Bool.or_eq_true, decide_eq_true_eq] at h
    rcases h with rfl | rfl
    · exact .ofParts (by decide)
    · exact .ofParts (by decide)
  · unfold isColonPlaceholder at h
    split at h
    · next rest =>
      simp only [Bool.and_eq_true, Bool.or_eq_true, decide_eq_true_eq] at h
      refine ⟨List.forall_mem_cons.mpr ⟨by decide, ?_⟩, ':', List.mem_cons_self, by decide⟩
      rw [← List.takeWhile_append_dropWhile (p := CharClass.isWord) (l := rest)]
      intro c hc
      rcases List.mem_append.mp hc with hc | hc
      · exact isWordPart_of_isWord (List.mem_takeWhile_imp hc)
      · have hcolon : c = ':' := by
          rcases h.2 with (h | h) | h <;> simp [h] at hc <;> exact hc
        rw [hcolon]
        decide
    · cases h
  · unfold isDollarPlaceholder at h
    split at h
    · next name =>
      simp only [Bool.and_eq_true, List.all_eq_true] at h
      exact ⟨List.forall_mem_cons.mpr ⟨by decide, fun c hc => isWordPart_of_isWord (h.2 c hc)⟩,
        '$', List.mem_cons_self, by decide⟩
    · cases h

/-! ## Quoted paths -/

/-- The reader is somewhere in a dotted path: what it has read is quoted names and dots. -/
structure Reader.InPath (r : Reader) : Prop where
  outer : r.outer = []
  nominal : ∀ item ∈ r.items ++ r.pending.items, item.isNominal = true
  marked : ∀ cs, r.pending = .word cs → ∃ c ∈ cs, c.isAlpha = false
  ended : r.pending.isOpen = false

namespace Reader.InPath

variable {r : Reader}

/-- A pending word that has a character besides letters is nothing but a word. -/
theorem ofWord {items : List Item} (hitems : ∀ item ∈ items, item.isNominal = true)
    {cs : List Char} (hmark : ∃ c ∈ cs, c.isAlpha = false) : InPath ⟨.word cs, items, []⟩ where
  outer := rfl
  nominal := by
    intro item hitem
    rcases List.mem_append.mp hitem with hitem | hitem
    · exact hitems item hitem
    · rw [List.mem_singleton.mp hitem]
      exact isNominal_word hmark
  marked := by
    rintro _ ⟨⟩
    exact hmark
  ended := rfl

/-- A dot or a star is put to the word that is pending, or begins one. -/
theorem mark {c : Char} (h : r.InPath) (hc : c = '.' ∨ c = '*') :
    ∃ next cs, r.step c = some next ∧ next.InPath ∧ next.pending = .word cs := by
  have hquote : Quote.ofMark? c = none := by rcases hc with rfl | rfl <;> rfl
  have hplain : c ≠ '(' ∧ c ≠ ')' ∧ c ≠ ',' ∧ Text.isBlank c = false ∧ c ≠ '\x22' ∧ c ≠ '\'' ∧
      c.isAlpha = false := by
    rcases hc with rfl | rfl <;> decide
  obtain ⟨hopen, hclose, hcomma, hblank, hname, hliteral, halpha⟩ := hplain
  obtain ⟨houter, hnominal, hmarked, hended⟩ := h
  have hmark : ∀ quote : Quote, c ≠ quote.mark := by
    intro quote
    cases quote
    · exact hliteral
    · exact hname
  have hbegin : InPath (r.settle.hold (.word [c])) := by
    rw [hold, settle, houter]
    exact ofWord hnominal ⟨c, List.mem_cons_self, halpha⟩
  cases hp : r.pending with
  | nothing =>
    refine ⟨r.settle.hold (.word [c]), [c], ?_, hbegin, rfl⟩
    simp [step, outside, hp, hquote, hopen, hclose, hcomma, hblank]
  | word cs =>
    refine ⟨r.hold (.word (cs ++ [c])), cs ++ [c], ?_, ?_, rfl⟩
    · simp [step, outside, hp, hquote, hopen, hclose, hcomma, hblank]
    · rw [hold, houter]
      exact ofWord (fun item hitem => hnominal item (List.mem_append_left _ hitem))
        ⟨c, by simp, halpha⟩
  | inside quote body => simp [hp, Pending.isOpen] at hended
  | after quote body =>
    refine ⟨r.settle.hold (.word [c]), [c], ?_, hbegin, rfl⟩
    simp [step, outside, hp, hquote, hopen, hclose, hcomma, hblank, hmark quote]

/-- A quoted piece, unless the reader stands right behind another one. -/
theorem enclosed (h : r.InPath) (hpending : ∀ quote body, r.pending ≠ .after quote body)
    (piece : List Char) :
    ∃ next, r.run (Text.enclose '\x22' piece) = some next ∧ next.InPath := by
  obtain ⟨houter, hnominal, hmarked, hended⟩ := h
  have hopening : r.step '\x22' = some (r.settle.hold (.inside .name [])) := by
    cases hp : r.pending with
    | inside quote body => simp [hp, Pending.isOpen] at hended
    | after quote body => exact absurd hp (hpending quote body)
    | nothing | word cs => simp [step, outside, hp, Quote.ofMark?]
  -- the doubled quotes inside the piece take it up again, so only its last quote ends it
  refine ⟨⟨.after .name (Text.double '\x22' piece), r.settle.items, r.outer⟩, ?_,
    ⟨houter, ?_, by simp, rfl⟩⟩
  · have hinside := run_inside .name piece [] r.settle.items r.outer
    rw [run, Text.enclose, List.cons_append, List.foldlM_cons, hopening]
    exact hinside
  · intro item hitem
    rcases List.mem_append.mp hitem with hitem | hitem
    · exact hnominal item hitem
    · rw [List.mem_singleton.mp hitem]
      rfl

/-- Behind a dot or at the start, a quoted piece is read as one name. -/
theorem piece (h : r.InPath) (hpending : ∀ quote body, r.pending ≠ .after quote body)
    (piece : List Char) : ∃ next, r.run (quotePiece piece) = some next ∧ next.InPath := by
  unfold quotePiece
  split
  · next hstar =>
    obtain ⟨next, cs, hstep, hnext, -⟩ := h.mark (Or.inr rfl)
    exact ⟨next, by simpa [hstar, run] using hstep, hnext⟩
  · exact h.enclosed hpending piece

/-- Between the pieces of a path there is a dot each, so no two quotes meet. -/
theorem path (h : r.InPath) (hpending : ∀ quote body, r.pending ≠ .after quote body)
    (first : List Char) (rest : List (List Char)) :
    ∃ next, r.run (['.'].intercalate ((first :: rest).map quotePiece)) = some next ∧
      next.InPath := by
  induction rest generalizing r first with
  | nil => simpa using h.piece hpending first
  | cons second rest ih =>
    obtain ⟨behind, hfirst, hbehind⟩ := h.piece hpending first
    obtain ⟨dot, cs, hstep, hdot, hword⟩ := hbehind.mark (Or.inl rfl)
    obtain ⟨next, hrest, hnext⟩ := ih hdot (by simp [hword]) second
    refine ⟨next, ?_, hnext⟩
    rw [List.map_cons, List.map_cons, List.intercalate_cons_cons, List.append_assoc, run_append,
      hfirst, Option.bind_some, run_append, ← List.map_cons]
    rw [show run behind ['.'] = some dot by simpa [run] using hstep, Option.bind_some]
    exact hrest

end Reader.InPath

/-- Whatever is quoted as a path is names and dots. -/
theorem nominal_quotePath (cs : List Char) :
    ∃ items, Item.ofChars? (quotePath cs) = some items ∧ ∀ item ∈ items, item.isNominal = true := by
  have hstart : Reader.InPath {} := ⟨rfl, by simp [Pending.items], by simp, rfl⟩
  obtain ⟨first, rest, hpieces⟩ := List.exists_cons_of_ne_nil (Text.splitAt_ne_nil '.' cs)
  obtain ⟨r, hrun, houter, hnominal, -, hended⟩ := hstart.path (by simp) first rest
  refine ⟨r.settle.items, ?_, hnominal⟩
  rw [← hpieces] at hrun
  exact ofChars?_eq_some_iff.mpr ⟨r, hrun, hended, by rw [Reader.settle, houter]⟩

/-! ## Names -/

/-- A plain name is made of quoted names, blanks and words that are no keywords. -/
theorem nominal_identifier {name : String} (h : isPlainName name = true) :
    ∃ items, items? (identifier name) = some items ∧ ∀ item ∈ items, item.isNominal = true := by
  simp only [isPlainName, Bool.and_eq_true, Bool.not_eq_true', Option.isNone_iff_eq_none] at h
  obtain ⟨⟨⟨hraw, hopen⟩, hclose⟩, hbrace⟩ := h
  rw [identifier, hraw]
  dsimp only
  split
  · next hverbatim =>
    simp only [isVerbatimIdentifier, hopen, hclose, Bool.or_false, Bool.or_eq_true,
      decide_eq_true_eq, List.all_eq_true] at hverbatim
    rw [items?]
    rcases hverbatim with ((hblank | hstar) | hnumeric) | hplaceholder
    · refine ⟨_, ofChars?_blanks hblank, fun item hitem => ?_⟩
      obtain ⟨c, -, rfl⟩ := List.mem_map.mp hitem
      exact isNominal_blank c
    · rw [hstar]
      exact ⟨[.word ['*']], rfl, by decide⟩
    · exact nominal_of_isNumeric hnumeric
    · have hplain := isPlainWord_of_isPlaceholder hplaceholder (Bool.eq_false_iff.mpr fun h =>
        absurd (opensBrace_of_isBracePlaceholder h) (by simp [hbrace]))
      exact ⟨_, hplain.ofChars?, by simpa using hplain.isNominal⟩
  · rw [items?, String.toList_ofList]
    exact nominal_quotePath name.toList

/-- Nothing in a plain name can end or connect anything. -/
theorem alike_identifier {name : String} (h : isPlainName name = true) :
    Alike .inert (identifier name) (identifier name) := by
  obtain ⟨items, hitems, hnominal⟩ := nominal_identifier h
  exact .ofItems hitems (Grade.allows_of_isNominal hnominal)

/-! ## Qualified names -/

/-- The dot between a table and its column opens no brace. -/
theorem opensBrace_qualified (as bs : List Char) :
    opensBrace (as ++ '.' :: bs) = (opensBrace as || opensBrace bs) := by
  fun_induction opensBrace as with
  | case1 rest => rfl
  | case2 c rest hne ih =>
    cases rest with
    | nil => simp [opensBrace]
    | cons d rest => simp_all [opensBrace]
  | case3 => simp [opensBrace]

/-- A table that is not raw is not raw with a column behind it. -/
theorem stripRaw?_qualified {table : String} (h : stripRaw? table = none) (field : String) :
    stripRaw? (table ++ "." ++ field) = none := by
  rw [← Option.not_isSome_iff_eq_none, Option.isSome_iff_exists]
  rintro ⟨sql, hsql⟩
  rw [stripRaw?_eq_some_iff, ← String.toList_inj] at hsql
  simp only [String.toList_append, raw, String.toList_ofList, List.append_assoc] at hsql
  have htable : ∃ rest, table.toList = rawMarker ++ rest := by
    rcases List.append_eq_append_iff.mp hsql with ⟨as, hmarker, has⟩ | ⟨bs, htable, -⟩
    · -- the marker would reach over the dot, and there is no dot in it
      cases as with
      | nil => exact ⟨[], by rw [hmarker]; simp⟩
      | cons c as =>
        have hc : c = '.' := by simpa using (congrArg List.head? has).symm
        have hmem : c ∈ rawMarker := hmarker ▸ by simp
        rw [hc] at hmem
        exact absurd hmem (by decide)
    · exact ⟨bs, htable⟩
  obtain ⟨rest, hrest⟩ := htable
  have hraw : table = raw (String.ofList rest) := by
    rw [← String.toList_inj, raw, String.toList_ofList, String.toList_ofList, hrest]
  rw [hraw, stripRaw?_raw] at h
  cases h

/-- A plain column of a plain table is a plain name. -/
theorem isPlainName_qualified {table field : String} (htable : isPlainName table = true)
    (hfield : isPlainName field = true) : isPlainName (table ++ "." ++ field) = true := by
  simp only [isPlainName, Bool.and_eq_true, Bool.not_eq_true', Option.isNone_iff_eq_none] at *
  obtain ⟨⟨⟨hraw, hopen⟩, hclose⟩, hbrace⟩ := htable
  obtain ⟨⟨⟨-, hopen'⟩, hclose'⟩, hbrace'⟩ := hfield
  have hdot : (table ++ "." ++ field).toList = table.toList ++ '.' :: field.toList := by simp
  refine ⟨⟨⟨stripRaw?_qualified hraw field, ?_⟩, ?_⟩, ?_⟩
  · rw [hdot]
    simpa using ⟨by simpa using hopen, by simpa using hopen'⟩
  · rw [hdot]
    simpa using ⟨by simpa using hclose, by simpa using hclose'⟩
  · rw [hdot, opensBrace_qualified, hbrace, hbrace']
    rfl

/-- Both sides of the equation are names, and the equals sign connects no conditions. -/
theorem alike_equate {table field otherTable otherField : String}
    (htable : isPlainName table = true) (hfield : isPlainName field = true)
    (hotherTable : isPlainName otherTable = true) (hotherField : isPlainName otherField = true) :
    Alike .inert (equate table field otherTable otherField)
      (equate table field otherTable otherField) :=
  (alike_identifier (isPlainName_qualified htable hfield)).glue
    (alike_identifier (isPlainName_qualified hotherTable hotherField)) (Grade.separates_equals _)

end DescriptorSql.Sql
