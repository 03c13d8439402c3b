import DescriptorSql.Proofs.Lexical.Grade
import DescriptorSql.Number.Shortest
import DescriptorSql.Sql.Literal

/-!
# `Proofs/Lexical/Word.lean` — words that are no keywords

Numbers and placeholders stand in a statement without quotes. Each is one word, and none is a
keyword, because a keyword has letters only and each of these has a digit, a point or a mark in it
(`IsPlainWord`). The one exception is `Infinity`, which is no keyword either.
-/

set_option autoImplicit false

namespace DescriptorSql.Sql

/-! ## Word characters -/

def blankPoints : List Nat :=
  [0x09, 0x0A, 0x0B, 0x0C, 0x0D, 0x20, 0x85, 0xA0, 0x1680, 0x2000, 0x2001, 0x2002, 0x2003, 0x2004,
    0x2005, 0x2006, 0x2007, 0x2008, 0x2009, 0x200A, 0x2028, 0x2029, 0x202F, 0x205F, 0x3000]

theorem mem_blankPoints {c : Char} (hc : Text.isBlank c = true) : c.toNat ∈ blankPoints := by
  simp only [Text.isBlank, Bool.or_eq_true, Bool.and_eq_true, decide_eq_true_eq, beq_iff_eq] at hc
  simp only [blankPoints, List.mem_cons, List.not_mem_nil, or_false]
  omega

/-- The characters that are no part of a word: the blanks, parentheses, the comma, the two
quotes. -/
def markPoints : List Nat := blankPoints ++ [0x28, 0x29, 0x2C, 0x27, 0x22]

/-- What breaks words is a short list, so a character outside of it is part of a word. -/
theorem isWordPart_of_not_mem {c : Char} (h : c.toNat ∉ markPoints) : isWordPart c = true := by
  have hblank : Text.isBlank c = false := by
    rw [Bool.eq_false_iff]
    exact fun hc => h (List.mem_append_left _ (mem_blankPoints hc))
  have hne : ∀ d : Char, d.toNat ∈ markPoints → c ≠ d := by
    rintro d hd rfl
    exact h hd
  have hopen := hne '(' (by decide)
  have hclose := hne ')' (by decide)
  have hcomma := hne ',' (by decide)
  have hquote := hne '\'' (by decide)
  have hname := hne '\x22' (by decide)
  simp [isWordPart, isSeparator, Quote.ofMark?, hopen, hclose, hcomma, hquote, hname, hblank]

/-- The two classes exclude each other. -/
theorem isBlank_eq_false_of_isWordPart {c : Char} (hc : isWordPart c = true) :
    Text.isBlank c = false := by
  by_contra hblank
  rw [isWordPart, isSeparator_of_isBlank (Bool.eq_true_of_not_eq_false hblank)] at hc
  cases hc

/-- The word characters of names are parts of words. -/
theorem isWordPart_of_isWord {c : Char} (hc : CharClass.isWord c = true) : isWordPart c = true := by
  -- the classes are large and the marks are few, so the marks are looked up in the classes
  have hpoints : ∀ n ∈ markPoints,
      (CharClass.alphabetic.contains n || CharClass.decimalNumber.contains n ||
        CharClass.connectorPunctuation.contains n || CharClass.mark.contains n ||
        CharClass.joinControl.contains n) = false := by decide +kernel
  apply isWordPart_of_not_mem
  intro hmem
  rw [CharClass.isWord, hpoints _ hmem] at hc
  cases hc

theorem isWordPart_of_isAlphanum {c : Char} (hc : c.isAlphanum = true) : isWordPart c = true := by
  have hpoints : ∀ n ∈ markPoints, ¬ ((65 ≤ n ∧ n ≤ 90 ∨ 97 ≤ n ∧ n ≤ 122) ∨ 48 ≤ n ∧ n ≤ 57) := by
    decide
  refine isWordPart_of_not_mem fun hmem => hpoints _ hmem ?_
  simpa [Char.isAlphanum, Char.isAlpha, Char.isUpper, Char.isLower, Char.isDigit,
    UInt32.le_iff_toNat_le] using hc

/-! ## Plain words -/

/-- A word with a character that is no letter of a keyword. -/
structure IsPlainWord (cs : List Char) : Prop where
  parts : ∀ c ∈ cs, isWordPart c = true
  mark : ∃ c ∈ cs, c.isAlpha = false

/-- An item that a name or a number is made of: it is no keyword and stands for itself. -/
def Item.isNominal : Item → Bool
  | .group _ | .comma => false
  | item => !item.isOneOf ("NOT" :: Grade.inert.reserved)

/-- Only letters have another form in upper case. -/
theorem toUpper_of_isAlpha_eq_false {c : Char} (hc : c.isAlpha = false) : c.toUpper = c := by
  have hlower : ¬ (c.val ≥ 'a'.val ∧ c.val ≤ 'z'.val) := by
    intro h
    apply Bool.eq_false_iff.mp hc
    simp only [Char.isAlpha, Char.isLower, Bool.or_eq_true, Bool.and_eq_true, decide_eq_true_eq]
    exact Or.inr h
  rw [Char.toUpper, dif_neg hlower]

/-- A keyword is letters throughout, so one other character tells the word from all of them. -/
theorem isKeyword_eq_false {cs : List Char} {upper : String} (h : ∃ c ∈ cs, c.isAlpha = false)
    (hupper : ∀ c ∈ upper.toList, c.isAlpha = true) : (Item.word cs).isKeyword upper = false := by
  obtain ⟨c, hc, hmark⟩ := h
  rw [Item.isKeyword, spells, decide_eq_false_iff_not]
  intro hspells
  have hmem : c.toUpper ∈ upper.toList := hspells ▸ List.mem_map_of_mem hc
  rw [toUpper_of_isAlpha_eq_false hmark] at hmem
  simp [hupper c hmem] at hmark

theorem isNominal_word {cs : List Char} (h : ∃ c ∈ cs, c.isAlpha = false) :
    (Item.word cs).isNominal = true := by
  have hletters :
      ∀ upper ∈ "NOT" :: Grade.inert.reserved, upper.toList.all Char.isAlpha = true := by
    decide
  simp only [Item.isNominal, Item.isOneOf, Bool.not_eq_true', List.any_eq_false]
  intro upper hupper
  rw [isKeyword_eq_false h (List.all_eq_true.mp (hletters upper hupper))]
  simp

namespace IsPlainWord

variable {cs : List Char}

/-- Such a word is read as one item, since nothing in it ends a word. -/
theorem ofChars? (h : IsPlainWord cs) : Item.ofChars? cs = some [.word cs] := by
  refine ofChars?_word ?_ h.parts
  rintro rfl
  obtain ⟨_, hmem, -⟩ := h.mark
  simp at hmem

theorem ofParts (h : (cs.all isWordPart && cs.any (!·.isAlpha)) = true) : IsPlainWord cs := by
  rw [Bool.and_eq_true, List.all_eq_true, List.any_eq_true] at h
  obtain ⟨hparts, c, hc, hmark⟩ := h
  exact ⟨hparts, c, hc, by simpa using hmark⟩

theorem isNominal (h : IsPlainWord cs) : (Item.word cs).isNominal = true := isNominal_word h.mark

end IsPlainWord

/-- Words that stand for themselves are allowed wherever the least is allowed. -/
theorem Grade.allows_of_isNominal {items : List Item} (h : ∀ item ∈ items, item.isNominal = true) :
    inert.Allows items := by
  refine ⟨?_, by simp⟩
  intro item hitem
  have hnominal := h item hitem
  cases item with
  | group _ | comma => exact absurd hnominal (by simp [Item.isNominal])
  | _ =>
    simp only [Item.isNominal, Item.isOneOf, List.any_cons, Bool.not_eq_true',
      Bool.or_eq_false_iff] at hnominal
    exact hnominal.2

/-! ## Numbers -/

/-- A digit, a sign, a point, or the mark of an exponent. -/
def isNumberPart (c : Char) : Bool := Decimal.isDigit c || ['-', '+', '.', 'e', 'E'].contains c

theorem isDigit_of_mem_toDigits {n : Nat} {c : Char} (hc : c ∈ Nat.toDigits 10 n) :
    Decimal.isDigit c = true := by
  have hdigit := Nat.isDigit_of_mem_toDigits (by decide) (by decide) hc
  simpa [Decimal.isDigit, Char.isDigit, Char.le_def] using hdigit

/-- The ASCII digits are the first range of the table. -/
theorem decimalNumber_of_isDigit {c : Char} (hc : Decimal.isDigit c = true) :
    CharClass.decimalNumber.contains c.toNat = true := by
  simp only [Decimal.isDigit, Bool.and_eq_true, decide_eq_true_eq, Char.le_def] at hc
  have hlow : ¬ c.toNat < 0x30 := Nat.not_lt.mpr hc.1
  have hhigh : c.toNat ≤ 0x39 := hc.2
  rw [show CharClass.decimalNumber = (0x30, 0x39) :: CharClass.decimalNumber.tail from rfl,
    CharClass.Ranges.contains, if_neg hlow]
  simp [hhigh]

theorem isWord_of_isDigit {c : Char} (hc : Decimal.isDigit c = true) :
    CharClass.isWord c = true := by
  simp [CharClass.isWord, decimalNumber_of_isDigit hc]

theorem isAlphanumeric_of_isDigit {c : Char} (hc : Decimal.isDigit c = true) :
    CharClass.isAlphanumeric c = true := by
  simp [CharClass.isAlphanumeric, decimalNumber_of_isDigit hc]

theorem isAlpha_eq_false_of_isDigit {c : Char} (hc : Decimal.isDigit c = true) :
    c.isAlpha = false := by
  simp only [Decimal.isDigit, Bool.and_eq_true, decide_eq_true_eq, Char.le_def,
    UInt32.le_iff_toNat_le] at hc
  have hhigh : c.val.toNat ≤ 57 := hc.2
  rw [Bool.eq_false_iff]
  intro halpha
  simp only [Char.isAlpha, Char.isUpper, Char.isLower, Bool.or_eq_true, Bool.and_eq_true,
    decide_eq_true_eq, ge_iff_le, UInt32.le_iff_toNat_le] at halpha
  have hupper : 'A'.val.toNat = 65 := rfl
  have hlower : 'a'.val.toNat = 97 := rfl
  omega

theorem isWordPart_of_isNumberPart {c : Char} (hc : isNumberPart c = true) :
    isWordPart c = true := by
  rw [isNumberPart, Bool.or_eq_true] at hc
  rcases hc with hc | hc
  · exact isWordPart_of_isWord (isWord_of_isDigit hc)
  · have hparts : ['-', '+', '.', 'e', 'E'].all isWordPart = true := by decide
    exact List.all_eq_true.mp hparts c (List.contains_iff_mem.mp hc)

/-- The characters of a number, one of which is no letter. -/
structure IsNumberWord (cs : List Char) : Prop where
  parts : ∀ c ∈ cs, isNumberPart c = true
  mark : ∃ c ∈ cs, c.isAlpha = false

/-- No character that is not of a number is in one. -/
theorem IsNumberWord.not_mem {cs : List Char} (h : IsNumberWord cs) {c : Char}
    (hc : isNumberPart c = false) : c ∉ cs := by
  intro hmem
  rw [h.parts c hmem] at hc
  cases hc

theorem IsNumberWord.isPlainWord {cs : List Char} (h : IsNumberWord cs) : IsPlainWord cs :=
  ⟨fun c hc => isWordPart_of_isNumberPart (h.parts c hc), h.mark⟩

theorem isNumberPart_of_isDigit {c : Char} (hc : Decimal.isDigit c = true) :
    isNumberPart c = true := by
  simp [isNumberPart, hc]

/-- A minus is the only mark in front of the digits. -/
theorem isNumberWord_toString_int (n : Int) : IsNumberWord (toString n).toList := by
  have hrepr : ∀ m : Nat, (∀ c ∈ m.repr.toList, Decimal.isDigit c = true) ∧ m.repr.toList ≠ [] :=
    fun m => ⟨fun c hc => isDigit_of_mem_toDigits (by rwa [Nat.toList_repr] at hc),
      by rw [Nat.toList_repr]; exact Nat.toDigits_ne_nil⟩
  cases n with
  | ofNat m =>
    have htext : (toString (Int.ofNat m)).toList = m.repr.toList := rfl
    obtain ⟨c, rest, hcons⟩ := List.exists_cons_of_ne_nil (hrepr m).2
    rw [htext]
    refine ⟨fun d hd => isNumberPart_of_isDigit ((hrepr m).1 d hd),
      ⟨c, hcons ▸ List.mem_cons_self, ?_⟩⟩
    exact isAlpha_eq_false_of_isDigit ((hrepr m).1 c (hcons ▸ List.mem_cons_self))
  | negSucc m =>
    have htext : (toString (Int.negSucc m)).toList = '-' :: (m + 1).repr.toList := by
      show ("-" ++ (m + 1).repr).toList = _
      simp
    rw [htext]
    refine ⟨?_, '-', List.mem_cons_self, by decide⟩
    intro d hd
    rcases List.mem_cons.mp hd with rfl | hd
    · decide
    · exact isNumberPart_of_isDigit ((hrepr (m + 1)).1 d hd)

namespace DecimalLayout

/-- An exponent has digits behind its mark, whatever its sign. -/
theorem isNumberPart_exponentText (layout : DecimalLayout) (e : Int) :
    (∀ c ∈ (layout.exponentText e).toList, isNumberPart c = true) ∧
      ∃ c ∈ (layout.exponentText e).toList, c.isAlpha = false := by
  have hrepr : ∀ c ∈ e.natAbs.repr.toList, Decimal.isDigit c = true :=
    fun c hc => isDigit_of_mem_toDigits (by rwa [Nat.toList_repr] at hc)
  obtain ⟨d, rest, hcons⟩ := List.exists_cons_of_ne_nil
    (show e.natAbs.repr.toList ≠ [] by rw [Nat.toList_repr]; exact Nat.toDigits_ne_nil)
  have hd : d ∈ e.natAbs.repr.toList := hcons ▸ List.mem_cons_self
  have htext : ∃ mark : List Char, (layout.exponentText e).toList = mark ++ e.natAbs.repr.toList ∧
      ∀ c ∈ mark, isNumberPart c = true := by
    unfold DecimalLayout.exponentText
    split
    · exact ⟨['e', '-'], by simp, List.all_eq_true.mp (by decide)⟩
    split
    · exact ⟨['e', '+'], by simp, List.all_eq_true.mp (by decide)⟩
    · exact ⟨['e'], by simp, List.all_eq_true.mp (by decide)⟩
  obtain ⟨mark, htext, hmark⟩ := htext
  rw [htext]
  refine ⟨?_, d, List.mem_append_right _ hd, isAlpha_eq_false_of_isDigit (hrepr d hd)⟩
  intro c hc
  rcases List.mem_append.mp hc with hc | hc
  · exact hmark c hc
  · exact isNumberPart_of_isDigit (hrepr c hc)

/-- Whichever way the number is laid out, it is its digits with zeros, a point or an exponent among
them. -/
theorem isNumberWord_positiveText (layout : DecimalLayout) {d : DecimalDigits}
    (hdigits : ∀ c ∈ d.digits, Decimal.isDigit c = true) :
    IsNumberWord (layout.positiveText d).toList := by
  have hzeros : ∀ n, ∀ c ∈ List.replicate n '0', isNumberPart c = true := by
    intro n c hc
    rw [(List.mem_replicate.mp hc).2]
    decide
  have hparts : ∀ c ∈ d.digits, isNumberPart c = true :=
    fun c hc => isNumberPart_of_isDigit (hdigits c hc)
  have hpoint : isNumberPart '.' = true := by decide
  have hzero : isNumberPart '0' = true := by decide
  unfold DecimalLayout.positiveText
  dsimp only
  split
  · split
    · -- zeros up to the point, and a zero behind it
      refine ⟨?_, '.', by simp, by decide⟩
      simp only [String.toList_append, String.toList_ofList, List.mem_append]
      rintro c ((hc | hc) | hc)
      · exact hparts c hc
      · exact hzeros _ c hc
      · simp at hc
        rcases hc with rfl | rfl <;> assumption
    split
    · refine ⟨?_, '.', by simp, by decide⟩
      simp only [String.toList_ofList, List.mem_append, List.mem_cons]
      rintro c (hc | rfl | hc)
      · exact hparts c (List.mem_of_mem_take hc)
      · exact hpoint
      · exact hparts c (List.mem_of_mem_drop hc)
    · refine ⟨?_, '.', by simp, by decide⟩
      simp only [String.toList_append, String.toList_ofList, List.mem_append]
      rintro c (hc | hc | hc)
      · simp at hc
        rcases hc with rfl | rfl <;> assumption
      · exact hzeros _ c hc
      · exact hparts c hc
  · obtain ⟨hexponent, e, he, hmark⟩ := isNumberPart_exponentText layout (d.point - 1)
    refine ⟨?_, e, by simp [he], hmark⟩
    simp only [String.toList_append, String.toList_ofList, List.mem_append]
    rintro c (hc | hc)
    · split at hc
      · next first second rest hcons =>
        simp only [List.mem_cons] at hc
        rcases hc with rfl | rfl | rfl | hc
        · exact hparts c (by simp [hcons])
        · exact hpoint
        · exact hparts c (by simp [hcons])
        · exact hparts c (by simp [hcons, hc])
      · exact hparts c hc
    · exact hexponent c hc

/-- A number that is negative or zero has a sign or a zero of its own. -/
theorem isNumberWord_text (layout : DecimalLayout) (x : Binary64) :
    IsNumberWord (layout.text x).toList := by
  have hunsigned : IsNumberWord
      (if x.significand = 0 then "0.0" else layout.positiveText x.shortestDigits).toList := by
    split
    · exact ⟨List.all_eq_true.mp (by decide), '0', by decide, by decide⟩
    · apply isNumberWord_positiveText layout
      intro c hc
      simp only [Binary64.shortestDigits, List.mem_reverse] at hc
      exact isDigit_of_mem_toDigits (List.mem_reverse.mp ((List.dropWhile_sublist _).subset hc))
  unfold DecimalLayout.text
  dsimp only
  split
  · obtain ⟨hparts, c, hc, hmark⟩ := hunsigned
    rw [String.toList_append]
    refine ⟨?_, c, List.mem_append_right _ hc, hmark⟩
    intro d hd
    rcases List.mem_append.mp hd with hd | hd
    · exact List.all_eq_true.mp (show "-".toList.all isNumberPart = true by decide) d hd
    · exact hparts d hd
  · exact hunsigned

end DecimalLayout

/-- Whole or not, a number is written as one word. -/
theorem isNumberWord_numberText (n : JsonNumber) : IsNumberWord (numberText n).toList := by
  cases n with
  | int n => exact isNumberWord_toString_int n
  | double x => exact DecimalLayout.isNumberWord_text doubleLayout x

end DescriptorSql.Sql
