import DescriptorSql.Proofs.Lexical.PassThrough
import DescriptorSql.Proofs.Number.Range

/-!
# `Proofs/Lexical/Numeral.lean` — texts that write numbers

Where a name is expected a number may stand instead. `IsNumeral` is the grammar of those numbers: an
infinity by name, an unsigned 64-bit number behind a radix mark, or a decimal number that is not too
great to be rounded. The recogniser takes exactly the numerals with blanks around them
(`isNumeric_iff`), and no numeral has a character in it that means something in a statement, nor two
minus signs in a row (`IsNumeral.isChain_dashes`).
-/

set_option autoImplicit false

namespace DescriptorSql

/-! ## Decimal numbers -/

namespace Decimal

/-- A sign, or none. -/
def signTexts : List (List Char) := [[], ['-'], ['+']]

/-- The text writes an exponent part, mark included, or is empty. -/
inductive IsExponent : List Char → Int → Prop
  | none : IsExponent [] 0
  | marked (mark : Char) (sign digits : List Char) : mark = 'e' ∨ mark = 'E' → sign ∈ signTexts →
      digits ≠ [] → (∀ c ∈ digits, isDigit c = true) →
      IsExponent (mark :: (sign ++ digits))
        (if sign = ['-'] then -(digitsValue digits : Int) else digitsValue digits)

/-- The text writes the number: a sign, digits with a point behind, before or between them, and an
exponent part. -/
inductive Writes : List Char → Decimal → Prop
  | digits (sign whole point fraction tail : List Char) (exponent : Int) : sign ∈ signTexts →
      (∀ c ∈ whole, isDigit c = true) → (∀ c ∈ fraction, isDigit c = true) →
      whole ++ fraction ≠ [] → (point = ['.'] ∨ point = [] ∧ fraction = []) →
      IsExponent tail exponent →
      Writes (sign ++ (whole ++ (point ++ (fraction ++ tail))))
        ⟨sign = ['-'], digitsValue (whole ++ fraction), exponent - fraction.length⟩

/-- A sign is split off if there is one. -/
theorem exists_sign (cs : List Char) : ∃ sign ∈ signTexts, cs = sign ++ (splitSign cs).2 ∧
    (splitSign cs).1 = decide (sign = ['-']) := by
  unfold splitSign
  split
  · exact ⟨['-'], by simp [signTexts]⟩
  · exact ⟨['+'], by simp [signTexts]⟩
  · exact ⟨[], by simp [signTexts]⟩

/-- And the sign that is written is the one that is split off, as nothing else at the front is a
sign. -/
theorem splitSign_append {sign rest : List Char} (hsign : sign ∈ signTexts)
    (hrest : ∀ c ∈ rest.head?, c ≠ '-' ∧ c ≠ '+') :
    splitSign (sign ++ rest) = (decide (sign = ['-']), rest) := by
  simp only [signTexts, List.mem_cons, List.not_mem_nil, or_false] at hsign
  rcases hsign with rfl | rfl | rfl
  · unfold splitSign
    split
    · simp_all
    · simp_all
    · rfl
  · rfl
  · rfl

theorem not_sign_of_isDigit {c : Char} (hc : isDigit c = true) : c ≠ '-' ∧ c ≠ '+' := by
  constructor
  · rintro rfl
    cases hc
  · rintro rfl
    cases hc

/-- The reader of exponents takes what `IsExponent` writes, and gives its number. -/
theorem exponentOfChars?_eq_some_iff {cs : List Char} {e : Int} :
    exponentOfChars? cs = some e ↔ IsExponent cs e := by
  constructor
  · intro h
    unfold exponentOfChars? at h
    split at h
    · obtain rfl : 0 = e := Option.some.inj h
      exact .none
    · next mark rest =>
      dsimp only at h
      split at h
      · next hwritten =>
        obtain ⟨sign, hsign, hrest, hminus⟩ := exists_sign rest
        simp only [Bool.and_eq_true, Bool.or_eq_true, beq_iff_eq, List.all_eq_true,
          Bool.not_eq_true', List.isEmpty_eq_false_iff] at hwritten
        obtain ⟨⟨hmark, hne⟩, hdigits⟩ := hwritten
        -- the sign that is split off is the sign that the grammar puts there
        have hexponent := IsExponent.marked mark sign (splitSign rest).2 hmark hsign hne hdigits
        rw [← hrest] at hexponent
        rw [hminus] at h
        have hvalue := Option.some.inj h
        simp only [decide_eq_true_eq] at hvalue
        rwa [hvalue] at hexponent
      · cases h
  · rintro (_ | ⟨mark, sign, digits, hmark, hsign, hne, hdigits⟩)
    · rfl
    · have hsplit : splitSign (sign ++ digits) = (decide (sign = ['-']), digits) :=
        splitSign_append hsign fun c hc =>
          not_sign_of_isDigit (hdigits c (List.mem_of_mem_head? hc))
      have hall : digits.all isDigit = true := List.all_eq_true.mpr hdigits
      rw [exponentOfChars?, hsplit]
      rcases hmark with rfl | rfl <;> simp [hne, hall]

/-- An exponent part begins with neither a digit nor a point. -/
theorem IsExponent.head {cs : List Char} {e : Int} (h : IsExponent cs e) :
    ∀ c ∈ cs.head?, isDigit c = false ∧ c ≠ '.' := by
  intro c hc
  cases h with
  | none => simp at hc
  | marked mark sign digits hmark =>
    obtain rfl : mark = c := by simpa using hc
    rcases hmark with rfl | rfl <;> decide

/-- What the reader of decimal numbers takes is split as `Writes` asks: digits, a point with digits
behind it, and an exponent. -/
theorem writes_of_ofChars? {cs : List Char} {d : Decimal} (h : ofChars? cs = some d) :
    Writes cs d := by
  obtain ⟨sign, hsign, hcs, hminus⟩ := exists_sign cs
  have htake : ∀ cs : List Char, ∀ c ∈ cs.takeWhile isDigit, isDigit c = true :=
    fun cs c hc => List.mem_takeWhile_imp hc
  unfold ofChars? at h
  dsimp only at h
  generalize (splitSign cs).2 = unsigned at h hcs
  rw [hminus] at h
  have hsplit := List.takeWhile_append_dropWhile (p := isDigit) (l := unsigned)
  split at h
  · next rest hafter =>
    dsimp only at h
    split at h
    · cases h
    · next hne =>
      obtain ⟨e, htail, rfl⟩ := Option.map_eq_some_iff.mp h
      have hwrites := Writes.digits sign (unsigned.takeWhile isDigit) ['.']
        (rest.takeWhile isDigit) (rest.dropWhile isDigit) e hsign (htake unsigned) (htake rest)
        (by simpa using hne) (Or.inl rfl) (exponentOfChars?_eq_some_iff.mp htail)
      rw [List.takeWhile_append_dropWhile, List.singleton_append, ← hafter, hsplit, ← hcs]
        at hwrites
      exact hwrites
  · -- no point, so what is behind the digits is the exponent
    dsimp only at h
    split at h
    · cases h
    · next hne =>
      obtain ⟨e, htail, rfl⟩ := Option.map_eq_some_iff.mp h
      have hwrites := Writes.digits sign (unsigned.takeWhile isDigit) [] []
        (unsigned.dropWhile isDigit) e hsign (htake unsigned) (by simp) (by simpa using hne)
        (Or.inr ⟨rfl, rfl⟩) (exponentOfChars?_eq_some_iff.mp htail)
      rw [List.nil_append, List.nil_append, hsplit, ← hcs] at hwrites
      exact hwrites

/-- No part of what `Writes` puts in a row can be taken for the part before it. -/
theorem Writes.ofChars?_eq {cs : List Char} {d : Decimal} (h : Writes cs d) :
    ofChars? cs = some d := by
  obtain ⟨sign, whole, point, fraction, tail, e, hsign, hwhole, hfraction, hne, hpoint, htail⟩ := h
  have hhead := htail.head
  have hmantissa : ∀ c ∈ (whole ++ (point ++ (fraction ++ tail))).head?, c ≠ '-' ∧ c ≠ '+' := by
    intro c hc
    cases whole with
    | cons d whole =>
      obtain rfl : d = c := by simpa using hc
      exact not_sign_of_isDigit (hwhole d List.mem_cons_self)
    | nil =>
      rcases hpoint with rfl | ⟨rfl, rfl⟩
      · obtain rfl : '.' = c := by simpa using hc
        decide
      · simp at hne
  have hempty : (whole.isEmpty && fraction.isEmpty) = false := by simpa using hne
  rw [ofChars?, splitSign_append hsign hmantissa]
  dsimp only
  rcases hpoint with rfl | ⟨rfl, rfl⟩
  · have hafter : ∀ c ∈ ('.' :: (fraction ++ tail)).head?, isDigit c = false := by
      rintro c ⟨⟩
      decide
    rw [List.singleton_append, Sql.takeWhile_name hwhole hafter, Sql.dropWhile_name hwhole hafter]
    split
    · next rest heq =>
      obtain rfl : fraction ++ tail = rest := (List.cons.inj heq).2
      dsimp only
      rw [Sql.takeWhile_name hfraction fun c hc => (hhead c hc).1,
        Sql.dropWhile_name hfraction fun c hc => (hhead c hc).1,
        exponentOfChars?_eq_some_iff.mpr htail, hempty]
      rfl
    · next hnone => exact absurd rfl (hnone _)
  · rw [List.nil_append, List.nil_append, Sql.takeWhile_name hwhole fun c hc => (hhead c hc).1,
      Sql.dropWhile_name hwhole fun c hc => (hhead c hc).1]
    split
    · next rest => exact absurd rfl (hhead '.' rfl).2
    · dsimp only
      rw [exponentOfChars?_eq_some_iff.mpr htail, hempty]
      rfl

/-- The reader of decimal numbers takes what `Writes` lists, and gives the number that is written.
-/
theorem ofChars?_eq_some_iff {cs : List Char} {d : Decimal} :
    ofChars? cs = some d ↔ Writes cs d := ⟨writes_of_ofChars?, Writes.ofChars?_eq⟩

end Decimal

/-! ## Numerals -/

namespace Sql

/-- The letters that mark a radix behind a zero. -/
def radixMarks : List (Char × Nat) :=
  [('x', 16), ('X', 16), ('o', 8), ('O', 8), ('b', 2), ('B', 2)]

/-- A text that writes a number: an infinity by name, at least one digit behind the mark of a radix
and the number below `2 ^ 64`, or a decimal number below the limit from which none is finite. -/
inductive IsNumeral : List Char → Prop
  | infinity (sign : List Char) : sign ∈ Decimal.signTexts → IsNumeral (sign ++ "Infinity".toList)
  | word (mark : Char) (radix : Nat) (plus digits : List Char) (values : List Nat) :
      (mark, radix) ∈ radixMarks → plus = [] ∨ plus = ['+'] →
      digits.mapM (radixDigit? radix) = some values → digits ≠ [] →
      Nat.ofDigits radix values.reverse < 2 ^ 64 → IsNumeral ('0' :: mark :: (plus ++ digits))
  | decimal (cs : List Char) (d : Decimal) : Decimal.Writes cs d → d.magnitude < Binary64.limit →
    IsNumeral cs

/-- Digits are added up from the most significant one. -/
theorem foldl_digits_eq_ofDigits (radix : Nat) (values : List Nat) :
    values.foldl (fun n d => radix * n + d) 0 = Nat.ofDigits radix values.reverse := by
  rw [Nat.ofDigits_eq_foldr, List.foldr_reverse]
  simp [add_comm]

/-- There are as many values as digits, so there are none only without digits. -/
theorem values_eq_nil_iff {radix : Nat} {digits : List Char} {values : List Nat}
    (hmap : digits.mapM (radixDigit? radix) = some values) : values = [] ↔ digits = [] := by
  cases digits with
  | nil => simpa [eq_comm] using hmap
  | cons d digits =>
    rw [List.mapM_cons] at hmap
    obtain ⟨value, -, hmap⟩ := Option.bind_eq_some_iff.mp hmap
    obtain ⟨others, -, hmap⟩ := Option.bind_eq_some_iff.mp hmap
    simp [← Option.some.inj hmap]

/-- Digits of the radix behind an optional plus, at least one of them, for a number of 64 bits. -/
theorem isWordInRadix_iff {radix : Nat} {cs : List Char} :
    isWordInRadix radix cs = true ↔ ∃ plus digits values, (plus = [] ∨ plus = ['+']) ∧
      digits.mapM (radixDigit? radix) = some values ∧ digits ≠ [] ∧
      Nat.ofDigits radix values.reverse < 2 ^ 64 ∧ cs = plus ++ digits := by
  constructor
  · intro h
    obtain ⟨plus, hplus, hcs⟩ : ∃ plus, (plus = [] ∨ plus = ['+']) ∧
        cs = plus ++ if cs.head? = some '+' then cs.tail else cs := by
      by_cases hhead : cs.head? = some '+'
      · exact ⟨['+'], Or.inr rfl, by
          rw [if_pos hhead, List.singleton_append, List.cons_head?_tail hhead]⟩
      · exact ⟨[], Or.inl rfl, by rw [if_neg hhead, List.nil_append]⟩
    unfold isWordInRadix at h
    dsimp only at h
    generalize (if cs.head? = some '+' then cs.tail else cs) = digits at h hcs
    split at h
    · cases h
    · next values hmap =>
      rw [Bool.and_eq_true, Bool.not_eq_true', List.isEmpty_eq_false_iff,
        foldl_digits_eq_ofDigits, decide_eq_true_eq] at h
      exact ⟨plus, digits, values, hplus, hmap, mt (values_eq_nil_iff hmap).mpr h.1, h.2, hcs⟩
  · rintro ⟨plus, digits, values, hplus, hmap, hne, hlt, rfl⟩
    have hdigits : (if (plus ++ digits).head? = some '+' then (plus ++ digits).tail
        else plus ++ digits) = digits := by
      rcases hplus with rfl | rfl
      · refine if_neg fun hhead => ?_
        have halphanum := isAlphanum_of_radixDigits hmap '+' (List.mem_of_mem_head? hhead)
        exact absurd halphanum (by decide)
      · rfl
    have hvalues : values.isEmpty = false := by
      simpa [values_eq_nil_iff hmap] using hne
    have hbound : values.foldl (fun n d => radix * n + d) 0 < Nat.pow 2 64 := by
      rw [foldl_digits_eq_ofDigits]
      exact hlt
    rw [isWordInRadix, hdigits, hmap]
    simp [hvalues, hbound]

/-! ## The characters of a numeral -/

/-- A letter, a digit, a sign or a point. -/
def isNumeralPart (c : Char) : Bool := c.isAlphanum || ['-', '+', '.'].contains c

theorem isNumeralPart_of_isNumberPart {c : Char} (hc : isNumberPart c = true) :
    isNumeralPart c = true := by
  rw [isNumberPart, Bool.or_eq_true] at hc
  rcases hc with hc | hc
  · have hdigit : c.isDigit = true := by
      simpa [Decimal.isDigit, Char.isDigit, Char.le_def] using hc
    simp [isNumeralPart, Char.isAlphanum, hdigit]
  · have hparts : ['-', '+', '.', 'e', 'E'].all isNumeralPart = true := by decide
    exact List.all_eq_true.mp hparts c (List.contains_iff_mem.mp hc)

theorem isWordPart_of_isNumeralPart {c : Char} (hc : isNumeralPart c = true) :
    isWordPart c = true := by
  rw [isNumeralPart, Bool.or_eq_true] at hc
  rcases hc with hc | hc
  · exact isWordPart_of_isAlphanum hc
  · have hparts : ['-', '+', '.'].all isWordPart = true := by decide
    exact List.all_eq_true.mp hparts c (List.contains_iff_mem.mp hc)

theorem isNumberPart_of_mem_signTexts {sign : List Char} (hsign : sign ∈ Decimal.signTexts) :
    ∀ c ∈ sign, isNumberPart c = true := by
  have hsigns : Decimal.signTexts.all (fun sign => sign.all isNumberPart) = true := by decide
  exact List.all_eq_true.mp (List.all_eq_true.mp hsigns sign hsign)

theorem isNumberPart_of_writes {cs : List Char} {d : Decimal} (h : Decimal.Writes cs d) :
    ∀ c ∈ cs, isNumberPart c = true := by
  obtain ⟨sign, whole, point, fraction, tail, e, hsign, hwhole, hfraction, hne, hpoint, htail⟩ := h
  have hempty : (whole.isEmpty && fraction.isEmpty) = false := by simpa using hne
  have hpoint' : ∀ c ∈ point, c = '.' := by rcases hpoint with rfl | ⟨rfl, -⟩ <;> simp
  have hparts := (parts_of_decimal hwhole hpoint' hfraction hempty
    (Decimal.exponentOfChars?_eq_some_iff.mpr htail)).1
  rw [List.append_assoc] at hparts
  exact List.forall_mem_append.mpr ⟨isNumberPart_of_mem_signTexts hsign, hparts⟩

/-- A numeral has letters, digits, signs and points, and nothing else. -/
theorem IsNumeral.parts {cs : List Char} (h : IsNumeral cs) : ∀ c ∈ cs, isNumeralPart c = true := by
  have hof : ∀ {cs : List Char}, (∀ c ∈ cs, isNumberPart c = true) →
      ∀ c ∈ cs, isNumeralPart c = true :=
    fun h c hc => isNumeralPart_of_isNumberPart (h c hc)
  cases h with
  | infinity sign hsign =>
    exact List.forall_mem_append.mpr ⟨hof (isNumberPart_of_mem_signTexts hsign),
      List.all_eq_true.mp (by decide)⟩
  | word mark radix plus digits values hmark hplus hmap =>
    have hmarks : radixMarks.all (fun entry => isNumeralPart entry.1) = true := by decide
    have hplus' : ∀ c ∈ plus, isNumeralPart c = true := by
      rcases hplus with rfl | rfl <;> simp [isNumeralPart]
    refine List.forall_mem_cons.mpr ⟨by decide, List.forall_mem_cons.mpr
      ⟨List.all_eq_true.mp hmarks _ hmark, List.forall_mem_append.mpr ⟨hplus', ?_⟩⟩⟩
    intro c hc
    simp [isNumeralPart, isAlphanum_of_radixDigits hmap c hc]
  | decimal _ d hwrites => exact hof (isNumberPart_of_writes hwrites)

/-! ## The recogniser -/

/-- A zero and a radix mark begin no decimal number, so this is a number in its radix or none. -/
theorem isNumeral_marked_iff {mark : Char} {radix : Nat} {rest : List Char}
    (hmark : (mark, radix) ∈ radixMarks) :
    IsNumeral ('0' :: mark :: rest) ↔ isWordInRadix radix rest = true := by
  rw [isWordInRadix_iff]
  constructor
  · intro h
    generalize hcs : '0' :: mark :: rest = cs at h
    cases h with
    | infinity sign hsign =>
      have hheads : Decimal.signTexts.all
          (fun sign => (sign ++ "Infinity".toList).head? != some '0') = true := by decide
      have hhead := List.all_eq_true.mp hheads sign hsign
      rw [← hcs] at hhead
      simp at hhead
    | word mark' radix' plus digits values hmark' hplus hmap hne hlt =>
      obtain ⟨rfl, hrest⟩ := List.cons.inj (List.cons.inj hcs).2
      have hunique : ∀ p ∈ radixMarks, ∀ q ∈ radixMarks, p.1 = q.1 → p.2 = q.2 := by decide
      obtain rfl : radix = radix' := hunique _ hmark _ hmark' rfl
      exact ⟨plus, digits, values, hplus, hmap, hne, hlt, hrest⟩
    | decimal _ d hwrites =>
      have hmarks : radixMarks.all (fun entry => !isNumberPart entry.1) = true := by decide
      have hpart := isNumberPart_of_writes hwrites mark (by simp [← hcs])
      simpa [hpart] using List.all_eq_true.mp hmarks _ hmark
  · rintro ⟨plus, digits, values, hplus, hmap, hne, hlt, rfl⟩
    exact .word mark radix plus digits values hmark hplus hmap hne hlt

/-- The recogniser drops the blanks first and then takes the numerals. -/
theorem isNumeric_iff_isNumeral {cs : List Char} :
    isNumeric cs = true ↔ IsNumeral (Text.dropOuterBlanks cs) := by
  unfold isNumeric
  generalize Text.dropOuterBlanks cs = text
  -- six radix marks, and then what is no marked number
  split
  · exact (isNumeral_marked_iff (by decide)).symm
  · exact (isNumeral_marked_iff (by decide)).symm
  · exact (isNumeral_marked_iff (by decide)).symm
  · exact (isNumeral_marked_iff (by decide)).symm
  · exact (isNumeral_marked_iff (by decide)).symm
  · exact (isNumeral_marked_iff (by decide)).symm
  · next hx hX ho hO hb hB =>
    simp only [Bool.or_eq_true, decide_eq_true_eq]
    constructor
    · rintro (((rfl | rfl) | rfl) | h)
      · exact .infinity [] (by decide)
      · exact .infinity ['+'] (by decide)
      · exact .infinity ['-'] (by decide)
      · obtain ⟨x, hx⟩ := Option.isSome_iff_exists.mp h
        obtain ⟨d, hd, hx⟩ := Option.bind_eq_some_iff.mp hx
        exact .decimal text d (Decimal.ofChars?_eq_some_iff.mp hd)
          (Decimal.toBinary64?_isSome_iff.mp (Option.isSome_iff_exists.mpr ⟨x, hx⟩))
    · intro h
      cases h with
      | infinity sign hsign =>
        have hsigns : sign = [] ∨ sign = ['-'] ∨ sign = ['+'] := by
          simpa [Decimal.signTexts] using hsign
        rcases hsigns with rfl | rfl | rfl
        · exact Or.inl (Or.inl (Or.inl rfl))
        · exact Or.inl (Or.inr rfl)
        · exact Or.inl (Or.inl (Or.inr rfl))
      -- a marked number was taken by one of the six cases above
      | word mark radix plus digits values hmark =>
        simp only [radixMarks, List.mem_cons, Prod.mk.injEq, List.not_mem_nil, or_false] at hmark
        rcases hmark with ⟨rfl, -⟩ | ⟨rfl, -⟩ | ⟨rfl, -⟩ | ⟨rfl, -⟩ | ⟨rfl, -⟩ | ⟨rfl, -⟩
        · exact absurd rfl (hx _)
        · exact absurd rfl (hX _)
        · exact absurd rfl (ho _)
        · exact absurd rfl (hO _)
        · exact absurd rfl (hb _)
        · exact absurd rfl (hB _)
      | decimal _ d hwrites hlimit =>
        obtain ⟨x, hx⟩ := Option.isSome_iff_exists.mp (Decimal.toBinary64?_isSome_iff.mpr hlimit)
        refine Or.inr (Option.isSome_iff_exists.mpr ⟨x, ?_⟩)
        rw [Decimal.ofChars?_eq_some_iff.mpr hwrites, Option.bind_some, hx]

/-- Dropping the blanks around a text without blanks at its ends gives back the text. -/
theorem dropOuterBlanks_between {front text back : List Char}
    (hfront : ∀ c ∈ front, Text.isBlank c = true) (hback : ∀ c ∈ back, Text.isBlank c = true)
    (htext : ∀ c ∈ text, Text.isBlank c = false) (hne : text ≠ []) :
    Text.dropOuterBlanks (front ++ (text ++ back)) = text := by
  have hhead : ∀ c ∈ (text ++ back).head?, Text.isBlank c = false := by
    intro c hc
    rw [List.head?_append_of_ne_nil _ hne] at hc
    exact htext c (List.mem_of_mem_head? hc)
  rw [Text.dropOuterBlanks, dropWhile_name hfront hhead, Text.dropTrailingBlanks,
    List.reverse_append, dropWhile_name (fun c hc => hback c (List.mem_reverse.mp hc)),
    List.reverse_reverse]
  exact fun c hc => htext c (List.mem_reverse.mp (List.mem_of_mem_head? hc))

theorem IsNumeral.ne_nil {cs : List Char} (h : IsNumeral cs) : cs ≠ [] := by
  rintro rfl
  generalize hcs : ([] : List Char) = cs at h
  cases h with
  | infinity sign => simp at hcs
  | word => simp at hcs
  | decimal _ d hwrites =>
    obtain ⟨sign, whole, point, fraction, tail, e, -, -, -, hne, -, -⟩ := hwrites
    simp_all

/-- Taken for a number is a numeral with blanks around it. -/
theorem isNumeric_iff {cs : List Char} :
    isNumeric cs = true ↔ ∃ front text back, (∀ c ∈ front, Text.isBlank c = true) ∧
      (∀ c ∈ back, Text.isBlank c = true) ∧ IsNumeral text ∧ cs = front ++ (text ++ back) := by
  rw [isNumeric_iff_isNumeral]
  constructor
  · intro h
    obtain ⟨front, back, hfront, hback, hcs⟩ := exists_outerBlanks cs
    exact ⟨front, _, back, hfront, hback, h, by rwa [← List.append_assoc]⟩
  · rintro ⟨front, text, back, hfront, hback, htext, rfl⟩
    have hblank : ∀ c ∈ text, Text.isBlank c = false :=
      fun c hc => isBlank_eq_false_of_isWordPart (isWordPart_of_isNumeralPart (htext.parts c hc))
    rwa [dropOuterBlanks_between hfront hback hblank htext.ne_nil]

/-! ## Minus signs -/

/-- Two minus signs in a row are in one of the parts or at the border. -/
theorem not_dashes_infix_append {as bs : List Char} (has : ¬ ['-', '-'] <:+: as)
    (hbs : ¬ ['-', '-'] <:+: bs) (hborder : as.getLast? ≠ some '-' ∨ bs.head? ≠ some '-') :
    ¬ ['-', '-'] <:+: as ++ bs := by
  rw [List.infix_append_iff]
  rintro (h | h | ⟨front, back, hsplit, ⟨more, rfl⟩, ⟨rest, rfl⟩⟩)
  · exact has h
  · exact hbs h
  · match front, back, hsplit with
    | [], _, rfl => exact hbs (List.infix_append [] _ rest)
    | [_], _, rfl => simp at hborder
    | [_, _], [], rfl => exact has (List.suffix_append more _).isInfix

theorem not_dashes_infix_of_not_mem {cs : List Char} (h : '-' ∉ cs) : ¬ ['-', '-'] <:+: cs :=
  fun hinfix => h ( hinfix.subset (by simp))

/-- A minus sign stands at the front of a number or behind the mark of its exponent. -/
theorem not_dashes_infix_of_writes {cs : List Char} {d : Decimal} (h : Decimal.Writes cs d) :
    ¬ ['-', '-'] <:+: cs := by
  have hsigns : ∀ sign ∈ Decimal.signTexts, ¬ ['-', '-'] <:+: sign := by decide
  have hdigits : ∀ {cs : List Char}, (∀ c ∈ cs, Decimal.isDigit c = true) → '-' ∉ cs :=
    fun h hmem => absurd (h _ hmem) (by decide)
  obtain ⟨sign, whole, point, fraction, tail, e, hsign, hwhole, hfraction, hne, hpoint, htail⟩ := h
  -- a minus sign of the exponent stands behind its mark
  have htail : ¬ ['-', '-'] <:+: tail := by
    cases htail with
    | none => simp
    | marked mark sign digits hmark hsign hne hdigits' =>
      have hbehind : ¬ ['-', '-'] <:+: sign ++ digits :=
        not_dashes_infix_append (hsigns sign hsign)
          (not_dashes_infix_of_not_mem (hdigits hdigits'))
          (Or.inr fun hhead => hdigits hdigits' (List.mem_of_mem_head? hhead))
      have hmark' : mark ≠ '-' := by rcases hmark with rfl | rfl <;> decide
      show ¬ ['-', '-'] <:+: [mark] ++ (sign ++ digits)
      refine not_dashes_infix_append (not_dashes_infix_of_not_mem ?_) hbehind ?_
      · simpa using hmark'.symm
      · simpa using Or.inl hmark'
  -- and between the sign and the exponent there is none
  have hmantissa : '-' ∉ whole ++ (point ++ fraction) := by
    simp only [List.mem_append, not_or]
    refine ⟨hdigits hwhole, ?_, hdigits hfraction⟩
    rcases hpoint with rfl | ⟨rfl, -⟩ <;> simp
  have hnonempty : whole ++ (point ++ fraction) ≠ [] := by
    intro hnil
    simp only [List.append_eq_nil_iff] at hnil
    exact hne (by simp [hnil])
  have hsplit : sign ++ (whole ++ (point ++ (fraction ++ tail))) =
      sign ++ ((whole ++ (point ++ fraction)) ++ tail) := by simp
  rw [hsplit]
  refine not_dashes_infix_append (hsigns sign hsign) (not_dashes_infix_append
    (not_dashes_infix_of_not_mem hmantissa) htail ?_) ?_
  · exact Or.inl fun hlast => hmantissa (List.mem_of_getLast? hlast)
  · rw [List.head?_append_of_ne_nil _ hnonempty]
    exact Or.inr fun hhead => hmantissa (List.mem_of_mem_head? hhead)

/-- So no numeral begins a comment. -/
theorem IsNumeral.not_dashes_infix {cs : List Char} (h : IsNumeral cs) : ¬ ['-', '-'] <:+: cs := by
  cases h with
  | infinity sign hsign =>
    have hsigns : ∀ sign ∈ Decimal.signTexts, ¬ ['-', '-'] <:+: sign ++ "Infinity".toList := by
      decide
    exact hsigns sign hsign
  | word mark radix plus digits values hmark hplus hmap =>
    have hmarks : radixMarks.all (fun entry => entry.1 != '-') = true := by decide
    have hmark' : mark ≠ '-' := by simpa using List.all_eq_true.mp hmarks _ hmark
    have hplus' : '-' ∉ plus := by rcases hplus with rfl | rfl <;> simp
    apply not_dashes_infix_of_not_mem
    simp only [List.mem_cons, List.mem_append, not_or]
    refine ⟨by decide, hmark'.symm, hplus', fun hmem => ?_⟩
    exact absurd (isAlphanum_of_radixDigits hmap '-' hmem) (by decide)
  | decimal _ d hwrites => exact not_dashes_infix_of_writes hwrites

/-! ## Numbers and signs -/

/-- A number with blanks around it holds nothing that means something in a statement. -/
theorem isHarmless_of_isNumeric {cs : List Char} (h : isNumeric cs = true) : IsHarmless cs := by
  obtain ⟨front, text, back, hfront, hback, htext, rfl⟩ := isNumeric_iff.mp h
  have hsigns : signs.all (fun c => c == '-' || !isNumeralPart c) = true := by decide
  -- the minus sign is the only one of the signs that a number may have in it
  have hnot : ∀ c ∈ signs, c ≠ '-' → c ∉ front ++ (text ++ back) := by
    intro c hc hminus hmem
    have hblank : Text.isBlank c = true → False := fun hblank => not_mem_signs_of_isBlank hblank hc
    have hpart : isNumeralPart c = false := by simpa [hminus] using List.all_eq_true.mp hsigns c hc
    rcases List.mem_append.mp hmem with hmem | hmem
    · exact hblank (hfront c hmem)
    rcases List.mem_append.mp hmem with hmem | hmem
    · simp [htext.parts c hmem] at hpart
    · exact hblank (hback c hmem)
  have houter : ∀ {cs : List Char}, (∀ c ∈ cs, Text.isBlank c = true) → '-' ∉ cs :=
    fun h hmem => absurd (h _ hmem) (by decide)
  refine ⟨fun c hc => hnot c ?_ ?_, ?_, fun hinfix => ?_⟩
  · simp only [signs, List.mem_cons, List.not_mem_nil, or_false] at hc ⊢
    tauto
  · rintro rfl
    simp at hc
  · refine not_dashes_infix_append (not_dashes_infix_of_not_mem (houter hfront))
      (not_dashes_infix_append htext.not_dashes_infix (not_dashes_infix_of_not_mem (houter hback))
        ?_) ?_
    · exact Or.inr fun hhead => houter hback (List.mem_of_mem_head? hhead)
    · exact Or.inl fun hlast => houter hfront (List.mem_of_getLast? hlast)
  · exact hnot '/' (by decide) (by decide) ( hinfix.subset (by simp))

end Sql

end DescriptorSql
