import DescriptorSql.Proofs.Lexical.Name
import DescriptorSql.Sql.Literal

/-!
# `Proofs/Lexical/Value.lean` — values in a statement

A value that holds data, text or an object, becomes a literal, and the literal's content is all that
the data decides. So a value and the same value without its data (`Json.withoutData`) are written
alike (`alike_literal`). What is no data is written as it is and kept as it is: numbers, truth
values, placeholders, the null keywords.
-/

set_option autoImplicit false

namespace DescriptorSql

/-- The text is data: it is neither marked as SQL nor a placeholder or a null keyword. -/
def Sql.isData (s : String) : Bool := (stripRaw? s).isNone && !isVerbatimText s.toList

namespace Json

mutual

/-- No text in the value is marked as SQL, and none is a `${…}`. An object is never read for its
texts. -/
def isPlain : Json → Bool
  | .string s => (Sql.stripRaw? s).isNone && !Sql.isBracePlaceholder s.toList
  | .array items => itemsArePlain items
  | _ => true

def itemsArePlain : List Json → Bool
  | [] => true
  | item :: rest => item.isPlain && itemsArePlain rest

end

mutual

/-- The value with its data emptied: text that is data becomes the empty text, and an object loses
its members. -/
def withoutData : Json → Json
  | .string s => if Sql.isData s then .string "" else .string s
  | .array items => .array (itemsWithoutData items)
  | .object _ => .object []
  | value => value

def itemsWithoutData : List Json → List Json
  | [] => []
  | item :: rest => item.withoutData :: itemsWithoutData rest

end

theorem itemsWithoutData_eq_map (items : List Json) :
    itemsWithoutData items = items.map withoutData := by
  induction items with
  | nil => rfl
  | cons item rest ih => rw [itemsWithoutData, ih, List.map_cons]

/-- The recursion through lists is said of all items at once. -/
theorem itemsArePlain_iff {items : List Json} :
    itemsArePlain items = true ↔ ∀ item ∈ items, item.isPlain = true := by
  induction items with
  | nil => simp [itemsArePlain]
  | cons item rest ih => simp [itemsArePlain, ih]

end Json

namespace Sql

/-! ## Texts in a row -/

theorem forall₂_map {α β γ δ : Type} {R : γ → δ → Prop} {f : α → γ} {g : β → δ} {as : List α}
    {bs : List β} (h : List.Forall₂ (fun a b => R (f a) (g b)) as bs) :
    List.Forall₂ R (as.map f) (bs.map g) :=
  List.forall₂_map_left_iff.mpr (List.forall₂_map_right_iff.mpr h)

/-- Separators that the grade allows connect nothing, so what is alike is alike in a row. -/
theorem Alike.intercalate {grade : Grade} {separator : String} {as bs : List String}
    (h : List.Forall₂ (Alike grade) as bs) (hseparator : grade.separates separator = true) :
    Alike grade (separator.intercalate as) (separator.intercalate bs) := by
  induction h with
  | nil => exact ⟨[], ⟨by simp, by simp [awaitsAnd]⟩, ⟨[], rfl, rfl⟩, [], rfl, rfl⟩
  | @cons a b as bs hab hrest ih =>
    cases hrest with
    | nil => simpa using hab
    | cons hnext hrest =>
      rw [String.intercalate_cons_cons, String.intercalate_cons_cons]
      exact hab.glue ih hseparator

/-- Parentheses close whatever is closed inside them, and what is left outside is inert. -/
theorem Alike.parenthesized {a b : String} (h : Alike .closed a b) :
    Alike .inert ("(" ++ a ++ ")") ("(" ++ b ++ ")") := by
  have hcall := Alike.call (.ofAccepts (show Grade.inert.accepts "" = true by decide)) h
  simpa only [String.empty_append] using hcall

/-! ## Values that are no data -/

theorem IsPlainWord.alike {text : String} (h : IsPlainWord text.toList) : Alike .inert text text :=
  .ofItems h.ofChars? (Grade.allows_of_isNominal (by simpa using h.isNominal))

/-- A word that spells a word of letters has letters only. -/
theorem isAlpha_of_spells {upper cs : List Char} (hupper : ∀ c ∈ upper, c.isAlpha = true)
    (h : spells upper cs = true) : ∀ c ∈ cs, c.isAlpha = true := by
  intro c hc
  rw [spells, decide_eq_true_eq] at h
  have hup : c.toUpper.isAlpha = true := hupper _ (h ▸ List.mem_map_of_mem hc)
  by_contra hno
  rw [toUpper_of_isAlpha_eq_false (Bool.eq_false_iff.mpr hno)] at hup
  exact hno hup

/-- A word that spells a name in capitals is read as a word, and is no keyword but that one. -/
theorem reads_of_spells {upper cs : List Char} (hne : upper ≠ [])
    (hupper : ∀ c ∈ upper, c.isAlpha = true) (h : spells upper cs = true) :
    Item.ofChars? cs = some [.word cs] ∧
      ∀ keyword : String, (Item.word cs).isKeyword keyword = decide (upper = keyword.toList) := by
  have hspells : cs.map Char.toUpper = upper := by simpa [spells] using h
  constructor
  · refine ofChars?_word ?_ fun c hc => isWordPart_of_isAlphanum ?_
    · rintro rfl
      exact hne hspells.symm
    · simp [Char.isAlphanum, isAlpha_of_spells hupper h c hc]
  · intro keyword
    rw [Item.isKeyword, spells, hspells]

/-- A word is as inert as the word that it spells in capitals. -/
theorem allows_of_spells {upper cs : List Char} (hne : upper ≠ [])
    (hupper : ∀ c ∈ upper, c.isAlpha = true) (h : spells upper cs = true)
    (hinert : ∀ keyword ∈ Grade.inert.reserved, upper ≠ keyword.toList) :
    Grade.inert.Allows [.word cs] := by
  obtain ⟨-, hkeyword⟩ := reads_of_spells hne hupper h
  refine ⟨?_, by simp⟩
  intro item hitem
  rw [List.mem_singleton.mp hitem, Item.isOneOf, List.any_eq_false]
  intro keyword hmem
  rw [hkeyword, decide_eq_true_eq]
  exact hinert keyword hmem

/-- NULL is one word and NOT NULL two, and neither connects anything. -/
theorem alike_of_isNullKeyword {text : String} (h : isNullKeyword text.toList = true) :
    Alike .inert text text := by
  have hnull : ∀ {cs : List Char}, isNullWord cs = true →
      Item.ofChars? cs = some [.word cs] ∧ Grade.inert.Allows [.word cs] := fun hcs =>
    ⟨(reads_of_spells (by decide) (List.all_eq_true.mp (by decide)) hcs).1,
      allows_of_spells (by decide) (List.all_eq_true.mp (by decide)) hcs (by decide)⟩
  simp only [isNullKeyword, Bool.or_eq_true, Bool.and_eq_true] at h
  rcases h with h | ⟨hnot, hrest⟩
  · exact .ofItems (hnull h).1 (hnull h).2
  · split at hrest
    · cases hrest
    · next c rest hdrop =>
      simp only [Bool.and_eq_true] at hrest
      obtain ⟨hblank, hword⟩ := hrest
      -- the text is NOT, the blanks, and NULL
      have hsplit : text.toList = text.toList.take 3 ++ ((c :: rest.takeWhile Text.isBlank) ++
          rest.dropWhile Text.isBlank) := by
        rw [List.cons_append, List.takeWhile_append_dropWhile, ← hdrop, List.take_append_drop]
      have hblanks : ∀ d ∈ c :: rest.takeWhile Text.isBlank, Text.isBlank d = true :=
        List.forall_mem_cons.mpr ⟨hblank, fun d hd => List.mem_takeWhile_imp hd⟩
      have hends : endsApart (c :: rest.takeWhile Text.isBlank) = true := by
        rw [endsApart, List.getLast?_eq_some_getLast (List.cons_ne_nil _ _)]
        exact isSeparator_of_isBlank (hblanks _ (List.getLast_mem _))
      have hletters : ∀ c ∈ ['N', 'O', 'T'], c.isAlpha = true := List.all_eq_true.mp (by decide)
      have hitems := ofChars?_append (reads_of_spells (by decide) hletters hnot).1
        (ofChars?_append (ofChars?_blanks hblanks) (hnull hword).1 (Or.inr hends))
        (Or.inl (by simpa [startsApart] using isSeparator_of_isBlank hblank))
      rw [← hsplit] at hitems
      refine .ofItems hitems (Grade.Allows.append ?_ (Grade.Allows.append ?_ (hnull hword).2))
      · exact allows_of_spells (by decide) hletters hnot (by decide)
      · refine ⟨?_, by simp⟩
        intro item hitem
        obtain ⟨d, -, rfl⟩ := List.mem_map.mp hitem
        simp [Item.isOneOf, Item.isKeyword]

theorem alike_numberText (n : JsonNumber) : Alike .inert (numberText n) (numberText n) :=
  (isNumberWord_numberText n).isPlainWord.alike

/-! ## Data -/

theorem literalList_eq (items : List Json) : literalList items = literal (.array items) := by
  rw [literal, literalList]

/-- A quoted text is one literal, whatever stands in it. -/
theorem reads_quoteText (s : String) : Reads (quoteText s) [.quoted .literal []] := by
  refine ⟨[.quoted .literal (Text.double '\'' (Text.double '\\' s.toList))], ?_, rfl⟩
  -- backslashes are doubled first, and what the literal encloses is the result of that
  have hquote : (quoteText s).toList =
      Text.enclose Quote.literal.mark (Text.double '\\' s.toList) := by
    simp [quoteText, escapeText, escapeChars, Text.enclose, Quote.mark]
  rw [items?, hquote]
  exact ofChars?_enclose .literal _

/-- Two literals have the same place whatever is in them. -/
theorem alike_quoteText (s t : String) : Alike .inert (quoteText s) (quoteText t) :=
  ⟨[.quoted .literal []], by decide, reads_quoteText s, reads_quoteText t⟩

theorem textLiteral_of_isData {s : String} (h : isData s = true) : textLiteral s = quoteText s := by
  simp only [isData, Bool.and_eq_true, Option.isNone_iff_eq_none, Bool.not_eq_true'] at h
  rw [textLiteral, h.1]
  simp [h.2]

/-- Text that is no data stands in the statement as it is. If nothing in it is raw, it is a
placeholder or a null keyword. -/
theorem alike_textLiteral {s : String} (h : (Json.string s).isPlain = true)
    (hdata : isData s = false) : Alike .inert (textLiteral s) (textLiteral s) := by
  simp only [Json.isPlain, Bool.and_eq_true, Option.isNone_iff_eq_none, Bool.not_eq_true'] at h
  simp only [isData, h.1, Option.isNone_none, Bool.true_and, Bool.not_eq_false'] at hdata
  rw [textLiteral, h.1]
  dsimp only
  rw [if_pos hdata]
  simp only [isVerbatimText, Bool.or_eq_true] at hdata
  rcases hdata with hplaceholder | hkeyword
  · exact (isPlainWord_of_isPlaceholder hplaceholder h.2).alike
  · exact alike_of_isNullKeyword hkeyword

mutual

/-- A plain value is written like itself without its data. -/
theorem alike_literal : ∀ {value : Json}, value.isPlain = true →
    Alike .inert (literal value.withoutData) (literal value)
  | .null, _ => .ofAccepts (by decide)
  | .bool true, _ => .ofAccepts (by decide)
  | .bool false, _ => .ofAccepts (by decide)
  | .number n, _ => alike_numberText n
  | .string s, h => by
    rw [Json.withoutData]
    cases hdata : isData s with
    | true =>
      rw [if_pos rfl, literal, literal, textLiteral_of_isData hdata,
        textLiteral_of_isData (by decide)]
      exact alike_quoteText "" s
    | false =>
      rw [if_neg (by decide)]
      exact alike_textLiteral h hdata
  | .array items, h => by
    have hitems := @alike_literals items h
    rw [Json.withoutData, literal, literal]
    exact (Alike.intercalate hitems (Grade.separates_comma _)).toClosed.parenthesized
  | .object members, _ =>
    -- an object is one literal, the text that prints it, so none of its texts is looked at
    alike_quoteText _ _

theorem alike_literals : ∀ {items : List Json}, Json.itemsArePlain items = true →
    List.Forall₂ (Alike .inert) (literals (Json.itemsWithoutData items)) (literals items)
  | [], _ => .nil
  | item :: rest, h => by
    rw [Json.itemsArePlain, Bool.and_eq_true] at h
    exact .cons (alike_literal h.1) (alike_literals h.2)

end

end Sql

end DescriptorSql
