import DescriptorSql.Proofs.Lexical.PassThrough

/-!
# `Proofs/Lexical/Operand.lean` — values as operands

What stands to the right of an operator is a text in quotes, a word, or a list of these in
parentheses (`IsLiteral`). A list has an element: `()` is no operand of any operator, and no list of
values can have it inside. An array is written as a list whatever it holds, so it is an operand only
if no array in it is empty (`isLiteral_literal`).
-/

set_option autoImplicit false

namespace DescriptorSql

/-! ## Arrays -/

namespace Json

mutual

/-- Neither the value nor an array in it is an empty array. An object is written as one text. -/
def isFilled : Json → Bool
  | .array items => !items.isEmpty && itemsAreFilled items
  | _ => true

def itemsAreFilled : List Json → Bool
  | [] => true
  | item :: rest => item.isFilled && itemsAreFilled rest

end

/-- The recursion through lists is said of all items at once. -/
theorem itemsAreFilled_iff {items : List Json} :
    itemsAreFilled items = true ↔ ∀ item ∈ items, item.isFilled = true := by
  induction items with
  | nil => simp [itemsAreFilled]
  | cons item rest ih => simp [itemsAreFilled, ih]

end Json

namespace Sql

/-! ## Operands -/

/-- The marks of texts and lists. -/
def operandMarks : List Char := ['\'', '"', ',', '(', ')']

/-- Texts between commas, in parentheses. -/
def listText (items : List String) : String := "(" ++ ", ".intercalate items ++ ")"

/-- A text that can stand as a value: a text in quotes, a word, or a list with at least one
element. -/
inductive IsLiteral : String → Prop
  | quoted (s : String) : IsLiteral (quoteText s)
  | word {text : String} (hne : text ≠ "") (hmarks : ∀ c ∈ text.toList, c ∉ operandMarks) :
      IsLiteral text
  | list {items : List String} (hne : items ≠ []) (hitems : ∀ item ∈ items, IsLiteral item) :
      IsLiteral (listText items)

theorem IsLiteral.ne_empty {text : String} (h : IsLiteral text) : text ≠ "" := by
  rintro rfl
  generalize htext : "" = text at h
  cases h with
  | quoted s => simp [quoteText, ← String.toList_inj] at htext
  | word hne => exact hne htext.symm
  | list => simp [listText, ← String.toList_inj] at htext

/-- The empty list is no operand. -/
theorem not_isLiteral_empty : ¬ IsLiteral "()" := by
  intro h
  generalize htext : "()" = text at h
  cases h with
  | quoted s => simp [quoteText, ← String.toList_inj] at htext
  | word _ hmarks =>
    subst htext
    exact hmarks '(' (by decide) (by decide)
  | @list items hne hitems =>
    cases items with
    | nil => exact hne rfl
    | cons item rest =>
      have hitem := (hitems item List.mem_cons_self).ne_empty
      have hinner : ", ".intercalate (item :: rest) = "" := by
        simpa [listText, ← String.toList_inj] using htext.symm
      cases rest <;> simp_all

/-! ## Values -/

theorem isLiteral_of_isNumberWord {text : String} (h : IsNumberWord text.toList) :
    IsLiteral text := by
  refine .word ?_ fun c hc => ?_
  · rintro rfl
    obtain ⟨c, hc, -⟩ := h.mark
    cases hc
  · intro hmem
    have hmarks : operandMarks.all (fun d => !isNumberPart d) = true := by decide
    simpa [h.parts c hc] using List.all_eq_true.mp hmarks c hmem

theorem isLiteral_of_letters {text : String} (hne : text ≠ "")
    (h : text.toList.all Char.isAlpha = true) : IsLiteral text := by
  refine .word hne fun c hc hmem => ?_
  exact not_mem_signs_of_isAlpha (List.all_eq_true.mp h c hc)
    ((show operandMarks ⊆ signs by decide) hmem)

/-- Text that is not raw is quoted, or a word that stands as it is. -/
theorem isLiteral_textLiteral {s : String} (hraw : stripRaw? s = none)
    (hbrace : isBracePlaceholder s.toList = false) : IsLiteral (textLiteral s) := by
  rw [textLiteral, hraw]
  dsimp only
  split
  · next hverbatim =>
    have hpasses := passesThrough_iff.mpr hverbatim
    refine .word ?_ fun c hc hmem => ?_
    · rintro rfl
      exact absurd hverbatim (by decide)
    · have hsigns := not_mem_signs_of_passesThrough hpasses
        (fun h => by simp [isBracePlaceholder_iff.mpr h] at hbrace) c hc
      exact hsigns ((show operandMarks ⊆ signs by decide) hmem)
  · exact .quoted s

theorem literals_ne_nil {items : List Json} (h : items.isEmpty = false) : literals items ≠ [] := by
  cases items with
  | nil => cases h
  | cons item rest => simp [literals]

mutual

/-- A value without SQL of its own and without empty arrays is written as an operand. -/
theorem isLiteral_literal : ∀ value : Json, value.isPlain = true → value.isFilled = true →
    IsLiteral (literal value)
  | .null, _, _ => show IsLiteral "NULL" from isLiteral_of_letters (by decide) (by decide)
  | .bool b, _, _ => show IsLiteral (boolText b) from
    isLiteral_of_letters (by cases b <;> decide) (by cases b <;> decide)
  | .number n, _, _ => isLiteral_of_isNumberWord (isNumberWord_numberText n)
  | .string s, hplain, _ => by
    simp only [Json.isPlain, Bool.and_eq_true, Option.isNone_iff_eq_none,
      Bool.not_eq_true'] at hplain
    exact isLiteral_textLiteral hplain.1 hplain.2
  | .array items, hplain, hfilled => by
    simp only [Json.isFilled, Bool.and_eq_true, Bool.not_eq_true'] at hfilled
    exact .list (literals_ne_nil hfilled.1) (isLiteral_literals items hplain hfilled.2)
  | .object members, _, _ => .quoted _

theorem isLiteral_literals : ∀ items : List Json, Json.itemsArePlain items = true →
    Json.itemsAreFilled items = true → ∀ text ∈ literals items, IsLiteral text
  | [], _, _ => by simp [literals]
  | item :: rest, hplain, hfilled => by
    rw [Json.itemsArePlain, Bool.and_eq_true] at hplain
    rw [Json.itemsAreFilled, Bool.and_eq_true] at hfilled
    exact List.forall_mem_cons.mpr ⟨isLiteral_literal item hplain.1 hfilled.1,
      isLiteral_literals rest hplain.2 hfilled.2⟩

end

end Sql

end DescriptorSql
