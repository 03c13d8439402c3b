import DescriptorSql.Proofs.Lexical.Provenance
import DescriptorSql.Proofs.Lexical.Literal

/-!
# `Proofs/Lexical/Denotation.lean` — what a literal denotes

A literal is written for readers to whom a backslash is an escape. A reader to whom a quote written
twice is the only escape keeps every backslash, so to it the literal denotes the text with its
backslashes written twice. That is the text itself exactly if there is no backslash in it, and the
text that prints an object is without one exactly if nothing in the object has to be escaped
(`backslash_not_mem_compact`).
-/

set_option autoImplicit false

namespace DescriptorSql

/-! ## Backslashes in JSON text -/

namespace Json

mutual

/-- The keys and texts in a value, at any depth. -/
def strings : Json → List String
  | .string s => [s]
  | .array items => stringsOfItems items
  | .object members => stringsOfMembers members
  | _ => []

def stringsOfItems : List Json → List String
  | [] => []
  | item :: rest => item.strings ++ stringsOfItems rest

def stringsOfMembers : List (String × Json) → List String
  | [] => []
  | (key, value) :: rest => key :: (value.strings ++ stringsOfMembers rest)

end

/-- Every character of the text stands in a JSON string as it is: there is no double quote,
backslash or control character among them. -/
def IsBare (s : String) : Prop := ∀ c ∈ s.toList, c ≠ '\x22' ∧ c ≠ '\\' ∧ 0x20 ≤ c.toNat

instance (s : String) : Decidable (IsBare s) :=
  decidable_of_iff (s.toList.all fun c => c != '\x22' && c != '\\' && decide (0x20 ≤ c.toNat)) (by
    simp [IsBare, and_assoc])

theorem backslash_not_mem_escapeChar {c : Char} :
    '\\' ∉ escapeChar c ↔ c ≠ '\x22' ∧ c ≠ '\\' ∧ 0x20 ≤ c.toNat := by
  unfold escapeChar
  split
  -- the characters with an escape of their own are all excluded
  iterate 7 decide
  · next hquote hslash _ _ _ _ _ =>
    split
    · next hcontrol => simp [Nat.not_le.mpr hcontrol]
    · next hcontrol =>
      have hne : '\\' ≠ c := fun h => hslash h.symm
      simpa [hne] using ⟨hquote, hslash, Nat.not_lt.mp hcontrol⟩

theorem backslash_not_mem_stringText {s : String} : '\\' ∉ (stringText s).toList ↔ IsBare s := by
  have hmarks : '\\' ∉ "\"".toList := by decide
  simp only [stringText, String.toList_append, String.toList_ofList, List.mem_append,
    List.mem_flatMap, hmarks, or_false, false_or, not_exists, not_and, backslash_not_mem_escapeChar]
  rfl

theorem isNumberWord_numberText (n : JsonNumber) : Sql.IsNumberWord (numberText n).toList := by
  cases n with
  | int n => exact Sql.isNumberWord_toString_int n
  | double x => exact Sql.DecimalLayout.isNumberWord_text doubleLayout x

theorem backslash_not_mem_numberText (n : JsonNumber) : '\\' ∉ (numberText n).toList :=
  (isNumberWord_numberText n).not_mem (by decide)

theorem not_mem_intercalate {c : Char} {separator : String} (hseparator : c ∉ separator.toList)
    {texts : List String} :
    c ∉ (separator.intercalate texts).toList ↔ ∀ text ∈ texts, c ∉ text.toList := by
  induction texts with
  | nil => simp
  | cons text rest ih =>
    cases rest with
    | nil => simp
    | cons next rest =>
      rw [String.intercalate_cons_cons, String.toList_append, String.toList_append,
        List.forall_mem_cons, ← ih]
      simp [hseparator]

/-- Something between two brackets that are no backslashes. -/
theorem backslash_not_mem_enclosed {opening closing inner : String}
    (hopening : '\\' ∉ opening.toList) (hclosing : '\\' ∉ closing.toList) :
    '\\' ∉ (opening ++ inner ++ closing).toList ↔ '\\' ∉ inner.toList := by
  simp [hopening, hclosing]

mutual

/-- JSON text is without backslashes if nothing in the value has to be escaped. -/
theorem backslash_not_mem_compact (value : Json) :
    '\\' ∉ value.compact.toList ↔ ∀ s ∈ value.strings, IsBare s := by
  cases value with
  | null => simp [compact, strings, scalarText]
  | bool b => cases b <;> simp [compact, strings, scalarText]
  | number n => simpa [compact, strings, scalarText] using backslash_not_mem_numberText n
  | string s => simpa [compact, strings, scalarText] using backslash_not_mem_stringText
  | array items =>
    rw [compact, backslash_not_mem_enclosed (by decide) (by decide),
      not_mem_intercalate (by decide)]
    exact backslash_not_mem_items items
  | object members =>
    rw [compact, backslash_not_mem_enclosed (by decide) (by decide),
      not_mem_intercalate (by decide)]
    exact backslash_not_mem_members members

theorem backslash_not_mem_items (items : List Json) :
    (∀ text ∈ compactItems items, '\\' ∉ text.toList) ↔ ∀ s ∈ stringsOfItems items, IsBare s := by
  cases items with
  | nil => simp [compactItems, stringsOfItems]
  | cons item rest =>
    rw [compactItems, stringsOfItems, List.forall_mem_cons, List.forall_mem_append,
      backslash_not_mem_compact item, backslash_not_mem_items rest]

theorem backslash_not_mem_members (members : List (String × Json)) :
    (∀ text ∈ compactMembers members, '\\' ∉ text.toList) ↔
      ∀ s ∈ stringsOfMembers members, IsBare s := by
  match members with
  | [] => simp [compactMembers, stringsOfMembers]
  | (key, value) :: rest =>
    have hmember : '\\' ∉ (stringText key ++ ":" ++ value.compact).toList ↔
        IsBare key ∧ ∀ s ∈ value.strings, IsBare s := by
      rw [← backslash_not_mem_stringText, ← backslash_not_mem_compact value]
      simp
    rw [compactMembers, stringsOfMembers, List.forall_mem_cons, List.forall_mem_cons,
      List.forall_mem_append, hmember, backslash_not_mem_members rest, and_assoc]

end

end Json

/-! ## Literals -/

namespace Text

theorem length_double (mark : Char) (cs : List Char) :
    (double mark cs).length = cs.length + cs.count mark := by
  induction cs with
  | nil => rfl
  | cons c cs ih =>
    rw [double_cons, List.length_append, ih, List.length_cons, List.count_cons]
    by_cases hc : c = mark
    · simp [hc]
      omega
    · simp [hc]
      omega

/-- Only a text without the mark is left as it is. -/
theorem double_eq_self_iff {mark : Char} {cs : List Char} : double mark cs = cs ↔ mark ∉ cs := by
  constructor
  · intro h
    have hlength := congrArg List.length h
    rw [length_double] at hlength
    exact List.count_eq_zero.mp (by omega)
  · intro h
    induction cs with
    | nil => rfl
    | cons c cs ih =>
      rw [List.mem_cons, not_or] at h
      rw [double_cons, if_neg (Ne.symm h.1), ih h.2]
      rfl

end Text

namespace Sql

/-- To a reader for whom a quote written twice is the only escape, a quoted text denotes itself if
no backslash is in it. -/
theorem readLiteral_quoteText_eq_self_iff (s : String) :
    readLiteral .quotes (quoteText s).toList = some (s.toList, []) ↔ '\\' ∉ s.toList := by
  rw [readLiteral_quoteText, ← Text.double_eq_self_iff]
  simp [EscapeRule.read]

/-- Where a quote written twice is the only escape, the literal of a text that is data denotes the
text with its backslashes written twice, which is the text itself if and only if it has none. The
literal of an object denotes the text that prints the object, again with its backslashes written
twice, and that text has none if and only if no key and no text in the object has to be escaped. -/
theorem literal_denotes (s : String) (hraw : stripRaw? s = none) (hdata : ¬ PassesThrough s.toList)
    (members : List (String × Json)) :
    (readLiteral .quotes (literal (.string s)).toList = some (Text.double '\\' s.toList, []) ∧
        (readLiteral .quotes (literal (.string s)).toList = some (s.toList, []) ↔
          '\\' ∉ s.toList)) ∧
      readLiteral .quotes (literal (.object members)).toList =
          some (Text.double '\\' (Json.object members).compact.toList, []) ∧
        (readLiteral .quotes (literal (.object members)).toList =
            some ((Json.object members).compact.toList, []) ↔
          ∀ text ∈ (Json.object members).strings, Json.IsBare text) := by
  have htext : literal (.string s) = quoteText s := by
    rw [literal, textLiteral, hraw]
    simp [mt passesThrough_iff.mpr hdata]
  have hobject : literal (.object members) = quoteText (Json.object members).compact := by
    rw [literal]
  refine ⟨⟨?_, ?_⟩, ?_, ?_⟩
  · rw [htext, readLiteral_quoteText]
    rfl
  · rw [htext, readLiteral_quoteText_eq_self_iff]
  · rw [hobject, readLiteral_quoteText]
    rfl
  · rw [hobject, readLiteral_quoteText_eq_self_iff, Json.backslash_not_mem_compact]

theorem not_passesThrough_path : ¬ PassesThrough "C:\\temp".toList := by
  rw [passesThrough_iff]
  decide +kernel

/-- A path with a backslash in it, and an object with a text that prints without one. -/
theorem literal_denotes_path :
    stripRaw? "C:\\temp" = none ∧ ¬ PassesThrough "C:\\temp".toList ∧
      readLiteral .quotes (literal (.string "C:\\temp")).toList =
        some ("C:\\\\temp".toList, []) ∧
      readLiteral .quotes (literal (.object [("by", .string "it's me")])).toList =
        some ("\x7b\"by\":\"it's me\"\x7d".toList, []) := by
  have hdenotes := literal_denotes "C:\\temp" (by decide) not_passesThrough_path
    [("by", .string "it's me")]
  refine ⟨by decide, not_passesThrough_path, ?_, ?_⟩
  · rw [hdenotes.1.1]
    decide +kernel
  · rw [hdenotes.2.2.mpr (by decide +kernel)]
    decide +kernel

/-- Neither a text nor an object is denoted by its literal in every case: a backslash in the text,
or in the text that prints the object, comes out twice. -/
theorem not_literal_denotes_itself :
    (¬ ∀ s : String, stripRaw? s = none → ¬ PassesThrough s.toList →
        readLiteral .quotes (literal (.string s)).toList = some (s.toList, [])) ∧
      ¬ ∀ members : List (String × Json),
        readLiteral .quotes (literal (.object members)).toList =
          some ((Json.object members).compact.toList, []) := by
  constructor
  · intro h
    exact absurd (h "C:\\temp" (by decide) not_passesThrough_path)
      (by decide +kernel)
  · intro h
    exact absurd (h [("said", .string "\"")]) (by decide +kernel)

end Sql

end DescriptorSql
