import DescriptorSql.Proofs.Lexical.Denotation
import DescriptorSql.Proofs.Statement.Provenance

/-!
# `Proofs/Statement/Marker.lean` — the raw marker is not written

Raw SQL is marked by a text that begins and ends with the character U+0000, and the formatting of
names and values takes the marker off. So if names and values have that character in a marker at
their start and nowhere else, and the parts of names and literals do not have it at all, no
statement has it (`Statement.nul_not_mem_compile`).

For the parts there is no marker to take off: a column of a relation is put behind its table before
the name is formatted, and a column of a nested relation is quoted as the key of a JSON object. A
raw one brings its marker into the statement (`Statement.nul_mem_compile`).
-/

set_option autoImplicit false

namespace DescriptorSql

namespace Json

/-! ## JSON text is without control characters -/

theorem printing_digitChar {n : Nat} (hn : n < 16) : 0x20 ≤ (Nat.digitChar n).toNat := by
  interval_cases n <;> decide

/-- A control character is escaped by a backslash with letters or digits behind it. -/
theorem printing_of_mem_escapeChar {c d : Char} (hc : c ∈ escapeChar d) : 0x20 ≤ c.toNat := by
  unfold escapeChar at hc
  split at hc
  -- the characters with an escape of their own, two characters each
  iterate 7
    simp only [List.mem_cons, List.not_mem_nil, or_false] at hc
    obtain rfl | rfl := hc <;> decide
  split at hc
  · next hcontrol =>
    simp only [List.mem_cons, List.not_mem_nil, or_false] at hc
    obtain rfl | rfl | rfl | rfl | rfl | rfl := hc
    iterate 4 decide
    · exact printing_digitChar (by omega)
    · exact printing_digitChar (by omega)
  · next hcontrol =>
    obtain rfl := List.mem_singleton.mp hc
    exact Nat.not_lt.mp hcontrol

theorem printing_of_isNumberPart {c : Char} (hc : Sql.isNumberPart c = true) : 0x20 ≤ c.toNat := by
  rw [Sql.isNumberPart, Bool.or_eq_true] at hc
  rcases hc with hc | hc
  · rw [Decimal.isDigit, Bool.and_eq_true, decide_eq_true_eq, decide_eq_true_eq] at hc
    exact Nat.le_trans (by decide) (Char.le_def.mp hc.1)
  · have hparts : ['-', '+', '.', 'e', 'E'].all (fun d => decide (0x20 ≤ d.toNat)) = true := by
      decide
    exact of_decide_eq_true (List.all_eq_true.mp hparts c (List.contains_iff_mem.mp hc))

/-- The text is without control characters. -/
def IsPrinting (text : String) : Prop := ∀ c ∈ text.toList, 0x20 ≤ c.toNat

theorem isPrinting_append {a b : String} : IsPrinting (a ++ b) ↔ IsPrinting a ∧ IsPrinting b := by
  simp [IsPrinting, or_imp, forall_and]

theorem isPrinting_intercalate {texts : List String} (h : ∀ text ∈ texts, IsPrinting text) :
    IsPrinting (",".intercalate texts) := by
  intro c hc
  by_contra hcontrol
  have hcomma : c ∉ ",".toList := by
    intro hmem
    obtain rfl := List.mem_singleton.mp hmem
    exact hcontrol (by decide)
  exact (not_mem_intercalate hcomma).mpr (fun text htext hmem => hcontrol (h text htext c hmem)) hc

/-- Every character of a text is written as itself or escaped. -/
theorem isPrinting_stringText (s : String) : IsPrinting (stringText s) := by
  have hmark : IsPrinting "\"" := by simp [IsPrinting]
  rw [stringText, isPrinting_append, isPrinting_append]
  refine ⟨⟨hmark, ?_⟩, hmark⟩
  intro c hc
  rw [String.toList_ofList, List.mem_flatMap] at hc
  obtain ⟨d, -, hc⟩ := hc
  exact printing_of_mem_escapeChar hc

theorem isPrinting_numberText (n : JsonNumber) : IsPrinting (numberText n) :=
  fun c hc => printing_of_isNumberPart ((isNumberWord_numberText n).parts c hc)

mutual

/-- JSON text has its control characters escaped. -/
theorem isPrinting_compact (value : Json) : IsPrinting value.compact := by
  cases value with
  | null => simp [compact, scalarText, IsPrinting]
  | bool b => cases b <;> simp [compact, scalarText, IsPrinting]
  | number n => simpa [compact, scalarText] using isPrinting_numberText n
  | string s => simpa [compact, scalarText] using isPrinting_stringText s
  | array items =>
    rw [compact, isPrinting_append, isPrinting_append]
    exact ⟨⟨by simp [IsPrinting], isPrinting_intercalate (isPrinting_items items)⟩,
      by simp [IsPrinting]⟩
  | object members =>
    rw [compact, isPrinting_append, isPrinting_append]
    exact ⟨⟨by simp [IsPrinting], isPrinting_intercalate (isPrinting_members members)⟩,
      by simp [IsPrinting]⟩

theorem isPrinting_items (items : List Json) : ∀ text ∈ compactItems items, IsPrinting text := by
  cases items with
  | nil => simp [compactItems]
  | cons item rest =>
    exact List.forall_mem_cons.mpr ⟨isPrinting_compact item, isPrinting_items rest⟩

theorem isPrinting_members (members : List (String × Json)) :
    ∀ text ∈ compactMembers members, IsPrinting text := by
  match members with
  | [] => simp [compactMembers]
  | (key, value) :: rest =>
    refine List.forall_mem_cons.mpr ⟨?_, isPrinting_members rest⟩
    rw [isPrinting_append, isPrinting_append]
    exact ⟨⟨isPrinting_stringText key, by simp [IsPrinting]⟩, isPrinting_compact value⟩

end

end Json

open Sql (Lacks lacks_append lacks_intercalate lacks_words)

/-! ## Markers -/

/-- The character U+0000 stands in the text in a raw marker at its start and nowhere else. -/
def isMarked (text : String) : Bool := !((Sql.stripRaw? text).getD text).toList.contains '\x00'

mutual

/-- The texts of the value are marked, those of objects apart, which are written as JSON. -/
def Json.isMarked : Json → Bool
  | .string s => DescriptorSql.isMarked s
  | .array items => Json.itemsAreMarked items
  | _ => true

def Json.itemsAreMarked : List Json → Bool
  | [] => true
  | item :: rest => item.isMarked && Json.itemsAreMarked rest

end

/-- A name or a value may be marked, a part may not. -/
def Place.isMarked : Place → Bool
  | name text => DescriptorSql.isMarked text
  | value content => content.isMarked
  | part text => !text.toList.contains '\x00'

/-- The character of the marker is none that statements are put together from. -/
theorem isVocabulary_nul : Sql.isVocabulary '\x00' = false := by decide

/-- A marked text lacks the character once the marker is taken off. -/
theorem lacks_of_isMarked {text : String} (h : isMarked text = true) :
    Lacks '\x00' ((Sql.stripRaw? text).getD text) := by
  simpa [isMarked, Lacks] using h

/-- A raw name is written without its marker, and any other lacks the character anyway. -/
theorem lacks_identifier_of_isMarked {name : String} (h : isMarked name = true) :
    Lacks '\x00' (Sql.identifier name) := by
  have h := lacks_of_isMarked h
  cases hraw : Sql.stripRaw? name with
  | none =>
    rw [hraw] at h
    exact (Sql.lacks_identifier isVocabulary_nul hraw).mpr h
  | some sql =>
    rw [hraw] at h
    rw [Sql.identifier, hraw]
    exact h

/-- Text that is data is doubled and quoted, which does not add the character. -/
theorem lacks_textLiteral_of_isMarked {s : String} (h : isMarked s = true) :
    Lacks '\x00' (Sql.textLiteral s) := by
  have h := lacks_of_isMarked h
  cases hraw : Sql.stripRaw? s with
  | none =>
    rw [hraw] at h
    rw [Sql.textLiteral, hraw]
    dsimp only
    split
    · exact h
    · exact Sql.lacks_quoteText isVocabulary_nul h
  | some sql =>
    rw [hraw] at h
    rw [Sql.textLiteral, hraw]
    exact h

theorem lacks_numberText_nul (n : JsonNumber) : Lacks '\x00' (Sql.numberText n) :=
  (Sql.isNumberWord_numberText n).not_mem (by decide)

mutual

/-- An object is written as JSON text, in which the character is escaped. So objects need not be
marked. -/
theorem lacks_literal_of_isMarked :
    ∀ value : Json, value.isMarked = true → Lacks '\x00' (Sql.literal value)
  | .null, _ => lacks_words isVocabulary_nul (by decide)
  | .bool b, _ => lacks_words isVocabulary_nul (by cases b <;> decide)
  | .number n, _ => lacks_numberText_nul n
  | .string s, h => lacks_textLiteral_of_isMarked h
  | .array items, h => by
    have hcomma : Lacks '\x00' ", " := lacks_words isVocabulary_nul (by decide)
    have hitems := lacks_intercalate hcomma (lacks_literals_of_isMarked items h)
    rw [Sql.literal, lacks_append, lacks_append]
    exact ⟨⟨lacks_words isVocabulary_nul (by decide), hitems⟩,
      lacks_words isVocabulary_nul (by decide)⟩
  | .object members, _ =>
    Sql.lacks_quoteText isVocabulary_nul fun hmem =>
      absurd (Json.isPrinting_compact _ _ hmem) (by decide)

theorem lacks_literals_of_isMarked :
    ∀ items : List Json, Json.itemsAreMarked items = true →
      ∀ text ∈ Sql.literals items, Lacks '\x00' text
  | [], _ => by simp [Sql.literals]
  | item :: rest, h => by
    rw [Json.itemsAreMarked, Bool.and_eq_true] at h
    exact List.forall_mem_cons.mpr
      ⟨lacks_literal_of_isMarked item h.1, lacks_literals_of_isMarked rest h.2⟩

end

theorem Place.lacks_of_isMarked {place : Place} (h : place.isMarked = true) :
    Lacks '\x00' place.text := by
  cases place with
  | name text => exact lacks_identifier_of_isMarked h
  | value content => exact lacks_literal_of_isMarked content h
  | part text => simpa [isMarked, Place.text, Lacks] using h

namespace Statement

/-- The marker of raw SQL is in no statement if it is at the start of names and values only. -/
theorem nul_not_mem_compile (statement : Statement)
    (h : ∀ place ∈ statement.places, place.isMarked = true) (sql : String)
    (hok : statement.compile = .ok sql) : '\x00' ∉ sql.toList :=
  lacks_compile isVocabulary_nul (fun place hplace => place.lacks_of_isMarked (h place hplace)) hok

/-- Artists with their albums, in which everything that can be raw is. -/
def markedStatement : Statement :=
  find ⟨"\x00raw\x00public.artists", some "\x00raw\x00a", .mk { QueryBody.empty with
      select := [("\x00raw\x00total", .source "\x00raw\x00count(*)"), ("\x00raw\x00a.id", .reuse)]
      filter := some (.ofEntries [("\x00raw\x00a.name", .equals (.string "\x00raw\x00lower('X')")),
        ("exists", .existence [("albums", .anyRow)])])
      orderBy := [("\x00raw\x00random()", .asc)]
      limit := some (.placeholder "\x00raw\x002 + 3") }
    [("albums", .mk { QueryBody.empty with
      select := [("total", .source "\x00raw\x00sum(price)")] } [])],
    [("albums", ⟨.many, "\x00raw\x00public.albums", "artist_id", "\x00raw\x00a", "id",
      some "\x00raw\x00al", none⟩)]⟩

/-- Raw names and raw values in every place leave no marker behind. -/
theorem nul_not_mem_compile_markedStatement :
    ∃ sql, ((∀ place ∈ markedStatement.places, place.isMarked = true) ∧
        markedStatement.compile = .ok sql) ∧ '\x00' ∉ sql.toList := by
  have hmarked : ∀ place ∈ markedStatement.places, place.isMarked = true :=
    List.all_eq_true.mp (by decide)
  obtain ⟨sql, hok⟩ : ∃ sql, markedStatement.compile = .ok sql := exists_eq_ok (by decide)
  exact ⟨sql, ⟨hmarked, hok⟩, nul_not_mem_compile markedStatement hmarked sql hok⟩

/-- A nested relation with a raw column. -/
def rawKeyStatement : Statement :=
  find ⟨"a", none, .mk QueryBody.empty [("b", .mk { QueryBody.empty with
    select := [("\x00raw\x001", .reuse)] } [])], [("b", ⟨.one, "b", "x", "a", "y", none, none⟩)]⟩

/-- An existence test over a relation that a raw column connects. -/
def rawFieldStatement : Statement :=
  delete ⟨"a", some (.ofEntries [("exists", .existence [("b", .anyRow)])]), [],
    [("b", ⟨.one, "b", "\x00raw\x00x", "a", "y", none, none⟩)]⟩

theorem exists_nul_mem {statement : Statement}
    (h : (statement.compile.toOption.any fun sql => sql.toList.contains '\x00') = true) :
    ∃ sql, statement.compile = .ok sql ∧ '\x00' ∈ sql.toList := by
  cases hcompile : statement.compile with
  | error reason => simp [hcompile, Except.toOption] at h
  | ok sql => exact ⟨sql, rfl, by simpa [hcompile, Except.toOption] using h⟩

/-- A raw column brings its marker into the statement if it is a key of a nested relation, or if it
connects one. -/
theorem nul_mem_compile :
    ((∀ text ∈ rawKeyStatement.written, text.place.isMarked = true) ∧
        ∃ sql, rawKeyStatement.compile = .ok sql ∧ '\x00' ∈ sql.toList) ∧
      (∀ text ∈ rawFieldStatement.written, text.place.isMarked = true) ∧
        ∃ sql, rawFieldStatement.compile = .ok sql ∧ '\x00' ∈ sql.toList :=
  ⟨⟨List.all_eq_true.mp (by decide), exists_nul_mem (by decide +kernel)⟩,
    List.all_eq_true.mp (by decide), exists_nul_mem (by decide +kernel)⟩

end Statement

end DescriptorSql
