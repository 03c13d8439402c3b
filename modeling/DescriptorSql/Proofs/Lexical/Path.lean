import DescriptorSql.Proofs.Lexical.Provenance
import DescriptorSql.Proofs.Lexical.Numeral

/-!
# `Proofs/Lexical/Path.lean` — quoting a dotted name

A name is written as a path: its pieces in double quotes, with dots between them. A reader to whom a
double quote written twice is the only escape reads the whole path and finds the pieces of the name
in it (`readPath_quotePath`), so two names are never written alike. What is not quoted is written as
it is, and `StandsAsIs` lists those texts. Of a text that is written as it is, a parenthesis and
`${…}` aside, nothing is read as more than one word (`HasNoInnerBlank`), and no comment and no
quotation begins in it.
-/

set_option autoImplicit false

namespace DescriptorSql.Sql

open CharClass (isWord)

/-! ## Texts that stand as they are -/

/-- The texts that are no names and are written as they are. -/
inductive StandsAsIs : List Char → Prop
  | blank (cs : List Char) : (∀ c ∈ cs, Text.isBlank c = true) → StandsAsIs cs
  | star : StandsAsIs ['*']
  | number (front text back : List Char) : (∀ c ∈ front, Text.isBlank c = true) →
      (∀ c ∈ back, Text.isBlank c = true) → IsNumeral text → StandsAsIs (front ++ (text ++ back))
  | parenthesis (cs : List Char) : '(' ∈ cs ∨ ')' ∈ cs → StandsAsIs cs
  | question : StandsAsIs ['?']
  | questions : StandsAsIs ['?', '?']
  | colon (name : List Char) (colons : Nat) : name ≠ [] → (∀ c ∈ name, isWord c = true) →
      colons ≤ 2 → StandsAsIs (':' :: (name ++ List.replicate colons ':'))
  | brace (body : List Char) : '\x7d' ∉ body → StandsAsIs ('$' :: '\x7b' :: (body ++ ['\x7d']))
  | dollar (name : List Char) : name ≠ [] → (∀ c ∈ name, isWord c = true) →
      StandsAsIs ('$' :: name)

theorem standsAsIs_of_isPlaceholder {cs : List Char} (h : isPlaceholder cs = true) :
    StandsAsIs cs := by
  simp only [isPlaceholder, Bool.or_eq_true, isColonPlaceholder_iff, isBracePlaceholder_iff,
    isDollarPlaceholder_iff, isQuestionPlaceholder, decide_eq_true_eq] at h
  rcases h with (((rfl | rfl) | ⟨name, colons, hne, hname, hle, rfl⟩) | ⟨body, hbody, rfl⟩) |
    ⟨name, hne, hname, rfl⟩
  · exact .question
  · exact .questions
  · exact .colon name colons hne hname hle
  · exact .brace body hbody
  · exact .dollar name hne hname

/-- The test for texts that are no names takes those that stand as they are, and no others. -/
theorem isVerbatimIdentifier_iff {cs : List Char} :
    isVerbatimIdentifier cs = true ↔ StandsAsIs cs := by
  simp only [isVerbatimIdentifier, Bool.or_eq_true, List.all_eq_true, decide_eq_true_eq,
    List.contains_iff_mem]
  constructor
  · rintro (((((hblank | rfl) | hnumeric) | hopen) | hclose) | hplaceholder)
    · exact .blank cs hblank
    · exact .star
    · obtain ⟨front, text, back, hfront, hback, htext, rfl⟩ := isNumeric_iff.mp hnumeric
      exact .number front text back hfront hback htext
    · exact .parenthesis cs (Or.inl hopen)
    · exact .parenthesis cs (Or.inr hclose)
    · exact standsAsIs_of_isPlaceholder hplaceholder
  · -- the last four forms are placeholders
    have hplaceholder : ∀ {cs : List Char}, isPlaceholder cs = true →
        (((((∀ c ∈ cs, Text.isBlank c = true) ∨ cs = ['*']) ∨ isNumeric cs = true) ∨ '(' ∈ cs) ∨
          ')' ∈ cs) ∨ isPlaceholder cs = true := fun h => Or.inr h
    intro h
    cases h with
    | blank _ hblank => exact Or.inl (Or.inl (Or.inl (Or.inl (Or.inl hblank))))
    | star => exact Or.inl (Or.inl (Or.inl (Or.inl (Or.inr rfl))))
    | number front text back hfront hback htext =>
      exact Or.inl (Or.inl (Or.inl (Or.inr
        (isNumeric_iff.mpr ⟨front, text, back, hfront, hback, htext, rfl⟩))))
    | parenthesis _ hparen =>
      rcases hparen with hopen | hclose
      · exact Or.inl (Or.inl (Or.inr hopen))
      · exact Or.inl (Or.inr hclose)
    | question | questions => exact hplaceholder rfl
    | colon name colons hne hname hle =>
      exact hplaceholder (by
        simp [isPlaceholder, isColonPlaceholder_iff.mpr ⟨name, colons, hne, hname, hle, rfl⟩])
    | brace body hbody =>
      exact hplaceholder (by simp [isPlaceholder, isBracePlaceholder_iff.mpr ⟨body, hbody, rfl⟩])
    | dollar name hne hname =>
      exact hplaceholder (by
        simp [isPlaceholder, isDollarPlaceholder_iff.mpr ⟨name, hne, hname, rfl⟩])

/-! ## Reading a path -/

/-- A part of a path: a star, or a quoted text. -/
inductive Segment where
  | star
  | quoted (text : List Char)
  deriving DecidableEq, Repr

namespace Segment

/-- The piece of the name that the part denotes. -/
def text : Segment → List Char
  | star => ['*']
  | quoted text => text

/-- The part that a piece is written as. -/
def ofPiece (piece : List Char) : Segment := if piece = ['*'] then star else quoted piece

@[simp] theorem text_ofPiece (piece : List Char) : (ofPiece piece).text = piece := by
  unfold ofPiece
  split
  · next hstar => rw [hstar, text]
  · rfl

end Segment

mutual

/-- Reads a path from the front of a part: its parts, if the whole text is a path. -/
def readPath : List Char → Option (List Segment)
  | '*' :: rest => (readDotted rest).map (.star :: ·)
  | '\x22' :: rest => readQuoted [] rest
  | _ => none

/-- Reads the parts that follow behind another one, each behind a dot. -/
def readDotted : List Char → Option (List Segment)
  | [] => some []
  | '.' :: rest => readPath rest
  | _ => none

/-- Reads on in a quoted part, of which some text has been read. -/
def readQuoted (text : List Char) : List Char → Option (List Segment)
  | '\x22' :: '\x22' :: rest => readQuoted (text ++ ['\x22']) rest
  | '\x22' :: rest => (readDotted rest).map (.quoted text :: ·)
  | c :: rest => readQuoted (text ++ [c]) rest
  | [] => none

end

theorem readQuoted_close (text : List Char) {rest : List Char} (hrest : rest.head? ≠ some '\x22') :
    readQuoted text ('\x22' :: rest) = (readDotted rest).map (.quoted text :: ·) := by
  rw [readQuoted]
  rintro rest rfl
  simp at hrest

/-- A text with its quotes doubled is read up to the quote behind it. -/
theorem readQuoted_double (text piece : List Char) {rest : List Char}
    (hrest : rest.head? ≠ some '\x22') :
    readQuoted text (Text.double '\x22' piece ++ '\x22' :: rest) =
      (readDotted rest).map (.quoted (text ++ piece) :: ·) := by
  induction piece generalizing text with
  | nil => simpa using readQuoted_close text hrest
  | cons c piece ih =>
    have hnext := ih (text ++ [c])
    rw [List.append_assoc, List.singleton_append] at hnext
    rw [Text.double_cons, ← hnext]
    by_cases hc : c = '\x22'
    · rw [if_pos hc, hc, List.append_assoc, List.cons_append, List.singleton_append, readQuoted]
    · rw [if_neg hc, List.append_assoc, List.singleton_append, readQuoted]
      · rintro _ rfl
        exact absurd rfl hc
      · exact hc

theorem readPath_quotePiece (piece : List Char) {rest : List Char}
    (hrest : rest.head? ≠ some '\x22') :
    readPath (quotePiece piece ++ rest) = (readDotted rest).map (.ofPiece piece :: ·) := by
  unfold quotePiece Segment.ofPiece
  split
  · next hstar => rw [hstar, List.singleton_append, readPath]
  · rw [Text.enclose, List.cons_append, List.cons_append, List.append_assoc, List.singleton_append,
      readPath, readQuoted_double [] piece hrest, List.nil_append]

/-- Quoted pieces with dots between them are read as those pieces. -/
theorem readPath_intercalate (first : List Char) (rest : List (List Char)) :
    readPath (['.'].intercalate ((first :: rest).map quotePiece)) =
      some ((first :: rest).map .ofPiece) := by
  induction rest generalizing first with
  | nil =>
    have hread : readPath (quotePiece first ++ []) = _ := readPath_quotePiece first (by simp)
    rw [List.append_nil] at hread
    rw [List.map_singleton, List.intercalate_singleton, hread, readDotted]
    rfl
  | cons second rest ih =>
    rw [List.map_cons, List.map_cons, List.intercalate_cons_cons, List.append_assoc,
      readPath_quotePiece first (by simp), List.singleton_append, readDotted, ← List.map_cons,
      ih second]
    rfl

/-- A quoted name is read as its pieces. -/
theorem readPath_quotePath (cs : List Char) :
    readPath (quotePath cs) = some ((Text.splitAt '.' cs).map .ofPiece) := by
  obtain ⟨first, rest, hpieces⟩ := List.exists_cons_of_ne_nil (Text.splitAt_ne_nil '.' cs)
  rw [quotePath, hpieces, readPath_intercalate]

theorem map_text_ofPiece (pieces : List (List Char)) :
    (pieces.map Segment.ofPiece).map Segment.text = pieces := by
  simp [Function.comp_def]

theorem quotePath_injective : Function.Injective quotePath := by
  intro as bs h
  have hread := congrArg readPath h
  rw [readPath_quotePath, readPath_quotePath, Option.some.injEq] at hread
  have hpieces := congrArg (List.map Segment.text) hread
  rw [map_text_ofPiece, map_text_ofPiece] at hpieces
  rw [← Text.intercalate_splitAt '.' as, hpieces, Text.intercalate_splitAt]

/-! ## Names that are written as they are -/

theorem length_quotePiece (piece : List Char) : piece.length ≤ (quotePiece piece).length ∧
    (piece ≠ ['*'] → piece.length < (quotePiece piece).length) := by
  have hdouble : piece.length ≤ (Text.double '\x22' piece).length := by
    induction piece with
    | nil => simp
    | cons c piece ih =>
      rw [Text.double_cons]
      split <;> simp <;> omega
  unfold quotePiece
  split
  · next hstar => exact ⟨le_rfl, fun hne => absurd hstar hne⟩
  · simp [Text.enclose]
    omega

/-- Quoting leaves only stars as they are. -/
theorem eq_star_of_intercalate {first : List Char} {rest : List (List Char)}
    (h : (['.'].intercalate ((first :: rest).map quotePiece)).length ≤
      (['.'].intercalate (first :: rest)).length) : ∀ piece ∈ first :: rest, piece = ['*'] := by
  -- quoting makes no piece shorter, so the whole is as long only if every piece is
  have hgrows : ∀ (rest : List (List Char)) (first : List Char),
      (['.'].intercalate (first :: rest)).length ≤
        (['.'].intercalate ((first :: rest).map quotePiece)).length := by
    intro rest
    induction rest with
    | nil => simpa using fun first => (length_quotePiece first).1
    | cons second rest ih =>
      intro first
      have hfirst := (length_quotePiece first).1
      have hrest := ih second
      simp only [List.map_cons, List.intercalate_cons_cons, List.length_append] at hrest ⊢
      omega
  -- and the star is the only piece that stays as long as it was
  induction rest generalizing first with
  | nil =>
    have hfirst : first = ['*'] := by
      by_contra hne
      have := (length_quotePiece first).2 hne
      simp at h
      omega
    simpa using hfirst
  | cons second rest ih =>
    have hfirst := length_quotePiece first
    have hrest := hgrows rest second
    simp only [List.map_cons, List.intercalate_cons_cons, List.length_append] at h hrest
    refine List.forall_mem_cons.mpr ⟨?_, ih ?_⟩
    · by_contra hne
      have := hfirst.2 hne
      omega
    · simp only [List.map_cons]
      omega

/-- A path that quoting leaves as it is has stars only. -/
theorem mem_of_quotePath_eq_self {cs : List Char} (h : quotePath cs = cs) :
    ∀ c ∈ cs, c = '*' ∨ c = '.' := by
  obtain ⟨first, rest, hpieces⟩ := List.exists_cons_of_ne_nil (Text.splitAt_ne_nil '.' cs)
  have hjoined := Text.intercalate_splitAt '.' cs
  rw [quotePath, hpieces] at h
  rw [hpieces] at hjoined
  have hstars : ∀ piece ∈ first :: rest, piece = ['*'] :=
    eq_star_of_intercalate (by rw [h, hjoined])
  intro c hc
  rw [← hjoined] at hc
  rcases mem_or_exists_of_mem_intercalate hc with hdot | ⟨piece, hpiece, hc⟩
  · exact Or.inr (by simpa using hdot)
  · rw [hstars piece hpiece] at hc
    exact Or.inl (by simpa using hc)

/-- Blanks stand at the ends of the text only. -/
def HasNoInnerBlank (cs : List Char) : Prop :=
  ∃ front body back, (∀ c ∈ front, Text.isBlank c = true) ∧ (∀ c ∈ back, Text.isBlank c = true) ∧
    (∀ c ∈ body, Text.isBlank c = false) ∧ cs = front ++ (body ++ back)

theorem hasNoInnerBlank_of_forall {cs : List Char} (h : ∀ c ∈ cs, Text.isBlank c = false) :
    HasNoInnerBlank cs :=
  ⟨[], cs, [], by simp, by simp, h, by simp⟩

theorem harmless_of_isVerbatimIdentifier {cs : List Char} (h : isVerbatimIdentifier cs = true)
    (hopen : '(' ∉ cs) (hclose : ')' ∉ cs) (hbrace : ¬ IsBraceText cs) :
    IsHarmless cs ∧ HasNoInnerBlank cs := by
  simp only [isVerbatimIdentifier, Bool.or_eq_true, List.all_eq_true, decide_eq_true_eq,
    List.contains_iff_mem, hopen, hclose, or_false] at h
  rcases h with ((hblank | rfl) | hnumeric) | hplaceholder
  · refine ⟨isHarmless_of_not_mem_signs fun c hc => not_mem_signs_of_isBlank (hblank c hc), ?_⟩
    exact ⟨cs, [], [], hblank, by simp, by simp, by simp⟩
  · exact ⟨isHarmless_of_not_mem_signs (by simp [signs]),
      hasNoInnerBlank_of_forall (by simp [Text.isBlank])⟩
  · refine ⟨isHarmless_of_isNumeric hnumeric, ?_⟩
    obtain ⟨front, text, back, hfront, hback, htext, rfl⟩ := isNumeric_iff.mp hnumeric
    exact ⟨front, text, back, hfront, hback, fun c hc => isBlank_eq_false_of_isWordPart
      (isWordPart_of_isNumeralPart (htext.parts c hc)), rfl⟩
  · have hpasses : PassesThrough cs :=
      passesThrough_iff.mpr (by simp [isVerbatimText, hplaceholder])
    have hplain := isPlainWord_of_isPlaceholder hplaceholder
      (Bool.eq_false_iff.mpr (mt isBracePlaceholder_iff.mp hbrace))
    exact ⟨isHarmless_of_passesThrough hpasses hbrace, hasNoInnerBlank_of_forall
      fun c hc => isBlank_eq_false_of_isWordPart (hplain.parts c hc)⟩

theorem harmless_of_quotePath_eq_self {cs : List Char} (h : quotePath cs = cs) :
    IsHarmless cs ∧ HasNoInnerBlank cs := by
  have hmem := mem_of_quotePath_eq_self h
  constructor
  · refine isHarmless_of_not_mem_signs fun c hc => ?_
    rcases hmem c hc with rfl | rfl <;> decide
  · refine hasNoInnerBlank_of_forall fun c hc => ?_
    rcases hmem c hc with rfl | rfl <;> decide

/-! ## Identifiers -/

theorem identifier_of_standsAsIs {name : String} (hraw : stripRaw? name = none)
    (h : StandsAsIs name.toList) : identifier name = name := by
  rw [identifier, hraw]
  exact if_pos (isVerbatimIdentifier_iff.mpr h)

theorem toList_identifier {name : String} (hraw : stripRaw? name = none)
    (h : ¬ StandsAsIs name.toList) : (identifier name).toList = quotePath name.toList := by
  rw [identifier, hraw]
  dsimp only
  rw [if_neg (mt isVerbatimIdentifier_iff.mp h), String.toList_ofList]

/-- A name that is not marked as SQL is written as it is, if it is one of the texts that stand as
they are. Any other is written as a path that is read as the pieces of the name, so no other such
name is written alike. And whatever is written as it is, a parenthesis and `${…}` aside, neither
ends a quotation nor begins a comment, and it has blanks at its ends only. -/
theorem identifier_quotes (name : String) (hraw : stripRaw? name = none) :
    (StandsAsIs name.toList → identifier name = name) ∧
      (¬ StandsAsIs name.toList →
        (∃ segments, readPath (identifier name).toList = some segments ∧
          segments.map Segment.text = Text.splitAt '.' name.toList) ∧
        ∀ other, stripRaw? other = none → ¬ StandsAsIs other.toList →
          identifier other = identifier name → other = name) ∧
      (identifier name = name → '(' ∉ name.toList → ')' ∉ name.toList →
        ¬ IsBraceText name.toList → IsHarmless name.toList ∧ HasNoInnerBlank name.toList) := by
  refine ⟨identifier_of_standsAsIs hraw, fun hname => ⟨?_, ?_⟩, ?_⟩
  · rw [toList_identifier hraw hname, readPath_quotePath]
    exact ⟨_, rfl, map_text_ofPiece _⟩
  · intro other hother hverbatim heq
    have hpaths := congrArg String.toList heq
    rw [toList_identifier hother hverbatim, toList_identifier hraw hname] at hpaths
    exact String.toList_inj.mp (quotePath_injective hpaths)
  · intro hsame hopen hclose hbrace
    by_cases hname : StandsAsIs name.toList
    · exact harmless_of_isVerbatimIdentifier (isVerbatimIdentifier_iff.mpr hname) hopen
        hclose hbrace
    · apply harmless_of_quotePath_eq_self
      rw [← toList_identifier hraw hname, hsame]

/-- A table and all its columns, with a quote and a blank in the name of the table. -/
theorem identifier_quotes_columns :
    stripRaw? "the \"albums\".*" = none ∧
      ∃ segments, readPath (identifier "the \"albums\".*").toList = some segments ∧
        segments.map Segment.text = ["the \"albums\"".toList, ['*']] := by
  have hname : ¬ StandsAsIs "the \"albums\".*".toList := by
    rw [← isVerbatimIdentifier_iff]
    decide +kernel
  refine ⟨by decide, ?_⟩
  have hread := ((identifier_quotes "the \"albums\".*" (by decide)).2.1 hname).1
  rwa [show Text.splitAt '.' "the \"albums\".*".toList = ["the \"albums\"".toList, ['*']] by
    decide +kernel] at hread

end DescriptorSql.Sql
