import DescriptorSql.Proofs.Binding.Seam

/-!
# `Proofs/Binding/Renumbering.lean` — two texts in a row

Binding two texts with a blank between them binds the one and then the other (`bind_append`). The
values of the second come behind those of the first, so the numbers that were put into the second
text go up by the number of values of the first. Numbers that stood in the text, or that are part of
a name or a piece filled in, stay: a bound text is a row of *stretches*, and only those that stand
for a value are numbers (`Stretch`).
-/

set_option autoImplicit false

namespace DescriptorSql.Binding

/-! ## Stretches -/

/-- A stretch of a bound text: characters, or the number of a value. -/
inductive Stretch where
  | text (chars : List Char)
  | number (k : Nat)
  deriving DecidableEq, Repr

namespace Stretch

def chars : Stretch → List Char
  | text chars => chars
  | number k => '$' :: (Nat.repr k).toList

def number? : Stretch → Option Nat
  | text _ => none
  | number k => some k

/-- The stretch behind `n` more values. -/
def shift (n : Nat) : Stretch → Stretch
  | text chars => text chars
  | number k => number (n + k)

end Stretch

/-- What a piece becomes after a number of values: the number of the next value if it stands for
one. -/
def Piece.stretch (values : Entries String Json) (bound : Nat) : Piece → Stretch
  | parameter _ .value _ => .number (bound + 1)
  | piece => .text (piece.replacement values bound)

/-- The stretches that pieces become after a number of values. -/
def stretches (values : Entries String Json) (bound : Nat) : List Piece → List Stretch
  | [] => []
  | piece :: rest =>
    piece.stretch values bound ::
      stretches values (bound + (boundValues values [piece]).length) rest

/-- The text that stretches spell. -/
def textOf (stretches : List Stretch) : String := String.ofList (stretches.flatMap Stretch.chars)

variable {values : Entries String Json}

theorem chars_stretch (bound : Nat) (piece : Piece) :
    (piece.stretch values bound).chars = piece.replacement values bound := by
  cases piece with
  | text chars => rfl
  | parameter quote sigil name => cases sigil <;> rfl

/-- The stretches spell what the pieces are replaced by. -/
theorem flatMap_stretches (bound : Nat) (pieces : List Piece) :
    (stretches values bound pieces).flatMap Stretch.chars = replaced values bound pieces := by
  induction pieces generalizing bound with
  | nil => rfl
  | cons piece rest ih => rw [stretches, List.flatMap_cons, chars_stretch, ih, replaced]

theorem shift_stretch (n bound : Nat) (piece : Piece) :
    (piece.stretch values bound).shift n = piece.stretch values (n + bound) := by
  cases piece with
  | text chars => rfl
  | parameter quote sigil name => cases sigil <;> rfl

/-- After more values the stretches are the same, with higher numbers. -/
theorem map_shift_stretches (n bound : Nat) (pieces : List Piece) :
    (stretches values bound pieces).map (Stretch.shift n) =
      stretches values (n + bound) pieces := by
  induction pieces generalizing bound with
  | nil => rfl
  | cons piece rest ih => rw [stretches, List.map_cons, shift_stretch, ih, stretches, Nat.add_assoc]

/-- The numbers among stretches are those of the values, in order. -/
theorem numbers_stretches (bound : Nat) (pieces : List Piece) :
    (stretches values bound pieces).filterMap Stretch.number? =
      List.range' (bound + 1) (boundValues values pieces).length := by
  induction pieces generalizing bound with
  | nil => rfl
  | cons piece rest ih =>
    rw [stretches, List.filterMap_cons, ih, boundValues_cons values piece rest]
    cases piece with
    | text chars => rfl
    | parameter quote sigil name =>
      cases sigil with
      | value =>
        have hlength : (boundValues values (.parameter quote .value name :: rest)).length =
            (boundValues values rest).length + 1 := rfl
        rw [← boundValues_cons, hlength, List.range'_succ]
        rfl
      | identifier | verbatim => rfl

/-! ## Behind a blank -/

theorem isSeam_blank : IsSeam ' ' := ⟨⟨by decide, by decide +kernel, by decide⟩, by decide +kernel⟩

/-- Behind a character that does not glue, the segments are those of a text that begins there. -/
theorem segments_of_isGlue_eq_false {c : Char} (hc : isGlue c = false) (runs : List Run) :
    segments (some c) runs = segments none runs := by
  have hfree : ∀ dotted, isFree dotted (some c) = isFree dotted none := by
    intro dotted
    simp [isFree, hc]
  have hoccurrence :
      ∀ (opening : Option Char) (count : Nat) (name : List Char) (closing after : Option Char),
      Occurrence.segments ⟨some c, opening, count, name, closing, after⟩ =
        Occurrence.segments ⟨none, opening, count, name, closing, after⟩ := by
    intro opening count name closing after
    cases opening <;> simp [Occurrence.segments, Occurrence.chars, Occurrence.isQuoted,
      Occurrence.isFreeWithQuotes, Occurrence.isFreeWithoutQuotes, hfree]
  -- only the first occurrence sees what is in front of the text
  unfold segments
  split <;> simp only [hoccurrence]

theorem segmentsOfText_append (a b : String) :
    segmentsOfText (a ++ " " ++ b) = segmentsOfText a ++ .text [' '] :: segmentsOfText b := by
  have hblank : " " = String.singleton ' ' := rfl
  rw [hblank, segmentsOfText_seam isSeam_blank, segments_of_isGlue_eq_false isSeam_blank.isGlue_eq,
    segmentsOfText, segmentsOfText]

/-- Filling in what comes behind other values fails as it does without them, and otherwise gives the
same stretches with higher numbers. -/
theorem fillAll_behind (values : Entries String Json) (n : Nat) (pieces : List Piece) :
    fillAll values n (pieces.map Piece.segment) =
      (fun query : BoundQuery =>
          ⟨textOf ((stretches values 0 pieces).map (Stretch.shift n)), query.values⟩) <$>
        fillAll values 0 (pieces.map Piece.segment) := by
  cases hfind : (names pieces).find? (fun name => (Entries.get? values name).isNone) with
  | some name =>
    rw [fillAll_missing hfind, fillAll_missing hfind]
    rfl
  | none =>
    have hnames : ∀ name ∈ names pieces, (Entries.get? values name).isSome := by
      intro name hname
      have hvalue := List.find?_eq_none.mp hfind name hname
      exact Option.isSome_iff_ne_none.mpr (mt Option.isNone_iff_eq_none.mpr hvalue)
    rw [fillAll_pieces hnames, fillAll_pieces hnames, textOf, map_shift_stretches,
      flatMap_stretches]
    rfl

/-- Two texts with a blank between them are bound one after the other. -/
theorem bind_blank {a b : String} (ha : Text.isBlankText a = false)
    (hb : Text.isBlankText b = false) (values : Entries String Json) :
    bind values (a ++ " " ++ b) = do
      let first ← bind values a
      let second ← bind values b
      return ⟨first.sql ++ " " ++
          textOf ((stretches values 0 (piecesOfText b)).map (Stretch.shift first.values.length)),
        first.values ++ second.values⟩ := by
  have hblank : Text.isBlankText (a ++ " " ++ b) = false := by
    simp only [Text.isBlankText] at ha
    simp [Text.isBlankText, ha]
  have hfirst : bind values a = fillAll values 0 (segmentsOfText a) := by
    rw [bind, ha]
    rfl
  have hsecond : bind values b = fillAll values 0 ((piecesOfText b).map Piece.segment) :=
    bind_eq_fillAll hb
  -- the blank is a segment of its own, and the numbers behind it are shifted
  have htext : ∀ n, fillAll values n (.text [' '] :: segmentsOfText b) =
      (fun query : BoundQuery =>
          ⟨" " ++ textOf ((stretches values 0 (piecesOfText b)).map (Stretch.shift n)),
            query.values⟩) <$>
        bind values b := by
    intro n
    have hspace : fill values n (.text [' ']) = .ok (" ", []) := rfl
    have hsegments : segmentsOfText b = (piecesOfText b).map Piece.segment := segments_eq none _
    rw [fillAll_cons hspace, List.length_nil, Nat.add_zero, hsegments, fillAll_behind, hsecond]
    cases fillAll values 0 ((piecesOfText b).map Piece.segment) <;> rfl
  -- the segments of both texts are filled one after the other
  rw [bind, hblank, segmentsOfText_append, hfirst]
  show fillAll values 0 _ = _
  rw [fillAll_append]
  cases fillAll values 0 (segmentsOfText a) with
  | error error => rfl
  | ok first =>
    show fillAll values (0 + first.values.length) _ >>= _ = _
    rw [Nat.zero_add, htext]
    cases bind values b with
    | error error => rfl
    | ok second =>
      show Except.ok _ = Except.ok _
      rw [String.append_assoc]

/-- Two texts with a blank between them fail with the error of the first, or else with that of the
second. Without an error the values of the second come behind those of the first, and so do the
numbers that were put into the second text for them. -/
theorem bind_append {a b : String} (ha : Text.isBlankText a = false)
    (hb : Text.isBlankText b = false) (values : Entries String Json) :
    (∀ error, bind values a = .error error → bind values (a ++ " " ++ b) = .error error) ∧
      ∀ first, bind values a = .ok first →
        (∀ error, bind values b = .error error → bind values (a ++ " " ++ b) = .error error) ∧
        ∀ second, bind values b = .ok second →
          second.sql = textOf (stretches values 0 (piecesOfText b)) ∧
          (stretches values 0 (piecesOfText b)).filterMap Stretch.number? =
            List.range' 1 second.values.length ∧
          bind values (a ++ " " ++ b) =
            .ok ⟨first.sql ++ " " ++
                textOf
                  ((stretches values 0 (piecesOfText b)).map (Stretch.shift first.values.length)),
              first.values ++ second.values⟩ := by
  rw [bind_blank ha hb]
  refine ⟨fun error herror => ?_,
    fun first hfirst => ⟨fun error herror => ?_, fun second hsecond => ?_⟩⟩
  · rw [herror]
    rfl
  · rw [hfirst, herror]
    rfl
  · refine ⟨?_, ?_, ?_⟩
    · rw [eq_of_bind hsecond, textOf, flatMap_stretches]
    · rw [eq_of_bind hsecond, numbers_stretches]
    · rw [hfirst, hsecond]
      rfl

/-- Two texts between which a quotation and what could be a parameter go on. -/
def quotedHead : String := "SELECT @id, '@"

def quotedTail : String := "id', '@id', $1"

/-- The seam keeps the at sign and the name apart. The number that was put in goes up, and the one
that stood in the text stays. -/
theorem bind_append_quotedHead :
    bind mailValues quotedHead = .ok ⟨"SELECT $1, '@", [.number (.int 7)]⟩ ∧
      bind mailValues quotedTail = .ok ⟨"id', $1, $1", [.number (.int 7)]⟩ ∧
      bind mailValues (quotedHead ++ " " ++ quotedTail) =
        .ok ⟨"SELECT $1, '@ id', $2, $1", [.number (.int 7), .number (.int 7)]⟩ := by
  have hhead : bind mailValues quotedHead = .ok ⟨"SELECT $1, '@", [.number (.int 7)]⟩ :=
    bind_eq_ok _ ["id"] (by decide +kernel) (by decide +kernel) (by decide +kernel)
      (by decide +kernel)
  have htail : bind mailValues quotedTail = .ok ⟨"id', $1, $1", [.number (.int 7)]⟩ :=
    bind_eq_ok _ ["id"] (by decide +kernel) (by decide +kernel) (by decide +kernel)
      (by decide +kernel)
  have hjoined :=
    bind_append (a := quotedHead) (b := quotedTail) (by decide +kernel) (by decide +kernel)
    mailValues
  obtain ⟨-, -, hok⟩ := (hjoined.2 _ hhead).2 _ htail
  have htext : textOf ((stretches mailValues 0 (piecesOfText quotedTail)).map (Stretch.shift 1)) =
      "id', $2, $1" := by decide +kernel
  rw [List.length_singleton, htext] at hok
  exact ⟨hhead, htail, hok⟩

end DescriptorSql.Binding
