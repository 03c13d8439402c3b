import DescriptorSql.Proofs.Binding.Replacement
import DescriptorSql.Proofs.Binding.Seam

/-!
# `Proofs/Binding/Wrapped.lean` — parameters between two equal quotes

A parameter between two equal quotes is replaced together with them if it *stands alone*
(`Wrapping.StandsAlone`): nothing outside the quotes glues to them, and the opening one is not taken
by a name behind at signs that ends right in front of it. Otherwise the parameter is replaced all
the same, between its quotes, which stay (`bind_wrapping`). It is never left as it is.

The pieces of a text are compared after `chunks`, which cuts the text between parameters into single
characters: whether a quote that stays is a piece of its own does not matter to what a text becomes.
-/

set_option autoImplicit false

namespace DescriptorSql.Binding

open CharClass (isWord)

/-! ## Pieces cut small -/

namespace Piece

/-- Text as single characters; parameters are not cut. -/
def chunks : Piece → List Piece
  | text chars => chars.map fun c => text [c]
  | parameter quote sigil name => [parameter quote sigil name]

end Piece

def chunks (pieces : List Piece) : List Piece := pieces.flatMap Piece.chunks

def chunksOfText (sql : String) : List Piece := chunks (piecesOfText sql)

theorem chunks_append (pieces rest : List Piece) :
    chunks (pieces ++ rest) = chunks pieces ++ chunks rest := List.flatMap_append

theorem chunks_cons (piece : Piece) (rest : List Piece) :
    chunks (piece :: rest) = piece.chunks ++ chunks rest := List.flatMap_cons

variable {values : Entries String Json}

theorem spelled_characters (chars : List Char) :
    spelled (chars.map fun c => .text [c]) = chars := by
  induction chars with
  | nil => rfl
  | cons c rest ih => rw [List.map_cons, spelled_cons, ih, Piece.chars, List.singleton_append]

/-- The text is the same, -/
@[simp] theorem spelled_chunks (pieces : List Piece) :
    spelled (chunks pieces) = spelled pieces := by
  induction pieces with
  | nil => rfl
  | cons piece rest ih =>
    rw [chunks_cons, spelled_append, ih, spelled_cons]
    cases piece with
    | text chars => rw [Piece.chunks, spelled_characters, Piece.chars]
    | parameter quote sigil name => rw [Piece.chunks, spelled_cons, spelled_nil, List.append_nil]

theorem names_append (pieces rest : List Piece) :
    names (pieces ++ rest) = names pieces ++ names rest := List.filterMap_append

theorem names_characters (chars : List Char) : names (chars.map fun c => .text [c]) = [] := by
  simp [names, Piece.name?]

/-- the parameters are the same, -/
@[simp] theorem names_chunks (pieces : List Piece) : names (chunks pieces) = names pieces := by
  induction pieces with
  | nil => rfl
  | cons piece rest ih =>
    rw [chunks_cons, names_append, ih, names_cons]
    cases piece with
    | text chars => rw [Piece.chunks, names_characters]; rfl
    | parameter quote sigil name => rfl

theorem boundValues_append (values : Entries String Json) (pieces rest : List Piece) :
    boundValues values (pieces ++ rest) = boundValues values pieces ++ boundValues values rest := by
  rw [boundValues, List.filterMap_append, List.map_append, boundValues, boundValues]

theorem boundValues_characters (chars : List Char) :
    boundValues values (chars.map fun c => .text [c]) = [] := by
  simp [boundValues, Piece.valueName?]

theorem boundValues_piece_chunks (piece : Piece) :
    boundValues values piece.chunks = boundValues values [piece] := by
  cases piece with
  | text chars => exact boundValues_characters chars
  | parameter quote sigil name => rfl

/-- and so are the values that are bound -/
@[simp] theorem boundValues_chunks (pieces : List Piece) :
    boundValues values (chunks pieces) = boundValues values pieces := by
  induction pieces with
  | nil => rfl
  | cons piece rest ih =>
    rw [chunks_cons, boundValues_append, ih, boundValues_piece_chunks, ← boundValues_cons]

/-- Pieces without parameters are replaced by themselves. -/
theorem replaced_of_names_eq_nil {pieces : List Piece} (h : names pieces = []) (bound : Nat) :
    replaced values bound pieces = spelled pieces := by
  induction pieces generalizing bound with
  | nil => rfl
  | cons piece rest ih =>
    rw [names_cons, List.append_eq_nil_iff] at h
    cases piece with
    | text chars => rw [replaced, ih h.2, spelled_cons, Piece.replacement, Piece.chars]
    | parameter quote sigil name => cases h.1

/-- and what the text becomes. -/
@[simp] theorem replaced_chunks (bound : Nat) (pieces : List Piece) :
    replaced values bound (chunks pieces) = replaced values bound pieces := by
  induction pieces generalizing bound with
  | nil => rfl
  | cons piece rest ih =>
    rw [chunks_cons, replaced_append, ih, replaced, boundValues_piece_chunks]
    cases piece with
    | text chars =>
      rw [Piece.chunks, replaced_of_names_eq_nil (names_characters chars), spelled_characters,
        Piece.replacement]
    | parameter quote sigil name => rw [Piece.chunks, replaced, replaced, List.append_nil]

/-! ## In front of a quote -/

namespace Occurrence

/-- A quote between a name and an at sign stays: the at sign glues to it. -/
theorem chunks_pieces_of_after_at {o : Occurrence} {mark : Char} (hclosing : o.closing = some mark)
    (hafter : o.after = some '@') :
    ∃ left, spelled left = o.opening.toList ++ List.replicate (o.count + 1) '@' ++ o.name ∧
      Binding.chunks o.pieces = left ++ [.text [mark]] := by
  have htext : Binding.chunks [.text o.chars] =
      (o.opening.toList ++ List.replicate (o.count + 1) '@' ++ o.name).map (fun c => .text [c]) ++
        [.text [mark]] := by
    simp [Binding.chunks, Piece.chunks, chars, hclosing]
  have hkept :
      ∃ left, spelled left = o.opening.toList ++ List.replicate (o.count + 1) '@' ++ o.name ∧
      Binding.chunks [.text o.chars] = left ++ [.text [mark]] :=
    ⟨_, spelled_characters _, htext⟩
  unfold pieces
  split
  · exact hkept
  · next sigil hsigil =>
    have hfree : o.isFreeWithQuotes sigil = false := by
      have hglue : isGlue '@' = true := by decide +kernel
      simp [isFreeWithQuotes, hafter, isFree, hglue]
    rw [hfree, Bool.and_false, if_neg Bool.false_ne_true]
    split
    · refine ⟨Binding.chunks [.text o.opening.toList, .parameter none sigil o.name], ?_, ?_⟩
      · simp [Piece.chars, count_of_ofCount? hsigil]
      · simp [Binding.chunks, Piece.chunks, hclosing]
    · exact hkept

/-- Between equal quotes, a parameter takes them or leaves them. -/
theorem pieces_of_quotes {o : Occurrence} {mark : Char} {sigil : Sigil}
    (hsigil : Sigil.ofCount? o.count = some sigil) (hmark : isQuote mark = true)
    (hopening : o.opening = some mark) (hclosing : o.closing = some mark) :
    o.pieces = if o.isFreeWithQuotes sigil then [.parameter (some mark) sigil o.name]
      else [.text [mark], .parameter none sigil o.name, .text [mark]] := by
  have hquoted : o.isQuoted = true := by simp [isQuoted, hopening, hclosing]
  have halone : o.isFreeWithoutQuotes = true := by
    simp [isFreeWithoutQuotes, isFree, hopening, hclosing, Run.isGlue_of_isQuote hmark]
  simp [pieces, hsigil, hquoted, halone, hopening, hclosing]

/-- Where the opening quote is taken, the parameter stands alone without it. -/
theorem pieces_of_taken {o : Occurrence} {mark : Char} {sigil : Sigil}
    (hsigil : Sigil.ofCount? o.count = some sigil) (hmark : isQuote mark = true)
    (hbefore : o.before = some mark) (hopening : o.opening = none)
    (hclosing : o.closing = some mark) :
    o.pieces = [.text [], .parameter none sigil o.name, .text [mark]] := by
  have hquoted : o.isQuoted = false := by simp [isQuoted, hopening]
  have halone : o.isFreeWithoutQuotes = true := by
    simp [isFreeWithoutQuotes, isFree, hbefore, hopening, hclosing, Run.isGlue_of_isQuote hmark]
  simp [pieces, hsigil, hquoted, halone, hopening, hclosing]

end Occurrence

/-- How runs in front of a quote and at signs are cut: the quote stays where a name behind at signs
ends right in front of it, and otherwise it is looked at together with what follows. -/
theorem exists_chunks_at_quote (mark : Char) (count : Nat) (tail : List Run) (before : Option Char)
    {runs : List Run} (hvalid : ∀ run ∈ runs, run.IsValid) :
    ∃ left, spelled left = runs.flatMap Run.chars ∧
      chunks (pieces before (runs ++ .quote mark :: .sigils count :: tail)) = left ++
        if endsInMention runs then
          .text [mark] :: chunks (pieces (some mark) (.sigils count :: tail))
        else chunks (pieces (lastChar? before runs) (.quote mark :: .sigils count :: tail)) := by
  have hcut : IsCutAt (.quote mark :: .sigils count :: tail) before runs :=
    isCutAt_pieces before runs hvalid (by simp) (by simp)
  rcases hcut with ⟨left, hspelled, hpieces, -, hunquoted⟩ |
    ⟨left, o, other, rest, hlater, hclosing, hafter, hends, hspelled, hpieces⟩
  · have hends : ¬ endsInMention runs = true := fun h => hunquoted h mark _ rfl
    refine ⟨chunks left, by rw [spelled_chunks, hspelled], ?_⟩
    rw [hpieces, chunks_append, if_neg hends]
  · -- the name takes the quote, and gives it back since at signs are behind it
    cases hlater
    obtain ⟨own, hown, hchunks⟩ := Occurrence.chunks_pieces_of_after_at hclosing hafter
    refine ⟨chunks left ++ own, by rw [spelled_append, spelled_chunks, hown, hspelled], ?_⟩
    rw [hpieces, chunks_append, chunks_append, hchunks, if_pos hends]
    simp

/-! ## Parameters between two equal quotes -/

/-- A text with a parameter between two equal quotes. -/
structure Wrapping where
  before : List Char
  mark : Char
  sigil : Sigil
  name : List Char
  after : List Char
  isQuote_mark : isQuote mark = true
  name_ne : name ≠ []
  isWord_name : ∀ c ∈ name, isWord c = true

namespace Wrapping

/-- The parameter together with its quotes. -/
def consumed (w : Wrapping) : List Piece := [.parameter (some w.mark) w.sigil w.name]

/-- The parameter alone, between its quotes. -/
def between (w : Wrapping) : List Piece :=
  [.text [w.mark], .parameter none w.sigil w.name, .text [w.mark]]

/-- The parameter and its quotes as mere text. -/
def kept (w : Wrapping) : List Piece := [.text (spelled w.consumed)]

def sql (w : Wrapping) : String :=
  String.ofList (w.before ++ (spelled w.consumed ++ w.after))

/-- Nothing outside the quotes makes them a part of something else, and the opening quote is not
that of a name behind at signs which ends in front of it. -/
structure StandsAlone (w : Wrapping) : Prop where
  after_ne : ∀ m : Mention, m.IsLongest → m.text = w.before → m.after ≠ []
  isFree_before : isFree (w.sigil = .identifier) w.before.getLast? = true
  isFree_after : isFree (w.sigil = .identifier) w.after.head? = true

theorem sql_toList (w : Wrapping) : w.sql.toList = w.before ++ (spelled w.consumed ++ w.after) :=
  String.toList_ofList

theorem isBlankText_sql (w : Wrapping) : Text.isBlankText w.sql = false := by
  have hmark : Text.isBlank w.mark = false := by
    have hquote := w.isQuote_mark
    simp only [isQuote, Bool.or_eq_true, beq_iff_eq] at hquote
    rcases hquote with h | h <;> rw [h] <;> decide
  rw [Text.isBlankText, sql_toList]
  simp [consumed, Piece.chars, hmark]

/-- The opening quote is that of a name behind at signs in front of it. -/
theorem endsInMention_before (w : Wrapping) :
    endsInMention (Run.ofChars w.before) = true ↔
      ¬ ∀ m : Mention, m.IsLongest → m.text = w.before → m.after ≠ [] := by
  rw [endsInMention_iff []]
  simp only [mem_mentionsOfRuns_iff]
  constructor
  · rintro ⟨m, ⟨htext, hlongest⟩, hafter⟩ hno
    exact hno m hlongest htext hafter
  · intro h
    push Not at h
    obtain ⟨m, hlongest, htext, hafter⟩ := h
    exact ⟨m, ⟨htext, hlongest⟩, hafter⟩

theorem ofChars_quote {mark : Char} (hmark : isQuote mark = true) (as bs : List Char) :
    Run.ofChars (as ++ mark :: bs) = Run.ofChars as ++ .quote mark :: Run.ofChars bs := by
  have hat : mark ≠ '@' := by
    rintro rfl
    exact absurd hmark (by decide)
  have hword := Run.isWord_of_isQuote hmark
  exact ofChars_single hat hword (by simp [Run.ofChars, Run.push, hat, hword, hmark]) as bs

theorem exists_ofCount? (sigil : Sigil) :
    ∃ n, sigil.count = n + 1 ∧ Sigil.ofCount? n = some sigil := by
  cases sigil
  · exact ⟨0, rfl, rfl⟩
  · exact ⟨1, rfl, rfl⟩
  · exact ⟨2, rfl, rfl⟩

/-- The runs of the text, with those of the parameter and its quotes. -/
theorem ofChars_sql (w : Wrapping) {n : Nat} {first : Char} {rest : List Char}
    (hcount : w.sigil.count = n + 1) (hname : w.name = first :: rest) :
    Run.ofChars w.sql.toList = Run.ofChars w.before ++ .quote w.mark :: .sigils n ::
      .word first rest :: .quote w.mark :: Run.ofChars w.after := by
  have htext : w.sql.toList = w.before ++ w.mark ::
      ((List.replicate (n + 1) '@' ++ (first :: rest)) ++ w.mark :: w.after) := by
    simp [sql_toList, consumed, Piece.chars, hcount, hname]
  have hword : ∀ c ∈ first :: rest, isWord c = true := hname ▸ w.isWord_name
  have hlongest : Mention.IsLongest ⟨[], n + 1, first :: rest, []⟩ :=
    ⟨Nat.succ_pos n, by simp, by simp, hword, by simp⟩
  have hparameter : Run.ofChars (List.replicate (n + 1) '@' ++ (first :: rest)) =
      [.sigils n, .word first rest] := by
    rw [← List.append_nil (first :: rest)]
    exact hlongest.ofChars_text
  rw [htext, ofChars_quote w.isQuote_mark, ofChars_quote w.isQuote_mark, hparameter]
  rfl

/-- The text cut small, from the opening quote on. -/
theorem exists_chunks (w : Wrapping) :
    ∃ left right, spelled left = w.before ∧ spelled right = w.after ∧
      (w.StandsAlone → chunksOfText w.sql = left ++ w.consumed ++ right) ∧
      (¬ w.StandsAlone → chunksOfText w.sql = left ++ w.between ++ right) := by
  obtain ⟨n, hcount, hsigil⟩ := exists_ofCount? w.sigil
  obtain ⟨first, rest, hname⟩ := List.exists_cons_of_ne_nil w.name_ne
  obtain ⟨left, hleft, hcut⟩ := exists_chunks_at_quote w.mark n
    (.word first rest :: .quote w.mark :: Run.ofChars w.after) none
    (Run.areLongest_ofChars w.before).valid
  rw [Run.chars_ofChars] at hleft
  rw [lastChar?_eq, Run.chars_ofChars, Option.or_none, pieces, pieces, chunks_append, chunks_append,
    ← ofChars_sql w hcount hname] at hcut
  have hfirst : firstChar? (Run.ofChars w.after) = w.after.head? := by
    rw [← head?_flatMap_chars, Run.chars_ofChars]
  have hright : spelled (chunks (pieces (some w.mark) (Run.ofChars w.after))) = w.after := by
    have hdivides :=
      @divides_pieces (some w.mark) _ [w.mark] (Run.areLongest_ofChars w.after).valid rfl
    rw [spelled_chunks, hdivides.spelled_eq, Run.chars_ofChars]
  refine ⟨left, chunks (pieces (some w.mark) (Run.ofChars w.after)), hleft, hright, ?_⟩
  rw [chunksOfText, piecesOfText, hcut, List.append_assoc, List.append_assoc]
  by_cases hends : endsInMention (Run.ofChars w.before) = true
  · -- the opening quote is taken
    have halone : ¬ w.StandsAlone := fun h => w.endsInMention_before.mp hends h.after_ne
    refine ⟨fun h => absurd h halone, fun _ => ?_⟩
    rw [if_pos hends, Occurrence.pieces_of_taken hsigil w.isQuote_mark rfl rfl rfl, between, hname]
    rfl
  · rw [if_neg hends, Occurrence.pieces_of_quotes hsigil w.isQuote_mark rfl rfl]
    have halone : w.StandsAlone ↔ Occurrence.isFreeWithQuotes
        ⟨w.before.getLast?, some w.mark, n, first :: rest, some w.mark,
          firstChar? (Run.ofChars w.after)⟩ w.sigil = true := by
      rw [Occurrence.isFreeWithQuotes, Bool.and_eq_true, hfirst]
      refine ⟨fun h => ⟨h.isFree_before, h.isFree_after⟩, fun h => ⟨?_, h.1, h.2⟩⟩
      exact not_not.mp (mt w.endsInMention_before.mpr hends)
    rw [halone]
    refine ⟨fun h => ?_, fun h => ?_⟩
    · rw [if_pos h, consumed, hname]
      rfl
    · rw [if_neg h, between, hname]
      rfl

end Wrapping

/-- What binding makes of a text depends on its pieces cut small. -/
theorem bind_eq_ok_iff {sql : String} {query : BoundQuery} (hsql : Text.isBlankText sql = false) :
    bind values sql = .ok query ↔
      (∀ name ∈ names (chunksOfText sql), (Entries.get? values name).isSome) ∧
        query = ⟨String.ofList (replaced values 0 (chunksOfText sql)),
          boundValues values (chunksOfText sql)⟩ := by
  rw [chunksOfText, names_chunks, replaced_chunks, boundValues_chunks]
  obtain ⟨-, hbind⟩ := bind_replaces hsql
  refine ⟨fun h => ⟨(hbind values).1.mp ⟨query, h⟩, eq_of_bind h⟩, ?_⟩
  rintro ⟨hnames, rfl⟩
  exact (hbind values).2.1 hnames

/-- A parameter between two equal quotes is replaced together with them if it stands alone, and
otherwise between them. It is never left alone. -/
theorem bind_wrapping (w : Wrapping) :
    ∃ left right, spelled left = w.before ∧ spelled right = w.after ∧
      (w.StandsAlone → chunksOfText w.sql = left ++ w.consumed ++ right) ∧
      (¬ w.StandsAlone → chunksOfText w.sql = left ++ w.between ++ right) ∧
      ∀ (values : Entries String Json) (query : BoundQuery), bind values w.sql = .ok query ↔
        (∀ name ∈ names (chunksOfText w.sql), (Entries.get? values name).isSome) ∧
          query = ⟨String.ofList (replaced values 0 (chunksOfText w.sql)),
            boundValues values (chunksOfText w.sql)⟩ := by
  obtain ⟨left, right, hleft, hright, hconsumed, hbetween⟩ := w.exists_chunks
  exact ⟨left, right, hleft, hright, hconsumed, hbetween,
    fun values query => bind_eq_ok_iff w.isBlankText_sql⟩

/-- A parameter in quotes behind a blank. -/
def quotedId : Wrapping where
  before := "SELECT ".toList
  mark := '\''
  sigil := .value
  name := ['i', 'd']
  after := []
  isQuote_mark := by decide
  name_ne := by decide
  isWord_name := List.all_eq_true.mp (by decide +kernel)

/-- It stands alone, and goes with its quotes. -/
theorem bind_quotedId :
    quotedId.StandsAlone ∧ chunksOfText quotedId.sql =
        "SELECT ".toList.map (fun c => .text [c]) ++ [.parameter (some '\'') .value "id".toList] ∧
      bind mailValues quotedId.sql = .ok ⟨"SELECT $1", [.number (.int 7)]⟩ := by
  have halone : quotedId.StandsAlone := by
    refine ⟨fun m hm htext _ => ?_, by decide +kernel, by decide +kernel⟩
    have hat : '@' ∈ m.text := by
      simp [Mention.text, Nat.ne_of_gt hm.count_pos]
    rw [htext] at hat
    exact absurd hat (by decide)
  have hchunks : chunksOfText quotedId.sql =
      "SELECT ".toList.map (fun c => .text [c]) ++ [.parameter (some '\'') .value "id".toList] := by
    decide +kernel
  obtain ⟨left, right, -, -, -, -, hbind⟩ := bind_wrapping quotedId
  have hsql : String.ofList (replaced mailValues 0 (chunksOfText quotedId.sql)) = "SELECT $1" := by
    rw [hchunks]
    decide +kernel
  have hvalues : (chunksOfText quotedId.sql).filterMap Piece.valueName? = ["id"] := by
    rw [hchunks]
    decide +kernel
  refine ⟨halone, hchunks, (hbind _ _).mpr ⟨by rw [hchunks]; decide +kernel, ?_⟩⟩
  rw [hsql, boundValues, hvalues]
  rfl

/-! ## Where the quotes stay -/

/-- What a text may become if a parameter goes with the quotes around it or stays as it is. -/
def Wrapping.Respects (w : Wrapping) (values : Entries String Json) (query : BoundQuery) : Prop :=
  ∃ left right, spelled left = w.before ∧ spelled right = w.after ∧
    (query.sql.toList = replaced values 0 (left ++ w.consumed ++ right) ∨
      query.sql.toList = replaced values 0 (left ++ w.kept ++ right))

/-- Pieces that spell no at sign hold no parameter. -/
theorem names_eq_nil {pieces : List Piece} (h : '@' ∉ spelled pieces) : names pieces = [] := by
  induction pieces with
  | nil => rfl
  | cons piece rest ih =>
    rw [spelled_cons, List.mem_append, not_or] at h
    rw [names_cons, ih h.2]
    cases piece with
    | text chars => rfl
    | parameter quote sigil name =>
      refine absurd ?_ h.1
      cases sigil <;> simp [Piece.chars, Sigil.count]

theorem boundValues_of_names_eq_nil {pieces : List Piece} (h : names pieces = []) :
    boundValues values pieces = [] := by
  induction pieces with
  | nil => rfl
  | cons piece rest ih =>
    rw [names_cons, List.append_eq_nil_iff] at h
    rw [boundValues_cons, ih h.2]
    cases piece with
    | text chars => rfl
    | parameter quote sigil name => cases h.1

/-- Around pieces, text without at signs stays as it is. -/
theorem replaced_between {left right : List Piece} (hleft : '@' ∉ spelled left)
    (hright : '@' ∉ spelled right) (own : List Piece) :
    replaced values 0 (left ++ own ++ right) =
      spelled left ++ replaced values 0 own ++ spelled right := by
  rw [replaced_append, replaced_append, replaced_of_names_eq_nil (names_eq_nil hleft),
    replaced_of_names_eq_nil (names_eq_nil hright),
    boundValues_of_names_eq_nil (names_eq_nil hleft)]
  rfl

/-- A parameter in the quotes of an escape string. -/
def escapedId : Wrapping where
  before := "SELECT E".toList
  mark := '\''
  sigil := .value
  name := ['i', 'd']
  after := []
  isQuote_mark := by decide
  name_ne := by decide
  isWord_name := List.all_eq_true.mp (by decide +kernel)

/-- The letter in front of the string glues to its quotes but not to the parameter, which is
replaced inside the string. -/
theorem not_respects_escapedId :
    bind mailValues escapedId.sql = .ok ⟨"SELECT E'$1'", [.number (.int 7)]⟩ ∧
      ∀ query, bind mailValues escapedId.sql = .ok query →
        ¬ escapedId.Respects mailValues query := by
  have hbind : bind mailValues escapedId.sql = .ok ⟨"SELECT E'$1'", [.number (.int 7)]⟩ :=
    bind_eq_ok "SELECT E'$1'" ["id"] (by decide +kernel) (by decide +kernel) (by decide +kernel)
      (by decide +kernel)
  refine ⟨hbind, fun query hquery => ?_⟩
  cases hbind.symm.trans hquery
  rintro ⟨left, right, hleft, hright, h⟩
  have hl : '@' ∉ spelled left := by
    rw [hleft]
    decide
  have hr : '@' ∉ spelled right := by
    rw [hright]
    decide
  rw [replaced_between hl hr, replaced_between hl hr, hleft, hright] at h
  revert h
  decide +kernel

end DescriptorSql.Binding
