import DescriptorSql.Proofs.Binding.Mention

/-!
# `Proofs/Binding/Piece.lean` — the pieces of a text

The segments of a text leave out the quotes that go with a parameter. With them, a text is a row of
*pieces*: text that is kept, and parameters, each with its quotes. The pieces spell the text, and
their parameters are the parameters of the text and no others (`isCutInto_piecesOfText`).

The pieces are found along the recursion of `segments`, which goes over the runs in two kinds of
steps: a name behind at signs together with the quotes beside it, or a single run
(`scan_induction`). At a name behind at signs there is one fact to show, whichever quotes stand
beside it (`Occurrence.pieces_cases`): it is cut out, with or without its quotes, exactly if no
neighbour makes it a part of something else.
-/

set_option autoImplicit false

namespace DescriptorSql.Binding

/-- The at signs in front of a name. -/
def Sigil.count : Sigil → Nat
  | .value => 1
  | .identifier => 2
  | .verbatim => 3

/-- Text that is kept, or a parameter together with the quotes around it, if they go with it. -/
inductive Piece where
  | text (chars : List Char)
  | parameter (quote : Option Char) (sigil : Sigil) (name : List Char)
  deriving DecidableEq, Repr

namespace Piece

/-- The piece as it stands in the text. -/
def chars : Piece → List Char
  | text chars => chars
  | parameter quote sigil name =>
    quote.toList ++ (List.replicate sigil.count '@' ++ (name ++ quote.toList))

def segment : Piece → Segment
  | text chars => .text chars
  | parameter _ sigil name => .slot sigil name

def sigil? : Piece → Option Sigil
  | text _ => none
  | parameter _ sigil _ => some sigil

/-- The quotes that go with a parameter stand alone between the texts before and after them; dots
may stand beside those of a name parameter. -/
def TakesQuotes (before after : List Char) : Piece → Prop
  | parameter (some mark) sigil _ =>
    isQuote mark = true ∧ isFree (sigil = .identifier) before.getLast? = true ∧
      isFree (sigil = .identifier) after.head? = true
  | _ => True

end Piece

/-- The occurrence as pieces: its segments, with the quotes that go with the parameter. -/
def Occurrence.pieces (o : Occurrence) : List Piece :=
  match Sigil.ofCount? o.count with
  | none => [.text o.chars]
  | some sigil =>
    if o.isQuoted && o.isFreeWithQuotes sigil then [.parameter o.opening sigil o.name]
    else if o.isFreeWithoutQuotes then
      [.text o.opening.toList, .parameter none sigil o.name, .text o.closing.toList]
    else [.text o.chars]

/-- The pieces of a text; `before` is the character in front of it. -/
def pieces (before : Option Char) : List Run → List Piece
  | .quote opening :: .sigils count :: .word first name :: .quote closing :: rest =>
    Occurrence.pieces
        ⟨before, some opening, count, first :: name, some closing, firstChar? rest⟩ ++
      pieces (some closing) rest
  | .quote opening :: .sigils count :: .word first name :: rest =>
    Occurrence.pieces ⟨before, some opening, count, first :: name, none, firstChar? rest⟩ ++
      pieces (some (Run.word first name).last) rest
  | .sigils count :: .word first name :: .quote closing :: rest =>
    Occurrence.pieces ⟨before, none, count, first :: name, some closing, firstChar? rest⟩ ++
      pieces (some closing) rest
  | .sigils count :: .word first name :: rest =>
    Occurrence.pieces ⟨before, none, count, first :: name, none, firstChar? rest⟩ ++
      pieces (some (Run.word first name).last) rest
  | run :: rest => .text run.chars :: pieces (some run.last) rest
  | [] => []

def piecesOfText (sql : String) : List Piece := pieces none (Run.ofChars sql.toList)

/-- The text that pieces spell. -/
def spelled (pieces : List Piece) : List Char := pieces.flatMap Piece.chars

/-- Every parameter with quotes takes them rightly; `front` is the text before the pieces. -/
def TakeQuotes (front : List Char) : List Piece → Prop
  | [] => True
  | piece :: rest => piece.TakesQuotes front (spelled rest) ∧ TakeQuotes (front ++ piece.chars) rest

/-- The parameters among pieces, each with the text before and after it; `front` is the text before
the pieces. -/
def mentionsOf (front : List Char) : List Piece → List Mention
  | [] => []
  | .text chars :: rest => mentionsOf (front ++ chars) rest
  | .parameter quote sigil name :: rest =>
    ⟨front ++ quote.toList, sigil.count, name, quote.toList ++ spelled rest⟩ ::
      mentionsOf (front ++ Piece.chars (.parameter quote sigil name)) rest

@[simp] theorem spelled_nil : spelled [] = [] := rfl

@[simp] theorem spelled_cons (piece : Piece) (rest : List Piece) :
    spelled (piece :: rest) = piece.chars ++ spelled rest := List.flatMap_cons

@[simp] theorem spelled_append (pieces rest : List Piece) :
    spelled (pieces ++ rest) = spelled pieces ++ spelled rest := List.flatMap_append

/-! ## The pieces of an occurrence -/

theorem isFree_false (neighbour? : Option Char) :
    isFree false neighbour? = true ↔ ∀ c ∈ neighbour?, isGlue c = false := by
  cases neighbour? <;> simp [isFree]

theorem count_of_ofCount? {count : Nat} {sigil : Sigil} (h : Sigil.ofCount? count = some sigil) :
    sigil.count = count + 1 := by
  unfold Sigil.ofCount? at h
  split at h <;> first | (cases h; rfl) | cases h

theorem count_le_of_ofCount? {count : Nat} {sigil : Sigil} (h : Sigil.ofCount? count = some sigil) :
    count + 1 ≤ 3 := by
  rw [← count_of_ofCount? h]
  cases sigil <;> decide

theorem lt_count_of_ofCount? {count : Nat} (h : Sigil.ofCount? count = none) : 3 < count + 1 := by
  match count, h with
  | 0, h | 1, h | 2, h => cases h
  | count + 3, _ => omega

namespace Occurrence

/-- The occurrence as a mention, with the text around it. -/
def mention (o : Occurrence) (front after : List Char) : Mention :=
  ⟨front ++ o.opening.toList, o.count + 1, o.name, o.closing.toList ++ after⟩

/-- The occurrence stands between the texts, and what is beside it are quotes. -/
structure StandsIn (o : Occurrence) (front after : List Char) : Prop where
  before_eq : o.before = front.getLast?
  after_eq : o.after = after.head?
  isQuote_opening : ∀ mark ∈ o.opening, isQuote mark = true
  isQuote_closing : ∀ mark ∈ o.closing, isQuote mark = true

/-- A mention is a parameter if it has a sigil and stands alone without its quotes. -/
theorem isParameter_iff {o : Occurrence} {front after : List Char} (h : o.StandsIn front after) :
    (o.mention front after).IsParameter ↔ o.count + 1 ≤ 3 ∧ o.isFreeWithoutQuotes = true := by
  have hbefore : (front ++ o.opening.toList).getLast? = (o.opening <|> o.before) := by
    rw [h.before_eq]
    cases o.opening <;> simp
  have hafter : (o.closing.toList ++ after).head? = (o.closing <|> o.after) := by
    rw [h.after_eq]
    cases o.closing <;> simp
  rw [isFreeWithoutQuotes, Bool.and_eq_true, isFree_false, isFree_false, ← hbefore, ← hafter]
  exact ⟨fun hp => ⟨hp.count_le, hp.isGlue_before, hp.isGlue_after⟩,
    fun hp => ⟨hp.1, hp.2.1, hp.2.2⟩⟩

/-- Quotes leave what is between them alone. -/
theorem isFreeWithoutQuotes_of_isQuoted {o : Occurrence} {front after : List Char}
    (h : o.StandsIn front after) (hquoted : o.isQuoted = true) : o.isFreeWithoutQuotes = true := by
  simp only [isQuoted, Bool.and_eq_true, Option.isSome_iff_exists, beq_iff_eq] at hquoted
  obtain ⟨⟨mark, hopening⟩, hclosing⟩ := hquoted
  have hmark := Run.isGlue_of_isQuote (h.isQuote_opening mark hopening)
  rw [isFreeWithoutQuotes, Bool.and_eq_true, isFree_false, isFree_false, ← hclosing, hopening]
  constructor <;> simpa using hmark

/-- Which pieces an occurrence is: text if it is no parameter, and otherwise its parameter with the
quotes beside it, or between them. -/
theorem pieces_cases {o : Occurrence} {front after : List Char} (h : o.StandsIn front after) :
    (¬ (o.mention front after).IsParameter ∧ o.pieces = [.text o.chars]) ∨
      ((o.mention front after).IsParameter ∧ ∃ sigil, sigil.count = o.count + 1 ∧
        ((o.closing = o.opening ∧ o.isFreeWithQuotes sigil = true ∧
            o.pieces = [.parameter o.opening sigil o.name]) ∨
          o.pieces = [.text o.opening.toList, .parameter none sigil o.name,
            .text o.closing.toList])) := by
  rw [isParameter_iff h, pieces]
  rcases hsigil : Sigil.ofCount? o.count with _ | sigil
  · have hcount := lt_count_of_ofCount? hsigil
    exact Or.inl ⟨fun hp => Nat.not_le_of_lt hcount hp.1, rfl⟩
  · have hcount := count_of_ofCount? hsigil
    have hle := count_le_of_ofCount? hsigil
    by_cases hquotes : (o.isQuoted && o.isFreeWithQuotes sigil) = true
    · obtain ⟨hquoted, hfree⟩ := Bool.and_eq_true_iff.mp hquotes
      have hsame : o.opening = o.closing := by
        simp only [isQuoted, Bool.and_eq_true, beq_iff_eq] at hquoted
        exact hquoted.2
      refine Or.inr ⟨⟨hle, isFreeWithoutQuotes_of_isQuoted h hquoted⟩, sigil, hcount, Or.inl ?_⟩
      exact ⟨hsame.symm, hfree, if_pos hquotes⟩
    · by_cases halone : o.isFreeWithoutQuotes = true
      · refine Or.inr ⟨⟨hle, halone⟩, sigil, hcount, Or.inr ?_⟩
        exact (if_neg hquotes).trans (if_pos halone)
      · exact Or.inl ⟨fun hp => halone hp.2, (if_neg hquotes).trans (if_neg halone)⟩

/-- The pieces of an occurrence spell it. -/
theorem spelled_pieces {o : Occurrence} {front after : List Char} (h : o.StandsIn front after) :
    spelled o.pieces = o.chars := by
  rcases pieces_cases h with ⟨-, hpieces⟩ | ⟨-, sigil, hcount, ⟨hsame, -, hpieces⟩ | hpieces⟩
  · simp [hpieces, Piece.chars]
  · simp [hpieces, Piece.chars, chars, hcount, hsame]
  · simp [hpieces, Piece.chars, chars, hcount]

theorem takeQuotes_pieces {o : Occurrence} {front : List Char} {rest : List Piece}
    (h : o.StandsIn front (spelled rest)) (hrest : TakeQuotes (front ++ o.chars) rest) :
    TakeQuotes front (o.pieces ++ rest) := by
  rw [← spelled_pieces h] at hrest
  rcases pieces_cases h with ⟨-, hpieces⟩ | ⟨-, sigil, -, ⟨-, hfree, hpieces⟩ | hpieces⟩
  · rw [hpieces] at hrest ⊢
    simpa [TakeQuotes, Piece.TakesQuotes] using hrest
  · rw [hpieces] at hrest ⊢
    refine ⟨?_, by simpa using hrest⟩
    rcases hopening : o.opening with _ | mark
    · trivial
    · rw [isFreeWithQuotes, Bool.and_eq_true, h.before_eq, h.after_eq] at hfree
      exact ⟨h.isQuote_opening mark hopening, hfree⟩
  · rw [hpieces] at hrest ⊢
    simpa [TakeQuotes, Piece.TakesQuotes] using hrest

/-- The pieces of an occurrence show it exactly if it is a parameter. -/
theorem mem_mentionsOf_pieces {o : Occurrence} {front : List Char} {rest : List Piece}
    (h : o.StandsIn front (spelled rest)) (m : Mention) :
    m ∈ mentionsOf front (o.pieces ++ rest) ↔
      (m = o.mention front (spelled rest) ∧ m.IsParameter) ∨
        m ∈ mentionsOf (front ++ o.chars) rest := by
  rw [← spelled_pieces h]
  rcases pieces_cases h with ⟨hno, hpieces⟩ | ⟨hyes, sigil, hcount, hshape⟩
  · rw [hpieces]
    simp only [List.cons_append, List.nil_append, mentionsOf, spelled_cons, spelled_nil,
      List.append_nil, Piece.chars]
    refine ⟨Or.inr, ?_⟩
    rintro (⟨rfl, hm⟩ | hm)
    · exact absurd hm hno
    · exact hm
  · have hmention : mentionsOf front (o.pieces ++ rest) =
        o.mention front (spelled rest) :: mentionsOf (front ++ spelled o.pieces) rest := by
      rcases hshape with ⟨hsame, -, hpieces⟩ | hpieces
      · simp [hpieces, mentionsOf, mention, hcount, hsame]
      · simp [hpieces, mentionsOf, mention, hcount, Piece.chars]
    rw [hmention, List.mem_cons]
    refine or_congr_left ⟨fun hm => ⟨hm, hm ▸ hyes⟩, And.left⟩

end Occurrence

/-! ## Going over the runs -/

/-- The runs of a name behind at signs, with those of the quotes beside it. -/
def mentionRuns (opening : Option Char) (count : Nat) (first : Char) (name : List Char)
    (closing : Option Char) : List Run :=
  opening.toList.map .quote ++ .sigils count :: .word first name :: closing.toList.map .quote

/-- No quote is the first of the runs, so that none can be taken with a name in front of them. -/
def StartsUnquoted (runs : List Run) : Prop := ∀ mark rest, runs ≠ .quote mark :: rest

/-- With the run no name behind at signs begins, neither with its own at signs nor with a quote in
front of them. -/
structure IsSingle (run : Run) (rest : List Run) : Prop where
  sigils : ∀ count, run = .sigils count → ∀ first name others, rest ≠ .word first name :: others
  quote : ∀ mark, run = .quote mark →
    ∀ count first name others, rest ≠ .sigils count :: .word first name :: others

/-- Runs are gone over from left to right. What is looked at together is a name behind at signs with
the quotes beside it, or else a single run. -/
@[elab_as_elim]
theorem scan_induction {motive : Option Char → List Run → Prop}
    (mention : ∀ before opening count first name closing rest,
      (closing = none → StartsUnquoted rest) →
      motive (some (closing.getD (Run.word first name).last)) rest →
      motive before (mentionRuns opening count first name closing ++ rest))
    (single : ∀ before run rest, IsSingle run rest → motive (some run.last) rest →
      motive before (run :: rest))
    (nil : ∀ before, motive before []) (before : Option Char) (runs : List Run) :
    motive before runs := by
  -- `segments` tells the four forms of a name behind at signs apart; here they are one
  induction before, runs using segments.induct with
  | case1 before opening count first name closing rest ih =>
    exact mention before (some opening) count first name (some closing) rest (by simp) ih
  | case2 before opening count first name rest hno ih =>
    exact mention before (some opening) count first name none rest (fun _ => hno) ih
  | case3 before count first name closing rest ih =>
    exact mention before none count first name (some closing) rest (by simp) ih
  | case4 before count first name rest hno ih =>
    exact mention before none count first name none rest (fun _ => hno) ih
  | case5 before run rest _ hopened _ hbare ih =>
    refine single before run rest ⟨?_, ?_⟩ ih
    · exact fun count hrun first name others => hbare count first name others hrun
    · exact fun mark hrun count first name others => hopened mark count first name others hrun
  | case6 before => exact nil before

/-- The pieces of runs that begin with a name behind at signs are those of the name, and those of
what is behind it. -/
theorem pieces_mention {closing : Option Char} {rest : List Run} (before opening : Option Char)
    (count : Nat) (first : Char) (name : List Char)
    (hrest : closing = none → StartsUnquoted rest) :
    pieces before (mentionRuns opening count first name closing ++ rest) =
      Occurrence.pieces ⟨before, opening, count, first :: name, closing, firstChar? rest⟩ ++
        pieces (some (closing.getD (Run.word first name).last)) rest := by
  cases closing with
  | some mark => cases opening <;> simp [mentionRuns, pieces]
  | none =>
    cases opening
    all_goals
      simp only [mentionRuns, Option.toList, List.map_nil, List.map_cons, List.nil_append,
        List.cons_append]
      rw [pieces]
      · rfl
      · exact hrest rfl

theorem pieces_single {run : Run} {rest : List Run} (h : IsSingle run rest) (before : Option Char) :
    pieces before (run :: rest) = .text run.chars :: pieces (some run.last) rest := by
  rw [pieces]
  · exact fun mark count first name closing others hrun => h.quote mark hrun count first name _
  · exact fun mark count first name others hrun => h.quote mark hrun count first name others
  · exact fun count first name closing others hrun => h.sigils count hrun first name _
  · exact fun count first name others hrun => h.sigils count hrun first name others

section

variable (opening : Option Char) (count : Nat) (first : Char) (name : List Char)
  (closing : Option Char)

/-- The runs of a name behind at signs spell it, with its quotes. -/
theorem chars_mentionRuns (before after : Option Char) :
    (mentionRuns opening count first name closing).flatMap Run.chars =
      Occurrence.chars ⟨before, opening, count, first :: name, closing, after⟩ := by
  cases opening <;> cases closing <;> simp [mentionRuns, Occurrence.chars, Run.chars]

/-- They end with the closing quote, and otherwise with the name. -/
theorem getLast?_mentionRuns (front : List Char) :
    (front ++ (mentionRuns opening count first name closing).flatMap Run.chars).getLast? =
      some (closing.getD (Run.word first name).last) := by
  have hname := Run.getLast?_chars (.word first name)
  rw [Run.chars] at hname
  cases closing with
  | some mark =>
    have hmark : (mentionRuns opening count first name (some mark)).flatMap Run.chars =
        (mentionRuns opening count first name none).flatMap Run.chars ++ [mark] := by
      simp [mentionRuns, Run.chars]
    rw [hmark, ← List.append_assoc, List.getLast?_concat]
    rfl
  | none => simp [mentionRuns, Run.chars, List.getLast?_append, hname]

variable {opening count first name closing}

theorem isQuote_of_mentionRuns
    (h : ∀ run ∈ mentionRuns opening count first name closing, run.IsValid) :
    (∀ mark ∈ opening, isQuote mark = true) ∧ ∀ mark ∈ closing, isQuote mark = true := by
  refine ⟨fun mark hmark => h (.quote mark) ?_, fun mark hmark => h (.quote mark) ?_⟩
  · exact List.mem_append_left _ (List.mem_map_of_mem (Option.mem_toList.mpr hmark))
  · refine List.mem_append_right _ (List.mem_cons_of_mem _ (List.mem_cons_of_mem _ ?_))
    exact List.mem_map_of_mem (Option.mem_toList.mpr hmark)

end

/-! ## The pieces of a text -/

theorem Occurrence.segments_eq (o : Occurrence) : o.segments = o.pieces.map Piece.segment := by
  rw [segments, pieces]
  cases Sigil.ofCount? o.count with
  | none => rfl
  | some sigil =>
    simp only [apply_ite (List.map Piece.segment)]
    rfl

/-- The segments of a text are its pieces without the quotes that go with the parameters. -/
theorem segments_eq (before : Option Char) (runs : List Run) :
    segments before runs = (pieces before runs).map Piece.segment := by
  -- both are cut along the same recursion, so they agree case by case
  induction before, runs using segments.induct with
  | case6 before => rfl
  | case5 before run rest _ _ _ _ ih =>
    rw [segments, pieces, List.map_cons, ih]
    · rfl
    all_goals assumption
  | case1 | case2 | case3 | case4 =>
    rw [segments, pieces, List.map_append, Occurrence.segments_eq]
    · congr 1
    all_goals assumption

/-- Pieces of the text of runs, with its parameters. -/
structure Divides (front : List Char) (runs : List Run) (pieces : List Piece) : Prop where
  spelled_eq : spelled pieces = runs.flatMap Run.chars
  takeQuotes : TakeQuotes front pieces
  mem_mentionsOf : ∀ m, m ∈ mentionsOf front pieces ↔ m ∈ mentionsOfRuns front runs ∧ m.IsParameter

theorem Divides.nil (front : List Char) : Divides front [] [] :=
  ⟨rfl, trivial, by simp [mentionsOf, mentionsOfRuns]⟩

/-- A name behind at signs, with the quotes beside it. -/
theorem Divides.occurrence {o : Occurrence} {front : List Char} (taken : List Run)
    {rest : List Run} {pieces : List Piece} (h : o.StandsIn front (rest.flatMap Run.chars))
    (htaken : taken.flatMap Run.chars = o.chars)
    (hmentions : mentionsOfRuns front (taken ++ rest) =
      o.mention front (rest.flatMap Run.chars) :: mentionsOfRuns (front ++ o.chars) rest)
    (hrest : Divides (front ++ o.chars) rest pieces) :
    Divides front (taken ++ rest) (o.pieces ++ pieces) := by
  have hspelled := Occurrence.spelled_pieces h
  rw [← hrest.spelled_eq] at h hmentions
  refine ⟨?_, Occurrence.takeQuotes_pieces h hrest.takeQuotes, ?_⟩
  · rw [spelled_append, hspelled, hrest.spelled_eq, List.flatMap_append, htaken]
  · intro m
    rw [Occurrence.mem_mentionsOf_pieces h, hrest.mem_mentionsOf, hmentions, List.mem_cons,
      or_and_right]

/-- A run that stays. -/
theorem Divides.text {front : List Char} {run : Run} {rest : List Run} {pieces : List Piece}
    (hmentions : mentionsOfRuns front (run :: rest) = mentionsOfRuns (front ++ run.chars) rest)
    (hrest : Divides (front ++ run.chars) rest pieces) :
    Divides front (run :: rest) (.text run.chars :: pieces) := by
  refine ⟨?_, ⟨trivial, hrest.takeQuotes⟩, ?_⟩
  · rw [spelled_cons, hrest.spelled_eq, List.flatMap_cons, Piece.chars]
  · intro m
    rw [mentionsOf, hrest.mem_mentionsOf, hmentions]

/-- Valid runs are divided into their pieces. -/
theorem divides_pieces (before : Option Char) (runs : List Run) {front : List Char}
    (hvalid : ∀ run ∈ runs, run.IsValid) (hbefore : before = front.getLast?) :
    Divides front runs (pieces before runs) := by
  induction before, runs using scan_induction generalizing front with
  | mention before opening count first name closing rest hrest ih =>
    obtain ⟨hmention, hothers⟩ := List.forall_mem_append.mp hvalid
    obtain ⟨hopening, hclosing⟩ := isQuote_of_mentionRuns hmention
    have hchars := chars_mentionRuns opening count first name closing before (firstChar? rest)
    have hdivides := ih hothers (getLast?_mentionRuns opening count first name closing front).symm
    rw [hchars] at hdivides
    rw [pieces_mention _ _ _ _ _ hrest]
    refine Divides.occurrence _ ⟨hbefore, (head?_flatMap_chars rest).symm, hopening, hclosing⟩
      hchars ?_ hdivides
    -- a quote in front of the at signs shows nothing, and one behind the name neither
    cases opening <;> cases closing <;>
      simp [mentionRuns, mentionsOfRuns, Run.chars, Occurrence.chars, Occurrence.mention]
  | single before run rest hsingle ih =>
    have hlast : (front ++ run.chars).getLast? = some run.last := by
      simp [List.getLast?_append, Run.getLast?_chars]
    have hdivides := ih (fun other hother => hvalid other (by simp [hother])) hlast.symm
    rw [pieces_single hsingle]
    refine Divides.text (mentionsOfRuns_cons ?_ front) hdivides
    intro count hrun first name hnext
    obtain ⟨after, hrest⟩ := List.head?_eq_some_iff.mp hnext
    exact hsingle.sigils count hrun first name after hrest
  | nil before => exact Divides.nil front

/-- The pieces of a text spell it, and their parameters are exactly those of the text. -/
structure IsCutInto (sql : String) (pieces : List Piece) : Prop where
  spelled_eq : spelled pieces = sql.toList
  takeQuotes : TakeQuotes [] pieces
  mem_mentionsOf : ∀ m, m ∈ mentionsOf [] pieces ↔
    m.text = sql.toList ∧ m.IsLongest ∧ m.IsParameter

theorem isCutInto_piecesOfText (sql : String) : IsCutInto sql (piecesOfText sql) := by
  have hdivides :=
    @divides_pieces none _ [] (Run.areLongest_ofChars sql.toList).valid rfl
  refine ⟨?_, hdivides.takeQuotes, ?_⟩
  · rw [piecesOfText, hdivides.spelled_eq, Run.chars_ofChars]
  · intro m
    rw [piecesOfText, hdivides.mem_mentionsOf, mem_mentionsOfRuns_iff, and_assoc]

end DescriptorSql.Binding
