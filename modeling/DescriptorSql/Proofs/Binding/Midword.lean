import DescriptorSql.Proofs.Binding.Wrapped

/-!
# `Proofs/Binding/Midword.lean` — at signs in the middle of a word

At signs behind a word character are in the middle of a word, as those of a mail address are. The
binder asks for a character that *glues*, and not every word character does: a mark that is not
alphabetic, a join control and connector punctuation other than the low line may stand in a name,
but are overlooked in front of one (`isOverlooked`). Behind such a character a parameter is replaced
like any other, and behind all other word characters it is left alone (`bind_behind_word`).
-/

set_option autoImplicit false

namespace DescriptorSql.Binding

open CharClass (isWord)

/-! ## Word characters that do not glue -/

/-- A mark, a join control or connector punctuation, which is neither alphabetic nor numeric and not
the low line. -/
def isOverlooked (c : Char) : Bool :=
  (CharClass.mark.contains c.toNat || CharClass.joinControl.contains c.toNat ||
      CharClass.connectorPunctuation.contains c.toNat) &&
    !(CharClass.isAlphanumeric c || c == '_')

/-- Of the word characters, those that are overlooked do not glue, and all others do. -/
theorem isGlue_of_isWord {c : Char} (hc : isWord c = true) : isGlue c = !isOverlooked c := by
  have hdot : c ≠ '.' := by
    intro h
    rw [h] at hc
    revert hc
    decide +kernel
  have hat : c ≠ '@' := by
    intro h
    rw [h, Run.isWord_at] at hc
    cases hc
  rw [isGlue, isOverlooked]
  by_cases hglue : (CharClass.isAlphanumeric c || c == '_') = true
  · simp [hglue]
  · -- what is left of the word characters are the marks, the join controls and the connectors
    rw [Bool.not_eq_true] at hglue
    have hother : (CharClass.mark.contains c.toNat || CharClass.joinControl.contains c.toNat ||
        CharClass.connectorPunctuation.contains c.toNat) = true := by
      rw [CharClass.isAlphanumeric, Bool.or_eq_false_iff, Bool.or_eq_false_iff,
        Bool.or_eq_false_iff] at hglue
      rw [CharClass.isWord, hglue.1.1.1, hglue.1.1.2] at hc
      simpa [or_comm, or_assoc, or_left_comm] using hc
    simp [hglue, hother, hdot, hat]

/-! ## Cutting behind a word -/

/-- Runs that end in a word are cut without the at signs behind it. -/
theorem exists_pieces_before_sigils (count : Nat) (later : List Run) (before : Option Char)
    {runs : List Run} (hvalid : ∀ run ∈ runs, run.IsValid) (hword : EndInWord runs) :
    ∃ left, spelled left = runs.flatMap Run.chars ∧
      pieces before (runs ++ .sigils count :: later) =
        left ++ pieces (lastChar? before runs) (.sigils count :: later) := by
  have hcut : IsCutAt (.sigils count :: later) before runs :=
    isCutAt_pieces before runs hvalid (by simp) fun _ _ _ => hword
  rcases hcut with ⟨left, hspelled, hpieces, -, -⟩ | ⟨left, o, mark, rest, hlater⟩
  · exact ⟨left, hspelled, hpieces⟩
  · cases hlater

/-! ## Behind a word character -/

/-- The at signs and the name as mere text. -/
def Mention.kept (m : Mention) : List Piece :=
  (List.replicate m.count '@' ++ m.name).map fun c => .text [c]

variable {sql : String} {m : Mention} {c : Char}

theorem endInWord_ofChars {cs : List Char} (hc : cs.getLast? = some c) (hword : isWord c = true) :
    EndInWord (Run.ofChars cs) := by
  intro run hrun
  have hvalid := (Run.areLongest_ofChars cs).valid run (List.mem_of_getLast? hrun)
  have hlast : run.last = c := by
    obtain ⟨front, hfront⟩ := List.getLast?_eq_some_iff.mp hrun
    have hchars := Run.chars_ofChars cs
    rw [hfront, List.flatMap_append, List.flatMap_singleton] at hchars
    rw [← hchars, List.getLast?_append, Run.getLast?_chars] at hc
    exact Option.some.inj hc
  cases run with
  | word first name => exact ⟨first, name, rfl⟩
  | sigils count =>
    rw [← hlast, Run.last, Run.isWord_at] at hword
    cases hword
  | quote mark =>
    rw [← hlast, Run.last, Run.isWord_of_isQuote hvalid] at hword
    cases hword
  | other d =>
    rw [← hlast, Run.last, hvalid.2.1] at hword
    cases hword

/-- Pieces from a name behind at signs on, cut small, where no quote is in front of it: the
parameter, or the at signs and the name as they are, and then everything else. -/
theorem Occurrence.exists_chunks_of_unopened {o : Occurrence} {front after : List Char}
    (h : o.StandsIn front after) (hopening : o.opening = none) {others : List Piece}
    (hothers : spelled others = after) :
    ∃ right, spelled right = o.closing.toList ++ after ∧
      (¬ (o.mention front after).IsParameter →
        Binding.chunks (o.pieces ++ others) = (o.mention front after).kept ++ right) ∧
      ((o.mention front after).IsParameter → ∃ sigil, sigil.count = o.count + 1 ∧
        Binding.chunks (o.pieces ++ others) = [.parameter none sigil o.name] ++ right) := by
  refine ⟨o.closing.toList.map (fun c => .text [c]) ++ Binding.chunks others, ?_, ?_, ?_⟩
  · rw [spelled_append, spelled_characters, spelled_chunks, hothers]
  · intro hno
    rcases pieces_cases h with ⟨-, hpieces⟩ | ⟨hyes, -⟩
    · rw [hpieces]
      simp [Binding.chunks, Piece.chunks, chars, hopening, Mention.kept, mention]
    · exact absurd hyes hno
  · intro hyes
    rcases pieces_cases h with ⟨hno, -⟩ | ⟨-, sigil, hcount, ⟨hsame, -, hpieces⟩ | hpieces⟩
    · exact absurd hyes hno
    · refine ⟨sigil, hcount, ?_⟩
      rw [hpieces, hsame, hopening]
      rfl
    · refine ⟨sigil, hcount, ?_⟩
      rw [hpieces, hopening]
      simp [Binding.chunks, Piece.chunks]

/-- The same of the pieces of runs; `front` is the text before them. -/
theorem exists_chunks_of_sigils (front : List Char) (n : Nat) (first : Char) (name : List Char)
    {runs : List Run} (hvalid : ∀ run ∈ runs, run.IsValid) :
    ∃ right, spelled right = runs.flatMap Run.chars ∧
      (¬ (Mention.mk front (n + 1) (first :: name) (runs.flatMap Run.chars)).IsParameter →
        chunks (pieces front.getLast? (.sigils n :: .word first name :: runs)) =
          (Mention.mk front (n + 1) (first :: name) (runs.flatMap Run.chars)).kept ++ right) ∧
      ((Mention.mk front (n + 1) (first :: name) (runs.flatMap Run.chars)).IsParameter →
        ∃ sigil, sigil.count = n + 1 ∧
          chunks (pieces front.getLast? (.sigils n :: .word first name :: runs)) =
            [.parameter none sigil (first :: name)] ++ right) := by
  by_cases hquote : ∃ closing rest, runs = .quote closing :: rest
  · -- the quote is looked at together with the name
    obtain ⟨closing, rest, rfl⟩ := hquote
    have hclosing : isQuote closing = true := hvalid (.quote closing) (by simp)
    have hothers := (@divides_pieces (some closing) rest [closing]
      (fun run hrun => hvalid run (by simp [hrun])) rfl).spelled_eq
    have hstands : Occurrence.StandsIn
        ⟨front.getLast?, none, n, first :: name, some closing, firstChar? rest⟩ front
        (rest.flatMap Run.chars) :=
      ⟨rfl, (head?_flatMap_chars rest).symm, by simp, by simpa using hclosing⟩
    have hcut := Occurrence.exists_chunks_of_unopened hstands rfl hothers
    simpa [Occurrence.mention, pieces, Run.chars] using hcut
  · have hothers := (@divides_pieces (some (Run.word first name).last) runs (first :: name) hvalid
      (Run.getLast?_chars (.word first name)).symm).spelled_eq
    have hstands :
        Occurrence.StandsIn ⟨front.getLast?, none, n, first :: name, none, firstChar? runs⟩ front
        (runs.flatMap Run.chars) := ⟨rfl, (head?_flatMap_chars runs).symm, by simp, by simp⟩
    have hcut := Occurrence.exists_chunks_of_unopened hstands rfl hothers
    have hpieces : pieces front.getLast? (.sigils n :: .word first name :: runs) =
        Occurrence.pieces ⟨front.getLast?, none, n, first :: name, none, firstChar? runs⟩ ++
          pieces (some (Run.word first name).last) runs := by
      rw [pieces]
      intro closing rest h
      exact hquote ⟨closing, rest, h⟩
    simpa [Occurrence.mention, hpieces] using hcut

/-- The text around a name behind at signs and a word character, cut small. -/
theorem exists_chunks_behind_word (hlongest : m.IsLongest) (htext : m.text = sql.toList)
    (hc : m.before.getLast? = some c) (hword : isWord c = true) :
    ∃ left right, spelled left = m.before ∧ spelled right = m.after ∧
      (¬ m.IsParameter → chunksOfText sql = left ++ m.kept ++ right) ∧
      (m.IsParameter → ∃ sigil, sigil.count = m.count ∧
        chunksOfText sql = left ++ [.parameter none sigil m.name] ++ right) := by
  obtain ⟨before, count, name, after⟩ := m
  obtain ⟨n, rfl⟩ := Nat.exists_eq_succ_of_ne_zero (Nat.ne_of_gt hlongest.count_pos)
  obtain ⟨first, rest, rfl⟩ := List.exists_cons_of_ne_nil hlongest.name_ne
  obtain ⟨left, hleft, hcut⟩ := exists_pieces_before_sigils n
    (.word first rest :: Run.ofChars after) none (Run.areLongest_ofChars before).valid
    (endInWord_ofChars hc hword)
  obtain ⟨right, hright, hkept, htaken⟩ := exists_chunks_of_sigils before n first rest
    (Run.areLongest_ofChars after).valid
  rw [Run.chars_ofChars] at hleft hright hkept htaken
  rw [lastChar?_eq, Run.chars_ofChars, Option.or_none] at hcut
  have hchunks : chunksOfText sql =
      chunks left ++ chunks
        (pieces before.getLast? (.sigils n :: .word first rest :: Run.ofChars after)) := by
    rw [chunksOfText, piecesOfText, ← htext, hlongest.ofChars_text, hcut, chunks_append]
  refine ⟨chunks left, right, by rw [spelled_chunks, hleft], hright, ?_, ?_⟩
  · intro hno
    rw [hchunks, hkept hno, List.append_assoc]
  · intro hyes
    obtain ⟨sigil, hcount, htaken⟩ := htaken hyes
    exact ⟨sigil, hcount, by rw [hchunks, htaken, List.append_assoc]⟩

/-- Behind a word character a name with at signs is a parameter only if the character is
overlooked. -/
theorem isParameter_behind_word (hc : m.before.getLast? = some c) (hword : isWord c = true) :
    m.IsParameter ↔
      m.count ≤ 3 ∧ isOverlooked c = true ∧ ∀ d ∈ m.after.head?, isGlue d = false := by
  have hglue := isGlue_of_isWord hword
  constructor
  · intro h
    have hbefore := h.isGlue_before c hc
    rw [hglue, Bool.not_eq_false'] at hbefore
    exact ⟨h.count_le, hbefore, h.isGlue_after⟩
  · intro ⟨hcount, hoverlooked, hafter⟩
    refine ⟨hcount, ?_, hafter⟩
    intro d hd
    rw [hc, Option.mem_some] at hd
    rw [← hd, hglue, hoverlooked]
    rfl

/-- Behind a word character, at signs and a name are left alone, unless the character is one that is
overlooked. Behind such a character they are a parameter like any other. -/
theorem bind_behind_word (hlongest : m.IsLongest) (htext : m.text = sql.toList)
    (hc : m.before.getLast? = some c) (hword : isWord c = true) :
    (m.IsParameter ↔ m.count ≤ 3 ∧ isOverlooked c = true ∧ ∀ d ∈ m.after.head?, isGlue d = false) ∧
      ∃ left right, spelled left = m.before ∧ spelled right = m.after ∧
        (¬ m.IsParameter → chunksOfText sql = left ++ m.kept ++ right) ∧
        (m.IsParameter → ∃ sigil, sigil.count = m.count ∧
          chunksOfText sql = left ++ [.parameter none sigil m.name] ++ right) ∧
        ∀ (values : Entries String Json) (query : BoundQuery), bind values sql = .ok query ↔
          (∀ name ∈ names (chunksOfText sql), (Entries.get? values name).isSome) ∧
            query = ⟨String.ofList (replaced values 0 (chunksOfText sql)),
              boundValues values (chunksOfText sql)⟩ := by
  have hblank : Text.isBlankText sql = false := by
    have hat : '@' ∈ sql.toList := by
      rw [← htext]
      simp [Mention.text, Nat.ne_of_gt hlongest.count_pos]
    exact List.all_eq_false.mpr ⟨'@', hat, by decide⟩
  obtain ⟨left, right, hleft, hright, hkept, htaken⟩ :=
    exists_chunks_behind_word hlongest htext hc hword
  exact ⟨isParameter_behind_word hc hword, left, right, hleft, hright, hkept, htaken,
    fun values query => bind_eq_ok_iff hblank⟩

/-- A mail address in a string, its last letter and the accent written as one character. -/
def composedMail : String := "SELECT 'caf\u00e9@home'"

/-- The name behind the at sign of the address. -/
def composedMention : Mention := ⟨"SELECT 'caf\u00e9".toList, 1, "home".toList, ['\'']⟩

def homeValues : Entries String Json := [("home", .number (.int 7))]

theorem isLongest_of_home (before : List Char) (hbefore : before.getLast? ≠ some '@') :
    Mention.IsLongest ⟨before, 1, "home".toList, ['\'']⟩ where
  count_pos := Nat.one_pos
  before_ne := by
    intro c hc h
    exact hbefore (h ▸ hc)
  name_ne := show "home".toList ≠ [] by decide
  isWord_name := List.all_eq_true.mp (show "home".toList.all isWord = true by decide +kernel)
  isWord_after := by
    intro c hc
    cases hc
    decide +kernel

/-- The address is left alone. -/
theorem bind_behind_word_composedMail :
    composedMention.IsLongest ∧ composedMention.text = composedMail.toList ∧
      composedMention.before.getLast? = some '\u00e9' ∧ isWord '\u00e9' = true ∧
      ¬ composedMention.IsParameter ∧ bind homeValues composedMail = .ok ⟨composedMail, []⟩ := by
  have hlongest : composedMention.IsLongest :=
    isLongest_of_home "SELECT 'caf\u00e9".toList (by decide +kernel)
  have htext : composedMention.text = composedMail.toList := by decide
  have hlast : composedMention.before.getLast? = some '\u00e9' := by decide
  have hword : isWord '\u00e9' = true := by decide +kernel
  obtain ⟨hparameter, left, right, hleft, hright, hkept, -, hbind⟩ :=
    bind_behind_word hlongest htext hlast hword
  have hno : ¬ composedMention.IsParameter := by
    intro h
    exact absurd (hparameter.mp h).2.1 (by decide +kernel)
  have hl : '@' ∉ spelled left := by
    rw [hleft]
    decide
  have hr : '@' ∉ spelled right := by
    rw [hright]
    decide
  have hnames : names (chunksOfText composedMail) = [] := by
    rw [hkept hno, names_append, names_append, names_eq_nil hl, names_eq_nil hr]
    decide
  have hreplaced : replaced homeValues 0 (chunksOfText composedMail) = composedMail.toList := by
    rw [hkept hno, replaced_between hl hr, hleft, hright]
    decide
  refine ⟨hlongest, htext, hlast, hword, hno, (hbind _ _).mpr ⟨by simp [hnames], ?_⟩⟩
  rw [hreplaced, boundValues_of_names_eq_nil hnames, String.ofList_toList]

/-! ## Behind a combining mark -/

/-- What a text becomes if names behind at signs stay as they are wherever a word character is in
front of them. -/
def KeepsWords (values : Entries String Json) (sql : String) (query : BoundQuery) : Prop :=
  ∀ (m : Mention) (c : Char), m.IsLongest → m.text = sql.toList → m.before.getLast? = some c →
    isWord c = true → ∃ left right, spelled left = m.before ∧ spelled right = m.after ∧
      query.sql.toList = replaced values 0 (left ++ m.kept ++ right)

/-- The address with the accent as a character of its own, behind its letter. -/
def decomposedMail : String := "SELECT 'cafe\u0301@home'"

/-- The accent may stand in a name, but the name behind it is replaced. -/
theorem not_keepsWords_decomposedMail :
    bind homeValues decomposedMail = .ok ⟨"SELECT 'cafe\u0301$1'", [.number (.int 7)]⟩ ∧
      ∀ query, bind homeValues decomposedMail = .ok query →
        ¬ KeepsWords homeValues decomposedMail query := by
  have hbind : bind homeValues decomposedMail = .ok ⟨"SELECT 'cafe\u0301$1'", [.number (.int 7)]⟩ :=
    bind_eq_ok "SELECT 'cafe\u0301$1'" ["home"] (by decide +kernel) (by decide +kernel)
      (by decide +kernel) (by decide +kernel)
  refine ⟨hbind, ?_⟩
  intro query hquery hkeeps
  cases hbind.symm.trans hquery
  obtain ⟨left, right, hleft, hright, h⟩ :=
    hkeeps ⟨"SELECT 'cafe\u0301".toList, 1, "home".toList, ['\'']⟩ '\u0301'
      (isLongest_of_home _ (by decide +kernel)) (by decide) (by decide) (by decide +kernel)
  have hl : '@' ∉ spelled left := by
    rw [hleft]
    decide
  have hr : '@' ∉ spelled right := by
    rw [hright]
    decide
  rw [replaced_between hl hr, hleft, hright] at h
  revert h
  decide +kernel

end DescriptorSql.Binding
