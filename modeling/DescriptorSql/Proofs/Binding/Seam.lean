import DescriptorSql.Proofs.Binding.Replacement

/-!
# `Proofs/Binding/Seam.lean` — texts that meet

The binder looks at a name behind at signs together with the quotes beside it. Where two texts meet,
it is cut at the seam unless such a name lies across it. This is said once, for runs
(`isCutAt_pieces`): in front of later runs, runs are cut as far as they go, or, if a name ends them,
together with the quote behind it.

A character that no parameter contains and that does not glue, such as a blank or a semicolon, is a
seam on both of its sides: the parameters of the whole are those of the two parts
(`segmentsOfText_seam`), and they are filled in one part after the other (`fillAll_append`).
-/

set_option autoImplicit false

namespace DescriptorSql.Binding

open CharClass (isWord)

/-! ## The end of runs -/

/-- The last character of the text that runs spell; `before` is the character in front of it. -/
def lastChar? (before : Option Char) : List Run → Option Char
  | [] => before
  | run :: rest => lastChar? (some run.last) rest

theorem lastChar?_eq (before : Option Char) (runs : List Run) :
    lastChar? before runs = (runs.flatMap Run.chars).getLast?.or before := by
  induction runs generalizing before with
  | nil => rfl
  | cons run rest ih =>
    rw [lastChar?, ih, List.flatMap_cons, List.getLast?_append, Run.getLast?_chars, Option.or_assoc,
      Option.some_or]

/-- The runs end in a name behind at signs. -/
def endsInMention : List Run → Bool
  | [.sigils _, .word _ _] => true
  | _ :: rest => endsInMention rest
  | [] => false

/-- A name behind at signs ends the text of runs if it is the last one that they show. -/
theorem endsInMention_iff (front : List Char) (runs : List Run) :
    endsInMention runs = true ↔ ∃ m ∈ mentionsOfRuns front runs, m.after = [] := by
  induction front, runs using mentionsOfRuns.induct with
  | case1 front count first name rest ih =>
    rcases rest with _ | ⟨run, rest⟩
    · simp [endsInMention, mentionsOfRuns]
    · have hne : (run :: rest).flatMap Run.chars ≠ [] := by simp [Run.chars_ne_nil]
      rw [mentionsOfRuns, List.exists_mem_cons_iff, ← ih, endsInMention, endsInMention]
      · exact ⟨Or.inr, fun h => h.resolve_left hne⟩
      all_goals simp
  | case2 front run rest hno ih =>
    have hrun : ∀ count first name, run = .sigils count → rest ≠ [.word first name] := by
      rintro count first name rfl rfl
      exact hno count first name [] rfl rfl
    rw [mentionsOfRuns_cons, ← ih, endsInMention]
    · rintro count first name hcount hrest
      exact hrun count first name hcount hrest
    · rintro count rfl first name hnext
      obtain ⟨after, rfl⟩ := List.head?_eq_some_iff.mp hnext
      exact hno count first name after rfl rfl
  | case3 front => simp [endsInMention, mentionsOfRuns]

/-- A single run in front of others does not change how they end. -/
theorem endsInMention_single {run : Run} {rest : List Run} (h : IsSingle run rest) :
    endsInMention (run :: rest) = endsInMention rest := by
  rw [endsInMention]
  exact fun count first name hrun => h.sigils count hrun first name []

/-- The last of the runs is a word, if there is a last one. -/
def EndInWord (runs : List Run) : Prop :=
  ∀ run ∈ runs.getLast?, ∃ first name, run = .word first name

theorem EndInWord.of_append {taken rest : List Run} (h : EndInWord (taken ++ rest)) :
    EndInWord rest := by
  intro run hrun
  refine h run ?_
  rw [List.getLast?_append, Option.mem_def.mp hrun, Option.some_or]
  rfl

/-! ## Where runs meet -/

namespace Occurrence

/-- The pieces of an occurrence beside quotes spell it, whatever stands beside those. -/
theorem spelled_of_quotes {o : Occurrence} (hopening : ∀ mark ∈ o.opening, isQuote mark = true)
    (hclosing : ∀ mark ∈ o.closing, isQuote mark = true) : spelled o.pieces = o.chars := by
  have hstands : o.StandsIn o.before.toList o.after.toList :=
    ⟨by cases o.before <;> rfl, by cases o.after <;> rfl, hopening, hclosing⟩
  exact spelled_pieces hstands

/-- A neighbour that does not glue is as good as none. -/
theorem pieces_of_isGlue_eq_false {after : Option Char} (h : ∀ c ∈ after, isGlue c = false)
    (before opening : Option Char) (count : Nat) (name : List Char) (closing : Option Char) :
    pieces ⟨before, opening, count, name, closing, after⟩ =
      pieces ⟨before, opening, count, name, closing, none⟩ := by
  cases after with
  | none => rfl
  | some c =>
    have hfree : ∀ dotted, isFree dotted (some c) = isFree dotted none := by
      intro dotted
      simp [isFree, h c rfl]
    cases closing <;>
      simp [pieces, chars, isQuoted, isFreeWithQuotes, isFreeWithoutQuotes, hfree]

end Occurrence

/-- How runs are cut in front of later ones: as far as they go, and just like on their own if what
follows does not glue; or together with a quote that follows, if a name behind at signs ends
them. -/
inductive IsCutAt (later : List Run) (before : Option Char) (runs : List Run) : Prop
  | apart (left : List Piece) (spelled_eq : spelled left = runs.flatMap Run.chars)
      (pieces_eq : pieces before (runs ++ later) = left ++ pieces (lastChar? before runs) later)
      (left_eq : (∀ c ∈ firstChar? later, isGlue c = false) → left = pieces before runs)
      (unquoted : endsInMention runs = true → StartsUnquoted later)
  | closed (left : List Piece) (o : Occurrence) (mark : Char) (rest : List Run)
      (later_eq : later = .quote mark :: rest) (closing_eq : o.closing = some mark)
      (after_eq : o.after = firstChar? rest) (ends : endsInMention runs = true)
      (spelled_eq : spelled left ++
        (o.opening.toList ++ List.replicate (o.count + 1) '@' ++ o.name) = runs.flatMap Run.chars)
      (pieces_eq : pieces before (runs ++ later) = left ++ o.pieces ++ pieces (some mark) rest)

section

variable {later : List Run}

/-- Runs that are looked at together, in front of others: their own pieces come first. -/
theorem IsCutAt.append {before after : Option Char} (taken : List Run) {rest : List Run}
    (own : List Piece) (hrest : IsCutAt later after rest)
    (hown : spelled own = taken.flatMap Run.chars)
    (hlast : lastChar? before (taken ++ rest) = lastChar? after rest)
    (hpieces : pieces before (taken ++ (rest ++ later)) = own ++ pieces after (rest ++ later))
    (halone : (∀ c ∈ firstChar? later, isGlue c = false) →
      pieces before (taken ++ rest) = own ++ pieces after rest)
    (hends : ¬ StartsUnquoted later → endsInMention (taken ++ rest) = endsInMention rest) :
    IsCutAt later before (taken ++ rest) := by
  rcases hrest with ⟨left, hspelled, hcut, hleft, hunquoted⟩ |
    ⟨left, o, mark, others, hlater, hclosing, hafter, hmention, hspelled, hcut⟩
  · refine .apart (own ++ left) ?_ ?_ ?_ ?_
    · rw [spelled_append, hown, hspelled, List.flatMap_append]
    · rw [List.append_assoc, hpieces, hcut, hlast, List.append_assoc]
    · intro hglue
      rw [halone hglue, hleft hglue]
    · intro hmention
      by_contra hquoted
      exact hquoted (hunquoted (hends hquoted ▸ hmention))
  · have hquoted : ¬ StartsUnquoted later := fun h => h mark others hlater
    refine .closed (own ++ left) o mark others hlater hclosing hafter ?_ ?_ ?_
    · rw [hends hquoted, hmention]
    · rw [spelled_append, hown, List.append_assoc, hspelled, List.flatMap_append]
    · rw [List.append_assoc, hpieces, hcut, List.append_assoc, List.append_assoc, List.append_assoc]

/-- A single run stays one in front of more runs, unless these go on with a name that it begins. -/
theorem IsSingle.append {run : Run} {rest : List Run} (h : IsSingle run rest)
    (hword : ∀ first name others, later ≠ .word first name :: others)
    (hsigils : ∀ count others, later = .sigils count :: others → EndInWord (run :: rest)) :
    IsSingle run (rest ++ later) := by
  refine ⟨fun count hrun first name others hnext => ?_,
    fun mark hrun count first name others hnext => ?_⟩
  · cases rest with
    | nil => exact hword first name others hnext
    | cons next rest =>
      rw [List.cons_append, List.cons.injEq] at hnext
      exact h.sigils count hrun first name rest (by rw [hnext.1])
  · -- at signs and a name behind a quote: both behind the seam, one on each side, or both in front
    -- of it
    match rest, hnext with
    | [], hnext =>
      obtain ⟨first', name', hlast⟩ := hsigils count _ hnext run rfl
      rw [hrun] at hlast
      cases hlast
    | [next], hnext => exact hword first name others (List.cons.inj hnext).2
    | next :: last :: rest, hnext =>
      rw [List.cons_append, List.cons_append, List.cons.injEq, List.cons.injEq] at hnext
      exact h.quote mark hrun count first name rest (by rw [hnext.1, hnext.2.1])

theorem endsInMention_mentionRuns (opening : Option Char) (count : Nat) (first : Char)
    (name : List Char) {closing : Option Char} {rest : List Run}
    (h : ¬ (closing = none ∧ rest = [])) :
    endsInMention (mentionRuns opening count first name closing ++ rest) = endsInMention rest := by
  cases opening <;> cases closing <;> cases rest <;>
    simp_all [mentionRuns, endsInMention]

theorem lastChar?_mentionRuns (before opening : Option Char) (count : Nat) (first : Char)
    (name : List Char) (closing : Option Char) (rest : List Run) :
    lastChar? before (mentionRuns opening count first name closing ++ rest) =
      lastChar? (some (closing.getD (Run.word first name).last)) rest := by
  cases opening <;> cases closing <;> rfl

/-- A name behind at signs that ends the runs takes the quote behind it. -/
theorem IsCutAt.ofMention (before opening : Option Char) (count : Nat) (first : Char)
    (name : List Char) (mark : Char) (rest : List Run) :
    IsCutAt (.quote mark :: rest) before (mentionRuns opening count first name none) := by
  have hpieces : pieces before (mentionRuns opening count first name (some mark) ++ rest) = _ :=
    pieces_mention before opening count first name (by simp)
  refine .closed [] ⟨before, opening, count, first :: name, some mark, firstChar? rest⟩ mark rest
    rfl rfl rfl ?_ ?_ ?_
  · cases opening <;> rfl
  · cases opening <;> simp [mentionRuns, Run.chars]
  · rw [List.nil_append]
    refine Eq.trans (congrArg (pieces before) ?_) hpieces
    simp [mentionRuns]

/-- Runs in front of later ones are cut at the seam, but for a quote behind a name at their end. The
later runs may not go on with a name that the runs begin: their first run is no word, and no at
signs unless a word is in front of it. -/
theorem isCutAt_pieces (before : Option Char) (runs : List Run)
    (hvalid : ∀ run ∈ runs, run.IsValid)
    (hword : ∀ first name rest, later ≠ .word first name :: rest)
    (hsigils : ∀ count rest, later = .sigils count :: rest → EndInWord runs) :
    IsCutAt later before runs := by
  -- what is looked at together lies in front of the seam, or is a name with the quote behind it
  induction before, runs using scan_induction with
  | mention before opening count first name closing rest hrest ih =>
    obtain ⟨hmention, hothers⟩ := List.forall_mem_append.mp hvalid
    have hcut := ih hothers fun n others hlater => (hsigils n others hlater).of_append
    by_cases hunquoted : closing = none → StartsUnquoted (rest ++ later)
    · obtain ⟨hopening, hclosing⟩ := isQuote_of_mentionRuns hmention
      refine hcut.append _ (Occurrence.pieces
        ⟨before, opening, count, first :: name, closing, firstChar? (rest ++ later)⟩) ?_
        (lastChar?_mentionRuns before opening count first name closing rest)
        (pieces_mention before opening count first name hunquoted) ?_ ?_
      · rw [Occurrence.spelled_of_quotes hopening hclosing]
        exact (chars_mentionRuns opening count first name closing before _).symm
      · intro hglue
        rw [pieces_mention before opening count first name hrest]
        cases rest with
        | nil => rw [List.nil_append, Occurrence.pieces_of_isGlue_eq_false hglue]; rfl
        | cons run rest => rfl
      · intro hquoted
        refine endsInMention_mentionRuns opening count first name ?_
        rintro ⟨hnone, rfl⟩
        exact hquoted (hunquoted hnone)
    · -- a quote is behind the name, and since none is among the runs, it is the first of the
      -- later ones
      rw [Classical.not_imp] at hunquoted
      obtain ⟨rfl, hquoted⟩ := hunquoted
      cases rest with
      | nil =>
        simp only [StartsUnquoted, List.nil_append, not_forall, not_not] at hquoted
        obtain ⟨mark, others, rfl⟩ := hquoted
        rw [List.append_nil]
        exact .ofMention before opening count first name mark others
      | cons run rest =>
        refine absurd (fun mark others h => ?_) hquoted
        exact hrest rfl mark rest (by rw [(List.cons.inj h).1])
  | single before run rest hsingle ih =>
    have hend : ∀ n others, later = .sigils n :: others → EndInWord rest := by
      intro n others hlater
      have hwhole : EndInWord ([run] ++ rest) := hsigils n others hlater
      exact hwhole.of_append
    have hcut := ih (fun other hother => hvalid other (by simp [hother])) hend
    exact hcut.append [run] [.text run.chars] (by simp [Piece.chars]) rfl
      (pieces_single (hsingle.append hword hsigils) before) (fun _ => pieces_single hsingle before)
      (fun _ => endsInMention_single hsingle)
  | nil before => exact .apart [] rfl rfl (fun _ => rfl) (fun h => by cases h)

end

/-! ## A character that is a seam -/

/-- The character is in no parameter, and a parameter beside it is not a part of something else. -/
structure IsSeam (c : Char) : Prop where
  isValid : (Run.other c).IsValid
  isGlue_eq : isGlue c = false

theorem isSeam_semicolon : IsSeam ';' :=
  ⟨⟨by decide, by decide +kernel, by decide⟩, by decide +kernel⟩

/-- A character that is neither an at sign nor of a word is a run of its own. -/
theorem ofChars_single {c : Char} {run : Run} (hat : c ≠ '@') (hword : isWord c = false)
    (hrun : Run.ofChars [c] = [run]) (as bs : List Char) :
    Run.ofChars (as ++ c :: bs) = Run.ofChars as ++ run :: Run.ofChars bs := by
  have hjoins : ∀ d, Run.joins c d = false ∧ Run.joins d c = false := by
    intro d
    simp [Run.joins, hat, hword]
  have hsingle : Run.ofChars (c :: bs) = run :: Run.ofChars bs := by
    have happend : Run.ofChars ([c] ++ bs) = Run.ofChars [c] ++ Run.ofChars bs :=
      Run.ofChars_append fun d hd e _ => by
        cases hd
        exact (hjoins e).1
    rwa [hrun] at happend
  rw [← hsingle]
  refine Run.ofChars_append fun d _ e he => ?_
  cases he
  exact (hjoins d).2

theorem ofChars_seam {c : Char} (hc : IsSeam c) (as bs : List Char) :
    Run.ofChars (as ++ c :: bs) = Run.ofChars as ++ .other c :: Run.ofChars bs := by
  obtain ⟨hat, hword, hquote⟩ := hc.isValid
  exact ofChars_single hat hword (by simp [Run.ofChars, Run.push, hat, hword, hquote]) as bs

/-- The parameters in front of the character and behind it are found without each other. -/
theorem segments_seam {c : Char} (hc : isGlue c = false) (before : Option Char) {as : List Run}
    (hvalid : ∀ run ∈ as, run.IsValid) (bs : List Run) :
    segments before (as ++ .other c :: bs) =
      segments before as ++ .text [c] :: segments (some c) bs := by
  have hsingle : IsSingle (.other c) bs := ⟨by simp, by simp⟩
  have hcut : IsCutAt (.other c :: bs) before as :=
    isCutAt_pieces before as hvalid (by simp) (by simp)
  rcases hcut with ⟨left, -, hpieces, hleft, -⟩ | ⟨left, o, mark, rest, hlater⟩
  · have hglue : ∀ d ∈ firstChar? (.other c :: bs), isGlue d = false := by
      intro d hd
      cases hd
      exact hc
    rw [segments_eq, hpieces, hleft hglue, pieces_single hsingle, List.map_append, List.map_cons,
      ← segments_eq, ← segments_eq]
    rfl
  · cases hlater

theorem segmentsOfText_seam {c : Char} (hc : IsSeam c) (a b : String) :
    segmentsOfText (a ++ String.singleton c ++ b) =
      segmentsOfText a ++ .text [c] :: segments (some c) (Run.ofChars b.toList) := by
  have htext : (a ++ String.singleton c ++ b).toList = a.toList ++ c :: b.toList := by simp
  rw [segmentsOfText, htext, ofChars_seam hc,
    segments_seam hc.isGlue_eq none (Run.areLongest_ofChars a.toList).valid, segmentsOfText]

/-! ## Filling in -/

variable {values : Entries String Json}

theorem fillAll_append (bound : Nat) (first second : List Segment) :
    fillAll values bound (first ++ second) = do
      let a ← fillAll values bound first
      let b ← fillAll values (bound + a.values.length) second
      return ⟨a.sql ++ b.sql, a.values ++ b.values⟩ := by
  induction first generalizing bound with
  -- nothing is filled, and the numbers of the second part stay
  | nil =>
    have hnil : fillAll values bound [] >>= (fun a =>
        fillAll values (bound + a.values.length) second >>= fun b =>
          pure (⟨a.sql ++ b.sql, a.values ++ b.values⟩ : BoundQuery)) =
        fillAll values bound second >>= fun b => pure ⟨"" ++ b.sql, [] ++ b.values⟩ := rfl
    rw [List.nil_append, hnil]
    cases fillAll values bound second with
    | error e => rfl
    | ok b =>
      have hok : Except.ok b >>= (fun b => pure (⟨"" ++ b.sql, [] ++ b.values⟩ : BoundQuery)) =
          (Except.ok ⟨"" ++ b.sql, b.values⟩ : Except QueryError BoundQuery) := rfl
      rw [hok, String.empty_append]
  | cons segment rest ih =>
    rw [List.cons_append]
    cases hfill : fill values bound segment with
    | error e =>
      rw [fillAll, fillAll, hfill]
      rfl
    | ok filled =>
      obtain ⟨text, own⟩ := filled
      rw [fillAll_cons hfill, fillAll_cons hfill, ih]
      cases fillAll values (bound + own.length) rest with
      | error e => rfl
      | ok a =>
        -- the second part is numbered behind the values of the first segment and of the rest
        have hlength : bound + (own ++ a.values).length = bound + own.length + a.values.length := by
          rw [List.length_append, Nat.add_assoc]
        show Except.map _ (fillAll values (bound + own.length + a.values.length) second >>= _) =
          fillAll values (bound + (own ++ a.values).length) second >>= _
        rw [hlength]
        cases fillAll values (bound + own.length + a.values.length) second with
        | error e => rfl
        | ok b =>
          show Except.ok _ = Except.ok _
          rw [String.append_assoc, List.append_assoc]

/-- Filling in fails for a missing value, and for nothing else. -/
theorem exists_missing_of_fillAll {segments : List Segment} {bound : Nat} {error : QueryError}
    (h : fillAll values bound segments = .error error) :
    ∃ name, error = .missingParameterValue name := by
  induction segments generalizing bound with
  | nil => cases h
  | cons segment rest ih =>
    cases hfill : fill values bound segment with
    | ok filled =>
      rw [fillAll_cons hfill] at h
      cases hrest : fillAll values (bound + filled.2.length) rest with
      | ok others =>
        rw [hrest] at h
        cases h
      | error other =>
        rw [hrest] at h
        cases h
        exact ih hrest
    | error other =>
      rw [fillAll, hfill] at h
      cases h
      unfold fill at hfill
      split at hfill
      · cases hfill
      · split at hfill
        · cases hfill
          exact ⟨_, rfl⟩
        · split at hfill <;> cases hfill

/-- A text and a semicolon behind it: the semicolon stays. -/
theorem fillAll_semicolon (sql : String) :
    fillAll values 0 (segmentsOfText (sql ++ ";")) =
      (fun bound : BoundQuery => ⟨bound.sql ++ ";", bound.values⟩) <$>
        fillAll values 0 (segmentsOfText sql) := by
  have htext : sql ++ ";" = sql ++ String.singleton ';' ++ "" := by
    rw [String.append_empty]
    rfl
  have hsegments : segmentsOfText (sql ++ ";") = segmentsOfText sql ++ [.text [';']] := by
    rw [htext, segmentsOfText_seam isSeam_semicolon]
    rfl
  rw [hsegments, fillAll_append]
  cases fillAll values 0 (segmentsOfText sql) with
  | error e => rfl
  | ok bound =>
    show Except.ok (⟨bound.sql ++ (String.ofList [';'] ++ ""), bound.values ++ []⟩ : BoundQuery) =
      .ok ⟨bound.sql ++ ";", bound.values⟩
    rw [String.append_empty, List.append_nil]

end DescriptorSql.Binding
