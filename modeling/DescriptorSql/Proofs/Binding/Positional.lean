import DescriptorSql.Proofs.Binding.Replacement
import DescriptorSql.Proofs.Lexical.Word

/-!
# `Proofs/Binding/Positional.lean` — the positional parameters of a bound text

Outside quotes, a dollar sign of a bound text was put there for a value, and the number behind it is
the number of that value; or it stood outside quotes before, with the same number behind it
(`positional_of_bind`). This is so where the names that are filled in fit in: a name may not change
what is quoted, may hold no dollar sign outside quotes, and may not write on a number
(`FitsBehind`). Verbatim parameters fill in whatever they like, and are left out.

Numbers start at one whatever stands in the text already: a dollar sign that stood there may have
the number of a value (`positional_captured`).
-/

set_option autoImplicit false

namespace DescriptorSql.Binding

open CharClass (isWord)
open Decimal (isDigit)

/-! ## Quotations -/

/-- The quote of the quotation that is open behind a text, if one is. -/
def quotation : Option Char → List Char → Option Char
  | state, [] => state
  | none, c :: rest => quotation (if isQuote c then some c else none) rest
  | some mark, c :: rest => quotation (if c = mark then none else some mark) rest

theorem quotation_append (state : Option Char) (as bs : List Char) :
    quotation state (as ++ bs) = quotation (quotation state as) bs := by
  induction as generalizing state with
  | nil => rfl
  | cons c as ih => cases state <;> exact ih _

/-- Text without quotes opens and closes nothing. -/
theorem quotation_of_isQuote_eq_false {state : Option Char} {cs : List Char}
    (hstate : ∀ mark ∈ state, isQuote mark = true) (hcs : ∀ c ∈ cs, isQuote c = false) :
    quotation state cs = state := by
  induction cs with
  | nil => rfl
  | cons c cs ih =>
    have hc := hcs c List.mem_cons_self
    have hrest := ih fun d hd => hcs d (List.mem_cons_of_mem c hd)
    cases state with
    | none => simpa [quotation, hc] using hrest
    | some mark =>
      have hne : c ≠ mark := by
        rintro rfl
        simp [hstate c rfl] at hc
      simpa [quotation, hne] using hrest

theorem isQuote_quotation {state : Option Char} (hstate : ∀ mark ∈ state, isQuote mark = true)
    (cs : List Char) : ∀ mark ∈ quotation state cs, isQuote mark = true := by
  induction cs generalizing state with
  | nil => exact hstate
  | cons c cs ih =>
    cases state with
    | none =>
      refine ih ?_
      split <;> simp_all
    | some open' =>
      refine ih ?_
      split
      · simp
      · exact hstate

/-- Two equal quotes around text without quotes leave the quotation as it was. -/
theorem quotation_enclosed {state : Option Char} {mark : Char} {cs : List Char}
    (hstate : ∀ other ∈ state, isQuote other = true) (hmark : isQuote mark = true)
    (hcs : ∀ c ∈ cs, isQuote c = false) : quotation state (mark :: (cs ++ [mark])) = state := by
  cases state with
  | none =>
    rw [quotation, if_pos hmark, quotation_append, quotation_of_isQuote_eq_false (by simpa) hcs]
    simp [quotation]
  | some other =>
    rw [quotation, quotation_append]
    by_cases hsame : mark = other
    · subst hsame
      rw [if_pos rfl, quotation_of_isQuote_eq_false (by simp) hcs]
      simp [quotation, hmark]
    · rw [if_neg hsame, quotation_of_isQuote_eq_false hstate hcs]
      simp [quotation, hsame]

/-! ## Parameters in their surroundings -/

theorem takeQuotes_append {front : List Char} {ps qs : List Piece}
    (h : TakeQuotes front (ps ++ qs)) : TakeQuotes (front ++ spelled ps) qs := by
  induction ps generalizing front with
  | nil => simpa using h
  | cons p ps ih => simpa using ih h.2

theorem mention_mem_mentionsOf (quote : Option Char) (sigil : Sigil) (name : List Char)
    (qs : List Piece) (ps : List Piece) (front : List Char) :
    ⟨front ++ spelled ps ++ quote.toList, sigil.count, name, quote.toList ++ spelled qs⟩ ∈
      mentionsOf front (ps ++ .parameter quote sigil name :: qs) := by
  induction ps generalizing front with
  | nil => simp [mentionsOf]
  | cons p ps ih =>
    have hrest := ih (front ++ p.chars)
    cases p with
    | text chars => simpa [mentionsOf, Piece.chars] using hrest
    | parameter quote' sigil' name' =>
      rw [List.cons_append, mentionsOf]
      refine List.mem_cons_of_mem _ ?_
      simpa using hrest

/-- A character that is no neighbour of a parameter is no digit. -/
theorem isDigit_eq_false_of_isFree {dotted : Bool} {c : Char} (h : isFree dotted (some c) = true) :
    isDigit c = false := by
  by_contra hdigit
  rw [Bool.not_eq_false] at hdigit
  have hglue : isGlue c = true := by simp [isGlue, Sql.isAlphanumeric_of_isDigit hdigit]
  have hdot : c ≠ '.' := by
    rintro rfl
    simp [isDigit] at hdigit
  simp [isFree, hglue, hdot] at h

/-- A parameter has a name of word characters, quotes for quotes, and no digit behind it. -/
theorem IsCutInto.parameter {sql : String} {ps qs : List Piece} {quote : Option Char}
    {sigil : Sigil} {name : List Char}
    (h : IsCutInto sql (ps ++ .parameter quote sigil name :: qs)) :
    (∀ c ∈ name, isWord c = true) ∧ (∀ mark ∈ quote, isQuote mark = true) ∧
      ∀ c ∈ (spelled qs).head?, isDigit c = false := by
  obtain ⟨-, hlongest, hparameter⟩ :=
    (h.mem_mentionsOf _).mp (mention_mem_mentionsOf quote sigil name qs ps [])
  have hquotes := (takeQuotes_append h.takeQuotes).1
  refine ⟨hlongest.isWord_name, ?_⟩
  cases quote with
  | none =>
    refine ⟨by simp, fun c hc => ?_⟩
    refine @isDigit_eq_false_of_isFree false c ?_
    rw [isFree_false]
    rintro d ⟨⟩
    exact hparameter.isGlue_after c hc
  | some mark =>
    obtain ⟨hmark, -, hafter⟩ := hquotes
    refine ⟨by simpa using hmark, fun c hc => ?_⟩
    rw [hc] at hafter
    exact isDigit_eq_false_of_isFree hafter

/-! ## Names that fit in -/

/-- The text ends with a dollar sign and what digits there are behind it. -/
def EndsInNumber (cs : List Char) : Prop :=
  ∃ front digits, cs = front ++ '$' :: digits ∧ ∀ c ∈ digits, isDigit c = true

/-- A text leaves what is around it to be read as before: it does not change what is quoted, it has
no dollar sign outside quotes, and it does not write on a number. -/
structure FitsBehind (state : Option Char) (before cs : List Char) : Prop where
  quotation_eq : quotation state cs = state
  no_dollar : ∀ pre post, cs = pre ++ '$' :: post → quotation state pre ≠ none
  no_number : EndsInNumber before → ∀ c ∈ cs.head?, isDigit c = false

/-- The names that are filled in fit in where they stand. -/
def NamesFit (values : Entries String Json) (pieces : List Piece) : Prop :=
  ∀ ps quote name qs, pieces = ps ++ .parameter quote .identifier name :: qs →
    FitsBehind (quotation none (spelled ps)) (replaced values 0 ps)
      (Sql.identifierOfJson (valueOf values (String.ofList name))).toList

/-- No parameter is filled in as it is. -/
def NoVerbatim (pieces : List Piece) : Prop := ∀ piece ∈ pieces, piece.sigil? ≠ some .verbatim

theorem isDigit_of_mem_repr {n : Nat} {c : Char} (hc : c ∈ (Nat.repr n).toList) :
    isDigit c = true :=
  Sql.isDigit_of_mem_toDigits (by rwa [Nat.toList_repr] at hc)

theorem isQuote_eq_false_of_isDigit {c : Char} (hc : isDigit c = true) : isQuote c = false := by
  by_contra hquote
  simp only [Bool.not_eq_false, isQuote, Bool.or_eq_true, beq_iff_eq] at hquote
  rcases hquote with rfl | rfl <;> simp [isDigit] at hc

theorem isQuote_eq_false_of_isWord {c : Char} (hc : isWord c = true) : isQuote c = false := by
  by_contra hquote
  simp [Run.isWord_of_isQuote (Bool.eq_true_of_not_eq_false hquote)] at hc

variable {sql : String} {values : Entries String Json}

/-- Outside the pieces that are replaced nothing changes what is quoted, and they do not either. -/
theorem quotation_replaced {ps qs : List Piece} (hcut : IsCutInto sql (ps ++ qs))
    (hraw : NoVerbatim (ps ++ qs)) (hnames : NamesFit values (ps ++ qs)) :
    quotation none (replaced values 0 ps) = quotation none (spelled ps) := by
  -- the induction takes pieces from the end, since what a piece does to the quotes depends on all
  -- before it
  induction ps using List.reverseRecOn generalizing qs with
  | nil => rfl
  | append_singleton ps p ih =>
    rw [List.append_assoc, List.singleton_append] at hcut hraw hnames
    have hbefore := ih hcut hraw hnames
    have hstate : ∀ mark ∈ quotation none (spelled ps), isQuote mark = true :=
      isQuote_quotation (by simp) _
    rw [replaced_append, spelled_append, quotation_append, quotation_append, hbefore, replaced,
      replaced, spelled_cons, spelled_nil, List.append_nil, List.append_nil]
    cases p with
    | text cs => rfl
    | parameter quote sigil name =>
      obtain ⟨hname, hquote, -⟩ := hcut.parameter
      -- a placeholder opens no quote that it does not close
      have hchars : quotation (quotation none (spelled ps))
          (Piece.parameter quote sigil name).chars = quotation none (spelled ps) := by
        have hbody : ∀ c ∈ List.replicate sigil.count '@' ++ name, isQuote c = false := by
          intro c hc
          rcases List.mem_append.mp hc with hc | hc
          · rw [(List.mem_replicate.mp hc).2]
            decide
          · exact isQuote_eq_false_of_isWord (hname c hc)
        cases quote with
        | none => simpa [Piece.chars] using quotation_of_isQuote_eq_false hstate hbody
        | some mark =>
          simpa [Piece.chars] using quotation_enclosed hstate (hquote mark rfl) hbody
      rw [hchars]
      -- and what is written for it does not either
      cases sigil with
      | value =>
        refine quotation_of_isQuote_eq_false hstate fun c hc => ?_
        rcases List.mem_cons.mp hc with rfl | hc
        · decide
        · exact isQuote_eq_false_of_isDigit (isDigit_of_mem_repr hc)
      | identifier => exact (hnames ps quote name qs rfl).quotation_eq
      | verbatim => exact absurd rfl (hraw (.parameter quote .verbatim name) (by simp))

/-! ## Numbers -/

theorem EndsInNumber.append {cs digits : List Char} (h : EndsInNumber cs)
    (hdigits : ∀ c ∈ digits, isDigit c = true) : EndsInNumber (cs ++ digits) := by
  obtain ⟨front, before, rfl, hbefore⟩ := h
  refine ⟨front, before ++ digits, by simp, fun c hc => ?_⟩
  rcases List.mem_append.mp hc with hc | hc
  · exact hbefore c hc
  · exact hdigits c hc

theorem takeWhile_eq_nil {cs : List Char} (h : ∀ c ∈ cs.head?, isDigit c = false) :
    cs.takeWhile isDigit = [] := by
  cases cs with
  | nil => rfl
  | cons c cs => rw [List.takeWhile_cons, if_neg (by simp [h c rfl])]

/-- A parameter begins with a quote or an at sign. -/
theorem isDigit_head_parameter {quote : Option Char} (hquote : ∀ mark ∈ quote, isQuote mark = true)
    (sigil : Sigil) (name after : List Char) :
    ∀ c ∈ ((Piece.parameter quote sigil name).chars ++ after).head?, isDigit c = false := by
  intro c hc
  cases quote with
  | none =>
    have hat : c = '@' := by
      cases sigil <;> simpa [Piece.chars, Sigil.count, eq_comm] using hc
    rw [hat]
    decide
  | some mark =>
    have hmark : mark = c := by simpa [Piece.chars] using hc
    by_contra hdigit
    have hno := isQuote_eq_false_of_isDigit (Bool.eq_true_of_not_eq_false hdigit)
    rw [← hmark, hquote mark rfl] at hno
    cases hno

/-- Behind a number that is not finished, replacing parameters adds no digits and hides none. -/
theorem takeWhile_replaced {ps qs : List Piece} (hcut : IsCutInto sql (ps ++ qs))
    (hraw : NoVerbatim (ps ++ qs)) (hnames : NamesFit values (ps ++ qs))
    (hnumber : EndsInNumber (replaced values 0 ps)) (bound : Nat) :
    (replaced values bound qs).takeWhile isDigit = (spelled qs).takeWhile isDigit := by
  induction qs generalizing ps bound with
  | nil => rfl
  | cons q qs ih =>
    have hnext := @ih (ps ++ [q]) (by simpa using hcut) (by simpa using hraw)
      (by simpa using hnames)
    rw [replaced, spelled_cons]
    cases q with
    | text cs =>
      rw [Piece.replacement, Piece.chars, List.takeWhile_append, List.takeWhile_append]
      split
      · next hall =>
        have hdigits : ∀ c ∈ cs, isDigit c = true :=
          List.takeWhile_eq_self_iff.mp (List.takeWhile_prefix _ |>.eq_of_length hall)
        rw [hnext]
        rw [replaced_append]
        simpa [replaced, Piece.replacement] using hnumber.append hdigits
      · rfl
    | parameter quote sigil name =>
      obtain ⟨-, hquote, hafter⟩ := hcut.parameter
      have hspelled : ((Piece.parameter quote sigil name).chars ++ spelled qs).takeWhile isDigit =
          [] := takeWhile_eq_nil (isDigit_head_parameter hquote sigil name _)
      rw [hspelled]
      cases sigil with
      | value => rfl
      | identifier =>
        have hfits := hnames ps quote name qs rfl
        rw [Piece.replacement]
        cases htext : (Sql.identifierOfJson (valueOf values (String.ofList name))).toList with
        | nil =>
          -- nothing is filled in, and what comes next is no digit in the text
          rw [List.nil_append, hnext, takeWhile_eq_nil hafter]
          simpa [replaced_append, replaced, Piece.replacement, htext] using hnumber
        | cons c cs =>
          refine takeWhile_eq_nil fun d hd => ?_
          rw [htext] at hfits
          exact hfits.no_number hnumber d (by simpa using hd)
      | verbatim => exact absurd rfl (hraw (.parameter quote .verbatim name) (by simp))

/-! ## Dollar signs -/

/-- The place is that of the `k`-th value, which is there for the parameter's name. -/
def IsPlaceOf (values : Entries String Json) (pieces : List Piece) (before : List Char)
    (k : Nat) : Prop :=
  ∃ ps quote name qs, pieces = ps ++ .parameter quote .value name :: qs ∧
    before = replaced values 0 ps ∧ k = (boundValues values ps).length + 1 ∧
    (boundValues values pieces)[(boundValues values ps).length]? =
      some (valueOf values (String.ofList name))

/-- The dollar sign behind `before` is one of the text, where it stood outside quotes with the same
digits behind it. -/
def IsKept (values : Entries String Json) (pieces : List Piece) (before digits : List Char) :
    Prop :=
  ∃ ps kept more qs, pieces = ps ++ .text (kept ++ '$' :: more) :: qs ∧
    before = replaced values 0 ps ++ kept ∧ quotation none (spelled ps ++ kept) = none ∧
    (more ++ spelled qs).takeWhile isDigit = digits

/-- An element of two lists in a row stands in the second or in the first. -/
theorem split_append {α : Type} {as bs xs ys : List α} {y : α} (h : as ++ bs = xs ++ y :: ys) :
    (∃ xs', xs = as ++ xs' ∧ bs = xs' ++ y :: ys) ∨
      ∃ tail, as = xs ++ y :: tail ∧ ys = tail ++ bs := by
  rcases List.append_eq_append_iff.mp h with ⟨xs', hxs, hbs⟩ | ⟨tail, has, hys⟩
  · exact Or.inl ⟨xs', hxs, hbs⟩
  · cases tail with
    | nil => exact Or.inl ⟨[], by simpa using has.symm, by simpa using hys.symm⟩
    | cons z tail =>
      obtain ⟨rfl, rfl⟩ := List.cons.inj hys
      exact Or.inr ⟨tail, has, rfl⟩

/-- A dollar sign in the text that is kept. -/
theorem isKept_of_text {ps qs : List Piece} {kept more : List Char}
    (hcut : IsCutInto sql (ps ++ .text (kept ++ '$' :: more) :: qs))
    (hraw : NoVerbatim (ps ++ .text (kept ++ '$' :: more) :: qs))
    (hnames : NamesFit values (ps ++ .text (kept ++ '$' :: more) :: qs)) {bound : Nat}
    (hopen : quotation none (replaced values 0 ps ++ kept) = none) :
    IsKept values (ps ++ .text (kept ++ '$' :: more) :: qs) (replaced values 0 ps ++ kept)
      ((more ++ replaced values bound qs).takeWhile isDigit) := by
  refine ⟨ps, kept, more, qs, rfl, rfl, ?_, ?_⟩
  · rw [quotation_append, ← quotation_replaced hcut hraw hnames, ← quotation_append]
    exact hopen
  · rw [List.takeWhile_append, List.takeWhile_append]
    split
    · next hall =>
      have hdigits : ∀ c ∈ more, isDigit c = true :=
        List.takeWhile_eq_self_iff.mp (List.takeWhile_prefix _ |>.eq_of_length hall)
      rw [@takeWhile_replaced _ _ (ps ++ [.text (kept ++ '$' :: more)]) _ (by simpa using hcut)
        (by simpa using hraw) (by simpa using hnames)]
      exact ⟨replaced values 0 ps ++ kept, more,
        by simp [replaced_append, replaced, Piece.replacement], hdigits⟩
    · rfl

/-- The dollar sign of a value parameter. -/
theorem isPlaceOf_parameter {ps qs : List Piece} {quote : Option Char} {name : List Char}
    (hcut : IsCutInto sql (ps ++ .parameter quote .value name :: qs))
    (hraw : NoVerbatim (ps ++ .parameter quote .value name :: qs))
    (hnames : NamesFit values (ps ++ .parameter quote .value name :: qs)) {bound : Nat} :
    IsPlaceOf values (ps ++ .parameter quote .value name :: qs) (replaced values 0 ps)
        ((boundValues values ps).length + 1) ∧
      ((Nat.repr ((boundValues values ps).length + 1)).toList ++
          replaced values bound qs).takeWhile isDigit =
        (Nat.repr ((boundValues values ps).length + 1)).toList := by
  refine ⟨⟨ps, quote, name, qs, rfl, rfl, rfl, by simp [boundValues, Piece.valueName?]⟩, ?_⟩
  obtain ⟨-, -, hafter⟩ := hcut.parameter
  rw [List.takeWhile_append_of_pos fun c hc => isDigit_of_mem_repr hc,
    @takeWhile_replaced _ _ (ps ++ [.parameter quote .value name]) _ (by simpa using hcut)
      (by simpa using hraw) (by simpa using hnames), takeWhile_eq_nil hafter, List.append_nil]
  exact ⟨replaced values 0 ps, (Nat.repr ((boundValues values ps).length + 1)).toList,
    by simp [replaced_append, replaced, Piece.replacement], fun c hc => isDigit_of_mem_repr hc⟩

/-- A dollar sign outside quotes is in the place of a value or was kept. -/
theorem place_of_dollar {ps qs : List Piece} (hcut : IsCutInto sql (ps ++ qs))
    (hraw : NoVerbatim (ps ++ qs)) (hnames : NamesFit values (ps ++ qs)) {before after : List Char}
    (hsplit : replaced values (boundValues values ps).length qs = before ++ '$' :: after)
    (hopen : quotation none (replaced values 0 ps ++ before) = none) :
    (∃ k, IsPlaceOf values (ps ++ qs) (replaced values 0 ps ++ before) k ∧
        after.takeWhile isDigit = (Nat.repr k).toList) ∨
      IsKept values (ps ++ qs) (replaced values 0 ps ++ before) (after.takeWhile isDigit) := by
  induction qs generalizing ps before with
  | nil => simp [replaced] at hsplit
  | cons q qs ih =>
    have hreplaced : replaced values 0 (ps ++ [q]) =
        replaced values 0 ps ++ q.replacement values (boundValues values ps).length := by
      simp [replaced_append, replaced]
    have hlength : (boundValues values (ps ++ [q])).length =
        (boundValues values ps).length + (boundValues values [q]).length := by
      simp [boundValues]
    rw [replaced] at hsplit
    rcases split_append hsplit with ⟨before, rfl, hrest⟩ | ⟨tail, hpiece, rfl⟩
    · -- the dollar sign stands behind this piece
      have hnext := @ih (ps ++ [q]) (by simpa using hcut)
        (by simpa using hraw) (by simpa using hnames) before (by rw [hlength, hrest])
        (by rw [hreplaced]; simpa using hopen)
      simpa [hreplaced] using hnext
    · cases q with
      | text cs =>
        rw [Piece.replacement] at hpiece
        subst hpiece
        exact Or.inr (isKept_of_text hcut hraw hnames hopen)
      | parameter quote sigil name =>
        cases sigil with
        | value =>
          rw [Piece.replacement] at hpiece
          cases before with
          | nil =>
            obtain ⟨-, rfl⟩ := List.cons.inj hpiece
            rw [List.append_nil]
            exact Or.inl ⟨_, isPlaceOf_parameter hcut hraw hnames⟩
          | cons c before =>
            -- the number itself has no dollar sign
            obtain ⟨-, hrepr⟩ := List.cons.inj hpiece
            have hmem : '$' ∈ (Nat.repr ((boundValues values ps).length + 1)).toList := by
              simp [hrepr]
            have hdollar := isDigit_of_mem_repr hmem
            simp [isDigit] at hdollar
        | identifier =>
          have hfits := hnames ps quote name qs rfl
          rw [quotation_append, quotation_replaced hcut hraw hnames] at hopen
          exact absurd hopen (hfits.no_dollar before tail hpiece)
        | verbatim => exact absurd rfl (hraw (.parameter quote .verbatim name) (by simp))

/-- Outside quotes, a dollar sign of a bound text with a number behind it is the place of the value
of that number, or it stood in the text outside quotes with that number behind it. -/
theorem positional_of_bind {query : BoundQuery} (hbind : bind values sql = .ok query)
    (hraw : NoVerbatim (piecesOfText sql)) (hnames : NamesFit values (piecesOfText sql))
    {before after : List Char} (hsplit : query.sql.toList = before ++ '$' :: after)
    (hopen : quotation none before = none) :
    (∃ k, 1 ≤ k ∧ k ≤ query.values.length ∧ after.takeWhile isDigit = (Nat.repr k).toList ∧
        IsPlaceOf values (piecesOfText sql) before k) ∨
      IsKept values (piecesOfText sql) before (after.takeWhile isDigit) := by
  obtain rfl := eq_of_bind hbind
  rw [String.toList_ofList] at hsplit
  rcases @place_of_dollar _ _ [] _ (isCutInto_piecesOfText sql) hraw hnames _ _ hsplit hopen
    with
    ⟨k, hplace, hdigits⟩ | hkept
  · obtain ⟨ps, quote, name, qs, hpieces, hbefore, rfl, hvalue⟩ := id hplace
    obtain ⟨hlt, -⟩ := List.getElem?_eq_some_iff.mp hvalue
    exact Or.inl ⟨_, Nat.succ_pos _, hlt, hdigits, hplace⟩
  · exact Or.inr hkept

/-- Names without quotes, dollar signs and digits fit in. -/
theorem namesFit_of_plain {pieces : List Piece}
    (h : ∀ quote name, .parameter quote .identifier name ∈ pieces →
      ∀ c ∈ (Sql.identifierOfJson (valueOf values (String.ofList name))).toList,
        isQuote c = false ∧ c ≠ '$' ∧ isDigit c = false) :
    NamesFit values pieces := by
  rintro ps quote name qs rfl
  have hplain := h quote name (by simp)
  refine ⟨?_, ?_, ?_⟩
  · exact quotation_of_isQuote_eq_false (isQuote_quotation (by simp) _) fun c hc => (hplain c hc).1
  · intro pre post hsplit
    exact absurd rfl (hplain '$' (by simp [hsplit])).2.1
  · exact fun _ c hc => (hplain c (List.mem_of_mem_head? hc)).2.2

/-- A query with a parameter for a name and one for a value. -/
def columnQuery : String := "SELECT @@column FROM users WHERE id = @id"

def columnValues : Entries String Json := [("column", .string "*"), ("id", .number (.int 7))]

/-- The dollar sign of the bound query is the place of its one value, or was there before. -/
theorem positional_columnQuery :
    bind columnValues columnQuery =
        .ok ⟨"SELECT * FROM users WHERE id = $1", [.number (.int 7)]⟩ ∧
      ((∃ k, 1 ≤ k ∧ k ≤ 1 ∧ ['1'] = (Nat.repr k).toList ∧
          IsPlaceOf columnValues (piecesOfText columnQuery)
            "SELECT * FROM users WHERE id = ".toList k) ∨
        IsKept columnValues (piecesOfText columnQuery)
          "SELECT * FROM users WHERE id = ".toList ['1']) := by
  have hbind : bind columnValues columnQuery =
      .ok ⟨"SELECT * FROM users WHERE id = $1", [.number (.int 7)]⟩ :=
    bind_eq_ok _ ["id"] (by decide +kernel) (by decide +kernel) (by decide +kernel)
      (by decide +kernel)
  have hraw : NoVerbatim (piecesOfText columnQuery) := by
    unfold NoVerbatim
    decide +kernel
  have hfit : NamesFit columnValues (piecesOfText columnQuery) := by
    have hfilter : (piecesOfText columnQuery).filter (·.sigil? = some .identifier) =
        [.parameter none .identifier "column".toList] := by decide +kernel
    have htext : (Sql.identifierOfJson (valueOf columnValues
        (String.ofList "column".toList))).toList = ['*'] := by decide +kernel
    refine namesFit_of_plain fun quote name hmem => ?_
    have hone : .parameter quote .identifier name ∈
        (piecesOfText columnQuery).filter (·.sigil? = some .identifier) :=
      List.mem_filter.mpr ⟨hmem, by simp [Piece.sigil?]⟩
    rw [hfilter] at hone
    obtain ⟨rfl, rfl⟩ : quote = none ∧ name = "column".toList := by simpa using hone
    rw [htext]
    simp [isQuote, isDigit]
  exact ⟨hbind, positional_of_bind hbind hraw hfit
    (show "SELECT * FROM users WHERE id = $1".toList =
      "SELECT * FROM users WHERE id = ".toList ++ '$' :: ['1'] by decide +kernel)
    (by decide +kernel)⟩

/-! ## Dollar signs that are no places -/

/-- Outside quotes, every dollar sign of the bound text with a number behind it is the place of the
value of that number. -/
def NumbersOnlyValues (values : Entries String Json) (sql : String) : Prop :=
  ∀ query before after, bind values sql = .ok query → query.sql.toList = before ++ '$' :: after →
    quotation none before = none → after.takeWhile isDigit ≠ [] →
    ∃ k, 1 ≤ k ∧ k ≤ query.values.length ∧ after.takeWhile isDigit = (Nat.repr k).toList ∧
      IsPlaceOf values (piecesOfText sql) before k

/-- A number that no value has. -/
theorem not_numbersOnlyValues {query : BoundQuery} (before after : List Char)
    (hbind : bind values sql = .ok query) (hsplit : query.sql.toList = before ++ '$' :: after)
    (hopen : quotation none before = none) (hdigits : after.takeWhile isDigit ≠ [])
    (hno : ∀ k, k < query.values.length →
      after.takeWhile isDigit ≠ (Nat.repr (k + 1)).toList) :
    ¬ NumbersOnlyValues values sql := by
  intro hnumbers
  obtain ⟨k, hpos, hle, hrepr, -⟩ := hnumbers query before after hbind hsplit hopen hdigits
  obtain ⟨k, rfl⟩ := Nat.exists_eq_succ_of_ne_zero (Nat.ne_of_gt hpos)
  exact hno k hle hrepr

/-- A text with a positional parameter of its own, whose number the first value gets. -/
def numberedQuery : String := "SELECT $1, @id"

def idValues : Entries String Json := [("id", .number (.int 7))]

/-- A dollar sign that stands in the text is not renumbered, and a value may get its number. Nor are
the numbers of the values the only ones where a name is a positional parameter, or ends a quotation,
or goes on with the number of a value. -/
theorem positional_captured :
    (bind idValues numberedQuery = .ok ⟨"SELECT $1, $1", [.number (.int 7)]⟩ ∧
        NoVerbatim (piecesOfText numberedQuery) ∧ ¬ NumbersOnlyValues idValues numberedQuery) ∧
      ¬ NumbersOnlyValues [("name", .string "$1")] "SELECT @@name" ∧
      ¬ NumbersOnlyValues [("name", .string "f(')")] "SELECT @@name, '$1'" ∧
      ¬ NumbersOnlyValues [("id", .number (.int 7)), ("name", .number (.int 5))]
        "SELECT '@id''@@name'" := by
  refine ⟨?_, ?_, ?_, ?_⟩
  · have hbind : bind idValues numberedQuery = .ok ⟨"SELECT $1, $1", [.number (.int 7)]⟩ :=
      bind_eq_ok _ ["id"] (by decide +kernel) (by decide +kernel) (by decide +kernel)
        (by decide +kernel)
    refine ⟨hbind, by unfold NoVerbatim; decide +kernel, fun hnumbers => ?_⟩
    obtain ⟨k, -, -, -, ps, quote, name, qs, hsplit, hbefore, -⟩ := hnumbers _ "SELECT ".toList
      "1, $1".toList hbind (by decide +kernel) (by decide +kernel) (by decide +kernel)
    -- the one parameter of the text stands behind its own dollar sign
    have hplaces : ∀ i < (piecesOfText numberedQuery).length,
        (piecesOfText numberedQuery)[i]?.bind Piece.sigil? = some .value →
          replaced idValues 0 ((piecesOfText numberedQuery).take i) ≠ "SELECT ".toList := by
      decide +kernel
    refine hplaces ps.length (by simp [hsplit]) (by simp [hsplit, Piece.sigil?]) ?_
    rw [hsplit, List.take_left, hbefore]
  · exact not_numbersOnlyValues "SELECT ".toList ['1']
      (bind_eq_ok "SELECT $1" [] (by decide +kernel) (by decide +kernel)
        (by decide +kernel) (by decide +kernel))
      (by decide +kernel) (by decide +kernel) (by decide +kernel) (by simp)
  · exact not_numbersOnlyValues "SELECT f('), '".toList "1'".toList
      (bind_eq_ok "SELECT f('), '$1'" [] (by decide +kernel)
        (by decide +kernel) (by decide +kernel) (by decide +kernel))
      (by decide +kernel) (by decide +kernel) (by decide +kernel) (by simp)
  · refine not_numbersOnlyValues "SELECT ".toList "15".toList
      (bind_eq_ok "SELECT $15" ["id"] (by decide +kernel) (by decide +kernel)
        (by decide +kernel) (by decide +kernel))
      (by decide +kernel) (by decide +kernel) (by decide +kernel) ?_
    intro k hk
    obtain rfl : k = 0 := by simpa using hk
    decide +kernel

end DescriptorSql.Binding
