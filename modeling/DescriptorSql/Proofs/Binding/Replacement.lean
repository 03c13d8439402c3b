import DescriptorSql.Binding.Bind
import DescriptorSql.Proofs.Binding.Piece

/-!
# `Proofs/Binding/Replacement.lean` — what binding makes of a text

A bound text is the row of pieces of the text with every parameter replaced, and nothing else
changed; its values are those of the value parameters, one for each (`bind_replaces`). Binding fails
on the first parameter without a value, and on nothing else.
-/

set_option autoImplicit false

namespace DescriptorSql.Binding

/-- The value of a name; a name that is bound has one. -/
def valueOf (values : Entries String Json) (name : String) : Json :=
  (Entries.get? values name).getD .null

namespace Piece

/-- The name of a parameter. -/
def name? : Piece → Option String
  | text _ => none
  | parameter _ _ name => some (String.ofList name)

/-- The name of a value parameter. -/
def valueName? : Piece → Option String
  | parameter _ .value name => some (String.ofList name)
  | _ => none

/-- What stands in the place of the piece after a number of values. -/
def replacement (values : Entries String Json) (bound : Nat) : Piece → List Char
  | text chars => chars
  | parameter _ .value _ => '$' :: (Nat.repr (bound + 1)).toList
  | parameter _ .identifier name =>
    (Sql.identifierOfJson (valueOf values (String.ofList name))).toList
  | parameter _ .verbatim name => (verbatimText (valueOf values (String.ofList name))).toList

end Piece

/-- The names of the parameters, in order. -/
def names (pieces : List Piece) : List String := pieces.filterMap Piece.name?

/-- The values that are bound, in order: one for each value parameter. -/
def boundValues (values : Entries String Json) (pieces : List Piece) : List Json :=
  (pieces.filterMap Piece.valueName?).map (valueOf values)

/-- The text with its parameters replaced, after a number of values. Value parameters are numbered
on from there, and what replaces a parameter is not looked at again. -/
def replaced (values : Entries String Json) (bound : Nat) : List Piece → List Char
  | [] => []
  | piece :: rest =>
    piece.replacement values bound ++
      replaced values (bound + (boundValues values [piece]).length) rest

theorem names_cons (piece : Piece) (rest : List Piece) :
    names (piece :: rest) = piece.name?.toList ++ names rest := by
  cases h : piece.name? <;> simp [names, h]

theorem boundValues_cons (values : Entries String Json) (piece : Piece) (rest : List Piece) :
    boundValues values (piece :: rest) = boundValues values [piece] ++ boundValues values rest := by
  cases h : piece.valueName? <;> simp [boundValues, h]

theorem boundValues_single (values : Entries String Json) (piece : Piece) :
    boundValues values [piece] = (piece.valueName?.map (valueOf values)).toList := by
  cases h : piece.valueName? <;> simp [boundValues, h]

/-- What pieces are replaced by is found piece by piece, with the values before each counted. -/
theorem replaced_append (values : Entries String Json) (bound : Nat) (ps qs : List Piece) :
    replaced values bound (ps ++ qs) =
      replaced values bound ps ++ replaced values (bound + (boundValues values ps).length) qs := by
  induction ps generalizing bound with
  | nil => rfl
  | cons p ps ih =>
    rw [List.cons_append, replaced, replaced, ih, boundValues_cons values p ps, List.length_append,
      List.append_assoc, Nat.add_assoc]

variable {values : Entries String Json}

theorem fill_piece {piece : Piece} (h : ∀ name ∈ piece.name?, (Entries.get? values name).isSome)
    (bound : Nat) :
    fill values bound piece.segment =
      .ok (String.ofList (piece.replacement values bound), boundValues values [piece]) := by
  cases piece with
  | text chars => rfl
  | parameter quote sigil name =>
    obtain ⟨value, hvalue⟩ := Option.isSome_iff_exists.mp (h _ rfl)
    have hvalueOf : valueOf values (String.ofList name) = value := by
      rw [valueOf, hvalue, Option.getD_some]
    cases sigil <;>
      simp [fill, Piece.segment, hvalue, Piece.replacement, hvalueOf, boundValues_single,
        Piece.valueName?, ← String.toList_inj]

theorem fill_missing {piece : Piece} {name : String} (hname : piece.name? = some name)
    (h : Entries.get? values name = none) (bound : Nat) :
    fill values bound piece.segment = .error (.missingParameterValue name) := by
  cases piece with
  | text chars => cases hname
  | parameter quote sigil chars =>
    cases hname
    simp [fill, Piece.segment, h]

theorem fillAll_cons {segment : Segment} {bound : Nat} {text : String} {own : List Json}
    (h : fill values bound segment = .ok (text, own)) (rest : List Segment) :
    fillAll values bound (segment :: rest) =
      (fillAll values (bound + own.length) rest).map
        fun others => ⟨text ++ others.sql, own ++ others.values⟩ := by
  rw [fillAll, h]
  change (fillAll values (bound + own.length) rest >>= fun others =>
    pure (⟨text ++ others.sql, own ++ others.values⟩ : BoundQuery)) = _
  cases fillAll values (bound + own.length) rest <;> rfl

/-- Pieces whose names all have values. -/
theorem fillAll_pieces {pieces : List Piece}
    (h : ∀ name ∈ names pieces, (Entries.get? values name).isSome) (bound : Nat) :
    fillAll values bound (pieces.map Piece.segment) =
      .ok ⟨String.ofList (replaced values bound pieces), boundValues values pieces⟩ := by
  induction pieces generalizing bound with
  | nil => rfl
  | cons piece rest ih =>
    rw [names_cons] at h
    have hpiece := @fill_piece values piece
      (fun name hname => h name (List.mem_append_left _ (by simpa using hname))) bound
    have hrest := ih (fun name hname => h name (List.mem_append_right _ hname))
      (bound + (boundValues values [piece]).length)
    rw [List.map_cons, fillAll_cons hpiece, hrest, replaced, String.ofList_append,
      boundValues_cons values piece rest]
    rfl

/-- The first name without a value is reported. -/
theorem fillAll_missing {pieces : List Piece} {name : String}
    (h : (names pieces).find? (fun name => (Entries.get? values name).isNone) = some name)
    (bound : Nat) :
    fillAll values bound (pieces.map Piece.segment) = .error (.missingParameterValue name) := by
  induction pieces generalizing bound with
  | nil => cases h
  | cons piece rest ih =>
    rw [names_cons] at h
    cases hname : piece.name? with
    | none =>
      have hpiece := @fill_piece values piece (by simp [hname]) bound
      have hrest := ih (by simpa [hname] using h) (bound + (boundValues values [piece]).length)
      rw [List.map_cons, fillAll_cons hpiece, hrest]
      rfl
    | some own =>
      by_cases hown : Entries.get? values own = none
      · have hsame : own = name := by simpa [hname, hown] using h
        rw [List.map_cons, fillAll, fill_missing (hsame ▸ hname) (hsame ▸ hown) bound]
        rfl
      · have hvalue : (Entries.get? values own).isSome := Option.isSome_iff_ne_none.mpr hown
        have hpiece := @fill_piece values piece (by simpa [hname]) bound
        have hrest := ih (by simpa [hname, hown] using h)
          (bound + (boundValues values [piece]).length)
        rw [List.map_cons, fillAll_cons hpiece, hrest]
        rfl

/-- Where pieces are filled in, all names have values. -/
theorem isSome_of_fillAll {pieces : List Piece} {bound : Nat} {query : BoundQuery}
    (h : fillAll values bound (pieces.map Piece.segment) = .ok query) :
    ∀ name ∈ names pieces, (Entries.get? values name).isSome := by
  intro name hname
  by_contra hmissing
  -- some name has no value, so there is a first one, and it is reported
  have hfind : ((names pieces).find? fun name => (Entries.get? values name).isNone).isSome := by
    rw [List.find?_isSome]
    exact ⟨name, hname, by simpa using hmissing⟩
  obtain ⟨first, hfirst⟩ := Option.isSome_iff_exists.mp hfind
  rw [fillAll_missing hfirst bound] at h
  cases h

theorem bind_eq_fillAll {sql : String} (hsql : Text.isBlankText sql = false) :
    bind values sql = fillAll values 0 ((piecesOfText sql).map Piece.segment) := by
  rw [bind, hsql, segmentsOfText, segments_eq]
  rfl

/-- A text whose names all have values, with the text that its pieces become and the names of the
values that it binds. -/
theorem bind_eq_ok {sql : String} (text : String) (bound : List String)
    (hsql : Text.isBlankText sql = false)
    (hnames : ∀ name ∈ names (piecesOfText sql), (Entries.get? values name).isSome)
    (htext : replaced values 0 (piecesOfText sql) = text.toList)
    (hbound : (piecesOfText sql).filterMap Piece.valueName? = bound) :
    bind values sql = .ok ⟨text, bound.map (valueOf values)⟩ := by
  rw [bind_eq_fillAll hsql, fillAll_pieces hnames, htext, boundValues, hbound, String.ofList_toList]

/-- What binding gives, if it gives anything. -/
theorem eq_of_bind {sql : String} {query : BoundQuery} (h : bind values sql = .ok query) :
    query = ⟨String.ofList (replaced values 0 (piecesOfText sql)),
      boundValues values (piecesOfText sql)⟩ := by
  cases hsql : Text.isBlankText sql with
  | true =>
    rw [bind, hsql] at h
    cases h
  | false =>
    rw [bind_eq_fillAll hsql] at h
    rw [fillAll_pieces (isSome_of_fillAll h)] at h
    exact (Except.ok.inj h).symm

/-- Binding replaces the parameters of a text and nothing else. It succeeds exactly if all of them
have a value; otherwise it reports the first that has none. -/
theorem bind_replaces {sql : String} (hsql : Text.isBlankText sql = false) :
    IsCutInto sql (piecesOfText sql) ∧
      ∀ values : Entries String Json,
        ((∃ query, bind values sql = .ok query) ↔
          ∀ name ∈ names (piecesOfText sql), (Entries.get? values name).isSome) ∧
        ((∀ name ∈ names (piecesOfText sql), (Entries.get? values name).isSome) →
          bind values sql = .ok ⟨String.ofList (replaced values 0 (piecesOfText sql)),
            boundValues values (piecesOfText sql)⟩) ∧
        ∀ missing, (names (piecesOfText sql)).find?
            (fun name => (Entries.get? values name).isNone) = some missing →
          bind values sql = .error (.missingParameterValue missing) := by
  refine ⟨isCutInto_piecesOfText sql, fun values => ?_⟩
  rw [bind_eq_fillAll hsql]
  refine ⟨⟨?_, fun h => ⟨_, fillAll_pieces h 0⟩⟩, fun h => fillAll_pieces h 0,
    fun missing hmissing => fillAll_missing hmissing 0⟩
  rintro ⟨query, hquery⟩
  exact isSome_of_fillAll hquery

/-- A query with a parameter in quotes, and an at sign that is none. -/
def mailQuery : String := "SELECT * FROM users WHERE mail = 'me@home.net' AND id = '@id'"

def mailValues : Entries String Json := [("id", .number (.int 7))]

/-- The parameter is replaced with its quotes, and the mail address is left alone. -/
theorem bind_mailQuery :
    bind mailValues mailQuery =
      .ok ⟨"SELECT * FROM users WHERE mail = 'me@home.net' AND id = $1", [.number (.int 7)]⟩ := by
  have hbind := ((@bind_replaces mailQuery (by decide +kernel)).2 mailValues).2.1
    (by decide +kernel)
  have hsql : String.ofList (replaced mailValues 0 (piecesOfText mailQuery)) =
      "SELECT * FROM users WHERE mail = 'me@home.net' AND id = $1" := by decide +kernel
  have hvalues : (piecesOfText mailQuery).filterMap Piece.valueName? = ["id"] := by decide +kernel
  rw [hbind, hsql, boundValues, hvalues]
  rfl

end DescriptorSql.Binding
