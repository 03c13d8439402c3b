import DescriptorSql.Proofs.Compile.NumberedSelect
import DescriptorSql.Proofs.Lexical.Column
import DescriptorSql.Settings

/-!
# `Proofs/CommandLine/Validation.lean` — the names of valid settings

Settings are valid when the tables and columns of their relations are not blank. What a relation
puts into a statement is made of fixed words and of names (`Relation.targetTokens` and those after
it), and a name is made of segments, each in quotes or as it is (`Sql.segments`). So no segment is
empty in the texts of valid settings, if the relations' aliases are not blank either
(`Settings.fillsNames_iff_of_validate`). Aliases are not looked at, and a blank one leaves nothing
behind its AS and an empty name in the equations.
-/

set_option autoImplicit false

namespace DescriptorSql

/-! ## Segments -/

namespace Sql

/-- The segments of a name as it stands in a statement. -/
def segments (name : String) : List (List Char) :=
  if isVerbatimIdentifier name.toList then Text.splitAt '.' name.toList
  else (Text.splitAt '.' name.toList).map quotePiece

/-- The name stands in a statement by its segments, and all of them say something: none is blank,
and an empty quoted name is one only if that is what was given. -/
structure IsFilled (given : List String) (name : String) : Prop where
  text : identifier name = String.ofList (['.'].intercalate (segments name))
  not_blank : ∀ segment ∈ segments name, segment.all Text.isBlank = false
  not_empty : ∀ segment ∈ segments name, segment = ['\x22', '\x22'] → "\x22\x22" ∈ given

variable {given : List String} {name : String}

/-- A name that is not raw is written segment by segment. -/
theorem identifier_eq_segments (hraw : stripRaw? name = none) :
    identifier name = String.ofList (['.'].intercalate (segments name)) := by
  simp only [identifier, hraw, segments]
  split
  · rw [Text.intercalate_splitAt, String.ofList_toList]
  · rfl

/-- Quotes are not blank, whatever is between them. -/
theorem quotePiece_not_blank (piece : List Char) : (quotePiece piece).all Text.isBlank = false := by
  rw [quotePiece]
  split
  · next hstar =>
    rw [hstar]
    decide
  · rw [Text.enclose, List.cons_append, List.all_cons, Bool.and_eq_false_iff]
    exact Or.inl (by decide)

theorem eq_nil_of_quotePiece {piece : List Char} (h : quotePiece piece = ['\x22', '\x22']) :
    piece = [] := by
  rw [quotePiece] at h
  split at h
  · next hstar =>
    rw [hstar] at h
    cases h
  · cases piece with
    | nil => rfl
    | cons c rest =>
      rw [Text.enclose, Text.double_cons] at h
      have hlength := congrArg List.length h
      split at hlength <;> simp at hlength

/-- A name is filled if none of its pieces is blank. -/
theorem IsFilled.ofPieces (hraw : stripRaw? name = none)
    (hpieces : ∀ piece ∈ Text.splitAt '.' name.toList, piece.all Text.isBlank = false ∧
      String.ofList piece ∈ given) : IsFilled given name where
  text := identifier_eq_segments hraw
  not_blank segment hsegment := by
    rw [segments] at hsegment
    split at hsegment
    · exact (hpieces segment hsegment).1
    · obtain ⟨piece, -, rfl⟩ := List.mem_map.mp hsegment
      exact quotePiece_not_blank piece
  not_empty segment hsegment hempty := by
    rw [segments] at hsegment
    split at hsegment
    · rw [hempty] at hsegment
      exact (hpieces _ hsegment).2
    · obtain ⟨piece, hpiece, rfl⟩ := List.mem_map.mp hsegment
      have hblank := (hpieces piece hpiece).1
      rw [eq_nil_of_quotePiece hempty] at hblank
      cases hblank

/-- A name of one segment, that is not SQL. -/
structure IsProper (name : String) : Prop where
  not_blank : Text.isBlankText name = false
  dot_not_mem : '.' ∉ name.toList
  not_raw : stripRaw? name = none

/-- A proper name has itself for its only segment. -/
theorem IsProper.isFilled (h : IsProper name) (hgiven : name ∈ given) : IsFilled given name := by
  refine .ofPieces h.not_raw fun piece hpiece => ?_
  rw [Text.splitAt_of_not_mem h.dot_not_mem, List.mem_singleton] at hpiece
  subst hpiece
  exact ⟨h.not_blank, by rwa [String.ofList_toList]⟩

theorem IsFilled.path {column : Column} (htable : IsProper column.table)
    (hfield : IsProper column.field) (hgiven : column.table ∈ given ∧ column.field ∈ given) :
    IsFilled given column.path := by
  refine .ofPieces (stripRaw?_qualified htable.not_raw column.field) fun piece hpiece => ?_
  rw [Column.toList_path, Text.splitAt_append htable.dot_not_mem,
    Text.splitAt_of_not_mem hfield.dot_not_mem, List.mem_cons, List.mem_singleton] at hpiece
  rcases hpiece with rfl | rfl
  · exact ⟨htable.not_blank, by rw [String.ofList_toList]; exact hgiven.1⟩
  · exact ⟨hfield.not_blank, by rw [String.ofList_toList]; exact hgiven.2⟩

/-- A blank name stands as it is, which says nothing. -/
theorem not_isFilled_of_blank (hname : Text.isBlankText name = true) : ¬ IsFilled given name := by
  intro hfilled
  have hverbatim : isVerbatimIdentifier name.toList = true := by
    rw [Text.isBlankText] at hname
    simp [isVerbatimIdentifier, hname]
  have hdot : '.' ∉ name.toList :=
    fun hmem => absurd (List.all_eq_true.mp hname '.' hmem) (by decide)
  have hsegments : segments name = [name.toList] := by
    rw [segments, if_pos hverbatim, Text.splitAt_of_not_mem hdot]
  have hblank := hfilled.not_blank name.toList (hsegments ▸ List.mem_cons_self)
  rw [Text.isBlankText, hblank] at hname
  cases hname

/-! ## Tokens -/

/-- The token is a fixed word, or a filled name. -/
inductive Token.IsFilled (given : List String) : Token → Prop
  | name {name : String} : Sql.IsFilled given name → IsFilled given (.ident name)
  | keyword (word : Keyword) : IsFilled given (.keyword word)
  | space : IsFilled given .space
  | eq : IsFilled given .eq
  | as : IsFilled given (.fragment " AS ")

/-- All of the tokens are filled. -/
def AllFilled (given : List String) (tokens : List Token) : Prop :=
  ∀ token ∈ tokens, token.IsFilled given

/-- The tokens of a table, and of its alias if it has one. -/
def refTokens (table : String) (alias? : Option String) : List Token :=
  .ident table :: alias?.toList.flatMap fun name => [.fragment " AS ", .ident name]

def Equation.tokens (e : Equation) : List Token :=
  [.ident e.left.path, .space, .eq, .space, .ident e.right.path]

def joinTokens (kind : JoinKind) (source condition : List Token) : List Token :=
  [.space, .keyword (joinKeyword kind), .space, .keyword .join, .space] ++ source ++
    [.space, .keyword .on, .space] ++ condition

theorem serialize_refTokens (table : String) (alias? : Option String) :
    serialize (refTokens table alias?) = tableRef table alias? := by
  cases alias? <;> simp [refTokens, tableRef, Token.text, String.append_assoc]

theorem Equation.serialize_tokens (e : Equation) : serialize e.tokens = e.text := by
  rw [text_eq, ← String.toList_inj]
  simp [tokens, Token.text]

theorem serialize_joinTokens (kind : JoinKind) (source condition : List Token) :
    serialize (joinTokens kind source condition) =
      joinOn kind (serialize source) (serialize condition) := by
  rw [← String.toList_inj]
  simp [joinTokens, joinOn, spaced, Token.text]

namespace AllFilled

variable {first second : List Token} {token : Token}

theorem nil : AllFilled given [] := fun _ htoken => absurd htoken List.not_mem_nil

theorem cons (h : token.IsFilled given) (hrest : AllFilled given first) :
    AllFilled given (token :: first) :=
  List.forall_mem_cons.mpr ⟨h, hrest⟩

theorem append (h : AllFilled given first) (h' : AllFilled given second) :
    AllFilled given (first ++ second) :=
  List.forall_mem_append.mpr ⟨h, h'⟩

theorem ref {table : String} (htable : IsFilled given table) {alias? : Option String}
    (halias : ∀ name ∈ alias?, IsFilled given name) : AllFilled given (refTokens table alias?) := by
  refine .cons (.name htable) ?_
  cases alias? with
  | none => exact .nil
  | some name => exact .cons .as (.cons (.name (halias name rfl)) .nil)

theorem equation {e : Equation} (hleft : IsFilled given e.left.path)
    (hright : IsFilled given e.right.path) :
    AllFilled given e.tokens :=
  .cons (.name hleft) (.cons .space (.cons .eq (.cons .space (.cons (.name hright) .nil))))

theorem join (kind : JoinKind) (hsource : AllFilled given first)
    (hcondition : AllFilled given second) :
    AllFilled given (joinTokens kind first second) := by
  have hlead :
      AllFilled given [.space, .keyword (joinKeyword kind), .space, .keyword .join, .space] :=
    .cons .space (.cons (.keyword _) (.cons .space (.cons (.keyword _) (.cons .space .nil))))
  have hon : AllFilled given [.space, .keyword .on, .space] :=
    .cons .space (.cons (.keyword _) (.cons .space .nil))
  exact .append (.append (.append hlead hsource) hon) hcondition

end AllFilled

end Sql

/-! ## Relations -/

namespace Relation

open Sql (AllFilled IsProper)

/-- Every name that is given for the relation. -/
def givenNames (relation : Relation) : List String :=
  relation.namedParts.map Prod.snd ++ relation.tableAlias.toList

def targetTokens (relation : Relation) : List Sql.Token :=
  Sql.refTokens relation.table relation.tableAlias

def joinTokens (kind : JoinKind) (relation : Relation) : List Sql.Token :=
  match relation.junction with
  | some junction =>
    Sql.joinTokens kind (Sql.refTokens junction.table none) relation.tie.tokens ++
      Sql.joinTokens kind relation.targetTokens (relation.link junction).tokens
  | none => Sql.joinTokens kind relation.targetTokens relation.tie.tokens

def junctionTokens? (relation : Relation) : Option (List Sql.Token) :=
  relation.junction.map fun junction =>
    Sql.refTokens junction.table none ++
      Sql.joinTokens .left relation.targetTokens (relation.link junction).tokens

/-- The texts of the relation are those of its tokens. -/
structure IsTokenized (relation : Relation) : Prop where
  target : Sql.targetRef relation = Sql.serialize relation.targetTokens
  correlation : Sql.correlation relation = Sql.serialize relation.tie.tokens
  join (kind : JoinKind) : Sql.relationJoin kind relation = Sql.serialize (relation.joinTokens kind)
  junctionSource : Sql.junctionSource? relation = relation.junctionTokens?.map Sql.serialize

/-- No name in the texts of the relation is empty. -/
structure FillsNames (relation : Relation) : Prop where
  target : AllFilled relation.givenNames relation.targetTokens
  correlation : AllFilled relation.givenNames relation.tie.tokens
  join (kind : JoinKind) : AllFilled relation.givenNames (relation.joinTokens kind)
  junctionSource : ∀ tokens ∈ relation.junctionTokens?, AllFilled relation.givenNames tokens

theorem serialize_targetTokens (relation : Relation) :
    Sql.serialize relation.targetTokens = Sql.targetRef relation :=
  Sql.serialize_refTokens relation.table relation.tableAlias

/-- The three texts of a relation are those that the compiler writes, so what is said of the tokens
is said of the compiler. -/
theorem isTokenized (relation : Relation) : relation.IsTokenized where
  target := relation.serialize_targetTokens.symm
  correlation := by rw [Sql.correlation_eq, Sql.Equation.serialize_tokens]
  join kind := by
    rw [Sql.relationJoin_eq, joinTokens, joinedTables]
    cases relation.junction <;>
      simp [Sql.serialize_joinTokens, Sql.serialize_refTokens, serialize_targetTokens,
        Sql.Equation.serialize_tokens]
  junctionSource := by
    rw [Sql.junctionSource?_eq, junctionTokens?, Option.map_map]
    refine congrArg (relation.junction.map ·) (funext fun junction => ?_)
    simp [Sql.serialize_joinTokens, Sql.serialize_refTokens, serialize_targetTokens,
      Sql.Equation.serialize_tokens]

/-- An alias counts as given, although it is not checked. -/
theorem targetName_mem_givenNames (relation : Relation) :
    relation.targetName ∈ relation.givenNames := by
  cases halias : relation.tableAlias <;> simp [targetName, givenNames, namedParts, halias]

/-- The four names of an equation of the relation are given for it. -/
theorem mem_givenNames_of_equation {relation : Relation} {e : Sql.Equation}
    (h : e ∈ relation.equations) :
    (e.left.table ∈ relation.givenNames ∧ e.left.field ∈ relation.givenNames) ∧
      e.right.table ∈ relation.givenNames ∧ e.right.field ∈ relation.givenNames := by
  have htarget := relation.targetName_mem_givenNames
  cases hjunction : relation.junction with
  | none =>
    simp only [equations, tie, hjunction, Option.map_none, Option.toList_none,
      List.mem_singleton] at h
    subst h
    exact ⟨⟨htarget, by simp [givenNames, namedParts]⟩, by simp [givenNames, namedParts]⟩
  | some junction =>
    simp only [equations, tie, hjunction, Option.map_some, Option.toList_some, List.mem_cons,
      List.not_mem_nil, or_false] at h
    rcases h with rfl | rfl
    · simp [givenNames, namedParts, hjunction]
    · refine ⟨?_, htarget, ?_⟩ <;> simp [givenNames, namedParts, hjunction, link]

/-- The texts are filled if every name is proper. -/
theorem fillsNames_of_proper {relation : Relation}
    (h : ∀ name ∈ relation.givenNames, IsProper name) :
    relation.FillsNames := by
  have hfilled : ∀ name ∈ relation.givenNames, Sql.IsFilled relation.givenNames name :=
    fun name hname => (h name hname).isFilled hname
  have hequation : ∀ e ∈ relation.equations, AllFilled relation.givenNames e.tokens := by
    intro e he
    obtain ⟨hleft, hright⟩ := mem_givenNames_of_equation he
    exact .equation (.path (h _ hleft.1) (h _ hleft.2) hleft)
      (.path (h _ hright.1) (h _ hright.2) hright)
  have htie := hequation relation.tie List.mem_cons_self
  have htarget : AllFilled relation.givenNames relation.targetTokens :=
    .ref (hfilled _ (by simp [givenNames, namedParts])) fun name hname =>
      hfilled name (List.mem_append_right _ (Option.mem_toList.mpr hname))
  -- the junction brings a table without an alias and the second equation
  cases hjunction : relation.junction with
  | none =>
    refine ⟨htarget, htie, fun kind => ?_, fun tokens htokens => ?_⟩
    · simp only [joinTokens, hjunction]
      exact .join kind htarget htie
    · simp [junctionTokens?, hjunction] at htokens
  | some junction =>
    have hsource : AllFilled relation.givenNames (Sql.refTokens junction.table none) :=
      .ref (hfilled _ (by simp [givenNames, namedParts, hjunction])) fun _ hname => nomatch hname
    have hlink : AllFilled relation.givenNames (relation.link junction).tokens :=
      hequation _ (by simp [equations, hjunction])
    refine ⟨htarget, htie, fun kind => ?_, fun tokens htokens => ?_⟩
    · simp only [joinTokens, hjunction]
      exact .append (.join kind hsource htie) (.join kind htarget hlink)
    · simp only [junctionTokens?, hjunction, Option.map_some, Option.mem_def,
        Option.some.injEq] at htokens
      subst htokens
      exact .append hsource (.join .left htarget hlink)

/-- A blank alias is not filled. -/
theorem FillsNames.alias_not_blank {relation : Relation} (h : relation.FillsNames) :
    ∀ text ∈ relation.tableAlias, Text.isBlankText text = false := by
  intro text htext
  cases hblank : Text.isBlankText text with
  | false => rfl
  | true =>
    have hident : Sql.Token.ident text ∈ relation.targetTokens := by
      rw [Option.mem_def] at htext
      simp [targetTokens, Sql.refTokens, htext]
    cases h.target _ hident with
    | name hfilled => exact absurd hfilled (Sql.not_isFilled_of_blank hblank)

end Relation

/-! ## Settings -/

namespace Settings

/-- In valid settings no table and no column is blank. -/
theorem not_blank_of_validate {settings : Settings} (hvalid : settings.validate = .ok ())
    {name : String} {relation : Relation} (hmem : (name, relation) ∈ settings.relations) :
    ∀ text ∈ relation.namedParts.map Prod.snd, Text.isBlankText text = false := by
  intro text htext
  have hnone : blankName? settings.relations = none := by
    rw [validate] at hvalid
    split at hvalid
    · cases hvalid
    · assumption
  have hrelation := List.findSome?_eq_none_iff.mp hnone (name, relation) hmem
  obtain ⟨part, hpart, rfl⟩ := List.mem_map.mp htext
  rw [Option.map_eq_none_iff, List.find?_eq_none] at hrelation
  simpa using hrelation part hpart

/-- The names of a relation of valid settings are filled in all of its texts, if the relation has no
blank alias. An alias may be blank in valid settings, and then it stands in the texts as it is. A
subquery that is joined row by row brings its own text, and no name of the relation. -/
theorem fillsNames_iff_of_validate {settings : Settings} (hvalid : settings.validate = .ok ())
    {name : String} {relation : Relation} (hmem : (name, relation) ∈ settings.relations)
    (hnames : ∀ text ∈ relation.givenNames, '.' ∉ text.toList ∧ Sql.stripRaw? text = none) :
    relation.IsTokenized ∧
      (relation.FillsNames ↔ ∀ text ∈ relation.tableAlias, Text.isBlankText text = false) ∧
      (∀ text ∈ relation.tableAlias, Text.isBlankText text = true →
        Sql.targetRef relation = Sql.identifier relation.table ++ " AS " ++ text) ∧
      ∀ subquery, Sql.lateralJoin subquery =
        if subquery.isEmpty then "" else " LEFT JOIN LATERAL (" ++ subquery ++ ") ON TRUE" := by
  have hparts := not_blank_of_validate hvalid hmem
  refine ⟨relation.isTokenized, ⟨Relation.FillsNames.alias_not_blank, fun halias => ?_⟩, ?_,
    lateralJoin_eq⟩
  · refine Relation.fillsNames_of_proper fun text htext => ?_
    obtain ⟨hdot, hraw⟩ := hnames text htext
    refine ⟨?_, hdot, hraw⟩
    rcases List.mem_append.mp htext with hpart | htext
    · exact hparts text hpart
    · exact halias text (Option.mem_toList.mp htext)
  · -- a blank name stands as it is, so nothing but its blanks follows the AS
    intro text htext hblank
    rw [Option.mem_def] at htext
    have hraw : Sql.stripRaw? text = none := (hnames text (by simp [Relation.givenNames, htext])).2
    rw [Text.isBlankText] at hblank
    rw [Sql.targetRef, htext, Sql.tableRef]
    simp [Sql.identifier, hraw, Sql.isVerbatimIdentifier, hblank]

/-- Tags of posts, behind a table of pairs. -/
def tags : Relation :=
  ⟨.many, "tags", "id", "posts", "id", some "t", some ⟨"post_tags", "tag_id", "post_id"⟩⟩

/-- A junction has two equations, and the names of both are filled. -/
theorem fillsNames_tags :
    (Settings.validate { relations := [("tags", tags)] } = .ok () ∧
      ∀ text ∈ tags.givenNames, '.' ∉ text.toList ∧ Sql.stripRaw? text = none) ∧
    tags.FillsNames ∧
    Sql.relationJoin .left tags =
      " LEFT JOIN \"post_tags\" ON \"post_tags\".\"post_id\" = \"posts\".\"id\"" ++
      " LEFT JOIN \"tags\" AS \"t\" ON \"post_tags\".\"tag_id\" = \"t\".\"id\"" := by
  have hvalid : Settings.validate { relations := [("tags", tags)] } = .ok () := by rfl
  have hnames : ∀ text ∈ tags.givenNames, '.' ∉ text.toList ∧ Sql.stripRaw? text = none := by decide
  have halias : ∀ text ∈ tags.tableAlias, Text.isBlankText text = false := by decide
  obtain ⟨-, hfills, -⟩ := fillsNames_iff_of_validate hvalid List.mem_cons_self hnames
  exact ⟨⟨hvalid, hnames⟩, hfills.mpr halias, by decide +kernel⟩

/-- Albums under an empty alias. -/
def unnamedAlbums : Relation := ⟨.many, "albums", "artist_id", "artists", "id", some "", none⟩

/-- The alias is not looked at: there is nothing behind the AS, and an empty name in front of the
column. -/
theorem not_fillsNames_unnamedAlbums :
    Settings.validate { relations := [("albums", unnamedAlbums)] } = .ok () ∧
      (∀ text ∈ unnamedAlbums.givenNames, '.' ∉ text.toList ∧ Sql.stripRaw? text = none) ∧
      ¬ unnamedAlbums.FillsNames ∧
      Sql.targetRef unnamedAlbums = "\"albums\" AS " ∧
      Sql.correlation unnamedAlbums = "\"\".\"artist_id\" = \"artists\".\"id\"" := by
  refine ⟨rfl, by decide, fun hfills => ?_, by decide +kernel, by decide +kernel⟩
  have hblank := hfills.alias_not_blank "" rfl
  cases hblank

end Settings

end DescriptorSql
