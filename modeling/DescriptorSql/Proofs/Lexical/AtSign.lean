import DescriptorSql.Proofs.Lexical.Provenance

/-!
# `Proofs/Lexical/AtSign.lean` — texts without at signs

Named parameters are found by their at signs. An at sign is no character that statements are put
together from (`isVocabulary_at`), so what is shown of such characters is true of it: a name, a
value, a join or a list of columns has an at sign only where a text of the descriptor has one.
-/

set_option autoImplicit false

namespace DescriptorSql

namespace Sql

/-- No at sign stands in the text. -/
def NoAt (text : String) : Prop := '@' ∉ text.toList

instance (text : String) : Decidable (NoAt text) := inferInstanceAs (Decidable ('@' ∉ text.toList))

/-! ## Texts in a row -/

@[simp] theorem noAt_append {a b : String} : NoAt (a ++ b) ↔ NoAt a ∧ NoAt b := lacks_append

/-- So an at sign is of a text of the descriptor. -/
theorem isVocabulary_at : isVocabulary '@' = false := by decide

/-! ## Texts around a name

Names stand in their own quotes, and a separator keeps what is beside them away. -/

/-- Text that a name can stand behind: without at signs, and with a separator at its end. -/
structure OpensApart (text : String) : Prop where
  noAt : NoAt text
  ends : endsApart text.toList = true

/-- Text that a name can stand before: without at signs, and with a separator at its start. -/
structure ClosesApart (text : String) : Prop where
  noAt : NoAt text
  starts : startsApart text.toList = true

instance (text : String) : Decidable (OpensApart text) :=
  decidable_of_iff (NoAt text ∧ endsApart text.toList = true)
    ⟨fun h => ⟨h.1, h.2⟩, fun h => ⟨h.1, h.2⟩⟩

instance (text : String) : Decidable (ClosesApart text) :=
  decidable_of_iff (NoAt text ∧ startsApart text.toList = true)
    ⟨fun h => ⟨h.1, h.2⟩, fun h => ⟨h.1, h.2⟩⟩

/-- Only the end of a text decides whether a name can stand behind it. -/
theorem NoAt.opensApart {a b : String} (ha : NoAt a) (hb : OpensApart b) (hne : b ≠ "") :
    OpensApart (a ++ b) := by
  have hlist : b.toList ≠ [] := by simpa using hne
  refine ⟨noAt_append.mpr ⟨ha, hb.noAt⟩, ?_⟩
  rw [String.toList_append, endsApart, List.getLast?_append_of_ne_nil _ hlist]
  exact hb.ends

namespace ClosesApart

theorem nil : ClosesApart "" := ⟨by decide, rfl⟩

theorem append {a b : String} (ha : ClosesApart a) (hb : ClosesApart b) : ClosesApart (a ++ b) := by
  refine ⟨noAt_append.mpr ⟨ha.noAt, hb.noAt⟩, ?_⟩
  rw [String.toList_append]
  exact startsApart_append_of ha.starts hb.starts

/-- A text that may be empty closes apart, so a row of them does. -/
theorem join {texts : List String} (h : ∀ text ∈ texts, ClosesApart text) :
    ClosesApart (String.join texts) := by
  induction texts with
  | nil => exact nil
  | cons text rest ih =>
    obtain ⟨hfirst, hrest⟩ := List.forall_mem_cons.mp h
    rw [String.join_cons]
    exact hfirst.append (ih hrest)

end ClosesApart

theorem startsApart_space (text : String) : startsApart (" " ++ text).toList = true := by
  rw [String.toList_append]
  exact startsApart_append _ (by simp) rfl

/-- Spaced tokens begin with a blank, unless there are none. -/
theorem startsApart_spaced (token : Token) (rest more : List Token) :
    startsApart (serialize (spaced (token :: rest) ++ more)).toList = true := by
  have htokens : spaced (token :: rest) ++ more = .space :: token :: (spaced rest ++ more) := by
    simp [spaced]
  rw [htokens, serialize_cons]
  exact startsApart_space _

/-! ## Quoting -/

/-- Taking the marker off a raw text adds nothing. -/
theorem noAt_of_stripRaw? {s sql : String} (hraw : stripRaw? s = some sql) (h : NoAt s) :
    NoAt sql := by
  rw [stripRaw?_eq_some_iff] at hraw
  subst hraw
  intro hmem
  exact h (by simpa [raw] using List.mem_append_right rawMarker hmem)

/-- A name is raw, an expression, a placeholder or quoted, and none of these adds an at sign. -/
theorem noAt_identifier {name : String} (h : NoAt name) : NoAt (identifier name) := by
  cases hraw : stripRaw? name with
  | none => exact (lacks_identifier isVocabulary_at hraw).mpr h
  | some sql =>
    rw [identifier, hraw]
    exact noAt_of_stripRaw? hraw h

/-- A quoted text has its own characters and quotes. -/
theorem noAt_quoteText {s : String} (h : NoAt s) : NoAt (quoteText s) :=
  lacks_quoteText isVocabulary_at h

theorem noAt_textLiteral {s : String} (h : NoAt s) : NoAt (textLiteral s) := by
  unfold textLiteral
  split
  · next sql hraw => exact noAt_of_stripRaw? hraw h
  · split
    · exact h
    · exact noAt_quoteText h

/-- A number is digits, a point, a sign and an exponent. -/
theorem noAt_numberText (n : JsonNumber) : NoAt (numberText n) :=
  (isNumberWord_numberText n).not_mem (by decide)

/-! ## Lists of names -/

theorem noAt_nameList {names : List String} (h : ∀ name ∈ names, NoAt name) :
    NoAt (serialize (nameList names)) :=
  lacks_nameList isVocabulary_at fun name hname => noAt_identifier (h name hname)

/-- Without names the clause is empty, and otherwise it begins with the blank before its keyword. -/
theorem closesApart_namesClause (keyword : Keyword) {names : List String}
    (h : ∀ name ∈ names, NoAt name) : ClosesApart (serialize (namesClause keyword names)) := by
  refine ⟨lacks_namesClause isVocabulary_at keyword fun name hname =>
    noAt_identifier (h name hname), ?_⟩
  unfold namesClause
  split
  · rfl
  · exact startsApart_spaced _ _ _

/-- The direction is a keyword behind each column. -/
theorem closesApart_orderTokens {clauses : Clauses} (h : ∀ entry ∈ clauses.orderBy, NoAt entry.1) :
    ClosesApart (serialize clauses.orderTokens) := by
  refine ⟨lacks_orderTokens isVocabulary_at fun entry hentry =>
    noAt_identifier (h entry hentry), ?_⟩
  unfold Clauses.orderTokens
  split
  · rfl
  · exact startsApart_spaced _ _ _

/-! ## Relations -/

theorem noAt_tableRef {table : String} {alias? : Option String} (htable : NoAt table)
    (halias : ∀ name ∈ alias?, NoAt name) : NoAt (tableRef table alias?) :=
  lacks_tableRef isVocabulary_at (noAt_identifier htable) fun name hname =>
    noAt_identifier (halias name hname)

/-- A join begins with the blank before its keyword. -/
theorem startsApart_joinOn (kind : JoinKind) (table condition : String) :
    startsApart (joinOn kind table condition).toList = true := by
  have hstarts := startsApart_spaced (.keyword (joinKeyword kind))
    [.keyword .join, .fragment table, .keyword .on, .fragment condition] []
  rwa [List.append_nil] at hstarts

/-- No name of the relation has an at sign. -/
structure NoAtRelation (relation : Relation) : Prop where
  table : NoAt relation.table
  field : NoAt relation.field
  referenceTable : NoAt relation.referenceTable
  referenceField : NoAt relation.referenceField
  tableAlias : ∀ name ∈ relation.tableAlias, NoAt name
  junction : ∀ junction ∈ relation.junction,
    NoAt junction.table ∧ NoAt junction.field ∧ NoAt junction.referenceField

namespace NoAtRelation

variable {relation : Relation}

/-- Names are quoted and the columns behind them are not, and neither has an at sign. -/
theorem lacksAll (h : NoAtRelation relation) : LacksAll '@' relation.places := by
  intro place hplace
  simp only [Relation.places, List.mem_append, List.mem_cons, List.not_mem_nil, or_false,
    List.mem_map, List.mem_flatMap, Option.mem_toList] at hplace
  rcases hplace with ((rfl | rfl | rfl | rfl) | ⟨name, hname, rfl⟩) | ⟨junction, hjunction, hplace⟩
  · exact noAt_identifier h.table
  · exact h.field
  · exact noAt_identifier h.referenceTable
  · exact h.referenceField
  · exact noAt_identifier (h.tableAlias name hname)
  · obtain ⟨htable, hfield, hreferenceField⟩ := h.junction junction hjunction
    rcases hplace with rfl | rfl | rfl
    · exact noAt_identifier htable
    · exact hfield
    · exact hreferenceField

theorem correlation (h : NoAtRelation relation) : NoAt (correlation relation) :=
  lacks_correlation isVocabulary_at h.lacksAll

theorem relationJoin (h : NoAtRelation relation) (kind : JoinKind) :
    ClosesApart (relationJoin kind relation) := by
  refine ⟨lacks_relationJoin isVocabulary_at h.lacksAll kind, ?_⟩
  unfold Sql.relationJoin
  split
  · rw [String.toList_append]
    exact startsApart_append_of (startsApart_joinOn kind _ _) (startsApart_joinOn kind _ _)
  · exact startsApart_joinOn kind _ _

theorem relationSource (h : NoAtRelation relation) : NoAt (relationSource relation) :=
  lacks_relationSource isVocabulary_at h.lacksAll

end NoAtRelation

end Sql

/-! ## Columns -/

open Sql (NoAt)

/-- Neither the columns' names nor what they come from has an at sign. -/
def NoAtColumns (columns : Columns) : Prop :=
  ∀ entry ∈ columns, NoAt entry.1 ∧ ∀ text, entry.2 = .source text → NoAt text

namespace NoAtColumns

variable {columns : Columns}

/-- The places of a column are its name and the name that it comes from. -/
theorem lacksAll (h : NoAtColumns columns) :
    Sql.LacksAll '@' (Harvest.places.columns columns) := by
  intro place hplace
  obtain ⟨⟨name, column⟩, hentry, hplace⟩ := List.mem_flatMap.mp hplace
  obtain ⟨hname, hsource⟩ := h _ hentry
  cases column with
  | reuse =>
    obtain rfl := List.mem_singleton.mp hplace
    exact Sql.noAt_identifier hname
  | source text =>
    rcases List.mem_append.mp hplace with hplace | hplace
    · obtain rfl := List.mem_singleton.mp hplace
      exact Sql.noAt_identifier (hsource text rfl)
    · obtain rfl := List.mem_singleton.mp hplace
      exact Sql.noAt_identifier hname

theorem selectList (h : NoAtColumns columns) : NoAt columns.selectList :=
  Columns.lacks_selectList Sql.isVocabulary_at h.lacksAll

/-- The keys of the object are written as text, so they are asked for as they stand. -/
theorem objectList (h : NoAtColumns columns) {key : String} (hkey : NoAt key) :
    NoAt (columns.objectList key) := by
  apply Columns.lacks_objectList Sql.isVocabulary_at h.lacksAll _ (Sql.noAt_identifier hkey)
  intro name hname
  obtain ⟨entry, hentry, rfl⟩ := List.mem_map.mp hname
  exact (h entry hentry).1

end NoAtColumns

end DescriptorSql
