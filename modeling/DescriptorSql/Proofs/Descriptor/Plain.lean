import DescriptorSql.Proofs.Descriptor.Traversal
import DescriptorSql.Proofs.Lexical.Clauses
import DescriptorSql.Compile.Select

/-!
# `Proofs/Descriptor/Plain.lean` — descriptors without SQL of their own

A descriptor is plain if nothing that it writes is marked as SQL, is an expression in parentheses or
opens a `${`. The tables, columns and joins of plain descriptors and catalogs neither connect
conditions nor begin a clause.
-/

set_option autoImplicit false

namespace DescriptorSql

open Sql (Alike Chunk Grade isPlainName identifier)

/-! ## Plain texts -/

def Written.isPlain : Written → Bool
  | .name text => isPlainName text
  | .value content => content.isPlain

/-- Every text in the list is plain. The lists are what a descriptor writes, part by part. -/
def AllPlain (written : List Written) : Prop := ∀ text ∈ written, text.isPlain = true

instance (written : List Written) : Decidable (AllPlain written) :=
  inferInstanceAs (Decidable (∀ text ∈ written, text.isPlain = true))

section

variable {first second : List Written}

/-- Fewer texts are plain if more are. -/
theorem AllPlain.subset (h : AllPlain first) (hsubset : second ⊆ first) : AllPlain second :=
  fun text htext => h text (hsubset htext)

@[simp] theorem allPlain_nil : AllPlain [] := by simp [AllPlain]

@[simp] theorem allPlain_append :
    AllPlain (first ++ second) ↔ AllPlain first ∧ AllPlain second := by
  simp only [AllPlain, List.mem_append, or_imp, forall_and]

@[simp] theorem allPlain_cons {text : Written} :
    AllPlain (text :: first) ↔ text.isPlain = true ∧ AllPlain first := by
  simp only [AllPlain, List.forall_mem_cons]

@[simp] theorem allPlain_flatMap {α : Type} {items : List α} {f : α → List Written} :
    AllPlain (items.flatMap f) ↔ ∀ item ∈ items, AllPlain (f item) := by
  simp only [AllPlain, List.mem_flatMap]
  exact ⟨fun h item hitem text htext => h text ⟨item, hitem, htext⟩,
    fun h text ⟨item, hitem, htext⟩ => h item hitem text htext⟩

@[simp] theorem allPlain_name {text : String} :
    AllPlain (Harvest.written.name text) ↔ isPlainName text = true := by
  simp [Harvest.written, Written.isPlain]

@[simp] theorem allPlain_value {content : Json} :
    AllPlain (Harvest.written.value content) ↔ content.isPlain = true := by
  simp [Harvest.written, Written.isPlain]

end

/-! ## Relations -/

namespace Sql

/-- A table with or without an alias is inert: AS ends no clause. -/
theorem alike_tableRef {table : String} {alias? : Option String} (htable : isPlainName table = true)
    (halias : ∀ name, alias? = some name → isPlainName name = true) :
    Alike .inert (tableRef table alias?) (tableRef table alias?) := by
  cases alias? with
  | none => exact alike_identifier htable
  | some name =>
    exact (alike_identifier htable).glue (alike_identifier (halias name rfl))
      (Grade.separates_as _)

/-- A join is written behind FROM, and the words in it, JOIN and ON, do not end the clause. -/
theorem chunk_joinOn (kind : JoinKind) {table condition : String}
    (htable : Alike .inert table table) (hcondition : Alike .inert condition condition) :
    Chunk .inert (joinOn kind table condition) (joinOn kind table condition) := by
  have hkind : Alike .inert (joinKeyword kind).text (joinKeyword kind).text := by
    cases kind <;> exact .ofAccepts (by decide)
  have hjoin : Alike .inert Keyword.join.text Keyword.join.text := .ofAccepts (by decide)
  have hon : Alike .inert Keyword.on.text Keyword.on.text := .ofAccepts (by decide)
  exact .spaced (.cons hkind (.cons hjoin (.cons htable (.cons hon (.cons hcondition .nil)))))

variable {relation : Relation}

/-- What plainness says about the names of a relation. -/
structure PlainRelation (relation : Relation) : Prop where
  table : isPlainName relation.table = true
  field : isPlainName relation.field = true
  referenceTable : isPlainName relation.referenceTable = true
  referenceField : isPlainName relation.referenceField = true
  tableAlias : ∀ name, relation.tableAlias = some name → isPlainName name = true
  junction : ∀ junction, relation.junction = some junction →
    isPlainName junction.table = true ∧ isPlainName junction.field = true ∧
      isPlainName junction.referenceField = true

/-- The names of a relation are what the relation writes. -/
theorem PlainRelation.of (h : AllPlain relation.written) : PlainRelation relation := by
  simp only [Relation.written, List.cons_append, List.nil_append, allPlain_cons, allPlain_append,
    Written.isPlain, allPlain_flatMap, allPlain_nil, and_true, Option.mem_toList] at h
  obtain ⟨htable, hfield, hreferenceTable, hreferenceField, halias, hjunction⟩ := h
  refine ⟨htable, hfield, hreferenceTable, hreferenceField, fun name hname => ?_,
    fun junction h => ?_⟩
  · exact halias (.name name) (by simp [hname])
  · exact hjunction junction h

namespace PlainRelation

/-- The name by which a relation's rows are known is its alias or its table, and both are plain. -/
theorem targetName (h : PlainRelation relation) : isPlainName relation.targetName = true := by
  unfold Relation.targetName
  cases halias : relation.tableAlias with
  | none => exact h.table
  | some name => exact h.tableAlias name halias

theorem alike_targetRef (h : PlainRelation relation) :
    Alike .inert (targetRef relation) (targetRef relation) := alike_tableRef h.table h.tableAlias

/-- The condition between both tables is an equation, and nothing in it connects conditions. -/
theorem alike_correlation (h : PlainRelation relation) :
    Alike .inert (correlation relation) (correlation relation) := by
  unfold correlation
  split
  · next junction hjunction =>
    obtain ⟨htable, -, hfield⟩ := h.junction junction hjunction
    exact alike_equate htable hfield h.referenceTable h.referenceField
  · exact alike_equate h.targetName h.field h.referenceTable h.referenceField

theorem alike_junctionLink (h : PlainRelation relation) {junction : Junction}
    (hjunction : relation.junction = some junction) :
    Alike .inert (junctionLink relation junction) (junctionLink relation junction) :=
  alike_equate (h.junction junction hjunction).1 (h.junction junction hjunction).2.1 h.targetName
    h.field

/-- A relation is joined directly or through its junction, that is by one join or by two. -/
theorem chunk_relationJoin (h : PlainRelation relation) (kind : JoinKind) :
    Chunk .inert (relationJoin kind relation) (relationJoin kind relation) := by
  unfold relationJoin
  split
  · next junction hjunction =>
    -- through a junction the rows are correlated with it, and it is linked to the target
    exact (chunk_joinOn kind (alike_tableRef (h.junction junction hjunction).1 (by simp))
      h.alike_correlation).append
        (chunk_joinOn kind h.alike_targetRef (h.alike_junctionLink hjunction))
  · exact chunk_joinOn kind h.alike_targetRef h.alike_correlation

/-- What a nested query reads from is the relation's table, with its junction joined to it if it has
one. -/
theorem alike_relationSource (h : PlainRelation relation) :
    Alike .inert (relationSource relation) (relationSource relation) := by
  unfold relationSource junctionSource?
  cases hjunction : relation.junction with
  | none => exact h.alike_targetRef
  | some junction =>
    exact (alike_tableRef (h.junction junction hjunction).1 (by simp)).chunk
      (chunk_joinOn .left h.alike_targetRef (h.alike_junctionLink hjunction))

end PlainRelation

/-- Whatever is joined laterally stands in parentheses, so it need only be closed. -/
theorem chunk_lateralJoin {first second : String} (h : Alike .closed first second) :
    Chunk .inert (lateralJoin first) (lateralJoin second) := by
  -- a subquery that is empty is not joined, and both are empty or neither is
  rw [lateralJoin, lateralJoin, h.isEmpty_eq]
  split
  · exact Chunk.nil
  · have hkeyword : ∀ word ∈ [Keyword.left, .join, .lateral, .on, .truth],
        Alike .inert word.text word.text := by
      intro word hword
      simp only [List.mem_cons, List.not_mem_nil, or_false] at hword
      rcases hword with rfl | rfl | rfl | rfl | rfl <;> exact .ofAccepts (by decide)
    have hjoin :
        Chunk .inert (serialize (spaced [.keyword .left, .keyword .join, .keyword .lateral]))
        (serialize (spaced [.keyword .left, .keyword .join, .keyword .lateral])) :=
      .spaced (.cons (hkeyword .left (by simp)) (.cons (hkeyword .join (by simp))
        (.cons (hkeyword .lateral (by simp)) .nil)))
    have hon : Chunk .inert (serialize (spaced [.keyword .on, .keyword .truth]))
        (serialize (spaced [.keyword .on, .keyword .truth])) :=
      .spaced (.cons (hkeyword .on (by simp)) (.cons (hkeyword .truth (by simp)) .nil))
    have htext : ∀ subquery : String,
        serialize (.space :: Sql.parenthesized [.fragment subquery]) =
          " " ++ ("(" ++ subquery ++ ")") := by
      intro subquery
      simp [Sql.parenthesized, Token.text, String.append_assoc]
    rw [serialize_append, serialize_append, serialize_append, serialize_append, htext, htext]
    exact (hjoin.append (Chunk.space h.parenthesized)).append hon

end Sql

/-- A relation that a plain catalog knows is plain. -/
theorem Catalog.plain_of_resolve {catalog : Catalog} (h : AllPlain catalog.written) {name : String}
    {relation : Relation} (hresolve : catalog.resolve name = .ok relation) :
    Sql.PlainRelation relation := by
  unfold Catalog.resolve at hresolve
  split at hresolve
  · next found hfound =>
    cases hresolve
    rw [Catalog.written, allPlain_flatMap] at h
    exact .of (h _ (Entries.mem_of_get? hfound))
  · cases hresolve

/-! ## Columns -/

/-- The columns are plain in their names and in what they are taken from. -/
def PlainColumns (columns : Columns) : Prop :=
  ∀ entry ∈ columns, isPlainName entry.1 = true ∧
    ∀ text, entry.2 = .source text → isPlainName text = true

theorem PlainColumns.of {columns : Columns} (h : AllPlain (Harvest.written.columns columns)) :
    PlainColumns columns := by
  intro entry hentry
  obtain ⟨name, column⟩ := entry
  rw [Harvest.columns, allPlain_flatMap] at h
  have hcolumn := h _ hentry
  cases column with
  | reuse => exact ⟨allPlain_name.mp hcolumn, by simp⟩
  | source text =>
    rw [allPlain_append, allPlain_name, allPlain_name] at hcolumn
    refine ⟨hcolumn.2, ?_⟩
    intro other hother
    cases hother
    exact hcolumn.1

/-- A column in an object: its name as text, and its source. -/
def pairText (entry : String × Column) : String :=
  Sql.quoteText entry.1 ++ ", " ++ entry.2.sourceText entry.1

/-- The text of an object, split at the parenthesis behind its function. -/
theorem objectList_eq (columns : Columns) (key : String) :
    columns.objectList key =
      "jsonb_build_object" ++ "(" ++ ", ".intercalate (columns.map pairText) ++ ")" ++ " AS " ++
        identifier key := by
  have htext : columns.objectList key =
      "jsonb_build_object(" ++ ", ".intercalate (columns.map pairText) ++ ") AS " ++
        identifier key := rfl
  rw [htext, ← String.toList_inj]
  simp

namespace PlainColumns

variable {columns : Columns}

/-- A list of columns has commas and AS between its names, and nothing that ends it. -/
theorem alike_selectList (h : PlainColumns columns) :
    Alike .inert columns.selectList columns.selectList := by
  unfold Columns.selectList
  split
  · exact .ofAccepts (by decide)
  · refine .intercalate (List.forall₂_same.mpr ?_) (Grade.separates_comma _)
    intro text htext
    obtain ⟨⟨name, column⟩, hmem, rfl⟩ := List.mem_map.mp htext
    obtain ⟨hname, hsource⟩ := h _ hmem
    cases column with
    | reuse => exact Sql.alike_identifier hname
    | source text =>
      exact (Sql.alike_identifier (hsource text rfl)).glue (Sql.alike_identifier hname)
        (Grade.separates_as _)

/-- The names in an object are written as literals, and its columns as names. -/
theorem alike_objectList (h : PlainColumns columns) {key : String} (hkey : isPlainName key = true) :
    Alike .inert (columns.objectList key) (columns.objectList key) := by
  have hpairs : Alike .inert (", ".intercalate (columns.map pairText))
      (", ".intercalate (columns.map pairText)) := by
    refine .intercalate (List.forall₂_same.mpr ?_) (Grade.separates_comma _)
    intro text htext
    obtain ⟨⟨name, column⟩, hmem, rfl⟩ := List.mem_map.mp htext
    obtain ⟨hname, hsource⟩ := h _ hmem
    have hcolumn : Alike .inert (column.sourceText name) (column.sourceText name) := by
      cases column with
      | reuse => exact Sql.alike_identifier hname
      | source text => exact Sql.alike_identifier (hsource text rfl)
    exact (Sql.alike_quoteText name name).glue hcolumn (Grade.separates_comma _)
  have hfunction : Sql.IsPlainWord "jsonb_build_object".toList := .ofParts (by decide)
  have hobject := (Alike.call hfunction.alike hpairs.toClosed).glue (Sql.alike_identifier hkey)
    (Grade.separates_as _)
  rwa [← objectList_eq] at hobject

end PlainColumns

/-! ## Bodies -/

/-- What plainness says about everything in a body but its conditions. -/
structure PlainBody (body : QueryBody) : Prop where
  select : PlainColumns body.select
  groupBy : ∀ name ∈ body.groupBy, isPlainName name = true
  orderBy : ∀ entry ∈ body.orderBy, isPlainName entry.1 = true
  limit : ∀ text, body.limit = some (.placeholder text) → (Json.string text).isPlain = true
  offset : ∀ text, body.offset = some (.placeholder text) → (Json.string text).isPlain = true
  joins : ∀ entry ∈ body.joins, PlainColumns entry.2.2.select

/-- The clauses of a body other than its conditions are what the body writes as its clauses. -/
theorem PlainBody.of {body : QueryBody} (h : AllPlain (Harvest.written.clauses body)) :
    PlainBody body := by
  have hbound : ∀ {bound : Option Bound}, AllPlain (Harvest.written.bound bound) →
      ∀ text, bound = some (.placeholder text) → (Json.string text).isPlain = true := by
    rintro _ hplain text rfl
    exact allPlain_value.mp hplain
  simp only [Harvest.clauses, allPlain_append, allPlain_flatMap, allPlain_name] at h
  obtain ⟨⟨⟨⟨⟨hselect, hgroupBy⟩, horderBy⟩, hlimit⟩, hoffset⟩, hjoins⟩ := h
  exact ⟨.of hselect, hgroupBy, horderBy, hbound hlimit, hbound hoffset,
    fun entry hentry => .of (hjoins entry hentry).2⟩

theorem PlainBody.empty : PlainBody QueryBody.empty := .of (by decide)

/-- The columns that come out are those selected and one for each nested relation. -/
theorem PlainBody.outputColumns {body : QueryBody} (h : PlainBody body) {select : Columns}
    (hselect : PlainColumns select) {nested : List String}
    (hnested : ∀ name ∈ nested, isPlainName name = true) :
    PlainColumns (body.outputColumns select nested) := by
  intro entry hentry
  rcases body.mem_outputColumns hentry with hentry | ⟨name, hname, rfl⟩ | ⟨join, hjoin, hentry⟩
  · exact hselect entry hentry
  · exact ⟨hnested name hname, by simp⟩
  · exact h.joins join hjoin entry hentry

/-! ## A plain catalog -/

def albumCatalog : Catalog :=
  [("albums", ⟨.many, "albums", "artist_id", "artists", "id", none, none⟩)]

/-- An ordinary catalog is plain. -/
theorem allPlain_albumCatalog : AllPlain albumCatalog.written := by decide

end DescriptorSql
