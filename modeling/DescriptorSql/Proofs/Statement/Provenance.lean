import DescriptorSql.Proofs.Compile.Provenance
import DescriptorSql.Proofs.Statement.Bound

/-!
# `Proofs/Statement/Provenance.lean` — nothing is embedded directly

Every name of a descriptor gets into the statement through the quoting of names, and every value
through that of values; what is left are parts of names and literals. So whatever character a
statement has that is not one of the language's own, it is in a formatted name, in a formatted
value, or in such a part (`Statement.mem_compile`).
-/

set_option autoImplicit false

namespace DescriptorSql

open Sql (isVocabulary Lacks LacksAll lacks_append lacks_words)

/-! ## The places of a statement -/

namespace ConflictSpec

def rulePlaces : ConflictRule → List Place
  | .doNothing => []
  | .doUpdate data filter =>
    (data.flatMap fun (column, value) => [.name column, .value value]) ++
      Harvest.places.filterOnly filter

def places (spec : ConflictSpec) : List Place :=
  (spec.columns.getD []).map .name ++ spec.constraint.toList.map .name ++ rulePlaces spec.action

end ConflictSpec

/-- The places of an INSERT besides its rows. -/
def InsertParams.framePlaces (params : InsertParams) : List Place :=
  [.name params.table] ++ params.returning.map .name ++
    params.onConflict.toList.flatMap ConflictSpec.places ++ params.relations.places

namespace Statement

/-- Every place of the operation. -/
def places : Statement → List Place
  | find params =>
    [.name params.table] ++ params.tableAlias.toList.map .name ++
      Harvest.places.query params.query ++ params.relations.places
  | insertOne params => params.framePlaces ++ params.data.rowWritten.map Written.place
  | insertMany params => params.framePlaces ++ params.data.rowsWritten.map Written.place
  | update params =>
    [.name params.table] ++ params.data.rowWritten.map Written.place ++
      Harvest.places.filterOnly params.filter ++ params.returning.map .name ++
        params.relations.places
  | delete params =>
    [.name params.table] ++ Harvest.places.filterOnly params.filter ++
      params.returning.map .name ++ params.relations.places

end Statement

section

variable {c : Char} {catalog : Catalog}

@[simp] theorem lacksAll_append {first second : List Place} :
    LacksAll c (first ++ second) ↔ LacksAll c first ∧ LacksAll c second := List.forall_mem_append

theorem lacksAll_names {names : List String} (h : LacksAll c (names.map .name)) :
    ∀ name ∈ names, Lacks c (Sql.identifier name) := fun name hname =>
  h (.name name) (List.mem_map_of_mem hname)

variable (hc : isVocabulary c = false)

include hc

theorem supplies_lacks (hcatalog : LacksAll c catalog.places) :
    Supplies (fun place => Lacks c place.text) catalog := by
  have hone : Sql.identifier "1" = "1" := by decide +kernel
  refine ⟨hcatalog, ?_⟩
  rw [Place.text, hone]
  exact lacks_words hc (by decide)

/-- Keywords in front of a name. -/
theorem lacks_head (words : List Sql.Token) {name : String}
    (hwords : (Sql.serialize words).toList.all isVocabulary = true)
    (hname : Lacks c (Sql.identifier name)) :
    Lacks c (Sql.serialize (words ++ [Sql.Token.ident name])) := by
  rw [Sql.serialize_append, lacks_append]
  exact ⟨lacks_words hc hwords, Sql.lacks_serialize (by simpa [Sql.Token.text] using hname)⟩

/-- A condition that may be absent. -/
theorem lacks_conditionText (hcatalog : LacksAll c catalog.places) {filter : Option Predicate}
    (h : LacksAll c (Harvest.places.filterOnly filter)) {text? : Option String}
    (hok : conditionText catalog filter = .ok text?) : ∀ text ∈ text?, Lacks c text := by
  cases filter with
  | none =>
    cases hok
    simp
  | some predicate =>
    obtain ⟨sql, hsql, rfl⟩ := exists_of_map_eq_ok hok
    obtain ⟨entries⟩ := predicate
    rw [Harvest.filterOnly, Harvest.filter, List.flatMap_singleton] at h
    have hcomposed := composed_predicate (supplies_lacks hc hcatalog)
      (show LacksAll c (Harvest.places.predicate (.ofEntries entries)) from h) hsql
    exact Sql.lacks_present (by simpa using hcomposed.lacks hc (by simp))

/-! ## Inserts -/

omit hc in
theorem lacks_members {members : List (String × Json)}
    (h : LacksAll c (members.flatMap fun (column, value) => [.name column, .value value])) :
    ∀ member ∈ members, Lacks c (Sql.identifier member.1) ∧ Lacks c (Sql.literal member.2) := by
  intro member hmember
  exact ⟨h (.name member.1) (List.mem_flatMap.mpr ⟨member, hmember, by simp⟩),
    h (.value member.2) (List.mem_flatMap.mpr ⟨member, hmember, by simp⟩)⟩

/-- The ON CONFLICT clause. -/
theorem lacks_clause (hcatalog : LacksAll c catalog.places) {spec : ConflictSpec}
    (h : LacksAll c spec.places) {conflict : Sql.OnConflict}
    (hok : spec.clause catalog = .ok conflict) :
    Lacks c (Sql.serialize conflict.tokens) := by
  simp only [ConflictSpec.places, lacksAll_append] at h
  obtain ⟨⟨hcolumns, hconstraint⟩, hrule⟩ := h
  obtain ⟨target, htarget, hok⟩ := exists_of_bind_eq_ok hok
  obtain ⟨action, haction, hok⟩ := exists_of_bind_eq_ok hok
  cases hok
  simp only [Sql.OnConflict.tokens, Sql.serialize_append, lacks_append]
  refine ⟨⟨⟨lacks_words hc (by decide), ?_⟩, lacks_words hc (by decide)⟩, ?_⟩
  · -- the target: columns in parentheses, or the name of a constraint
    obtain ⟨columns?, constraint?, action'⟩ := spec
    unfold ConflictSpec.target at htarget
    split at htarget
    · next first rest heq _ =>
      cases htarget
      dsimp only at heq
      rw [heq] at hcolumns
      exact Sql.lacks_parenthesized hc (Sql.lacks_nameList hc (lacksAll_names hcolumns))
    · next name _ heq =>
      split at htarget
      · cases htarget
      · cases htarget
        dsimp only at heq
        rw [heq] at hconstraint
        exact lacks_head hc [.keyword .on, .space, .keyword .constraint, .space] (by decide)
          (hconstraint (.name name) (by simp))
    · cases htarget
  · -- the action: nothing, or assignments and a condition
    obtain ⟨columns?, constraint?, rule⟩ := spec
    cases rule with
    | doNothing =>
      cases haction
      exact lacks_words hc (by decide)
    | doUpdate data filter =>
      cases data with
      | nil => cases haction
      | cons member rest =>
        obtain ⟨text?, htext, rfl⟩ := exists_of_map_eq_ok haction
        obtain ⟨hdata, hfilter⟩ := lacksAll_append.mp hrule
        have hcondition := lacks_conditionText hc hcatalog hfilter htext
        simp only [Sql.OnConflict.actionTokens, Sql.serialize_append, lacks_append]
        refine ⟨⟨lacks_words hc (by decide), Sql.lacks_assignments hc (lacks_members hdata)⟩, ?_⟩
        split
        · next sql heq =>
          exact Sql.lacks_behind hc _ (hcondition sql (Option.filter_eq_some_iff.mp heq).1)
        · exact List.not_mem_nil

theorem lacks_rowTokens {rows : List (List Json)}
    (h : ∀ row ∈ rows, ∀ value ∈ row, Lacks c (Sql.literal value)) :
    Lacks c (Sql.serialize (Sql.Insert.rowTokens rows)) := by
  apply Sql.lacks_serialize
  intro token htoken
  rcases Sql.mem_or_exists_of_mem_intercalate htoken with hmem | ⟨tokens, htokens, hmem⟩
  · obtain rfl := List.mem_singleton.mp hmem
    exact show Lacks c "," from lacks_words hc (by decide)
  · obtain ⟨row, hrow, rfl⟩ := List.mem_map.mp htokens
    refine Sql.lacks_serialize_iff.mp ?_ token hmem
    rw [Sql.serialize_cons, lacks_append]
    exact ⟨show Lacks c " " from lacks_words hc (by decide),
      Sql.lacks_parenthesized hc (Sql.lacks_valueList hc (h row hrow))⟩

/-- An INSERT statement, out of its frame and rows. -/
theorem lacks_insert {params : InsertParams} (h : LacksAll c params.framePlaces)
    {columns : List String} {rows : List (List Json)}
    (hcolumns : ∀ name ∈ columns, Lacks c (Sql.identifier name))
    (hrows : ∀ row ∈ rows, ∀ value ∈ row, Lacks c (Sql.literal value)) {sql : String}
    (hok : params.statement columns rows = .ok sql) : Lacks c sql := by
  simp only [InsertParams.framePlaces, lacksAll_append] at h
  obtain ⟨⟨⟨htable, hreturning⟩, hconflict⟩, hcatalog⟩ := h
  obtain ⟨conflict?, hconflict?, hok⟩ := exists_of_bind_eq_ok hok
  rw [← Except.ok.inj hok, Sql.Insert.toSql, Sql.Insert.tokens]
  have htable : Lacks c (Sql.identifier params.table) := htable (.name params.table) (by simp)
  have hspace : Lacks c Sql.Token.space.text := lacks_words hc (by decide)
  have hhead := lacks_head hc [.keyword .insert, .space, .keyword .into, .space] (by decide) htable
  simp only [Sql.serialize_append, lacks_append]
  -- what is left are the columns, the rows and the conflict, each of which may be absent
  refine ⟨⟨⟨⟨hhead, ?_⟩, ?_⟩, ?_⟩, Sql.lacks_namesClause hc _ (lacksAll_names hreturning)⟩
  · split
    · exact List.not_mem_nil
    · rw [Sql.serialize_cons, lacks_append]
      exact ⟨hspace, Sql.lacks_parenthesized hc (Sql.lacks_nameList hc hcolumns)⟩
  · split
    · exact List.not_mem_nil
    · rw [Sql.serialize_append, lacks_append]
      exact ⟨lacks_words hc (by decide), lacks_rowTokens hc hrows⟩
  · cases hspec : params.onConflict with
    | none =>
      rw [hspec] at hconflict?
      cases hconflict?
      exact List.not_mem_nil
    | some spec =>
      rw [hspec, Option.mapM_some] at hconflict?
      obtain ⟨conflict, hclause, rfl⟩ := exists_of_map_eq_ok hconflict?
      rw [hspec, Option.toList_some, List.flatMap_singleton] at hconflict
      dsimp only
      rw [Sql.serialize_cons, lacks_append]
      exact ⟨hspace, lacks_clause hc hcatalog hconflict hclause⟩

end

namespace Statement

variable {c : Char}

/-- The columns and values of one object. -/
theorem lacks_row {members : Entries String Json}
    (h : LacksAll c ((Json.object members).rowWritten.map Written.place)) :
    ∀ member ∈ members, Lacks c (Sql.identifier member.1) ∧ Lacks c (Sql.literal member.2) := by
  apply lacks_members
  rwa [Json.rowWritten, List.map_flatMap] at h

theorem lacks_rowValues (hc : isVocabulary c = false) {columns : List String} {row : Json}
    (h : LacksAll c (row.rowWritten.map Written.place)) {cells : List Json}
    (hok : InsertParams.rowValues columns row = .ok cells) :
    ∀ cell ∈ cells, Lacks c (Sql.literal cell) := by
  intro cell hcell
  rcases eq_null_or_mem_of_rowValues hok hcell with rfl | ⟨members, column, rfl, hmem⟩
  · exact show Lacks c "NULL" from lacks_words hc (by decide)
  · exact (lacks_row h _ hmem).2

/-- A head with a condition and columns to return behind it. -/
theorem lacks_clauses (hc : isVocabulary c = false) {head : String} {filter : Option String}
    {returning : List String} (hhead : Lacks c head) (hfilter : ∀ text ∈ filter, Lacks c text)
    (hreturning : LacksAll c (returning.map .name)) :
    Lacks c (Sql.Clauses.toSql { head := head, filter := filter, returning := returning } {}) := by
  have hempty : Lacks c "" := lacks_words hc (by decide)
  exact Sql.ClausesLack.toSql hc
    ⟨hhead, hempty, hfilter, by simp, by simp, by simp, by simp, by simp,
    lacksAll_names hreturning⟩ rfl (by simp)

section Operations

variable (hc : isVocabulary c = false) {sql : String}

include hc

/-- A query has the texts of its conditions and of its columns, and its table. -/
theorem lacks_find {params : FindParams} (h : LacksAll c (find params).places)
    (hok : (find params).compile = .ok sql) : Lacks c sql := by
  simp only [places, lacksAll_append] at h
  obtain ⟨⟨⟨htable, halias⟩, hquery⟩, hcatalog⟩ := h
  obtain ⟨_, -, hok⟩ := exists_of_bind_eq_ok hok
  have hcomposed := composed_toSql (supplies_lacks hc hcatalog) hquery
    (htable (.name params.table) (by simp)) (fun name hname =>
      lacksAll_names halias name (Option.mem_toList.mpr hname)) hok
  exact hcomposed.lacks hc (by simp)

/-- An INSERT of one row has the values of the row. -/
theorem lacks_insertOne {params : InsertParams} (h : LacksAll c (insertOne params).places)
    (hok : (insertOne params).compile = .ok sql) : Lacks c sql := by
  obtain ⟨hframe, hrow⟩ := lacksAll_append.mp h
  obtain ⟨_, -, hok⟩ := exists_of_bind_eq_ok hok
  obtain ⟨members, hmembers, hok⟩ := exists_of_bind_eq_ok hok
  rw [(eq_object_of_checkMembers hmembers).1] at hrow
  have hmember := lacks_row hrow
  refine lacks_insert hc hframe (fun name hname => ?_) (fun row hrow value hvalue => ?_) hok
  · obtain ⟨member, hmem, rfl⟩ := List.mem_map.mp hname
    exact (hmember member hmem).1
  · obtain rfl := List.mem_singleton.mp hrow
    obtain ⟨member, hmem, rfl⟩ := List.mem_map.mp hvalue
    exact (hmember member hmem).2

/-- An INSERT of several rows has the columns of the first row, and the values of every row in
them. -/
theorem lacks_insertMany {params : InsertParams} (h : LacksAll c (insertMany params).places)
    (hok : (insertMany params).compile = .ok sql) : Lacks c sql := by
  obtain ⟨hframe, hrows⟩ := lacksAll_append.mp h
  obtain ⟨_, -, hok⟩ := exists_of_bind_eq_ok hok
  split at hok
  · next first rest hdata =>
    obtain ⟨members, hmembers, hok⟩ := exists_of_bind_eq_ok hok
    obtain ⟨cells, hcells, hok⟩ := exists_of_bind_eq_ok hok
    rw [hdata] at hrows
    have hrow : ∀ row ∈ first :: rest, LacksAll c (row.rowWritten.map Written.place) := by
      intro row hrow place hplace
      refine hrows place ?_
      rw [Json.rowsWritten, List.map_flatMap]
      exact List.mem_flatMap.mpr ⟨row, hrow, hplace⟩
    have hfirst := hrow first List.mem_cons_self
    rw [(eq_object_of_checkMembers hmembers).1] at hfirst
    refine lacks_insert hc hframe (fun name hname => ?_) (fun row hmem => ?_) hok
    · obtain ⟨member, hmem, rfl⟩ := List.mem_map.mp hname
      exact (lacks_row hfirst member hmem).1
    · obtain ⟨origin, horigin, hcell⟩ := exists_of_mem_mapM hcells row hmem
      exact lacks_rowValues hc (hrow origin horigin) hcell
  · cases hok

/-- An UPDATE has its assignments in front of its condition. -/
theorem lacks_update {params : UpdateParams} (h : LacksAll c (update params).places)
    (hok : (update params).compile = .ok sql) : Lacks c sql := by
  simp only [places, lacksAll_append] at h
  obtain ⟨⟨⟨⟨htable, hrow⟩, hfilter⟩, hreturning⟩, hcatalog⟩ := h
  obtain ⟨_, -, hok⟩ := exists_of_bind_eq_ok hok
  obtain ⟨members, hmembers, hok⟩ := exists_of_bind_eq_ok hok
  obtain ⟨text?, htext, hok⟩ := exists_of_bind_eq_ok hok
  rw [(eq_object_of_checkMembers hmembers).1] at hrow
  rw [← Except.ok.inj hok]
  refine lacks_clauses hc ?_ (lacks_conditionText hc hcatalog hfilter htext) hreturning
  have hhead := lacks_head hc [.keyword .update, .space] (by decide)
    (htable (.name params.table) (by simp))
  have hset : Lacks c (Sql.serialize [.space, .keyword .set, .space]) :=
    lacks_words hc (by decide)
  have hassigned := Sql.lacks_assignments hc (lacks_row hrow)
  have hfront := lacks_append.mpr ⟨hhead, hset⟩
  rw [← Sql.serialize_append] at hfront
  rw [Sql.serialize_append, lacks_append]
  exact ⟨hfront, hassigned⟩

/-- A DELETE has its table and its condition. -/
theorem lacks_delete {params : DeleteParams} (h : LacksAll c (delete params).places)
    (hok : (delete params).compile = .ok sql) : Lacks c sql := by
  simp only [places, lacksAll_append] at h
  obtain ⟨⟨⟨htable, hfilter⟩, hreturning⟩, hcatalog⟩ := h
  obtain ⟨_, -, hok⟩ := exists_of_bind_eq_ok hok
  obtain ⟨text?, htext, hok⟩ := exists_of_bind_eq_ok hok
  rw [← Except.ok.inj hok]
  exact lacks_clauses hc (lacks_head hc [.keyword .delete, .space, .keyword .«from», .space]
    (by decide) (htable (.name params.table) (by simp)))
    (lacks_conditionText hc hcatalog hfilter htext) hreturning

/-- A character that statements are not put together from is in no statement in whose places it is
not. -/
theorem lacks_compile {statement : Statement} (h : LacksAll c statement.places)
    (hok : statement.compile = .ok sql) : Lacks c sql := by
  cases statement with
  | find params => exact lacks_find hc h hok
  | insertOne params => exact lacks_insertOne hc h hok
  | insertMany params => exact lacks_insertMany hc h hok
  | update params => exact lacks_update hc h hok
  | delete params => exact lacks_delete hc h hok

end Operations

/-- Where a character of a statement comes from. -/
theorem mem_compile {statement : Statement} {sql : String} (hok : statement.compile = .ok sql)
    {c : Char} (hmem : c ∈ sql.toList) :
    isVocabulary c = true ∨ ∃ place ∈ statement.places, c ∈ place.text.toList := by
  by_contra hno
  rw [not_or, Bool.not_eq_true] at hno
  push Not at hno
  exact lacks_compile hno.1 hno.2 hok hmem

end Statement

end DescriptorSql
