import DescriptorSql.Proofs.Compile.Composed
import DescriptorSql.Proofs.Lexical.Provenance

/-!
# `Proofs/Compile/Provenance.lean` — where the characters of a compiled text come from

A character that statements are not put together from is in a compiled text only if it is in one of
the places that the text is composed of (`Composed.lacks`).
-/

set_option autoImplicit false

namespace DescriptorSql

open Sql (isVocabulary Lacks LacksAll lacks_append lacks_intercalate lacks_words)

variable {c : Char}

theorem Connective.lacks_join (hc : isVocabulary c = false) (connective : Connective)
    {clauses : List String} (h : ∀ clause ∈ clauses, Lacks c clause) :
    Lacks c (connective.join clauses) := by
  refine lacks_intercalate (lacks_words hc ?_) h
  cases connective <;> decide

/-- Operators are written with letters, blanks and comparison signs. -/
theorem Operator.lacks_sql (hc : isVocabulary c = false) (operator : Operator) :
    Lacks c operator.sql := by
  apply lacks_words hc
  cases operator <;> decide

theorem Quantifier.lacks_sql (hc : isVocabulary c = false) (quantifier : Quantifier) :
    Lacks c quantifier.sql := by
  apply lacks_words hc
  cases quantifier <;> decide

theorem lacks_comparisonText (hc : isVocabulary c = false) {field : String} (operator : Operator)
    {right : String} (hfield : Lacks c (Sql.identifier field)) (hright : Lacks c right) :
    Lacks c (comparisonText field operator right) := by
  have hspace : Lacks c " " := lacks_words hc (by decide)
  rw [comparisonText, lacks_append, lacks_append, lacks_append, lacks_append]
  exact ⟨⟨⟨⟨hfield, hspace⟩, operator.lacks_sql hc⟩, hspace⟩, hright⟩

theorem IsSource.lacks (hc : isVocabulary c = false) {source : String}
    (h : IsSource (fun place => Lacks c place.text) source) : Lacks c source := by
  cases h with
  | table htable halias => exact Sql.lacks_tableRef hc htable halias
  | relation hrelation => exact Sql.lacks_relationSource hc hrelation

/-- A list of columns and an object are made of the names and sources of their columns. -/
theorem IsOutput.lacks (hc : isVocabulary c = false) {columns : String}
    (h : IsOutput (fun place => Lacks c place.text) columns) : Lacks c columns := by
  cases h with
  | list hcolumns => exact Columns.lacks_selectList hc hcolumns
  | object hkey hcolumns hkeys => exact Columns.lacks_objectList hc hcolumns hkeys hkey

/-- The head of a nested relation has its key and the function that collects the rows. -/
theorem lacks_nestedHead (hc : isVocabulary c = false) {key : String}
    (hkey : Lacks c (Sql.identifier key)) (relation : Relation) :
    Lacks c (nestedHead key relation) := by
  unfold nestedHead
  split
  · simp only [lacks_append]
    exact ⟨⟨⟨⟨⟨lacks_words hc (by decide), lacks_words hc (by decide)⟩, hkey⟩,
      lacks_words hc (by decide)⟩, lacks_words hc (by decide)⟩, hkey⟩
  · rw [lacks_append]
    exact ⟨lacks_words hc (by decide), hkey⟩

/-- A lateral join adds its own words around the subquery, or is empty. -/
theorem lacks_lateralJoin (hc : isVocabulary c = false) {subquery : String} (h : Lacks c subquery) :
    Lacks c (Sql.lateralJoin subquery) := by
  unfold Sql.lateralJoin
  split
  · exact List.not_mem_nil
  · have hspace : Lacks c " " := lacks_words hc (by decide)
    have hinner : Lacks c (Sql.serialize (Sql.parenthesized [.fragment subquery])) :=
      Sql.lacks_parenthesized hc (Sql.lacks_serialize (by simpa [Sql.Token.text] using h))
    have hwords : ∀ words : List Sql.Keyword,
        Lacks c (Sql.serialize (Sql.spaced (words.map Sql.Token.keyword))) := by
      intro words
      apply Sql.lacks_spaced hc
      intro token htoken
      obtain ⟨word, -, rfl⟩ := List.mem_map.mp htoken
      exact Sql.lacks_keyword hc word
    rw [Sql.serialize_append, Sql.serialize_append, Sql.serialize_cons, lacks_append, lacks_append,
      lacks_append]
    exact ⟨⟨hwords [.left, .join, .lateral], hspace, hinner⟩, hwords [.on, .truth]⟩

/-- A SELECT statement, out of its places, joins and conditions. -/
theorem lacks_selectStatement (hc : isVocabulary c = false) {columns source : String}
    {body : QueryBody} {expansion : Expansion} (hcolumns : Lacks c columns)
    (hsource : Lacks c source) (hbody : LacksAll c (Harvest.places.clauses body))
    (hjoins : Lacks c expansion.joins) (hfilter : ∀ text ∈ expansion.filter, Lacks c text)
    (hhaving : ∀ text ∈ expansion.having, Lacks c text) {outer? : Option Relation}
    (houter : ∀ relation ∈ outer?, LacksAll c relation.places) :
    Lacks c (selectStatement columns source body expansion ⟨none, outer?.map Sql.correlation⟩) := by
  have hbound : ∀ text, (.value (.string text) ∈ Harvest.places.clauses body) →
      Lacks c (Sql.literal (.string text)) := fun text hmem => hbody _ hmem
  unfold selectStatement
  refine Sql.ClausesLack.toSql hc ⟨?_, hjoins, hfilter, fun name hname => ?_, hhaving,
    fun entry hentry => ?_, fun text htext => hbound text ?_, fun text htext => hbound text ?_,
    by simp⟩ rfl ?_
  · rw [lacks_append, lacks_append, lacks_append]
    exact ⟨⟨⟨lacks_words hc (by decide), hcolumns⟩, lacks_words hc (by decide)⟩, hsource⟩
  · exact hbody (.name name) (by simp [Harvest.clauses, Harvest.places, hname])
  · refine hbody (.name entry.1) ?_
    have hmem : Place.name entry.1 ∈ body.orderBy.flatMap fun entry => [Place.name entry.1] :=
      List.mem_flatMap.mpr ⟨entry, hentry, List.mem_singleton_self _⟩
    simp only [Harvest.clauses, Harvest.places, List.mem_append]
    exact Or.inl (Or.inl (Or.inl (Or.inr hmem)))
  · simp [Harvest.clauses, Harvest.bound, Harvest.places, show body.limit = _ from htext]
  · simp [Harvest.clauses, Harvest.bound, Harvest.places, show body.offset = _ from htext]
  · intro text htext
    obtain ⟨relation, hrelation, rfl⟩ := Option.map_eq_some_iff.mp htext
    exact Sql.lacks_correlation hc (houter relation hrelation)

/-- Every kind of comparison is an identifier, the operator and the values. -/
theorem IsComparison.lacks (hc : isVocabulary c = false) {text : String}
    (h : IsComparison (fun place => Lacks c place.text) text) : Lacks c text := by
  cases h with
  | value hfield hvalue => exact lacks_comparisonText hc _ hfield hvalue
  | list hfield hitems => exact lacks_comparisonText hc _ hfield hitems
  | range hfield hbounds =>
    refine lacks_comparisonText hc _ hfield ?_
    rw [lacks_append, lacks_append]
    exact ⟨⟨Sql.lacks_item hbounds (by simp), lacks_words hc (by decide)⟩,
      Sql.lacks_item hbounds (by simp)⟩

/-- What the places do not have, the text does not have. -/
theorem Composed.lacks (hc : isVocabulary c = false) {part : Part} {text : String}
    (h : Composed (fun place => Lacks c place.text) part text)
    (hkeyword : ∀ keyword, part = .rows keyword → Lacks c keyword) : Lacks c text := by
  have hspace : Lacks c " " := lacks_words hc (by decide)
  have hopen : Lacks c "(" := lacks_words hc (by decide)
  have hclose : Lacks c ")" := lacks_words hc (by decide)
  -- the induction is on how the text is composed; each kind adds words of the vocabulary around its
  -- parts
  induction h with
  | condition connective _ ih =>
    exact connective.lacks_join hc fun clause hclause => ih clause hclause (by simp)
  | group connective _ _ _ ih =>
    rw [lacks_append, lacks_append]
    exact ⟨⟨hopen, connective.lacks_join hc fun branch hbranch => ih branch hbranch (by simp)⟩,
      hclose⟩
  | negation _ _ ih =>
    rw [lacks_append, lacks_append]
    exact ⟨⟨lacks_words hc (by decide), ih (by simp)⟩, hclose⟩
  | existence _ _ ih =>
    refine Connective.and.lacks_join hc fun test htest => ih test htest ?_
    rintro _ ⟨⟩
    exact lacks_words hc (by decide)
  | comparison hcomparison => exact hcomparison.lacks hc
  -- the keyword of the rows is the operator here and the quantifier below, so it is passed on
  | @member _ operator _ hfield _ _ ih =>
    rw [lacks_append, lacks_append]
    refine ⟨⟨hfield, hspace⟩, ih ?_⟩
    rintro _ ⟨⟩
    exact operator.lacks_sql hc
  | @quantified _ _ quantifier _ hfield _ _ _ ih =>
    refine lacks_comparisonText hc _ hfield (ih ?_)
    rintro _ ⟨⟩
    exact quantifier.lacks_sql hc
  | rows keyword _ hclosing ih =>
    rw [lacks_append, lacks_append, lacks_append]
    refine ⟨⟨⟨hkeyword keyword rfl, hopen⟩, ih (by simp)⟩, ?_⟩
    rcases hclosing with rfl | rfl
    · exact hclose
    · exact lacks_words hc (by decide)
  | noJoins => exact List.not_mem_nil
  | join kind hrelation => exact Sql.lacks_relationJoin hc hrelation kind
  | lateral relation hkey _ ih =>
    apply lacks_lateralJoin hc
    simp only [lacks_append]
    exact ⟨⟨⟨lacks_nestedHead hc hkey relation, lacks_words hc (by decide)⟩,
      ⟨hopen, ih (by simp)⟩, hclose⟩, hspace⟩
  | joins _ _ ihfirst ihsecond =>
    rw [lacks_append]
    exact ⟨ihfirst (by simp), ihsecond (by simp)⟩
  | select hcolumns hsource hbody _ _ _ houter ihjoins ihfilter ihhaving =>
    exact lacks_selectStatement hc (hcolumns.lacks hc) (hsource.lacks hc) hbody (ihjoins (by simp))
      (fun text htext => ihfilter text htext (by simp))
        (fun text htext => ihhaving text htext (by simp))
      houter

end DescriptorSql
