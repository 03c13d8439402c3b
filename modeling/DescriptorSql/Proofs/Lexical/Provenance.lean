import DescriptorSql.Proofs.Descriptor.Places
import DescriptorSql.Proofs.Lexical.Name

/-!
# `Proofs/Lexical/Provenance.lean` — where the characters of a statement come from

Statements are put together from few characters of their own: letters, digits, blanks and some marks
(`isVocabulary`). Any other character comes from a descriptor: it is in a join, a list of columns or
a list of names only if it is in one of the places that these are made of.
-/

set_option autoImplicit false

namespace DescriptorSql

namespace Sql

/-- A character that statements are put together from. -/
def isVocabulary (c : Char) : Bool := c.isAlphanum || " _(),.=<>*\"'".toList.contains c

/-- The character does not stand in the text. -/
def Lacks (c : Char) (text : String) : Prop := c ∉ text.toList

variable {c : Char}

/-! ## Texts in a row -/

@[simp] theorem lacks_append {a b : String} : Lacks c (a ++ b) ↔ Lacks c a ∧ Lacks c b := by
  simp [Lacks, not_or]

/-- A text of the vocabulary lacks every character outside of it. -/
theorem lacks_words {text : String} (hc : isVocabulary c = false)
    (htext : text.toList.all isVocabulary = true) : Lacks c text := by
  intro hmem
  rw [List.all_eq_true.mp htext c hmem] at hc
  cases hc

/-- What is in pieces put in a row is in a piece or in the separator. -/
theorem mem_or_exists_of_mem_intercalate {α : Type} {separator : List α} {pieces : List (List α)}
    {x : α} (h : x ∈ separator.intercalate pieces) :
    x ∈ separator ∨ ∃ piece ∈ pieces, x ∈ piece := by
  induction pieces with
  | nil => simp at h
  | cons piece rest ih =>
    cases rest with
    | nil => exact Or.inr ⟨piece, List.mem_singleton_self _, by simpa using h⟩
    | cons next rest =>
      rw [List.intercalate_cons_cons, List.mem_append, List.mem_append] at h
      rcases h with (h | h) | h
      · exact Or.inr ⟨piece, List.mem_cons_self, h⟩
      · exact Or.inl h
      · rcases ih h with h | ⟨other, hother, h⟩
        · exact Or.inl h
        · exact Or.inr ⟨other, List.mem_cons_of_mem _ hother, h⟩

/-- Texts in a row add the separator only. -/
theorem lacks_intercalate {separator : String} {texts : List String}
    (hseparator : Lacks c separator) (h : ∀ text ∈ texts, Lacks c text) :
    Lacks c (separator.intercalate texts) := by
  intro hmem
  rw [String.toList_intercalate] at hmem
  rcases mem_or_exists_of_mem_intercalate hmem with hmem | ⟨piece, hpiece, hmem⟩
  · exact hseparator hmem
  · obtain ⟨text, htext, rfl⟩ := List.mem_map.mp hpiece
    exact h text htext hmem

/-- Trimming takes blanks away. -/
theorem lacks_trim {text : String} (h : Lacks c text) : Lacks c (Text.trim text) := by
  intro hmem
  rw [Text.toList_trim, Text.dropOuterBlanks, Text.dropTrailingBlanks, List.mem_reverse] at hmem
  have hmem := (List.dropWhile_suffix Text.isBlank).subset hmem
  rw [List.mem_reverse] at hmem
  exact h ((List.dropWhile_suffix Text.isBlank).subset hmem)

theorem lacks_serialize_iff {tokens : List Token} :
    Lacks c (serialize tokens) ↔ ∀ token ∈ tokens, Lacks c token.text := by
  simp [Lacks, toList_serialize]

theorem lacks_serialize {tokens : List Token} (h : ∀ token ∈ tokens, Lacks c token.text) :
    Lacks c (serialize tokens) := lacks_serialize_iff.mpr h

variable (hc : isVocabulary c = false)

include hc

theorem lacks_spaced {tokens : List Token} (h : ∀ token ∈ tokens, Lacks c token.text) :
    Lacks c (serialize (spaced tokens)) := by
  apply lacks_serialize
  intro token htoken
  obtain ⟨origin, horigin, hmem⟩ := List.mem_flatMap.mp htoken
  simp only [List.mem_cons, List.not_mem_nil, or_false] at hmem
  rcases hmem with rfl | rfl
  · exact lacks_words hc (by decide)
  · exact h token horigin

/-- Keywords are written in the vocabulary. -/
theorem lacks_keyword (word : Keyword) : Lacks c (Token.keyword word).text := by
  apply lacks_words hc
  cases word <;> decide

theorem lacks_commaSeparated {items : List (List Token)}
    (h : ∀ tokens ∈ items, ∀ token ∈ tokens, Lacks c token.text) :
    Lacks c (serialize (commaSeparated items)) := by
  apply lacks_serialize
  intro token htoken
  rcases mem_or_exists_of_mem_intercalate htoken with hmem | ⟨tokens, htokens, hmem⟩
  · simp only [List.mem_cons, List.not_mem_nil, or_false] at hmem
    rcases hmem with rfl | rfl <;> exact lacks_words hc (by decide)
  · exact h tokens htokens token hmem

/-- Parentheses are of the vocabulary. -/
theorem lacks_parenthesized {tokens : List Token} (h : Lacks c (serialize tokens)) :
    Lacks c (serialize (parenthesized tokens)) := by
  have hopen : Lacks c Token.lparen.text := lacks_words hc (by decide)
  have hclose : Lacks c Token.rparen.text := lacks_words hc (by decide)
  have hnil : Lacks c (serialize []) := List.not_mem_nil
  simp only [parenthesized, serialize_append, serialize_cons, lacks_append]
  exact ⟨⟨⟨hopen, hnil⟩, h⟩, hclose, hnil⟩

/-! ## Names and values -/

omit hc in
/-- Doubling a quote adds only more of it. -/
theorem mem_double {mark c : Char} {cs : List Char} : c ∈ Text.double mark cs ↔ c ∈ cs := by
  simp only [Text.double, List.mem_flatMap]
  constructor
  · rintro ⟨d, hd, hc⟩
    split at hc
    · simpa [show c = d by simpa using hc] using hd
    · simpa [show c = d by simpa using hc] using hd
  · intro hc
    refine ⟨c, hc, ?_⟩
    split <;> simp

omit hc in
/-- Splitting takes the separator away and adds nothing. -/
theorem mem_of_mem_splitAt {separator c : Char} {cs piece : List Char}
    (hpiece : piece ∈ Text.splitAt separator cs) (hc : c ∈ piece) : c ∈ cs := by
  induction cs generalizing piece with
  | nil =>
    rw [Text.splitAt, List.mem_singleton] at hpiece
    subst hpiece
    cases hc
  | cons d cs ih =>
    obtain ⟨first, rest, hsplit⟩ := List.exists_cons_of_ne_nil (Text.splitAt_ne_nil separator cs)
    rw [Text.splitAt, hsplit] at hpiece
    rw [hsplit] at ih
    by_cases hd : d = separator
    · rw [if_pos hd] at hpiece
      rcases List.mem_cons.mp hpiece with rfl | hpiece
      · cases hc
      · exact List.mem_cons_of_mem _ (ih hpiece hc)
    · rw [if_neg hd] at hpiece
      rcases List.mem_cons.mp hpiece with rfl | hpiece
      · rcases List.mem_cons.mp hc with rfl | hc
        · exact List.mem_cons_self
        · exact List.mem_cons_of_mem _ (ih List.mem_cons_self hc)
      · exact List.mem_cons_of_mem _ (ih (List.mem_cons_of_mem _ hpiece) hc)

omit hc in
/-- Each piece is in the row whole. -/
theorem mem_intercalate {α : Type} {separator piece : List α} {pieces : List (List α)} {x : α}
    (hpiece : piece ∈ pieces) (hx : x ∈ piece) : x ∈ separator.intercalate pieces := by
  induction pieces with
  | nil => cases hpiece
  | cons first rest ih =>
    cases rest with
    | nil =>
      cases List.mem_singleton.mp hpiece
      simpa using hx
    | cons next rest =>
      rw [List.intercalate_cons_cons]
      rcases List.mem_cons.mp hpiece with rfl | hpiece
      · exact List.mem_append_left _ (List.mem_append_left _ hx)
      · exact List.mem_append_right _ (ih hpiece)

/-- Quoting a name adds dots and quotes, and takes nothing away. -/
theorem mem_quotePath {cs : List Char} : c ∈ quotePath cs ↔ c ∈ cs := by
  have hdot : c ≠ '.' := by
    rintro rfl
    exact absurd hc (by decide)
  have hquote : c ≠ '"' := by
    rintro rfl
    exact absurd hc (by decide)
  have hpiece : ∀ piece : List Char, c ∈ quotePiece piece ↔ c ∈ piece := by
    intro piece
    unfold quotePiece
    split
    · rfl
    · simp [Text.enclose, mem_double, hquote]
  constructor
  · intro hmem
    rcases mem_or_exists_of_mem_intercalate hmem with hmem | ⟨quoted, hquoted, hmem⟩
    · exact absurd (List.mem_singleton.mp hmem) hdot
    · obtain ⟨piece, hmem', rfl⟩ := List.mem_map.mp hquoted
      exact mem_of_mem_splitAt hmem' ((hpiece piece).mp hmem)
  · intro hmem
    rw [← Text.intercalate_splitAt '.' cs] at hmem
    rcases mem_or_exists_of_mem_intercalate hmem with hmem | ⟨piece, hmem', hmem⟩
    · exact absurd (List.mem_singleton.mp hmem) hdot
    · exact mem_intercalate (List.mem_map_of_mem hmem') ((hpiece piece).mpr hmem)

/-- A name that is not raw has its characters in the statement as well. -/
theorem lacks_identifier {name : String} (hraw : stripRaw? name = none) :
    Lacks c (identifier name) ↔ Lacks c name := by
  rw [identifier, hraw]
  dsimp only
  split
  · rfl
  · rw [Lacks, String.toList_ofList, mem_quotePath hc, Lacks]

/-- The dot goes behind the marker, so a raw table is raw with a column behind it. -/
theorem lacks_qualified {table field : String} (htable : Lacks c (identifier table))
    (hfield : Lacks c field) : Lacks c (identifier (table ++ "." ++ field)) := by
  have hdot : Lacks c "." := lacks_words hc (by decide)
  cases hraw : stripRaw? table with
  | none =>
    rw [lacks_identifier hc hraw] at htable
    rw [lacks_identifier hc (stripRaw?_qualified hraw field), lacks_append, lacks_append]
    exact ⟨⟨htable, hdot⟩, hfield⟩
  | some sql =>
    have htext : identifier table = sql := by rw [identifier, hraw]
    have hqualified : table ++ "." ++ field = raw (sql ++ "." ++ field) := by
      rw [stripRaw?_eq_some_iff.mp hraw, ← String.toList_inj]
      simp [raw]
    rw [hqualified, identifier, stripRaw?_raw]
    dsimp only
    rw [lacks_append, lacks_append]
    exact ⟨⟨htext ▸ htable, hdot⟩, hfield⟩

omit hc in
theorem literals_eq_map (items : List Json) : literals items = items.map literal := by
  induction items with
  | nil => rfl
  | cons item rest ih => rw [literals, ih, List.map_cons]

omit hc in
/-- A character that is not in a list is not in its items. -/
theorem lacks_item {items : List Json} (h : Lacks c (literal (.array items))) {item : Json}
    (hitem : item ∈ items) : Lacks c (literal item) := by
  rw [literal, literals_eq_map, lacks_append, lacks_append] at h
  intro hmem
  refine h.1.2 ?_
  rw [String.toList_intercalate]
  exact mem_intercalate (List.mem_map_of_mem (List.mem_map_of_mem hitem)) hmem

/-- The quotes around a text are of the vocabulary. -/
theorem lacks_quoteText {s : String} (h : Lacks c s) : Lacks c (quoteText s) := by
  have hquote : Lacks c "'" := lacks_words hc (by decide)
  rw [quoteText, lacks_append, lacks_append]
  refine ⟨⟨hquote, ?_⟩, hquote⟩
  intro hmem
  exact h (by simpa [escapeText, escapeChars, mem_double] using hmem)

/-- A whole number is written in digits. -/
theorem lacks_ofNat (n : Nat) : Lacks c (literal (Json.ofNat n)) := by
  apply lacks_words hc
  rw [List.all_eq_true]
  intro d hd
  have hdigit : Decimal.isDigit d = true :=
    isDigit_of_mem_toDigits (by rwa [← Nat.toList_repr])
  have hletter : d.isAlphanum = true := by
    rw [Char.isAlphanum, Bool.or_eq_true]
    exact Or.inr hdigit
  rw [isVocabulary, hletter, Bool.true_or]

theorem lacks_nameList {names : List String} (h : ∀ name ∈ names, Lacks c (identifier name)) :
    Lacks c (serialize (nameList names)) := by
  apply lacks_commaSeparated hc
  intro tokens htokens token htoken
  obtain ⟨name, hname, rfl⟩ := List.mem_map.mp htokens
  obtain rfl := List.mem_singleton.mp htoken
  exact h name hname

/-- The names of a clause are its only texts that are not of the vocabulary. -/
theorem lacks_namesClause (keyword : Keyword) {names : List String}
    (h : ∀ name ∈ names, Lacks c (identifier name)) :
    Lacks c (serialize (namesClause keyword names)) := by
  unfold namesClause
  split
  · exact List.not_mem_nil
  · rw [serialize_append, serialize_cons, lacks_append, lacks_append]
    refine ⟨lacks_spaced hc ?_, lacks_words hc (by decide), lacks_nameList hc h⟩
    intro token htoken
    obtain rfl := List.mem_singleton.mp htoken
    exact lacks_keyword hc keyword

theorem lacks_valueList {values : List Json} (h : ∀ value ∈ values, Lacks c (literal value)) :
    Lacks c (serialize (valueList values)) := by
  apply lacks_commaSeparated hc
  intro tokens htokens token htoken
  obtain ⟨value, hvalue, rfl⟩ := List.mem_map.mp htokens
  obtain rfl := List.mem_singleton.mp htoken
  exact h value hvalue

/-- An assignment is a name, an equals sign and a value. -/
theorem lacks_assignments {pairs : List (String × Json)}
    (h : ∀ pair ∈ pairs, Lacks c (identifier pair.1) ∧ Lacks c (literal pair.2)) :
    Lacks c (serialize (assignments pairs)) := by
  have hspace : Lacks c Token.space.text := lacks_words hc (by decide)
  have heq : Lacks c Token.eq.text := lacks_words hc (by decide)
  apply lacks_commaSeparated hc
  intro tokens htokens token htoken
  obtain ⟨⟨column, value⟩, hpair, rfl⟩ := List.mem_map.mp htokens
  obtain ⟨hcolumn, hvalue⟩ := h (column, value) hpair
  simp only [List.mem_cons, List.not_mem_nil, or_false] at htoken
  rcases htoken with rfl | rfl | rfl | rfl | rfl
  · exact hcolumn
  · exact hspace
  · exact heq
  · exact hspace
  · exact hvalue

theorem lacks_ordering {orderBy : List (String × SortDir)}
    (h : ∀ entry ∈ orderBy, Lacks c (identifier entry.1)) :
    Lacks c (serialize (commaSeparated (orderBy.map fun (column, direction) =>
      [.ident column, .space, .keyword (directionKeyword direction)]))) := by
  apply lacks_commaSeparated hc
  intro tokens htokens token htoken
  obtain ⟨⟨column, direction⟩, hentry, rfl⟩ := List.mem_map.mp htokens
  simp only [List.mem_cons, List.not_mem_nil, or_false] at htoken
  rcases htoken with rfl | rfl | rfl
  · exact h (column, direction) hentry
  · exact show Lacks c " " from lacks_words hc (by decide)
  · exact lacks_keyword hc _

/-! ## Clauses -/

/-- The character stands in no text that the clauses are made of. -/
structure ClausesLack (c : Char) (clauses : Clauses) : Prop where
  head : Lacks c clauses.head
  joins : Lacks c clauses.joins
  filter : ∀ text ∈ clauses.filter, Lacks c text
  groupBy : ∀ name ∈ clauses.groupBy, Lacks c (identifier name)
  having : ∀ text ∈ clauses.having, Lacks c text
  orderBy : ∀ entry ∈ clauses.orderBy, Lacks c (identifier entry.1)
  limit : ∀ text, clauses.limit = some (.placeholder text) → Lacks c (literal (.string text))
  offset : ∀ text, clauses.offset = some (.placeholder text) → Lacks c (literal (.string text))
  returning : ∀ name ∈ clauses.returning, Lacks c (identifier name)

omit hc in
theorem lacks_present {text? : Option String} (h : ∀ text ∈ text?, Lacks c text) :
    ∀ text ∈ present text?, Lacks c text := by
  intro text htext
  rw [present, Option.mem_def, Option.filter_eq_some_iff] at htext
  exact h text htext.1

theorem lacks_behind (word : Keyword) {text : String} (h : Lacks c text) :
    Lacks c (serialize (spaced [.keyword word, .fragment text])) := by
  apply lacks_spaced hc
  intro token htoken
  simp only [List.mem_cons, List.not_mem_nil, or_false] at htoken
  rcases htoken with rfl | rfl
  · exact lacks_keyword hc word
  · exact h

/-- A condition is written as it is, with the appended one behind it. -/
theorem lacks_filterTokens {clauses : Clauses} {append : Append}
    (hown : ∀ text ∈ clauses.filter, Lacks c text) (hextra : ∀ text ∈ append.filter, Lacks c text) :
    Lacks c (serialize (clauses.filterTokens append)) := by
  have hown := lacks_present hown
  have hextra := lacks_present hextra
  unfold Clauses.filterTokens
  split
  · next own extra heq heq' =>
    have hboth : spaced [.keyword .«where», .fragment own, .keyword .and, .fragment extra] =
        spaced [.keyword .«where», .fragment own] ++ spaced [.keyword .and, .fragment extra] := rfl
    rw [hboth, serialize_append, lacks_append]
    exact ⟨lacks_behind hc _ (hown own heq), lacks_behind hc _ (hextra extra heq')⟩
  · next only heq _ => exact lacks_behind hc _ (hown only heq)
  · next only _ heq => exact lacks_behind hc _ (hextra only heq)
  · exact List.not_mem_nil

theorem lacks_havingTokens {clauses : Clauses} (h : ∀ text ∈ clauses.having, Lacks c text) :
    Lacks c (serialize clauses.havingTokens) := by
  unfold Clauses.havingTokens
  split
  · next sql heq => exact lacks_behind hc _ (lacks_present h sql heq)
  · exact List.not_mem_nil

theorem lacks_orderTokens {clauses : Clauses}
    (h : ∀ entry ∈ clauses.orderBy, Lacks c (identifier entry.1)) :
    Lacks c (serialize clauses.orderTokens) := by
  unfold Clauses.orderTokens
  split
  · exact List.not_mem_nil
  · rw [serialize_append, serialize_cons, lacks_append, lacks_append]
    exact ⟨lacks_words hc (by decide), lacks_words hc (by decide), lacks_ordering hc h⟩

theorem lacks_boundTokens (keyword : Keyword) {bound? : Option Bound}
    (h : ∀ text, bound? = some (.placeholder text) → Lacks c (literal (.string text))) :
    Lacks c (serialize (Clauses.boundTokens keyword bound?)) := by
  unfold Clauses.boundTokens
  split
  · next bound =>
    apply lacks_spaced hc
    intro token htoken
    simp only [List.mem_cons, List.not_mem_nil, or_false] at htoken
    rcases htoken with rfl | rfl
    · exact lacks_keyword hc keyword
    · cases bound with
      | count n => exact lacks_ofNat hc n
      | placeholder text => exact h text rfl
  · exact List.not_mem_nil

/-- The statement has the texts of its clauses, its keywords and what is appended, and nothing else.
-/
theorem ClausesLack.toSql {clauses : Clauses} (h : ClausesLack c clauses) {append : Append}
    (hjoin : append.join = none) (hfilter : ∀ text ∈ append.filter, Lacks c text) :
    Lacks c (clauses.toSql append) := by
  have hempty : Lacks c (serialize []) := List.not_mem_nil
  rw [Clauses.toSql, Clauses.tokens, hjoin]
  apply lacks_trim
  simp only [serialize_append, serialize_cons, lacks_append, present, Option.filter_none,
    Option.toList_none, List.map_nil]
  exact ⟨⟨⟨⟨⟨⟨⟨⟨⟨h.head, h.joins, hempty⟩, hempty⟩, lacks_filterTokens hc h.filter hfilter⟩,
    lacks_namesClause hc _ h.groupBy⟩, lacks_havingTokens hc h.having⟩,
      lacks_orderTokens hc h.orderBy⟩,
    lacks_boundTokens hc _ h.limit⟩, lacks_boundTokens hc _ h.offset⟩,
    lacks_namesClause hc _ h.returning⟩

/-! ## Relations -/

theorem lacks_tableRef {table : String} {alias? : Option String}
    (htable : Lacks c (identifier table)) (halias : ∀ name ∈ alias?, Lacks c (identifier name)) :
    Lacks c (tableRef table alias?) := by
  cases alias? with
  | none => exact htable
  | some name =>
    rw [tableRef, lacks_append, lacks_append]
    exact ⟨⟨htable, lacks_words hc (by decide)⟩, halias name rfl⟩

/-- The fields need to lack the character themselves, since a table and a field are one text before
they are quoted. -/
theorem lacks_equate {table field otherTable otherField : String}
    (htable : Lacks c (identifier table)) (hfield : Lacks c field)
    (hotherTable : Lacks c (identifier otherTable)) (hotherField : Lacks c otherField) :
    Lacks c (equate table field otherTable otherField) := by
  rw [equate, lacks_append, lacks_append]
  exact ⟨⟨lacks_qualified hc htable hfield, lacks_words hc (by decide)⟩,
    lacks_qualified hc hotherTable hotherField⟩

theorem lacks_joinOn (kind : JoinKind) {table condition : String} (htable : Lacks c table)
    (hcondition : Lacks c condition) : Lacks c (joinOn kind table condition) := by
  apply lacks_spaced hc
  intro token htoken
  simp only [List.mem_cons, List.not_mem_nil, or_false] at htoken
  rcases htoken with rfl | rfl | rfl | rfl | rfl
  · exact lacks_keyword hc _
  · exact lacks_keyword hc _
  · exact htable
  · exact lacks_keyword hc _
  · exact hcondition

/-- The character stands in none of the places. -/
def LacksAll (c : Char) (places : List Place) : Prop := ∀ place ∈ places, Lacks c place.text

section

variable {relation : Relation} (h : LacksAll c relation.places)

include h

omit hc in
theorem lacks_targetName : Lacks c (identifier relation.targetName) := by
  unfold Relation.targetName
  cases halias : relation.tableAlias with
  | none => exact h (.name relation.table) (by simp [Relation.places])
  | some name => exact h (.name name) (by simp [Relation.places, halias])

omit hc in
theorem lacks_junctionTable {junction : Junction} (hjunction : relation.junction = some junction) :
    Lacks c (identifier junction.table) :=
  h (.name junction.table) (by simp [Relation.places, hjunction])

theorem lacks_targetRef : Lacks c (targetRef relation) :=
  lacks_tableRef hc (h (.name relation.table) (by simp [Relation.places])) fun name hname =>
    h (.name name) (by simp [Relation.places, Option.mem_def.mp hname])

/-- The table's own name is not in an equation if there is an alias. -/
theorem lacks_correlation : Lacks c (correlation relation) := by
  have hreference : Lacks c (identifier relation.referenceTable) :=
    h (.name relation.referenceTable) (by simp [Relation.places])
  have hfield : Lacks c relation.referenceField :=
    h (.part relation.referenceField) (by simp [Relation.places])
  unfold correlation
  split
  · next junction hjunction =>
    exact lacks_equate hc (lacks_junctionTable h hjunction)
      (h (.part junction.referenceField) (by simp [Relation.places, hjunction])) hreference hfield
  · exact lacks_equate hc (lacks_targetName h)
      (h (.part relation.field) (by simp [Relation.places]))
      hreference hfield

theorem lacks_junctionLink {junction : Junction} (hjunction : relation.junction = some junction) :
    Lacks c (junctionLink relation junction) :=
  lacks_equate hc (lacks_junctionTable h hjunction)
    (h (.part junction.field) (by simp [Relation.places, hjunction])) (lacks_targetName h)
    (h (.part relation.field) (by simp [Relation.places]))

theorem lacks_relationJoin (kind : JoinKind) : Lacks c (relationJoin kind relation) := by
  unfold relationJoin
  split
  · next junction hjunction =>
    rw [lacks_append]
    exact ⟨lacks_joinOn hc kind (lacks_tableRef hc (lacks_junctionTable h hjunction) (by simp))
        (lacks_correlation hc h),
      lacks_joinOn hc kind (lacks_targetRef hc h) (lacks_junctionLink hc h hjunction)⟩
  · exact lacks_joinOn hc kind (lacks_targetRef hc h) (lacks_correlation hc h)

theorem lacks_relationSource : Lacks c (relationSource relation) := by
  unfold relationSource junctionSource?
  cases hjunction : relation.junction with
  | none => exact lacks_targetRef hc h
  | some junction =>
    rw [Option.map_some, Option.getD_some, lacks_append]
    exact ⟨lacks_tableRef hc (lacks_junctionTable h hjunction) (by simp),
      lacks_joinOn hc .left (lacks_targetRef hc h) (lacks_junctionLink hc h hjunction)⟩

end

end Sql

/-! ## Columns -/

open Sql (isVocabulary Lacks LacksAll lacks_append lacks_intercalate lacks_quoteText lacks_words)

section

variable {c : Char} {columns : Columns}

theorem Column.lacks_sourceText {name : String} {column : Column}
    (h : LacksAll c (Harvest.places.columns [(name, column)])) :
    Lacks c (column.sourceText name) := by
  cases column with
  | reuse => exact h (.name name) (by simp [Harvest.columns, Harvest.places])
  | source text => exact h (.name text) (by simp [Harvest.columns, Harvest.places])

theorem Column.lacks_selectText (hc : isVocabulary c = false) {name : String} {column : Column}
    (h : LacksAll c (Harvest.places.columns [(name, column)])) :
    Lacks c (column.selectText name) := by
  have hname : Lacks c (Sql.identifier name) := by
    refine h (.name name) ?_
    cases column <;> simp [Harvest.columns, Harvest.places]
  cases column with
  | reuse => exact hname
  | source text =>
    rw [Column.selectText, lacks_append, lacks_append]
    exact ⟨⟨h (.name text) (by simp [Harvest.columns, Harvest.places]), lacks_words hc (by decide)⟩,
      hname⟩

theorem lacksAll_column (h : LacksAll c (Harvest.places.columns columns)) {entry : String × Column}
    (hentry : entry ∈ columns) : LacksAll c (Harvest.places.columns [entry]) := by
  intro place hplace
  rw [Harvest.columns, List.flatMap_singleton] at hplace
  exact h place (List.mem_flatMap.mpr ⟨entry, hentry, hplace⟩)

theorem Columns.lacks_selectList (hc : isVocabulary c = false)
    (h : LacksAll c (Harvest.places.columns columns)) : Lacks c columns.selectList := by
  unfold Columns.selectList
  split
  · exact lacks_words hc (by decide)
  · apply lacks_intercalate (lacks_words hc (by decide))
    intro text htext
    obtain ⟨entry, hentry, rfl⟩ := List.mem_map.mp htext
    exact Column.lacks_selectText hc (lacksAll_column h hentry)

/-- In an object the names of the columns are written as text, not as names, so it is asked of them
as they stand. -/
theorem Columns.lacks_objectList (hc : isVocabulary c = false)
    (h : LacksAll c (Harvest.places.columns columns))
    (hkeys : ∀ name ∈ Entries.keys columns, Lacks c name) {key : String}
    (hkey : Lacks c (Sql.identifier key)) : Lacks c (columns.objectList key) := by
  unfold Columns.objectList
  dsimp only
  rw [lacks_append, lacks_append, lacks_append]
  refine ⟨⟨⟨lacks_words hc (by decide), lacks_intercalate (lacks_words hc (by decide)) ?_⟩,
    lacks_words hc (by decide)⟩, hkey⟩
  intro text htext
  obtain ⟨entry, hentry, rfl⟩ := List.mem_map.mp htext
  rw [lacks_append, lacks_append]
  exact ⟨⟨lacks_quoteText hc (hkeys entry.1 (List.mem_map_of_mem hentry)),
    lacks_words hc (by decide)⟩,
    Column.lacks_sourceText (lacksAll_column h hentry)⟩

end

end DescriptorSql
