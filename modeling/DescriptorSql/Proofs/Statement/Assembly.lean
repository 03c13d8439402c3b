import DescriptorSql.Proofs.Statement.Filters

/-!
# `Proofs/Statement/Assembly.lean` — what is built in and what is appended

The clauses of a statement stand in one order (`Clause.all`), and each of them is a keyword with
texts behind it (`Clauses.texts`). A clause without texts leaves no keyword. Whether a join or a
condition belongs to the statement or is appended from outside makes no difference: the statement is
the one that has the appended join behind its own, and both conditions as one
(`Clauses.toSql_absorb`). Behind it are two ways to put conditions together, the one of the WHERE
clause and `andFilter`, which agree on absent and empty texts too.
-/

set_option autoImplicit false

namespace DescriptorSql.Sql

/-! ## Clauses -/

inductive Clause where
  | head
  | joins
  | condition
  | groupBy
  | having
  | orderBy
  | limit
  | offset
  | returning
  deriving DecidableEq, Repr

namespace Clause

/-- In the order in which they stand in a statement. -/
def all : List Clause :=
  [head, joins, condition, groupBy, having, orderBy, limit, offset, returning]

/-- The keyword that begins the clause. The head and the joins bring their own. -/
def keyword? : Clause → Option Keyword
  | head | joins => none
  | condition => some .where
  | groupBy => some .groupBy
  | having => some .having
  | orderBy => some .orderBy
  | limit => some .limit
  | offset => some .offset
  | returning => some .returning

/-- What stands between the texts of the clause. -/
def separator : Clause → String
  | head | joins => ""
  | condition => " AND "
  | groupBy | orderBy | returning => ", "
  | having | limit | offset => " "

def keywords : List Keyword := all.filterMap keyword?

end Clause

/-- The keyword, if it begins a clause. -/
def Token.clauseKeyword? : Token → Option Keyword
  | .keyword word => if word ∈ Clause.keywords then some word else none
  | _ => none

theorem Token.eq_keyword_of_clauseKeyword? {token : Token} {word : Keyword}
    (h : token.clauseKeyword? = some word) : token = .keyword word := by
  cases token with
  | keyword other =>
    rw [Token.clauseKeyword?] at h
    split at h
    · exact congrArg Token.keyword (Option.some.inj h)
    · cases h
  | _ => cases h

/-- A keyword begins one clause only. -/
theorem Clause.keyword?_inj {clause other : Clause} {word : Keyword}
    (h : clause.keyword? = some word) (h' : other.keyword? = some word) : clause = other := by
  cases clause <;> cases h <;> cases other <;> first | rfl | cases h'

namespace Clauses

/-- The clause is there, and what is there is not empty. -/
def has (clauses : Clauses) (append : Append) : Clause → Bool
  | .head => !clauses.head.isEmpty
  | .joins => !clauses.joins.isEmpty || (present append.join).isSome
  | .condition => (present clauses.filter).isSome || (present append.filter).isSome
  | .groupBy => !clauses.groupBy.isEmpty
  | .having => (present clauses.having).isSome
  | .orderBy => !clauses.orderBy.isEmpty
  | .limit => clauses.limit.isSome
  | .offset => clauses.offset.isSome
  | .returning => !clauses.returning.isEmpty

/-- The texts in the clause. An absent condition is an empty one. -/
def texts (clauses : Clauses) (append : Append) : Clause → List String
  | .head => [clauses.head]
  | .joins => [clauses.joins, append.join.getD ""]
  | .condition => [clauses.filter.getD "", append.filter.getD ""].filter (!·.isEmpty)
  | .groupBy => clauses.groupBy.map identifier
  | .having => [clauses.having.getD ""].filter (!·.isEmpty)
  | .orderBy => clauses.orderBy.map fun (column, direction) =>
    identifier column ++ " " ++ (directionKeyword direction).text
  | .limit => boundTexts clauses.limit
  | .offset => boundTexts clauses.offset
  | .returning => clauses.returning.map identifier

/-- The tokens of the clause. -/
def clauseTokens (clauses : Clauses) (append : Append) : Clause → List Token
  | .head => [.fragment clauses.head]
  | .joins => .fragment clauses.joins :: (present append.join).toList.map Token.fragment
  | .condition => clauses.filterTokens append
  | .groupBy => namesClause .groupBy clauses.groupBy
  | .having => clauses.havingTokens
  | .orderBy => clauses.orderTokens
  | .limit => boundTokens .limit clauses.limit
  | .offset => boundTokens .offset clauses.offset
  | .returning => namesClause .returning clauses.returning

/-- The clause as it stands in the statement. -/
def clauseText (clauses : Clauses) (append : Append) (clause : Clause) : String :=
  match clause.keyword? with
  | some word =>
    phrase (" " ++ (word.text ++ " ")) clause.separator (clauses.texts append clause)
  | none => String.join (clauses.texts append clause)

/-- The clauses with the appended join behind the others, and with another condition. -/
def absorb (clauses : Clauses) (append : Append) (filter : Option String) : Clauses :=
  { clauses with joins := clauses.joins ++ append.join.getD "", filter := filter }

end Clauses

/-! ## Absent and empty -/

/-- Whether an empty text is dropped makes no difference to what is written. -/
theorem getD_present (text? : Option String) : (present text?).getD "" = text?.getD "" := by
  cases text? with
  | none => rfl
  | some text =>
    by_cases hempty : text = ""
    · rw [hempty]
      rfl
    · rw [Clauses.present_eq hempty]

/-- An absent text and an empty one are the same. -/
theorem toList_present_getD (text? : Option String) :
    (present text?).toList = [text?.getD ""].filter (!·.isEmpty) := by
  rw [toList_present]
  cases text? <;> rfl

theorem serialize_flatMap {α : Type} (f : α → List Token) (items : List α) :
    serialize (items.flatMap f) = String.join (items.map fun item => serialize (f item)) := by
  induction items with
  | nil => rfl
  | cons item rest ih =>
    rw [List.flatMap_cons, serialize_append, ih, List.map_cons, String.join_cons]

namespace Clauses

variable (clauses : Clauses) (append : Append)

theorem texts_condition :
    clauses.texts append .condition =
      (present clauses.filter).toList ++ (present append.filter).toList := by
  rw [toList_present_getD, toList_present_getD, ← List.filter_append]
  rfl

/-- Both ways to put conditions together give the same clause. -/
theorem phrase_andFilter {filter : Option String}
    (h : filter.getD "" = andFilter clauses.filter (append.filter.getD "")) :
    phrase " WHERE " " AND " (present filter).toList =
      phrase " WHERE " " AND " (clauses.texts append .condition) := by
  have hpresent : (present filter).toList =
      (present (some (andFilter clauses.filter (append.filter.getD "")))).toList := by
    rw [toList_present_getD, h, toList_present_getD]
    rfl
  have hshown : ∀ text ∈ clauses.texts append .condition, text ≠ "" := by
    intro text htext
    simpa using (List.mem_filter.mp htext).2
  have htexts : (present clauses.filter).toList ++ [append.filter.getD ""].filter (!·.isEmpty) =
      clauses.texts append .condition := by
    rw [texts_condition, toList_present_getD append.filter]
  -- what is joined first stands in the clause as one text, or as none if nothing is there
  have hjoin := phrase_present_join " WHERE " hshown []
  rw [List.append_nil, List.append_nil] at hjoin
  rw [hpresent, andFilter_eq, htexts, hjoin]

/-! ## The text of a statement -/

theorem serialize_namesClause (keyword : Keyword) (names : List String) :
    serialize (namesClause keyword names) =
      phrase (" " ++ (keyword.text ++ " ")) ", " (names.map identifier) := by
  cases names with
  | nil => rfl
  | cons name rest =>
    rw [namesClause, List.isEmpty_cons, if_neg (by decide), phrase, List.map_cons,
      List.isEmpty_cons,
      if_neg (by decide), serialize_append, serialize_cons, serialize_nameList, ← String.toList_inj]
    simp [spaced, Token.text]

theorem serialize_orderTokens :
    serialize clauses.orderTokens = phrase " ORDER BY " ", " (clauses.texts append .orderBy) := by
  rw [orderTokens, texts]
  by_cases hempty : clauses.orderBy = []
  · rw [hempty]
    rfl
  · have hitems : serialize (commaSeparated (clauses.orderBy.map fun (column, direction) =>
          [.ident column, .space, .keyword (directionKeyword direction)])) =
        ", ".intercalate (clauses.texts append .orderBy) := by
      rw [commaSeparated, serialize_intercalate, List.map_map]
      refine congrArg (", ".intercalate ·) (List.map_congr_left fun entry _ => ?_)
      simp [Token.text, String.append_assoc]
    rw [if_neg (by simpa using hempty), phrase, if_neg (by simpa using hempty), serialize_append,
      serialize_cons, hitems]
    rfl

/-- The tokens of a clause say its keyword and its texts, or nothing. -/
theorem serialize_clauseTokens (clause : Clause) :
    serialize (clauses.clauseTokens append clause) = clauses.clauseText append clause := by
  cases clause with
  | head => simp [clauseTokens, clauseText, texts, Clause.keyword?, Token.text]
  | joins =>
    have hjoin :
        serialize ((present append.join).toList.map Token.fragment) = append.join.getD "" := by
      rw [← getD_present]
      cases present append.join with
      | none => rfl
      | some sql => simp [Token.text]
    simp [clauseTokens, clauseText, texts, Clause.keyword?, Token.text, hjoin]
  | condition =>
    rw [clauseTokens, serialize_filterTokens, ← texts_condition]
    rfl
  | groupBy | returning => exact serialize_namesClause _ _
  | having =>
    rw [clauseTokens, serialize_havingTokens, toList_present_getD]
    rfl
  | orderBy => exact serialize_orderTokens clauses append
  | limit | offset => exact serialize_boundTokens _ _

/-- The tokens of a statement are those of its clauses, in their order. -/
theorem tokens_eq : clauses.tokens append = Clause.all.flatMap (clauses.clauseTokens append) := by
  simp [tokens, Clause.all, clauseTokens]

theorem toSql_eq :
    clauses.toSql append =
      Text.trim (String.join (Clause.all.map (clauses.clauseText append))) := by
  rw [toSql, tokens_eq, serialize_flatMap, funext (serialize_clauseTokens clauses append)]

/-! ## Keywords -/

theorem clauseKeywords_commaSeparated {items : List (List Token)}
    (h : ∀ item ∈ items, item.filterMap Token.clauseKeyword? = []) :
    (commaSeparated items).filterMap Token.clauseKeyword? = [] := by
  induction items with
  | nil => rfl
  | cons item rest ih =>
    obtain ⟨hitem, hrest⟩ := List.forall_mem_cons.mp h
    cases rest with
    | nil => simpa [commaSeparated] using hitem
    | cons next rest =>
      have hseparator : [Token.comma, .space].filterMap Token.clauseKeyword? = [] := rfl
      rw [commaSeparated, List.intercalate_cons_cons, List.filterMap_append,
        List.filterMap_append, hitem,
        hseparator]
      exact ih hrest

theorem clauseKeywords_namesClause {keyword : Keyword} (hkeyword : keyword ∈ Clause.keywords)
    (names : List String) :
    (namesClause keyword names).filterMap Token.clauseKeyword? =
      if !names.isEmpty then [keyword] else [] := by
  have hnames : (nameList names).filterMap Token.clauseKeyword? = [] := by
    refine clauseKeywords_commaSeparated fun item hitem => ?_
    obtain ⟨name, -, rfl⟩ := List.mem_map.mp hitem
    rfl
  cases names with
  | nil => rfl
  | cons name rest =>
    rw [namesClause, List.isEmpty_cons, if_neg (by decide)]
    simp [spaced, List.filterMap_cons, Token.clauseKeyword?, hkeyword, hnames]

theorem clauseKeywords_orderTokens :
    clauses.orderTokens.filterMap Token.clauseKeyword? =
      if !clauses.orderBy.isEmpty then [.orderBy] else [] := by
  rw [orderTokens]
  cases clauses.orderBy with
  | nil => rfl
  | cons entry rest =>
    rw [List.isEmpty_cons, if_neg (by decide), List.filterMap_append, List.filterMap_cons_none rfl,
      clauseKeywords_commaSeparated, List.append_nil]
    · rfl
    · intro item hitem
      obtain ⟨⟨column, direction⟩, -, rfl⟩ := List.mem_map.mp hitem
      cases direction <;> rfl

theorem clauseKeywords_boundTokens {keyword : Keyword} (hkeyword : keyword ∈ Clause.keywords)
    (bound? : Option Bound) :
    (boundTokens keyword bound?).filterMap Token.clauseKeyword? =
      if bound?.isSome then [keyword] else [] := by
  cases bound? with
  | none => rfl
  | some bound =>
    cases bound <;>
      simp [boundTokens, boundToken, spaced, List.filterMap_cons, Token.clauseKeyword?, hkeyword]

/-- A clause brings its own keyword if it is there, and no other clause's. -/
theorem clauseKeywords_clauseTokens (clause : Clause) :
    (clauses.clauseTokens append clause).filterMap Token.clauseKeyword? =
      if clauses.has append clause then clause.keyword?.toList else [] := by
  cases clause with
  | head => exact (ite_self _).symm
  | joins =>
    rw [clauseTokens]
    cases present append.join <;> exact (ite_self _).symm
  | condition =>
    rw [clauseTokens, filterTokens, has]
    cases present clauses.filter <;> cases present append.filter <;> rfl
  | groupBy => exact clauseKeywords_namesClause (by decide) clauses.groupBy
  | having =>
    rw [clauseTokens, havingTokens, has]
    cases present clauses.having <;> rfl
  | orderBy => exact clauses.clauseKeywords_orderTokens
  | limit => exact clauseKeywords_boundTokens (by decide) clauses.limit
  | offset => exact clauseKeywords_boundTokens (by decide) clauses.offset
  | returning => exact clauseKeywords_namesClause (by decide) clauses.returning

/-- The keywords that begin clauses are those of the clauses that are there. -/
theorem clauseKeywords_tokens :
    (clauses.tokens append).filterMap Token.clauseKeyword? =
      (Clause.all.filter (clauses.has append)).filterMap Clause.keyword? := by
  rw [List.filterMap_filter, List.filterMap_eq_flatMap_toList _ Clause.all, tokens_eq,
    List.filterMap_flatMap, funext (clauseKeywords_clauseTokens clauses append)]
  refine congrArg (Clause.all.flatMap ·) (funext fun clause => ?_)
  split <;> rfl

theorem keyword_mem_tokens {clause : Clause} {word : Keyword}
    (hword : clause.keyword? = some word) :
    Token.keyword word ∈ clauses.tokens append ↔ clauses.has append clause = true := by
  have hmem : Token.keyword word ∈ clauses.tokens append ↔
      word ∈ (clauses.tokens append).filterMap Token.clauseKeyword? := by
    have hkeyword : word ∈ Clause.keywords :=
      List.mem_filterMap.mpr ⟨clause, by cases clause <;> decide, hword⟩
    rw [List.mem_filterMap]
    constructor
    · intro htoken
      exact ⟨_, htoken, if_pos hkeyword⟩
    · rintro ⟨token, htoken, hread⟩
      rwa [← Token.eq_keyword_of_clauseKeyword? hread]
  rw [hmem, clauseKeywords_tokens, List.mem_filterMap]
  constructor
  · rintro ⟨other, hother, hsame⟩
    rw [Clause.keyword?_inj hword hsame]
    exact (List.mem_filter.mp hother).2
  · exact fun hhas => ⟨clause, List.mem_filter.mpr ⟨by cases clause <;> decide, hhas⟩, hword⟩

/-! ## Absorbing -/

/-- The absorbed clauses have the texts that the clauses have with what is appended to them. -/
theorem clauseText_absorb {filter : Option String}
    (hfilter : filter.getD "" = andFilter clauses.filter (append.filter.getD ""))
    (clause : Clause) :
    (clauses.absorb append filter).clauseText {} clause = clauses.clauseText append clause := by
  cases clause with
  | condition =>
    -- nothing is appended any more, so the clause has one text at most
    refine Eq.trans ?_ (phrase_andFilter clauses append hfilter)
    rw [clauseText, Clause.keyword?, texts_condition]
    exact congrArg (phrase " WHERE " " AND ") (List.append_nil _)
  | joins => simp [clauseText, Clause.keyword?, texts, absorb]
  | _ => rfl

/-- What is appended stands in the joins and in the condition, and nowhere else. -/
theorem clauseText_append {clause : Clause} (hjoins : clause ≠ .joins)
    (hcondition : clause ≠ .condition) :
    clauses.clauseText append clause = clauses.clauseText {} clause := by
  cases clause with
  | joins => exact absurd rfl hjoins
  | condition => exact absurd rfl hcondition
  | _ => rfl

/-- A statement with a join and a condition appended to it is the statement that has them built in.
Either way its clauses stand in one order, those without a join or a condition keep their texts, and
a keyword stands in it for every clause that is there. -/
theorem toSql_absorb (clauses : Clauses) (append : Append) (filter : Option String)
    (hfilter : filter.getD "" = andFilter clauses.filter (append.filter.getD "")) :
    clauses.toSql append = (clauses.absorb append filter).toSql {} ∧
      clauses.toSql append = Text.trim (String.join (Clause.all.map (clauses.clauseText append))) ∧
      (∀ clause, (clauses.absorb append filter).clauseText {} clause =
        clauses.clauseText append clause) ∧
      (∀ clause, clause ≠ .joins → clause ≠ .condition →
        clauses.clauseText append clause = clauses.clauseText {} clause) ∧
      (clauses.tokens append).filterMap Token.clauseKeyword? =
        (Clause.all.filter (clauses.has append)).filterMap Clause.keyword? ∧
      ∀ clause word, clause.keyword? = some word →
        (Token.keyword word ∈ clauses.tokens append ↔ clauses.has append clause = true) := by
  have htext := clauseText_absorb clauses append hfilter
  refine ⟨?_, toSql_eq clauses append, htext, fun clause => clauseText_append clauses append,
    clauseKeywords_tokens clauses append, fun clause word => keyword_mem_tokens clauses append⟩
  rw [toSql_eq, toSql_eq, funext htext]

def recentAlbums : Clauses where
  head := "SELECT \"id\" FROM \"albums\""
  filter := some "\"year\" > 2000"
  groupBy := ["id"]
  having := some ""
  limit := some (.count 5)

/-- The albums of one artist, found through the artists' table. -/
def ofArtist : Append where
  join := some " LEFT JOIN \"artists\" ON \"artists\".\"id\" = \"albums\".\"artist_id\""
  filter := some "\"artists\".\"name\" = 'Nina'"

def recentOfArtist : String := "\"year\" > 2000 AND \"artists\".\"name\" = 'Nina'"

theorem recentAlbums_absorb :
    recentOfArtist = andFilter recentAlbums.filter (ofArtist.filter.getD "") ∧
      recentAlbums.toSql ofArtist = (recentAlbums.absorb ofArtist (some recentOfArtist)).toSql {} ∧
      Clause.all.filter (recentAlbums.has ofArtist) =
        [.head, .joins, .condition, .groupBy, .limit] := by
  have hfilter : recentOfArtist = andFilter recentAlbums.filter (ofArtist.filter.getD "") := by
    decide +kernel
  exact ⟨hfilter, (toSql_absorb recentAlbums ofArtist (some recentOfArtist) hfilter).1,
    by decide +kernel⟩

end Clauses

end DescriptorSql.Sql
