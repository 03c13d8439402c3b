import DescriptorSql.Proofs.Lexical.Value
import DescriptorSql.Sql.Clauses
import DescriptorSql.Sql.Link

/-!
# `Proofs/Lexical/Clauses.lean` — clauses in a statement

Every clause of a statement starts with a space, so it can be put behind any text: such texts are
*chunks*. Two statements whose parts are alike are alike (`Clauses.alike_toSql`), and the joins of
plain relations neither connect conditions nor begin a clause (`chunk_relationJoin`).
-/

set_option autoImplicit false

namespace DescriptorSql.Sql

/-- The texts are alike, and both start with a separator. -/
structure Chunk (grade : Grade) (a b : String) : Prop where
  alike : Alike grade a b
  left : startsApart a.toList = true
  right : startsApart b.toList = true

variable {grade : Grade} {a b c d : String}

/-- A chunk can be put behind any text, since it starts with a separator. -/
theorem Alike.chunk (h : Alike grade a b) (hchunk : Chunk grade c d) :
    Alike grade (a ++ c) (b ++ d) :=
  h.append hchunk.alike (Or.inl hchunk.left) (Or.inl hchunk.right)

namespace Chunk

theorem nil : Chunk grade "" "" :=
  ⟨⟨[], ⟨by simp, by simp [awaitsAnd]⟩, ⟨[], rfl, rfl⟩, [], rfl, rfl⟩, rfl, rfl⟩

theorem append (h : Chunk grade a b) (h' : Chunk grade c d) : Chunk grade (a ++ c) (b ++ d) := by
  refine ⟨h.alike.chunk h', ?_, ?_⟩
  · rw [String.toList_append]
    exact startsApart_append_of h.left h'.left
  · rw [String.toList_append]
    exact startsApart_append_of h.right h'.right

theorem toClosed (h : Chunk grade a b) : Chunk .closed a b := ⟨h.alike.toClosed, h.left, h.right⟩

theorem mono (h : Chunk .inert a b) (grade : Grade) : Chunk grade a b :=
  ⟨h.alike.mono grade, h.left, h.right⟩

/-- A blank makes a chunk of any text. -/
theorem space (h : Alike grade a b) : Chunk grade (" " ++ a) (" " ++ b) := by
  have hspace := (Bool.and_eq_true_iff.mp grade.separates_space).1
  have hstarts : ∀ text : String, startsApart (" " ++ text).toList = true := by
    intro text
    rw [String.toList_append]
    exact startsApart_append _ (by decide) (by decide)
  exact ⟨h.behind hspace (by decide), hstarts a, hstarts b⟩

end Chunk

/-! ## Token sequences -/

/-- The tokens are written alike. -/
def AlikeToken (grade : Grade) (first second : Token) : Prop := Alike grade first.text second.text

theorem AlikeToken.ident {name : String} (h : isPlainName name = true) :
    AlikeToken grade (.ident name) (.ident name) := (alike_identifier h).mono grade

theorem AlikeToken.value {value : Json} (h : value.isPlain = true) :
    AlikeToken grade (.value value.withoutData) (.value value) := (alike_literal h).mono grade

theorem AlikeToken.keyword (word : Keyword) :
    AlikeToken .closed (.keyword word) (.keyword word) := by
  cases word <;> exact .ofAccepts (by decide)

/-- A row of spaced tokens is a chunk, and is alike if its tokens are. -/
theorem Chunk.spaced {first second : List Token}
    (h : List.Forall₂ (AlikeToken grade) first second) :
    Chunk grade (serialize (spaced first)) (serialize (spaced second)) := by
  have hcons : ∀ (token : Token) (rest : List Token),
      serialize (Sql.spaced (token :: rest)) =
        " " ++ token.text ++ serialize (Sql.spaced rest) := by
    intro token rest
    rw [Sql.spaced, List.flatMap_cons, serialize_append, serialize_cons, serialize_cons,
      serialize_nil, String.append_empty]
    rfl
  induction h with
  | nil => exact Chunk.nil
  | cons htoken hrest ih =>
    rw [hcons, hcons]
    exact (Chunk.space htoken).append ih

/-- Tokens with separators among them are written as their texts with the separator's text among
these. -/
theorem serialize_intercalate (separator : List Token) (items : List (List Token)) :
    serialize (separator.intercalate items) =
      (serialize separator).intercalate (items.map serialize) := by
  induction items with
  | nil => rfl
  | cons item rest ih =>
    cases rest with
    | nil => simp
    | cons next rest =>
      rw [List.intercalate_cons_cons, serialize_append, serialize_append, ih, List.map_cons,
        List.map_cons, List.map_cons, String.intercalate_cons_cons]

theorem serialize_nameList (names : List String) :
    serialize (nameList names) = ", ".intercalate (names.map identifier) := by
  rw [nameList, commaSeparated, serialize_intercalate, List.map_map]
  rfl

/-- A comma connects nothing and ends nothing. -/
theorem alike_commaSeparated {first second : List (List Token)}
    (h : List.Forall₂ (fun a b => Alike grade (serialize a) (serialize b)) first second) :
    Alike grade (serialize (commaSeparated first)) (serialize (commaSeparated second)) := by
  rw [commaSeparated, commaSeparated, serialize_intercalate, serialize_intercalate]
  exact Alike.intercalate (forall₂_map h) grade.separates_comma

theorem alike_nameList {names : List String} (h : ∀ name ∈ names, isPlainName name = true) :
    Alike grade (serialize (nameList names)) (serialize (nameList names)) := by
  refine alike_commaSeparated (List.forall₂_same.mpr ?_)
  intro tokens htokens
  obtain ⟨name, hname, rfl⟩ := List.mem_map.mp htokens
  simpa [Token.text] using (alike_identifier (h name hname)).mono grade

/-! ## Where clauses begin -/

/-- Nothing, or a blank and a keyword that begins a clause. -/
def beginsClause : List Item → Bool
  | [] => true
  | .blank c :: word :: _ => Text.isBlank c && word.isOneOf clauseKeywords
  | _ => false

theorem beginsClause_append {as bs : List Item} (ha : beginsClause as = true)
    (hb : beginsClause bs = true) : beginsClause (as ++ bs) = true := by
  unfold beginsClause at ha
  split at ha
  · exact hb
  · exact ha
  · cases ha

/-- Only the beginning counts, so it does not matter what is behind it. -/
theorem beginsClause_append_of_ne_nil {as : List Item} (hne : as ≠ [])
    (h : beginsClause as = true) (bs : List Item) : beginsClause (as ++ bs) = true := by
  unfold beginsClause at h
  split at h
  · exact absurd rfl hne
  · exact h
  · cases h

/-- The texts are alike, and the second is empty or begins a clause. -/
structure Opening (a b : String) : Prop where
  chunk : Chunk .closed a b
  opens : ∃ items, items? b = some items ∧ beginsClause items = true

namespace Opening

theorem nil : Opening "" "" := ⟨Chunk.nil, [], rfl, rfl⟩

theorem append (h : Opening a b) (h' : Opening c d) : Opening (a ++ c) (b ++ d) := by
  refine ⟨h.chunk.append h'.chunk, ?_⟩
  obtain ⟨bs, hbs, hopens⟩ := h.opens
  obtain ⟨ds, hds, hopens'⟩ := h'.opens
  refine ⟨bs ++ ds, ?_, beginsClause_append hopens hopens'⟩
  rw [items?, String.toList_append]
  exact ofChars?_append hbs hds (Or.inl h'.chunk.right)

def keywords : List Keyword := [.groupBy, .having, .orderBy, .limit, .offset, .returning]

def opensText (text : String) : Bool :=
  (items? text).any fun items => beginsClause items && !items.isEmpty

theorem opensText_keywords :
    ∀ word ∈ keywords, opensText (serialize (spaced [.keyword word])) = true := by
  decide +kernel

/-- A keyword of a clause opens the clause, whatever closed text is behind it. -/
theorem keyword {word : Keyword} (hword : word ∈ keywords) (h : Chunk .closed a b) :
    Opening (serialize (spaced [.keyword word]) ++ a)
      (serialize (spaced [.keyword word]) ++ b) := by
  have hopens := opensText_keywords word hword
  unfold opensText at hopens
  rw [Option.any_eq_true] at hopens
  obtain ⟨items, hitems, hopens⟩ := hopens
  obtain ⟨bs, hbs, -⟩ := h.alike.items
  refine ⟨(Chunk.spaced (.cons (.keyword word) .nil)).append h, items ++ bs, ?_, ?_⟩
  · rw [items?, String.toList_append]
    exact ofChars?_append hitems hbs (Or.inl h.right)
  · obtain ⟨hbegins, hsome⟩ := Bool.and_eq_true_iff.mp hopens
    exact beginsClause_append_of_ne_nil (by simpa using hsome) hbegins bs

theorem phrase {word : Keyword} (hword : word ∈ keywords) {first second : Token}
    (h : AlikeToken .closed first second) :
    Opening (serialize (spaced [.keyword word, first]))
      (serialize (spaced [.keyword word, second])) := by
  have hspaced : ∀ token : Token, serialize (spaced [.keyword word, token]) =
      serialize (spaced [.keyword word]) ++ serialize (spaced [token]) := by
    intro token
    rw [← serialize_append]
    rfl
  rw [hspaced, hspaced]
  exact keyword hword (.spaced (.cons h .nil))

end Opening

/-- Without names there is no clause, and the empty text opens as well. -/
theorem opening_namesClause {keyword : Keyword} (hkeyword : keyword ∈ Opening.keywords)
    {names : List String} (h : ∀ name ∈ names, isPlainName name = true) :
    Opening (serialize (namesClause keyword names)) (serialize (namesClause keyword names)) := by
  unfold namesClause
  split
  · exact Opening.nil
  · rw [serialize_append, serialize_cons]
    exact .keyword hkeyword (Chunk.space (alike_nameList h))

/-! ## The clauses of a statement -/

namespace Clauses

/-- What stands before the condition: the head and the joins. -/
def front (clauses : Clauses) (append : Append) : String :=
  clauses.head ++ clauses.joins ++ (present append.join).getD ""

/-- What stands behind the condition: the other clauses in their order. -/
def back (clauses : Clauses) : String :=
  serialize (namesClause .groupBy clauses.groupBy) ++ serialize clauses.havingTokens ++
    serialize clauses.orderTokens ++ serialize (boundTokens .limit clauses.limit) ++
    serialize (boundTokens .offset clauses.offset) ++
    serialize (namesClause .returning clauses.returning)

/-- The statement is cut at its condition, the only part that the data may change the words of. -/
theorem serialize_tokens (clauses : Clauses) (append : Append) :
    serialize (clauses.tokens append) =
      clauses.front append ++ serialize (clauses.filterTokens append) ++ clauses.back := by
  cases hjoin : present append.join <;>
    simp [tokens, front, back, hjoin, Token.text, String.append_assoc]

theorem present_eq {text : String} (h : text ≠ "") : present (some text) = some text := by
  rw [present, Option.filter_some, if_pos (by simpa using h)]

/-- The texts, unless one of them is empty, and then both are. -/
theorem rel_present {first second : Option String} (h : Option.Rel (Alike grade) first second) :
    Option.Rel (Alike grade) (present first) (present second) := by
  cases h with
  | none => exact .none
  | @some a b hab =>
    rw [present, present, Option.filter_some, Option.filter_some, hab.isEmpty_eq]
    split
    · exact .some hab
    · exact .none

/-- The names and placeholders behind the condition are plain. -/
structure IsPlain (clauses : Clauses) : Prop where
  groupBy : ∀ name ∈ clauses.groupBy, isPlainName name = true
  orderBy : ∀ entry ∈ clauses.orderBy, isPlainName entry.1 = true
  limit : ∀ text, clauses.limit = some (.placeholder text) → (Json.string text).isPlain = true
  offset : ∀ text, clauses.offset = some (.placeholder text) → (Json.string text).isPlain = true
  returning : ∀ name ∈ clauses.returning, isPlainName name = true

theorem IsPlain.ofReturning {clauses : Clauses} (hgroupBy : clauses.groupBy = [])
    (horderBy : clauses.orderBy = []) (hlimit : clauses.limit = none)
    (hoffset : clauses.offset = none)
    (hreturning : ∀ name ∈ clauses.returning, isPlainName name = true) : clauses.IsPlain :=
  ⟨by simp [hgroupBy], by simp [horderBy], by simp [hlimit], by simp [hoffset], hreturning⟩

variable {first second : Clauses} {append : Append}

/-- A condition has no open OR, so an appended one is put behind it with AND and both stay whole. -/
theorem chunk_filterTokens (hfilter : Option.Rel (Alike .condition) first.filter second.filter)
    (happend : Option.Rel (Alike .inert) append.filter append.filter) :
    Chunk .closed (serialize (first.filterTokens append))
      (serialize (second.filterTokens append)) := by
  have hown := rel_present hfilter
  have hextra := rel_present happend
  unfold filterTokens
  revert hown hextra
  generalize present first.filter = a, present second.filter = b, present append.filter = c
  -- a condition of its own and one that is put behind it, one of the two, or neither
  rintro (⟨h⟩ | _) (⟨h'⟩ | _)
  · exact .spaced
      (.cons (.keyword _) (.cons h.toClosed (.cons (.keyword _) (.cons h'.toClosed .nil))))
  · exact .spaced (.cons (.keyword _) (.cons h.toClosed .nil))
  · exact .spaced (.cons (.keyword _) (.cons h'.toClosed .nil))
  · exact Chunk.nil

/-- HAVING is followed by the whole condition, which is closed once no OR is open in it. -/
theorem opening_havingTokens (h : Option.Rel (Alike .condition) first.having second.having) :
    Opening (serialize first.havingTokens) (serialize second.havingTokens) := by
  have hpresent := rel_present h
  unfold havingTokens
  revert hpresent
  generalize present first.having = a, present second.having = b
  rintro (⟨h⟩ | _)
  · exact .phrase (by decide) h.toClosed
  · exact Opening.nil

/-- Only the columns in an ORDER BY are the descriptor's own text. -/
theorem opening_orderTokens {clauses : Clauses} (h : clauses.IsPlain) :
    Opening (serialize clauses.orderTokens) (serialize clauses.orderTokens) := by
  unfold orderTokens
  split
  · exact Opening.nil
  · rw [serialize_append, serialize_cons]
    refine .keyword (by decide) (Chunk.space (alike_commaSeparated
      (List.forall₂_same.mpr ?_)))
    intro tokens htokens
    obtain ⟨⟨column, direction⟩, hmem, rfl⟩ := List.mem_map.mp htokens
    have hcolumn := (alike_identifier (h.orderBy _ hmem)).toClosed
    have hdirection := AlikeToken.keyword (directionKeyword direction)
    simpa [Token.text] using hcolumn.chunk (Chunk.space hdirection)

/-- A bound is a number or a placeholder, and none of them is a keyword. -/
theorem opening_boundTokens {keyword : Keyword} (hkeyword : keyword ∈ Opening.keywords)
    {bound? : Option Bound}
    (h : ∀ text, bound? = some (.placeholder text) → (Json.string text).isPlain = true) :
    Opening (serialize (boundTokens keyword bound?)) (serialize (boundTokens keyword bound?)) := by
  unfold boundTokens
  split
  · next bound =>
    refine .phrase hkeyword ?_
    cases bound with
    | count n => exact (@alike_literal (Json.ofNat n) rfl).right.toClosed
    | placeholder text => exact (alike_literal (h text rfl)).right.toClosed
  · exact Opening.nil

/-- Each clause behind the condition is empty or begins itself, so the rest of the statement does
too. -/
theorem opening_back (hhaving : Option.Rel (Alike .condition) first.having second.having)
    (hsame : first.groupBy = second.groupBy ∧ first.orderBy = second.orderBy ∧
      first.limit = second.limit ∧ first.offset = second.offset ∧
      first.returning = second.returning)
    (hplain : second.IsPlain) : Opening first.back second.back := by
  obtain ⟨hgroup, horder, hlimit, hoffset, hreturning⟩ := hsame
  have hordered : first.orderTokens = second.orderTokens := by rw [orderTokens, orderTokens, horder]
  rw [back, back, hgroup, hordered, hlimit, hoffset, hreturning]
  have hgroup : Keyword.groupBy ∈ Opening.keywords := by decide
  have hlimit : Keyword.limit ∈ Opening.keywords := by decide
  have hoffset : Keyword.offset ∈ Opening.keywords := by decide
  have hreturning : Keyword.returning ∈ Opening.keywords := by decide
  exact (((((opening_namesClause hgroup hplain.groupBy).append
    (opening_havingTokens hhaving)).append
    (opening_orderTokens hplain)).append (opening_boundTokens hlimit hplain.limit)).append
    (opening_boundTokens hoffset hplain.offset)).append
      (opening_namesClause hreturning hplain.returning)

/-- Statements whose parts are alike are alike. -/
theorem alike_toSql (hhead : Alike .closed first.head second.head)
    (hjoins : Chunk .closed first.joins second.joins)
    (hfilter : Option.Rel (Alike .condition) first.filter second.filter)
    (hhaving : Option.Rel (Alike .condition) first.having second.having)
    (happend : Option.Rel (Alike .inert) append.filter append.filter)
    (hjoin : present append.join = none)
    (hsame : first.groupBy = second.groupBy ∧ first.orderBy = second.orderBy ∧
      first.limit = second.limit ∧ first.offset = second.offset ∧
      first.returning = second.returning)
    (hplain : second.IsPlain) :
    Alike .closed (first.toSql append) (second.toSql append) := by
  rw [toSql, toSql, serialize_tokens, serialize_tokens, front, front, hjoin]
  have hfront := (hhead.chunk hjoins).chunk Chunk.nil
  exact ((hfront.chunk (chunk_filterTokens hfilter happend)).chunk
    (opening_back hhaving hsame hplain).chunk).trim

end Clauses

end DescriptorSql.Sql
