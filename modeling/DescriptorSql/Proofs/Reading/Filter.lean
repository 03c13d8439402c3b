import DescriptorSql.Proofs.Lexical.Clauses
import DescriptorSql.Proofs.Reading.Condition

/-!
# `Proofs/Reading/Filter.lean` — the condition of a statement

Where the WHERE clause of a statement begins and ends, and what it says. The condition of a
statement is read as it is on its own (`Clauses.readWhere?_toSql`). A condition that is appended to
a statement is what AND connects last, whatever the statement's own condition is
(`Clauses.filterEndsWith_toSql`): the own condition has no OR outside of parentheses and leaves no
BETWEEN waiting for the AND.
-/

set_option autoImplicit false

namespace DescriptorSql.Sql

/-! ## Reading the WHERE clause -/

def Item.staysInClause (item : Item) : Bool := !item.isOneOf clauseKeywords

/-- The condition in the WHERE clause; nothing if another clause comes first, or none. -/
def filterOf (items : List Item) : Option (List Item) :=
  match items.dropWhile Item.staysInClause with
  | [] => none
  | item :: rest =>
    if item.isKeyword "WHERE" then some (rest.takeWhile Item.staysInClause) else none

/-- The condition that the WHERE clause of a statement says. -/
def readWhere? (sql : String) : Option (Formula String) :=
  (items? sql).bind fun items => (filterOf items).bind fun filter => disjunction (parts filter)

/-- The text of some parts, without the blanks around it. -/
def pieceText (piece : List Part) : String :=
  String.ofList (textOf (dropOuterBlanks (piece.map Prod.fst)))

/-- What AND connects. The AND of a BETWEEN belongs to what is connected. -/
def conjuncts (items : List Item) : List String :=
  (cut endsFactor false (parts items)).map pieceText

/-- The statement has a condition without an OR in it, and the last that AND connects in the
condition is the given one. -/
def FilterEndsWith (sql condition : String) : Prop :=
  ∃ items filter, items? sql = some items ∧ filterOf items = some filter ∧
    (∀ item ∈ filter, item.isKeyword "OR" = false) ∧ (conjuncts filter).getLast? = some condition

/-! ## Blanks -/

section

variable {c : Char} {items : List Item}

theorem pieceText_blank_cons (hc : Text.isBlank c = true) (piece : List Part) :
    pieceText ((.blank c, none) :: piece) = pieceText piece := by
  rw [pieceText, List.map_cons, dropOuterBlanks, List.dropWhile_cons_of_pos (by exact hc)]
  rfl

theorem pieceText_append_blank (hc : Text.isBlank c = true) (piece : List Part) :
    pieceText (piece ++ [(.blank c, none)]) = pieceText piece := by
  have hblank : Item.isBlank (.blank c) = true := hc
  rw [pieceText, pieceText, List.map_append, dropOuterBlanks, dropOuterBlanks,
    List.dropWhile_append]
  split
  · next h => simp [List.isEmpty_iff.mp h, hblank]
  · simp [dropTrailingBlanks, hblank]

theorem map_cut_blank_cons (hc : Text.isBlank c = true) (parts : List Part) :
    (cut endsFactor false ((.blank c, none) :: parts)).map pieceText =
      (cut endsFactor false parts).map pieceText := by
  have hblank : ((.blank c, none) : Part).1.isBlank = true := hc
  obtain ⟨piece, others, hpieces⟩ :=
    List.exists_cons_of_ne_nil (@cut_ne_nil endsFactor false parts)
  rw [cut_blank_cons hblank (endsFactor_blank hblank false) hpieces, hpieces, List.map_cons,
    List.map_cons, pieceText_blank_cons hc]

theorem map_cut_append_blank (hc : Text.isBlank c = true) (parts : List Part) :
    (cut endsFactor false (parts ++ [(.blank c, none)])).map pieceText =
      (cut endsFactor false parts).map pieceText := by
  have hblank : ((.blank c, none) : Part).1.isBlank = true := hc
  obtain ⟨front, last, hparts, happend⟩ := cut_append_blank (endsFactor_blank hblank) false parts
  rw [hparts, happend, List.map_append, List.map_append, List.map_singleton, List.map_singleton,
    pieceText_append_blank hc]

/-- Blanks at the ends make no difference to what is made of the items. -/
structure IgnoresBlanks {β : Type} (f : List Item → β) : Prop where
  blank_cons : ∀ {c}, Text.isBlank c = true → ∀ items, f (.blank c :: items) = f items
  append_blank : ∀ {c}, Text.isBlank c = true → ∀ items, f (items ++ [.blank c]) = f items

theorem ignoresBlanks_conjuncts : IgnoresBlanks conjuncts where
  blank_cons hc items := map_cut_blank_cons hc (parts items)
  append_blank hc items := by
    rw [conjuncts, parts_append]
    exact map_cut_append_blank hc (parts items)

theorem ignoresBlanks_disjunction : IgnoresBlanks fun items => disjunction (parts items) where
  blank_cons {c} hc items := by
    have hblank : ((.blank c, none) : Part).1.isBlank = true := hc
    have hterms :=
      mapM_cut_blank_cons hblank (endsTerm_blank hblank false) (term_blank_cons hblank)
        (parts items)
    show disjunction ((.blank c, none) :: parts items) = disjunction (parts items)
    rw [disjunction, terms, hterms, disjunction, terms]
  append_blank {c} hc items := by
    have hblank : ((.blank c, none) : Part).1.isBlank = true := hc
    have hterms :=
      mapM_cut_append_blank (endsTerm_blank hblank) (term_append_blank hblank) false (parts items)
    show disjunction (parts (items ++ [.blank c])) = disjunction (parts items)
    rw [parts_append, disjunction, terms]
    exact congrArg (·.bind Connective.or.chain) hterms

theorem IgnoresBlanks.trailing {β : Type} {f : List Item → β} (hf : IgnoresBlanks f)
    (items : List Item) : f (dropTrailingBlanks items) = f items := by
  induction items using List.reverseRecOn with
  | nil => rfl
  | append_singleton items item ih =>
    cases hitem : item.isBlank with
    | true =>
      have hdrop : dropTrailingBlanks (items ++ [item]) = dropTrailingBlanks items := by
        simp [dropTrailingBlanks, hitem]
      cases item with
      | blank c => rw [hdrop, ih, hf.append_blank hitem]
      | _ => cases hitem
    | false =>
      have hdrop : dropTrailingBlanks (items ++ [item]) = items ++ [item] := by
        simp [dropTrailingBlanks, hitem]
      rw [hdrop]

theorem dropTrailingBlanks_subset (items : List Item) : dropTrailingBlanks items ⊆ items := by
  intro item hitem
  have hmem := (List.dropWhile_sublist _).subset (List.mem_reverse.mp hitem)
  exact List.mem_reverse.mp hmem

end

/-! ## Conjunctions -/

section

variable {as bs items : List Item} {text : String}

theorem conjuncts_and (has : Grade.condition.Allows as) :
    conjuncts (as ++ ([.blank ' ', .word ['A', 'N', 'D'], .blank ' '] ++ bs)) =
      conjuncts as ++ conjuncts bs := by
  have hawaits : awaitsAnd false ((parts as).map Prod.fst) = false := by
    rw [parts_fst]
    exact has.2 rfl
  rw [conjuncts, parts_append, parts_separator, cut_and (parts bs) (by decide) (by decide) hawaits,
    List.map_append, map_cut_append_blank (by decide), map_cut_blank_cons (by decide)]
  rfl

theorem conjuncts_inert (hitems : items? text = some items) (h : Grade.inert.Allows items) :
    conjuncts items = [Text.trim text] := by
  rw [conjuncts, cut_of_inert h, List.map_singleton, pieceText, parts_fst, trim_eq hitems]

end

/-! ## Statements -/

theorem staysInClause_of_allows {grade : Grade} {items : List Item} (hgrade : grade ≠ .closed)
    (h : grade.Allows items) : ∀ item ∈ items, item.staysInClause = true := by
  intro item hitem
  have hclauses : ∀ word ∈ clauseKeywords, word ∈ grade.reserved := by
    cases grade with
    | closed => exact absurd rfl hgrade
    | _ => decide
  rw [Item.staysInClause, Bool.not_eq_true', Item.isOneOf, List.any_eq_false]
  intro word hword
  exact Bool.eq_false_iff.mp (h.isKeyword_eq_false hitem (hclauses word hword))

theorem filterOf_append_cons {front : List Item} {word : Item}
    (hfront : ∀ item ∈ front, item.staysInClause = true) (hword : word.isKeyword "WHERE" = true)
    (rest : List Item) :
    filterOf (front ++ word :: rest) = some (rest.takeWhile Item.staysInClause) := by
  have hstays : word.staysInClause = false := by
    simp [Item.staysInClause, Item.isOneOf, clauseKeywords, hword]
  rw [filterOf, List.dropWhile_append_of_pos hfront, List.dropWhile_cons_of_neg (by simp [hstays])]
  simp [hword]

/-- A WHERE clause ends where the next clause begins, and has nothing but the condition and blanks
in it. -/
theorem IgnoresBlanks.takeWhile_eq {β : Type} {f : List Item → β} (hf : IgnoresBlanks f)
    {condition back : List Item} (hcondition : ∀ item ∈ condition, item.staysInClause = true)
    (hback : beginsClause back = true) :
    (∀ item ∈ (dropTrailingBlanks (.blank ' ' :: condition ++ back)).takeWhile Item.staysInClause,
        item ∈ condition ∨ item.isBlank = true) ∧
      f ((dropTrailingBlanks (.blank ' ' :: condition ++ back)).takeWhile Item.staysInClause) =
        f condition := by
  have hstays : ∀ item ∈ Item.blank ' ' :: condition, item.staysInClause = true :=
    List.forall_mem_cons.mpr ⟨by decide, hcondition⟩
  have hmem : ∀ item ∈ Item.blank ' ' :: condition, item ∈ condition ∨ item.isBlank = true :=
    List.forall_mem_cons.mpr ⟨Or.inr (by decide), fun item hitem => Or.inl hitem⟩
  -- the statement is trimmed, so without a next clause the condition may end in blanks of its own
  match back, hback with
  | [], _ =>
    have hsubset := dropTrailingBlanks_subset (.blank ' ' :: condition)
    rw [List.append_nil,
      List.takeWhile_eq_self_iff.mpr fun item hitem => hstays item (hsubset hitem),
      hf.trailing, hf.blank_cons (by decide)]
    exact ⟨fun item hitem => hmem item (hsubset hitem), rfl⟩
  | .blank c :: word :: more, hback =>
    obtain ⟨hblank, hkeyword⟩ := Bool.and_eq_true_iff.mp hback
    -- with a next clause trimming stops behind its keyword
    have hword : word.isBlank = false := by
      cases word with
      | blank c => simp [Item.isOneOf, Item.isKeyword] at hkeyword
      | _ => rfl
    have hnext : Item.staysInClause (.blank c) = true := by
      simp [Item.staysInClause, Item.isOneOf, Item.isKeyword]
    have hsplit : Item.blank ' ' :: condition ++ .blank c :: word :: more =
        (.blank ' ' :: condition ++ [.blank c]) ++ word :: more := by simp
    have hbefore : ∀ item ∈ Item.blank ' ' :: condition ++ [Item.blank c],
        item.staysInClause = true := by
      intro item hitem
      rcases List.mem_append.mp hitem with hitem | hitem
      · exact hstays item hitem
      · rw [List.mem_singleton.mp hitem]
        exact hnext
    have htake : ∀ rest, ((Item.blank ' ' :: condition ++ [Item.blank c]) ++ word :: rest).takeWhile
        Item.staysInClause = Item.blank ' ' :: condition ++ [Item.blank c] := by
      intro rest
      rw [List.takeWhile_append_of_pos hbefore,
        List.takeWhile_cons_of_neg (by simp [Item.staysInClause, hkeyword]), List.append_nil]
    rw [hsplit, dropTrailingBlanks, reverse_dropWhile_append_cons hword, htake,
      hf.append_blank hblank, hf.blank_cons (by decide)]
    refine ⟨?_, rfl⟩
    intro item hitem
    rcases List.mem_append.mp hitem with hitem | hitem
    · exact hmem item hitem
    · rw [List.mem_singleton.mp hitem]
      exact Or.inr hblank

/-- The condition of a statement is what stands between WHERE and the next clause. -/
theorem IgnoresBlanks.exists_filterOf {β : Type} {f : List Item → β} (hf : IgnoresBlanks f)
    {front condition back : List Item} (hfront : ∀ item ∈ front, item.staysInClause = true)
    (hcondition : ∀ item ∈ condition, item.staysInClause = true)
    (hback : beginsClause back = true) :
    ∃ filter, filterOf (dropOuterBlanks
        (front ++
          ([.blank ' ', .word ['W', 'H', 'E', 'R', 'E'], .blank ' '] ++ (condition ++ back)))) =
          some filter ∧
      (∀ item ∈ filter, item ∈ condition ∨ item.isBlank = true) ∧ f filter = f condition := by
  have hwhere : Item.isBlank (.word ['W', 'H', 'E', 'R', 'E']) = false := rfl
  have hitems : front ++ ([.blank ' ', .word ['W', 'H', 'E', 'R', 'E'], .blank ' '] ++
      (condition ++ back)) = (front ++ [.blank ' ']) ++ .word ['W', 'H', 'E', 'R', 'E'] ::
        (.blank ' ' :: condition ++ back) := by simp
  have hbefore : ∀ item ∈ (front ++ [Item.blank ' ']).dropWhile Item.isBlank,
      item.staysInClause = true := by
    intro item hitem
    rcases List.mem_append.mp ((List.dropWhile_sublist _).subset hitem) with hitem | hitem
    · exact hfront item hitem
    · rw [List.mem_singleton.mp hitem]
      decide
  rw [hitems, dropOuterBlanks, dropWhile_append_cons hwhere, dropTrailingBlanks,
    reverse_dropWhile_append_cons hwhere, filterOf_append_cons hbefore (by decide)]
  exact ⟨_, rfl, hf.takeWhile_eq hcondition hback⟩

/-- A text without the keywords that begin a clause can stand behind WHERE. -/
def StaysInClause (text : String) : Prop :=
  ∃ items, items? text = some items ∧ ∀ item ∈ items, item.staysInClause = true

theorem StaysInClause.glue {a b text : String} (ha : StaysInClause a) (hb : StaysInClause b)
    (htext : StaysInClause text) (hglue : isGlue text = true) : StaysInClause (a ++ text ++ b) := by
  obtain ⟨as, has, hstaysa⟩ := ha
  obtain ⟨bs, hbs, hstaysb⟩ := hb
  obtain ⟨ts, hts, hstays⟩ := htext
  refine ⟨_, items?_glue has hbs hts hglue, ?_⟩
  simp only [List.mem_append, or_imp, forall_and]
  exact ⟨hstaysa, hstays, hstaysb⟩

/-- A statement without the word WHERE has no condition. -/
theorem readWhere?_eq_none {sql : String} {items : List Item} (hitems : items? sql = some items)
    (h : ∀ item ∈ items, item.isKeyword "WHERE" = false) : readWhere? sql = none := by
  have hfilter : filterOf items = none := by
    unfold filterOf
    split
    · rfl
    · next item rest hrest =>
      have hitem : item ∈ items.dropWhile Item.staysInClause := hrest ▸ List.mem_cons_self
      rw [if_neg (by simp [h item ((List.dropWhile_sublist _).subset hitem)])]
  rw [readWhere?, hitems, Option.bind_some, hfilter]
  rfl

namespace Clauses

variable {clauses : Clauses} {condition : String}

theorem exists_filterTokens (hfilter : Option.Rel (Alike .condition) clauses.filter clauses.filter)
    (hcondition : Alike .inert condition condition) (hne : condition ≠ "") :
    ∃ text items, serialize (clauses.filterTokens (.condition condition)) = " WHERE " ++ text ∧
      items? text = some items ∧ Grade.condition.Allows items ∧
      (conjuncts items).getLast? = some (Text.trim condition) := by
  obtain ⟨cs, hcs, hinert⟩ := hcondition.items
  have hpresent : present (Append.condition condition).filter = some condition := present_eq hne
  have hown := rel_present hfilter
  rw [filterTokens, hpresent]
  cases howntext : present clauses.filter with
  | none =>
    refine ⟨condition, cs, ?_, hcs, hinert.toCondition, by rw [conjuncts_inert hcs hinert]; rfl⟩
    rw [← String.toList_inj]
    simp [spaced, Token.text, Keyword.text]
  | some own =>
    rw [howntext] at hown
    cases hown with
    | some hown =>
      obtain ⟨os, hos, hallows⟩ := hown.items
      refine ⟨own ++ " AND " ++ condition, _, ?_,
        items?_glue hos hcs items?_and (by decide), ?_, ?_⟩
      · rw [← String.toList_inj]
        simp [spaced, Token.text, Keyword.text]
      · exact hallows.append (Grade.Allows.append (by decide) hinert.toCondition)
      · rw [conjuncts_and hallows, conjuncts_inert hcs hinert, List.getLast?_append]
        rfl

/-- The WHERE clause of a statement stands between its head and joins and its other clauses. -/
theorem exists_items_toSql {append : Append} (hhead : Alike .inert clauses.head clauses.head)
    (hjoins : Chunk .inert clauses.joins clauses.joins)
    (hhaving : Option.Rel (Alike .condition) clauses.having clauses.having)
    (hplain : clauses.IsPlain) (hjoin : present append.join = none) {text : String} {cs : List Item}
    (htext : serialize (clauses.filterTokens append) = " WHERE " ++ text)
    (hcs : items? text = some cs) :
    ∃ front back, (∀ item ∈ front, item.staysInClause = true) ∧ beginsClause back = true ∧
      items? (clauses.toSql append) = some (dropOuterBlanks
        (front ++
          ([.blank ' ', .word ['W', 'H', 'E', 'R', 'E'], .blank ' '] ++ (cs ++ back)))) := by
  obtain ⟨fs, hfs, hfront⟩ := ((hhead.chunk hjoins).chunk Chunk.nil).items
  have hopening := opening_back hhaving ⟨rfl, rfl, rfl, rfl, rfl⟩ hplain
  obtain ⟨bs, hbs, hbegins⟩ := hopening.opens
  have hwhere : items? " WHERE " =
      some [.blank ' ', .word ['W', 'H', 'E', 'R', 'E'], .blank ' '] := rfl
  have hrest : items? (text ++ clauses.back) = some (cs ++ bs) := by
    rw [items?, String.toList_append]
    exact ofChars?_append hcs hbs (Or.inl hopening.chunk.right)
  refine ⟨fs, bs, staysInClause_of_allows (by decide) hfront, hbegins, items?_trim ?_⟩
  have hsplit : clauses.front append ++ (" WHERE " ++ text) ++ clauses.back =
      (clauses.head ++ clauses.joins ++ "") ++ " WHERE " ++ (text ++ clauses.back) := by
    simp only [front, hjoin, String.append_assoc]
    rfl
  rw [serialize_tokens, htext, hsplit]
  exact items?_glue hfs hrest hwhere (by decide)

/-- The WHERE clause of a statement says what its condition says on its own. -/
theorem readWhere?_toSql {append : Append} (hhead : Alike .inert clauses.head clauses.head)
    (hjoins : Chunk .inert clauses.joins clauses.joins)
    (hhaving : Option.Rel (Alike .condition) clauses.having clauses.having)
    (hplain : clauses.IsPlain) (hjoin : present append.join = none) {text : String}
    (htext : serialize (clauses.filterTokens append) = " WHERE " ++ text)
    (hstays : StaysInClause text) :
    readWhere? (clauses.toSql append) = readCondition? text := by
  obtain ⟨cs, hcs, hcondition⟩ := hstays
  obtain ⟨front, back, hfront, hback, hitems⟩ :=
    exists_items_toSql hhead hjoins hhaving hplain hjoin htext hcs
  obtain ⟨filter, hfilter, -, hsame⟩ :=
    ignoresBlanks_disjunction.exists_filterOf hfront hcondition hback
  rw [readWhere?, hitems, Option.bind_some, hfilter, Option.bind_some, readCondition?, hcs,
    Option.bind_some]
  exact hsame

/-- An appended condition is the last of a statement's condition. -/
theorem filterEndsWith_toSql (hhead : Alike .inert clauses.head clauses.head)
    (hjoins : Chunk .inert clauses.joins clauses.joins)
    (hfilter : Option.Rel (Alike .condition) clauses.filter clauses.filter)
    (hhaving : Option.Rel (Alike .condition) clauses.having clauses.having)
    (hplain : clauses.IsPlain) (hcondition : Alike .inert condition condition)
    (hne : condition ≠ "") :
    FilterEndsWith (clauses.toSql (.condition condition)) (Text.trim condition) := by
  obtain ⟨text, cs, htext, hcs, hallows, hlast⟩ := exists_filterTokens hfilter hcondition hne
  obtain ⟨front, back, hfront, hback, hitems⟩ :=
    exists_items_toSql hhead hjoins hhaving hplain rfl htext hcs
  obtain ⟨filter, hfilter, hmem, hconjuncts⟩ := ignoresBlanks_conjuncts.exists_filterOf hfront
    (staysInClause_of_allows (by decide) hallows) hback
  refine ⟨_, filter, hitems, hfilter, ?_, by rw [hconjuncts, hlast]⟩
  intro item hitem
  rcases hmem item hitem with hitem | hblank
  · exact hallows.isKeyword_eq_false hitem (by decide)
  · exact isKeyword_of_isBlank hblank "OR"

end Clauses

end DescriptorSql.Sql
