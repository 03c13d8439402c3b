import DescriptorSql.Proofs.Lexical.Clauses
import DescriptorSql.Proofs.Lexical.PassThrough
import DescriptorSql.Proofs.Reading.Condition

/-!
# `Proofs/Reading/Insert.lean` — reading an INSERT

What an INSERT writes is read off its items: the first group is the list of columns, and the groups
behind VALUES are the tuples, with a comma between any two of them (`readInsert?`). A list is cut at
its commas. Only the commas that stand outside of quotes and parentheses are items of a list, so the
reader sees no others.

Reading undoes writing in two steps: the items of a list of texts are those of the texts with commas
between them (`items?_intercalate`), and cutting them there gives back the texts, as long as none of
them has a comma of its own (`elements_intercalate`).
-/

set_option autoImplicit false

namespace DescriptorSql.Sql

/-! ## The reader -/

def Item.isComma : Item → Bool
  | .comma => true
  | _ => false

/-- The items without the blank in front. -/
def dropBlank : List Item → List Item
  | .blank _ :: rest => rest
  | items => items

/-- What stands between the commas of a list. The blank behind a comma goes with the comma. -/
def splitCommas (items : List Item) : List (List Item) :=
  match items.splitOnP Item.isComma with
  | [] => []
  | first :: rest => first :: rest.map dropBlank

def elements (items : List Item) : List String :=
  (splitCommas items).map fun element => String.ofList (textOf element)

/-- The tuples up to the next word. There is a comma between two of them, and none at the end: `due`
says whether a tuple has to come next. -/
def tuples? : Bool → List Item → Option (List (List Item))
  | due, .blank _ :: rest => tuples? due rest
  | true, .group items :: rest => (items :: ·) <$> tuples? false rest
  | false, .comma :: rest => tuples? true rest
  | false, [] | false, .word _ :: _ => some []
  | _, _ => none

/-- The columns of an INSERT and its rows, as they are written. -/
structure InsertReading where
  columns : List String
  tuples : List (List String)
  deriving DecidableEq, Repr

def insertOf? (items : List Item) : Option InsertReading :=
  match items.dropWhile fun item => !item.isGroup with
  | .group columns :: rest =>
    match rest.dropWhile Item.isBlank with
    | word :: rest =>
      if word.isKeyword "VALUES" then
        (tuples? true rest).map fun tuples => ⟨elements columns, tuples.map elements⟩
      else none
    | [] => none
  | _ => none

def readInsert? (text : String) : Option InsertReading := (items? text).bind insertOf?

/-! ## Lists -/

/-- Cutting at the commas gives the parts back, each but the first with the blank that stood behind
its comma. -/
theorem splitOnP_intercalate {first : List Item} {rest : List (List Item)}
    (h : ∀ part ∈ first :: rest, ∀ item ∈ part, item.isComma = false) :
    ([Item.comma, .blank ' '].intercalate (first :: rest)).splitOnP Item.isComma =
      first :: rest.map (Item.blank ' ' :: ·) := by
  induction rest generalizing first with
  | nil =>
    rw [List.intercalate_singleton]
    exact List.splitOnP_eq_singleton (h first List.mem_cons_self)
  | cons second rest ih =>
    obtain ⟨hfirst, hothers⟩ := List.forall_mem_cons.mp h
    obtain ⟨hsecond, hrest⟩ := List.forall_mem_cons.mp hothers
    -- the blank behind the comma is read as the first item of the part that follows
    have hblank : ∀ item ∈ Item.blank ' ' :: second, item.isComma = false :=
      List.forall_mem_cons.mpr ⟨rfl, hsecond⟩
    have hparts := ih (List.forall_mem_cons.mpr ⟨hblank, hrest⟩)
    have hshift : [Item.comma, .blank ' '].intercalate (first :: second :: rest) =
        first ++ .comma :: [Item.comma, .blank ' '].intercalate
          ((.blank ' ' :: second) :: rest) := by
      rw [List.intercalate_cons_cons]
      cases rest <;> simp
    rw [hshift, List.splitOnP_append_cons_of_forall_mem hfirst _ rfl, hparts]
    rfl

/-- Cutting a list at its commas gives back what was put together. -/
theorem splitCommas_intercalate {parts : List (List Item)} (hne : parts ≠ [])
    (h : ∀ part ∈ parts, ∀ item ∈ part, item.isComma = false) :
    splitCommas ([Item.comma, .blank ' '].intercalate parts) = parts := by
  obtain ⟨first, rest, rfl⟩ := List.exists_cons_of_ne_nil hne
  rw [splitCommas, splitOnP_intercalate h]
  have hdrop : dropBlank ∘ (Item.blank ' ' :: ·) = id := rfl
  simp [hdrop]

/-- What is put between the texts keeps them apart, so it has its items between theirs. -/
theorem items?_intercalate {separator : String} {between : List Item}
    (hbetween : items? separator = some between) (hglue : isGlue separator = true)
    {texts : List String} {parts : List (List Item)}
    (h : List.Forall₂ (fun text items => items? text = some items) texts parts) :
    items? (separator.intercalate texts) = some (between.intercalate parts) := by
  induction h with
  | nil => rfl
  | @cons text items texts parts hfirst hrest ih =>
    cases hrest with
    | nil => simpa using hfirst
    | cons hsecond hrest =>
      rw [String.intercalate_cons_cons, List.intercalate_cons_cons, List.append_assoc]
      exact items?_glue hfirst ih hbetween hglue

/-- The text is read as one element of a list. -/
def IsElement (text : String) : Prop :=
  ∃ items, items? text = some items ∧ ∀ item ∈ items, item.isComma = false

/-- Every text in a list has its items, and they say what it was written from. -/
theorem exists_parts {α : Type} (write : α → String) (read : List Item → α) (P : List Item → Prop)
    {sources : List α}
    (h : ∀ source ∈ sources, ∃ items, items? (write source) = some items ∧ P items ∧
      read items = source) :
    ∃ parts, List.Forall₂ (fun source items => items? (write source) = some items) sources parts ∧
      (∀ part ∈ parts, P part) ∧ parts.map read = sources := by
  induction sources with
  | nil => exact ⟨[], .nil, by simp, rfl⟩
  | cons source rest ih =>
    obtain ⟨⟨items, hitems, hP, hread⟩, hrest⟩ := List.forall_mem_cons.mp h
    obtain ⟨parts, hparts, hPs, hreads⟩ := ih hrest
    refine ⟨items :: parts, .cons hitems hparts, List.forall_mem_cons.mpr ⟨hP, hPs⟩, ?_⟩
    rw [List.map_cons, hread, hreads]

theorem items?_comma : items? ", " = some [.comma, .blank ' '] := rfl

/-- A list that is read has the elements that were written. -/
theorem elements_intercalate {texts : List String} (hne : texts ≠ [])
    (h : ∀ text ∈ texts, IsElement text) :
    ∃ items, items? (", ".intercalate texts) = some items ∧ elements items = texts := by
  obtain ⟨parts, hparts, hcommas, htexts⟩ := exists_parts id
    (fun part => String.ofList (textOf part)) (fun items => ∀ item ∈ items, item.isComma = false)
    fun text htext => by
      obtain ⟨items, hitems, hcomma⟩ := h text htext
      exact ⟨items, hitems, hcomma, by rw [textOf_ofChars? hitems, String.ofList_toList]⟩
  refine ⟨_, items?_intercalate items?_comma (by decide) hparts, ?_⟩
  have hsome : parts ≠ [] := by
    rintro rfl
    exact hne htexts.symm
  rw [elements, splitCommas_intercalate hsome hcommas, htexts]

/-! ## Tuples -/

/-- Behind the last tuple comes nothing or another clause. -/
def EndsTuples (items : List Item) : Prop := tuples? false items = some []

/-- The tuples are read up to the end or to the next clause, for a word is no tuple. -/
theorem tuples?_intercalate {tuples : List (List Item)} (hne : tuples ≠ []) {behind : List Item}
    (hbehind : EndsTuples behind) :
    tuples? true ([Item.comma, .blank ' '].intercalate (tuples.map fun items => [.group items]) ++
      behind) = some tuples := by
  induction tuples with
  | nil => exact absurd rfl hne
  | cons first rest ih =>
    cases rest with
    | nil =>
      rw [List.map_cons, List.map_nil, List.intercalate_singleton, List.singleton_append, tuples?,
        hbehind]
      rfl
    | cons second rest =>
      have hrest := ih (List.cons_ne_nil second rest)
      have hsplit : [Item.comma, .blank ' '].intercalate
          ((first :: second :: rest).map fun items => [.group items]) =
          .group first :: .comma :: .blank ' ' ::
            [Item.comma, .blank ' '].intercalate
              ((second :: rest).map fun items => [.group items]) := by
        rw [List.map_cons, List.map_cons, List.intercalate_cons_cons]
        rfl
      rw [hsplit, List.cons_append, List.cons_append, List.cons_append, tuples?, tuples?,
        tuples?, hrest]
      rfl

/-- The first group is the list of columns, as no other stands before it. -/
theorem insertOf?_eq {front rest : List Item} {tuples : List (List Item)}
    (hfront : ∀ item ∈ front, item.isGroup = false) (list : List Item)
    (htuples : tuples? true rest = some tuples) :
    insertOf? (front ++ .group list :: .blank ' ' :: .word ['V', 'A', 'L', 'U', 'E', 'S'] :: rest) =
      some ⟨elements list, tuples.map elements⟩ := by
  have hdrop : front.dropWhile (fun item => !item.isGroup) = [] := by
    rw [List.dropWhile_eq_nil_iff]
    intro item hitem
    rw [hfront item hitem]
    rfl
  rw [insertOf?, dropWhile_append_cons rfl, hdrop]
  show (tuples? true rest).map _ = _
  rw [htuples]
  rfl

theorem items?_parenthesized {text : String} {items : List Item} (h : items? text = some items) :
    items? ("(" ++ text ++ ")") = some [.group items] := by
  rw [items?, String.toList_append, String.toList_append]
  exact ofChars?_parenthesized h

/-- An INSERT is read as what it is written from: the columns in parentheses, and behind VALUES the
rows. -/
theorem readInsert?_eq {head behind : String} {columns : List String} {rows : List (List String)}
    (hhead : ∃ items, items? head = some items ∧ ∀ item ∈ items, item.isGroup = false)
    (hcolumns : columns ≠ [] ∧ ∀ column ∈ columns, IsElement column)
    (hrows : rows ≠ [] ∧ ∀ row ∈ rows, row ≠ [] ∧ ∀ value ∈ row, IsElement value)
    (hapart : startsApart behind.toList = true)
    (hbehind : ∃ items, items? behind = some items ∧ EndsTuples items) :
    readInsert? (head ++ " " ++ ("(" ++ ", ".intercalate columns ++ ")") ++ " VALUES " ++
      (", ".intercalate (rows.map fun row => "(" ++ ", ".intercalate row ++ ")") ++ behind)) =
        some ⟨columns, rows⟩ := by
  -- the head, the columns, the rows and what follows are read one by one
  obtain ⟨front, hfront, hgroups⟩ := hhead
  obtain ⟨list, hlist, hcolumns⟩ := elements_intercalate hcolumns.1 hcolumns.2
  obtain ⟨after, hafter, hends⟩ := hbehind
  obtain ⟨tuples, htuples, -, hread⟩ := exists_parts (fun row => ", ".intercalate row) elements
    (fun _ => True) fun row hrow => by
      obtain ⟨items, hitems, hrow⟩ := elements_intercalate (hrows.2 row hrow).1 (hrows.2 row hrow).2
      exact ⟨items, hitems, trivial, hrow⟩
  have hsome : tuples ≠ [] := by
    rintro rfl
    exact hrows.1 hread.symm
  have hspace : items? " " = some [.blank ' '] := rfl
  have hvalues : items? " VALUES " =
      some [.blank ' ', .word ['V', 'A', 'L', 'U', 'E', 'S'], .blank ' '] := rfl
  -- every row is one group
  have hlists : List.Forall₂ (fun text items => items? text = some items)
      (rows.map fun row => "(" ++ ", ".intercalate row ++ ")")
        (tuples.map fun items => [.group items]) :=
    forall₂_map (htuples.imp fun _ _ hitems => items?_parenthesized hitems)
  have hrest :
      items? (", ".intercalate (rows.map fun row => "(" ++ ", ".intercalate row ++ ")") ++ behind) =
      some ([Item.comma, .blank ' '].intercalate (tuples.map fun items => [.group items]) ++
        after) := by
    rw [items?, String.toList_append]
    exact ofChars?_append (items?_intercalate items?_comma (by decide) hlists) hafter
      (Or.inl hapart)
  -- the items of the whole are those of the parts in a row
  have hitems :=
    items?_glue (items?_glue hfront (items?_parenthesized hlist) hspace (by decide)) hrest
    hvalues (by decide)
  -- no group stands before the columns
  have hblank : ∀ item ∈ front ++ [.blank ' '], item.isGroup = false := by
    intro item hitem
    rcases List.mem_append.mp hitem with hitem | hitem
    · exact hgroups item hitem
    · rw [List.mem_singleton.mp hitem]
      rfl
  have htuples : tuples? true (.blank ' ' ::
      ([.comma, .blank ' '].intercalate (tuples.map fun items => [.group items]) ++ after)) =
      some tuples := by
    rw [tuples?, tuples?_intercalate hsome hends]
  rw [readInsert?, hitems, Option.bind_some]
  simpa [hcolumns, hread] using insertOf?_eq hblank list htuples

/-! ## Elements -/

/-- The characters of an item are characters of its text. -/
theorem mem_textOf {c : Char} {item : Item} (hc : c ∈ item.text) {items : List Item}
    (h : item ∈ items) :
    c ∈ textOf items := by
  induction items with
  | nil => cases h
  | cons other rest ih =>
    rw [textOf, List.mem_append]
    rcases List.mem_cons.mp h with rfl | h
    · exact Or.inl hc
    · exact Or.inr (ih h)

/-- A text without a comma is one element. -/
theorem isElement_of_not_mem {text : String} {items : List Item} (hitems : items? text = some items)
    (h : ',' ∉ text.toList) : IsElement text := by
  refine ⟨items, hitems, fun item hitem => ?_⟩
  cases item with
  | comma =>
    have hmem := mem_textOf (show ',' ∈ Item.comma.text by decide) hitem
    rw [textOf_ofChars? hitems] at hmem
    exact absurd hmem h
  | _ => rfl

/-- And so is a quoted text: the commas in it are not items. -/
theorem isElement_quoteText (s : String) : IsElement (quoteText s) := by
  obtain ⟨items, hitems, hholes⟩ := reads_quoteText s
  refine ⟨items, hitems, fun item hitem => ?_⟩
  have hhole : item.hole ∈ [Item.quoted .literal []] := by
    rw [← hholes, holes_eq_map]
    exact List.mem_map_of_mem hitem
  cases item with
  | comma => simp [Item.hole] at hhole
  | _ => rfl

/-- A name is quoted or has no comma. -/
theorem isElement_identifier {name : String} (h : isPlainName name = true) :
    IsElement (identifier name) := by
  obtain ⟨items, hitems, hnominal⟩ := nominal_identifier h
  refine ⟨items, hitems, fun item hitem => ?_⟩
  cases item with
  | comma => exact absurd (hnominal _ hitem) (by simp [Item.isNominal])
  | _ => rfl

/-- A value that is no data is written without a comma; what is quoted or in parentheses may have
any. -/
theorem isElement_literal {value : Json} (h : value.isPlain = true) :
    IsElement (literal value) := by
  -- a plain value is read; it is to be shown that no item of it is a comma
  have hread : ∃ items, items? (literal value) = some items := by
    obtain ⟨items, hitems, -⟩ := (alike_literal h).items
    exact ⟨items, hitems⟩
  obtain ⟨items, hitems⟩ := hread
  cases value with
  | null => exact isElement_of_not_mem hitems (by decide)
  | bool b =>
    cases b with
    | true => exact isElement_of_not_mem hitems (by decide)
    -- text that stands as it is passes through, and what passes through is harmless
    | false => exact isElement_of_not_mem hitems (by decide)
  | number n =>
    refine isElement_of_not_mem hitems fun hmem => ?_
    have hpart := (isNumberWord_numberText n).isPlainWord.parts ',' hmem
    exact absurd hpart (by decide)
  | string s =>
    cases hdata : isData s with
    | true =>
      rw [literal, textLiteral_of_isData hdata]
      exact isElement_quoteText s
    | false =>
      simp only [Json.isPlain, Bool.and_eq_true, Option.isNone_iff_eq_none, Bool.not_eq_true'] at h
      obtain ⟨hraw, hbrace⟩ := h
      have hverbatim : isVerbatimText s.toList = true := by simpa [isData, hraw] using hdata
      have htext : literal (.string s) = s := by
        rw [literal, textLiteral, hraw]
        exact if_pos hverbatim
      have hharmless :=
        isHarmless_of_passesThrough (passesThrough_iff.mpr hverbatim) fun hbody => by
        rw [isBracePlaceholder_iff.mpr hbody] at hbrace
        cases hbrace
      rw [htext] at hitems ⊢
      exact isElement_of_not_mem hitems (hharmless.not_mem ',' (by decide))
  -- the commas of an array are inside its parentheses
  | array elements =>
    obtain ⟨inner, hinner, -⟩ :=
      (Alike.intercalate (alike_literals h) (Grade.separates_comma _)).items
    rw [literal]
    refine ⟨[.group inner], items?_parenthesized hinner, ?_⟩
    intro item hitem
    rw [List.mem_singleton.mp hitem]
    rfl
  | object members =>
    rw [literal]
    exact isElement_quoteText _

end DescriptorSql.Sql
