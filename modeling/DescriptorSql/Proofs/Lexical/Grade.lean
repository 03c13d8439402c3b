import DescriptorSql.Proofs.Lexical.Concat
import DescriptorSql.Sql.Placeholder

/-!
# `Proofs/Lexical/Grade.lean` — which words stand outside of parentheses

Every text the compiler writes is of one of three grades, by the keywords that stand in it outside
of parentheses and quotes. An *inert* text has none that connects conditions or begins a clause: a
name, a value, a comparison of columns. A *condition* has ANDs as well, and every BETWEEN in it has
found its AND. A *closed* text is any text that can be read at all, such as a whole statement; put
in parentheses, it becomes inert.

Grades are closed under putting texts one after the other, so what has to be known of a text is
known from its pieces. Two texts are *alike* in a grade when both are of that grade and differ only
inside literals (`Alike`). A text is of a grade when it is alike to itself, so that what is proved
of two texts serves for one as well.
-/

set_option autoImplicit false

namespace DescriptorSql.Sql

/-! ## Literals as holes -/

mutual

/-- The item with every literal in it emptied. -/
def Item.hole : Item → Item
  | .quoted .literal _ => .quoted .literal []
  | .group items => .group (holes items)
  | item => item

/-- The items with every literal in them emptied. -/
def holes : List Item → List Item
  | [] => []
  | item :: rest => item.hole :: holes rest

end

/-- Items are emptied one by one. -/
theorem holes_eq_map (items : List Item) : holes items = items.map Item.hole := by
  induction items with
  | nil => rfl
  | cons item rest ih => rw [holes, ih, List.map_cons]

theorem holes_append (as bs : List Item) : holes (as ++ bs) = holes as ++ holes bs := by
  simp [holes_eq_map]

/-- The text with every literal in it emptied, if it can be read. -/
def shape? (text : String) : Option String :=
  (items? text).map fun items => String.ofList (textOf (holes items))

/-! ## Keywords -/

/-- The case of the letters makes no difference. -/
def Item.isKeyword (upper : String) : Item → Bool
  | .word cs => spells upper.toList cs
  | _ => false

def Item.isOneOf (keywords : List String) (item : Item) : Bool := keywords.any item.isKeyword

/-- The keywords that begin a clause after the joins of a statement. -/
def clauseKeywords : List String :=
  ["WHERE", "GROUP", "HAVING", "ORDER", "LIMIT", "OFFSET", "RETURNING"]

/-- A literal is no keyword, and neither is its hole. -/
@[simp] theorem isKeyword_hole (upper : String) (item : Item) :
    item.hole.isKeyword upper = item.isKeyword upper := by
  cases item with
  | quoted quote body => cases quote <;> rfl
  | _ => rfl

@[simp] theorem isOneOf_hole (keywords : List String) (item : Item) :
    item.hole.isOneOf keywords = item.isOneOf keywords := by
  simp [Item.isOneOf]

@[simp] theorem isBlank_hole (item : Item) : item.hole.isBlank = item.isBlank := by
  cases item with
  | quoted quote body => cases quote <;> rfl
  | _ => rfl

/-- Whether an AND is still to come for a BETWEEN, behind one more item. -/
def Item.awaitsAnd (pending : Bool) (item : Item) : Bool :=
  if item.isKeyword "AND" then false else pending || item.isKeyword "BETWEEN"

def awaitsAnd : Bool → List Item → Bool
  | pending, [] => pending
  | pending, item :: rest => awaitsAnd (item.awaitsAnd pending) rest

/-- Whether an AND is awaited is carried from one text to the next. -/
theorem awaitsAnd_append (pending : Bool) (as bs : List Item) :
    awaitsAnd pending (as ++ bs) = awaitsAnd (awaitsAnd pending as) bs := by
  induction as generalizing pending with
  | nil => rfl
  | cons a as ih => exact ih _

/-- What literals hold has no part in it. -/
theorem awaitsAnd_holes (pending : Bool) (items : List Item) :
    awaitsAnd pending (holes items) = awaitsAnd pending items := by
  induction items generalizing pending with
  | nil => rfl
  | cons item rest ih => simp [holes, awaitsAnd, Item.awaitsAnd, ih]

/-! ## Grades -/

/-- How much of the language a text uses outside of parentheses and quotes. -/
inductive Grade where
  | inert
  | condition
  | closed
  deriving DecidableEq

namespace Grade

/-- The keywords that a text of the grade does not use. -/
def reserved : Grade → List String
  | inert => "OR" :: "AND" :: "BETWEEN" :: clauseKeywords
  | condition => "OR" :: clauseKeywords
  | closed => []

/-- The items are those of a text of the grade. -/
def Allows (grade : Grade) (items : List Item) : Prop :=
  (∀ item ∈ items, item.isOneOf grade.reserved = false) ∧
    (grade = .condition → awaitsAnd false items = false)

instance (grade : Grade) (items : List Item) : Decidable (grade.Allows items) :=
  inferInstanceAs (Decidable ((∀ item ∈ items, item.isOneOf grade.reserved = false) ∧
    (grade = .condition → awaitsAnd false items = false)))

/-- Closed is the grade of everything that can be read. -/
theorem allows_closed (items : List Item) : closed.Allows items :=
  ⟨by simp [reserved, Item.isOneOf], by simp⟩

/-- A BETWEEN of the first text has found its AND before the second one begins. -/
theorem Allows.append {grade : Grade} {as bs : List Item} (ha : grade.Allows as)
    (hb : grade.Allows bs) : grade.Allows (as ++ bs) := by
  constructor
  · intro item hitem
    rcases List.mem_append.mp hitem with hitem | hitem
    · exact ha.1 item hitem
    · exact hb.1 item hitem
  · intro hgrade
    rw [awaitsAnd_append, ha.2 hgrade]
    exact hb.2 hgrade

/-- A reserved keyword is no item of the text. -/
theorem Allows.isKeyword_eq_false {grade : Grade} {items : List Item} (h : grade.Allows items)
    {item : Item} (hitem : item ∈ items) {upper : String} (hupper : upper ∈ grade.reserved) :
    item.isKeyword upper = false := by
  have hreserved := h.1 item hitem
  rw [Item.isOneOf, List.any_eq_false] at hreserved
  exact Bool.eq_false_iff.mpr (hreserved upper hupper)

/-- Inert items neither bring a BETWEEN nor an AND for one. -/
theorem Allows.awaitsAnd {items : List Item} (h : inert.Allows items) (pending : Bool) :
    awaitsAnd pending items = pending := by
  induction items generalizing pending with
  | nil => rfl
  | cons item rest ih =>
    have hand := h.isKeyword_eq_false List.mem_cons_self (show "AND" ∈ inert.reserved by decide)
    have hbetween :=
      h.isKeyword_eq_false List.mem_cons_self (show "BETWEEN" ∈ inert.reserved by decide)
    have hrest : inert.Allows rest :=
      ⟨fun other hother => h.1 other (List.mem_cons_of_mem item hother), by simp⟩
    rw [Sql.awaitsAnd, Item.awaitsAnd, hand, hbetween, Bool.or_false]
    exact ih hrest pending

/-- Without a BETWEEN no AND is awaited. -/
theorem Allows.toCondition {items : List Item} (h : inert.Allows items) :
    condition.Allows items := by
  refine ⟨?_, fun _ => h.awaitsAnd false⟩
  intro item hitem
  have hinert := h.1 item hitem
  simp only [reserved, Item.isOneOf, List.any_cons, Bool.or_eq_false_iff] at hinert ⊢
  exact ⟨hinert.1, hinert.2.2.2⟩

/-- Inert items are of every grade. -/
theorem Allows.ofInert {items : List Item} (h : inert.Allows items) (grade : Grade) :
    grade.Allows items := by
  cases grade with
  | inert => exact h
  | condition => exact h.toCondition
  | closed => exact allows_closed items

/-- The grade of a text does not depend on what its literals hold. -/
theorem allows_holes {grade : Grade} {items : List Item} :
    grade.Allows (holes items) ↔ grade.Allows items := by
  have hmem : (∀ item ∈ holes items, item.isOneOf grade.reserved = false) ↔
      ∀ item ∈ items, item.isOneOf grade.reserved = false := by
    simp [holes_eq_map]
  rw [Allows, Allows, hmem, awaitsAnd_holes]

/-- Whatever is in parentheses is out of sight. -/
theorem allows_group (items : List Item) : inert.Allows [.group items] :=
  ⟨by simp [Item.isOneOf, Item.isKeyword], by simp⟩

end Grade

/-! ## Texts that are alike -/

/-- The text can be read, and its items without the content of its literals are these. -/
def Reads (text : String) (skeleton : List Item) : Prop :=
  ∃ items, items? text = some items ∧ holes items = skeleton

/-- Both texts are of the grade, and they differ only in the content of literals. -/
def Alike (grade : Grade) (first second : String) : Prop :=
  ∃ skeleton, grade.Allows skeleton ∧ Reads first skeleton ∧ Reads second skeleton

namespace Alike

variable {grade : Grade} {a a' b b' : String}

/-- A text of a grade is alike to itself. -/
theorem ofItems {text : String} {items : List Item} (h : items? text = some items)
    (hallows : grade.Allows items) : Alike grade text text :=
  ⟨holes items, Grade.allows_holes.mpr hallows, ⟨items, h, rfl⟩, ⟨items, h, rfl⟩⟩

/-- The items behind a text that is alike to another. -/
theorem items (h : Alike grade a b) : ∃ items, items? b = some items ∧ grade.Allows items := by
  obtain ⟨_, hallows, -, items, hitems, rfl⟩ := h
  exact ⟨items, hitems, Grade.allows_holes.mp hallows⟩

theorem symm (h : Alike grade a b) : Alike grade b a :=
  let ⟨skeleton, hallows, ha, hb⟩ := h
  ⟨skeleton, hallows, hb, ha⟩

theorem right (h : Alike grade a b) : Alike grade b b :=
  let ⟨_, hitems, hallows⟩ := h.items
  ofItems hitems hallows

/-- Inert texts are alike in every grade. -/
theorem mono (h : Alike .inert a b) (grade : Grade) : Alike grade a b :=
  let ⟨skeleton, hallows, ha, hb⟩ := h
  ⟨skeleton, hallows.ofInert grade, ha, hb⟩

/-- Likeness is a common skeleton, so two texts that share one with a third share it with each
other. -/
theorem trans {c : String} (hab : Alike grade a b) (hac : Alike grade a c) : Alike grade b c := by
  obtain ⟨skeleton, hallows, ⟨as, has, hsame⟩, hb⟩ := hab
  obtain ⟨skeleton', -, ⟨as', has', hsame'⟩, hc⟩ := hac
  rw [has] at has'
  cases has'
  rw [← hsame', hsame] at hc
  exact ⟨skeleton, hallows, hb, hc⟩

/-- Whatever is alike is closed at least. -/
theorem toClosed (h : Alike grade a b) : Alike .closed a b :=
  let ⟨skeleton, _, ha, hb⟩ := h
  ⟨skeleton, Grade.allows_closed skeleton, ha, hb⟩

end Alike

/-! ## Putting texts together -/

/-- Nothing runs together between two texts. -/
def Seam (a b : String) : Prop := startsApart b.toList = true ∨ endsApart a.toList = true

/-- The text keeps apart what stands on its two sides. -/
def isGlue (text : String) : Bool :=
  !text.toList.isEmpty && startsApart text.toList && endsApart text.toList

/-- The text can be read and is of the grade. -/
def Grade.accepts (grade : Grade) (text : String) : Bool :=
  (items? text).any fun items => decide (grade.Allows items)

/-- The text is of the grade and keeps apart what stands on its two sides. -/
def Grade.separates (grade : Grade) (text : String) : Bool := grade.accepts text && isGlue text

theorem Grade.separates_space (grade : Grade) : grade.separates " " = true := by
  cases grade <;> decide

theorem Grade.separates_comma (grade : Grade) : grade.separates ", " = true := by
  cases grade <;> decide

theorem Grade.separates_equals (grade : Grade) : grade.separates " = " = true := by
  cases grade <;> decide

theorem Grade.separates_as (grade : Grade) : grade.separates " AS " = true := by
  cases grade <;> decide +kernel

/-- How a text starts is decided by its first part, if that is not empty. -/
theorem startsApart_append {as : List Char} (bs : List Char) (hne : as ≠ [])
    (h : startsApart as = true) : startsApart (as ++ bs) = true := by
  cases as with
  | nil => exact absurd rfl hne
  | cons c cs => exact h

/-- Nothing runs together in front of a glue, and nothing behind it. -/
theorem Seam.before {text a b : String} (hglue : isGlue text = true) : Seam a (text ++ b) := by
  simp only [isGlue, Bool.and_eq_true, Bool.not_eq_true', List.isEmpty_eq_false_iff] at hglue
  refine Or.inl ?_
  rw [String.toList_append]
  exact startsApart_append _ hglue.1.1 hglue.1.2

theorem Seam.behind {text b : String} (hglue : isGlue text = true) : Seam text b := by
  simp only [isGlue, Bool.and_eq_true] at hglue
  exact Or.inr hglue.2

theorem startsApart_append_of {as bs : List Char} (ha : startsApart as = true)
    (hb : startsApart bs = true) : startsApart (as ++ bs) = true := by
  cases as with
  | nil => exact hb
  | cons c cs => exact ha

namespace Reads

variable {a b : String} {sa sb : List Item}

/-- The skeletons of two texts in a row follow one another, as long as nothing runs together at the
seam. -/
theorem append (ha : Reads a sa) (hb : Reads b sb) (hseam : Seam a b) :
    Reads (a ++ b) (sa ++ sb) := by
  obtain ⟨as, hitemsa, rfl⟩ := ha
  obtain ⟨bs, hitemsb, rfl⟩ := hb
  refine ⟨as ++ bs, ?_, holes_append as bs⟩
  rw [items?, String.toList_append]
  exact ofChars?_append hitemsa hitemsb hseam

/-- In parentheses the skeleton becomes one group. -/
theorem parenthesized (ha : Reads a sa) : Reads ("(" ++ a ++ ")") [.group sa] := by
  obtain ⟨as, hitems, rfl⟩ := ha
  refine ⟨[.group as], ?_, rfl⟩
  rw [items?, String.toList_append, String.toList_append]
  exact ofChars?_parenthesized hitems

/-- Trimming leaves blank items out of the skeleton. -/
theorem trim (ha : Reads a sa) : Reads (Text.trim a) (dropOuterBlanks sa) := by
  obtain ⟨as, hitems, rfl⟩ := ha
  refine ⟨dropOuterBlanks as, items?_trim hitems, ?_⟩
  have hcomp : Item.isBlank ∘ Item.hole = Item.isBlank := funext isBlank_hole
  simp only [dropOuterBlanks, dropTrailingBlanks, holes_eq_map, List.dropWhile_map,
    ← List.map_reverse, hcomp]

/-- A text is empty if it has no items. -/
theorem isEmpty_eq (ha : Reads a sa) : a.isEmpty = sa.isEmpty := by
  obtain ⟨as, hitems, rfl⟩ := ha
  have hnil := ofChars?_eq_nil_iff hitems
  rw [String.toList_eq_nil_iff] at hnil
  rw [Bool.eq_iff_iff, String.isEmpty_iff, ← hnil, holes_eq_map, List.isEmpty_iff,
    List.map_eq_nil_iff]

end Reads

namespace Alike

variable {grade : Grade} {a a' b b' : String}

/-- A text that is written out is checked by reading it. -/
theorem ofAccepts {text : String} (h : grade.accepts text = true) : Alike grade text text := by
  unfold Grade.accepts at h
  cases hitems : items? text with
  | none => simp [hitems] at h
  | some items => exact ofItems hitems (by simpa [hitems] using h)

/-- Two alike texts become the same text when their literals are emptied. -/
theorem exists_shape (h : Alike grade a b) :
    ∃ shape, shape? a = some shape ∧ shape? b = some shape := by
  obtain ⟨skeleton, -, ⟨as, has, hsame⟩, bs, hbs, hsame'⟩ := h
  refine ⟨String.ofList (textOf skeleton), ?_, ?_⟩
  · rw [shape?, has, Option.map_some, hsame]
  · rw [shape?, hbs, Option.map_some, hsame']

theorem isEmpty_eq (h : Alike grade a b) : a.isEmpty = b.isEmpty :=
  let ⟨_, _, ha, hb⟩ := h
  ha.isEmpty_eq.trans hb.isEmpty_eq.symm

/-- Texts that are alike may be put behind one another on both sides. -/
theorem append (ha : Alike grade a' a) (hb : Alike grade b' b) (hseam' : Seam a' b')
    (hseam : Seam a b) : Alike grade (a' ++ b') (a ++ b) := by
  obtain ⟨sa, hsa, ha', ha⟩ := ha
  obtain ⟨sb, hsb, hb', hb⟩ := hb
  exact ⟨sa ++ sb, hsa.append hsb, ha'.append hb' hseam', ha.append hb hseam⟩

/-- A text that ends with a separator may stand in front. -/
theorem behind {text : String} (h : Alike grade a' a) (haccepts : grade.accepts text = true)
    (hends : endsApart text.toList = true) : Alike grade (text ++ a') (text ++ a) :=
  (ofAccepts haccepts).append h (Or.inr hends) (Or.inr hends)

/-- Between two texts there may be a glue that the grade allows. -/
theorem glue {text : String} (ha : Alike grade a' a) (hb : Alike grade b' b)
    (htext : grade.separates text = true) : Alike grade (a' ++ text ++ b') (a ++ text ++ b) := by
  obtain ⟨haccepts, hglue⟩ := Bool.and_eq_true_iff.mp htext
  have hbehind := (ofAccepts haccepts).append hb (Seam.behind hglue) (Seam.behind hglue)
  rw [String.append_assoc, String.append_assoc]
  exact ha.append hbehind (Seam.before hglue) (Seam.before hglue)

/-- A closed text in parentheses is inert, behind a word as well. -/
theorem call {word : String} (hword : Alike .inert word word) (ha : Alike .closed a' a) :
    Alike .inert (word ++ "(" ++ a' ++ ")") (word ++ "(" ++ a ++ ")") := by
  obtain ⟨sa, -, ha', ha⟩ := ha
  have hgroup : Alike .inert ("(" ++ a' ++ ")") ("(" ++ a ++ ")") :=
    ⟨[.group sa], Grade.allows_group sa, ha'.parenthesized, ha.parenthesized⟩
  have hseam : ∀ c d : String, Seam c ("(" ++ d ++ ")") := fun c d =>
    Or.inl (by simp [startsApart, isSeparator])
  have := hword.append hgroup (hseam word a') (hseam word a)
  simpa only [String.append_assoc] using this

theorem trim (ha : Alike .closed a' a) : Alike .closed (Text.trim a') (Text.trim a) :=
  let ⟨sa, _, ha', ha⟩ := ha
  ⟨dropOuterBlanks sa, Grade.allows_closed _, ha'.trim, ha.trim⟩

end Alike

end DescriptorSql.Sql
