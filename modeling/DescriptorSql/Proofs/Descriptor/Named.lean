import DescriptorSql.Proofs.Binding.Lift
import DescriptorSql.Proofs.Descriptor.Traversal
import DescriptorSql.Proofs.Lexical.Literal

/-!
# `Proofs/Descriptor/Named.lean` — descriptors with named values

A descriptor names its values if at signs stand in its values only, each in front of a name that
makes up the rest of the text and has a value. Such a value becomes a slot, the same value with `$k`
for it becomes the number `k`, and every other value is written without at signs (`lifts_literal`).
-/

set_option autoImplicit false

namespace DescriptorSql

open Binding (IsBindable IsText Lifts LiftsAll SlotNumbers Template)
open CharClass (isWord)
open Sql (ClosesApart NoAt OpensApart)

/-! ## Named values -/

/-- No at sign stands in the text, or it is one at sign and a name that has a value. -/
def isNamedText (values : Entries String Json) (cs : List Char) : Bool :=
  match cs with
  | '@' :: name =>
    !name.isEmpty && name.all isWord && (Entries.get? values (String.ofList name)).isSome
  | cs => !cs.contains '@'

mutual

/-- Every at sign in the value begins a text that names a value. -/
def Json.isNamed (values : Entries String Json) : Json → Bool
  | .string s => isNamedText values s.toList
  | .array items => Json.itemsAreNamed values items
  | .object members => !(Json.object members).compact.toList.contains '@'
  | _ => true

def Json.itemsAreNamed (values : Entries String Json) : List Json → Bool
  | [] => true
  | item :: rest => item.isNamed values && Json.itemsAreNamed values rest

end

/-- The recursion through lists is said of all items at once. -/
theorem Json.itemsAreNamed_iff {values : Entries String Json} {items : List Json} :
    Json.itemsAreNamed values items = true ↔ ∀ item ∈ items, item.isNamed values = true := by
  induction items with
  | nil => simp [Json.itemsAreNamed]
  | cons item rest ih => rw [Json.itemsAreNamed, Bool.and_eq_true, ih, List.forall_mem_cons]

/-- The value with numbers for its names, out of those that they may have; a name may also stay. -/
inductive Json.Numbered (numbers : SlotNumbers) : Json → Json → Prop
  | same (value : Json) : Json.Numbered numbers value value
  | name {name : String} {k : Nat} : (name, k) ∈ numbers →
      Json.Numbered numbers (.string ("@" ++ name)) (.string ("$" ++ Nat.repr k))
  | array {items items' : List Json} : List.Forall₂ (Json.Numbered numbers) items items' →
      Json.Numbered numbers (.array items) (.array items')

variable {values : Entries String Json}

theorem noAt_of_contains {text : String} (h : (!text.toList.contains '@') = true) : NoAt text := by
  simpa [NoAt] using h

/-- A text has no at sign, or is an at sign and the name of a value. -/
theorem isNamedText_cases {s : String} (h : isNamedText values s.toList = true) :
    NoAt s ∨ ∃ name, s = "@" ++ name ∧ IsBindable values name := by
  unfold isNamedText at h
  split at h
  · next name hs =>
    simp only [Bool.and_eq_true, Bool.not_eq_true', List.isEmpty_eq_false_iff,
      List.all_eq_true] at h
    obtain ⟨⟨hne, hword⟩, hvalue⟩ := h
    refine Or.inr ⟨String.ofList name, ?_, ?_, ?_, hvalue⟩
    · rw [← String.toList_inj, hs]
      simp
    · rwa [String.toList_ofList]
    · rwa [String.toList_ofList]
  · exact Or.inl (noAt_of_contains h)

/-! ## Named values as literals -/

namespace Sql

/-- Characters without a meaning of their own are not escaped. -/
theorem escapeChars_eq_self {cs : List Char} (h : ∀ c ∈ cs, c ∉ signs) : escapeChars cs = cs := by
  induction cs with
  | nil => rfl
  | cons c cs ih =>
    obtain ⟨hc, hcs⟩ := List.forall_mem_cons.mp h
    have hslash : c ≠ '\\' := by
      rintro rfl
      exact hc (by simp [signs])
    have hquote : c ≠ '\'' := by
      rintro rfl
      exact hc (by simp [signs])
    rw [escapeChars_cons, if_neg hslash, if_neg hquote, ih hcs]
    rfl

/-- A named value is quoted. -/
theorem toList_textLiteral_name {name : String} (h : IsBindable values name) :
    (textLiteral ("@" ++ name)).toList = (Binding.Atom.slot name).chars := by
  have hchars : ("@" ++ name).toList = '@' :: name.toList := by simp
  have hverbatim : ¬ isVerbatimText ("@" ++ name).toList = true := by
    rw [hchars, ← passesThrough_iff]
    intro hpass
    have hbrace : ¬ IsBraceText ('@' :: name.toList) := by
      rintro ⟨body, -, hbody⟩
      simp at hbody
    exact not_mem_signs_of_passesThrough hpass hbrace '@' List.mem_cons_self (by simp [signs])
  have hescape : escapeChars ('@' :: name.toList) = '@' :: name.toList := by
    have hname := escapeChars_eq_self fun c hc => not_mem_signs_of_isWord (h.isWord c hc)
    rw [escapeChars_cons, if_neg (by decide), if_neg (by decide), hname]
    rfl
  have hraw : stripRaw? ("@" ++ name) = none := by
    rw [stripRaw?, hchars]
    rfl
  have hquoted : textLiteral ("@" ++ name) = quoteText ("@" ++ name) := by
    rw [textLiteral, hraw]
    exact if_neg hverbatim
  rw [hquoted, toList_quoteText, hchars, hescape]
  rfl

/-- A positional parameter is written as it is. -/
theorem textLiteral_number (k : Nat) : textLiteral ("$" ++ Nat.repr k) = "$" ++ Nat.repr k := by
  have hchars : ("$" ++ Nat.repr k).toList = '$' :: (Nat.repr k).toList := by simp
  have hdigits : ∀ c ∈ (Nat.repr k).toList, isWord c = true := by
    intro c hc
    rw [Nat.toList_repr] at hc
    exact isWord_of_isDigit (isDigit_of_mem_toDigits hc)
  have hne : (Nat.repr k).toList ≠ [] := by
    rw [Nat.toList_repr]
    exact Nat.toDigits_ne_nil
  have hverbatim : isVerbatimText ("$" ++ Nat.repr k).toList = true := by
    rw [← passesThrough_iff, hchars]
    exact .dollar _ hne hdigits
  have hraw : stripRaw? ("$" ++ Nat.repr k) = none := by
    rw [stripRaw?, hchars]
    rfl
  rw [textLiteral, hraw]
  exact if_pos hverbatim

end Sql

/-- A named value becomes a slot, and with its number it is the parameter. -/
theorem lifts_name {name : String} (h : IsBindable values name) :
    Lifts values (Sql.textLiteral ("@" ++ name)) fun numbers text =>
      ∃ k, (name, k) ∈ numbers ∧ text = "$" ++ Nat.repr k := by
  refine ⟨[.slot name], ⟨⟨?_, .singleton _⟩, ?_⟩, ?_⟩
  · intro atom hatom
    obtain rfl := List.mem_singleton.mp hatom
    exact h
  · simpa using Sql.toList_textLiteral_name h
  · intro numbers text hnumbered
    generalize hchars : text.toList = cs at hnumbered
    cases hnumbered with
    | @slot _ cs name k hk hnil =>
      cases hnil
      refine ⟨k, hk, ?_⟩
      rw [← String.toList_inj, hchars]
      simp

/-- Any other text stands in its literal without an at sign. -/
theorem lifts_text {s : String} (h : isNamedText values s.toList = true) :
    Lifts values (Sql.textLiteral s) fun numbers text =>
      ∃ s', Json.Numbered numbers (.string s) (.string s') ∧ Sql.textLiteral s' = text := by
  rcases isNamedText_cases h with hnone | ⟨name, rfl, hname⟩
  · refine (Lifts.ofNoAt (Sql.noAt_textLiteral hnone)).mono ?_
    rintro numbers _ rfl
    exact ⟨s, .same _, rfl⟩
  · refine (lifts_name hname).mono ?_
    rintro numbers _ ⟨k, hk, rfl⟩
    exact ⟨_, .name hk, Sql.textLiteral_number k⟩

namespace Binding

/-- A list in parentheses. -/
theorem LiftsAll.list {texts : List String} {P : SlotNumbers → List String → Prop}
    (h : LiftsAll values texts P) :
    Lifts values ("(" ++ ", ".intercalate texts ++ ")") fun numbers text =>
      ∃ texts', text = "(" ++ ", ".intercalate texts' ++ ")" ∧ P numbers texts' := by
  have hitems := h.intercalate (show NoAt ", " by decide) (by decide)
  refine (hitems.enclosed (show OpensApart "(" by decide) (show ClosesApart ")" by decide)).mono ?_
  rintro numbers _ ⟨_, rfl, texts', rfl, htexts⟩
  exact ⟨texts', rfl, htexts⟩

end Binding

mutual

/-- The literal of a value that names values is that of the value with numbers. -/
theorem lifts_literal : ∀ {value : Json}, value.isNamed values = true →
    Lifts values (Sql.literal value) fun numbers text =>
      ∃ value', Json.Numbered numbers value value' ∧ Sql.literal value' = text
  | .null, _ => (Lifts.ofNoAt (by decide)).mono fun _ _ h => ⟨.null, .same _, h.symm⟩
  | .bool b, _ =>
    (Lifts.ofNoAt (by cases b <;> decide)).mono fun _ _ h => ⟨.bool b, .same _, h.symm⟩
  | .number n, _ =>
    (Lifts.ofNoAt (Sql.noAt_numberText n)).mono fun _ _ h => ⟨.number n, .same _, h.symm⟩
  | .string s, h => by
    refine (lifts_text h).mono ?_
    rintro numbers text ⟨s', hs, htext⟩
    exact ⟨.string s', hs, htext⟩
  | .array items, h => by
    refine (lifts_literals h).list.mono ?_
    rintro numbers _ ⟨_, rfl, items', hnumbered, rfl⟩
    exact ⟨.array items', .array hnumbered, rfl⟩
  | .object members, h =>
    (Lifts.ofNoAt (Sql.noAt_quoteText (noAt_of_contains h))).mono fun _ _ h =>
      ⟨.object members, .same _, h.symm⟩

theorem lifts_literals : ∀ {items : List Json}, Json.itemsAreNamed values items = true →
    LiftsAll values (Sql.literals items) fun numbers texts =>
      ∃ items', List.Forall₂ (Json.Numbered numbers) items items' ∧ Sql.literals items' = texts
  | [], _ => LiftsAll.nil.mono fun _ _ h => ⟨[], .nil, h.symm⟩
  | item :: rest, h => by
    obtain ⟨hitem, hrest⟩ := Bool.and_eq_true_iff.mp h
    refine ((LiftsAll.single (lifts_literal hitem)).append (lifts_literals hrest)).mono ?_
    rintro numbers _ ⟨_, _, rfl, ⟨_, rfl, item', hitem, rfl⟩, rest', hrest, rfl⟩
    exact ⟨item' :: rest', .cons hitem hrest, rfl⟩

end

theorem lifts_literalList {items : List Json} (h : Json.itemsAreNamed values items = true) :
    Lifts values (Sql.literalList items) fun numbers text =>
      ∃ items', List.Forall₂ (Json.Numbered numbers) items items' ∧
        Sql.literalList items' = text := by
  refine (lifts_literals h).list.mono ?_
  rintro numbers _ ⟨_, rfl, items', hnumbered, rfl⟩
  exact ⟨items', hnumbered, rfl⟩

/-! ## Descriptors -/

/-- No name has an at sign, and at signs in a value name values. -/
def Written.isNamed (values : Entries String Json) : Written → Bool
  | .name text => !text.toList.contains '@'
  | .value content => content.isNamed values

/-- No name has an at sign, and all at signs in values name values. -/
abbrev AllNamed (values : Entries String Json) (written : List Written) : Prop :=
  ∀ text ∈ written, text.isNamed values = true

/-- A name that is written has no at sign. -/
theorem noAt_of_name {text : String} (h : AllNamed values (Harvest.written.name text)) :
    NoAt text :=
  noAt_of_contains (h (.name text) List.mem_cons_self)

theorem noAt_of_names {names : List String} (h : AllNamed values (names.map .name)) :
    ∀ name ∈ names, NoAt name :=
  fun name hname => noAt_of_contains (h (.name name) (List.mem_map_of_mem hname))

theorem isNamed_of_value {content : Json} (h : AllNamed values (Harvest.written.value content)) :
    content.isNamed values = true := h (.value content) List.mem_cons_self

/-- A relation writes names only. -/
theorem Sql.NoAtRelation.of {relation : Relation} (h : AllNamed values relation.written) :
    Sql.NoAtRelation relation := by
  have hname : ∀ {text : String}, Written.name text ∈ relation.written → NoAt text :=
    fun hmem => noAt_of_contains (h _ hmem)
  refine ⟨hname ?_, hname ?_, hname ?_, hname ?_, fun name hmem => hname ?_,
    fun junction hmem => ?_⟩
  · simp [Relation.written]
  · simp [Relation.written]
  · simp [Relation.written]
  · simp [Relation.written]
  · simp [Relation.written, Option.mem_def.mp hmem]
  · refine ⟨hname ?_, hname ?_, hname ?_⟩
    all_goals simp [Relation.written, Option.mem_def.mp hmem]

theorem Catalog.noAt_of_resolve {catalog : Catalog} (h : AllNamed values catalog.written)
    {name : String} {relation : Relation} (hresolve : catalog.resolve name = .ok relation) :
    Sql.NoAtRelation relation := by
  unfold Catalog.resolve at hresolve
  split at hresolve
  · next found hfound =>
    cases hresolve
    exact .of fun text htext => h text (List.mem_flatMap_of_mem (Entries.mem_of_get? hfound) htext)
  · cases hresolve

theorem NoAtColumns.of {columns : Columns} (h : AllNamed values (Harvest.written.columns columns)) :
    NoAtColumns columns := by
  intro entry hentry
  have hcolumn := List.forall_mem_flatMap.mp h entry hentry
  obtain ⟨name, column⟩ := entry
  cases column with
  | reuse => exact ⟨noAt_of_name hcolumn, by simp⟩
  | source text =>
    obtain ⟨htext, hname⟩ := List.forall_mem_append.mp hcolumn
    refine ⟨noAt_of_name hname, ?_⟩
    rintro _ ⟨⟩
    exact noAt_of_name htext

/-- A row count whose placeholder names a value. -/
def NamedBound (values : Entries String Json) (bound? : Option Bound) : Prop :=
  ∀ text, bound? = some (.placeholder text) → (Json.string text).isNamed values = true

/-- What is said of everything in a body but its conditions. -/
structure NamedBody (values : Entries String Json) (body : QueryBody) : Prop where
  select : NoAtColumns body.select
  groupBy : ∀ name ∈ body.groupBy, NoAt name
  orderBy : ∀ entry ∈ body.orderBy, NoAt entry.1
  limit : NamedBound values body.limit
  offset : NamedBound values body.offset
  joins : ∀ entry ∈ body.joins, NoAtColumns entry.2.2.select

/-- The clauses of a body write names, but for the two row counts. -/
theorem NamedBody.of {body : QueryBody} (h : AllNamed values (Harvest.written.clauses body)) :
    NamedBody values body := by
  have hbound : ∀ {bound? : Option Bound}, AllNamed values (Harvest.written.bound bound?) →
      NamedBound values bound? := by
    rintro _ hnamed text rfl
    exact isNamed_of_value hnamed
  obtain ⟨h, hjoins⟩ := List.forall_mem_append.mp h
  obtain ⟨h, hoffset⟩ := List.forall_mem_append.mp h
  obtain ⟨h, hlimit⟩ := List.forall_mem_append.mp h
  obtain ⟨h, horderBy⟩ := List.forall_mem_append.mp h
  obtain ⟨hselect, hgroupBy⟩ := List.forall_mem_append.mp h
  refine ⟨.of hselect, fun name hname => ?_, fun entry hentry => ?_, hbound hlimit, hbound hoffset,
    fun entry hentry => ?_⟩
  · exact noAt_of_name (List.forall_mem_flatMap.mp hgroupBy name hname)
  · exact noAt_of_name (List.forall_mem_flatMap.mp horderBy entry hentry)
  · exact .of (List.forall_mem_append.mp (List.forall_mem_flatMap.mp hjoins entry hentry)).2

theorem NamedBody.outputColumns {body : QueryBody} (h : NamedBody values body) {select : Columns}
    (hselect : NoAtColumns select) {nested : List String} (hnested : ∀ name ∈ nested, NoAt name) :
    NoAtColumns (body.outputColumns select nested) := by
  intro entry hentry
  rcases body.mem_outputColumns hentry with hentry | ⟨name, hname, rfl⟩ | ⟨join, hjoin, hentry⟩
  · exact hselect entry hentry
  · exact ⟨hnested name hname, by simp⟩
  · exact h.joins join hjoin entry hentry

/-- The text of a row count, if there is one. -/
def boundTexts (bound? : Option Bound) : List String :=
  bound?.toList.map fun bound => (Sql.boundToken bound).text

/-- A row count that is a number has no name in it, and one that is a placeholder may. -/
theorem lifts_bound {bound? : Option Bound} (h : NamedBound values bound?) :
    LiftsAll values (boundTexts bound?) fun numbers texts => ∃ bound?',
      texts = boundTexts bound?' ∧
        Option.Rel (Bound.Related (Json.Numbered numbers)) bound? bound?' := by
  cases bound? with
  | none =>
    refine LiftsAll.nil.mono ?_
    rintro numbers _ rfl
    exact ⟨none, rfl, .none⟩
  | some bound =>
    cases bound with
    | count n =>
      have hnumber : NoAt (Sql.boundToken (.count n)).text := Sql.noAt_numberText (.int n)
      refine (LiftsAll.single (Lifts.ofNoAt hnumber)).mono ?_
      rintro numbers _ ⟨_, rfl, rfl⟩
      exact ⟨some (.count n), rfl, .some (.same _)⟩
    | placeholder text =>
      refine (LiftsAll.single (lifts_text (h text rfl))).mono ?_
      rintro numbers _ ⟨_, rfl, text', hnumbered, rfl⟩
      exact ⟨some (.placeholder text'), rfl, .some (.placeholder hnumbered)⟩

end DescriptorSql
