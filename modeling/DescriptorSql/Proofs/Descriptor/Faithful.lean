import DescriptorSql.Descriptor.QueryForm
import Mathlib.Data.List.Forall2

/-!
# `Proofs/Descriptor/Faithful.lean` — readers and grammars

A grammar of JSON says which values are read and as what, and which are refused and with which
mistake. A reader is faithful to it on a value if it does what the grammar says there (`Faithful`).
What a grammar says of lists and records is the same everywhere: the items are read one by one in
order, and the first one that is not read decides the error (`FirstFails`). So faithfulness on the
parts gives faithfulness on the whole (`Faithful.mapM`, `Faithful.record`).
-/

set_option autoImplicit false

namespace DescriptorSql

/-! ## Lists and records in a grammar -/

/-- The error of the first item that is not read; those in front of it are. -/
inductive FirstFails {α ε : Type} (Reads : α → Prop) (Fails : α → ε → Prop) : List α → ε → Prop
  | here {item : α} {rest : List α} {error : ε} : Fails item error →
      FirstFails Reads Fails (item :: rest) error
  | later {item : α} {rest : List α} {error : ε} : Reads item → FirstFails Reads Fails rest error →
      FirstFails Reads Fails (item :: rest) error

theorem firstFails_iff {α ε : Type} {Reads : α → Prop} {Fails : α → ε → Prop} {items : List α}
    {error : ε} : FirstFails Reads Fails items error ↔ ∃ front item back,
      items = front ++ item :: back ∧ (∀ other ∈ front, Reads other) ∧ Fails item error := by
  constructor
  · intro h
    induction h with
    | here hfails => exact ⟨[], _, _, rfl, by simp, hfails⟩
    | later hreads _ ih =>
      obtain ⟨front, item, back, rfl, hfront, hfails⟩ := ih
      exact ⟨_ :: front, item, back, rfl, List.forall_mem_cons.mpr ⟨hreads, hfront⟩, hfails⟩
  · rintro ⟨front, item, back, rfl, hfront, hfails⟩
    induction front with
    | nil => exact .here hfails
    | cons first front ih =>
      rw [List.forall_mem_cons] at hfront
      exact .later hfront.1 (ih hfront.2)

/-- What is read is read from an item. -/
theorem exists_mem_of_forall₂ {α β : Type} {Reads : α → β → Prop} {items : List α}
    {results : List β} (h : List.Forall₂ Reads items results) {result : β}
    (hresult : result ∈ results) :
    ∃ item ∈ items, Reads item result := by
  induction h with
  | nil => cases hresult
  | cons hitem _ ih =>
    rcases List.mem_cons.mp hresult with rfl | hresult
    · exact ⟨_, List.mem_cons_self, hitem⟩
    · obtain ⟨item, hmem, hreads⟩ := ih hresult
      exact ⟨item, List.mem_cons_of_mem _ hmem, hreads⟩

/-- Each item in turn takes one state to the next. -/
inductive FoldReads {α σ : Type} (Step : α → σ → σ → Prop) : List α → σ → σ → Prop
  | nil {state : σ} : FoldReads Step [] state state
  | cons {item : α} {rest : List α} {start next result : σ} : Step item start next →
      FoldReads Step rest next result → FoldReads Step (item :: rest) start result

/-- The item is read in some state. -/
def IsStep {α σ : Type} (Step : α → σ → σ → Prop) (item : α) : Prop :=
  ∃ start next, Step item start next

/-- A record, written as an object of its fields or as an array of them in order. -/
inductive RecordReads {σ : Type} (form : RecordForm) (Field : String × Json → σ → σ → Prop)
    (start : σ) : Json → σ → Prop
  | members {members : List (String × Json)} {result : σ} : FoldReads Field members start result →
      RecordReads form Field start (.object members) result
  | items {items : List Json} {result : σ} : items.length ≤ form.names.length →
      FoldReads Field (form.names.zip items) start result →
      RecordReads form Field start (.array items) result

/-- What is wrong with a record: a field of it, more items than fields, or that it is no record. -/
inductive RecordFails {σ : Type} (form : RecordForm) (Field : String × Json → σ → σ → Prop)
    (FieldFails : String × Json → Mistake → Prop) (start : σ) : Json → Mistake → Prop
  | member {members : List (String × Json)} {mistake : Mistake} :
      FirstFails (IsStep Field) FieldFails members mistake →
      RecordFails form Field FieldFails start (.object members) mistake
  | item {items : List Json} {mistake : Mistake} :
      FirstFails (IsStep Field) FieldFails (form.names.zip items) mistake →
      RecordFails form Field FieldFails start (.array items) mistake
  | extra {items : List Json} {result : σ} : form.names.length < items.length →
      FoldReads Field (form.names.zip items) start result →
      RecordFails form Field FieldFails start (.array items) (.extraItems items.length)
  | shape {value : Json} : (∀ members, value ≠ .object members) → (∀ items, value ≠ .array items) →
      RecordFails form Field FieldFails start value (.wrongType value (.named form.label))

/-! ## Shapes and sizes -/

namespace Json

theorem object_or (value : Json) :
    (∃ members, value = .object members) ∨ ∀ members, value ≠ .object members :=
  exists_or_forall_not fun members => value = .object members

theorem array_or (value : Json) : (∃ items, value = .array items) ∨ ∀ items, value ≠ .array items :=
  exists_or_forall_not fun items => value = .array items

theorem sizeOf_lt_of_mem_items {items : List Json} {value : Json} (h : value ∈ items) :
    sizeOf value < sizeOf (Json.array items) := by
  have hlt := List.sizeOf_lt_of_mem h
  rw [Json.array.sizeOf_spec]
  omega

theorem sizeOf_lt_of_mem_members {members : List (String × Json)} {member : String × Json}
    (h : member ∈ members) : sizeOf member.2 < sizeOf (Json.object members) := by
  obtain ⟨name, value⟩ := member
  have hlt := List.sizeOf_lt_of_mem h
  rw [Prod.mk.sizeOf_spec] at hlt
  rw [Json.object.sizeOf_spec]
  dsimp only
  omega

end Json

/-! ## Faithful readers -/

/-- On this value the reader does what the grammar says. -/
structure Faithful {α β ε : Type} (read : α → Except ε β) (Reads : α → β → Prop)
    (Fails : α → ε → Prop) (value : α) : Prop where
  ok_iff : ∀ {result}, read value = .ok result ↔ Reads value result
  error_iff : ∀ {error}, read value = .error error ↔ Fails value error

namespace Faithful

variable {α β γ δ ε φ σ : Type} {read : α → Except ε β} {Reads : α → β → Prop}
  {Fails : α → ε → Prop} {value : α}

theorem of_ok {result : β} (hread : read value = .ok result) (hreads : Reads value result)
    (hunique : ∀ other, Reads value other → other = result)
    (hfails : ∀ error, ¬ Fails value error) :
    Faithful read Reads Fails value where
  ok_iff := by
    intro other
    rw [hread, Except.ok.injEq]
    constructor
    · rintro rfl
      exact hreads
    · exact fun h => (hunique other h).symm
  error_iff := by
    intro error
    rw [hread]
    exact iff_of_false (by simp) (hfails error)

theorem of_error {error : ε} (hread : read value = .error error) (hfails : Fails value error)
    (hunique : ∀ other, Fails value other → other = error)
    (hreads : ∀ result, ¬ Reads value result) :
    Faithful read Reads Fails value where
  ok_iff := by
    intro result
    rw [hread]
    exact iff_of_false (by simp) (hreads result)
  error_iff := by
    intro other
    rw [hread, Except.error.injEq]
    constructor
    · rintro rfl
      exact hfails
    · exact fun h => (hunique other h).symm

/-- What is read is a part, and the result and the mistake are put into the words of the whole. -/
theorem of_map {part : γ} {readPart : γ → Except φ δ} {PartReads : γ → δ → Prop}
    {PartFails : γ → φ → Prop} (h : Faithful readPart PartReads PartFails part)
    {f : δ → β} {g : φ → ε} (hread : read value = (f <$> readPart part).mapError g)
    (hreads : ∀ result, Reads value result ↔ ∃ inner, PartReads part inner ∧ f inner = result)
    (hfails : ∀ error, Fails value error ↔ ∃ inner, PartFails part inner ∧ g inner = error) :
    Faithful read Reads Fails value where
  ok_iff := by
    intro result
    rw [hread, hreads]
    simp only [← h.ok_iff]
    cases readPart part <;> simp [Except.mapError]
  error_iff := by
    intro error
    rw [hread, hfails]
    simp only [← h.error_iff]
    cases readPart part <;> simp [Except.mapError]

/-- Items that are read one by one. -/
theorem mapM {items : List α} (h : ∀ item ∈ items, Faithful read Reads Fails item) :
    Faithful (List.mapM read) (List.Forall₂ Reads)
      (FirstFails (fun item => ∃ result, Reads item result) Fails) items := by
  induction items with
  | nil => exact .of_ok rfl .nil (fun _ h => by cases h; rfl) (fun _ h => by cases h)
  | cons item rest ih =>
    have hitem := h item List.mem_cons_self
    have hrest := ih fun other hother => h other (List.mem_cons_of_mem item hother)
    constructor
    · intro results
      rw [List.mapM_cons]
      constructor
      · -- both readings have to succeed for the list to be read
        intro hok
        cases hfirst : read item with
        | error error => rw [hfirst] at hok; cases hok
        | ok result =>
          cases hothers : rest.mapM read with
          | error error => rw [hfirst, hothers] at hok; cases hok
          | ok others =>
            rw [hfirst, hothers] at hok
            cases hok
            exact .cons (hitem.ok_iff.mp hfirst) (hrest.ok_iff.mp hothers)
      · rintro (_ | ⟨hfirst, hothers⟩)
        rw [hitem.ok_iff.mpr hfirst, hrest.ok_iff.mpr hothers]
        rfl
    · intro error
      rw [List.mapM_cons]
      constructor
      · intro herror
        cases hfirst : read item with
        | error other =>
          rw [hfirst] at herror
          cases herror
          exact .here (hitem.error_iff.mp hfirst)
        | ok result =>
          cases hothers : rest.mapM read with
          | error other =>
            rw [hfirst, hothers] at herror
            cases herror
            exact .later ⟨result, hitem.ok_iff.mp hfirst⟩ (hrest.error_iff.mp hothers)
          | ok others => rw [hfirst, hothers] at herror; cases herror
      · rintro (hfirst | ⟨⟨result, hfirst⟩, hothers⟩)
        · rw [hitem.error_iff.mpr hfirst]
          rfl
        · rw [hitem.ok_iff.mpr hfirst, hrest.error_iff.mpr hothers]
          rfl

/-- Items that take one state to the next. Whether an item is read does not depend on the state. -/
theorem foldlM {store : σ → α → Except ε σ} {Step : α → σ → σ → Prop} (items : List α)
    (h : ∀ item ∈ items, ∀ state, Faithful (store state) (fun item => Step item state) Fails item)
    (start : σ) :
    Faithful (fun items => items.foldlM store start) (fun items => FoldReads Step items start)
      (FirstFails (IsStep Step) Fails) items := by
  induction items generalizing start with
  | nil => exact .of_ok rfl .nil (fun _ h => by cases h; rfl) (fun _ h => by cases h)
  | cons item rest ih =>
    have hitem := h item List.mem_cons_self
    have hrest := ih fun other hother => h other (List.mem_cons_of_mem item hother)
    cases hfirst : store start item with
    | error error =>
      have hfails := (hitem start).error_iff.mp hfirst
      -- an item that fails in one state is read in none
      have hnone : ∀ state next, ¬ Step item state next := by
        intro state next hstep
        have hread := (hitem state).ok_iff.mpr hstep
        rw [(hitem state).error_iff.mpr hfails] at hread
        cases hread
      have hfold : (item :: rest).foldlM store start = .error error := by
        rw [List.foldlM_cons, hfirst]
        rfl
      refine .of_error hfold (.here hfails) ?_ ?_
      · rintro other (hother | ⟨⟨state, next, hstep⟩, -⟩)
        · rw [(hitem start).error_iff.mpr hother] at hfirst
          exact Except.error.inj hfirst
        · exact absurd hstep (hnone state next)
      · rintro result (_ | ⟨hstep, -⟩)
        exact hnone _ _ hstep
    | ok next =>
      have hstep := (hitem start).ok_iff.mp hfirst
      have hfold : (item :: rest).foldlM store start = rest.foldlM store next := by
        rw [List.foldlM_cons, hfirst]
        rfl
      constructor
      · intro result
        rw [hfold, (hrest next).ok_iff]
        constructor
        · exact .cons hstep
        · rintro (_ | ⟨hother, hothers⟩)
          rw [(hitem start).ok_iff.mpr hother] at hfirst
          cases hfirst
          exact hothers
      · intro error
        rw [hfold, (hrest next).error_iff]
        constructor
        · exact .later ⟨start, next, hstep⟩
        · rintro (hother | ⟨-, hothers⟩)
          · rw [(hitem start).error_iff.mpr hother] at hfirst
            cases hfirst
          · exact hothers

/-- A record, whose fields are read as the grammar says. -/
theorem record {form : RecordForm} (store : σ → String × Json → Except Mistake σ)
    {Field : String × Json → σ → σ → Prop} {FieldFails : String × Json → Mistake → Prop} {start : σ}
    {read : Json → Except Mistake σ}
    (hmembers : ∀ members, read (.object members) = members.foldlM store start)
    (hitems : ∀ items,
      read (.array items) = (form.names.zip items).foldlM store start >>= fun result =>
      if form.names.length < items.length then .error (.extraItems items.length) else .ok result)
    (hshape : ∀ value, (∀ members, value ≠ .object members) → (∀ items, value ≠ .array items) →
      read value = .error (.wrongType value (.named form.label)))
    {value : Json}
    (h : ∀ name field, sizeOf field < sizeOf value → ∀ state,
      Faithful (store state) (fun item => Field item state) FieldFails (name, field)) :
    Faithful read (RecordReads form Field start)
      (RecordFails form Field FieldFails start) value := by
  -- what is neither an object nor an array has the wrong shape
  have hother : (∀ members, value ≠ .object members) → (∀ items, value ≠ .array items) →
      Faithful read (RecordReads form Field start)
        (RecordFails form Field FieldFails start) value := by
    intro hobject harray
    refine .of_error (hshape value hobject harray) (.shape hobject harray) ?_ ?_
    · rintro other (_ | _ | _ | _)
      · exact absurd rfl (hobject _)
      · exact absurd rfl (harray _)
      · exact absurd rfl (harray _)
      · rfl
    · rintro result (_ | _)
      · exact absurd rfl (hobject _)
      · exact absurd rfl (harray _)
  cases value with
  | object members =>
    -- an object is read by folding over its members
    have hfold := foldlM members
      (fun item hitem => h item.1 item.2 (Json.sizeOf_lt_of_mem_members hitem)) start
    constructor
    · intro result
      rw [hmembers, hfold.ok_iff]
      constructor
      · exact .members
      · rintro (hfields | _)
        exact hfields
    · intro mistake
      rw [hmembers, hfold.error_iff]
      constructor
      · exact .member
      · rintro (hfields | _ | _ | ⟨hobject, -⟩)
        · exact hfields
        · exact absurd rfl (hobject members)
  | array items =>
    -- and an array by folding over its items under the names of the fields
    have hfold := foldlM (form.names.zip items) (fun item hitem => h item.1 item.2
      (Json.sizeOf_lt_of_mem_items (List.of_mem_zip hitem).2)) start
    have hread := hitems items
    cases hresult : (form.names.zip items).foldlM store start with
    | error mistake =>
      rw [hresult] at hread
      refine .of_error hread (.item (hfold.error_iff.mp hresult)) ?_ ?_
      · rintro other (_ | hfields | ⟨-, hfields⟩ | ⟨-, harray⟩)
        · exact Except.error.inj ((hfold.error_iff.mpr hfields).symm.trans hresult)
        · cases (hfold.ok_iff.mpr hfields).symm.trans hresult
        · exact absurd rfl (harray items)
      · rintro result (_ | ⟨-, hfields⟩)
        cases (hfold.ok_iff.mpr hfields).symm.trans hresult
    | ok result =>
      rw [hresult] at hread
      -- all the fields are read before their number is looked at
      by_cases hlength : form.names.length < items.length
      · refine .of_error (hread.trans (if_pos hlength))
          (.extra hlength (hfold.ok_iff.mp hresult)) ?_ ?_
        · rintro other (_ | hfields | ⟨-, hfields⟩ | ⟨-, harray⟩)
          · cases (hfold.error_iff.mpr hfields).symm.trans hresult
          · rfl
          · exact absurd rfl (harray items)
        · rintro other (_ | ⟨hle, -⟩)
          omega
      · refine .of_ok (hread.trans (if_neg hlength))
          (.items (Nat.not_lt.mp hlength) (hfold.ok_iff.mp hresult)) ?_ ?_
        · rintro other (_ | ⟨-, hfields⟩)
          exact Except.ok.inj ((hfold.ok_iff.mpr hfields).symm.trans hresult)
        · rintro mistake (_ | hfields | ⟨hlt, -⟩ | ⟨-, harray⟩)
          · cases (hfold.error_iff.mpr hfields).symm.trans hresult
          · exact hlength hlt
          · exact absurd rfl (harray items)
  | null | bool b | number n | string s => exact hother (by simp) (by simp)

end Faithful

end DescriptorSql
