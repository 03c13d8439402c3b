import DescriptorSql.Json.Reader
import DescriptorSql.Proofs.Compile.Agreement
import DescriptorSql.Proofs.Descriptor.Layers
import DescriptorSql.Statement.ParamsForm

/-!
# `Proofs/Descriptor/Keys.lean` — every key stands once

The reader of JSON text writes the members of an object into a map, so no key stands twice in what
it reads (`Json.hasDistinctKeys_of_read?`). What the reader keeps while it reads is the invariant
behind this: the containers that are open have distinct keys, at every depth. The catalogs of
parameters that are read from such values are maps (`FindParams.isMap_relations` and those after
it).
-/

set_option autoImplicit false

namespace DescriptorSql

open Entries (IsMap)

namespace Json

mutual

/-- No key stands twice in an object, at any depth. -/
def hasDistinctKeys : Json → Bool
  | .array items => itemsHaveDistinctKeys items
  | .object members => decide (IsMap members) && membersHaveDistinctKeys members
  | _ => true

def itemsHaveDistinctKeys : List Json → Bool
  | [] => true
  | item :: rest => item.hasDistinctKeys && itemsHaveDistinctKeys rest

def membersHaveDistinctKeys : List (String × Json) → Bool
  | [] => true
  | (_, value) :: rest => value.hasDistinctKeys && membersHaveDistinctKeys rest

end

theorem hasDistinctKeys_array {items : List Json} :
    (Json.array items).hasDistinctKeys = true ↔ ∀ item ∈ items, item.hasDistinctKeys = true := by
  rw [hasDistinctKeys]
  induction items with
  | nil => simp [itemsHaveDistinctKeys]
  | cons item rest ih => rw [itemsHaveDistinctKeys, Bool.and_eq_true, ih, List.forall_mem_cons]

theorem membersHaveDistinctKeys_iff {members : List (String × Json)} :
    membersHaveDistinctKeys members = true ↔
      ∀ member ∈ members, member.2.hasDistinctKeys = true := by
  induction members with
  | nil => simp [membersHaveDistinctKeys]
  | cons member rest ih =>
    obtain ⟨key, value⟩ := member
    rw [membersHaveDistinctKeys, Bool.and_eq_true, ih, List.forall_mem_cons]

/-- An object has distinct keys if its own are and those of everything in it. -/
theorem hasDistinctKeys_object {members : List (String × Json)} :
    (Json.object members).hasDistinctKeys = true ↔
      IsMap members ∧ ∀ member ∈ members, member.2.hasDistinctKeys = true := by
  rw [hasDistinctKeys, Bool.and_eq_true, decide_eq_true_iff, membersHaveDistinctKeys_iff]

/-! ## Reading text -/

/-- The container, as far as it was read. -/
def Frame.part : Frame → Json
  | .array items => .array items
  | .object members _ => .object members

/-- What was read so far: the open containers, or the whole value. -/
def ReadState.parts : ReadState → List Json
  | .value stack | .firstItem stack | .firstKey stack => stack.map Frame.part
  | .afterItem items stack => .array items :: stack.map Frame.part
  | .key members stack | .colon members _ stack | .afterMember members stack =>
    .object members :: stack.map Frame.part
  | .finished result => [result]

def Lexeme.hasDistinctKeys : Lexeme → Bool
  | .scalar value => value.hasDistinctKeys
  | _ => true

/-- In everything that was read so far each key stands once. -/
def ReadState.Distinct (state : ReadState) : Prop :=
  ∀ part ∈ state.parts, part.hasDistinctKeys = true

/-- A value that is complete goes into the innermost open container, where its key overwrites an
equal one. -/
theorem distinct_deliver {value : Json} {stack : List Frame} (hvalue : value.hasDistinctKeys = true)
    (hstack : ∀ frame ∈ stack, frame.part.hasDistinctKeys = true) :
    (deliver value stack).Distinct := by
  cases stack with
  | nil => simpa [deliver, ReadState.Distinct, ReadState.parts] using hvalue
  | cons frame stack =>
    obtain ⟨hframe, hrest⟩ := List.forall_mem_cons.mp hstack
    have hparts : ∀ part ∈ stack.map Frame.part, part.hasDistinctKeys = true := by simpa using hrest
    cases frame with
    | array items =>
      have hitems := hasDistinctKeys_array.mp hframe
      refine List.forall_mem_cons.mpr ⟨hasDistinctKeys_array.mpr ?_, hparts⟩
      exact List.forall_mem_cons.mpr ⟨hvalue, hitems⟩
    | object members key =>
      -- a key that was there already keeps its place and takes the new value
      obtain ⟨hkeys, hmembers⟩ := hasDistinctKeys_object.mp hframe
      refine List.forall_mem_cons.mpr
        ⟨hasDistinctKeys_object.mpr ⟨?_, fun member hmember => ?_⟩, hparts⟩
      · exact Entries.nodup_keys_insert hkeys key value
      · rcases Entries.mem_or_eq_of_mem_insert hmember with hmember | rfl
        · exact hmembers member hmember
        · exact hvalue

/-- A container that is opened is empty, and a scalar is delivered at once. -/
theorem distinct_startValue (maxDepth : Nat) {stack : List Frame} {lexeme : Lexeme}
    {next : ReadState} (hlexeme : lexeme.hasDistinctKeys = true)
    (hstack : ∀ frame ∈ stack, frame.part.hasDistinctKeys = true)
    (h : startValue maxDepth stack lexeme = some next) : next.Distinct := by
  have hparts : ∀ part ∈ stack.map Frame.part, part.hasDistinctKeys = true := by simpa using hstack
  cases lexeme with
  | scalar value =>
    cases h
    exact distinct_deliver hlexeme hstack
  | openArray | openObject =>
    rw [startValue] at h
    split at h
    · cases h
      exact hparts
    · cases h
  | _ => cases h

/-- One lexeme leaves the keys distinct. -/
theorem distinct_next {maxDepth : Nat} {state next : ReadState} {lexeme : Lexeme}
    (hstate : state.Distinct) (hlexeme : lexeme.hasDistinctKeys = true)
    (h : state.next? maxDepth lexeme = some next) : next.Distinct := by
  -- what is known of the parts is known of the open containers
  have hframes :
      ∀ {stack : List Frame}, (∀ part ∈ stack.map Frame.part, part.hasDistinctKeys = true) →
      ∀ frame ∈ stack, frame.part.hasDistinctKeys = true := by
    intro stack hparts frame hframe
    exact hparts frame.part (List.mem_map_of_mem hframe)
  cases state with
  | value stack => exact distinct_startValue maxDepth hlexeme (hframes hstate) h
  -- either the array is closed at once, or its first item begins inside it
  | firstItem stack =>
    have hopened : ∀ frame ∈ .array [] :: stack, frame.part.hasDistinctKeys = true :=
      List.forall_mem_cons.mpr ⟨rfl, hframes hstate⟩
    cases lexeme with
    | closeArray =>
      cases h
      exact distinct_deliver rfl (hframes hstate)
    | _ => exact distinct_startValue maxDepth hlexeme hopened h
  -- the items were read, so closing delivers an array that has distinct keys
  | afterItem items stack =>
    obtain ⟨hitems, hstack⟩ := List.forall_mem_cons.mp hstate
    cases lexeme with
    | comma =>
      cases h
      exact List.forall_mem_cons.mpr ⟨hitems, hstack⟩
    | closeArray =>
      cases h
      refine distinct_deliver (hasDistinctKeys_array.mpr ?_) (hframes hstack)
      simpa using hasDistinctKeys_array.mp hitems
    | _ => cases h
  -- an empty object has no key twice
  | firstKey stack =>
    cases lexeme with
    | closeObject =>
      cases h
      exact distinct_deliver rfl (hframes hstate)
    | scalar name =>
      cases name with
      | string name =>
        cases h
        exact List.forall_mem_cons.mpr ⟨rfl, hstate⟩
      | _ => cases h
    | _ => cases h
  | key members stack =>
    cases lexeme with
    | scalar name =>
      cases name with
      | string name =>
        cases h
        exact hstate
      | _ => cases h
    | _ => cases h
  | colon members name stack =>
    cases lexeme with
    | colon =>
      cases h
      exact hstate
    | _ => cases h
  -- the member was delivered before, and overwrote an equal key there
  | afterMember members stack =>
    obtain ⟨hmembers, hstack⟩ := List.forall_mem_cons.mp hstate
    cases lexeme with
    | comma =>
      cases h
      exact hstate
    | closeObject =>
      cases h
      exact distinct_deliver hmembers (hframes hstack)
    | _ => cases h
  | finished value => cases h

/-- And so do all of them. -/
theorem distinct_foldlM {maxDepth : Nat} {state last : ReadState} {lexemes : List Lexeme}
    (hstate : state.Distinct) (hlexemes : ∀ lexeme ∈ lexemes, lexeme.hasDistinctKeys = true)
    (h : lexemes.foldlM (ReadState.next? maxDepth) state = some last) : last.Distinct := by
  induction lexemes generalizing state with
  | nil =>
    cases h
    exact hstate
  | cons lexeme rest ih =>
    obtain ⟨hlexeme, hrest⟩ := List.forall_mem_cons.mp hlexemes
    obtain ⟨next, hnext, h⟩ := Option.bind_eq_some_iff.mp h
    exact ih (distinct_next hstate hlexeme hnext) hrest h

/-- A lexeme is no container. -/
theorem hasDistinctKeys_of_lexemes? {cs : List Char} {lexemes : List Lexeme}
    (h : lexemes? cs = some lexemes) : ∀ lexeme ∈ lexemes, lexeme.hasDistinctKeys = true := by
  have hcons : ∀ {first : Lexeme} {rest : Option (List Lexeme)}, first.hasDistinctKeys = true →
      (∀ {more}, rest = some more → ∀ lexeme ∈ more, lexeme.hasDistinctKeys = true) →
      ∀ {more}, rest.map (first :: ·) = some more →
      ∀ lexeme ∈ more, lexeme.hasDistinctKeys = true := by
    intro first rest hfirst hrest more hmore
    obtain ⟨others, hothers, rfl⟩ := Option.map_eq_some_iff.mp hmore
    exact List.forall_mem_cons.mpr ⟨hfirst, hrest hothers⟩
  -- a mark, a word and a string stand in front of the others, and behind a blank there are only
  -- the others
  fun_induction lexemes? cs generalizing lexemes with
  | case1 =>
    cases h
    exact fun lexeme hlexeme => absurd hlexeme List.not_mem_nil
  | case11 | case14 | case16 => cases h
  | case13 _ _ _ _ _ _ _ _ _ _ _ _ _ ih => exact ih h
  | case2 _ ih | case3 _ ih | case4 _ ih | case5 _ ih | case6 _ ih | case7 _ ih | case8 _ ih
  | case9 _ ih | case10 _ ih => exact hcons rfl ih h
  | case12 _ _ _ _ _ ih => exact hcons rfl ih h
  | case15 => exact hcons rfl (by assumption) h

/-- In a value that is read no key stands twice. -/
theorem hasDistinctKeys_of_read? {maxDepth : Nat} {text : String} {value : Json}
    (h : read? maxDepth text = some value) : value.hasDistinctKeys = true := by
  obtain ⟨lexemes, hlexemes, h⟩ := Option.bind_eq_some_iff.mp h
  obtain ⟨last, hlast, h⟩ := Option.bind_eq_some_iff.mp h
  have hstart : (ReadState.value []).Distinct := by simp [ReadState.Distinct, ReadState.parts]
  have hdistinct := distinct_foldlM hstart (hasDistinctKeys_of_lexemes? hlexemes) hlast
  cases last with
  | finished result =>
    cases h
    exact hdistinct value List.mem_cons_self
  | _ => cases h

end Json

/-! ## Records and catalogs -/

namespace RecordForm

variable {α σ : Type} {P : σ → Prop} {step : String → Json → σ → Except Mistake σ}

/-- A record is read field by field. A field that stands twice is an error, and one that is not
known is passed over, so only the fields that are stored have to keep the property. -/
theorem readMembers_preserves (form : RecordForm) (format : SourceFormat)
    (hstep : ∀ name value draft next, value.hasDistinctKeys = true → P draft →
      step name value draft = .ok next → P next) {members : Entries String Json}
    (hmembers : ∀ member ∈ members, member.2.hasDistinctKeys = true) {seen : List String}
    {draft result : σ} (hdraft : P draft)
    (h : form.readMembers format step members seen draft = .ok result) : P result := by
  induction members generalizing seen draft with
  | nil =>
    cases h
    exact hdraft
  | cons member rest ih =>
    obtain ⟨key, value⟩ := member
    obtain ⟨hvalue, hrest⟩ := List.forall_mem_cons.mp hmembers
    rw [readMembers] at h
    split at h
    · obtain ⟨-, -, h⟩ := exists_of_bind_eq_ok h
      exact ih hrest hdraft h
    · split at h
      · cases h
      · obtain ⟨next, hnext, h⟩ := exists_of_bind_eq_ok h
        exact ih hrest (hstep _ value draft next hvalue hdraft hnext) h

/-- The same of a record that is written as a list of its fields. -/
theorem readItems_preserves
    (hstep : ∀ name value draft next, value.hasDistinctKeys = true → P draft →
      step name value draft = .ok next → P next) {names : List String} {items : List Json}
    (hitems : ∀ item ∈ items, item.hasDistinctKeys = true) {draft result : σ} (hdraft : P draft)
    (h : readItems step names items draft = .ok result) : P result := by
  induction names generalizing items draft with
  | nil =>
    cases h
    exact hdraft
  | cons name names ih =>
    cases items with
    | nil =>
      cases h
      exact hdraft
    | cons item rest =>
      obtain ⟨hitem, hrest⟩ := List.forall_mem_cons.mp hitems
      obtain ⟨next, hnext, h⟩ := exists_of_bind_eq_ok h
      exact ih hrest (hstep name item draft next hitem hdraft hnext) h

/-- What every field preserves holds of a draft that is read from a value with distinct keys. -/
theorem exists_draft_of_read (form : RecordForm) (format : SourceFormat)
    {finish : RecordStyle → σ → Except Mistake α} {start : σ} {value : Json} {record : α}
    (hstep : ∀ name value draft next, value.hasDistinctKeys = true → P draft →
      step name value draft = .ok next → P next) (hstart : P start)
        (hvalue : value.hasDistinctKeys = true)
    (h : form.read format step finish start value = .ok record) :
    ∃ style draft, P draft ∧ finish style draft = .ok record := by
  cases value with
  | object members =>
    obtain ⟨draft, hdraft, h⟩ := exists_of_bind_eq_ok h
    exact ⟨.members, draft, form.readMembers_preserves format hstep
      (Json.hasDistinctKeys_object.mp hvalue).2
      hstart hdraft, h⟩
  | array items =>
    obtain ⟨draft, hdraft, h⟩ := exists_of_bind_eq_ok h
    obtain ⟨result, hresult, h⟩ := exists_of_bind_eq_ok h
    obtain ⟨-, -, h⟩ := exists_of_bind_eq_ok h
    cases h
    exact ⟨.items, draft,
      readItems_preserves hstep (Json.hasDistinctKeys_array.mp hvalue) hstart hdraft,
      hresult⟩
  | _ => cases h

end RecordForm

/-- What every reading keeps is kept of all items, in order. -/
theorem map_of_mapM_eq_ok {α β γ ε : Type} {read : α → Except ε β} {of : α → γ} {kept : β → γ}
    (hread : ∀ item result, read item = .ok result → kept result = of item) {items : List α}
    {results : List β} (h : items.mapM read = .ok results) : results.map kept = items.map of := by
  induction items generalizing results with
  | nil =>
    cases h
    rfl
  | cons item rest ih =>
    rw [List.mapM_cons] at h
    obtain ⟨result, hresult, h⟩ := exists_of_bind_eq_ok h
    obtain ⟨others, hothers, h⟩ := exists_of_bind_eq_ok h
    cases h
    rw [List.map_cons, List.map_cons, hread item result hresult, ih hothers]

/-- A map that is read has the keys of its object, in order. -/
theorem keys_of_readMapOf {α : Type} {read : Json → Except Mistake α}
    {members : List (String × Json)} {entries : Entries String α}
    (h : readMapOf read (.object members) = .ok entries) :
    Entries.keys entries = Entries.keys members := by
  refine map_of_mapM_eq_ok (fun member entry hentry => ?_) h
  obtain ⟨value, -, hentry⟩ := exists_of_bind_eq_ok hentry
  cases hentry
  rfl

/-- So a catalog is a map if its JSON has distinct keys. -/
theorem Catalog.isMap_of_ofJson? {format : SourceFormat} {value : Json} {catalog : Catalog}
    (hvalue : value.hasDistinctKeys = true) (h : Catalog.ofJson? format value = .ok catalog) :
    IsMap catalog := by
  cases value with
  | object members =>
    rw [IsMap, keys_of_readMapOf h]
    exact (Json.hasDistinctKeys_object.mp hvalue).1
  | _ => cases h

/-! ## Parameters -/

/-- The relations are stored as they are read, and no other field changes them. -/
theorem FindParams.isMap_store {name : String} {value : Json} {draft next : Draft}
    (hvalue : value.hasDistinctKeys = true) (hdraft : IsMap draft.relations)
    (h : Draft.store name value draft = .ok next) : IsMap next.relations := by
  unfold Draft.store at h
  split at h
  case h_4 =>
    obtain ⟨relations, hrelations, h⟩ := exists_of_bind_eq_ok h
    cases h
    exact Catalog.isMap_of_ofJson? hvalue hrelations
  case h_5 =>
    cases h
    exact hdraft
  all_goals
    obtain ⟨_, -, h⟩ := exists_of_bind_eq_ok h
    cases h
    exact hdraft

theorem InsertParams.isMap_store {name : String} {value : Json} {draft next : Draft}
    (hvalue : value.hasDistinctKeys = true) (hdraft : IsMap draft.relations)
    (h : Draft.store name value draft = .ok next) : IsMap next.relations := by
  unfold Draft.store at h
  split at h
  case h_4 =>
    split at h
    · cases h
      exact hdraft
    · obtain ⟨_, -, h⟩ := exists_of_bind_eq_ok h
      cases h
      exact hdraft
  case h_5 =>
    obtain ⟨relations, hrelations, h⟩ := exists_of_bind_eq_ok h
    cases h
    exact Catalog.isMap_of_ofJson? hvalue hrelations
  case h_2 | h_6 =>
    cases h
    exact hdraft
  all_goals
    obtain ⟨_, -, h⟩ := exists_of_bind_eq_ok h
    cases h
    exact hdraft

theorem ChangeDraft.isMap_store {readQuery : Json → Except Mistake ChangeQuery} {name : String}
    {value : Json} {draft next : ChangeDraft} (hvalue : value.hasDistinctKeys = true)
    (hdraft : IsMap draft.relations) (h : ChangeDraft.store readQuery name value draft = .ok next) :
    IsMap next.relations := by
  unfold ChangeDraft.store at h
  split at h
  case h_3 =>
    obtain ⟨relations, hrelations, h⟩ := exists_of_bind_eq_ok h
    cases h
    exact Catalog.isMap_of_ofJson? hvalue hrelations
  case h_4 =>
    cases h
    exact hdraft
  all_goals
    obtain ⟨_, -, h⟩ := exists_of_bind_eq_ok h
    cases h
    exact hdraft

section

variable {value : Json} (hvalue : value.hasDistinctKeys = true)

include hvalue

/-- A draft begins without relations, and without them there is the empty catalog. -/
theorem FindParams.isMap_relations {params : FindParams}
    (h : FindParams.ofJson? value = .ok params) :
    IsMap params.relations := by
  obtain ⟨style, draft, hdraft, h⟩ :=
    form.exists_draft_of_read .json (P := fun draft : Draft => IsMap draft.relations)
      (fun _ _ _ _ => isMap_store) Entries.isMap_nil hvalue h
  obtain ⟨table, -, h⟩ := exists_of_bind_eq_ok h
  cases h
  exact hdraft

theorem InsertParams.isMap_relations {label : String} {params : InsertParams}
    (h : InsertParams.read label value = .ok params) : IsMap params.relations := by
  obtain ⟨style, draft, hdraft, h⟩ :=
    (form label).exists_draft_of_read .json (P := fun draft : Draft => IsMap draft.relations)
      (fun _ _ _ _ => isMap_store) Entries.isMap_nil hvalue h
  obtain ⟨table, -, h⟩ := exists_of_bind_eq_ok h
  cases h
  exact hdraft

theorem UpdateParams.isMap_relations {params : UpdateParams}
    (h : UpdateParams.ofJson? value = .ok params) :
    IsMap params.relations := by
  obtain ⟨style, draft, hdraft, h⟩ :=
    form.exists_draft_of_read .json (P := fun draft : ChangeDraft => IsMap draft.relations)
      (fun _ _ _ _ => ChangeDraft.isMap_store) Entries.isMap_nil hvalue h
  obtain ⟨table, -, h⟩ := exists_of_bind_eq_ok h
  cases h
  exact hdraft

theorem DeleteParams.isMap_relations {params : DeleteParams}
    (h : DeleteParams.ofJson? value = .ok params) :
    IsMap params.relations := by
  obtain ⟨style, draft, hdraft, h⟩ :=
    form.exists_draft_of_read .json (P := fun draft : ChangeDraft => IsMap draft.relations)
      (fun _ _ _ _ => ChangeDraft.isMap_store) Entries.isMap_nil hvalue h
  obtain ⟨table, -, h⟩ := exists_of_bind_eq_ok h
  cases h
  exact hdraft

end

end DescriptorSql
