import DescriptorSql.Proofs.Descriptor.Writes

/-!
# `Proofs/Descriptor/Layers.lean` — one map over another

A map is determined by its keys in order and by what stands under each of them (`Entries.ext_get?`).
Laying one map over another keeps the keys of the lower one in place and puts the new keys behind
them, and what stands under a key is the upper one's where it has the key (`Entries.keys_merge_eq`,
`Entries.get?_merge`). From these two facts follow the laws of layers (`LaysOver`): it makes no
difference which of three layers are put together first, an empty layer changes nothing, and neither
does a layer over itself.
-/

set_option autoImplicit false

namespace DescriptorSql

namespace Entries

variable {κ ν : Type}

/-- Each key stands once. -/
def IsMap (entries : Entries κ ν) : Prop := (keys entries).Nodup

theorem isMap_nil : IsMap ([] : Entries κ ν) := List.nodup_nil

variable [DecidableEq κ]

instance (entries : Entries κ ν) : Decidable (IsMap entries) :=
  inferInstanceAs (Decidable (keys entries).Nodup)

theorem get?_eq_none_iff {entries : Entries κ ν} {key : κ} :
    get? entries key = none ↔ key ∉ keys entries := by
  induction entries with
  | nil => simp [keys]
  | cons entry rest ih =>
    obtain ⟨k, v⟩ := entry
    have hcons : keys ((k, v) :: rest) = k :: keys rest := rfl
    rw [get?, hcons, List.mem_cons, not_or]
    by_cases hk : k = key
    · simp [hk]
    · rw [if_neg hk, ih]
      exact ⟨fun h => ⟨Ne.symm hk, h⟩, And.right⟩

theorem insert_of_not_mem {entries : Entries κ ν} {key : κ} (h : key ∉ keys entries) (value : ν) :
    insert entries key value = entries ++ [(key, value)] := by
  induction entries with
  | nil => rfl
  | cons entry rest ih =>
    obtain ⟨k, v⟩ := entry
    rw [show keys ((k, v) :: rest) = k :: keys rest from rfl, List.mem_cons, not_or] at h
    rw [insert, if_neg (Ne.symm h.1), ih h.2, List.cons_append]

theorem get?_append_last {entries : Entries κ ν} {key : κ} (h : key ∉ keys entries) (value : ν) :
    get? (entries ++ [(key, value)]) key = some value := by
  rw [← insert_of_not_mem h, get?_insert, if_pos rfl]

/-- What is written under the last key takes the place of what was there. -/
theorem insert_append_last {entries : Entries κ ν} {key : κ} (h : key ∉ keys entries)
    (value other : ν) :
    insert (entries ++ [(key, value)]) key other = entries ++ [(key, other)] := by
  induction entries with
  | nil => exact if_pos rfl
  | cons entry rest ih =>
    obtain ⟨k, v⟩ := entry
    rw [show keys ((k, v) :: rest) = k :: keys rest from rfl, List.mem_cons, not_or] at h
    rw [List.cons_append, insert, if_neg (Ne.symm h.1), ih h.2, List.cons_append]

/-- Maps with the same keys in the same order and with the same values under them are the same. -/
theorem ext_get? {first second : Entries κ ν} (hnodup : IsMap first)
    (hkeys : keys first = keys second) (hget : ∀ key, get? first key = get? second key) :
    first = second := by
  induction first generalizing second with
  | nil => exact (List.map_eq_nil_iff.mp hkeys.symm).symm
  | cons entry rest ih =>
    obtain ⟨k, v⟩ := entry
    cases second with
    | nil => cases hkeys
    | cons entry' rest' =>
      obtain ⟨k', v'⟩ := entry'
      obtain ⟨rfl, hrest⟩ := List.cons.inj (show k :: keys rest = k' :: keys rest' from hkeys)
      obtain ⟨hnew, hnodup⟩ := List.nodup_cons.mp (show (k :: keys rest).Nodup from hnodup)
      have hvalue : v = v' := by simpa [get?] using hget k
      rw [hvalue, ih hnodup hrest]
      intro key
      by_cases hk : k = key
      · rw [← hk, get?_eq_none_iff.mpr hnew, get?_eq_none_iff.mpr (hrest ▸ hnew)]
      · simpa [get?, hk] using hget key

/-- The keys of the lower map stay in place, and the new ones stand behind them. -/
theorem keys_merge_eq (base : Entries κ ν) {overlay : Entries κ ν} (hoverlay : IsMap overlay) :
    keys (merge base overlay) = keys base ++ (keys overlay).filter (· ∉ keys base) := by
  induction overlay generalizing base with
  | nil => exact (List.append_nil _).symm
  | cons entry rest ih =>
    obtain ⟨k, v⟩ := entry
    have hcons : keys ((k, v) :: rest) = k :: keys rest := rfl
    obtain ⟨hnew, hrest⟩ := List.nodup_cons.mp (show (k :: keys rest).Nodup from hoverlay)
    rw [merge, ih _ hrest, keys_insert, hcons]
    by_cases hk : k ∈ keys base
    · rw [if_pos hk, List.filter_cons_of_neg (by simpa using hk)]
    · -- `k` is behind the others now, and none of the keys that follow is `k` again
      rw [if_neg hk, List.filter_cons_of_pos (by simpa using hk), List.append_assoc]
      refine congrArg (keys base ++ k :: ·) (List.filter_congr fun key hkey => ?_)
      have hne : key ≠ k := fun heq => hnew (heq ▸ hkey)
      simp [hne]

theorem merge_assoc {first second third : Entries κ ν} (hfirst : IsMap first)
    (hsecond : IsMap second) (hthird : IsMap third) :
    merge (merge first second) third = merge first (merge second third) := by
  have hmiddle : IsMap (merge second third) := nodup_keys_merge hsecond third
  refine ext_get? (nodup_keys_merge (nodup_keys_merge hfirst second) third) ?_ fun key => ?_
  · -- either way the third map's new keys are those that neither of the others has
    rw [keys_merge_eq _ hthird, keys_merge_eq _ hsecond, keys_merge_eq _ hmiddle,
      keys_merge_eq _ hthird,
      List.filter_append, List.filter_filter, List.append_assoc]
    refine congrArg (fun new => keys first ++ (_ ++ new)) (List.filter_congr fun key _ => ?_)
    by_cases hkey : key ∈ keys first <;> simp [hkey]
  · rw [get?_merge _ _ hthird, get?_merge _ _ hsecond, get?_merge _ _ hmiddle,
      get?_merge _ _ hthird,
      Option.or_assoc]

theorem nil_merge {entries : Entries κ ν} (h : IsMap entries) : merge [] entries = entries := by
  refine ext_get? (nodup_keys_merge isMap_nil entries) ?_ fun key => ?_
  · rw [keys_merge_eq _ h]
    exact List.filter_eq_self.mpr (by simp [keys])
  · rw [get?_merge _ _ h, get?_nil, Option.or_none]

theorem merge_self {entries : Entries κ ν} (h : IsMap entries) :
    merge entries entries = entries := by
  refine ext_get? (nodup_keys_merge h entries) ?_ fun key => ?_
  · rw [keys_merge_eq _ h, List.filter_eq_nil_iff.mpr (by simp), List.append_nil]
  · rw [get?_merge _ _ h, Option.or_self]

end Entries

open Entries (keys get? IsMap)

variable {κ ν α : Type} [DecidableEq κ]

/-- The laws of laying one map over another, for the maps that `entries` finds in values of some
type. -/
structure LaysOver (entries : α → Entries κ ν) (empty : α) (lay : α → α → α) : Prop where
  isMap_empty : IsMap (entries empty)
  isMap (base overlay : α) : IsMap (entries base) → IsMap (entries (lay base overlay))
  /-- The keys below stay in place, and the new ones stand behind them in their order. -/
  keys_eq (base overlay : α) : IsMap (entries overlay) → keys (entries (lay base overlay)) =
    keys (entries base) ++ (keys (entries overlay)).filter (· ∉ keys (entries base))
  get?_eq (base overlay : α) : IsMap (entries overlay) → ∀ key,
    get? (entries (lay base overlay)) key =
      (get? (entries overlay) key).or (get? (entries base) key)
  assoc (first second third : α) :
    IsMap (entries first) → IsMap (entries second) → IsMap (entries third) →
    lay (lay first second) third = lay first (lay second third)
  over_empty (overlay : α) : IsMap (entries overlay) → lay empty overlay = overlay
  empty_over (base : α) : lay base empty = base
  over_self (base : α) : IsMap (entries base) → lay base base = base

/-- Whatever is laid over another by merging its entries follows the laws. -/
theorem LaysOver.ofMerge {entries : α → Entries κ ν} (ofEntries : Entries κ ν → α)
    (hentries : ∀ map, entries (ofEntries map) = map)
    (hof : ∀ value, ofEntries (entries value) = value) :
    LaysOver entries (ofEntries []) fun base overlay =>
      ofEntries (Entries.merge (entries base) (entries overlay)) where
  isMap_empty := by
    rw [hentries]
    exact Entries.isMap_nil
  isMap base overlay h := by
    rw [hentries]
    exact Entries.nodup_keys_merge h (entries overlay)
  keys_eq base overlay h := by rw [hentries, Entries.keys_merge_eq _ h]
  get?_eq base overlay h key := by rw [hentries, Entries.get?_merge _ _ h]
  assoc first second third hfirst hsecond hthird := by
    rw [hentries, hentries, Entries.merge_assoc hfirst hsecond hthird]
  over_empty overlay h := by rw [hentries, Entries.nil_merge h, hof]
  empty_over base := by
    rw [hentries, Entries.merge, hof]
  over_self base h := by rw [Entries.merge_self h, hof]

end DescriptorSql
