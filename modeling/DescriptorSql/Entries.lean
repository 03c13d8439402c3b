/-!
# `Entries.lean` — insertion-ordered maps

Everything a descriptor names is kept in the order it was written: columns, conditions, joins,
catalog entries. The container is therefore a list of key-value pairs in which each key stands once.
`insert` is the one way to write: a key that is present keeps its place and takes the new value, a
new key goes to the end. `merge` lays one map over another by inserting its entries one by one.

The lemmas here say what `insert` and `merge` do to the two views of a map, its keys and its
look-up.
-/

set_option autoImplicit false

namespace DescriptorSql

/-- An insertion-ordered map as its list of entries. -/
abbrev Entries (κ ν : Type) := List (κ × ν)

namespace Entries

variable {κ ν : Type}

def keys (entries : Entries κ ν) : List κ := entries.map Prod.fst

/-- The values, in the order of their keys. -/
def values (entries : Entries κ ν) : List ν := entries.map Prod.snd

variable [DecidableEq κ]

def get? : Entries κ ν → κ → Option ν
  | [], _ => none
  | (k, v) :: rest, key => if k = key then some v else get? rest key

/-- Stores a value; a key that is present keeps its place. -/
def insert : Entries κ ν → κ → ν → Entries κ ν
  | [], key, value => [(key, value)]
  | (k, v) :: rest, key, value =>
    if k = key then (k, value) :: rest else (k, v) :: insert rest key value

/-- Lays the second map over the first. -/
def merge : Entries κ ν → Entries κ ν → Entries κ ν
  | base, [] => base
  | base, (k, v) :: rest => merge (insert base k v) rest

/-! ## Look-up after a write -/

@[simp] theorem get?_nil (key : κ) : get? ([] : Entries κ ν) key = none := rfl

theorem get?_insert (entries : Entries κ ν) (key other : κ) (value : ν) :
    get? (insert entries key value) other =
      if key = other then some value else get? entries other := by
  induction entries with
  | nil => simp [insert, get?]
  | cons entry rest ih =>
    obtain ⟨k, v⟩ := entry
    by_cases hk : k = key
    · subst hk; by_cases ho : k = other <;> simp [insert, get?, ho]
    · by_cases ho : k = other
      · subst ho; simp [insert, get?, hk, Ne.symm hk]
      · simp [insert, get?, hk, ho, ih]

theorem get?_merge (base overlay : Entries κ ν) (hnodup : (keys overlay).Nodup) (key : κ) :
    get? (merge base overlay) key = (get? overlay key).or (get? base key) := by
  induction overlay generalizing base with
  | nil => simp [merge]
  | cons entry rest ih =>
    obtain ⟨k, v⟩ := entry
    simp only [keys, List.map_cons, List.nodup_cons] at hnodup
    rw [merge, ih (insert base k v) hnodup.2, get?_insert]
    by_cases hk : k = key
    · subst hk
      have : get? rest k = none := by
        have hmem := hnodup.1
        clear ih hnodup
        induction rest with
        | nil => rfl
        | cons e r ih' =>
          simp only [List.map_cons, List.mem_cons, not_or] at hmem
          simp [get?, Ne.symm hmem.1, ih' hmem.2]
      simp [get?, this]
    · simp [get?, hk]

/-! ## Entries after a write -/

theorem mem_of_get? {entries : Entries κ ν} {key : κ} {value : ν}
    (h : get? entries key = some value) : (key, value) ∈ entries := by
  induction entries with
  | nil => cases h
  | cons entry rest ih =>
    obtain ⟨k, v⟩ := entry
    rw [get?] at h
    split at h
    · next hk =>
      cases h
      exact hk ▸ List.mem_cons_self
    · exact List.mem_cons_of_mem _ (ih h)

theorem get?_eq_some_iff {entries : Entries κ ν} (hnodup : (keys entries).Nodup) {key : κ}
    {value : ν} : get? entries key = some value ↔ (key, value) ∈ entries := by
  refine ⟨mem_of_get?, fun h => ?_⟩
  induction entries with
  | nil => cases h
  | cons entry rest ih =>
    obtain ⟨k, v⟩ := entry
    rw [keys, List.map_cons, List.nodup_cons] at hnodup
    rw [get?]
    rcases List.mem_cons.mp h with h | h
    · cases h
      exact if_pos rfl
    · have hne : k ≠ key := fun hk => hnodup.1 (List.mem_map.mpr ⟨(key, value), h, hk.symm⟩)
      rw [if_neg hne]
      exact ih hnodup.2 h

/-- The order of the entries makes no difference to look-ups. -/
theorem get?_eq_of_perm {first second : Entries κ ν} (hnodup : (keys first).Nodup)
    (hperm : first.Perm second) (key : κ) : get? first key = get? second key := by
  have hnodup' : (keys second).Nodup := (hperm.map Prod.fst).nodup hnodup
  apply Option.ext
  intro value
  rw [get?_eq_some_iff hnodup, get?_eq_some_iff hnodup', hperm.mem_iff]

/-- Entries under other keys make no difference to a look-up. -/
theorem get?_filter (p : κ → Bool) (entries : Entries κ ν) {key : κ} (hkey : p key = true) :
    get? (entries.filter fun entry => p entry.1) key = get? entries key := by
  induction entries with
  | nil => rfl
  | cons entry rest ih =>
    obtain ⟨k, v⟩ := entry
    rw [List.filter_cons, get?]
    by_cases hk : k = key
    · rw [if_pos hk, if_pos (hk ▸ hkey), get?, if_pos hk]
    · rw [if_neg hk, ← ih]
      split
      · rw [get?, if_neg hk]
      · rfl

theorem mem_or_eq_of_mem_insert {entries : Entries κ ν} {key : κ} {value : ν} {entry : κ × ν}
    (h : entry ∈ insert entries key value) : entry ∈ entries ∨ entry = (key, value) := by
  induction entries with
  | nil => exact Or.inr (List.mem_singleton.mp h)
  | cons first rest ih =>
    obtain ⟨k, v⟩ := first
    rw [insert] at h
    split at h
    · next hk =>
      rcases List.mem_cons.mp h with rfl | h
      · exact Or.inr (hk ▸ rfl)
      · exact Or.inl (List.mem_cons_of_mem _ h)
    · rcases List.mem_cons.mp h with rfl | h
      · exact Or.inl List.mem_cons_self
      · exact (ih h).imp_left (List.mem_cons_of_mem _)

theorem mem_or_mem_of_mem_merge {base overlay : Entries κ ν} {entry : κ × ν}
    (h : entry ∈ merge base overlay) : entry ∈ base ∨ entry ∈ overlay := by
  induction overlay generalizing base with
  | nil => exact Or.inl h
  | cons first rest ih =>
    obtain ⟨k, v⟩ := first
    rcases ih h with h | h
    · rcases mem_or_eq_of_mem_insert h with h | rfl
      · exact Or.inl h
      · exact Or.inr List.mem_cons_self
    · exact Or.inr (List.mem_cons_of_mem _ h)

theorem mem_insert_self (entries : Entries κ ν) (key : κ) (value : ν) :
    (key, value) ∈ insert entries key value := by
  induction entries with
  | nil => exact List.mem_cons_self
  | cons entry rest ih =>
    obtain ⟨k, v⟩ := entry
    rw [insert]
    split
    · next hk => exact hk ▸ List.mem_cons_self
    · exact List.mem_cons_of_mem _ ih

theorem mem_insert_of_ne {entries : Entries κ ν} {key : κ} {entry : κ × ν} (value : ν)
    (h : entry ∈ entries) (hne : entry.1 ≠ key) : entry ∈ insert entries key value := by
  induction entries with
  | nil => cases h
  | cons first rest ih =>
    obtain ⟨k, v⟩ := first
    rw [insert]
    rcases List.mem_cons.mp h with rfl | h
    · rw [if_neg hne]
      exact List.mem_cons_self
    · split
      · exact List.mem_cons_of_mem _ h
      · exact List.mem_cons_of_mem _ (ih h)

/-- An entry stays if its key is not written again. -/
theorem mem_merge_of_not_mem_keys {base overlay : Entries κ ν} {entry : κ × ν} (h : entry ∈ base)
    (hkey : entry.1 ∉ keys overlay) : entry ∈ merge base overlay := by
  induction overlay generalizing base with
  | nil => exact h
  | cons first rest ih =>
    obtain ⟨k, v⟩ := first
    rw [keys, List.map_cons, List.mem_cons, not_or] at hkey
    exact ih (mem_insert_of_ne v h hkey.1) hkey.2

theorem merge_append (base first second : Entries κ ν) :
    merge base (first ++ second) = merge (merge base first) second := by
  induction first generalizing base with
  | nil => rfl
  | cons entry rest ih => exact ih _

/-- Laying several maps over one, one after the other, is laying all their entries over it. -/
theorem foldl_merge (base : Entries κ ν) (overlays : List (Entries κ ν)) :
    overlays.foldl merge base = merge base overlays.flatten := by
  induction overlays generalizing base with
  | nil => rfl
  | cons overlay rest ih => rw [List.foldl_cons, ih, List.flatten_cons, merge_append]

/-- Laying maps over each other makes no entries. -/
theorem exists_of_mem_foldl_merge {base : Entries κ ν} {overlays : List (Entries κ ν)}
    {entry : κ × ν} (h : entry ∈ overlays.foldl merge base) :
    ∃ layer ∈ base :: overlays, entry ∈ layer := by
  rw [foldl_merge] at h
  rcases mem_or_mem_of_mem_merge h with h | h
  · exact ⟨base, List.mem_cons_self, h⟩
  · obtain ⟨overlay, hoverlay, h⟩ := List.mem_flatten.mp h
    exact ⟨overlay, List.mem_cons_of_mem base hoverlay, h⟩

/-! ## Changing values -/

theorem insert_map {ω : Type} (f : κ → ν → ω) (entries : Entries κ ν) (key : κ) (value : ν) :
    insert (entries.map fun (k, v) => (k, f k v)) key (f key value) =
      (insert entries key value).map fun (k, v) => (k, f k v) := by
  induction entries with
  | nil => rfl
  | cons entry rest ih =>
    obtain ⟨k, v⟩ := entry
    by_cases hk : k = key
    · subst hk; simp [insert]
    · simp [insert, hk, ih]

/-- Changing every value, each by its key, before or after a merge is the same. -/
theorem merge_map {ω : Type} (f : κ → ν → ω) (base overlay : Entries κ ν) :
    merge (base.map fun (k, v) => (k, f k v)) (overlay.map fun (k, v) => (k, f k v)) =
      (merge base overlay).map fun (k, v) => (k, f k v) := by
  induction overlay generalizing base with
  | nil => rfl
  | cons entry rest ih =>
    obtain ⟨k, v⟩ := entry
    rw [List.map_cons, merge, merge, insert_map, ih]

/-! ## Keys after a write -/

theorem keys_insert (entries : Entries κ ν) (key : κ) (value : ν) :
    keys (insert entries key value) =
      if key ∈ keys entries then keys entries else keys entries ++ [key] := by
  induction entries with
  | nil => simp [insert, keys]
  | cons entry rest ih =>
    obtain ⟨k, v⟩ := entry
    by_cases hk : k = key
    · simp [insert, keys, hk]
    · have hne : ¬ key = k := fun h => hk h.symm
      have hcons : keys ((k, v) :: rest) = k :: keys rest := rfl
      rw [insert, if_neg hk, hcons, show keys ((k, v) :: insert rest key value) =
        k :: keys (insert rest key value) from rfl, ih]
      by_cases hm : key ∈ keys rest <;> simp [hm, hne]

theorem nodup_keys_insert {entries : Entries κ ν} (hnodup : (keys entries).Nodup) (key : κ)
    (value : ν) : (keys (insert entries key value)).Nodup := by
  rw [keys_insert]
  split
  · exact hnodup
  · next hmem =>
    rw [List.nodup_append]
    exact ⟨hnodup, by simp, fun a ha b hb => by
      rw [List.mem_singleton] at hb
      exact fun hab => hmem (hb ▸ hab ▸ ha)⟩

theorem nodup_keys_merge {base : Entries κ ν} (hnodup : (keys base).Nodup)
    (overlay : Entries κ ν) : (keys (merge base overlay)).Nodup := by
  induction overlay generalizing base with
  | nil => exact hnodup
  | cons entry rest ih => exact ih (nodup_keys_insert hnodup entry.1 entry.2)

end Entries

end DescriptorSql
