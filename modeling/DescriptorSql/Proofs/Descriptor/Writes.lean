import DescriptorSql.Entries
import Mathlib.Data.List.Nodup

/-!
# `Proofs/Descriptor/Writes.lean` — what a sequence of writes leaves behind

Columns and conditions are collected by writing them into one map, and a key may be written more
than once. A map that is laid over another one leaves every key where it was written first and with
what was written last under it (`Entries.leftBy_merge`). This is all there is to say about the
result, since a map has no more than its keys in order and a value for each of them.
-/

set_option autoImplicit false

namespace DescriptorSql.Entries

variable {κ ν : Type} [DecidableEq κ]

/-- The value that is written last under a key. -/
def lastWritten : List (κ × ν) → κ → Option ν
  | [], _ => none
  | (k, v) :: rest, key => (lastWritten rest key).or (if k = key then some v else none)

theorem lastWritten_append (first second : List (κ × ν)) (key : κ) :
    lastWritten (first ++ second) key = (lastWritten second key).or (lastWritten first key) := by
  induction first with
  | nil => simp [lastWritten]
  | cons write rest ih =>
    obtain ⟨k, v⟩ := write
    rw [List.cons_append, lastWritten, ih, lastWritten, Option.or_assoc]

theorem lastWritten_eq_none {writes : List (κ × ν)} {key : κ} (h : key ∉ keys writes) :
    lastWritten writes key = none := by
  induction writes with
  | nil => rfl
  | cons write rest ih =>
    obtain ⟨k, v⟩ := write
    simp only [keys, List.map_cons, List.mem_cons, not_or] at h
    rw [lastWritten, ih h.2, if_neg (Ne.symm h.1)]
    rfl

/-- In a map every key is written once, so what is looked up is what was written last. -/
theorem get?_eq_lastWritten {entries : Entries κ ν} (hnodup : (keys entries).Nodup) (key : κ) :
    get? entries key = lastWritten entries key := by
  induction entries with
  | nil => rfl
  | cons entry rest ih =>
    obtain ⟨k, v⟩ := entry
    simp only [keys, List.map_cons, List.nodup_cons] at hnodup
    rw [get?, lastWritten]
    by_cases hk : k = key
    · subst hk
      rw [if_pos rfl, if_pos rfl, lastWritten_eq_none hnodup.1]
      rfl
    · rw [if_neg hk, if_neg hk, Option.or_none]
      exact ih hnodup.2

/-- A list without duplicates is its own first occurrences. -/
theorem eraseDups_eq_self {items : List κ} (hnodup : items.Nodup) : items.eraseDups = items := by
  induction items with
  | nil => rfl
  | cons item rest ih =>
    rw [List.nodup_cons] at hnodup
    have hfilter : rest.filter (fun other => !other == item) = rest := by
      rw [List.filter_eq_self]
      intro other hother
      have hne : other ≠ item := fun heq => hnodup.1 (heq ▸ hother)
      simp [hne]
    rw [List.eraseDups_cons, hfilter, ih hnodup.2]

/-- A key that is written again leaves the keys as they are, and a new one goes to the end. -/
theorem keys_merge {base : Entries κ ν} (hnodup : (keys base).Nodup) (overlay : Entries κ ν) :
    keys (merge base overlay) = (keys base ++ keys overlay).eraseDups := by
  induction overlay generalizing base with
  | nil =>
    have hnil : keys ([] : Entries κ ν) = [] := rfl
    rw [merge, hnil, List.append_nil, eraseDups_eq_self hnodup]
  | cons entry rest ih =>
    obtain ⟨k, v⟩ := entry
    have hcons : keys ((k, v) :: rest) = k :: keys rest := rfl
    rw [merge, ih (nodup_keys_insert hnodup k v), keys_insert, hcons]
    split
    · next hmem =>
      rw [List.eraseDups_append, List.eraseDups_append]
      congr 2
      simp [List.removeAll, hmem]
    · rw [List.append_assoc]
      rfl

theorem get?_merge_eq_lastWritten {base : Entries κ ν} (hnodup : (keys base).Nodup)
    (overlay : Entries κ ν) (key : κ) :
    get? (merge base overlay) key = lastWritten (base ++ overlay) key := by
  induction overlay generalizing base with
  | nil =>
    rw [List.append_nil]
    exact get?_eq_lastWritten hnodup key
  | cons entry rest ih =>
    obtain ⟨k, v⟩ := entry
    have hinsert := nodup_keys_insert hnodup k v
    -- the write goes to its key in the map, and comes behind all the others in the sequence
    have hwrite : lastWritten (insert base k v) key = lastWritten (base ++ [(k, v)]) key := by
      rw [← get?_eq_lastWritten hinsert, get?_insert, lastWritten_append, lastWritten, lastWritten,
        get?_eq_lastWritten hnodup]
      by_cases hk : k = key
      · simp [hk]
      · simp [hk]
    rw [merge, ih hinsert, lastWritten_append, hwrite, ← lastWritten_append, List.append_assoc]
    rfl

/-- What a sequence of writes leaves behind: the keys by their first occurrences, and under each of
them what was written last. -/
structure LeftBy (writes entries : List (κ × ν)) : Prop where
  keys : keys entries = (keys writes).eraseDups
  get? (key : κ) : get? entries key = lastWritten writes key

theorem leftBy_merge {base : Entries κ ν} (hnodup : (keys base).Nodup) (overlay : Entries κ ν) :
    LeftBy (base ++ overlay) (merge base overlay) where
  keys := by
    rw [keys_merge hnodup, keys, keys, keys, List.map_append]
  get? := get?_merge_eq_lastWritten hnodup overlay

end DescriptorSql.Entries
