import DescriptorSql.CharClass.Uppercase

/-!
# `Sql/Raw.lean` — text that is SQL already

A marker at the front of a string says that the rest is SQL and is to be written as it stands. The
marker is not a thing anyone types, so no ordinary name or value is taken for SQL.
-/

set_option autoImplicit false

namespace DescriptorSql.Sql

/-- The mark in front of raw SQL. -/
def rawMarker : List Char := ['\x00', 'r', 'a', 'w', '\x00']

/-- Marks a text as SQL. -/
def raw (sql : String) : String := String.ofList (rawMarker ++ sql.toList)

/-- The SQL behind the marker, if the text starts with it. -/
def stripRaw? (s : String) : Option String :=
  match s.toList with
  | '\x00' :: 'r' :: 'a' :: 'w' :: '\x00' :: sql => some (String.ofList sql)
  | _ => none

@[simp] theorem stripRaw?_raw (sql : String) : stripRaw? (raw sql) = some sql := by
  simp [stripRaw?, raw, rawMarker]

theorem stripRaw?_eq_some_iff {s sql : String} : stripRaw? s = some sql ↔ s = raw sql := by
  constructor
  · intro h
    unfold stripRaw? at h
    split at h
    · next cs hcs =>
      rw [← String.toList_inj, hcs, raw, String.toList_ofList, rawMarker, ← Option.some.inj h,
        String.toList_ofList]
      rfl
    · simp at h
  · rintro rfl
    exact stripRaw?_raw sql

/-- The text in upper case. -/
def upperText (s : String) : String := String.ofList (s.toList.flatMap CharClass.uppercase)

end DescriptorSql.Sql
