/-!
# `Text/Quoted.lean` — quoted text and dotted paths

Quoted text stands between two quotes, with every quote inside it written twice. A dotted path is
cut at each dot; cutting and joining with the dot are inverse (`intercalate_splitAt`).
-/

set_option autoImplicit false

namespace DescriptorSql.Text

/-- Writes every occurrence of a character twice. -/
def double (mark : Char) (cs : List Char) : List Char :=
  cs.flatMap fun c => if c = mark then [c, c] else [c]

/-- The text between two quotes, its own quotes doubled. -/
def enclose (quote : Char) (cs : List Char) : List Char :=
  quote :: double quote cs ++ [quote]

/-- The pieces of a text between the occurrences of a separator; there is always at least one. -/
def splitAt (separator : Char) : List Char → List (List Char)
  | [] => [[]]
  | c :: cs =>
    if c = separator then [] :: splitAt separator cs
    else
      match splitAt separator cs with
      | [] => [[c]]
      | piece :: rest => (c :: piece) :: rest

@[simp] theorem double_nil (mark : Char) : double mark [] = [] := rfl

theorem double_cons (mark c : Char) (cs : List Char) :
    double mark (c :: cs) = (if c = mark then [c, c] else [c]) ++ double mark cs := rfl

theorem double_append (mark : Char) (as bs : List Char) :
    double mark (as ++ bs) = double mark as ++ double mark bs := by
  simp [double]

theorem splitAt_ne_nil (separator : Char) (cs : List Char) : splitAt separator cs ≠ [] := by
  cases cs with
  | nil => simp [splitAt]
  | cons c cs =>
    rw [splitAt]
    split
    · simp
    · split <;> simp

/-- Joining the pieces with the separator gives the text back. -/
theorem intercalate_splitAt (separator : Char) (cs : List Char) :
    [separator].intercalate (splitAt separator cs) = cs := by
  induction cs with
  | nil => rfl
  | cons c cs ih =>
    rw [splitAt]
    obtain ⟨piece, rest, hsplit⟩ := List.exists_cons_of_ne_nil (splitAt_ne_nil separator cs)
    rw [hsplit] at ih ⊢
    split
    · next hc => rw [List.intercalate_cons_cons, ih, hc]; rfl
    · cases rest with
      | nil => simpa using ih
      | cons next rest =>
        rw [List.intercalate_cons_cons] at ih
        simp only [List.intercalate_cons_cons, List.cons_append, ih]

theorem splitAt_of_not_mem {separator : Char} {cs : List Char} (h : separator ∉ cs) :
    splitAt separator cs = [cs] := by
  induction cs with
  | nil => rfl
  | cons c cs ih =>
    rw [List.mem_cons, not_or] at h
    rw [splitAt, if_neg (Ne.symm h.1), ih h.2]

/-- The text up to the first separator is the first piece. -/
theorem splitAt_append {separator : Char} {cs : List Char} (h : separator ∉ cs) (rest : List Char) :
    splitAt separator (cs ++ separator :: rest) = cs :: splitAt separator rest := by
  induction cs with
  | nil => rw [List.nil_append, splitAt, if_pos rfl]
  | cons c cs ih =>
    rw [List.mem_cons, not_or] at h
    rw [List.cons_append, splitAt, if_neg (Ne.symm h.1), ih h.2]

end DescriptorSql.Text
