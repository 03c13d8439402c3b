import DescriptorSql.Proofs.Compile.Alike
import DescriptorSql.Proofs.Reading.Condition

/-!
# `Proofs/Reading/Atom.lean` — comparisons and subqueries are atoms

A comparison and a subquery behind its keyword begin like an atom (`Leads`), and a text that does is
one factor as long as no AND cuts it. Only a BETWEEN has an AND in it, and it is the one that the
BETWEEN waits for (`Unbroken`).
-/

set_option autoImplicit false

namespace DescriptorSql

open Sql (Alike Grade isPlainName Conjoins items? leadsAtom)

/-! ## Texts that begin like atoms -/

/-- The text can be read, and begins like an atom. -/
def Leads (text : String) : Prop := ∃ items, items? text = some items ∧ leadsAtom items = true

def leadsText (text : String) : Bool := (items? text).any leadsAtom

namespace Leads

variable {a b : String}

theorem ofText (h : leadsText a = true) : Leads a := by
  unfold leadsText at h
  cases hitems : items? a with
  | none => simp [hitems] at h
  | some items => exact ⟨items, hitems, by simpa [hitems] using h⟩

/-- How a text begins does not depend on what is put behind it. -/
theorem append (ha : Leads a) (hb : Alike .closed b b) (hseam : Sql.Seam a b) : Leads (a ++ b) := by
  obtain ⟨as, has, hleads⟩ := ha
  obtain ⟨bs, hbs, -⟩ := hb.items
  refine ⟨as ++ bs, ?_, Sql.leadsAtom_append hleads bs⟩
  rw [items?, String.toList_append]
  exact Sql.ofChars?_append has hbs hseam

theorem name {field : String} (hfield : isPlainName field = true) (h : Leads a)
    (hseam : Sql.Seam (Sql.identifier field) a) : Leads (Sql.identifier field ++ a) := by
  obtain ⟨fs, hfs, hnominal⟩ := Sql.nominal_identifier hfield
  obtain ⟨as, has, hleads⟩ := h
  refine ⟨fs ++ as, ?_, Sql.leadsAtom_nominal hnominal hleads⟩
  rw [items?, String.toList_append]
  exact Sql.ofChars?_append hfs has hseam

/-- An inert text that begins like an atom is an atom, since no AND in it is left to cut it. -/
theorem conjoins (h : Leads a) (ha : Alike .inert b a) : Conjoins a [.atom (Text.trim a)] := by
  obtain ⟨items, hitems, hleads⟩ := h
  obtain ⟨items', hitems', hallows⟩ := ha.items
  rw [hitems] at hitems'
  cases hitems'
  exact Sql.conjoins_inert hitems hallows hleads

/-- A comparison begins with the name of its column, which no atom is told apart from. -/
theorem comparison {field : String} (hfield : isPlainName field = true) (operator : Operator)
    (ha : Alike .closed a a) : Leads (comparisonText field operator a) := by
  have hoperator : Leads (" " ++ operator.sql ++ " ") ∧
      Sql.isGlue (" " ++ operator.sql ++ " ") = true := by
    cases operator <;> exact ⟨.ofText (by decide +kernel), by decide⟩
  have htext : comparisonText field operator a =
      Sql.identifier field ++ (" " ++ operator.sql ++ " " ++ a) := by
    simp only [comparisonText, String.append_assoc]
  rw [htext]
  exact (hoperator.1.append ha (.behind hoperator.2)).name hfield (.before hoperator.2)

end Leads

/-! ## Calls -/

/-- The text is a keyword and a group. -/
def IsCall (keyword text : String) : Prop :=
  ∃ inner, Alike .closed inner inner ∧ text = keyword ++ "(" ++ inner ++ ")"

namespace IsCall

variable {keyword text : String}

/-- What is in the parentheses does not matter, so a call is as inert as its keyword. -/
theorem inert (h : IsCall keyword text) (hkeyword : Alike .inert keyword keyword) :
    Alike .inert text text := by
  obtain ⟨inner, hinner, rfl⟩ := h
  exact hkeyword.call hinner

theorem leads (h : IsCall keyword text) (hkeyword : Leads keyword) : Leads text := by
  obtain ⟨inner, hinner, rfl⟩ := h
  have htext : keyword ++ "(" ++ inner ++ ")" = keyword ++ ("(" ++ inner ++ ")") := by
    simp only [String.append_assoc]
  rw [htext]
  exact hkeyword.append hinner.parenthesized.toClosed
    (Or.inl (by simp [Sql.startsApart, Sql.isSeparator]))

/-- A call behind another text is a call of both together. -/
theorem append (h : IsCall keyword text) (front : String) :
    IsCall (front ++ keyword) (front ++ text) := by
  obtain ⟨inner, hinner, rfl⟩ := h
  exact ⟨inner, hinner, by simp only [String.append_assoc]⟩

end IsCall

/-! ## Texts without an AND of their own -/

/-- No AND cuts the text, and an AND is awaited for a BETWEEN before and after it, or is not. -/
def Unbroken (before after : Bool) (text : String) : Prop :=
  ∃ items, items? text = some items ∧ Sql.awaitsAnd before items = after ∧
    Sql.cut Sql.endsFactor before (Sql.parts items) = [Sql.parts items]

def unbrokenText (before after : Bool) (text : String) : Bool :=
  (items? text).any fun items => Sql.awaitsAnd before items == after &&
    (Sql.cut Sql.endsFactor before (Sql.parts items)).length == 1

namespace Unbroken

variable {first second third fourth : Bool} {a b text : String}

theorem ofInert (h : Alike .inert b a) (awaiting : Bool) : Unbroken awaiting awaiting a :=
  let ⟨items, hitems, hallows⟩ := h.items
  ⟨items, hitems, hallows.awaitsAnd awaiting, Sql.cut_of_inert hallows awaiting⟩

/-- Of a text that is written out, this is computed. -/
theorem ofText (h : unbrokenText first second text = true) : Unbroken first second text := by
  unfold unbrokenText at h
  cases hitems : items? text with
  | none => simp [hitems] at h
  | some items =>
    simp only [hitems, Option.any_some, Bool.and_eq_true, beq_iff_eq] at h
    exact ⟨items, hitems, h.1, Sql.cut_eq_of_length h.2⟩

theorem append (ha : Unbroken first second a) (hb : Unbroken second third b)
    (hseam : Sql.Seam a b) : Unbroken first third (a ++ b) := by
  obtain ⟨as, has, hawaitsa, hcuta⟩ := ha
  obtain ⟨bs, hbs, hawaitsb, hcutb⟩ := hb
  refine ⟨as ++ bs, ?_, by rw [Sql.awaitsAnd_append, hawaitsa, hawaitsb], ?_⟩
  · rw [items?, String.toList_append]
    exact Sql.ofChars?_append has hbs hseam
  · rw [Sql.parts_append]
    exact Sql.cut_append hcuta (by rwa [Sql.parts_fst, hawaitsa])

/-- A text that keeps both sides apart may stand between unbroken ones. -/
theorem glue (ha : Unbroken first second a) (htext : Unbroken second third text)
    (hb : Unbroken third fourth b) (hglue : Sql.isGlue text = true) :
    Unbroken first fourth (a ++ text ++ b) := by
  rw [String.append_assoc]
  exact ha.append (htext.append hb (.behind hglue)) (.before hglue)

end Unbroken

/-! ## Atoms -/

section

variable {field : String} {operator : Operator}

/-- A comparison that is not a range is one atom of the condition. -/
theorem conjoins_comparisonText (hfield : isPlainName field = true)
    (hrange : operator.isRange = false) {a b : String} (h : Alike .inert b a) :
    Conjoins (comparisonText field operator a)
      [.atom (Text.trim (comparisonText field operator a))] :=
  (Leads.comparison hfield operator h.toClosed.right).conjoins
    (alike_comparisonText hfield hrange h.right)

/-- A range is one atom as well: the AND between its bounds ends the BETWEEN and no factor. -/
theorem conjoins_rangeText (hfield : isPlainName field = true) (hrange : operator.isRange = true)
    {low low' high high' : String} (hlow : Alike .inert low' low)
    (hhigh : Alike .inert high' high) :
    Conjoins (comparisonText field operator (low ++ " AND " ++ high))
      [.atom (Text.trim (comparisonText field operator (low ++ " AND " ++ high)))] := by
  have hoperator : Unbroken false true (" " ++ operator.sql ++ " ") ∧
      Sql.isGlue (" " ++ operator.sql ++ " ") = true := by
    cases operator with
    | between | notBetween => exact ⟨.ofText (by decide +kernel), by decide⟩
    | _ => cases hrange
  have hand : Unbroken true false " AND " := .ofText (by decide +kernel)
  have hbounds : Alike .closed (low ++ " AND " ++ high) (low ++ " AND " ++ high) :=
    hlow.toClosed.right.glue hhigh.toClosed.right
      (show Grade.closed.separates " AND " = true by decide +kernel)
  -- BETWEEN waits for an AND, the AND between the bounds is the one, and nothing waits behind it
  have hunbroken := (Unbroken.ofInert (Sql.alike_identifier hfield) false).glue hoperator.1
    ((Unbroken.ofInert hlow true).glue hand (.ofInert hhigh false) (by decide)) hoperator.2
  rw [show Sql.identifier field ++ (" " ++ operator.sql ++ " ") ++ (low ++ " AND " ++ high) =
    comparisonText field operator (low ++ " AND " ++ high) by
      simp only [comparisonText, String.append_assoc]] at hunbroken
  obtain ⟨items, hitems, hleads⟩ := Leads.comparison hfield operator hbounds
  obtain ⟨items', hitems', hallows⟩ := (alike_rangeText hfield hrange hlow.right hhigh.right).items
  obtain ⟨items'', hitems'', -, hcut⟩ := hunbroken
  rw [hitems] at hitems' hitems''
  cases hitems'
  cases hitems''
  exact Sql.conjoins_atom hitems hallows hleads hcut

end

end DescriptorSql
