import DescriptorSql.Proofs.Lexical.Word
import DescriptorSql.Proofs.Reading.Formula

/-!
# `Proofs/Reading/Condition.lean` — reading a condition

How the database reads a condition: OR binds weakest, then AND, then NOT, and a group in parentheses
is read on its own. Everything else is an atom, a comparison or a subquery behind its keyword, and
its content is its text. Two words need care. The AND of a BETWEEN belongs to the atom, so the
reader keeps track of whether one is awaited. And a NOT in front of IN, LIKE, ILIKE or BETWEEN
belongs to that operator.
-/

set_option autoImplicit false

namespace DescriptorSql.Sql

/-! ## The reader -/

/-- An item, and the condition in it if it is a group. -/
abbrev Part := Item × Option (Formula String)

/-- The parts between those at which a piece ends. Whether one does may depend on whether an AND is
awaited. -/
def cut (ends : Bool → Item → Bool) : Bool → List Part → List (List Part)
  | _, [] => [[]]
  | pending, part :: rest =>
    if ends pending part.1 then [] :: cut ends (part.1.awaitsAnd pending) rest
    else
      match cut ends (part.1.awaitsAnd pending) rest with
      | [] => [[part]]
      | piece :: others => (part :: piece) :: others

/-- An OR ends a term. -/
def endsTerm (_ : Bool) (item : Item) : Bool := item.isKeyword "OR"

/-- An AND ends a factor, unless a BETWEEN awaits it. -/
def endsFactor (pending : Bool) (item : Item) : Bool := item.isKeyword "AND" && !pending

def Item.isGroup : Item → Bool
  | .group _ => true
  | _ => false

/-- The first thing that is no blank is an operator that may have a NOT in front. -/
def leadsOperator : List Part → Bool
  | [] => false
  | part :: rest =>
    if part.1.isBlank then leadsOperator rest
    else part.1.isOneOf ["IN", "LIKE", "ILIKE", "BETWEEN"]

def atomText (parts : List Part) : String :=
  String.ofList (textOf (dropTrailingBlanks (parts.map Prod.fst)))

/-- What stands between two connectives: a negation, a group or an atom. -/
def factor : List Part → Option (Formula String)
  | [] => none
  | part :: rest =>
    if part.1.isBlank then factor rest
    else if part.1.isKeyword "NOT" && !leadsOperator rest then .negation <$> factor rest
    else if part.1.isGroup && rest.all (·.1.isBlank) then part.2
    else some (.atom (atomText (part :: rest)))

def factors (parts : List Part) : Option (List (Formula String)) :=
  (cut endsFactor false parts).mapM factor

def term (parts : List Part) : Option (Formula String) :=
  (factors parts).bind Connective.and.chain

def terms (parts : List Part) : Option (List (Formula String)) :=
  (cut endsTerm false parts).mapM term

def disjunction (parts : List Part) : Option (Formula String) :=
  (terms parts).bind Connective.or.chain

mutual

def Item.part : Item → Part
  | .group items => (.group items, disjunction (parts items))
  | item => (item, none)

def parts : List Item → List Part
  | [] => []
  | item :: rest => item.part :: parts rest

end

/-- The condition that a text says. -/
def readCondition? (text : String) : Option (Formula String) :=
  (items? text).bind fun items => disjunction (parts items)

/-! ## Parts -/

/-- Every item is a part of its own, whatever stands around it. -/
theorem parts_append (as bs : List Item) : parts (as ++ bs) = parts as ++ parts bs := by
  induction as with
  | nil => rfl
  | cons item rest ih => rw [List.cons_append, parts, ih, parts, List.cons_append]

@[simp] theorem part_fst (item : Item) : item.part.1 = item := by
  cases item <;> rfl

@[simp] theorem parts_fst (items : List Item) : (parts items).map Prod.fst = items := by
  induction items with
  | nil => rfl
  | cons item rest ih => rw [parts, List.map_cons, part_fst, ih]

/-- A part is an item of the text, with what is read from its group. -/
theorem mem_of_mem_parts {items : List Item} {part : Part} (h : part ∈ parts items) :
    part.1 ∈ items := by
  rw [← parts_fst items]
  exact List.mem_map_of_mem h

/-! ## Cutting -/

section

variable {ends : Bool → Item → Bool}

/-- There is one piece more than there are ends, so there is one at least. -/
theorem cut_ne_nil (pending : Bool) (parts : List Part) : cut ends pending parts ≠ [] := by
  cases parts with
  | nil => simp [cut]
  | cons part rest =>
    rw [cut]
    split
    · simp
    · split <;> simp

/-- An item that ends nothing goes to the first piece. -/
theorem cut_cons_of_not {pending : Bool} {part : Part} {rest piece : List Part}
    {others : List (List Part)} (hpart : ends pending part.1 = false)
    (hrest : cut ends (part.1.awaitsAnd pending) rest = piece :: others) :
    cut ends pending (part :: rest) = (part :: piece) :: others := by
  rw [cut, if_neg (by simp [hpart]), hrest]

/-- At an item that ends a piece the parts are cut, and what is behind it is cut on its own. -/
theorem cut_append_cons {pending : Bool} {as : List Part} {separator : Part} (bs : List Part)
    (hends : ends (awaitsAnd pending (as.map Prod.fst)) separator.1 = true) :
    cut ends pending (as ++ separator :: bs) =
      cut ends pending as ++
        cut ends (separator.1.awaitsAnd (awaitsAnd pending (as.map Prod.fst))) bs := by
  induction as generalizing pending with
  | nil =>
    have hends : ends pending separator.1 = true := hends
    simp [cut, hends, awaitsAnd]
  | cons part rest ih =>
    have hrest := @ih (part.1.awaitsAnd pending) hends
    -- either a piece ends here, or the part goes in front of the first piece of the rest
    by_cases hpart : ends pending part.1 = true
    · rw [List.cons_append, cut, if_pos hpart, hrest, cut, if_pos hpart]
      rfl
    · rw [Bool.not_eq_true] at hpart
      obtain ⟨piece, others, hpieces⟩ :=
        List.exists_cons_of_ne_nil (@cut_ne_nil ends (part.1.awaitsAnd pending) rest)
      rw [hpieces, List.cons_append] at hrest
      rw [List.cons_append, cut_cons_of_not hpart hrest, cut_cons_of_not hpart hpieces]
      rfl

/-- Nothing is cut in two texts in a row if nothing is cut in either. -/
theorem cut_append {pending : Bool} {as bs : List Part} (ha : cut ends pending as = [as])
    (hb : cut ends (awaitsAnd pending (as.map Prod.fst)) bs = [bs]) :
    cut ends pending (as ++ bs) = [as ++ bs] := by
  induction as generalizing pending with
  | nil => exact hb
  | cons part rest ih =>
    rw [cut] at ha
    split at ha
    · simp [cut_ne_nil] at ha
    · next hpart =>
      obtain ⟨piece, others, hpieces⟩ :=
        List.exists_cons_of_ne_nil (@cut_ne_nil ends (part.1.awaitsAnd pending) rest)
      rw [hpieces] at ha
      simp only [List.cons.injEq, true_and] at ha
      obtain ⟨rfl, rfl⟩ := ha
      exact cut_cons_of_not (Bool.eq_false_iff.mpr hpart) (ih hpieces hb)

/-- So what is read from the pieces is not empty either. -/
theorem ne_nil_of_mapM_cut {β : Type} {f : List Part → Option β} {pending : Bool}
    {parts : List Part} {results : List β} (h : (cut ends pending parts).mapM f = some results) :
    results ≠ [] := by
  obtain ⟨piece, others, hpieces⟩ := List.exists_cons_of_ne_nil (@cut_ne_nil ends pending parts)
  rintro rfl
  rw [hpieces, List.mapM_cons] at h
  cases hfirst : f piece with
  | none => simp [hfirst] at h
  | some result => cases hothers : others.mapM f <;> simp [hfirst, hothers] at h

/-- Where nothing ends a piece, all parts are one piece. -/
theorem cut_eq_singleton {pending : Bool} {parts : List Part}
    (h : ∀ pending, ∀ part ∈ parts, ends pending part.1 = false) :
    cut ends pending parts = [parts] := by
  induction parts generalizing pending with
  | nil => rfl
  | cons part rest ih =>
    exact cut_cons_of_not (h pending part List.mem_cons_self)
      (ih fun pending other hother => h pending other (List.mem_cons_of_mem part hother))

/-- How many pieces there are is computed for a text that is written out, and a single piece has all
parts. -/
theorem cut_eq_of_length {pending : Bool} {parts : List Part}
    (h : (cut ends pending parts).length = 1) : cut ends pending parts = [parts] := by
  induction parts generalizing pending with
  | nil => rfl
  | cons part rest ih =>
    obtain ⟨piece, others, hpieces⟩ :=
      List.exists_cons_of_ne_nil (@cut_ne_nil ends (part.1.awaitsAnd pending) rest)
    by_cases hpart : ends pending part.1 = true
    · rw [cut, if_pos hpart, hpieces] at h
      simp at h
    · rw [Bool.not_eq_true] at hpart
      rw [cut_cons_of_not hpart hpieces] at h
      have hothers : others = [] := by simpa using h
      subst hothers
      exact cut_cons_of_not hpart (ih (by rw [hpieces]; rfl))

/-! ## Blanks -/

variable {blank : Part}

/-- A blank is neither a BETWEEN nor an AND. -/
theorem awaitsAnd_of_isBlank {item : Item} (h : item.isBlank = true) (pending : Bool) :
    item.awaitsAnd pending = pending := by
  cases item with
  | blank c => simp [Item.awaitsAnd, Item.isKeyword]
  | _ => cases h

/-- A blank in front goes to the first piece. -/
theorem cut_blank_cons {pending : Bool} {parts piece : List Part} {others : List (List Part)}
    (hblank : blank.1.isBlank = true) (hends : ends pending blank.1 = false)
    (h : cut ends pending parts = piece :: others) :
    cut ends pending (blank :: parts) = (blank :: piece) :: others :=
  cut_cons_of_not hends (by rwa [awaitsAnd_of_isBlank hblank])

/-- A blank at the end goes to the last piece. -/
theorem cut_append_blank (hends : ∀ pending, ends pending blank.1 = false) (pending : Bool)
    (parts : List Part) :
    ∃ front last, cut ends pending parts = front ++ [last] ∧
      cut ends pending (parts ++ [blank]) = front ++ [last ++ [blank]] := by
  induction parts generalizing pending with
  | nil => exact ⟨[], [], rfl, by simp [cut, hends]⟩
  | cons part rest ih =>
    obtain ⟨front, last, hrest, hblank⟩ := ih (part.1.awaitsAnd pending)
    by_cases hpart : ends pending part.1 = true
    · refine ⟨[] :: front, last, ?_, ?_⟩
      · rw [cut, if_pos hpart, hrest]
        rfl
      · rw [List.cons_append, cut, if_pos hpart, hblank]
        rfl
    · rw [Bool.not_eq_true] at hpart
      cases front with
      | nil =>
        exact ⟨[], part :: last, cut_cons_of_not hpart hrest, cut_cons_of_not hpart hblank⟩
      | cons piece others =>
        exact ⟨(part :: piece) :: others, last, cut_cons_of_not hpart hrest,
          cut_cons_of_not hpart hblank⟩

theorem mapM_append_singleton {α β : Type} (f : α → Option β) (front : List α) (last : α) :
    (front ++ [last]).mapM f = (front.mapM f).bind fun results =>
      (f last).map fun result => results ++ [result] := by
  rw [List.mapM_append]
  cases front.mapM f with
  | none => rfl
  | some results =>
    simp only [List.mapM_cons, List.mapM_nil]
    cases f last <;> rfl

/-- What is made of the pieces is not changed by a blank in front, if it is not for any piece. -/
theorem mapM_cut_blank_cons {β : Type} {f : List Part → Option β} {pending : Bool}
    (hblank : blank.1.isBlank = true) (hends : ends pending blank.1 = false)
    (hf : ∀ piece, f (blank :: piece) = f piece) (parts : List Part) :
    (cut ends pending (blank :: parts)).mapM f = (cut ends pending parts).mapM f := by
  obtain ⟨piece, others, hpieces⟩ := List.exists_cons_of_ne_nil (@cut_ne_nil ends pending parts)
  rw [cut_blank_cons hblank hends hpieces, hpieces, List.mapM_cons, List.mapM_cons, hf]

/-- What is made of the pieces is not changed by a blank at the end, if it is not for any piece. -/
theorem mapM_cut_append_blank {β : Type} {f : List Part → Option β}
    (hends : ∀ pending, ends pending blank.1 = false)
    (hf : ∀ piece, f (piece ++ [blank]) = f piece) (pending : Bool) (parts : List Part) :
    (cut ends pending (parts ++ [blank])).mapM f = (cut ends pending parts).mapM f := by
  obtain ⟨front, last, hparts, hblank⟩ := cut_append_blank hends pending parts
  rw [hparts, hblank, mapM_append_singleton, mapM_append_singleton, hf]

end

section

variable {blank : Part}

theorem isKeyword_of_isBlank {item : Item} (h : item.isBlank = true) (upper : String) :
    item.isKeyword upper = false := by
  cases item with
  | blank c => rfl
  | _ => cases h

theorem endsFactor_blank (h : blank.1.isBlank = true) (pending : Bool) :
    endsFactor pending blank.1 = false := by
  rw [endsFactor, isKeyword_of_isBlank h]
  rfl

theorem endsTerm_blank (h : blank.1.isBlank = true) (pending : Bool) :
    endsTerm pending blank.1 = false := isKeyword_of_isBlank h "OR"

theorem leadsOperator_append_blank (h : blank.1.isBlank = true) (parts : List Part) :
    leadsOperator (parts ++ [blank]) = leadsOperator parts := by
  induction parts with
  | nil => simp [leadsOperator, h]
  | cons part rest ih => rw [List.cons_append, leadsOperator, leadsOperator, ih]

/-- The text of an atom has no blanks at its ends, so one more at the end is not in it. -/
theorem atomText_append_blank (h : blank.1.isBlank = true) (parts : List Part) :
    atomText (parts ++ [blank]) = atomText parts := by
  simp [atomText, dropTrailingBlanks, h]

theorem factor_blank_cons (h : blank.1.isBlank = true) (parts : List Part) :
    factor (blank :: parts) = factor parts := by
  rw [factor, if_pos h]

/-- Whether a factor is a negation, a group or an atom is seen from its beginning. -/
theorem factor_append_blank (h : blank.1.isBlank = true) (parts : List Part) :
    factor (parts ++ [blank]) = factor parts := by
  induction parts with
  | nil => rw [List.nil_append, factor_blank_cons h]
  | cons part rest ih =>
    have htext := atomText_append_blank h (part :: rest)
    rw [List.cons_append] at htext
    rw [List.cons_append, factor, factor, ih, leadsOperator_append_blank h, htext,
      List.all_append]
    simp only [List.all_cons, h, List.all_nil, Bool.and_true]

theorem factors_blank_cons (h : blank.1.isBlank = true) (parts : List Part) :
    factors (blank :: parts) = factors parts :=
  mapM_cut_blank_cons h (endsFactor_blank h false) (factor_blank_cons h) parts

/-- The same of a conjunction, and below of a disjunction: the blanks around a connective belong to
neither side. -/
theorem factors_append_blank (h : blank.1.isBlank = true) (parts : List Part) :
    factors (parts ++ [blank]) = factors parts :=
  mapM_cut_append_blank (endsFactor_blank h) (factor_append_blank h) false parts

theorem term_blank_cons (h : blank.1.isBlank = true) (parts : List Part) :
    term (blank :: parts) = term parts := by
  rw [term, factors_blank_cons h, term]

theorem term_append_blank (h : blank.1.isBlank = true) (parts : List Part) :
    term (parts ++ [blank]) = term parts := by
  rw [term, factors_append_blank h, term]

/-! ## Connectives -/

/-- At an AND that no BETWEEN awaits the parts are cut. -/
theorem cut_and {as : List Part} (bs : List Part) {word : Part}
    (hword : word.1.isKeyword "AND" = true) (hblank : blank.1.isBlank = true)
    (ha : awaitsAnd false (as.map Prod.fst) = false) :
    cut endsFactor false (as ++ blank :: word :: blank :: bs) =
      cut endsFactor false (as ++ [blank]) ++ cut endsFactor false (blank :: bs) := by
  -- no BETWEEN is open, so this AND is none of its own
  have hawaits : awaitsAnd false ((as ++ [blank]).map Prod.fst) = false := by
    rw [List.map_append, awaitsAnd_append, ha]
    exact awaitsAnd_of_isBlank hblank false
  have hends : endsFactor (awaitsAnd false ((as ++ [blank]).map Prod.fst)) word.1 = true := by
    rw [hawaits, endsFactor, hword]
    rfl
  have hsplit : as ++ blank :: word :: blank :: bs = (as ++ [blank]) ++ word :: blank :: bs := by
    simp
  rw [hsplit, cut_append_cons (blank :: bs) hends, hawaits, Item.awaitsAnd, if_pos hword]

/-- AND between two conditions connects what either connects. -/
theorem factors_and {as bs : List Part} {word : Part} (hword : word.1.isKeyword "AND" = true)
    (hblank : blank.1.isBlank = true) (ha : awaitsAnd false (as.map Prod.fst) = false) :
    factors (as ++ blank :: word :: blank :: bs) =
      (factors as).bind fun first => (factors bs).map fun second => first ++ second := by
  have hfirst := factors_append_blank hblank as
  have hsecond := factors_blank_cons hblank bs
  unfold factors at hfirst hsecond ⊢
  rw [cut_and bs hword hblank ha, List.mapM_append, hfirst, hsecond]
  cases (cut endsFactor false as).mapM factor <;>
    cases (cut endsFactor false bs).mapM factor <;> rfl

/-- Where the terms end does not depend on a BETWEEN. -/
theorem cut_endsTerm (pending : Bool) (parts : List Part) :
    cut endsTerm pending parts = cut endsTerm false parts := by
  have h : ∀ first second, cut endsTerm first parts = cut endsTerm second parts := by
    induction parts with
    | nil => exact fun _ _ => rfl
    | cons part rest ih =>
      intro first second
      rw [cut, cut, ih (part.1.awaitsAnd first) (part.1.awaitsAnd second)]
      rfl
  exact h pending false

/-- OR between two conditions connects what either connects. -/
theorem terms_or {as bs : List Part} {word : Part} (hword : word.1.isKeyword "OR" = true)
    (hblank : blank.1.isBlank = true) :
    terms (as ++ blank :: word :: blank :: bs) =
      (terms as).bind fun first => (terms bs).map fun second => first ++ second := by
  have hsplit : as ++ blank :: word :: blank :: bs = (as ++ [blank]) ++ word :: blank :: bs := by
    simp
  have hfirst := mapM_cut_append_blank (endsTerm_blank hblank) (term_append_blank hblank) false as
  have hsecond :=
    mapM_cut_blank_cons hblank (endsTerm_blank hblank false) (term_blank_cons hblank) bs
  unfold terms
  rw [hsplit, cut_append_cons (blank :: bs) hword, cut_endsTerm (word.1.awaitsAnd _),
    List.mapM_append, hfirst, hsecond]
  cases (cut endsTerm false as).mapM term <;> cases (cut endsTerm false bs).mapM term <;> rfl

end

/-! ## Texts -/

def Conjoins (text : String) (formulas : List (Formula String)) : Prop :=
  ∃ items, items? text = some items ∧ Grade.condition.Allows items ∧
    factors (parts items) = some formulas

def Disjoins (text : String) (formulas : List (Formula String)) : Prop :=
  ∃ items, items? text = some items ∧ terms (parts items) = some formulas

/-- A text that keeps both sides apart is read between them as it is read alone. -/
theorem items?_glue {a b text : String} {as bs ts : List Item} (ha : items? a = some as)
    (hb : items? b = some bs) (htext : items? text = some ts) (hglue : isGlue text = true) :
    items? (a ++ text ++ b) = some (as ++ (ts ++ bs)) := by
  have hrest : items? (text ++ b) = some (ts ++ bs) := by
    rw [items?, String.toList_append]
    exact ofChars?_append htext hb (Seam.behind hglue)
  rw [String.append_assoc, items?, String.toList_append]
  exact ofChars?_append ha hrest (Seam.before hglue)

theorem items?_and : items? " AND " = some [.blank ' ', .word ['A', 'N', 'D'], .blank ' '] := rfl

theorem items?_or : items? " OR " = some [.blank ' ', .word ['O', 'R'], .blank ' '] := rfl

/-- A connective is its word with a blank on either side. -/
theorem parts_separator (word : List Char) (items : List Item) :
    parts ([.blank ' ', .word word, .blank ' '] ++ items) =
      (.blank ' ', none) :: (.word word, none) :: (.blank ' ', none) :: parts items := rfl

namespace Conjoins

variable {a b : String} {first second : List (Formula String)}

/-- Two conjunctions with AND between them are one. Neither may have an open OR, which an AND would
cut apart. -/
theorem and (ha : Conjoins a first) (hb : Conjoins b second) :
    Conjoins (a ++ " AND " ++ b) (first ++ second) := by
  obtain ⟨as, has, hallowsa, hfactorsa⟩ := ha
  obtain ⟨bs, hbs, hallowsb, hfactorsb⟩ := hb
  refine ⟨_, items?_glue has hbs items?_and (by decide), ?_, ?_⟩
  · exact hallowsa.append (Grade.Allows.append (by decide) hallowsb)
  · rw [parts_append, parts_separator, factors_and (by decide) (by decide)
      (by rw [parts_fst]; exact hallowsa.2 rfl), hfactorsa, hfactorsb]
    rfl

/-- A conjunction is a single term of a disjunction. -/
theorem disjoins (ha : Conjoins a first) {formula : Formula String}
    (hformula : Connective.and.chain first = some formula) : Disjoins a [formula] := by
  obtain ⟨items, hitems, hallows, hfactors⟩ := ha
  refine ⟨items, hitems, ?_⟩
  have hcut : cut endsTerm false (parts items) = [parts items] :=
    cut_eq_singleton fun pending part hpart =>
      hallows.isKeyword_eq_false (mem_of_mem_parts hpart) (by decide)
  rw [terms, hcut, List.mapM_cons, term, hfactors]
  simp [hformula]

end Conjoins

namespace Disjoins

variable {a b : String} {first second : List (Formula String)}

/-- Two disjunctions with OR between them are one, whatever is in them. -/
theorem or (ha : Disjoins a first) (hb : Disjoins b second) :
    Disjoins (a ++ " OR " ++ b) (first ++ second) := by
  obtain ⟨as, has, htermsa⟩ := ha
  obtain ⟨bs, hbs, htermsb⟩ := hb
  refine ⟨_, items?_glue has hbs items?_or (by decide), ?_⟩
  rw [parts_append, parts_separator, terms_or (by decide) (by decide), htermsa, htermsb]
  rfl

/-- A condition is read as the disjunction that its text is. -/
theorem read (h : Disjoins a first) : readCondition? a = Connective.or.chain first := by
  obtain ⟨items, hitems, hterms⟩ := h
  rw [readCondition?, hitems, Option.bind_some, disjunction, hterms, Option.bind_some]

end Disjoins

/-- A group is one factor, the condition in it. -/
theorem conjoins_group {text : String} {formulas : List (Formula String)}
    (h : Disjoins text formulas) {formula : Formula String}
    (hformula : Connective.or.chain formulas = some formula) :
    Conjoins ("(" ++ text ++ ")") [formula] := by
  obtain ⟨items, hitems, hterms⟩ := h
  refine ⟨[.group items], ?_, (Grade.allows_group items).toCondition, ?_⟩
  · rw [items?, String.toList_append, String.toList_append]
    exact ofChars?_parenthesized hitems
  · have hcondition : disjunction (parts items) = some formula := by
      rw [disjunction, hterms, Option.bind_some, hformula]
    rw [parts, Item.part, hcondition]
    rfl

/-- NOT and a group are one factor, the negation of the condition in the group. -/
theorem conjoins_negation {text : String} {formulas : List (Formula String)}
    (h : Disjoins text formulas) {formula : Formula String}
    (hformula : Connective.or.chain formulas = some formula) :
    Conjoins ("NOT" ++ "(" ++ text ++ ")") [.negation formula] := by
  obtain ⟨items, hitems, hterms⟩ := h
  have hcondition : disjunction (parts items) = some formula := by
    rw [disjunction, hterms, Option.bind_some, hformula]
  refine ⟨[.word ['N', 'O', 'T'], .group items], ?_, ?_, ?_⟩
  · have hgroup : Item.ofChars? ('(' :: text.toList ++ [')']) = some [.group items] :=
      ofChars?_parenthesized hitems
    have hnot : Item.ofChars? ['N', 'O', 'T'] = some [.word ['N', 'O', 'T']] := rfl
    have happend := ofChars?_append hnot hgroup (Or.inl rfl)
    rw [items?, String.toList_append, String.toList_append, String.toList_append]
    simpa using happend
  · have hnot : Grade.condition.Allows [.word ['N', 'O', 'T']] := by decide
    exact hnot.append (Grade.allows_group items).toCondition
  · rw [parts, parts, Item.part, Item.part, hcondition]
    · rfl
    · simp

/-! ## Atoms -/

/-- What the items begin with is neither a NOT of its own nor a lone group. -/
def leadsAtom : List Item → Bool
  | [] => false
  | item :: rest =>
    if item.isBlank then leadsAtom rest
    else !(item.isKeyword "NOT" && !leadsOperator (parts rest)) &&
      !(item.isGroup && (parts rest).all (·.1.isBlank))

/-- Only the first words decide whether an operator begins. -/
theorem leadsOperator_append {as : List Part} (h : leadsOperator as = true) (bs : List Part) :
    leadsOperator (as ++ bs) = true := by
  induction as with
  | nil => cases h
  | cons part rest ih =>
    rw [leadsOperator] at h
    rw [List.cons_append, leadsOperator]
    split
    · next hblank => exact ih (by rwa [if_pos hblank] at h)
    · next hblank => rwa [if_neg hblank] at h

/-- An atom that has begun goes on with whatever is behind it. -/
theorem leadsAtom_append {as : List Item} (h : leadsAtom as = true) (bs : List Item) :
    leadsAtom (as ++ bs) = true := by
  induction as with
  | nil => cases h
  | cons item rest ih =>
    rw [leadsAtom] at h
    rw [List.cons_append, leadsAtom]
    split
    · next hblank => exact ih (by rwa [if_pos hblank] at h)
    · next hblank =>
      rw [if_neg hblank] at h
      simp only [Bool.and_eq_true, Bool.not_eq_true', Bool.and_eq_false_iff, Bool.not_eq_false',
        parts_append, List.all_append] at h ⊢
      obtain ⟨hnot, hgroup⟩ := h
      exact ⟨hnot.imp_right fun h => leadsOperator_append h _, hgroup.imp_right Or.inl⟩

/-- Names in front do not change that an atom begins. -/
theorem leadsAtom_nominal {as bs : List Item} (has : ∀ item ∈ as, item.isNominal = true)
    (h : leadsAtom bs = true) : leadsAtom (as ++ bs) = true := by
  induction as with
  | nil => exact h
  | cons item rest ih =>
    rw [List.forall_mem_cons] at has
    rw [List.cons_append, leadsAtom]
    split
    · exact ih has.2
    · have hnot : item.isKeyword "NOT" = false := by
        have hnominal := has.1
        cases item with
        | word cs =>
          simp only [Item.isNominal, Item.isOneOf, List.any_cons, Bool.not_eq_true',
            Bool.or_eq_false_iff] at hnominal
          exact hnominal.1
        | _ => rfl
      have hgroup : item.isGroup = false := by
        cases item with
        | group items => exact absurd has.1 (by simp [Item.isNominal])
        | _ => rfl
      rw [hnot, hgroup]
      rfl

/-- What begins like an atom is one, and its content is its text. -/
theorem factor_parts {items : List Item} (h : leadsAtom items = true) :
    factor (parts items) =
      some
        (.atom (String.ofList (textOf (dropTrailingBlanks (items.dropWhile Item.isBlank))))) := by
  induction items with
  | nil => cases h
  | cons item rest ih =>
    rw [leadsAtom] at h
    rw [parts, factor, part_fst]
    by_cases hblank : item.isBlank = true
    · rw [if_pos hblank] at h
      rw [if_pos hblank, ih h, List.dropWhile_cons_of_pos hblank]
    · rw [if_neg hblank, Bool.and_eq_true, Bool.not_eq_true', Bool.not_eq_true'] at h
      rw [if_neg hblank, if_neg (by simp [h.1]), if_neg (by simp [h.2]), atomText, List.map_cons,
        part_fst, parts_fst, List.dropWhile_cons_of_neg hblank]

/-- Trimming a text leaves out the blank items around it. -/
theorem trim_eq {text : String} {items : List Item} (hitems : items? text = some items) :
    Text.trim text = String.ofList (textOf (dropOuterBlanks items)) := by
  rw [Text.trim, ← textOf_ofChars? (ofChars?_dropOuterBlanks hitems)]

/-- A text that begins like an atom and has no AND of its own is an atom. -/
theorem conjoins_atom {text : String} {items : List Item} (hitems : items? text = some items)
    (hallows : Grade.condition.Allows items) (hleads : leadsAtom items = true)
    (hcut : cut endsFactor false (parts items) = [parts items]) :
    Conjoins text [.atom (Text.trim text)] := by
  refine ⟨items, hitems, hallows, ?_⟩
  rw [factors, hcut, List.mapM_cons, factor_parts hleads, trim_eq hitems]
  rfl

/-- No word of an inert text cuts it, whether an AND is awaited or not. -/
theorem cut_of_inert {items : List Item} (h : Grade.inert.Allows items) (pending : Bool) :
    cut endsFactor pending (parts items) = [parts items] := by
  apply cut_eq_singleton
  intro pending part hpart
  rw [endsFactor, h.isKeyword_eq_false (mem_of_mem_parts hpart) (by decide)]
  rfl

theorem conjoins_inert {text : String} {items : List Item} (hitems : items? text = some items)
    (hallows : Grade.inert.Allows items) (hleads : leadsAtom items = true) :
    Conjoins text [.atom (Text.trim text)] :=
  conjoins_atom hitems hallows.toCondition hleads (cut_of_inert hallows false)

end DescriptorSql.Sql
