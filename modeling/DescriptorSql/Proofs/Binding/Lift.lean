import DescriptorSql.Proofs.Binding.Template
import DescriptorSql.Proofs.Descriptor.Related
import DescriptorSql.Proofs.Lexical.AtSign

/-!
# `Proofs/Binding/Lift.lean` — texts that are put together from templates

`Lifts values text P` says that a text is that of a template that fits, and that `P` holds of the
text whatever numbers are put into the slots. What `P` says later is where the numbered text comes
from, so a text that is put together from parts that lift, lifts: to a text that is put together in
the same way (`Lifts.append`, `LiftsAll.intercalate`). Nothing may run together at the seams, which
is what separators are for.
-/

set_option autoImplicit false

namespace DescriptorSql.Binding

open Sql (ClosesApart NoAt OpensApart Seam endsApart isSeparator startsApart)

/-! ## Separators stand apart from names -/

theorem isGlue_of_isSeparator {c : Char} (hc : isSeparator c = true) : isGlue c = false := by
  -- the classes are large and the separators are few, so the separators are looked up in
  -- the classes
  have hpoints : ∀ n ∈ 0x28 :: 0x29 :: 0x2C :: Sql.blankPoints,
      (CharClass.alphabetic.contains n || CharClass.decimalNumber.contains n ||
        CharClass.otherNumber.contains n || n == 0x5F || n == 0x2E || n == 0x40) = false := by
    decide +kernel
  have hmem : c.toNat ∈ 0x28 :: 0x29 :: 0x2C :: Sql.blankPoints := by
    simp only [isSeparator, Bool.or_eq_true, decide_eq_true_eq] at hc
    rcases hc with ((rfl | rfl) | rfl) | hc
    · decide
    · decide
    · decide
    · exact List.mem_cons_of_mem _ (List.mem_cons_of_mem _
        (List.mem_cons_of_mem _ (Sql.mem_blankPoints hc)))
  have hno := hpoints _ hmem
  simp only [Bool.or_eq_false_iff, beq_eq_false_iff_ne] at hno
  obtain ⟨⟨⟨hclass, hline⟩, hdot⟩, hat⟩ := hno
  have hne : ∀ d : Char, c.toNat ≠ d.toNat → c ≠ d := by
    rintro d hd rfl
    exact hd rfl
  simp [isGlue, CharClass.isAlphanumeric, hclass, hne '_' hline, hne '.' hdot, hne '@' hat]

/-! ## The text of a template -/

/-- The template fits and spells the text. -/
structure IsText (values : Entries String Json) (template : Template) (text : String) : Prop where
  fits : template.Fits values
  spelled_eq : text.toList = template.spelled

variable {values : Entries String Json}

theorem IsText.ofNoAt {text : String} (h : NoAt text) :
    IsText values (text.toList.map .char) text := by
  refine ⟨⟨?_, ?_⟩, ?_⟩
  · intro atom hatom
    obtain ⟨c, hc, rfl⟩ := List.mem_map.mp hatom
    rintro rfl
    exact h hc
  · rw [List.isChain_map]
    exact (List.pairwise_of_forall fun _ _ => trivial).isChain
  · simp [Template.spelled, Atom.chars, List.flatMap_map]

theorem Atom.getLast?_slot (name : String) : (Atom.slot name).chars.getLast? = some '\'' := by
  rw [Atom.chars, ← List.cons_append, ← List.cons_append, List.getLast?_concat]

theorem Template.head?_spelled {template : Template} {atom : Atom}
    (h : template.head? = some atom) :
    template.spelled.head? = atom.chars.head? := by
  obtain ⟨rest, rfl⟩ := List.head?_eq_some_iff.mp h
  cases atom <;> rfl

theorem Template.getLast?_spelled {template : Template} {atom : Atom}
    (h : template.getLast? = some atom) : template.spelled.getLast? = atom.chars.getLast? := by
  obtain ⟨front, rfl⟩ := List.getLast?_eq_some_iff.mp h
  obtain ⟨c, cs, hchars⟩ := atom.exists_chars
  rw [Template.spelled_append, Template.spelled_cons, Template.spelled_nil, List.append_nil,
    List.getLast?_append, Option.or_of_isSome (by simp [hchars])]

/-- Where a separator stands at the seam, no slot runs into what is beside it. -/
theorem IsText.append {first second : Template} {a b : String} (ha : IsText values first a)
    (hb : IsText values second b) (hseam : Seam a b) :
    IsText values (first ++ second) (a ++ b) := by
  refine ⟨⟨?_, ?_⟩, by simp [ha.spelled_eq, hb.spelled_eq]⟩
  · intro atom hatom
    rcases List.mem_append.mp hatom with hatom | hatom
    · exact ha.fits.isFit atom hatom
    · exact hb.fits.isFit atom hatom
  · refine List.isChain_append.mpr ⟨ha.fits.apart, hb.fits.apart, fun x hx y hy => ?_⟩
    have hquote : isSeparator '\'' = false := by decide
    rw [Seam, startsApart, endsApart, ha.spelled_eq, hb.spelled_eq, Template.head?_spelled hy,
      Template.getLast?_spelled hx] at hseam
    cases x with
    | char c =>
      cases y with
      | char d => trivial
      | slot name =>
        -- a slot begins with a quote, so the separator is the character before it
        have hc : isSeparator c = true := by simpa [Atom.chars, hquote] using hseam
        exact isGlue_of_isSeparator hc
    | slot name =>
      cases y with
      | char d =>
        rw [Atom.getLast?_slot] at hseam
        have hd : isSeparator d = true := by simpa [Atom.chars, hquote] using hseam
        exact isGlue_of_isSeparator hd
      | slot other => trivial

theorem Template.spelled_eq_nil {template : Template} (h : template.spelled = []) :
    template = [] := by
  cases template with
  | nil => rfl
  | cons atom rest =>
    obtain ⟨c, cs, hchars⟩ := atom.exists_chars
    rw [Template.spelled_cons, hchars] at h
    cases h

/-! ## Numbers in the parts of a text -/

namespace Template

variable {numbers : SlotNumbers} {template : Template} {cs : List Char}

theorem Numbered.eq_nil (h : Numbered numbers template cs) : cs = [] ↔ template = [] := by
  cases h with
  | nil => simp
  | char c h => simp
  | slot hk h => simp

theorem Numbered.ofChars {cs ds : List Char} (h : Numbered numbers (cs.map .char) ds) :
    ds = cs := by
  induction cs generalizing ds with
  | nil =>
    cases h
    rfl
  | cons c cs ih =>
    cases h with
    | char c h => rw [ih h]

theorem Numbered.exists_append {first second : Template}
    (h : Numbered numbers (first ++ second) cs) :
    ∃ as bs, cs = as ++ bs ∧ Numbered numbers first as ∧ Numbered numbers second bs := by
  induction first generalizing cs with
  | nil => exact ⟨[], cs, rfl, .nil, h⟩
  | cons atom rest ih =>
    cases h with
    | char c h =>
      obtain ⟨as, bs, rfl, has, hbs⟩ := ih h
      exact ⟨c :: as, bs, rfl, .char c has, hbs⟩
    | slot hk h =>
      obtain ⟨as, bs, rfl, has, hbs⟩ := ih h
      exact ⟨_, bs, by simp, .slot hk has, hbs⟩

theorem Numbered.append {first second : Template} {as bs : List Char}
    (h : Numbered numbers first as) (h' : Numbered numbers second bs) :
    Numbered numbers (first ++ second) (as ++ bs) := by
  induction h with
  | nil => exact h'
  | char c h ih => exact .char c ih
  | slot hk h ih => simpa using Numbered.slot hk ih

end Template

/-! ## Lifting -/

/-- The text is that of a template, and with numbers in its slots it meets the condition. -/
def Lifts (values : Entries String Json) (text : String) (P : SlotNumbers → String → Prop) : Prop :=
  ∃ template, IsText values template text ∧
    ∀ numbers text', Template.Numbered numbers template text'.toList → P numbers text'

variable {a b text : String} {P Q : SlotNumbers → String → Prop}

namespace Lifts

theorem ofNoAt (h : NoAt text) : Lifts values text fun _ text' => text' = text := by
  refine ⟨_, .ofNoAt h, fun numbers text' hnumbered => ?_⟩
  exact String.toList_inj.mp hnumbered.ofChars

theorem mono (h : Lifts values text P) (hPQ : ∀ numbers text', P numbers text' → Q numbers text') :
    Lifts values text Q :=
  let ⟨template, htext, hlift⟩ := h
  ⟨template, htext, fun numbers text' hnumbered => hPQ numbers text' (hlift _ _ hnumbered)⟩

theorem append (ha : Lifts values a P) (hb : Lifts values b Q) (hseam : Seam a b) :
    Lifts values (a ++ b) fun numbers text =>
      ∃ a' b', text = a' ++ b' ∧ P numbers a' ∧ Q numbers b' := by
  obtain ⟨first, hfirst, hP⟩ := ha
  obtain ⟨second, hsecond, hQ⟩ := hb
  refine ⟨first ++ second, hfirst.append hsecond hseam, fun numbers text hnumbered => ?_⟩
  obtain ⟨as, bs, htext, has, hbs⟩ := hnumbered.exists_append
  refine ⟨String.ofList as, String.ofList bs, ?_, ?_, ?_⟩
  · rw [← String.toList_inj, htext]
    simp
  · exact hP numbers _ (by rwa [String.toList_ofList])
  · exact hQ numbers _ (by rwa [String.toList_ofList])

/-- Text that ends with a separator may stand in front. -/
theorem behind (h : Lifts values a P) (htext : OpensApart text) :
    Lifts values (text ++ a) fun numbers text' => ∃ a', text' = text ++ a' ∧ P numbers a' := by
  refine ((ofNoAt htext.noAt).append h (Or.inr htext.ends)).mono ?_
  rintro numbers text' ⟨_, a', rfl, rfl, ha⟩
  exact ⟨a', rfl, ha⟩

/-- Text that starts with a separator may stand behind. -/
theorem before (h : Lifts values a P) (htext : ClosesApart text) :
    Lifts values (a ++ text) fun numbers text' => ∃ a', text' = a' ++ text ∧ P numbers a' := by
  refine (h.append (ofNoAt htext.noAt) (Or.inl htext.starts)).mono ?_
  rintro numbers text' ⟨a', _, rfl, ha, rfl⟩
  exact ⟨a', rfl, ha⟩

/-- Text that ends and text that starts with a separator may stand around it. -/
theorem enclosed {opening closing : String} (h : Lifts values a P) (hopening : OpensApart opening)
    (hclosing : ClosesApart closing) :
    Lifts values (opening ++ a ++ closing) fun numbers text' =>
      ∃ a', text' = opening ++ a' ++ closing ∧ P numbers a' := by
  refine ((h.behind hopening).before hclosing).mono ?_
  rintro numbers _ ⟨_, rfl, a', rfl, ha⟩
  exact ⟨a', rfl, ha⟩

/-- Numbers neither empty a text nor fill an empty one. -/
theorem isEmpty (h : Lifts values a P) :
    Lifts values a fun numbers a' => P numbers a' ∧ a'.isEmpty = a.isEmpty := by
  obtain ⟨template, htext, hlift⟩ := h
  refine ⟨template, htext, fun numbers a' hnumbered => ⟨hlift _ _ hnumbered, ?_⟩⟩
  have hspelled : a.toList = [] ↔ template = [] := by
    rw [htext.spelled_eq]
    exact ⟨Template.spelled_eq_nil, fun h => by rw [h]; rfl⟩
  rw [Bool.eq_iff_iff, String.isEmpty_iff, String.isEmpty_iff, ← String.toList_eq_nil_iff,
    ← String.toList_eq_nil_iff, hnumbered.eq_nil, hspelled]

end Lifts

/-! ## Trimming -/

/-- The atom is a blank character. -/
def Atom.isBlank : Atom → Bool
  | char c => Text.isBlank c
  | slot _ => false

namespace Template

variable {numbers : SlotNumbers} {template : Template} {cs : List Char}

theorem spelled_dropWhile (template : Template) :
    spelled (template.dropWhile Atom.isBlank) = (spelled template).dropWhile Text.isBlank := by
  induction template with
  | nil => rfl
  | cons atom rest ih =>
    cases atom with
    | char c =>
      by_cases hc : Text.isBlank c = true
      · simp [Atom.isBlank, Atom.chars, hc, ih]
      · simp [Atom.isBlank, Atom.chars, hc]
    | slot name => rfl

theorem spelled_rdropWhile (template : Template) :
    spelled (template.rdropWhile Atom.isBlank) = (spelled template).rdropWhile Text.isBlank := by
  induction template using List.reverseRecOn with
  | nil => rfl
  | append_singleton front atom ih =>
    rw [spelled_append, spelled_cons, spelled_nil, List.append_nil]
    cases atom with
    | char c =>
      rw [Atom.chars, List.rdropWhile_concat, List.rdropWhile_concat, Atom.isBlank]
      split
      · exact ih
      · rw [spelled_append]
        rfl
    | slot name =>
      have hquote : ¬ Text.isBlank '\'' = true := by decide
      rw [List.rdropWhile_concat_neg _ _ _ (by simp [Atom.isBlank]), spelled_append, Atom.chars,
        ← List.cons_append, ← List.cons_append, ← List.append_assoc,
        List.rdropWhile_concat_neg _ _ _ hquote]
      simp [Atom.chars]

/-- Blanks in front do not keep a text from being numbered. -/
theorem Numbered.exists_dropWhile (h : Numbered numbers (template.dropWhile Atom.isBlank) cs) :
    ∃ full, Numbered numbers template full ∧ full.dropWhile Text.isBlank = cs := by
  induction template with
  | nil =>
    cases h
    exact ⟨[], .nil, rfl⟩
  | cons atom rest ih =>
    cases atom with
    | char c =>
      by_cases hc : Text.isBlank c = true
      · rw [List.dropWhile_cons_of_pos (by simpa [Atom.isBlank] using hc)] at h
        obtain ⟨full, hfull, hdrop⟩ := ih h
        exact ⟨c :: full, .char c hfull, by rw [List.dropWhile_cons_of_pos hc, hdrop]⟩
      · rw [List.dropWhile_cons_of_neg (by simpa [Atom.isBlank] using hc)] at h
        refine ⟨cs, h, ?_⟩
        cases h
        exact List.dropWhile_cons_of_neg hc
    | slot name =>
      refine ⟨cs, h, ?_⟩
      cases h
      rfl

theorem isBlank_eq_false_of_mem_repr {k : Nat} {c : Char} (hc : c ∈ (Nat.repr k).toList) :
    Text.isBlank c = false := by
  rw [Nat.toList_repr] at hc
  exact Sql.isBlank_eq_false_of_isWordPart
    (Sql.isWordPart_of_isWord (Sql.isWord_of_isDigit (Sql.isDigit_of_mem_toDigits hc)))

/-- A number ends with a digit, and a digit is no blank. -/
theorem rdropWhile_repr (as : List Char) (k : Nat) :
    (as ++ (Nat.repr k).toList).rdropWhile Text.isBlank = as ++ (Nat.repr k).toList := by
  have hne : (Nat.repr k).toList ≠ [] := by
    rw [Nat.toList_repr]
    exact Nat.toDigits_ne_nil
  have hlast := isBlank_eq_false_of_mem_repr (List.getLast_mem hne)
  rw [← List.dropLast_append_getLast hne, ← List.append_assoc]
  exact List.rdropWhile_concat_neg _ _ _ (Bool.eq_false_iff.mp hlast)

/-- Nor do blanks behind. -/
theorem Numbered.exists_rdropWhile (h : Numbered numbers (template.rdropWhile Atom.isBlank) cs) :
    ∃ full, Numbered numbers template full ∧ full.rdropWhile Text.isBlank = cs := by
  induction template using List.reverseRecOn generalizing cs with
  | nil =>
    cases h
    exact ⟨[], .nil, rfl⟩
  | append_singleton front atom ih =>
    cases atom with
    | char c =>
      by_cases hc : Text.isBlank c = true
      · rw [List.rdropWhile_concat_pos _ _ _ (by simpa [Atom.isBlank] using hc)] at h
        obtain ⟨full, hfull, hdrop⟩ := ih h
        exact ⟨full ++ [c], hfull.append (.char c .nil),
          by rw [List.rdropWhile_concat_pos _ _ _ hc, hdrop]⟩
      · rw [List.rdropWhile_concat_neg _ _ _ (by simpa [Atom.isBlank] using hc)] at h
        refine ⟨cs, h, ?_⟩
        obtain ⟨as, bs, rfl, has, hbs⟩ := h.exists_append
        cases hbs with
        | char c hnil =>
          cases hnil
          exact List.rdropWhile_concat_neg _ _ _ hc
    | slot name =>
      rw [List.rdropWhile_concat_neg _ _ _ (by simp [Atom.isBlank])] at h
      refine ⟨cs, h, ?_⟩
      obtain ⟨as, bs, rfl, has, hbs⟩ := h.exists_append
      cases hbs with
      | slot hk hnil =>
        cases hnil
        simpa using rdropWhile_repr (as ++ ['$']) _

end Template

/-- The blanks at the ends of a text are in no slot. -/
theorem Lifts.trim (h : Lifts values a P) :
    Lifts values (Text.trim a) fun numbers text => ∃ a', text = Text.trim a' ∧ P numbers a' := by
  obtain ⟨template, htext, hlift⟩ := h
  have hfront : (template.dropWhile Atom.isBlank).rdropWhile Atom.isBlank <+:
      template.dropWhile Atom.isBlank := List.rdropWhile_prefix _ _
  have hback : template.dropWhile Atom.isBlank <:+ template := List.dropWhile_suffix _
  refine ⟨_, ⟨htext.fits.ofInfix (hfront.isInfix.trans hback.isInfix), ?_⟩, ?_⟩
  · rw [Template.spelled_rdropWhile, Template.spelled_dropWhile, ← htext.spelled_eq,
      Text.toList_trim]
    rfl
  · intro numbers text hnumbered
    obtain ⟨more, hmore, htrailing⟩ := hnumbered.exists_rdropWhile
    obtain ⟨full, hfull, hleading⟩ := hmore.exists_dropWhile
    refine ⟨String.ofList full, ?_, hlift numbers _ (by rwa [String.toList_ofList])⟩
    rw [← String.toList_inj, Text.toList_trim, String.toList_ofList, Text.dropOuterBlanks, hleading]
    exact htrailing.symm

/-! ## Several texts -/

/-- The texts are those of the templates with numbers in the slots. -/
abbrev NumberedAll (numbers : SlotNumbers) : List Template → List String → Prop :=
  List.Forall₂ fun template text => template.Numbered numbers text.toList

/-- The texts are those of templates, and with numbers in the slots they meet the condition. -/
def LiftsAll (values : Entries String Json) (texts : List String)
    (P : SlotNumbers → List String → Prop) : Prop :=
  ∃ templates, List.Forall₂ (IsText values) templates texts ∧
    ∀ numbers texts', NumberedAll numbers templates texts' → P numbers texts'

namespace LiftsAll

variable {texts first second : List String} {P Q : SlotNumbers → List String → Prop}

theorem nil : LiftsAll values [] fun _ texts => texts = [] := by
  refine ⟨[], .nil, fun numbers texts h => ?_⟩
  cases h
  rfl

theorem mono (h : LiftsAll values texts P)
    (hPQ : ∀ numbers texts', P numbers texts' → Q numbers texts') : LiftsAll values texts Q :=
  let ⟨templates, htexts, hlift⟩ := h
  ⟨templates, htexts, fun numbers texts' hnumbered => hPQ numbers texts' (hlift _ _ hnumbered)⟩

theorem append (h : LiftsAll values first P) (h' : LiftsAll values second Q) :
    LiftsAll values (first ++ second) fun numbers texts =>
      ∃ as bs, texts = as ++ bs ∧ P numbers as ∧ Q numbers bs := by
  obtain ⟨front, hfront, hP⟩ := h
  obtain ⟨back, hback, hQ⟩ := h'
  refine ⟨front ++ back, List.rel_append hfront hback, fun numbers texts hnumbered => ?_⟩
  obtain ⟨as, bs, rfl, has, hbs⟩ := exists_append_of_forall₂ hnumbered
  exact ⟨as, bs, rfl, hP numbers as has, hQ numbers bs hbs⟩

/-- A text on its own. -/
theorem single {P : SlotNumbers → String → Prop} (h : Lifts values a P) :
    LiftsAll values [a] fun numbers texts => ∃ a', texts = [a'] ∧ P numbers a' := by
  obtain ⟨template, htext, hlift⟩ := h
  refine ⟨[template], .cons htext .nil, fun numbers texts hnumbered => ?_⟩
  cases hnumbered with
  | cons hfirst hrest =>
    cases hrest
    exact ⟨_, rfl, hlift numbers _ hfirst⟩

/-- The texts are changed alike, one by one. -/
theorem map {f : String → String} (h : LiftsAll values texts P)
    (hf : ∀ {text : String} {Q : SlotNumbers → String → Prop}, Lifts values text Q →
      Lifts values (f text) fun numbers text' => ∃ a, text' = f a ∧ Q numbers a) :
    LiftsAll values (texts.map f) fun numbers texts' => ∃ as, texts' = as.map f ∧ P numbers as := by
  obtain ⟨templates, htexts, hlift⟩ := h
  suffices hmap : LiftsAll values (texts.map f) fun numbers texts' =>
      ∃ as, texts' = as.map f ∧ NumberedAll numbers templates as by
    refine hmap.mono ?_
    rintro numbers texts' ⟨as, rfl, has⟩
    exact ⟨as, rfl, hlift numbers as has⟩
  clear hlift
  induction htexts with
  | nil =>
    refine nil.mono ?_
    rintro numbers _ rfl
    exact ⟨[], rfl, .nil⟩
  | @cons template text templates texts htext htexts ih =>
    have hfirst : Lifts values text fun numbers a => template.Numbered numbers a.toList :=
      ⟨template, htext, fun _ _ h => h⟩
    refine ((single (hf hfirst)).append ih).mono ?_
    rintro numbers _ ⟨_, _, rfl, ⟨_, rfl, a, rfl, ha⟩, as, rfl, has⟩
    exact ⟨a :: as, rfl, .cons ha has⟩

/-- A text is empty with numbers exactly if it is without. -/
theorem filter (h : LiftsAll values texts P) :
    LiftsAll values (texts.filter (!·.isEmpty)) fun numbers texts' =>
      ∃ as, texts' = as.filter (!·.isEmpty) ∧ P numbers as := by
  obtain ⟨templates, htexts, hlift⟩ := h
  -- the induction is on the templates, for which `P` has to be out of the way
  suffices hfilter : LiftsAll values (texts.filter (!·.isEmpty)) fun numbers texts' =>
      ∃ as, texts' = as.filter (!·.isEmpty) ∧ NumberedAll numbers templates as by
    refine hfilter.mono ?_
    rintro numbers texts' ⟨as, rfl, has⟩
    exact ⟨as, rfl, hlift numbers as has⟩
  clear hlift
  induction htexts with
  | nil =>
    refine nil.mono ?_
    rintro numbers _ rfl
    exact ⟨[], rfl, .nil⟩
  | @cons template text templates texts htext htexts ih =>
    have hfirst : Lifts values text fun numbers a => template.Numbered numbers a.toList :=
      ⟨template, htext, fun _ _ h => h⟩
    -- an empty text has no slot, so it is empty with numbers as well
    by_cases hempty : text.isEmpty = true
    · have hnil : template = [] := by
        rw [String.isEmpty_iff, ← String.toList_eq_nil_iff, htext.spelled_eq] at hempty
        exact Template.spelled_eq_nil hempty
      rw [List.filter_cons_of_neg (by simp [hempty])]
      refine ih.mono ?_
      rintro numbers _ ⟨as, rfl, has⟩
      exact ⟨"" :: as, rfl, .cons (hnil ▸ .nil) has⟩
    · rw [List.filter_cons_of_pos (by simp [hempty])]
      refine ((single hfirst.isEmpty).append ih).mono ?_
      rintro numbers _ ⟨_, _, rfl, ⟨a, rfl, ha, hsame⟩, as, rfl, has⟩
      refine ⟨a :: as, ?_, .cons ha has⟩
      rw [List.filter_cons_of_pos (by simp [hsame, hempty])]
      rfl

/-- Texts with a separator between them. -/
theorem intercalate (h : LiftsAll values texts P) {separator : String} (hseparator : NoAt separator)
    (hglue : Sql.isGlue separator = true) :
    Lifts values (separator.intercalate texts) fun numbers text =>
      ∃ texts', text = separator.intercalate texts' ∧ P numbers texts' := by
  obtain ⟨templates, htexts, hlift⟩ := h
  -- again the induction is on the templates, and `P` comes back at the end
  suffices hjoin : Lifts values (separator.intercalate texts) fun numbers text =>
      ∃ as, text = separator.intercalate as ∧ NumberedAll numbers templates as by
    refine hjoin.mono ?_
    rintro numbers text' ⟨as, rfl, has⟩
    exact ⟨as, rfl, hlift numbers as has⟩
  clear hlift
  induction htexts with
  | nil =>
    rw [String.intercalate_nil]
    refine (Lifts.ofNoAt (by decide)).mono ?_
    rintro numbers _ rfl
    exact ⟨[], String.intercalate_nil.symm, .nil⟩
  | @cons template text templates texts htext htexts ih =>
    have hfirst : Lifts values text fun numbers a => template.Numbered numbers a.toList :=
      ⟨template, htext, fun _ _ h => h⟩
    cases htexts with
    | nil =>
      rw [String.intercalate_singleton]
      refine hfirst.mono fun numbers a ha => ⟨[a], ?_, .cons ha .nil⟩
      rw [String.intercalate_singleton]
    | cons hnext hrest =>
      have hends : endsApart separator.toList = true := (Bool.and_eq_true_iff.mp hglue).2
      rw [String.intercalate_cons_cons, String.append_assoc]
      refine (hfirst.append (ih.behind ⟨hseparator, hends⟩) (Seam.before hglue)).mono ?_
      rintro numbers _ ⟨a, _, rfl, ha, _, rfl, as, rfl, has⟩
      -- behind a separator there is a next text, with numbers and without
      obtain ⟨b, bs, rfl⟩ : ∃ b bs, as = b :: bs := by
        cases has
        exact ⟨_, _, rfl⟩
      refine ⟨a :: b :: bs, ?_, .cons ha has⟩
      rw [String.intercalate_cons_cons, String.append_assoc]

end LiftsAll

end DescriptorSql.Binding
