import DescriptorSql.Proofs.Descriptor.Named
import DescriptorSql.Proofs.Lexical.Clauses

/-!
# `Proofs/Binding/Phrase.lean` — statements with named values

A clause that may be absent is a keyword with texts behind it, or nothing where there are no texts
(`Sql.phrase`). Numbers in the texts neither add a clause nor take one away, so a statement whose
conditions and row counts lift is the same statement with numbers in them
(`Clauses.IsNamed.lifts_toSql`).
-/

set_option autoImplicit false

namespace DescriptorSql

open Binding (Lifts LiftsAll SlotNumbers)
open Sql (ClosesApart NoAt OpensApart)

namespace Sql

/-! ## Phrases -/

/-- Texts behind a keyword; without texts there is nothing. -/
def phrase (lead separator : String) (texts : List String) : String :=
  if texts.isEmpty then "" else lead ++ separator.intercalate texts

/-- A phrase begins with its blank or is empty, and no name runs into it. -/
theorem startsApart_phrase (lead separator : String) (texts : List String) :
    startsApart (phrase (" " ++ lead) separator texts).toList = true := by
  unfold phrase
  split
  · rfl
  · rw [String.append_assoc]
    exact startsApart_space _

/-- An empty text counts as absent. -/
theorem toList_present (text? : Option String) :
    (present text?).toList = text?.toList.filter (!·.isEmpty) := by
  cases text? with
  | none => rfl
  | some text =>
    rw [present, Option.filter_some, Option.toList_some, List.filter_cons]
    split <;> rfl

namespace Clauses

/-- The condition and the appended one are a phrase of at most two texts. -/
theorem serialize_filterTokens (clauses : Clauses) (append : Append) :
    serialize (clauses.filterTokens append) =
      phrase " WHERE " " AND "
        ((present clauses.filter).toList ++ (present append.filter).toList) := by
  unfold filterTokens
  cases present clauses.filter with
  | none =>
    cases present append.filter with
    | none => rfl
    | some extra =>
      rw [← String.toList_inj]
      simp [phrase, spaced, Token.text, Keyword.text]
  | some own =>
    cases present append.filter with
    | none =>
      rw [← String.toList_inj]
      simp [phrase, spaced, Token.text, Keyword.text]
    | some extra =>
      rw [← String.toList_inj]
      simp [phrase, spaced, Token.text, Keyword.text, String.intercalate_cons_cons]

theorem serialize_havingTokens (clauses : Clauses) :
    serialize clauses.havingTokens = phrase " HAVING " " " (present clauses.having).toList := by
  unfold havingTokens
  cases present clauses.having with
  | none => rfl
  | some text =>
    rw [← String.toList_inj]
    simp [phrase, spaced, Token.text, Keyword.text]

/-- A bound is a phrase of at most one text. -/
theorem serialize_boundTokens (keyword : Keyword) (bound? : Option Bound) :
    serialize (boundTokens keyword bound?) =
      phrase (" " ++ (keyword.text ++ " ")) " " (boundTexts bound?) := by
  cases bound? with
  | none => rfl
  | some bound =>
    rw [← String.toList_inj]
    simp [boundTokens, boundTexts, phrase, spaced, Token.text]

end Clauses

end Sql

/-! ## Phrases of texts that lift -/

namespace Binding

variable {values : Entries String Json} {texts : List String} {P : SlotNumbers → List String → Prop}

/-- With numbers there are texts exactly if there are without. -/
theorem LiftsAll.isEmpty (h : LiftsAll values texts P) :
    LiftsAll values texts fun numbers texts' =>
      P numbers texts' ∧ texts'.isEmpty = texts.isEmpty := by
  obtain ⟨templates, htexts, hlift⟩ := h
  refine ⟨templates, htexts, fun numbers texts' hnumbered => ⟨hlift _ _ hnumbered, ?_⟩⟩
  cases htexts with
  | nil =>
    cases hnumbered
    rfl
  | cons htext hrest =>
    cases hnumbered
    rfl

/-- Whether there is a keyword depends on how many texts there are, and numbers do not change that.
-/
theorem LiftsAll.phrase (h : LiftsAll values texts P) {lead separator : String}
    (hlead : OpensApart lead) (hseparator : NoAt separator) (hglue : Sql.isGlue separator = true) :
    Lifts values (Sql.phrase lead separator texts) fun numbers text =>
      ∃ texts', text = Sql.phrase lead separator texts' ∧ P numbers texts' := by
  unfold Sql.phrase
  by_cases hempty : texts.isEmpty = true
  · obtain rfl := List.isEmpty_iff.mp hempty
    obtain ⟨templates, htexts, hlift⟩ := h
    cases htexts
    refine (Lifts.ofNoAt (show NoAt "" by decide)).mono ?_
    rintro numbers _ rfl
    exact ⟨[], rfl, hlift numbers [] .nil⟩
  · rw [if_neg hempty]
    refine ((h.isEmpty.intercalate hseparator hglue).behind hlead).mono ?_
    rintro numbers _ ⟨_, rfl, texts', rfl, htexts, hsame⟩
    refine ⟨texts', ?_, htexts⟩
    rw [hsame, if_neg hempty]

/-- A text that may be absent, and is present with numbers exactly if it is without. -/
def LiftsOption (values : Entries String Json) (text? : Option String)
    (P : SlotNumbers → Option String → Prop) : Prop :=
  LiftsAll values text?.toList fun numbers texts =>
    ∃ text?', texts = text?'.toList ∧ P numbers text?'

namespace LiftsOption

variable {text? : Option String} {P Q : SlotNumbers → Option String → Prop}

theorem none (h : ∀ numbers, P numbers none) : LiftsOption values none P := by
  refine LiftsAll.nil.mono ?_
  rintro numbers _ rfl
  exact ⟨_, rfl, h numbers⟩

/-- A text that is present stays present with numbers in it. -/
theorem some {text : String} {P : SlotNumbers → String → Prop} (h : Lifts values text P) :
    LiftsOption values (some text) fun numbers text?' =>
      ∃ text', text?' = some text' ∧ P numbers text' := by
  refine (LiftsAll.single h).mono ?_
  rintro numbers _ ⟨text', rfl, htext⟩
  exact ⟨_, rfl, text', rfl, htext⟩

theorem mono (h : LiftsOption values text? P)
    (hPQ : ∀ numbers text?', P numbers text?' → Q numbers text?') : LiftsOption values text? Q := by
  refine LiftsAll.mono h ?_
  rintro numbers _ ⟨text?', rfl, htext⟩
  exact ⟨text?', rfl, hPQ numbers text?' htext⟩

/-- Numbers make no text empty and fill no empty one, so what counts as absent stays absent. -/
theorem present (h : LiftsOption values text? P) :
    LiftsAll values (Sql.present text?).toList fun numbers texts =>
      ∃ text?', texts = (Sql.present text?').toList ∧ P numbers text?' := by
  rw [Sql.toList_present]
  refine (LiftsAll.filter h).mono ?_
  rintro numbers _ ⟨_, rfl, text?', rfl, htext⟩
  exact ⟨text?', (Sql.toList_present text?').symm, htext⟩

end LiftsOption

end Binding

/-! ## Statements -/

namespace Sql.Clauses

open Binding (LiftsOption)

variable {values : Entries String Json}

/-- The names behind the condition have no at signs, and the row counts name values. -/
structure IsNamed (values : Entries String Json) (clauses : Clauses) : Prop where
  groupBy : ∀ name ∈ clauses.groupBy, NoAt name
  orderBy : ∀ entry ∈ clauses.orderBy, NoAt entry.1
  limit : NamedBound values clauses.limit
  offset : NamedBound values clauses.offset
  returning : ∀ name ∈ clauses.returning, NoAt name

theorem IsNamed.ofReturning {clauses : Clauses} (hgroupBy : clauses.groupBy = [])
    (horderBy : clauses.orderBy = []) (hlimit : clauses.limit = none)
    (hoffset : clauses.offset = none) (hreturning : ∀ name ∈ clauses.returning, NoAt name) :
    clauses.IsNamed values :=
  ⟨by simp [hgroupBy], by simp [horderBy], by simp [NamedBound, hlimit],
    by simp [NamedBound, hoffset],
    hreturning⟩

/-- The row count of a bound may be a named value, and it is numbered like the others. -/
theorem lifts_boundTokens (keyword : Keyword) {bound? : Option Bound}
    (h : NamedBound values bound?) :
    Lifts values (serialize (boundTokens keyword bound?)) fun numbers text => ∃ bound?',
      text = serialize (boundTokens keyword bound?') ∧
        Option.Rel (Bound.Related (Json.Numbered numbers)) bound? bound?' := by
  have hlead : OpensApart (" " ++ (keyword.text ++ " ")) := by cases keyword <;> decide
  rw [serialize_boundTokens]
  refine ((lifts_bound h).phrase hlead (show NoAt " " by decide) (by decide)).mono ?_
  rintro numbers _ ⟨_, rfl, bound?', rfl, hbound⟩
  exact ⟨bound?', (serialize_boundTokens keyword bound?').symm, hbound⟩

/-- The own condition gets numbers, and the appended one has none to get. -/
theorem lifts_filterTokens {clauses : Clauses} {append : Append}
    {F : SlotNumbers → Option String → Prop} (hfilter : LiftsOption values clauses.filter F)
    (happend : ∀ sql ∈ append.filter, NoAt sql) :
    Lifts values (serialize (clauses.filterTokens append)) fun numbers text => ∃ filter,
      text = serialize (filterTokens { clauses with filter := filter } append) ∧
        F numbers filter := by
  have hextra : LiftsAll values (present append.filter).toList fun _ texts =>
      texts = (present append.filter).toList := by
    cases hpresent : present append.filter with
    | none => exact LiftsAll.nil
    | some extra =>
      have hmem := (Option.mem_filter_iff.mp hpresent).1
      refine (LiftsAll.single (Lifts.ofNoAt (happend extra hmem))).mono ?_
      rintro numbers _ ⟨_, rfl, rfl⟩
      rfl
  rw [serialize_filterTokens]
  refine ((hfilter.present.append hextra).phrase (show OpensApart " WHERE " by decide)
    (show NoAt " AND " by decide) (by decide)).mono ?_
  rintro numbers _ ⟨_, rfl, _, _, rfl, ⟨filter, rfl, hfilter⟩, rfl⟩
  exact ⟨filter, (serialize_filterTokens { clauses with filter := filter } append).symm, hfilter⟩

theorem lifts_havingTokens {clauses : Clauses} {G : SlotNumbers → Option String → Prop}
    (hhaving : LiftsOption values clauses.having G) :
    Lifts values (serialize clauses.havingTokens) fun numbers text => ∃ having,
      text = serialize (havingTokens { clauses with having := having }) ∧ G numbers having := by
  rw [serialize_havingTokens]
  refine (hhaving.present.phrase (show OpensApart " HAVING " by decide) (show NoAt " " by decide)
    (by decide)).mono ?_
  rintro numbers _ ⟨_, rfl, having, rfl, hhaving⟩
  exact ⟨having, (serialize_havingTokens { clauses with having := having }).symm, hhaving⟩

/-- A statement whose parts lift is the same statement with numbers in its parts. -/
theorem IsNamed.lifts_toSql {clauses : Clauses} {append : Append}
    {H J : SlotNumbers → String → Prop} {F G : SlotNumbers → Option String → Prop}
    (hnamed : clauses.IsNamed values) (hhead : Lifts values clauses.head H)
    (hjoins : Lifts values clauses.joins J) (hapart : startsApart clauses.joins.toList = true)
    (hfilter : LiftsOption values clauses.filter F) (hhaving : LiftsOption values clauses.having G)
    (hjoin : append.join = none) (happend : ∀ sql ∈ append.filter, NoAt sql) :
    Lifts values (clauses.toSql append) fun numbers text => ∃ head joins filter having limit offset,
      text = toSql
        { clauses with
          head := head, joins := joins, filter := filter, having := having, limit := limit,
          offset := offset } append ∧
      H numbers head ∧ J numbers joins ∧ F numbers filter ∧ G numbers having ∧
      Option.Rel (Bound.Related (Json.Numbered numbers)) clauses.limit limit ∧
      Option.Rel (Bound.Related (Json.Numbered numbers)) clauses.offset offset := by
  have hwhere : startsApart (serialize (clauses.filterTokens append)).toList = true := by
    rw [serialize_filterTokens]
    exact startsApart_phrase "WHERE " _ _
  have hhavingApart : startsApart (serialize clauses.havingTokens).toList = true := by
    rw [serialize_havingTokens]
    exact startsApart_phrase "HAVING " _ _
  have hboundApart : ∀ (keyword : Keyword) (bound? : Option Bound),
      startsApart (serialize (boundTokens keyword bound?)).toList = true := by
    intro keyword bound?
    rw [serialize_boundTokens]
    exact startsApart_phrase _ _ _
  have htext : ∀ clauses : Clauses, clauses.toSql append =
      Text.trim (clauses.head ++ clauses.joins ++ serialize (clauses.filterTokens append) ++
        serialize (namesClause .groupBy clauses.groupBy) ++ serialize clauses.havingTokens ++
        serialize clauses.orderTokens ++ serialize (boundTokens .limit clauses.limit) ++
        serialize (boundTokens .offset clauses.offset) ++
        serialize (namesClause .returning clauses.returning)) := by
    intro clauses
    have hnone : present append.join = none := by rw [hjoin]; rfl
    rw [toSql, serialize_tokens, front, back, hnone]
    simp only [Option.getD_none, String.append_empty, String.append_assoc]
  rw [htext]
  -- the clauses are added in order, and each of them is empty or starts with a space
  have hlift := (((((((hhead.append hjoins (Or.inl hapart)).append
    (lifts_filterTokens hfilter happend) (Or.inl hwhere)).before
    (closesApart_namesClause .groupBy hnamed.groupBy)).append
    (lifts_havingTokens hhaving) (Or.inl hhavingApart)).before
    (closesApart_orderTokens hnamed.orderBy)).append
    (lifts_boundTokens .limit hnamed.limit) (Or.inl (hboundApart _ _))).append
    (lifts_boundTokens .offset hnamed.offset) (Or.inl (hboundApart _ _))).before
    (closesApart_namesClause .returning hnamed.returning)
  refine hlift.trim.mono ?_
  rintro numbers _ ⟨_, rfl, _, rfl, _, _, rfl, ⟨_, _, rfl, ⟨_, rfl, _, _, rfl, ⟨_, rfl, _, _, rfl,
    ⟨head, joins, rfl, hhead, hjoins⟩, filter, rfl, hfilter⟩, having, rfl, hhaving⟩,
    limit, rfl, hlimit⟩, offset, rfl, hoffset⟩
  refine ⟨head, joins, filter, having, limit, offset, ?_, hhead, hjoins, hfilter, hhaving,
    hlimit, hoffset⟩
  rw [htext]
  rfl

end Sql.Clauses

end DescriptorSql
