import DescriptorSql.Descriptor.QueryForm
import DescriptorSql.Proofs.Compile.Composed
import DescriptorSql.Proofs.Lexical.Operand

/-!
# `Proofs/Compile/Grammatical.lean` — operands that fit their operators

A comparison can be parsed, as far as its operand goes, if the operand is what its operator takes: a
value, a list with at least one element, two bounds, or one SELECT in parentheses. Subqueries are
written as one SELECT by their form, and bounds are counted by the compiler; the elements of lists
are not. So all comparisons of a predicate, those in its groups and subqueries included, can be
parsed if it has no empty list (`Predicate.grammatical_toSql`), and an empty list comes out as it is
(`not_grammatical_emptyListPredicate`).
-/

set_option autoImplicit false

namespace DescriptorSql

open Sql (IsLiteral listText)

/-- A comparison with values has the operand that its operator takes. -/
inductive IsGrammatical (L : Place → Prop) : String → Prop
  | value {field : String} {operator : Operator} {operand : String} (hfield : L (.name field))
      (hmembership : operator.isMembership = false) (hrange : operator.isRange = false)
      (hoperand : IsLiteral operand) : IsGrammatical L (comparisonText field operator operand)
  | list {field : String} {operator : Operator} {items : List String} (hfield : L (.name field))
      (hmembership : operator.isMembership = true) (hne : items ≠ [])
      (hitems : ∀ item ∈ items, IsLiteral item) :
      IsGrammatical L (comparisonText field operator (listText items))
  | range {field : String} {operator : Operator} {low high : String} (hfield : L (.name field))
      (hrange : operator.isRange = true) (hlow : IsLiteral low) (hhigh : IsLiteral high) :
      IsGrammatical L (comparisonText field operator (low ++ " AND " ++ high))

/-- What a place holds, if it holds a value. -/
def Place.valueIs (p : Json → Bool) : Place → Bool
  | .value content => p content
  | _ => true

variable {L : Place → Prop}

/-- What holds of all comparisons with values may be replaced by what follows from it. -/
theorem ComposedWith.imp {C D : String → Prop} (hC : ∀ text, C text → D text) {part : Part}
    {text : String} (h : ComposedWith L C part text) : ComposedWith L D part text := by
  induction h with
  | condition connective _ ih => exact .condition connective ih
  | group connective hne hshown _ ih => exact .group connective hne hshown ih
  | negation hne _ ih => exact .negation hne ih
  | existence hne _ ih => exact .existence hne ih
  | comparison hcomparison => exact .comparison (hC _ hcomparison)
  | member hfield hmembership _ ih => exact .member hfield hmembership ih
  | quantified hfield hmembership hrange _ ih => exact .quantified hfield hmembership hrange ih
  | rows keyword _ hclosing ih => exact .rows keyword ih hclosing
  | noJoins => exact .noJoins
  | join kind hrelation => exact .join kind hrelation
  | lateral relation hkey _ ih => exact .lateral relation hkey ih
  | joins _ _ ihfirst ihsecond => exact .joins ihfirst ihsecond
  | select hcolumns hsource hbody _ _ _ houter ihjoins ihfilter ihhaving =>
    exact .select hcolumns hsource hbody ihjoins ihfilter ihhaving houter

/-- If no value is or has an empty array, the comparisons with values can be parsed. -/
theorem IsComparison.grammatical
    (hL : ∀ value, L (.value value) → value.isPlain = true ∧ value.isFilled = true) {text : String}
    (h : IsComparison L text) : IsGrammatical L text := by
  cases h with
  | value hfield hvalue hmembership hrange =>
    obtain ⟨hplain, hfilled⟩ := hL _ hvalue
    exact .value hfield hmembership hrange (Sql.isLiteral_literal _ hplain hfilled)
  | @list field operator items hfield hitems hrange =>
    obtain ⟨hplain, hfilled⟩ := hL _ hitems
    rw [Json.isFilled, Bool.and_eq_true, Bool.not_eq_true'] at hfilled
    have hne := Sql.literals_ne_nil hfilled.1
    have hliterals := Sql.isLiteral_literals items hplain hfilled.2
    cases hmembership : operator.isMembership with
    | true => exact .list hfield hmembership hne hliterals
    | false => exact .value hfield hmembership hrange (.list hne hliterals)
  | @range field operator low high hfield hbounds hrange =>
    obtain ⟨hplain, hfilled⟩ := hL _ hbounds
    rw [Json.isPlain, Json.itemsArePlain_iff] at hplain
    rw [Json.isFilled, Bool.and_eq_true, Json.itemsAreFilled_iff] at hfilled
    have hbound : ∀ bound ∈ [low, high], IsLiteral (Sql.literal bound) := fun bound hbound =>
      Sql.isLiteral_literal bound (hplain bound hbound) (hfilled.2 bound hbound)
    exact .range hfield hrange (hbound low (by simp)) (hbound high (by simp))

theorem Catalog.value_not_mem_places (catalog : Catalog) (value : Json) :
    .value value ∉ catalog.places := by
  intro hmem
  obtain ⟨⟨name, relation⟩, -, hmem⟩ := List.mem_flatMap.mp hmem
  simp [Relation.places] at hmem

/-- The places that the condition of a predicate is composed of: its own, those of the catalog, and
the one column that existence tests select. -/
def Predicate.allPlaces (predicate : Predicate) (catalog : Catalog) : List Place :=
  .name "1" :: (Harvest.places.predicate predicate ++ catalog.places)

/-- Every comparison that a predicate is compiled to has the operand that its operator takes, in its
subqueries as well, if no value of the predicate is or has an empty array. -/
theorem Predicate.grammatical_toSql (catalog : Catalog) (connective : Connective)
    (predicate : Predicate)
    (hplain : ∀ place ∈ Harvest.places.predicate predicate, place.valueIs Json.isPlain = true)
    (hfilled : ∀ place ∈ Harvest.places.predicate predicate, place.valueIs Json.isFilled = true)
    (text : String) (hok : predicate.toSql catalog connective = .ok text) :
    ComposedWith (· ∈ predicate.allPlaces catalog) (IsGrammatical (· ∈ predicate.allPlaces catalog))
      .condition text := by
  have hsupplies : Supplies (· ∈ predicate.allPlaces catalog) catalog :=
    ⟨fun place hplace => List.mem_cons_of_mem _ (List.mem_append_right _ hplace),
      List.mem_cons_self⟩
  have hcomposed : Composed (· ∈ predicate.allPlaces catalog) .condition text :=
    composed_predicate hsupplies
      (fun place hplace => List.mem_cons_of_mem _ (List.mem_append_left _ hplace)) hok
  refine hcomposed.imp fun comparison hcomparison => hcomparison.grammatical fun value hvalue => ?_
  rcases List.mem_cons.mp hvalue with hvalue | hvalue
  · cases hvalue
  rcases List.mem_append.mp hvalue with hvalue | hvalue
  · exact ⟨hplain _ hvalue, hfilled _ hvalue⟩
  · exact absurd hvalue (Catalog.value_not_mem_places catalog value)

/-- Values of every form, in groups and subqueries. -/
def listPredicate : Predicate :=
  .ofEntries [("OR", .anyOf
      [.ofEntries [("id", .comparisons [(.isIn, .list [.number (.int 1), .string "a, b)"])])],
        .ofEntries [("range", .comparisons [(.notBetween, .list [.string "$low", .null])]),
          ("tags", .equals (.array [.array [.string "("], .bool true]))]]),
    ("albums", .comparisons [(.notIn, .subqueries [("albums", ⟨none, { QueryBody.empty with
      select := [("id", .reuse)]
      filter :=
        some (.ofEntries [("kind", .comparisons [(.notIn, .list [.string "live"])])]) }⟩)])])]

theorem grammatical_listPredicate : ∃ text,
    ((∀ place ∈ Harvest.places.predicate listPredicate, place.valueIs Json.isPlain = true) ∧
      (∀ place ∈ Harvest.places.predicate listPredicate, place.valueIs Json.isFilled = true) ∧
        listPredicate.toSql albumCatalog .and = .ok text) ∧
      ComposedWith (· ∈ listPredicate.allPlaces albumCatalog)
        (IsGrammatical (· ∈ listPredicate.allPlaces albumCatalog)) .condition text := by
  have hplain :
      ∀ place ∈ Harvest.places.predicate listPredicate, place.valueIs Json.isPlain = true :=
    List.all_eq_true.mp (by decide)
  have hfilled :
      ∀ place ∈ Harvest.places.predicate listPredicate, place.valueIs Json.isFilled = true :=
    List.all_eq_true.mp (by decide)
  obtain ⟨text, hok⟩ : ∃ text, listPredicate.toSql albumCatalog .and = .ok text :=
    exists_eq_ok (by decide)
  exact ⟨text, ⟨hplain, hfilled, hok⟩,
    Predicate.grammatical_toSql albumCatalog .and listPredicate hplain hfilled text hok⟩

/-! ## Empty lists -/

/-- A text without the letters of a connective is no join of two. -/
theorem Connective.eq_singleton_of_join {connective : Connective} {clauses : List String}
    {text : String} (h : connective.join clauses = text) (hne : text ≠ "")
    (hand : 'A' ∉ text.toList) (hor : 'O' ∉ text.toList) : clauses = [text] := by
  subst h
  match clauses with
  | [] => exact absurd rfl hne
  | [clause] => simp [join]
  | first :: second :: rest =>
    exfalso
    cases connective with
    | and => exact hand (by simp [join, separator, String.intercalate_cons_cons])
    | or => exact hor (by simp [join, separator, String.intercalate_cons_cons])

/-- The predicate of `{"id": {"in": []}}`. -/
def emptyListPredicate : Predicate := .ofEntries [("id", .comparisons [(.isIn, .list [])])]

theorem identifier_of_mem_emptyListPredicate {field : String}
    (h : .name field ∈ emptyListPredicate.allPlaces []) :
    Sql.identifier field = "1" ∨ Sql.identifier field = "\"id\"" := by
  have hplaces :
      emptyListPredicate.allPlaces [] = [.name "1", .name "id", .value (.array [])] := rfl
  have hfield : field = "1" ∨ field = "id" := by simpa [hplaces] using h
  rcases hfield with rfl | rfl
  · exact Or.inl (by decide +kernel)
  · exact Or.inr (by decide +kernel)

theorem eq_of_comparisonText {field : String} {operator : Operator} {right : String}
    (hfield : .name field ∈ emptyListPredicate.allPlaces [])
    (h : "\"id\" IN ()" = comparisonText field operator right) :
    operator = .isIn ∧ right = "()" := by
  rw [comparisonText, ← String.toList_inj] at h
  rcases identifier_of_mem_emptyListPredicate hfield with hone | hid
  · simp [hone] at h
  · rw [hid] at h
    cases operator <;> simp [Operator.sql] at h
    exact ⟨rfl, String.toList_inj.mp h.symm⟩

/-- What is written for an empty list is no condition that can be parsed. -/
theorem not_composed_emptyList :
    ¬ ComposedWith (· ∈ emptyListPredicate.allPlaces [])
      (IsGrammatical (· ∈ emptyListPredicate.allPlaces [])) .condition "\"id\" IN ()" := by
  -- a condition with this text has one clause, which is the text again
  have hclause : ¬ ComposedWith (· ∈ emptyListPredicate.allPlaces [])
      (IsGrammatical (· ∈ emptyListPredicate.allPlaces [])) .clause "\"id\" IN ()" := by
    intro h
    generalize htext : "\"id\" IN ()" = text at h
    cases h with
    | group => simp [← String.toList_inj] at htext
    | negation => simp [← String.toList_inj] at htext
    | existence _ htests =>
      have hsingle := Connective.eq_singleton_of_join htext.symm (by decide) (by decide) (by decide)
      rw [hsingle] at htests
      have htest := htests _ List.mem_cons_self
      generalize htext : "\"id\" IN ()" = text at htest
      cases htest with
      | rows => simp [← String.toList_inj] at htext
    | comparison hcomparison =>
      cases hcomparison with
      | value hfield hmembership =>
        obtain ⟨rfl, -⟩ := eq_of_comparisonText hfield htext
        cases hmembership
      | list hfield _ hne hitems =>
        obtain ⟨-, hlist⟩ := eq_of_comparisonText hfield htext
        exact Sql.not_isLiteral_empty (hlist ▸ .list hne hitems)
      | range hfield hrange =>
        obtain ⟨rfl, -⟩ := eq_of_comparisonText hfield htext
        cases hrange
    | @member field operator rows hfield hmembership hrows =>
      cases hrows with
      | rows =>
        rw [← String.toList_inj] at htext
        rcases identifier_of_mem_emptyListPredicate hfield with hone | hid
        · simp [hone] at htext
        · rw [hid] at htext
          cases operator <;> simp [Operator.sql] at htext
    | quantified hfield hmembership =>
      obtain ⟨rfl, -⟩ := eq_of_comparisonText hfield htext
      cases hmembership
  intro h
  generalize htext : "\"id\" IN ()" = text at h
  cases h with
  | condition connective hclauses =>
    have hsingle := Connective.eq_singleton_of_join htext.symm (by decide) (by decide) (by decide)
    rw [hsingle] at hclauses
    exact hclause (hclauses _ List.mem_cons_self)

/-- An empty list is read and compiled, and what it is compiled to cannot be parsed. -/
theorem not_grammatical_emptyListPredicate :
    ∃ json text, Predicate.ofJson? json = .ok emptyListPredicate ∧
      (∀ place ∈ Harvest.places.predicate emptyListPredicate, place.valueIs Json.isPlain = true) ∧
        emptyListPredicate.toSql [] .and = .ok text ∧
          ¬ ComposedWith (· ∈ emptyListPredicate.allPlaces [])
            (IsGrammatical (· ∈ emptyListPredicate.allPlaces [])) .condition text := by
  refine ⟨.object [("id", .object [("in", .array [])])], "\"id\" IN ()", rfl,
    List.all_eq_true.mp (by decide), ?_, not_composed_emptyList⟩
  exact eq_ok_of_toOption (by decide +kernel)

end DescriptorSql
