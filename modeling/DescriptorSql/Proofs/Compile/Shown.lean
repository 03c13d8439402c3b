import DescriptorSql.Proofs.Compile.AlikeSelect
import DescriptorSql.Proofs.Descriptor.Reference

/-!
# `Proofs/Compile/Shown.lean` — no reference is ignored

If a query compiles, every relation that it refers to is in the catalog, and the statement over the
relation's rows stands in the text (`ShownIn`). A statement in a subquery stands in parentheses, so
nothing that is done to a text on the way takes any of it away: clauses are joined, put in
parentheses and trimmed, and only empty ones are left out.
-/

set_option autoImplicit false

namespace DescriptorSql

variable {catalog : Catalog}

/-! ## Texts in texts -/

/-- The second text stands in the first. -/
def Contains (text piece : String) : Prop := piece.toList <:+: text.toList

namespace Contains

variable {a b c : String}

theorem refl (a : String) : Contains a a := List.infix_rfl

theorem trans (hab : Contains a b) (hbc : Contains b c) : Contains a c := List.IsInfix.trans hbc hab

theorem append_left (h : Contains a c) (b : String) : Contains (b ++ a) c := by
  rw [Contains, String.toList_append]
  exact List.infix_append_of_infix_right h

theorem append_right (h : Contains a c) (b : String) : Contains (a ++ b) c := by
  rw [Contains, String.toList_append]
  exact List.infix_append_of_infix_left h

theorem ne_empty (h : Contains a c) (hc : c ≠ "") : a ≠ "" := by
  rintro rfl
  exact hc (String.toList_eq_nil_iff.mp (List.eq_nil_of_infix_nil h))

/-- A text with others around it is still there. -/
theorem intercalate {separator : String} {texts : List String} {text : String} (h : text ∈ texts) :
    Contains (separator.intercalate texts) text := by
  induction texts with
  | nil => cases h
  | cons first rest ih =>
    cases rest with
    | nil =>
      cases List.mem_singleton.mp h
      rw [String.intercalate_singleton]
      exact refl _
    | cons next rest =>
      rw [String.intercalate_cons_cons]
      rcases List.mem_cons.mp h with rfl | h
      · exact ((refl text).append_right separator).append_right _
      · exact (ih h).append_left _

end Contains

/-- The text begins with a parenthesis and ends with one. -/
def Enclosed (text : String) : Prop := ∃ inner : List Char, text.toList = '(' :: inner ++ [')']

/-- A text in parentheses is never left out, as only empty texts are. -/
theorem Enclosed.ne_empty {text : String} (h : Enclosed text) : text ≠ "" := by
  rintro rfl
  obtain ⟨inner, hinner⟩ := h
  simp at hinner

/-- A text in parentheses is not trimmed away. -/
theorem Contains.trim {text piece : String} (h : Contains text piece) (hpiece : Enclosed piece) :
    Contains (Text.trim text) piece := by
  obtain ⟨inner, hinner⟩ := hpiece
  obtain ⟨front, back, htext⟩ := h
  have hwhole : text.toList = front ++ '(' :: (inner ++ ')' :: back) := by
    rw [← htext, hinner]
    simp
  -- blanks in front end at the opening parenthesis, and those at the end at the closing one
  have hinside : front.dropWhile Text.isBlank ++ '(' :: (inner ++ ')' :: back) =
      (front.dropWhile Text.isBlank ++ '(' :: inner) ++ ')' :: back := by simp
  rw [Contains, Text.toList_trim, hwhole, Text.dropOuterBlanks,
    Sql.dropWhile_append_cons (by decide), hinside, Text.dropTrailingBlanks,
    Sql.reverse_dropWhile_append_cons (by decide), hinner]
  exact ⟨front.dropWhile Text.isBlank, (back.reverse.dropWhile Text.isBlank).reverse, by simp⟩

/-! ## References in texts -/

/-- The SELECT over a relation's rows in a subquery. -/
def rowsSelect (kind : SubQueryKind) (relation : Relation) (body : QueryBody)
    (expansion : Expansion) :
    String :=
  selectStatement (body.outputColumns (kind.select body.select) []).selectList
    (Sql.relationSource relation) body expansion (.condition (Sql.correlation relation))

/-- The SELECT over the rows of the relation that is referred to. -/
inductive Reference.Selects (catalog : Catalog) : Reference → Relation → String → Prop
  | rows {kind : SubQueryKind} {name : String} {body : QueryBody} {relation : Relation}
      {expansion : Expansion} (resolved : catalog.resolve name = .ok relation)
      (expanded : expandBody catalog body = .ok expansion) :
      Selects catalog (.rows kind name body) relation (rowsSelect kind relation body expansion)
  | nested {name : String} {query : SelectQuery} {relation : Relation} {expansion : Expansion}
      (resolved : catalog.resolve name = .ok relation)
      (expanded : query.expand catalog = .ok expansion) :
      Selects catalog (.nested name query) relation (nestedBody name relation query expansion)

/-- There is a SELECT over a relation only if the catalog has the relation. -/
theorem Reference.Selects.resolves {reference : Reference} {relation : Relation} {select : String}
    (h : reference.Selects catalog relation select) :
    catalog.resolve reference.name = .ok relation := by
  cases h with
  | rows resolved _ => exact resolved
  | nested resolved _ => exact resolved

/-- The parentheses that the SELECT stands in. A nested relation has one more SELECT around it,
which reads from nothing else and turns the rows into one value. -/
def Reference.frame (relation : Relation) (select : String) : Reference → String
  | nested name _ => "(" ++ nestedHead name relation ++ " FROM (" ++ select ++ ") )"
  | _ => "(" ++ select ++ if relation.junction.isSome then " )" else ")"

/-- The relation is in the catalog, and the SELECT over its rows stands in one of the texts. -/
inductive Reference.ShownIn (catalog : Catalog) (texts : List String) : Reference → Prop
  | joined {name : String} {relation : Relation} (resolved : catalog.resolve name = .ok relation) :
      ShownIn catalog texts (.joined name)
  | select {reference : Reference} {relation : Relation} {select text : String}
      (selects : reference.Selects catalog relation select) (text_mem : text ∈ texts)
      (contained : Contains text (reference.frame relation select)) :
      ShownIn catalog texts reference

namespace Reference

variable {reference : Reference} {texts others : List String} {text : String}

/-- Every SELECT over a relation stands in parentheses, so trimming does not reach it. -/
theorem enclosed_frame (relation : Relation) (select : String) (reference : Reference) :
    Enclosed (reference.frame relation select) := by
  have hclosed : ∀ inner : String, Enclosed ("(" ++ inner ++ ")") :=
    fun inner => ⟨inner.toList, by simp⟩
  cases reference with
  | nested name query =>
    have htext : "(" ++ nestedHead name relation ++ " FROM (" ++ select ++ ") )" =
        "(" ++ (nestedHead name relation ++ " FROM (" ++ select ++ ") ") ++ ")" := by
      rw [← String.toList_inj]
      simp
    rw [frame, htext]
    exact hclosed _
  | _ =>
    simp only [frame]
    split
    · have htext : "(" ++ select ++ " )" = "(" ++ (select ++ " ") ++ ")" := by
        rw [← String.toList_inj]
        simp
      rw [htext]
      exact hclosed _
    · exact hclosed _

namespace ShownIn

/-- To be shown, a reference has to be in the catalog. -/
theorem resolves (h : reference.ShownIn catalog texts) :
    ∃ relation, catalog.resolve reference.name = .ok relation := by
  cases h with
  | joined resolved => exact ⟨_, resolved⟩
  | select selects _ _ => exact ⟨_, selects.resolves⟩

/-- A reference stays shown if every text that is not empty is kept inside another. -/
theorem mono (h : reference.ShownIn catalog texts)
    (htexts : ∀ text ∈ texts, text ≠ "" → ∃ other ∈ others, Contains other text) :
    reference.ShownIn catalog others := by
  cases h with
  | joined resolved => exact .joined resolved
  | select selects text_mem contained =>
    have hne := contained.ne_empty (enclosed_frame _ _ _).ne_empty
    obtain ⟨other, hother, hcontains⟩ := htexts _ text_mem hne
    exact .select selects hother (hcontains.trans contained)

theorem trim (h : reference.ShownIn catalog [text]) :
    reference.ShownIn catalog [Text.trim text] := by
  cases h with
  | joined resolved => exact .joined resolved
  | select selects text_mem contained =>
    cases List.mem_singleton.mp text_mem
    exact .select selects List.mem_cons_self (contained.trim (enclosed_frame _ _ _))

end ShownIn

end Reference

/-- Every reference is shown in one of the texts. -/
def Shows (catalog : Catalog) (texts : List String) (references : List Reference) : Prop :=
  ∀ reference ∈ references, reference.ShownIn catalog texts

namespace Shows

variable {texts others : List String} {first second : List Reference} {text : String}

theorem nil (texts : List String) : Shows catalog texts [] := by simp [Shows]

theorem mono (h : Shows catalog texts first)
    (htexts : ∀ text ∈ texts, text ≠ "" → ∃ other ∈ others, Contains other text) :
    Shows catalog others first := fun reference hreference => (h reference hreference).mono htexts

theorem subset (h : Shows catalog texts first) (hsubset : texts ⊆ others) :
    Shows catalog others first :=
  h.mono fun text htext _ => ⟨text, hsubset htext, .refl text⟩

theorem lift (h : Shows catalog [text] first) {other : String} (hother : Contains other text) :
    Shows catalog [other] first :=
  h.mono fun _ htext _ => ⟨other, List.mem_cons_self, (List.mem_singleton.mp htext).symm ▸ hother⟩

theorem and (h : Shows catalog texts first) (h' : Shows catalog texts second) :
    Shows catalog texts (first ++ second) := fun reference hreference =>
  (List.mem_append.mp hreference).elim (h reference) (h' reference)

theorem append (h : Shows catalog texts first) (h' : Shows catalog others second) :
    Shows catalog (texts ++ others) (first ++ second) :=
  (h.subset (List.subset_append_left texts others)).and
    (h'.subset (List.subset_append_right texts others))

theorem cons (h : Shows catalog [text] first) (h' : Shows catalog others second) :
    Shows catalog (text :: others) (first ++ second) := h.append h'

/-- Whatever is written around the texts, the references stay. -/
theorem map (h : Shows catalog texts first) {f : String → String}
    (hf : ∀ text, Contains (f text) text) :
    Shows catalog (texts.map f) first :=
  h.mono fun text htext _ => ⟨f text, List.mem_map_of_mem htext, hf text⟩

theorem trim (h : Shows catalog [text] first) : Shows catalog [Text.trim text] first :=
  fun reference hreference => (h reference hreference).trim

/-- Joined by AND or OR, the texts are all there. -/
theorem join (h : Shows catalog texts first) (connective : Connective) :
    Shows catalog [connective.join texts] first :=
  h.mono fun _ htext _ => ⟨_, List.mem_cons_self, .intercalate htext⟩

/-! ## Clauses -/

/-- A group of nothing is no clause, but nothing is shown in it either. -/
theorem groupClauses (h : Shows catalog texts first) (connective : Connective) :
    Shows catalog (groupClauses connective texts) first := by
  apply h.mono
  intro text htext hne
  have hshown : text ∈ texts.filter (!·.isEmpty) := List.mem_filter.mpr ⟨htext, by simpa using hne⟩
  have hjoin : Contains (connective.join (texts.filter (!·.isEmpty))) text := .intercalate hshown
  unfold DescriptorSql.groupClauses
  rw [if_neg (by simpa using List.ne_nil_of_mem hshown)]
  exact ⟨_, List.mem_cons_self, (hjoin.append_left "(").append_right ")"⟩

/-- A negation of an empty condition is left out with it. -/
theorem negationClauses (h : Shows catalog [text] first) :
    Shows catalog (negationClauses text) first := by
  apply h.mono
  intro inner hinner hne
  cases List.mem_singleton.mp hinner
  unfold DescriptorSql.negationClauses
  rw [if_neg (by simpa using hne)]
  exact ⟨_, List.mem_cons_self, ((Contains.refl text).append_left "NOT(").append_right ")"⟩

theorem existenceClauses (h : Shows catalog texts first) :
    Shows catalog (existenceClauses texts) first := by
  apply h.mono
  intro text htext _
  unfold DescriptorSql.existenceClauses
  rw [if_neg (by simpa using List.ne_nil_of_mem htext)]
  exact ⟨_, List.mem_cons_self, .intercalate htext⟩

end Shows

/-- If an entry compiles, its references are shown in its clauses. -/
def ShowsIfOk (catalog : Catalog) (clausal : Clausal) (references : List Reference) : Prop :=
  ∀ clauses, clausal = .ok clauses → Shows catalog clauses references

/-- Entries are compiled one after the other, and fail as a whole if one of them does. -/
theorem shows_gather {entries : Entries String Clausal}
    {references : Entries String (List Reference)}
    (h : Entries.Related (ShowsIfOk catalog) entries references) {clauses : List String}
    (hok : gather entries = .ok clauses) : Shows catalog clauses (Harvest.all references) := by
  induction h generalizing clauses with
  | nil => exact .nil clauses
  | @cons entry reference entries references hfirst hrest ih =>
    rw [gather] at hok
    obtain ⟨own, hown, hok⟩ := exists_of_bind_eq_ok hok
    obtain ⟨others, hothers, hok⟩ := exists_of_bind_eq_ok hok
    cases hok
    exact (hfirst.2 own hown).append (ih hothers)

/-- What is left of the references of a level is shown in its condition. -/
theorem shows_overlayText {levels : List (Entries String Clausal)}
    {references : List (Entries String (List Reference))}
    (h : List.Forall₂ (Entries.Related (ShowsIfOk catalog)) levels references)
    {text? : Option String} (hok : overlayText levels = .ok text?) :
    Shows catalog text?.toList (Harvest.overlaid references) := by
  cases h with
  | nil => exact .nil _
  | cons hfirst hrest =>
    obtain ⟨clauses, hclauses, rfl⟩ := exists_of_map_eq_ok hok
    exact (shows_gather (hfirst.foldl_merge hrest) hclauses).join .and

/-! ## Statements -/

/-- The texts of an expansion that references can be shown in. -/
def Expansion.texts (expansion : Expansion) : List String :=
  expansion.joins :: (expansion.filter.toList ++ expansion.having.toList)

/-- Spacing puts blanks between tokens and changes none of them. -/
theorem contains_spaced {tokens : List Sql.Token} {token : Sql.Token} (h : token ∈ tokens) :
    Contains (Sql.serialize (Sql.spaced tokens)) token.text := by
  obtain ⟨front, back, rfl⟩ := List.append_of_mem h
  have htext : Sql.serialize (Sql.spaced (front ++ token :: back)) =
      Sql.serialize (Sql.spaced front) ++
        (" " ++ (token.text ++ Sql.serialize (Sql.spaced back))) := by
    rw [Sql.spaced, List.flatMap_append, List.flatMap_cons, Sql.serialize_append,
      Sql.serialize_append, Sql.serialize_cons, Sql.serialize_cons, Sql.serialize_nil,
      String.append_empty, String.append_assoc]
    rfl
  rw [htext]
  exact (((Contains.refl _).append_right _).append_left _).append_left _

/-- The joins and both conditions of a statement are tokens of it, each written whole. -/
theorem contains_tokens {clauses : Sql.Clauses} {append : Sql.Append} {text : String}
    (hne : text ≠ "")
    (h : text = clauses.joins ∨ clauses.filter = some text ∨ clauses.having = some text) :
    Contains (Sql.serialize (clauses.tokens append)) text := by
  rw [Sql.Clauses.serialize_tokens, Sql.Clauses.front, Sql.Clauses.back]
  rcases h with rfl | hfilter | hhaving
  · exact (((((Contains.refl _).append_left _).append_right _).append_right _).append_right _)
  · have hcontains : Contains (Sql.serialize (clauses.filterTokens append)) text := by
      rw [Sql.Clauses.filterTokens, hfilter, Sql.Clauses.present_eq hne]
      cases Sql.present append.filter with
      | none => exact @contains_spaced _ (.fragment text) (by simp)
      | some extra => exact @contains_spaced _ (.fragment text) (by simp)
    exact (hcontains.append_left _).append_right _
  · have hcontains : Contains (Sql.serialize clauses.havingTokens) text := by
      rw [Sql.Clauses.havingTokens, hhaving, Sql.Clauses.present_eq hne]
      exact @contains_spaced _ (.fragment text) (by simp)
    exact (((((hcontains.append_left _).append_right _).append_right _).append_right
      _).append_right _).append_left _

/-- Whatever is shown in an expansion is shown in the statement, since its joins and conditions go
into it whole. -/
theorem Shows.selectStatement {expansion : Expansion} {references : List Reference}
    (h : Shows catalog expansion.texts references) (columns source : String) (body : QueryBody)
    (append : Sql.Append) :
    Shows catalog [selectStatement columns source body expansion append] references := by
  -- an empty text is left out of the statement, but nothing is shown in it either
  refine Shows.trim (h.mono fun text htext hne => ⟨_, List.mem_cons_self, contains_tokens hne ?_⟩)
  simpa [Expansion.texts, eq_comm] using htext

theorem Shows.subQueryText {expansion : Expansion} {references : List Reference}
    (h : Shows catalog expansion.texts references) (kind : SubQueryKind) (place : SubQueryPlace)
    (body : QueryBody) : Shows catalog [subQueryText kind place body expansion] references := by
  have hselect := h.selectStatement (body.outputColumns (kind.select body.select) []).selectList
    place.source body place.append
  unfold DescriptorSql.subQueryText
  dsimp only
  exact hselect.lift (((Contains.refl _).append_left _).append_right _)

/-- A subquery without a table of its own shows the relation that it is named after, with the SELECT
over its rows. -/
theorem shows_place {kind : SubQueryKind} {name : String} {table? : Option String}
    {body : QueryBody} {place : SubQueryPlace} {expansion : Expansion}
    (hplace : subQueryPlace catalog name table? = .ok place)
    (hexpansion : expandBody catalog body = .ok expansion) :
    Shows catalog [subQueryText kind place body expansion]
      (Harvest.references.place kind name table? body) := by
  cases table? with
  | some table => exact .nil _
  | none =>
    obtain ⟨relation, hrelation, hplace⟩ := exists_of_bind_eq_ok hplace
    cases hplace
    intro reference hreference
    cases List.mem_singleton.mp hreference
    refine .select (.rows hrelation hexpansion) List.mem_cons_self ?_
    have htext : subQueryText kind
        ⟨Sql.relationSource relation, .condition (Sql.correlation relation),
          if relation.junction.isSome then " )" else ")"⟩ body expansion =
        kind.keyword ++ Reference.frame relation (rowsSelect kind relation body expansion)
          (.rows kind name body) := by
      simp only [DescriptorSql.subQueryText, Reference.frame, rowsSelect, String.append_assoc]
    rw [htext]
    exact (Contains.refl _).append_left _

/-- A join shows its relation by the catalog alone: its rows are not selected from in parentheses.
-/
theorem shows_joins {joins : List (JoinKind × String × JoinQuery)} {text : String}
    (hok : joinsText catalog joins = .ok text) {texts : List String} :
    ∀ join ∈ joins, (Reference.joined join.2.1).ShownIn catalog texts := by
  obtain ⟨pieces, hpieces, -⟩ := exists_of_bind_eq_ok hok
  clear hok
  induction joins generalizing pieces with
  | nil => simp
  | cons join rest ih =>
    obtain ⟨kind, name, join⟩ := join
    rw [List.mapM_cons] at hpieces
    obtain ⟨piece, hpiece, hpieces⟩ := exists_of_bind_eq_ok hpieces
    obtain ⟨others, hothers, -⟩ := exists_of_bind_eq_ok hpieces
    obtain ⟨relation, hrelation, -⟩ := exists_of_bind_eq_ok hpiece
    exact List.forall_mem_cons.mpr ⟨.joined hrelation, ih others hothers⟩

/-! ## The compiler -/

mutual

-- Entries are compiled before they are laid over each other, so they stay related to their
-- references key by key, and the overlay leaves out the same entries of both.
/-- The induction follows the compiler once more. A part shows its references in the text it
compiles to, and what is written around this text keeps it. -/
theorem shows_entryClauses :
    ∀ entries : List (String × Condition), Entries.Related (ShowsIfOk catalog)
      (entryClauses catalog entries) (Harvest.references.entries entries)
  | [] => .nil
  | (_, condition) :: rest =>
    .cons ⟨rfl, shows_conditionClauses condition⟩ (shows_entryClauses rest)

theorem shows_conditionClauses {field : String} :
    ∀ condition : Condition, ShowsIfOk catalog (conditionClauses catalog field condition)
      (Harvest.references.condition field condition)
  | .anyOf branches, _, hok => by
    rw [conditionClauses] at hok
    obtain ⟨texts, htexts, rfl⟩ := exists_of_map_eq_ok hok
    exact (shows_branchTexts branches texts htexts).groupClauses .or
  | .allOf branches, _, hok => by
    rw [conditionClauses] at hok
    obtain ⟨texts, htexts, rfl⟩ := exists_of_map_eq_ok hok
    exact (shows_branchTexts branches texts htexts).groupClauses .and
  | .negation (.ofEntries entries), _, hok => by
    rw [conditionClauses] at hok
    obtain ⟨clauses, hclauses, rfl⟩ := exists_of_map_eq_ok hok
    exact ((shows_gather (shows_entryClauses entries) hclauses).join .and).negationClauses
  | .existence entries, _, hok => by
    rw [conditionClauses] at hok
    obtain ⟨tests, htests, rfl⟩ := exists_of_map_eq_ok hok
    exact (shows_existenceTexts entries tests htests).existenceClauses
  | .equals _, clauses, _ => .nil clauses
  | .comparisons entries, clauses, hok => by
    rw [conditionClauses] at hok
    exact shows_comparisonsClauses entries clauses hok

theorem shows_branchTexts {connective : Connective} :
    ∀ branches : List Predicate, ShowsIfOk catalog (branchTexts catalog connective branches)
      (Harvest.references.branches branches)
  | [], texts, _ => .nil texts
  | .ofEntries entries :: rest, _, hok => by
    rw [branchTexts] at hok
    obtain ⟨clauses, hclauses, hok⟩ := exists_of_bind_eq_ok hok
    obtain ⟨others, hothers, hok⟩ := exists_of_bind_eq_ok hok
    cases hok
    exact ((shows_gather (shows_entryClauses entries) hclauses).join connective).cons
      (shows_branchTexts rest others hothers)

theorem shows_existenceTexts :
    ∀ entries : List (String × ExistsBody), ShowsIfOk catalog (existenceTexts catalog entries)
      (Harvest.references.existence entries)
  | [], texts, _ => .nil texts
  | (name, .anyRow) :: rest, _, hok => by
    rw [existenceTexts] at hok
    obtain ⟨place, hplace, hok⟩ := exists_of_bind_eq_ok hok
    obtain ⟨others, hothers, hok⟩ := exists_of_bind_eq_ok hok
    cases hok
    exact (shows_place hplace rfl).cons (shows_existenceTexts rest others hothers)
  | (name, .rowsOf ⟨table?, body⟩) :: rest, _, hok => by
    rw [existenceTexts] at hok
    obtain ⟨place, hplace, hok⟩ := exists_of_bind_eq_ok hok
    obtain ⟨expansion, hexpansion, hok⟩ := exists_of_bind_eq_ok hok
    obtain ⟨others, hothers, hok⟩ := exists_of_bind_eq_ok hok
    cases hok
    exact ((shows_place hplace hexpansion).and ((shows_expandBody body hexpansion).subQueryText
      .existence place body)).cons (shows_existenceTexts rest others hothers)

theorem shows_comparisonsClauses {field : String} :
    ∀ entries : List (Operator × Operand),
      ShowsIfOk catalog (comparisonsClauses catalog field entries)
      (Harvest.references.comparisons field entries)
  | [], clauses, _ => .nil clauses
  | (operator, operand) :: rest, _, hok => by
    rw [comparisonsClauses] at hok
    obtain ⟨own, hown, hok⟩ := exists_of_bind_eq_ok hok
    obtain ⟨others, hothers, hok⟩ := exists_of_bind_eq_ok hok
    cases hok
    exact (shows_operandClauses operand own hown).append
      (shows_comparisonsClauses rest others hothers)

theorem shows_operandClauses {field : String} {operator : Operator} :
    ∀ operand : Operand, ShowsIfOk catalog (operandClauses catalog field operator operand)
      (Harvest.references.operand field operator operand)
  | .value _, clauses, _ => .nil clauses
  | .list _, clauses, _ => .nil clauses
  | .subqueries queries, _, hok => by
    rw [operandClauses] at hok
    split at hok
    · obtain ⟨texts, htexts, rfl⟩ := exists_of_map_eq_ok hok
      exact (shows_rowsTexts queries texts htexts).map fun text =>
        (Contains.refl text).append_left _
    · split at hok <;> cases hok
  | .quantified groups, _, hok => by
    rw [operandClauses] at hok
    split at hok
    · cases hok
    split at hok
    · cases hok
    · obtain ⟨texts, htexts, rfl⟩ := exists_of_map_eq_ok hok
      exact (shows_quantifiedTexts groups texts htexts).map fun text =>
        (Contains.refl text).append_left _

theorem shows_quantifiedTexts :
    ∀ groups : List (Quantifier × List (String × SubQuery)),
      ShowsIfOk catalog (quantifiedTexts catalog groups) (Harvest.references.quantified groups)
  | [], texts, _ => .nil texts
  | (quantifier, queries) :: rest, _, hok => by
    rw [quantifiedTexts] at hok
    obtain ⟨own, hown, hok⟩ := exists_of_bind_eq_ok hok
    obtain ⟨others, hothers, hok⟩ := exists_of_bind_eq_ok hok
    cases hok
    exact (shows_rowsTexts queries own hown).append (shows_quantifiedTexts rest others hothers)

theorem shows_rowsTexts {keyword : String} :
    ∀ queries : List (String × SubQuery), ShowsIfOk catalog (rowsTexts catalog keyword queries)
      (Harvest.references.subqueries keyword queries)
  | [], texts, _ => .nil texts
  | (name, ⟨table?, body⟩) :: rest, _, hok => by
    rw [rowsTexts] at hok
    obtain ⟨place, hplace, hok⟩ := exists_of_bind_eq_ok hok
    obtain ⟨expansion, hexpansion, hok⟩ := exists_of_bind_eq_ok hok
    obtain ⟨others, hothers, hok⟩ := exists_of_bind_eq_ok hok
    cases hok
    exact ((shows_place hplace hexpansion).and ((shows_expandBody body hexpansion).subQueryText
      (.rows keyword) place body)).cons (shows_rowsTexts rest others hothers)

/-- The references of overwritten conditions are left out of the level, and those that are left are
shown in the condition of the level. -/
theorem shows_expandBody :
    ∀ (body : QueryBody) {expansion : Expansion}, expandBody catalog body = .ok expansion →
      Shows catalog expansion.texts (Harvest.references.body body)
  | ⟨select, filter, groupBy, having, orderBy, limit, offset, left, right, inner, full⟩,
    _, hok => by
    rw [expandBody] at hok
    obtain ⟨joins, hjoins, hok⟩ := exists_of_bind_eq_ok hok
    obtain ⟨filter?, hfilter, hok⟩ := exists_of_bind_eq_ok hok
    obtain ⟨having?, hhaving, hok⟩ := exists_of_bind_eq_ok hok
    cases hok
    have hlevel := shows_overlayText (List.rel_append (List.rel_append (List.rel_append
      (List.rel_append (shows_filterClauses filter) (shows_joinFilters left))
      (shows_joinFilters right)) (shows_joinFilters inner)) (shows_joinFilters full)) hfilter
    have hgroups := shows_overlayText (shows_filterClauses having) hhaving
    refine .and (.and ?_ (hlevel.subset ?_)) (hgroups.subset ?_)
    · -- besides its conditions a body refers to nothing but its joins
      intro reference hreference
      obtain ⟨join, hjoin, rfl⟩ := Harvest.mem_clauses_references hreference
      exact shows_joins hjoins join hjoin
    · exact List.subset_cons_of_subset _ (List.subset_append_left _ _)
    · exact List.subset_cons_of_subset _ (List.subset_append_right _ _)

theorem shows_filterClauses :
    ∀ filter : Option Predicate, List.Forall₂ (Entries.Related (ShowsIfOk catalog))
      (filterClauses catalog filter) (Harvest.references.filter filter)
  | none => .nil
  | some (.ofEntries entries) => .cons (shows_entryClauses entries) .nil

theorem shows_joinFilters :
    ∀ joins : List (String × JoinQuery), List.Forall₂ (Entries.Related (ShowsIfOk catalog))
      (joinFilters catalog joins) (Harvest.references.joinFilters joins)
  | [] => .nil
  | (_, ⟨_, filter⟩) :: rest =>
    List.rel_append (shows_filterClauses filter) (shows_joinFilters rest)

end

/-! ## Nested relations -/

/-- The subquery of a lateral join stands in parentheses. -/
theorem contains_lateralJoin {subquery : String} (hne : subquery ≠ "") :
    Contains (Sql.lateralJoin subquery) ("(" ++ subquery ++ ")") := by
  have htext : Sql.serialize (Sql.parenthesized [.fragment subquery]) = "(" ++ subquery ++ ")" := by
    simp [Sql.parenthesized, Sql.Token.text, String.append_assoc]
  rw [Sql.lateralJoin, if_neg (by simpa using hne), Sql.serialize_append, Sql.serialize_append,
    Sql.serialize_cons, htext]
  exact (((Contains.refl _).append_left _).append_left _).append_right _

/-- A nested relation has its own SELECT in parentheses inside the statement that collects its rows.
-/
theorem contains_nested (name : String) (relation : Relation) (query : SelectQuery)
    (expansion : Expansion) :
    Contains (Sql.lateralJoin (nestedStatement name relation query expansion))
      ((Reference.nested name query).frame relation
        (nestedBody name relation query expansion)) := by
  have hframe : "(" ++ nestedStatement name relation query expansion ++ ")" =
      (Reference.nested name query).frame relation (nestedBody name relation query expansion) := by
    rw [nestedStatement_eq, Reference.frame, ← String.toList_inj]
    simp
  have hne : nestedStatement name relation query expansion ≠ "" := by
    rw [nestedStatement_eq, Ne, ← String.toList_inj]
    simp
  rw [← hframe]
  exact contains_lateralJoin hne

theorem contains_frame (relation : Relation) (select : String) (reference : Reference) :
    Contains (reference.frame relation select) select := by
  cases reference <;>
    exact (((Contains.refl select).append_left _).append_right _)

mutual

/-- The references of nested relations are shown in the lateral joins, and the others in the
conditions. -/
theorem shows_expand :
    ∀ (query : SelectQuery) {expansion : Expansion}, query.expand catalog = .ok expansion →
      Shows catalog expansion.texts (Harvest.references.query query)
  | .mk body includes, _, hok => by
    rw [SelectQuery.expand] at hok
    obtain ⟨laterals, hlaterals, hok⟩ := exists_of_bind_eq_ok hok
    obtain ⟨expansion, hexpansion, hok⟩ := exists_of_bind_eq_ok hok
    cases hok
    refine .and ?_ ?_
    · have hlaterals :
          Shows catalog [laterals ++ expansion.joins] (Harvest.references.includes includes) :=
        (shows_includesText includes hlaterals).lift ((Contains.refl _).append_right _)
      exact hlaterals.subset (by simp [Expansion.texts])
    · apply (shows_expandBody body hexpansion).mono
      intro text htext _
      rcases List.mem_cons.mp htext with rfl | htext
      · exact ⟨_, List.mem_cons_self, (Contains.refl _).append_left _⟩
      · exact ⟨text, List.mem_cons_of_mem _ htext, .refl text⟩

theorem shows_includesText :
    ∀ (includes : List (String × SelectQuery)) {text : String},
      includesText catalog includes = .ok text →
      Shows catalog [text] (Harvest.references.includes includes)
  | [], text, _ => .nil [text]
  | (name, query) :: rest, _, hok => by
    rw [includesText] at hok
    obtain ⟨relation, hrelation, hok⟩ := exists_of_bind_eq_ok hok
    obtain ⟨expansion, hexpansion, hok⟩ := exists_of_bind_eq_ok hok
    obtain ⟨others, hothers, hok⟩ := exists_of_bind_eq_ok hok
    cases hok
    have hnested := (contains_nested name relation query expansion).append_right others
    refine .and (.and ?_ ?_) ?_
    · intro reference hreference
      cases List.mem_singleton.mp hreference
      exact .select (.nested hrelation hexpansion) List.mem_cons_self hnested
    · -- what the nested query refers to is shown in its own SELECT, and that in the frame
      have hselect : Shows catalog [nestedBody name relation query expansion]
          (Harvest.references.query query) := by
        unfold nestedBody
        exact (shows_expand query hexpansion).selectStatement _ _ _ _
      exact hselect.lift (hnested.trans (contains_frame relation _ (.nested name query)))
    · exact (shows_includesText rest hothers).lift ((Contains.refl _).append_left _)

end

/-- The statement over a table shows all references of its query. -/
theorem shows_toSql {query : SelectQuery} {table : String} {alias? : Option String}
    {append : Sql.Append} {sql : String} (hok : query.toSql catalog table alias? append = .ok sql) :
    Shows catalog [sql] (Harvest.references.query query) := by
  rw [SelectQuery.toSql] at hok
  obtain ⟨expansion, hexpansion, hok⟩ := exists_of_bind_eq_ok hok
  rw [← Except.ok.inj hok]
  exact (shows_expand query hexpansion).selectStatement _ _ query.body append

/-! ## No reference is ignored -/

/-- If a query compiles, the catalog has every relation that the query refers to. The references
leave out nothing but what stands in an entry whose key is written again by the condition of a later
join. -/
theorem SelectQuery.resolve_of_mem_references (catalog : Catalog) (table : String)
    (alias? : Option String) (query : SelectQuery) (append : Sql.Append) (sql : String)
    (hok : query.toSql catalog table alias? append = .ok sql) :
    (∀ reference ∈ Harvest.references.query query,
      ∃ relation, catalog.resolve reference.name = .ok relation) ∧
      ∀ (body : QueryBody) (before after : List (String × Condition)) (key : String)
        (condition : Condition),
        body.filters.flatMap Predicate.entries = before ++ (key, condition) :: after →
        key ∉ Entries.keys after →
        Harvest.references.condition key condition ⊆ Harvest.references.body body :=
  ⟨fun reference hreference => (shows_toSql hok reference hreference).resolves,
    fun _ _ _ _ _ hentries hkey => Harvest.condition_subset_body hentries hkey⟩

/-- The rows that have a row of a relation. -/
def existsFilter (name : String) : Predicate :=
  .ofEntries [("exists", .existence [(name, .anyRow)])]

/-- A nested relation with a condition, and an existence test. -/
def nestedQuery : SelectQuery :=
  .mk { QueryBody.empty with filter := some (existsFilter "albums") }
    [("albums", .mk { QueryBody.empty with
        filter := some (.ofEntries [("OR", .anyOf [.ofEntries
          [("year", .equals (.string "1970")), ("name", .equals (.string "Abba"))]])]) } [])]

/-- The nested relation and the one that is tested for are both in the catalog. -/
theorem resolve_of_mem_nestedQuery :
    ∃ sql, nestedQuery.toSql albumCatalog "artists" none {} = .ok sql ∧
      (∀ reference ∈ Harvest.references.query nestedQuery,
        ∃ relation, albumCatalog.resolve reference.name = .ok relation) ∧
      ∀ (body : QueryBody) (before after : List (String × Condition)) (key : String)
        (condition : Condition),
        body.filters.flatMap Predicate.entries = before ++ (key, condition) :: after →
        key ∉ Entries.keys after →
        Harvest.references.condition key condition ⊆ Harvest.references.body body := by
  obtain ⟨sql, hok⟩ : ∃ sql, nestedQuery.toSql albumCatalog "artists" none {} = .ok sql :=
    exists_eq_ok (by decide +kernel)
  exact ⟨sql, hok, nestedQuery.resolve_of_mem_references albumCatalog "artists" none {} sql hok⟩

/-- A query whose condition is overwritten by the condition of its join. -/
def overwrittenQuery : SelectQuery :=
  .mk { QueryBody.empty with
      filter := some (existsFilter "missing")
      leftJoin := [("albums", ⟨[], some (existsFilter "albums")⟩)] } []

/-- A relation in a condition that is overwritten is mentioned, and never looked up. -/
theorem overwrittenQuery_mentions_missing :
    (∃ sql, overwrittenQuery.toSql albumCatalog "artists" none {} = .ok sql) ∧
      .rows .existence "missing" QueryBody.empty ∈ Harvest.mentions.query overwrittenQuery ∧
      albumCatalog.resolve "missing" = .error (.relationNotFound "missing") :=
  ⟨exists_eq_ok (by decide +kernel), List.mem_cons_of_mem _ List.mem_cons_self, rfl⟩

end DescriptorSql
