import DescriptorSql.Proofs.Lexical.Column

/-!
# `Proofs/Reading/Join.lean` — how a relation is joined

The flat joins of a relation, what a subquery over its rows reads from, and the condition that ties
the subquery to the row around it are three texts of one way: from the reference table, through the
junction if there is one, to the target (`Relation.steps`). A reader who knows nothing but quotes
finds in a flat join the table that the subquery reads from, on the equation that ties the subquery,
and behind it the same table on the same equation as in the subquery (`relationJoin_agrees`). In all
of them a table is addressed by its alias, if it has one, and by nothing else.
-/

set_option autoImplicit false

namespace DescriptorSql.Sql

/-! ## Joins -/

/-- A table of a statement, maybe under an alias. -/
structure Source where
  table : String
  tableAlias : Option String
  deriving DecidableEq, Repr

namespace Source

/-- What the columns of the table are qualified with. Behind an alias the name of the table
addresses nothing. -/
def address (source : Source) : String :=
  match source.tableAlias with
  | some name => name
  | none => source.table

def text (source : Source) : String := tableRef source.table source.tableAlias

end Source

/-- A table that is joined, on an equation of columns. -/
structure Join where
  kind : JoinKind
  source : Source
  condition : Equation
  deriving DecidableEq, Repr

/-- ` KIND JOIN table ON condition`. -/
def joinText (kind : JoinKind) (table condition : String) : String :=
  " " ++ (joinKeyword kind).text ++ " JOIN " ++ table ++ " ON " ++ condition

namespace Join

def text (join : Join) : String := joinText join.kind join.source.text join.condition.text

def withKind (kind : JoinKind) (join : Join) : Join := { join with kind := kind }

/-- The equation has a column of the table that is joined on one side, and of one in front of it on
the other. -/
def Connects (join : Join) (scope : List String) : Prop :=
  (join.condition.left.table = join.source.address ∧ join.condition.right.table ∈ scope) ∨
    (join.condition.right.table = join.source.address ∧ join.condition.left.table ∈ scope)

end Join

/-- Every table is connected to one in front of it. -/
def IsChained : List String → List Join → Prop
  | _, [] => True
  | scope, join :: rest => join.Connects scope ∧ IsChained (join.source.address :: scope) rest

theorem joinOn_eq (kind : JoinKind) (table condition : String) :
    joinOn kind table condition = joinText kind table condition := by
  rw [← String.toList_inj]
  simp [joinOn, joinText, spaced, Token.text, Keyword.text]

/-! ## Reading joins -/

/-- Reads a table, and its alias if there is one. -/
def readSource (cs : List Char) : Option (Source × List Char) := do
  let (table, rest) ← readName cs
  match readBehind " AS ".toList rest with
  | none => return (⟨table, none⟩, rest)
  | some rest =>
    let (name, rest) ← readName rest
    return (⟨table, some name⟩, rest)

/-- Reads the words in front of a table that is joined. -/
def readKind (cs : List Char) : Option (JoinKind × List Char) :=
  [JoinKind.left, .right, .inner, .full].findSome? fun kind =>
    (readBehind (" " ++ (joinKeyword kind).text ++ " JOIN ").toList cs).map (kind, ·)

/-- Reads one join from the front of a text. -/
def readJoin (cs : List Char) : Option (Join × List Char) := do
  let (kind, rest) ← readKind cs
  let (source, rest) ← readSource rest
  let rest ← readBehind " ON ".toList rest
  let (left, rest) ← readColumn rest
  let rest ← readBehind " = ".toList rest
  let (right, rest) ← readColumn rest
  return (⟨kind, source, ⟨left, right⟩⟩, rest)

/-- The text is read as these joins, one after the other and to its end. -/
inductive ReadsJoins : List Char → List Join → Prop
  | nil : ReadsJoins [] []
  | cons {cs rest : List Char} {join : Join} {joins : List Join} :
      readJoin cs = some (join, rest) → ReadsJoins rest joins → ReadsJoins cs (join :: joins)

/-- The text is read as a table and joins onto it. -/
def ReadsFrom (cs : List Char) (source : Source) (joins : List Join) : Prop :=
  ∃ rest, readSource cs = some (source, rest) ∧ ReadsJoins rest joins

/-- There is one way only to read a text. -/
theorem ReadsJoins.iff_eq {cs : List Char} {joins others : List Join} (h : ReadsJoins cs joins) :
    ReadsJoins cs others ↔ others = joins := by
  constructor
  · intro hothers
    induction h generalizing others with
    | nil =>
      cases hothers with
      | nil => rfl
      | cons hread _ => cases hread
    | cons hread _ ih =>
      cases hothers with
      | nil => cases hread
      | cons hother hrest =>
        rw [hread] at hother
        cases hother
        rw [ih hrest]
  · intro hothers
    rw [hothers]
    exact h

/-- A name in one piece that is written in quotes. -/
structure IsQuoted (name : String) : Prop where
  single : IsSingleName name
  not_standsAsIs : ¬ StandsAsIs name.toList

theorem IsQuoted.of_isVerbatimIdentifier {name : String} (h : IsSingleName name)
    (hverbatim : isVerbatimIdentifier name.toList = false) : IsQuoted name where
  single := h
  not_standsAsIs := by
    rw [← isVerbatimIdentifier_iff, hverbatim]
    exact Bool.false_ne_true

theorem IsQuoted.identifier_eq {name : String} (h : IsQuoted name) :
    identifier name = quoteName name := by
  have hraw : stripRaw? name = none := by
    cases hstrip : stripRaw? name with
    | none => rfl
    | some sql =>
      refine absurd ?_ h.single.nul_not_mem
      rw [stripRaw?_eq_some_iff.mp hstrip, raw, String.toList_ofList]
      simp [rawMarker]
  have hstar : name.toList ≠ ['*'] := fun hstar => h.single.ne_star (String.toList_inj.mp hstar)
  rw [← String.toList_inj, toList_identifier hraw h.not_standsAsIs, quotePath,
    Text.splitAt_of_not_mem h.single.dot_not_mem, List.map_singleton,
    List.intercalate_singleton, quotePiece,
    if_neg hstar, quoteName, String.toList_ofList]

structure Source.IsQuoted (source : Source) : Prop where
  table : Sql.IsQuoted source.table
  tableAlias : ∀ name, source.tableAlias = some name → Sql.IsQuoted name

structure Join.IsReadable (join : Join) : Prop where
  source : join.source.IsQuoted
  named : join.condition.IsNamed
  apart : join.condition.IsApart

/-- What may follow a table: it goes on neither with a quote nor with an alias. -/
structure EndsSource (rest : List Char) : Prop where
  quote : rest.head? ≠ some '\x22'
  noAlias : readBehind " AS ".toList rest = none

theorem readSource_text {source : Source} (h : source.IsQuoted) {rest : List Char}
    (hrest : EndsSource rest) :
    readSource (source.text.toList ++ rest) = some (source, rest) := by
  obtain ⟨table, alias?⟩ := source
  cases alias? with
  | none =>
    rw [Source.text, tableRef, h.table.identifier_eq, readSource, readName_quoteName _ hrest.quote]
    simp only [Option.bind_eq_bind, Option.bind_some, hrest.noAlias]
    rfl
  | some name =>
    have htext : (Source.text ⟨table, some name⟩).toList ++ rest =
        (quoteName table).toList ++ (" AS ".toList ++ ((quoteName name).toList ++ rest)) := by
      rw [Source.text, tableRef, h.table.identifier_eq, (h.tableAlias name rfl).identifier_eq]
      simp
    rw [htext, readSource, readName_quoteName _ (by simp)]
    simp only [Option.bind_eq_bind, Option.bind_some, readBehind_append,
      readName_quoteName _ hrest.quote]
    rfl

theorem readKind_append (kind : JoinKind) (rest : List Char) :
    readKind ((" " ++ (joinKeyword kind).text ++ " JOIN ").toList ++ rest) = some (kind, rest) := by
  cases kind <;> simp [readKind, readBehind, joinKeyword, Keyword.text]

theorem endsSource_on (rest : List Char) : EndsSource (" ON ".toList ++ rest) := by
  constructor <;> simp [readBehind]

/-- Joins begin with a blank and with a word that is no AS. -/
theorem endsSource_joins (joins : List Join) :
    EndsSource (String.join (joins.map Join.text)).toList := by
  cases joins with
  | nil => constructor <;> simp [readBehind]
  | cons join rest =>
    obtain ⟨kind, source, condition⟩ := join
    cases kind <;> constructor <;> simp [Join.text, joinText, joinKeyword, Keyword.text, readBehind]

theorem readJoin_text {join : Join} (h : join.IsReadable) {rest : List Char}
    (hrest : rest.head? ≠ some '\x22') :
    readJoin (join.text.toList ++ rest) = some (join, rest) := by
  obtain ⟨kind, source, left, right⟩ := join
  have htext : (Join.text ⟨kind, source, ⟨left, right⟩⟩).toList ++ rest =
      (" " ++ (joinKeyword kind).text ++ " JOIN ").toList ++
        (source.text.toList ++ (" ON ".toList ++
        (left.quoted.toList ++ (" = ".toList ++ (right.quoted.toList ++ rest))))) := by
    rw [Join.text, Equation.text_of_isApart h.named h.apart, joinText, Equation.quoted]
    simp
  rw [htext, readJoin, readKind_append]
  simp only [Option.bind_eq_bind, Option.bind_some]
  rw [readSource_text h.source (endsSource_on _)]
  simp only [Option.bind_some, readBehind_append]
  rw [readColumn_quoted left (by simp)]
  simp only [Option.bind_some, readBehind_append, readColumn_quoted right hrest]
  rfl

/-- Joins are read as what they were written from. -/
theorem readsJoins_text {joins : List Join} (h : ∀ join ∈ joins, join.IsReadable) :
    ReadsJoins (String.join (joins.map Join.text)).toList joins := by
  induction joins with
  | nil => exact .nil
  | cons join rest ih =>
    obtain ⟨hjoin, hrest⟩ := List.forall_mem_cons.mp h
    have htext : (String.join ((join :: rest).map Join.text)).toList =
        join.text.toList ++ (String.join (rest.map Join.text)).toList := by
      simp [String.toList_join]
    rw [htext]
    exact .cons (readJoin_text hjoin (endsSource_joins rest).quote) (ih hrest)

theorem readsFrom_text {source : Source} (hsource : source.IsQuoted) {joins : List Join}
    (h : ∀ join ∈ joins, join.IsReadable) :
    ReadsFrom (source.text ++ String.join (joins.map Join.text)).toList source joins := by
  rw [String.toList_append]
  exact ⟨_, readSource_text hsource (endsSource_joins joins), readsJoins_text h⟩

end DescriptorSql.Sql

namespace DescriptorSql

/-! ## The way of a relation -/

namespace Junction

def source (junction : Junction) : Sql.Source := ⟨junction.table, none⟩

/-- The column that points at the target. -/
def targetColumn (junction : Junction) : Sql.Column := ⟨junction.table, junction.field⟩

/-- The column that points at the reference table. -/
def referenceColumn (junction : Junction) : Sql.Column := ⟨junction.table, junction.referenceField⟩

end Junction

namespace Relation

open Sql (Join)

def target (relation : Relation) : Sql.Source := ⟨relation.table, relation.tableAlias⟩

def targetColumn (relation : Relation) : Sql.Column := ⟨relation.target.address, relation.field⟩

def referenceColumn (relation : Relation) : Sql.Column :=
  ⟨relation.referenceTable, relation.referenceField⟩

/-- The tables from the reference table to the target, each with the equation that connects it. -/
def steps (relation : Relation) : List (Sql.Source × Sql.Equation) :=
  match relation.junction with
  | none => [(relation.target, ⟨relation.targetColumn, relation.referenceColumn⟩)]
  | some junction =>
    [(junction.source, ⟨junction.referenceColumn, relation.referenceColumn⟩),
      (relation.target, ⟨junction.targetColumn, relation.targetColumn⟩)]

def joins (kind : JoinKind) (relation : Relation) : List Join :=
  relation.steps.map fun (source, condition) => ⟨kind, source, condition⟩

/-- All names on the way are in one piece and written in quotes. -/
def IsReadable (relation : Relation) : Prop :=
  ∀ step ∈ relation.steps, step.1.IsQuoted ∧ step.2.IsNamed ∧ step.2.IsApart

theorem IsReadable.joins {relation : Relation} (h : relation.IsReadable) (kind : JoinKind) :
    ∀ join ∈ relation.joins kind, join.IsReadable := by
  intro join hjoin
  obtain ⟨step, hstep, rfl⟩ := List.mem_map.mp hjoin
  obtain ⟨hsource, hnamed, hapart⟩ := h step hstep
  exact ⟨hsource, hnamed, hapart⟩

theorem address_target (relation : Relation) : relation.target.address = relation.targetName := by
  obtain ⟨_, _, _, _, _, alias?, _⟩ := relation
  cases alias? <;> rfl

section

variable {relation : Relation} {junction : Junction}

theorem tie_direct (h : relation.junction = none) :
    relation.tie = ⟨relation.targetColumn, relation.referenceColumn⟩ := by
  rw [tie, h, targetColumn, address_target]
  rfl

theorem tie_through (h : relation.junction = some junction) :
    relation.tie = ⟨junction.referenceColumn, relation.referenceColumn⟩ := by
  rw [tie, h]
  rfl

theorem link_eq (relation : Relation) (junction : Junction) :
    relation.link junction = ⟨junction.targetColumn, relation.targetColumn⟩ := by
  rw [link, targetColumn, address_target]
  rfl

theorem steps_direct (h : relation.junction = none) :
    relation.steps = [(relation.target, ⟨relation.targetColumn, relation.referenceColumn⟩)] := by
  rw [steps, h]

theorem steps_through (h : relation.junction = some junction) :
    relation.steps = [(junction.source, ⟨junction.referenceColumn, relation.referenceColumn⟩),
      (relation.target, ⟨junction.targetColumn, relation.targetColumn⟩)] := by
  rw [steps, h]

theorem exists_steps (relation : Relation) : ∃ first rest, relation.steps = first :: rest := by
  cases h : relation.junction with
  | none => exact ⟨_, _, steps_direct h⟩
  | some junction => exact ⟨_, _, steps_through h⟩

theorem joinedTables_eq (relation : Relation) :
    relation.joinedTables = relation.steps.map fun (source, condition) =>
      (source.text, condition) := by
  cases h : relation.junction with
  | none =>
    rw [steps_direct h, joinedTables, h, tie_direct h]
    rfl
  | some junction =>
    rw [steps_through h, joinedTables, h, tie_through h]
    dsimp only
    rw [link_eq]
    rfl

/-- From the reference table on, every table on the way is connected to one in front of it. -/
theorem isChained_joins (kind : JoinKind) (relation : Relation) :
    Sql.IsChained [relation.referenceTable] (relation.joins kind) := by
  cases h : relation.junction with
  | none =>
    rw [joins, steps_direct h]
    exact ⟨Or.inl ⟨rfl, List.mem_cons_self⟩, trivial⟩
  | some junction =>
    have hfirst :
        Join.Connects ⟨kind, junction.source, junction.referenceColumn, relation.referenceColumn⟩
        [relation.referenceTable] := Or.inl ⟨rfl, List.mem_cons_self⟩
    have hsecond :
        Join.Connects ⟨kind, relation.target, junction.targetColumn, relation.targetColumn⟩
        [junction.source.address, relation.referenceTable] := Or.inr ⟨rfl, List.mem_cons_self⟩
    rw [joins, steps_through h]
    exact ⟨hfirst, hsecond, trivial⟩

end

end Relation

namespace Sql

/-! ## The texts of a relation -/

section

variable {relation : Relation} {junction : Junction} {first : Source × Equation}
  {rest : List (Source × Equation)}

/-- The flat join of a relation goes all the way. -/
theorem relationJoin_text (kind : JoinKind) (relation : Relation) :
    relationJoin kind relation = String.join ((relation.joins kind).map Join.text) := by
  rw [relationJoin_eq, relation.joinedTables_eq, Relation.joins, List.map_map, List.map_map]
  refine congrArg String.join (List.map_congr_left fun step _ => ?_)
  exact joinOn_eq kind step.1.text step.2.text

theorem correlation_direct (h : relation.junction = none) :
    correlation relation = Equation.text ⟨relation.targetColumn, relation.referenceColumn⟩ := by
  rw [correlation_eq, Relation.tie_direct h]

theorem correlation_through (h : relation.junction = some junction) :
    correlation relation = Equation.text ⟨junction.referenceColumn, relation.referenceColumn⟩ := by
  rw [correlation_eq, Relation.tie_through h]

/-- A subquery over the rows of a relation is tied by the first equation on the way. -/
theorem correlation_text (h : relation.steps = first :: rest) :
    correlation relation = first.2.text := by
  cases hjunction : relation.junction with
  | none =>
    rw [Relation.steps_direct hjunction] at h
    cases h
    exact correlation_direct hjunction
  | some junction =>
    rw [Relation.steps_through hjunction] at h
    cases h
    exact correlation_through hjunction

theorem junctionSource?_direct (h : relation.junction = none) :
    junctionSource? relation = none := by
  rw [junctionSource?, h, Option.map_none]

theorem junctionSource?_through (h : relation.junction = some junction) :
    junctionSource? relation = some (junction.source.text ++
      joinText .left relation.target.text
        (Equation.text ⟨junction.targetColumn, relation.targetColumn⟩)) := by
  rw [junctionSource?_eq, h, Option.map_some, joinOn_eq, Relation.link_eq]
  rfl

/-- And it reads from the first table on the way, with the rest joined onto it. -/
theorem relationSource_text (h : relation.steps = first :: rest) :
    relationSource relation = first.1.text ++
      String.join
        ((rest.map fun (source, condition) => Join.mk .left source condition).map Join.text) := by
  cases hjunction : relation.junction with
  | none =>
    rw [Relation.steps_direct hjunction] at h
    cases h
    rw [relationSource, junctionSource?_direct hjunction]
    exact String.append_empty.symm
  | some junction =>
    rw [Relation.steps_through hjunction] at h
    cases h
    rw [relationSource, junctionSource?_through hjunction]
    simp [Join.text]

theorem relationJoin_direct (h : relation.junction = none) (kind : JoinKind) :
    relationJoin kind relation = joinText kind relation.target.text (correlation relation) := by
  rw [relationJoin_text, Relation.joins, Relation.steps_direct h, correlation_direct h]
  simp [Join.text]

theorem relationJoin_through (h : relation.junction = some junction) (kind : JoinKind) :
    relationJoin kind relation = joinText kind junction.source.text (correlation relation) ++
      joinText kind relation.target.text
        (Equation.text ⟨junction.targetColumn, relation.targetColumn⟩) := by
  rw [relationJoin_text, Relation.joins, Relation.steps_through h, correlation_through h]
  simp [Join.text]

theorem readsJoins_relationJoin (h : relation.IsReadable) (kind : JoinKind) :
    ReadsJoins (relationJoin kind relation).toList (relation.joins kind) := by
  rw [relationJoin_text]
  exact readsJoins_text (h.joins kind)

theorem readEquation_correlation (h : relation.IsReadable)
    (hsteps : relation.steps = first :: rest) :
    readEquation (correlation relation).toList = some first.2 := by
  have hmem : first ∈ relation.steps := hsteps ▸ List.mem_cons_self
  obtain ⟨-, hnamed, hapart⟩ := h first hmem
  rw [correlation_text hsteps, Equation.text_of_isApart hnamed hapart, Equation.readEquation_quoted]

theorem readsFrom_relationSource (h : relation.IsReadable)
    (hsteps : relation.steps = first :: rest) :
    ReadsFrom (relationSource relation).toList first.1
      (rest.map fun (source, condition) => ⟨.left, source, condition⟩) := by
  have hmem : first ∈ relation.steps := hsteps ▸ List.mem_cons_self
  have hjoins := h.joins .left
  rw [Relation.joins, hsteps, List.map_cons, List.forall_mem_cons] at hjoins
  rw [relationSource_text hsteps]
  exact readsFrom_text (h first hmem).1 hjoins.2

end

/-- The flat join of a relation, what a subquery over its rows reads from and what ties the subquery
agree. Where there is no junction, the target is joined on the tie. Otherwise the junction is joined
on the tie, and the target on the link, on which the subquery joins it too. The target's columns go
by its alias if it has one and by its table if not; more generally, every equation is between the
table that it joins and one in front of it, under the names by which they can be addressed. And
where all names are quoted, all of this can be read in the texts. -/
theorem relationJoin_agrees (kind : JoinKind) (relation : Relation) :
    (match relation.junction with
      | none =>
        relationJoin kind relation = joinText kind relation.target.text (correlation relation) ∧
          correlation relation = Equation.text ⟨relation.targetColumn, relation.referenceColumn⟩ ∧
          junctionSource? relation = none
      | some junction => ∃ link,
        relationJoin kind relation = joinText kind junction.source.text (correlation relation) ++
            joinText kind relation.target.text link ∧
          junctionSource? relation =
            some (junction.source.text ++ joinText .left relation.target.text link) ∧
          correlation relation =
            Equation.text ⟨junction.referenceColumn, relation.referenceColumn⟩ ∧
          link = Equation.text ⟨junction.targetColumn, relation.targetColumn⟩) ∧
    IsChained [relation.referenceTable] (relation.joins kind) ∧
    (relation.IsReadable →
      (∀ joins, ReadsJoins (relationJoin kind relation).toList joins ↔
        joins = relation.joins kind) ∧
        ∃ source joins tie, ReadsFrom (relationSource relation).toList source joins ∧
          readEquation (correlation relation).toList = some tie ∧
          relation.joins kind = ⟨kind, source, tie⟩ :: joins.map (Join.withKind kind)) := by
  refine ⟨?_, relation.isChained_joins kind, fun h => ?_⟩
  · -- the texts, without a junction and with one
    cases hjunction : relation.junction with
    | none =>
      dsimp only
      exact ⟨relationJoin_direct hjunction kind, correlation_direct hjunction,
        junctionSource?_direct hjunction⟩
    | some junction =>
      dsimp only
      exact ⟨_, relationJoin_through hjunction kind, junctionSource?_through hjunction,
        correlation_through hjunction, rfl⟩
  · -- the readings, which follow the way of the relation step by step
    obtain ⟨first, rest, hsteps⟩ := relation.exists_steps
    refine ⟨fun joins => (readsJoins_relationJoin h kind).iff_eq, first.1, _, first.2,
      readsFrom_relationSource h hsteps, readEquation_correlation h hsteps, ?_⟩
    rw [Relation.joins, hsteps, List.map_cons, List.map_map]
    rfl

/-- The albums of an artist, by their credits and under an alias. -/
def creditedAlbums : Relation :=
  ⟨.many, "albums", "id", "artists", "id", some "a", some ⟨"credits", "album_id", "artist_id"⟩⟩

theorem relationJoin_agrees_creditedAlbums :
    creditedAlbums.IsReadable ∧
      ReadsJoins (relationJoin .inner creditedAlbums).toList
        [⟨.inner, ⟨"credits", none⟩, ⟨"credits", "artist_id"⟩, ⟨"artists", "id"⟩⟩,
          ⟨.inner, ⟨"albums", some "a"⟩, ⟨"credits", "album_id"⟩, ⟨"a", "id"⟩⟩] ∧
      relationJoin .inner creditedAlbums =
        " INNER JOIN \"credits\" ON \"credits\".\"artist_id\" = \"artists\".\"id\"" ++
        " INNER JOIN \"albums\" AS \"a\" ON \"credits\".\"album_id\" = \"a\".\"id\"" := by
  have hsingle : ∀ step ∈ creditedAlbums.steps, ∀ name ∈ step.1.table :: step.2.left.table ::
      step.2.left.field :: step.2.right.table :: step.2.right.field :: step.1.tableAlias.toList,
      IsSingleName name := by decide
  have hverbatim : ∀ step ∈ creditedAlbums.steps, ∀ name ∈ step.1.table :: step.2.left.path ::
      step.2.right.path :: step.1.tableAlias.toList, isVerbatimIdentifier name.toList = false := by
    decide +kernel
  have hreadable : creditedAlbums.IsReadable := by
    intro step hstep
    have hnames := hsingle step hstep
    have hwords := hverbatim step hstep
    have hnamed : step.2.IsNamed :=
      ⟨⟨hnames _ (by simp), hnames _ (by simp)⟩, ⟨hnames _ (by simp), hnames _ (by simp)⟩⟩
    refine ⟨⟨.of_isVerbatimIdentifier (hnames _ (by simp)) (hwords _ (by simp)),
      fun name hname => ?_⟩, hnamed,
      hnamed.left.not_fuses (hwords _ (by simp)), hnamed.right.not_fuses (hwords _ (by simp))⟩
    exact .of_isVerbatimIdentifier (hnames name (by simp [hname])) (hwords name (by simp [hname]))
  obtain ⟨htexts, -, hreads⟩ := relationJoin_agrees .inner creditedAlbums
  refine ⟨hreadable, ((hreads hreadable).1 _).mpr rfl, ?_⟩
  obtain ⟨link, hjoin, -, hcorrelation, hlink⟩ := htexts
  rw [hjoin, hcorrelation, hlink]
  decide +kernel

end Sql
end DescriptorSql
