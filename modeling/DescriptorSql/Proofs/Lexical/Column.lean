import DescriptorSql.Proofs.Lexical.Path
import DescriptorSql.Sql.Link

/-!
# `Proofs/Lexical/Column.lean` — equations of columns

Every condition of a relation is an equation of two columns (`Relation.equations`), each given by
the name of a table and a name of its own. The two names are put together with a dot before they are
quoted. Mostly they come out as two quoted names, and a reader who knows nothing but quotes finds
the same columns in the equation (`readEquation_quoted`). But together they can look like a number
or like a placeholder, although neither of them is one (`Column.Fuses`): then they stand as they
are, and nobody reads a column in them (`equate_columns`).
-/

set_option autoImplicit false

namespace DescriptorSql.Sql

open CharClass (isWord)

/-! ## Columns -/

/-- A name in one piece. Neither this name nor a path with it is taken for SQL, for an expression or
for a star because of the name alone. -/
structure IsSingleName (name : String) : Prop where
  not_blank : Text.isBlankText name = false
  dot_not_mem : '.' ∉ name.toList
  opening_not_mem : '(' ∉ name.toList
  closing_not_mem : ')' ∉ name.toList
  nul_not_mem : '\x00' ∉ name.toList
  ne_star : name ≠ "*"

instance (name : String) : Decidable (IsSingleName name) :=
  decidable_of_iff (Text.isBlankText name = false ∧ '.' ∉ name.toList ∧ '(' ∉ name.toList ∧
      ')' ∉ name.toList ∧ '\x00' ∉ name.toList ∧ name ≠ "*")
    ⟨fun ⟨h₁, h₂, h₃, h₄, h₅, h₆⟩ => ⟨h₁, h₂, h₃, h₄, h₅, h₆⟩,
      fun ⟨h₁, h₂, h₃, h₄, h₅, h₆⟩ => ⟨h₁, h₂, h₃, h₄, h₅, h₆⟩⟩

/-- A column of a table. -/
structure Column where
  table : String
  field : String
  deriving DecidableEq, Repr

namespace Column

/-- The names with a dot between them. -/
def path (column : Column) : String := column.table ++ "." ++ column.field

/-- The names, each in quotes. -/
def quoted (column : Column) : String := quoteName column.table ++ "." ++ quoteName column.field

structure IsNamed (column : Column) : Prop where
  table : IsSingleName column.table
  field : IsSingleName column.field

/-- Together with the dot the names are a number, blanks around it aside, or a placeholder in
braces. -/
inductive Fuses : Column → Prop
  | number (table field : String) (front left right back : List Char) :
      (∀ c ∈ front, Text.isBlank c = true) → (∀ c ∈ back, Text.isBlank c = true) →
      IsNumeral (left ++ '.' :: right) → table.toList = front ++ left →
        field.toList = right ++ back →
      Fuses ⟨table, field⟩
  | brace (table field : String) (left right : List Char) : '\x7d' ∉ left → '\x7d' ∉ right →
      table.toList = '$' :: '\x7b' :: left → field.toList = right ++ ['\x7d'] → Fuses ⟨table, field⟩

variable {column : Column}

theorem toList_path (column : Column) :
    column.path.toList = column.table.toList ++ '.' :: column.field.toList := by
  simp [path]

theorem dot_mem_path (column : Column) : '.' ∈ column.path.toList := by
  simp [toList_path]

/-- There is one way only to take the path apart at a dot. -/
theorem IsNamed.split (h : column.IsNamed) (left right : List Char)
    (hpath : column.path.toList = left ++ '.' :: right) :
    column.table.toList = left ∧ column.field.toList = right := by
  rw [toList_path, List.append_cons_inj_of_notMem h.table.dot_not_mem h.field.dot_not_mem] at hpath
  exact ⟨hpath.1, hpath.2.2⟩

theorem IsNamed.not_mem_path (h : column.IsNamed) {c : Char} (hdot : c ≠ '.')
    (hname : ∀ {name : String}, IsSingleName name → c ∉ name.toList) : c ∉ column.path.toList := by
  rw [toList_path, List.mem_append, List.mem_cons, not_or, not_or]
  exact ⟨hname h.table, hdot, hname h.field⟩

theorem IsNamed.stripRaw?_path (h : column.IsNamed) : stripRaw? column.path = none := by
  cases hstrip : stripRaw? column.path with
  | none => rfl
  | some sql =>
    refine absurd ?_ (h.not_mem_path (c := '\x00') (by decide) fun hname => hname.nul_not_mem)
    rw [stripRaw?_eq_some_iff.mp hstrip, raw, String.toList_ofList]
    simp [rawMarker]

/-- A path that stands as it is has its dot in a number or between braces, and there the names fuse.
-/
theorem IsNamed.fuses_of_standsAsIs (h : column.IsNamed)
    (hstands : StandsAsIs column.path.toList) : column.Fuses := by
  have hdot := column.dot_mem_path
  generalize hpath : column.path.toList = cs at hstands hdot
  cases hstands with
  | blank _ hblank =>
    have htable : Text.isBlankText column.table = true := by
      refine List.all_eq_true.mpr fun c hc => hblank c ?_
      rw [← hpath, toList_path]
      exact List.mem_append_left _ hc
    rw [h.table.not_blank] at htable
    cases htable
  | number front text back hfront hback htext =>
    -- the dot is no blank, so it is in the number
    have hmem : '.' ∈ text := by
      rw [List.mem_append, List.mem_append] at hdot
      rcases hdot with hdot | hdot | hdot
      · exact absurd (hfront _ hdot) (by decide)
      · exact hdot
      · exact absurd (hback _ hdot) (by decide)
    obtain ⟨left, right, rfl⟩ := List.mem_iff_append.mp hmem
    obtain ⟨htable, hfield⟩ := h.split (front ++ left) (right ++ back) (by simp [hpath])
    exact .number _ _ front left right back hfront hback htext htable hfield
  | parenthesis _ hparen =>
    rcases hparen with hopen | hclose
    · rw [← hpath] at hopen
      exact absurd hopen (h.not_mem_path (by decide) fun hname => hname.opening_not_mem)
    · rw [← hpath] at hclose
      exact absurd hclose (h.not_mem_path (by decide) fun hname => hname.closing_not_mem)
  | brace body hbody =>
    have hmem : '.' ∈ body := by simpa using hdot
    obtain ⟨left, right, rfl⟩ := List.mem_iff_append.mp hmem
    obtain ⟨htable, hfield⟩ :=
      h.split ('$' :: '\x7b' :: left) (right ++ ['\x7d']) (by simp [hpath])
    rw [List.mem_append, List.mem_cons, not_or, not_or] at hbody
    exact .brace _ _ left right hbody.1 hbody.2.2 htable hfield
  | colon name colons _ hname =>
    have hmem : '.' ∈ name := by simpa [List.mem_replicate] using hdot
    exact absurd (hname _ hmem) (by decide +kernel)
  | dollar name _ hname =>
    have hmem : '.' ∈ name := by simpa using hdot
    exact absurd (hname _ hmem) (by decide +kernel)
  | star | question | questions => simp at hdot

theorem Fuses.standsAsIs_path (hfuses : column.Fuses) : StandsAsIs column.path.toList := by
  cases hfuses with
  | number table field front left right back hfront hback htext htable hfield =>
    have hstands := StandsAsIs.number front (left ++ '.' :: right) back hfront hback htext
    rw [toList_path]
    dsimp only
    rw [htable, hfield]
    simpa using hstands
  | brace table field left right hleft hright htable hfield =>
    have hbody : '\x7d' ∉ left ++ '.' :: right := by simp [hleft, hright]
    rw [toList_path]
    dsimp only
    rw [htable, hfield]
    simpa using StandsAsIs.brace _ hbody

/-- The path of two names stands as it is exactly if the names fuse. -/
theorem IsNamed.standsAsIs_path_iff (h : column.IsNamed) :
    StandsAsIs column.path.toList ↔ column.Fuses :=
  ⟨h.fuses_of_standsAsIs, Fuses.standsAsIs_path⟩

theorem IsNamed.quotePath_path (h : column.IsNamed) :
    quotePath column.path.toList = column.quoted.toList := by
  have hpiece : ∀ {name : String}, IsSingleName name →
      quotePiece name.toList = (quoteName name).toList := by
    intro name hname
    have hstar : name.toList ≠ ['*'] := fun h => hname.ne_star (String.toList_inj.mp h)
    rw [quotePiece, if_neg hstar, quoteName, String.toList_ofList]
  rw [toList_path, quotePath, Text.splitAt_append h.table.dot_not_mem,
    Text.splitAt_of_not_mem h.field.dot_not_mem]
  simp [quoted, hpiece h.table, hpiece h.field]

/-- The text is how the column stands in a statement. -/
def IsWritten (column : Column) (text : String) : Prop :=
  (¬ column.Fuses → text = column.quoted) ∧ (column.Fuses → text = column.path)

/-- Two names are written in quotes unless they fuse. -/
theorem IsNamed.isWritten_identifier (h : column.IsNamed) :
    column.IsWritten (identifier column.path) := by
  constructor
  · intro hno
    rw [← String.toList_inj, toList_identifier h.stripRaw?_path (mt h.standsAsIs_path_iff.mp hno),
      h.quotePath_path]
  · intro hfuses
    exact identifier_of_standsAsIs h.stripRaw?_path (h.standsAsIs_path_iff.mpr hfuses)

theorem IsNamed.not_fuses (h : column.IsNamed)
    (hverbatim : isVerbatimIdentifier column.path.toList = false) :
    ¬ column.Fuses := by
  rw [← h.standsAsIs_path_iff, ← isVerbatimIdentifier_iff, hverbatim]
  exact Bool.false_ne_true

/-- A name that is written as it is does not look quoted. -/
theorem head?_path_of_fuses (h : column.Fuses) : column.path.toList.head? ≠ some '\x22' := by
  cases h with
  | number table field front left right back hfront hback htext htable hfield =>
    have hnumeric : isNumeric (Column.path ⟨table, field⟩).toList = true := by
      refine isNumeric_iff.mpr ⟨front, left ++ '.' :: right, back, hfront, hback, htext, ?_⟩
      rw [toList_path]
      dsimp only
      rw [htable, hfield]
      simp
    intro hhead
    exact (isHarmless_of_isNumeric hnumeric).not_mem '\x22' (by simp) (List.mem_of_head? hhead)
  | brace table field left right _ _ htable =>
    rw [toList_path]
    dsimp only
    rw [htable]
    simp

end Column

/-! ## Reading an equation -/

/-- Reads on in a quoted name, of which some text has been read: the name, and what is behind it. -/
def readRestOfName (text : List Char) : List Char → Option (String × List Char)
  | '\x22' :: '\x22' :: rest => readRestOfName (text ++ ['\x22']) rest
  | '\x22' :: rest => some (String.ofList text, rest)
  | c :: rest => readRestOfName (text ++ [c]) rest
  | [] => none

/-- Reads a quoted name. -/
def readName : List Char → Option (String × List Char)
  | '\x22' :: rest => readRestOfName [] rest
  | _ => none

/-- What stands behind the given text. -/
def readBehind (text cs : List Char) : Option (List Char) :=
  if text.isPrefixOf cs then some (cs.drop text.length) else none

/-- Reads two quoted names with a dot between them. -/
def readColumn (cs : List Char) : Option (Column × List Char) := do
  let (table, rest) ← readName cs
  let rest ← readBehind ['.'] rest
  let (field, rest) ← readName rest
  return (⟨table, field⟩, rest)

/-- An equation of two columns. -/
structure Equation where
  left : Column
  right : Column
  deriving DecidableEq, Repr

/-- Reads two columns with an equals sign between them, and nothing behind them. -/
def readEquation (cs : List Char) : Option Equation := do
  let (left, rest) ← readColumn cs
  let rest ← readBehind " = ".toList rest
  let (right, rest) ← readColumn rest
  if rest.isEmpty then some ⟨left, right⟩ else none

@[simp] theorem readBehind_append (text rest : List Char) :
    readBehind text (text ++ rest) = some rest := by
  simp [readBehind, List.isPrefixOf_iff_prefix]

theorem readRestOfName_double (text name : List Char) {rest : List Char}
    (hrest : rest.head? ≠ some '\x22') :
    readRestOfName text (Text.double '\x22' name ++ '\x22' :: rest) =
      some (String.ofList (text ++ name), rest) := by
  induction name generalizing text with
  | nil =>
    rw [Text.double_nil, List.nil_append, List.append_nil, readRestOfName]
    rintro rest rfl
    simp at hrest
  | cons c name ih =>
    have hnext := ih (text ++ [c])
    rw [List.append_assoc, List.singleton_append] at hnext
    rw [Text.double_cons, ← hnext]
    by_cases hc : c = '\x22'
    · rw [if_pos hc, hc, List.append_assoc, List.cons_append, List.singleton_append, readRestOfName]
    · rw [if_neg hc, List.append_assoc, List.singleton_append, readRestOfName]
      · rintro _ rfl
        exact absurd rfl hc
      · exact hc

theorem readName_quoteName (name : String) {rest : List Char} (hrest : rest.head? ≠ some '\x22') :
    readName ((quoteName name).toList ++ rest) = some (name, rest) := by
  rw [quoteName, String.toList_ofList, Text.enclose, List.cons_append, List.cons_append, readName,
    List.append_assoc, List.singleton_append, readRestOfName_double _ _ hrest, List.nil_append,
    String.ofList_toList]

theorem readColumn_quoted (column : Column) {rest : List Char} (hrest : rest.head? ≠ some '\x22') :
    readColumn (column.quoted.toList ++ rest) = some (column, rest) := by
  have htext : column.quoted.toList ++ rest =
      (quoteName column.table).toList ++ (['.'] ++ ((quoteName column.field).toList ++ rest)) := by
    simp [Column.quoted]
  rw [htext, readColumn, readName_quoteName _ (by simp)]
  simp only [Option.bind_eq_bind, Option.bind_some, readBehind_append, readName_quoteName _ hrest]
  rfl

theorem readColumn_eq_none {cs : List Char} (h : cs.head? ≠ some '\x22') :
    readColumn cs = none := by
  have hname : readName cs = none := by
    cases cs with
    | nil => rfl
    | cons c rest =>
      rw [readName]
      rintro rest ⟨⟩
      simp at h
  rw [readColumn, hname]
  rfl

namespace Equation

/-- The equation with every name in quotes. -/
def quoted (e : Equation) : String := e.left.quoted ++ " = " ++ e.right.quoted

/-- The equation as it stands in a statement. -/
def text (e : Equation) : String := equate e.left.table e.left.field e.right.table e.right.field

structure IsNamed (e : Equation) : Prop where
  left : e.left.IsNamed
  right : e.right.IsNamed

/-- Neither side fuses. -/
structure IsApart (e : Equation) : Prop where
  left : ¬ e.left.Fuses
  right : ¬ e.right.Fuses

variable {e : Equation}

theorem text_eq (e : Equation) :
    e.text = identifier e.left.path ++ " = " ++ identifier e.right.path := rfl

/-- An equation in quotes is read as that equation. -/
theorem readEquation_quoted (e : Equation) : readEquation e.quoted.toList = some e := by
  have htext : e.quoted.toList =
      e.left.quoted.toList ++ (" = ".toList ++ (e.right.quoted.toList ++ [])) := by
    simp [quoted]
  have hend : ([] : List Char).head? ≠ some '\x22' := by simp
  rw [htext, readEquation, readColumn_quoted _ (by simp)]
  simp only [Option.bind_eq_bind, Option.bind_some, readBehind_append, readColumn_quoted _ hend]
  rfl

theorem text_of_isApart (h : e.IsNamed) (hapart : e.IsApart) : e.text = e.quoted := by
  rw [text_eq, h.left.isWritten_identifier.1 hapart.left,
    h.right.isWritten_identifier.1 hapart.right, quoted]

/-- No equation is read where a side stands as it is. -/
theorem readEquation_of_fuses (h : e.IsNamed) (hfuses : e.left.Fuses ∨ e.right.Fuses) :
    readEquation e.text.toList = none := by
  by_cases hleft : e.left.Fuses
  · have htext : e.text.toList.head? = e.left.path.toList.head? := by
      rw [text_eq, h.left.isWritten_identifier.2 hleft]
      simp [Column.toList_path]
    rw [readEquation, readColumn_eq_none (htext ▸ Column.head?_path_of_fuses hleft)]
    rfl
  · have hright := hfuses.resolve_left hleft
    have htext : e.text.toList = e.left.quoted.toList ++ (" = ".toList ++ e.right.path.toList) := by
      rw [text_eq, h.left.isWritten_identifier.1 hleft, h.right.isWritten_identifier.2 hright]
      simp
    rw [htext, readEquation, readColumn_quoted _ (by simp)]
    simp only [Option.bind_eq_bind, Option.bind_some, readBehind_append,
      readColumn_eq_none (Column.head?_path_of_fuses hright), Option.bind_none]

end Equation

end DescriptorSql.Sql

namespace DescriptorSql

/-! ## The conditions of a relation -/

namespace Relation

/-- What ties the rows of the relation to the row around them. -/
def tie (relation : Relation) : Sql.Equation :=
  match relation.junction with
  | some junction =>
    ⟨⟨junction.table, junction.referenceField⟩, ⟨relation.referenceTable, relation.referenceField⟩⟩
  | none =>
      ⟨⟨relation.targetName, relation.field⟩, ⟨relation.referenceTable, relation.referenceField⟩⟩

/-- What ties the target to the junction. -/
def link (relation : Relation) (junction : Junction) : Sql.Equation :=
  ⟨⟨junction.table, junction.field⟩, ⟨relation.targetName, relation.field⟩⟩

def equations (relation : Relation) : List Sql.Equation :=
  relation.tie :: (relation.junction.map relation.link).toList

/-- The tables that the relation joins, each with the equation behind its ON. -/
def joinedTables (relation : Relation) : List (String × Sql.Equation) :=
  match relation.junction with
  | some junction =>
    [(Sql.tableRef junction.table none, relation.tie),
      (Sql.targetRef relation, relation.link junction)]
  | none => [(Sql.targetRef relation, relation.tie)]

theorem equation_mem_of_joinedTables (relation : Relation) {joined : String × Sql.Equation}
    (h : joined ∈ relation.joinedTables) : joined.2 ∈ relation.equations := by
  cases hjunction : relation.junction with
  | none =>
    rw [joinedTables, hjunction, List.mem_singleton] at h
    rw [h]
    exact List.mem_cons_self
  | some junction =>
    simp only [joinedTables, hjunction, List.mem_cons, List.not_mem_nil, or_false] at h
    rcases h with rfl | rfl <;> simp [equations, hjunction]

end Relation

namespace Sql

theorem correlation_eq (relation : Relation) : correlation relation = relation.tie.text := by
  cases h : relation.junction <;> simp [correlation, Relation.tie, Equation.text, h]

theorem relationJoin_eq (kind : JoinKind) (relation : Relation) :
    relationJoin kind relation =
      String.join (relation.joinedTables.map fun (table, e) => joinOn kind table e.text) := by
  cases h : relation.junction <;>
    simp [relationJoin, Relation.joinedTables, correlation_eq, junctionLink, Relation.link,
      Equation.text, h]

theorem junctionSource?_eq (relation : Relation) :
    junctionSource? relation = relation.junction.map fun junction =>
      tableRef junction.table none ++ joinOn .left (targetRef relation)
        (relation.link junction).text := rfl

/-- An equation of columns stands in a statement with every name in quotes, and is read as that
equation, unless the table and the name of a column fuse. Then they stand as they are, and no
equation is read. So where nothing fuses, every condition of a relation is an equation of the
columns that it is meant to be. -/
theorem equate_columns (e : Equation) (relation : Relation) :
    (e.IsNamed →
      (∃ left right, equate e.left.table e.left.field e.right.table e.right.field =
        left ++ " = " ++ right ∧
        e.left.IsWritten left ∧ e.right.IsWritten right) ∧
      (e.IsApart → e.text = e.quoted ∧ readEquation e.text.toList = some e) ∧
      (¬ e.IsApart → readEquation e.text.toList = none)) ∧
    ((∀ e ∈ relation.equations, e.IsNamed ∧ e.IsApart) →
      correlation relation = relation.tie.quoted ∧
      (∀ kind, relationJoin kind relation =
        String.join (relation.joinedTables.map fun (table, e) => joinOn kind table e.quoted)) ∧
      junctionSource? relation = relation.junction.map fun junction =>
        tableRef junction.table none ++ joinOn .left (targetRef relation)
          (relation.link junction).quoted) := by
  constructor
  · intro h
    refine ⟨⟨_, _, rfl, h.left.isWritten_identifier, h.right.isWritten_identifier⟩, ?_, ?_⟩
    · intro hapart
      have htext := Equation.text_of_isApart h hapart
      exact ⟨htext, htext ▸ Equation.readEquation_quoted e⟩
    · intro hno
      apply Equation.readEquation_of_fuses h
      by_contra hfuses
      rw [not_or] at hfuses
      exact hno ⟨hfuses.1, hfuses.2⟩
  · intro h
    have hquoted : ∀ e ∈ relation.equations, e.text = e.quoted := by
      intro e he
      exact Equation.text_of_isApart (h e he).1 (h e he).2
    refine ⟨?_, ?_, ?_⟩
    · rw [correlation_eq, hquoted _ List.mem_cons_self]
    · intro kind
      rw [relationJoin_eq]
      refine congrArg String.join (List.map_congr_left fun (table, e) hjoined => ?_)
      dsimp only
      rw [hquoted e (relation.equation_mem_of_joinedTables hjoined)]
    · rw [junctionSource?_eq]
      cases hjunction : relation.junction with
      | none => rw [Option.map_none, Option.map_none]
      | some junction =>
        have hlink := hquoted (relation.link junction) (by simp [Relation.equations, hjunction])
        rw [Option.map_some, Option.map_some, hlink]

/-- The albums of an artist, through a table whose name has quotes in it. -/
def quotedCredits : Relation where
  cardinality := .many
  table := "albums"
  field := "id"
  referenceTable := "artists"
  referenceField := "id"
  tableAlias := none
  junction := some ⟨"the \"credits\"", "1", "artist id"⟩

theorem equate_columns_quotedCredits :
    (∀ e ∈ quotedCredits.equations, e.IsNamed ∧ e.IsApart) ∧
      readEquation (equate "the \"credits\"" "artist id" "artists" "id").toList =
        some ⟨⟨"the \"credits\"", "artist id"⟩, ⟨"artists", "id"⟩⟩ ∧
      correlation quotedCredits = "\"the \"\"credits\"\"\".\"artist id\" = \"artists\".\"id\"" := by
  have hnames : ∀ e ∈ quotedCredits.equations,
      ∀ name ∈ [e.left.table, e.left.field, e.right.table, e.right.field], IsSingleName name := by
        decide
  have hnumbers : ∀ e ∈ quotedCredits.equations,
      isVerbatimIdentifier e.left.path.toList = false ∧
      isVerbatimIdentifier e.right.path.toList = false := by
    decide +kernel
  have hequations : ∀ e ∈ quotedCredits.equations, e.IsNamed ∧ e.IsApart := by
    intro e he
    have hnamed : e.IsNamed :=
      ⟨⟨hnames e he _ (by simp), hnames e he _ (by simp)⟩,
        ⟨hnames e he _ (by simp), hnames e he _ (by simp)⟩⟩
    exact ⟨hnamed, hnamed.left.not_fuses (hnumbers e he).1,
      hnamed.right.not_fuses (hnumbers e he).2⟩
  obtain ⟨hnamed, hapart⟩ := hequations quotedCredits.tie List.mem_cons_self
  obtain ⟨hcolumns, hrelation⟩ := equate_columns quotedCredits.tie quotedCredits
  refine ⟨hequations, ((hcolumns hnamed).2.1 hapart).2, ?_⟩
  rw [(hrelation hequations).1]
  decide

/-- A table and a column that have numbers for names. -/
def numberedEquation : Equation := ⟨⟨"1", "2"⟩, ⟨"artists", "id"⟩⟩

/-- Together the two numbers are a number. -/
theorem equate_ne_numberedEquation :
    numberedEquation.IsNamed ∧ equate "1" "2" "artists" "id" = "1.2 = \"artists\".\"id\"" ∧
      equate "1" "2" "artists" "id" ≠ numberedEquation.quoted := by
  have htext : equate "1" "2" "artists" "id" = "1.2 = \"artists\".\"id\"" := by
    decide +kernel
  refine ⟨⟨⟨by decide, by decide⟩, ⟨by decide, by decide⟩⟩, htext, ?_⟩
  rw [htext]
  decide

end Sql
end DescriptorSql
