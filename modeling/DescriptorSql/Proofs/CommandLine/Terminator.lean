import DescriptorSql.CommandLine.Run
import DescriptorSql.Proofs.Binding.Seam
import DescriptorSql.Proofs.Statement.Bound

/-!
# `Proofs/CommandLine/Terminator.lean` — the semicolon behind a statement

The settings can ask for a semicolon behind every statement. A command that binds values puts it
there first and binds then, so the binder sees it. This comes to the same as binding first, with two
exceptions (`TakesSemicolon`): a blank text is no longer blank with a semicolon behind it, and where
a parameter at the end fills in a text with a semicolon of its own, there are two of them. With
neither, the setting decides on the semicolon and on nothing else (`run_semicolon`).
-/

set_option autoImplicit false

namespace DescriptorSql.CommandLine

open Binding (BoundQuery)

/-! ## The semicolon and the binder -/

def endsInSemicolon (sql : String) : Bool := sql.toList.getLast? == some ';'

/-- A bound text as it is printed with a semicolon. -/
def terminate (bound : BoundQuery) : BoundQuery :=
  ⟨OutputSettings.finish ⟨true⟩ bound.sql, bound.values⟩

/-- The text is not blank, and a semicolon at the end of what it is bound to is its own. -/
structure TakesSemicolon (values : Entries String Json) (sql : String) : Prop where
  isBlank_eq : Text.isBlankText sql = false
  ends_own : ∀ bound, Binding.bind values sql = .ok bound → endsInSemicolon bound.sql = true →
    endsInSemicolon sql = true

theorem finish_of_ends {sql : String} (h : endsInSemicolon sql = true) :
    OutputSettings.finish ⟨true⟩ sql = sql := by
  rw [endsInSemicolon, beq_iff_eq] at h
  simp [OutputSettings.finish, h]

theorem finish_of_not_ends {sql : String} (h : endsInSemicolon sql = false) :
    OutputSettings.finish ⟨true⟩ sql = sql ++ ";" := by
  rw [endsInSemicolon, beq_eq_false_iff_ne] at h
  simp [OutputSettings.finish, h]

theorem endsInSemicolon_append (sql : String) : endsInSemicolon (sql ++ ";") = true := by
  simp [endsInSemicolon]

theorem exists_of_ends {sql : String} (h : endsInSemicolon sql = true) :
    ∃ front : String, sql = front ++ ";" := by
  rw [endsInSemicolon, beq_iff_eq, List.getLast?_eq_some_iff] at h
  obtain ⟨front, hfront⟩ := h
  refine ⟨String.ofList front, ?_⟩
  rw [← String.toList_inj, hfront]
  simp

theorem isBlankText_semicolon (sql : String) : Text.isBlankText (sql ++ ";") = false := by
  rw [Text.isBlankText_append, Bool.and_eq_false_iff]
  exact Or.inr (by decide)

variable {values : Entries String Json} {sql : String}

/-- A semicolon behind a text that is not blank stays there when the text is bound. -/
theorem bind_semicolon (h : Text.isBlankText sql = false) :
    Binding.bind values (sql ++ ";") =
      (fun bound : BoundQuery => ⟨bound.sql ++ ";", bound.values⟩) <$> Binding.bind values sql := by
  rw [Binding.bind, Binding.bind, h, isBlankText_semicolon]
  exact Binding.fillAll_semicolon sql

/-- A text that ends in a semicolon is bound to one that does. -/
theorem ends_of_bind (h : endsInSemicolon sql = true) {bound : BoundQuery}
    (hok : Binding.bind values sql = .ok bound) : endsInSemicolon bound.sql = true := by
  obtain ⟨front, rfl⟩ := exists_of_ends h
  rw [Binding.bind, isBlankText_semicolon, if_neg (by decide), Binding.fillAll_semicolon] at hok
  obtain ⟨inner, -, rfl⟩ := exists_of_map_eq_ok hok
  exact endsInSemicolon_append inner.sql

/-- With a semicolon behind it, a text is never refused for being empty. -/
theorem bind_semicolon_ne_emptyQuery : Binding.bind values (sql ++ ";") ≠ .error .emptyQuery := by
  intro hempty
  rw [Binding.bind, isBlankText_semicolon, if_neg (by decide)] at hempty
  obtain ⟨name, hname⟩ := Binding.exists_missing_of_fillAll hempty
  cases hname

/-- The semicolon can be put behind the bound text instead exactly if the text takes it. -/
theorem bindFinished_semicolon_iff :
    bindFinished ⟨true⟩ values sql = terminate <$> bindFinished ⟨false⟩ values sql ↔
      TakesSemicolon values sql := by
  have hplain : bindFinished ⟨false⟩ values sql = Binding.bind values sql := rfl
  rw [hplain, bindFinished]
  cases hends : endsInSemicolon sql with
  | true =>
    have hblank : Text.isBlankText sql = false := by
      obtain ⟨front, rfl⟩ := exists_of_ends hends
      exact isBlankText_semicolon front
    rw [finish_of_ends hends]
    refine ⟨fun _ => ⟨hblank, fun _ _ _ => hends⟩, fun _ => ?_⟩
    cases hbind : Binding.bind values sql with
    | error e => rfl
    | ok bound =>
      have hbound : terminate bound = bound := by
        rw [terminate, finish_of_ends (ends_of_bind hends hbind)]
      exact congrArg Except.ok hbound.symm
  | false =>
    rw [finish_of_not_ends hends]
    constructor
    · intro hsame
      have hblank : Text.isBlankText sql = false := by
        cases hblank : Text.isBlankText sql with
        | false => rfl
        | true =>
          have hempty : Binding.bind values sql = .error .emptyQuery := by
            rw [Binding.bind, if_pos hblank]
          rw [hempty] at hsame
          exact absurd hsame bind_semicolon_ne_emptyQuery
      refine ⟨hblank, fun bound hbind hbound => ?_⟩
      -- otherwise the one has two semicolons at its end and the other has one
      rw [bind_semicolon hblank, hbind] at hsame
      have hsql := congrArg (fun bound => bound.sql.length) (Except.ok.inj hsame)
      simp [terminate, finish_of_ends hbound] at hsql
    · intro htakes
      rw [bind_semicolon htakes.isBlank_eq]
      cases hbind : Binding.bind values sql with
      | error e => rfl
      | ok bound =>
        have hbound : endsInSemicolon bound.sql = false := by
          rw [Bool.eq_false_iff]
          intro hbound
          rw [htakes.ends_own bound hbind hbound] at hends
          cases hends
        have hterminate : terminate bound = ⟨bound.sql ++ ";", bound.values⟩ := by
          rw [terminate, finish_of_not_ends hbound]
        exact congrArg Except.ok hterminate.symm

/-! ## Commands that bind -/

/-- The file with the values that a command binds. -/
def Command.values? : Command → Option String
  | compile _ _ values? => values?
  | bind _ values => some values

/-- The statement that a command is about. -/
def Command.statement (files : Files) (settings : Settings) : Command → Except Failure String
  | compile operation file _ => do
    let descriptor ← readJson files file
    failing .compilation (operation.compile settings descriptor)
  | bind file _ => statementOfText <$> readText files file

theorem Command.run_of_values {files : Files} {settings : Settings} {command : Command}
    {path : String} (h : command.values? = some path) :
    command.run files settings =
      command.statement files settings >>= fun sql =>
        bindWithFile files settings.output sql path := by
  cases command with
  | compile operation file values? =>
    obtain rfl : values? = some path := h
    rw [run, statement, bind_assoc]
  | bind file values =>
    obtain rfl : values = path := Option.some.inj h
    rw [run, statement, bind_map_left]

/-- Both fail in the same way, or the second prints what the first prints, with a semicolon. -/
inductive DifferInSemicolon : Except Failure String → Except Failure String → Prop
  | fails (failure : Failure) : DifferInSemicolon (.error failure) (.error failure)
  | prints (bound : BoundQuery) :
      DifferInSemicolon (.ok (boundText bound)) (.ok (boundText (terminate bound)))

theorem differ_bindWithFile {files : Files} {path sql : String}
    (h : ∀ values, readValues files path = .ok values → TakesSemicolon values sql) :
    DifferInSemicolon (bindWithFile files ⟨false⟩ sql path)
      (bindWithFile files ⟨true⟩ sql path) := by
  rw [bindWithFile, bindWithFile]
  cases hvalues : readValues files path with
  | error failure => exact .fails failure
  | ok values =>
    have hsame := bindFinished_semicolon_iff.mpr (h values hvalues)
    show DifferInSemicolon (failing .binding (bindFinished ⟨false⟩ values sql) >>= _)
      (failing .binding (bindFinished ⟨true⟩ values sql) >>= _)
    rw [hsame]
    cases bindFinished ⟨false⟩ values sql with
    | error error => exact .fails (.binding error)
    | ok bound => exact .prints bound

/-- A descriptor never compiles to a blank text. -/
theorem isBlankText_operation {settings : Settings} {descriptor : Json} {operation : Operation}
    {sql : String} (hok : operation.compile settings descriptor = .ok sql) :
    Text.isBlankText sql = false := by
  cases operation with
  | find =>
    obtain ⟨params, -, hok⟩ := exists_of_bind_eq_ok hok
    exact @Statement.isBlankText_compile (.find _) _ hok
  | insert many =>
    cases many with
    | false =>
      obtain ⟨params, -, hok⟩ := exists_of_bind_eq_ok hok
      exact @Statement.isBlankText_compile (.insertOne _) _ hok
    | true =>
      obtain ⟨params, -, hok⟩ := exists_of_bind_eq_ok hok
      exact @Statement.isBlankText_compile (.insertMany _) _ hok
  | update =>
    obtain ⟨params, -, hok⟩ := exists_of_bind_eq_ok hok
    exact @Statement.isBlankText_compile (.update _) _ hok
  | delete =>
    obtain ⟨params, -, hok⟩ := exists_of_bind_eq_ok hok
    exact @Statement.isBlankText_compile (.delete _) _ hok

/-- Where the statement takes a semicolon, the setting decides on the semicolon and on nothing else;
a text that does not take it is bound to something else with the setting. What a descriptor compiles
to is never blank. -/
theorem run_semicolon (files : Files) (settings : Settings) (command : Command) (path : String)
    (hpath : command.values? = some path) :
    ((∀ sql values, command.statement files settings = .ok sql →
      readValues files path = .ok values →
        TakesSemicolon values sql) →
      DifferInSemicolon (command.run files { settings with output := ⟨false⟩ })
        (command.run files { settings with output := ⟨true⟩ })) ∧
    (∀ values sql, bindFinished ⟨true⟩ values sql = terminate <$> bindFinished ⟨false⟩ values sql ↔
      TakesSemicolon values sql) ∧
    (∀ operation descriptor sql, Operation.compile settings descriptor operation = .ok sql →
      Text.isBlankText sql = false) := by
  refine ⟨fun htakes => ?_, fun values sql => bindFinished_semicolon_iff,
    fun _ _ _ => isBlankText_operation⟩
  have hstatement : ∀ output, command.statement files { settings with output := output } =
      command.statement files settings := by
    intro output
    cases command <;> rfl
  rw [Command.run_of_values hpath, Command.run_of_values hpath, hstatement ⟨false⟩,
    hstatement ⟨true⟩]
  cases hsql : command.statement files settings with
  | error failure => exact .fails failure
  | ok sql => exact differ_bindWithFile fun values => htakes sql values hsql

/-! ## Two files -/

/-- A statement, and no values beside it. -/
def statementFile (sql : String) : Files := fun path =>
  if path = "query.sql" then .ok sql else .ok "\x7b\x7d"

def bindCommand : Command := .bind "query.sql" "values.json"

theorem readValues_statementFile (sql : String) :
    readValues (statementFile sql) "values.json" = .ok [] := by
  have hlexemes : Json.lexemes? "\x7b\x7d".toList = some [.openObject, .closeObject] := by
    simp [Json.lexemes?]
  have hread : Json.read? Json.greatestDepth "\x7b\x7d" = some (.object []) := by
    rw [Json.read?, hlexemes]
    rfl
  have htext : readText (statementFile sql) "values.json" = .ok "\x7b\x7d" := rfl
  have hjson : readJson (statementFile sql) "values.json" = .ok (.object []) := by
    simp only [readJson, htext, bind, Except.bind, hread]
    rfl
  rw [readValues, hjson]
  rfl

theorem statement_statementFile (sql : String) (settings : Settings) :
    bindCommand.statement (statementFile sql) settings = .ok (Text.trimEnd sql) := rfl

/-- What is printed is the statement, without blanks at its end, as it is bound. -/
theorem run_statementFile (sql : String) (settings : Settings) :
    bindCommand.run (statementFile sql) settings =
      boundText <$> failing .binding (bindFinished settings.output [] (Text.trimEnd sql)) := by
  rw [Command.run_of_values rfl, statement_statementFile]
  show bindWithFile (statementFile sql) settings.output (Text.trimEnd sql) "values.json" = _
  rw [bindWithFile, readValues_statementFile]
  show (failing .binding (bindFinished settings.output [] (Text.trimEnd sql)) >>= fun bound =>
    pure (boundText bound)) = _
  cases bindFinished settings.output [] (Text.trimEnd sql) <;> rfl

theorem takesSemicolon_constant : TakesSemicolon [] "SELECT 1" := by
  have hbind : Binding.bind [] "SELECT 1" = .ok ⟨"SELECT 1", []⟩ :=
    Binding.bind_eq_ok "SELECT 1" [] (by decide) (by decide) (by decide) (by decide)
  refine ⟨by decide, fun bound hok hends => ?_⟩
  rw [hbind] at hok
  cases hok
  exact hends

/-- A statement without parameters is printed with a semicolon and otherwise the same. -/
theorem run_semicolon_constant :
    (bindCommand.values? = some "values.json" ∧ TakesSemicolon [] "SELECT 1") ∧
      DifferInSemicolon (bindCommand.run (statementFile "SELECT 1") { output := ⟨false⟩ })
        (bindCommand.run (statementFile "SELECT 1") { output := ⟨true⟩ }) := by
  refine ⟨⟨rfl, takesSemicolon_constant⟩, ?_⟩
  refine (run_semicolon (statementFile "SELECT 1") {} bindCommand "values.json" rfl).1 ?_
  intro sql values hsql hvalues
  rw [readValues_statementFile] at hvalues
  cases hvalues
  have hconstant : Text.trimEnd "SELECT 1" = "SELECT 1" := by decide
  rw [statement_statementFile, hconstant] at hsql
  cases hsql
  exact takesSemicolon_constant

/-- An empty file is refused without the setting, and bound to a semicolon with it. -/
theorem not_differInSemicolon_empty :
    bindCommand.run (statementFile "") { output := ⟨false⟩ } = .error (.binding .emptyQuery) ∧
      bindCommand.run (statementFile "") { output := ⟨true⟩ } = .ok (boundText ⟨";", []⟩) ∧
      ¬ DifferInSemicolon (bindCommand.run (statementFile "") { output := ⟨false⟩ })
        (bindCommand.run (statementFile "") { output := ⟨true⟩ }) := by
  have hplain : bindCommand.run (statementFile "") { output := ⟨false⟩ } =
      .error (.binding .emptyQuery) := by
    rw [run_statementFile]
    rfl
  have hbind : Binding.bind [] ";" = .ok ⟨";", []⟩ :=
    Binding.bind_eq_ok ";" [] (by decide) (by decide) (by decide) (by decide)
  have hfinish : OutputSettings.finish ⟨true⟩ (Text.trimEnd "") = ";" := by decide
  have hfinished : bindCommand.run (statementFile "") { output := ⟨true⟩ } =
      .ok (boundText ⟨";", []⟩) := by
    rw [run_statementFile, bindFinished, hfinish, hbind]
    rfl
  refine ⟨hplain, hfinished, fun hdiffer => ?_⟩
  rw [hplain, hfinished] at hdiffer
  cases hdiffer

end DescriptorSql.CommandLine
