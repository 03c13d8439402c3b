import DescriptorSql.Json.Basic

/-!
# `Toml/Document.lean` — the tables of a document

A document is built line by line. A header opens a table or adds one to an array of tables, and the
lines below it write into that table. Nothing is ever written twice: a table remembers how it came
about (`Origin`), because a table that was only passed through on the way to another one may still
get a header of its own. A dotted key writes only into tables that dotted keys made. It may pass
through tables that headers passed through, and through the last table of an array, but not through
a table that has a header.

All operations follow a path and recurse on it; each is `none` when the path meets something that
may not be entered or written.
-/

set_option autoImplicit false

namespace DescriptorSql.Toml

/-- How a table came about. -/
inductive Origin where
  | passed
  | header
  /-- A dotted key wrote into it. -/
  | dotted
  deriving DecidableEq, Repr

/-- A part of a document: a finished value, a table, or an array of tables, the last one first. -/
inductive Node where
  | value (content : Json)
  | table (origin : Origin) (entries : List (String × Node))
  | tables (last : List (String × Node)) (earlier : List (List (String × Node)))

/-- Writes a value where a dotted key points. The last step of a path leads to the table that is
written into, the others only through one. -/
def insertDotted (key : String) (node : Node) :
    List String → Entries String Node → Option (Entries String Node)
  | [], entries =>
    if (Entries.get? entries key).isSome then none else some (Entries.insert entries key node)
  | step :: path, entries =>
    match Entries.get? entries step with
    | none =>
      (insertDotted key node path []).map fun inner =>
        Entries.insert entries step (.table .dotted inner)
    | some (.table .dotted inner) =>
      (insertDotted key node path inner).map fun inner =>
        Entries.insert entries step (.table .dotted inner)
    | some (.table .passed inner) =>
      if path.isEmpty then none
      else
        (insertDotted key node path inner).map fun inner =>
          Entries.insert entries step (.table .passed inner)
    | some (.tables last earlier) =>
      if path.isEmpty then none
      else
        (insertDotted key node path last).map fun last =>
          Entries.insert entries step (.tables last earlier)
    | some (.table .header _) | some (.value _) => none

/-- Opens the table that a header names. -/
def openTable (key : String) (entries : Entries String Node) : Option (Entries String Node) :=
  match Entries.get? entries key with
  | none => some (Entries.insert entries key (.table .header []))
  | some (.table .passed inner) => some (Entries.insert entries key (.table .header inner))
  | some _ => none

/-- Adds a table to the array that a header names. -/
def appendTable (key : String) (entries : Entries String Node) : Option (Entries String Node) :=
  match Entries.get? entries key with
  | none => some (Entries.insert entries key (.tables [] []))
  | some (.tables last earlier) => some (Entries.insert entries key (.tables [] (last :: earlier)))
  | some _ => none

/-- Changes the table at the end of a header's path. An array of tables stands for its last one. -/
def changeAt (change : Entries String Node → Option (Entries String Node)) :
    List String → Entries String Node → Option (Entries String Node)
  | [], entries => change entries
  | step :: path, entries =>
    match Entries.get? entries step with
    | none =>
      (changeAt change path []).map fun inner =>
        Entries.insert entries step (.table .passed inner)
    | some (.table origin inner) =>
      (changeAt change path inner).map fun inner =>
        Entries.insert entries step (.table origin inner)
    | some (.tables last earlier) =>
      (changeAt change path last).map fun last =>
        Entries.insert entries step (.tables last earlier)
    | some (.value _) => none

/-- Entries in the order of their keys. -/
def sortEntries (entries : List (String × Json)) : List (String × Json) :=
  entries.mergeSort fun a b => decide (a.1 ≤ b.1)

mutual

/-- A part of a document as JSON, tables in the order of their keys. -/
def Node.toJson : Node → Json
  | .value content => content
  | .table _ entries => .object (sortEntries (entriesJson entries))
  | .tables last earlier =>
    .array ((tablesJson earlier).reverse ++ [.object (sortEntries (entriesJson last))])

def entriesJson : List (String × Node) → List (String × Json)
  | [] => []
  | (key, node) :: rest => (key, node.toJson) :: entriesJson rest

def tablesJson : List (List (String × Node)) → List Json
  | [] => []
  | table :: rest => .object (sortEntries (entriesJson table)) :: tablesJson rest

end

end DescriptorSql.Toml
