import DescriptorSql.Entries
import DescriptorSql.Text.Quoted

/-!
# `CommandLine/FileTree.lean` — files and why they cannot be read

A command sees files as a function from paths to texts. A `FileTree` is such files held in memory,
below one directory: a path is followed step by step, and every step but the last has to lead to a
directory.
-/

set_option autoImplicit false

namespace DescriptorSql.CommandLine

/-- Why a file cannot be read. -/
inductive FileError where
  | missing
  | directory
  /-- A step of the path leads to a file, and the path goes on. -/
  | notDirectory
  /-- The bytes are no text. -/
  | notText
  /-- Anything else, in the system's words. -/
  | other (text : String)
  deriving DecidableEq, Repr

namespace FileError

def message : FileError → String
  | missing => "No such file or directory (os error 2)"
  | directory => "Is a directory (os error 21)"
  | notDirectory => "Not a directory (os error 20)"
  | notText => "stream did not contain valid UTF-8"
  | other text => text

def isAbsence : FileError → Bool
  | missing | notDirectory => true
  | directory | notText | other _ => false

end FileError

/-- Files by path. -/
abbrev Files := String → Except FileError String

namespace Files

def has (files : Files) (path : String) : Bool :=
  match files path with
  | .ok _ => true
  | .error error => !error.isAbsence

end Files

/-- Texts by the steps of the way to them. -/
structure FileTree where
  texts : Entries (List (List Char)) String

namespace FileTree

/-- The steps of a path; a slash at its end makes a last step that is empty. -/
def steps (path : String) : List (List Char) := Text.splitAt '/' path.toList

def ofEntries (entries : Entries String String) : FileTree :=
  ⟨entries.map fun (path, text) => (steps path, text)⟩

/-- A text is somewhere below a place. -/
def isDirectory (tree : FileTree) (place : List (List Char)) : Bool :=
  tree.texts.any fun (path, _) => place.isPrefixOf path

/-- Follows steps from a directory. -/
def follow (tree : FileTree) : List (List Char) → List (List Char) → Except FileError String
  | _, [] => .error .directory
  | place, step :: rest =>
    if step = [] ∨ step = ['.'] then tree.follow place rest
    else if step = ['.', '.'] then
      if place.isEmpty then .error .missing else tree.follow place.dropLast rest
    else
      match Entries.get? tree.texts (place ++ [step]) with
      | some text => if rest.isEmpty then .ok text else .error .notDirectory
      | none =>
        if tree.isDirectory (place ++ [step]) then tree.follow (place ++ [step]) rest
        else .error .missing

def files (tree : FileTree) : Files := fun path =>
  match steps path with
  | [] :: _ => .error .missing
  | steps => tree.follow [] steps

end FileTree

end DescriptorSql.CommandLine
