import Rollout.Config.Toml
import Rollout.Text.Utf8

/-!
Configuration files.

Files lie in one directory and are found by a path from there, or from the root if it starts with a
slash. On the way `.` stays, `..` goes up, and only directories lead on, so nothing may follow a
file, not even a slash.
-/
namespace Rollout

open Text (Bytes)

/-- The files of a directory by name. -/
abbrev Directory := List (String × Bytes)

namespace Directory

/-- Where a path has led so far. -/
inductive Place where
  | inside
  /-- Above or beside the directory, where nothing is known. -/
  | outside
  | file (bytes : Bytes)
  deriving DecidableEq, Repr

/-- The longest name of a file, in bytes. -/
def nameLimit : Nat := 255

/-- The longest path, in bytes; the rest of the 4095 bytes that a path may have leads to the
directory. -/
def pathLimit : Nat := 4079

/-- One part of a path. -/
def step (d : Directory) : Place → String → Except FileError Place
  | .file _, _ => .error .notADirectory
  | place, "" => .ok place
  | place, "." => .ok place
  | _, ".." => .ok .outside
  | place, name =>
    if nameLimit < name.utf8ByteSize then .error .nameTooLong
    else match place, d.lookup name with
      | .inside, some bytes => .ok (.file bytes)
      | _, _ => .error .notFound

/-- The parts of a path between its slashes. -/
def parts : List Char → List Char → List String
  | done, [] => [String.ofList done.reverse]
  | done, '/' :: cs => String.ofList done.reverse :: parts [] cs
  | done, c :: cs => parts (c :: done) cs

/-- Where a path starts. -/
def start (path : String) : Place := if path.toList.head? = some '/' then .outside else .inside

/-- The contents of the file at a path. -/
def read (d : Directory) (path : String) : Except FileError Bytes := do
  if path.toList.contains '\x00' then throw .nulInName
  if pathLimit < path.utf8ByteSize then throw .nameTooLong
  match ← (parts [] path.toList).foldlM d.step (start path) with
  | .file bytes => return bytes
  | _ => throw .isADirectory

/-- The text of the file at a path. -/
def readText (d : Directory) (path : String) : Except FileError (List Char) := do
  match Text.decode? (← d.read path) with
  | some text => return text
  | none => throw .notText

end Directory

/-- The configuration in the text of a file, if the text could be read. -/
def Config.ofFile (path : String) : Except FileError (List Char) → Except ConfigError Config
  | .ok text => Config.ofText text
  | .error e => .error (.unreadable path e)

end Rollout
