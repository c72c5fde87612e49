import Swimlane.Json.Value
import Swimlane.OrderedMap
import Swimlane.Text.Utf8

/-! The folder that commands run in: its files by name, and what can go wrong with a name. -/
namespace Swimlane.CommandLine

open Utf8

/-- The files by their names; a slash in a name stands for a folder within. -/
abbrev Folder := OrderedMap Text Bytes

inductive FileFlaw
  | notFound
  | isFolder
  | notAFolder
  deriving DecidableEq, Repr

inductive FileError
  | system (flaw : FileFlaw) (path : Text)
  | nullCharacter
  deriving DecidableEq, Repr

def FileError.message : FileError → Text
  | .system .notFound path => "[Errno 2] No such file or directory: " ++ Json.quote path
  | .system .notAFolder path => "[Errno 20] Not a directory: " ++ Json.quote path
  | .system .isFolder path => "[Errno 21] Is a directory: " ++ Json.quote path
  | .nullCharacter => "embedded null byte"

/-- The parts of a path without those that stay in place. -/
def pathParts (path : Text) : List Text :=
  (path.splitOn '/').filter fun part => !part.isEmpty && part ≠ ['.']

/-- A path as it is shown and looked up: no doubled slashes, a point for the folder itself. -/
def normalPath (path : Text) : Text :=
  let joined := Text.join ['/'] (pathParts path)
  match path with
  | '/' :: '/' :: '/' :: _ => '/' :: joined
  | '/' :: '/' :: _ => '/' :: '/' :: joined
  | '/' :: _ => '/' :: joined
  | _ => if joined.isEmpty then ['.'] else joined

namespace Folder

/-- Whether a normal path leads to a folder: this one, one around it, or one that holds a file. -/
def isFolder (folder : Folder) (path : Text) : Bool :=
  path = ['.'] || path = ['.', '.'] || path.all (· == '/')
    || folder.keys.any fun name => (path ++ ['/']).isPrefixOf name

/-- The paths of the folders that a path goes through. -/
def parents (path : Text) : List Text :=
  let parts := path.splitOn '/'
  ((List.range parts.length).drop 1).map fun count => Text.join ['/'] (parts.take count)

/-- Why a normal path leads to no file. -/
def flaw (folder : Folder) (path : Text) : FileFlaw :=
  if folder.isFolder path then .isFolder
  else if (parents path).any folder.contains then .notAFolder
  else .notFound

def read (folder : Folder) (path : Text) : Except FileError Bytes :=
  if path.contains (Char.ofNat 0) then .error .nullCharacter
  else
    let path := normalPath path
    match folder.get? path with
    | some bytes => .ok bytes
    | none => .error (.system (folder.flaw path) path)

/-- Puts a file in place, if the path can lead to one. -/
def write (folder : Folder) (path : Text) (bytes : Bytes) : Except FileError Folder :=
  if path.contains (Char.ofNat 0) then .error .nullCharacter
  else
    let path := normalPath path
    if folder.contains path then .ok (folder.insert path bytes)
    else if folder.isFolder path || !(parents path).all folder.isFolder then
      .error (.system (folder.flaw path) path)
    else .ok (folder.insert path bytes)

end Folder

end Swimlane.CommandLine
