import SyntaxForest.Data.Assoc
import SyntaxForest.Fault
import SyntaxForest.Source.FilePath

/-!
A folder of files, and what paths lead to.

The folder holds files and no further folders. Of the folders around it nothing is known but that
one can go up from them: a name in one of them leads nowhere. Going through a file leads nowhere
either, which is told apart when a file is to be written.
-/

namespace SyntaxForest

/-- Files by name, in the folder at a place. -/
structure Folder where
  /-- Where paths into the folder begin. -/
  root : PathRoot := .place ""
  files : Assoc String String := []

/-- What a path leads to. -/
inductive Found where
  | file (text : String)
  | folder
  /-- There is no such file yet, and it can be written under this name. -/
  | free (name : String)
  | nothing
  /-- The path goes on after a file. -/
  | belowFile
  | nameTooLong
  | nullCharacter
deriving DecidableEq, Repr

/-- Why a file cannot be opened. -/
inductive OpenError where
  | noSuchFile
  | isFolder
  | notFolder
  | nameTooLong
  | nullCharacter
deriving DecidableEq, Repr

namespace OpenError

/-- The fault under which the refusal of a path is reported. -/
def fault (path : String) : OpenError → Fault
  | noSuchFile => .ofText .noFile ("[Errno 2] No such file or directory: " ++ Text.quoted path)
  | isFolder => .ofText .isDirectory ("[Errno 21] Is a directory: " ++ Text.quoted path)
  | notFolder => .ofText .notDirectory ("[Errno 20] Not a directory: " ++ Text.quoted path)
  | nameTooLong => .ofText .badPath ("[Errno 36] File name too long: " ++ Text.quoted path)
  | nullCharacter => .badValue "embedded null byte"

end OpenError

namespace Folder

/-- The most bytes that a name may have. -/
def maxNameBytes : Nat := 255

/-- The number of bytes that a path does not reach. -/
def maxPathBytes : Nat := 4096

/-- Follows names from a folder around this one. -/
def followOutside : List String → Found
  | [] => .folder
  | name :: rest =>
    if name = ".." then followOutside rest
    else if maxNameBytes < name.utf8ByteSize then .nameTooLong
    else .nothing

/-- Follows names from this folder. -/
def followInside (f : Folder) : List String → Found
  | [] => .folder
  | name :: rest =>
    if name = ".." then followOutside rest
    else if maxNameBytes < name.utf8ByteSize then .nameTooLong
    else
      match Assoc.get? f.files name, rest with
      | some text, [] => .file text
      | some _, _ :: _ => .belowFile
      | none, [] => .free name
      | none, _ :: _ => .nothing

/-- What a path leads to. -/
def find (f : Folder) (p : FilePath) : Found :=
  if p.toText.contains (Char.ofNat 0) then .nullCharacter
  else if maxPathBytes ≤ p.toText.utf8ByteSize then .nameTooLong
  else if p.root = f.root then f.followInside p.names
  else followOutside p.names

/-- Writes a file. -/
def write (f : Folder) (p : FilePath) (text : String) : Except OpenError Folder :=
  let written (name : String) : Folder := { f with files := Assoc.set f.files name text }
  match f.find p with
  | .file _ => .ok (written p.name)
  | .free name => .ok (written name)
  | .folder => .error .isFolder
  | .nothing => .error .noSuchFile
  | .belowFile => .error .notFolder
  | .nameTooLong => .error .nameTooLong
  | .nullCharacter => .error .nullCharacter

end Folder

end SyntaxForest
