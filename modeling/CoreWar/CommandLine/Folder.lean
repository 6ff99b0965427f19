/-!
Contract: files as a command sees them.

Owns:
- why a file cannot be read, and the system's words for it;
- a folder held in memory, in which relative paths are looked up.

Does not own: the file system, see `CoreWar.Main`.
-/

namespace CoreWar.CommandLine

/-- Why a file cannot be read. -/
inductive ReadFailure where
  | missing
  | denied
  | notDirectory
  | directory
  | nameTooLong
  | notText
  | other (reason : String)
deriving DecidableEq, Repr

def ReadFailure.message : ReadFailure → String
  | missing => "No such file or directory (os error 2)"
  | denied => "Permission denied (os error 13)"
  | notDirectory => "Not a directory (os error 20)"
  | directory => "Is a directory (os error 21)"
  | nameTooLong => "File name too long (os error 36)"
  | notText => "stream did not contain valid UTF-8"
  | other reason => reason

/-- How a path is read: as the text of a file, or not. -/
abbrev Files := String → Except ReadFailure String

/-- A folder without subfolders: the names of its files and their texts. -/
structure Folder where
  files : List (String × String)
deriving DecidableEq, Repr

namespace Folder

/-- Where the parts of a path have led so far. -/
inductive Place where
  | inside
  | outside
  | file (text : String)
deriving DecidableEq, Repr

/-- A name has at most 255 bytes. -/
def maxNameSize : Nat := 255

/-- A path has at most 4095 bytes. -/
def maxPathSize : Nat := 4095

/-- Follows one part of a path. Nothing is known of what lies outside the folder. -/
def follow (folder : Folder) (place : Place) (part : String) : Except ReadFailure Place :=
  match place with
  | .file _ => .error .notDirectory
  | place =>
    if part = "" ∨ part = "." then
      .ok place
    else if part = ".." then
      .ok .outside
    else if maxNameSize < part.utf8ByteSize then
      .error .nameTooLong
    else
      match place, folder.files.lookup part with
      | .inside, some text => .ok (.file text)
      | _, _ => .error .missing

/-- Reads the file at a path, which starts in the folder unless it starts with a slash. -/
def read (folder : Folder) : Files := fun path =>
  if maxPathSize < path.utf8ByteSize then
    .error .nameTooLong
  else do
    let start : Place := if path.toList.head? = some '/' then .outside else .inside
    match ← (path.splitOn "/").foldlM folder.follow start with
    | .file text => return text
    | _ => throw .directory

end Folder

end CoreWar.CommandLine
