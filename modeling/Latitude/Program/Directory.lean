import Latitude.Source

/-!
# Directories

The place where the program runs, as far as it can see it: a directory of files and
nothing below them. Opening a path gives a source or the reason why it cannot be
opened. A directory opens too; it fails when it is read.
-/

namespace Latitude

inductive Opened
  | source (source : Source)
  | failed (reason : String)
  deriving DecidableEq

structure Directory where
  files : List (String × List UInt8)

/-- Where a path has led so far: to the directory, or to one above it. -/
inductive Place
  | here | above
  deriving DecidableEq

namespace Directory

def notFound : Opened := .failed "No such file or directory (os error 2)"

def notADirectory : Opened := .failed "Not a directory (os error 20)"

def nameTooLong : Opened := .failed "File name too long (os error 36)"

def maxName : Nat := 255

def maxPath : Nat := 4095

/-- A directory can be opened, but gives no bytes. -/
def unreadable : Opened :=
  .source [.fault { kind := .other, reason := "Is a directory (os error 21)" }]

def find? (directory : Directory) (name : String) : Option (List UInt8) :=
  (directory.files.find? (·.1 == name)).map (·.2)

/-- Follows the parts of a path between its slashes. Empty parts and single dots stay
where they are. Above the directory nothing can be found but further directories. -/
def openParts (directory : Directory) (place : Place) : List String → Opened
  | [] => unreadable
  | part :: rest =>
    if part == "" || part == "." then directory.openParts place rest
    else if part == ".." then directory.openParts .above rest
    else if maxName < part.utf8ByteSize then nameTooLong
    else match place, directory.find? part, rest with
      | .here, some data, [] => .source (.ofBytes data)
      | .here, some _, _ => notADirectory
      | _, _, _ => notFound

/-- An absolute path leads through the directories above. -/
def openPath (directory : Directory) (path : String) : Opened :=
  if maxPath < path.utf8ByteSize then nameTooLong
  else match path.splitOn "/" with
    | "" :: parts => directory.openParts .above parts
    | parts => directory.openParts .here parts

end Directory

end Latitude
