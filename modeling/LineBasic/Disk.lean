/-
  LineBasic.Disk

  One directory of files, and the paths that lead to them.

  A path is followed part by part: `.` stays, `..` leaves the directory, and a name must be that of
  a directory if a part follows it. The directory holds files only, and outside of it nothing is
  known but directories without files. So a path leads to a directory, to a name in the directory,
  or to a name outside, which is never that of a file.
-/
import LineBasic.Complaint

namespace LineBasic

/-! ## Paths -/

structure Path where
  /-- The path starts outside of the directory. -/
  absolute : Bool
  /-- The parts between slashes, empty ones left out. -/
  parts : List String
  /-- A slash ends the path. -/
  slashed : Bool
  deriving Repr, DecidableEq

namespace Path

/-- The most bytes that a path may have. -/
def maxBytes : Nat := 4095

/-- The most bytes that one part of a path may have. -/
def maxNameBytes : Nat := 255

def ofText (text : List Char) : Path where
  absolute := text.head? = some '/'
  parts := ((text.splitOn '/').filter (!·.isEmpty)).map String.ofList
  slashed := text.getLast? = some '/'

/-- The path that a text spells; too long a text and an empty one are refused. -/
def ofString (text : String) : Except Fault Path :=
  if text.toList.contains (Char.ofNat 0) then .error .nulInPath
  else if maxBytes < text.utf8ByteSize then .error (.fileRefused .nameTooLong text)
  else if text.isEmpty then .error (.fileRefused .noSuchFile text)
  else .ok (ofText text.toList)

end Path

/-! ## Files -/

structure Disk where
  files : List (String × List UInt8) := []

namespace Disk

/-- Where a path leads. -/
inductive Place where
  | directory
  /-- A name in the directory, of a file or of none. -/
  | name (name : String)
  /-- A name that is not in the directory. -/
  | elsewhere
  deriving Repr, DecidableEq

/-- Follows a part of a path that has more parts; whether that stays in the directory. -/
def follow (d : Disk) (inside : Bool) (part : String) : Except FileRefusal Bool :=
  if part = "." then .ok inside
  else if part = ".." then .ok false
  else if Path.maxNameBytes < part.utf8ByteSize then .error .nameTooLong
  else if inside && (d.files.lookup part).isSome then .error .notADirectory
  else .error .noSuchFile

/-- Follows the last part of a path. -/
def arrive (inside : Bool) (part : String) : Except FileRefusal Place :=
  if part = "." ∨ part = ".." then .ok .directory
  else if Path.maxNameBytes < part.utf8ByteSize then .error .nameTooLong
  else .ok (if inside then .name part else .elsewhere)

/-- The directory before the last part of a path; whether it is this one. -/
def parent (d : Disk) (path : Path) : Except FileRefusal Bool :=
  path.parts.dropLast.foldlM d.follow (!path.absolute)

/-- The bytes of the file at a path. A path that a slash ends is not that of a file. -/
def readAt (d : Disk) (path : Path) : Except FileRefusal (List UInt8) := do
  let inside ← d.parent path
  match ← arrive inside (path.parts.getLast?.getD ".") with
  | .directory => .error .isDirectory
  | .elsewhere => .error .noSuchFile
  | .name name =>
    match d.files.lookup name with
    | some bytes => if path.slashed then .error .notADirectory else .ok bytes
    | none => .error .noSuchFile

/-- Writes the file at a path, in place of one with its name. A path that a slash ends is taken for
    that of a directory, whatever its last part is. -/
def writeAt (d : Disk) (path : Path) (bytes : List UInt8) : Except FileRefusal Disk := do
  let inside ← d.parent path
  if path.slashed then .error .isDirectory
  else
    match ← arrive inside (path.parts.getLast?.getD ".") with
    | .directory => .error .isDirectory
    | .elsewhere => .error .noSuchFile
    | .name name => .ok ⟨(name, bytes) :: d.files.filter (·.1 ≠ name)⟩

/-- The bytes of a file. -/
def read (d : Disk) (path : String) : Except Fault (List UInt8) := do
  (d.readAt (← Path.ofString path)).mapError (.fileRefused · path)

/-- Writes a file, in place of one with its name. -/
def write (d : Disk) (path : String) (bytes : List UInt8) : Except Fault Disk := do
  (d.writeAt (← Path.ofString path) bytes).mapError (.fileRefused · path)

end Disk

end LineBasic
