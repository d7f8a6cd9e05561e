/-
  LineBasic.Listing.Basic

  The stored program: lines in the order of their numbers, at most one for a number and at most
  `capacity` of them. A listing that is locked, because it runs, cannot be changed.

  An edit that fails leaves the listing as it was. Loading a text is a sequence of edits: it looks
  at every line of the text before the first of them, and lines that do not fit are dropped.
-/
import LineBasic.Listing.Line
import LineBasic.Text.LineBreak

namespace LineBasic

structure Listing where
  lines : List Line := []
  capacity : Int := 1000
  locked : Bool := false

namespace Listing

/-! ## Lookup -/

/-- The index of the line with a number. -/
def indexOf? (l : Listing) (number : Int) : Option Nat :=
  l.lines.findIdx? (·.number = number)

/-- The line at an index. -/
def get (l : Listing) (index : Nat) : Except Fault Line :=
  match l.lines[index]? with
  | some line => .ok line
  | none => .error .missing

/-! ## Edits -/

/-- Puts a line in its place among lines in order, in place of the one with its number. -/
def putLine (line : Line) : List Line → List Line
  | [] => [line]
  | l :: rest =>
    if line.number < l.number then line :: l :: rest
    else if line.number = l.number then line :: rest
    else l :: putLine line rest

def insert (l : Listing) (number : Int) (text : String) : Except Failure Listing :=
  if l.locked then .error (.fault .listingLocked)
  else if (l.indexOf? number).isNone && l.capacity ≤ l.lines.length then
    .error (Complaint.listingFull l.capacity number).raised
  else
    match Line.make number (String.ofList (Text.trim text.toList)) with
    | .ok line => .ok { l with lines := putLine line l.lines }
    | .error fault => .error (.fault fault)

def erase (l : Listing) (number : Int) : Except Failure Listing :=
  if l.locked then .error (.fault .listingLocked)
  else .ok { l with lines := l.lines.filter (·.number ≠ number) }

def clear (l : Listing) : Except Failure Listing :=
  if l.locked then .error (.fault .listingLocked) else .ok { l with lines := [] }

/-- Applies a typed line: a number with a text is inserted, a number alone deleted. -/
def enter (l : Listing) (entry : Entry) : Except Failure Listing :=
  match entry.text with
  | some text => l.insert entry.number text
  | none => l.erase entry.number

/-! ## Text -/

/-- The lines as text, one after the other. -/
def written (l : Listing) : String :=
  String.join (l.lines.map fun line => s!"{line.number} {line.text}\n")

/-- The listing as text. There is none if a line has a number that cannot be written. -/
def dump (l : Listing) : Except Fault String :=
  if l.lines.all (Text.isWritable ·.number) then .ok l.written else .error .unwritable

/-- The entries of the lines of a text, blank lines left out; `source` counts the lines. -/
def entriesFrom (source : Nat) : List (List Char) → Except Failure (List Entry)
  | [] => .ok []
  | raw :: rest =>
    if (Text.trim raw).isEmpty then entriesFrom (source + 1) rest
    else do
      let entry ← Entry.ofText raw (some source)
      return entry :: (← entriesFrom (source + 1) rest)

def entries (text : List Char) : Except Failure (List Entry) :=
  entriesFrom 1 (Text.splitLines text)

/-- What loading leads to: the listing, the complaints about lines that did not fit, and whether the
    text was taken to its end. -/
structure Loading where
  listing : Listing
  dropped : List Complaint
  outcome : Except Failure Unit

/-- Applies entries one after the other; a complaint drops the entry, a fault ends the loading. -/
def enterAll (l : Listing) : List Entry → Loading
  | [] => ⟨l, [], .ok ()⟩
  | entry :: rest =>
    match l.enter entry with
    | .ok l => l.enterAll rest
    | .error (.complaint c) =>
      let loading := l.enterAll rest
      { loading with dropped := c :: loading.dropped }
    | .error (.fault fault) => ⟨l, [], .error (.fault fault)⟩

/-- Replaces the listing by the lines of a text. -/
def load (l : Listing) (text : List Char) : Loading :=
  match entries text with
  | .error failure => ⟨l, [], .error failure⟩
  | .ok entries =>
    match l.clear with
    | .error failure => ⟨l, [], .error failure⟩
    | .ok cleared => cleared.enterAll entries

end Listing

end LineBasic
