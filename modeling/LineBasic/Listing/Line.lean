/-
  LineBasic.Listing.Line

  Program lines. A line keeps its number and its text, and beside them what the text parses to: a
  line that cannot be parsed is stored with the reason and complains only when it is executed.

  `Entry` is a program line as typed: a number alone asks for the line to be deleted.
-/
import LineBasic.Stmt.Parse

namespace LineBasic

structure Line where
  number : Int
  text : String
  kind : Kind
  content : Except Misread Stmt

/-- The line with a number and a trimmed text. -/
def Line.make (number : Int) (text : String) : Except Fault Line :=
  let kind := Kind.ofText text.toList
  match Stmt.parseAs kind text.toList with
  | .ok stmt => .ok { number, text, kind, content := .ok stmt }
  | .error (.misread m) => .ok { number, text, kind, content := .error m }
  | .error (.target kind flaw) => .error (.badTarget kind flaw)

/-- A typed program line. -/
structure Entry where
  number : Int
  text : Option String
  deriving Repr, DecidableEq

/-- Splits a program line into its number, which ends at the first space, and its text. `source`
    counts the lines of the text that the line stands in. -/
def Entry.ofText (raw : List Char) (source : Option Nat) : Except Failure Entry :=
  let trimmed := Text.trim raw
  let (head, rest) := Text.splitAtSpace trimmed
  if head.isEmpty || !head.all Text.isDigit then
    .error (.complaint (.misread ⟨.noLineNumber (String.ofList trimmed) source, none⟩))
  else
    match Text.readNatural head with
    | .error flaw => .error (.fault (.badInteger flaw))
    | .ok number =>
      let text := Text.trim rest
      .ok ⟨number, if text.isEmpty then none else some (String.ofList text)⟩

end LineBasic
