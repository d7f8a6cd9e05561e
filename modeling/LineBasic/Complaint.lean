/-
  LineBasic.Complaint

  What can go wrong. A complaint is about the BASIC program: it is shown to the user, and a session
  goes on after it. A fault is anything else; it ends what the session was doing.

  Both are causes; `Complaint.message` and `Fault.message` put them into words. A complaint is put
  into words where it is raised, so one with a number that is too long to be written is raised as a
  fault.
-/
import LineBasic.Name
import LineBasic.Number.Index
import LineBasic.Stmt.Kind
import LineBasic.Text.Integer
import LineBasic.Text.Utf8

namespace LineBasic

/-! ## Complaints -/

/-- Why a statement or a program line cannot be read. -/
inductive Misreading where
  | unknownStatement (text : String)
  | malformed (kind : Kind) (text : String)
  | tooDeep
  /-- A subscript on a name that has a digit. -/
  | suffixedArray (slot : Nat)
  /-- A program line without its number; `source` counts the lines of the text it stands in. -/
  | noLineNumber (text : String) (source : Option Nat)
  deriving Repr, DecidableEq

def Misreading.message : Misreading → String
  | .unknownStatement text => s!"unknown statement: {text}"
  | .malformed kind text => s!"malformed {kind.name} statement: {text}"
  | .tooDeep => "expression too deeply nested"
  | .suffixedArray slot => s!"arrays only supported for A-Z, not {Name.ofSlot slot}"
  | .noLineNumber text none => s!"expected a line number: {text}"
  | .noLineNumber text (some n) => s!"expected a line number at line {n}: {text}"

/-- A misreading, with the column at which it was noticed where there is one. -/
structure Misread where
  cause : Misreading
  column : Option Nat
  deriving Repr, DecidableEq

def Misread.message (m : Misread) : String :=
  match m.column with
  | some column => s!"{m.cause.message} (column {column})"
  | none => m.cause.message

/-- The two ways of naming a line to go on with. -/
inductive Jump where
  | GOTO
  | THEN
  deriving Repr, DecidableEq

def Jump.word : Jump → String
  | .GOTO => "GOTO"
  | .THEN => "THEN"

inductive Complaint where
  | misread (misread : Misread)
  | undeclared (letter : Nat)
  | outOfBounds (letter : Nat) (subscript : Number.Subscript)
  | forWithoutNext
  | forTooDeep
  | nextWithoutFor
  /-- `NEXT` names another variable than the innermost loop. -/
  | nextMismatch (named inLoop : Nat)
  | noSuchLine (jump : Jump) (line : Int)
  | listingFull (capacity line : Int)
  deriving Repr, DecidableEq

namespace Complaint

/-- The heading under which a complaint is shown. -/
def label : Complaint → String
  | .misread _ => "Syntax error"
  | _ => "Runtime error"

/-- The family of a complaint, by which the log names it. -/
def family : Complaint → String
  | .misread _ => "BasicSyntaxError"
  | .undeclared _ => "UndeclaredArrayError"
  | .outOfBounds .. => "ArrayBoundsError"
  | .listingFull .. => "ProgramCapacityError"
  | _ => "ControlFlowError"

/-- The complaint in words, without a column. -/
def bareMessage : Complaint → String
  | .misread m => m.cause.message
  | .undeclared letter => s!"array {Name.ofLetter letter} not DIM'd"
  | .outOfBounds letter subscript =>
    s!"array {Name.ofLetter letter} index {subscript.text} out of bounds"
  | .forWithoutNext => "FOR without matching NEXT"
  | .forTooDeep => "FOR stack overflow"
  | .nextWithoutFor => "NEXT without FOR"
  | .nextMismatch named inLoop =>
    s!"NEXT variable does not match FOR ({Name.ofSlot named} vs {Name.ofSlot inLoop})"
  | .noSuchLine jump line => s!"{jump.word} to {line} not found"
  | .listingFull capacity line => s!"Program full ({capacity} lines), line {line} dropped"

def message : Complaint → String
  | .misread m => m.message
  | c => c.bareMessage

/-- Whether the numbers in the complaint are short enough to be written. -/
def isWritable : Complaint → Bool
  | .noSuchLine _ line => Text.isWritable line
  | .listingFull capacity line => Text.isWritable capacity && Text.isWritable line
  | _ => true

/-- The complaint as the log shows it: its family, and its words in quotes. -/
def logged (c : Complaint) : String :=
  s!"{c.family}({Text.quoted c.bareMessage})"

end Complaint

/-! ## Faults -/

/-- Why the file system refuses a file. -/
inductive FileRefusal where
  | noSuchFile
  | notADirectory
  | isDirectory
  | nameTooLong
  | other (code : Nat) (description : String)
  deriving Repr, DecidableEq

def FileRefusal.message : FileRefusal → String
  | .noSuchFile => "[Errno 2] No such file or directory"
  | .notADirectory => "[Errno 20] Not a directory"
  | .isDirectory => "[Errno 21] Is a directory"
  | .nameTooLong => "[Errno 36] File name too long"
  | .other code description => s!"[Errno {code}] {description}"

inductive Fault where
  /-- There is no cell with the slot or letter, or no line with the index. -/
  | missing
  /-- There is no cell with the slot or letter to be written. -/
  | missingTarget
  /-- An array of a size that cannot be counted. -/
  | uncountable
  | outOfMemory
  | unknownExpression
  | unknownStatement
  | unknownRelation (symbol : String)
  | listingLocked
  | alreadyRunning
  | badInteger (flaw : Text.IntegerFlaw)
  /-- The line number of a `GOTO` or `IF` statement has too many digits. -/
  | badTarget (kind : Kind) (flaw : Text.IntegerFlaw)
  | nulInPath
  | fileRefused (refusal : FileRefusal) (path : String)
  | undecodable (flaw : Text.Utf8.Flaw)
  /-- A limit is needed that was given without a number. -/
  | limitMissing
  /-- An integer has too many digits to be written. -/
  | unwritable
  deriving Repr, DecidableEq

/-- The name of the grammar rule with a line number in it. -/
def Kind.ruleName (kind : Kind) : String :=
  match kind with
  | .GOTO => "goto_stmt"
  | _ => "if_stmt"

namespace Fault

def message : Fault → String
  | .missing => "list index out of range"
  | .missingTarget => "list assignment index out of range"
  | .uncountable => "cannot fit 'int' into an index-sized integer"
  | .outOfMemory => ""
  | .unknownExpression => "Unknown expr node"
  | .unknownStatement => "Unknown stmt"
  | .unknownRelation symbol => s!"Unknown relational operator {symbol}"
  | .listingLocked => "program cannot be changed while it is running"
  | .alreadyRunning => "program is already running"
  | .badInteger flaw => flaw.message
  | .badTarget kind flaw =>
    s!"Error trying to process rule \"{kind.ruleName}\":\n\n{flaw.message}"
  | .nulInPath => "embedded null byte"
  | .fileRefused refusal path => s!"{refusal.message}: {Text.quoted path}"
  | .undecodable flaw => flaw.message
  | .limitMissing => "'>=' not supported between instances of 'int' and 'list'"
  | .unwritable => Text.unwritableMessage

/-- Whether the file system refused: what the console reports in a line of its own. -/
def isRefusal : Fault → Bool
  | .fileRefused .. => true
  | _ => false

end Fault

/-- What a step of a session fails with. -/
inductive Failure where
  | complaint (complaint : Complaint)
  | fault (fault : Fault)
  deriving Repr, DecidableEq

/-- The failure that a complaint is raised as. -/
def Complaint.raised (c : Complaint) : Failure :=
  if c.isWritable then .complaint c else .fault .unwritable

end LineBasic
