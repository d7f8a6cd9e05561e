/-
  LineBasic.Sentence.Token

  The smallest parts of a sentence, and how one is taken off the front of a text.

  Which tokens are looked for depends on the place in the sentence (`Expecting`): where an operand
  is expected, `TO` is the name `T`; after an operand it is a keyword; after the left side of an
  assignment `==` is an equals sign followed by another. Of two tokens that start alike the longer
  is taken. Spaces and tabs stand between tokens, and between any two tokens they may be left out.
-/
import LineBasic.Number.Numeral
import LineBasic.Sentence.Basic
import LineBasic.Stmt.Kind

namespace LineBasic

/-- The words inside a sentence. -/
inductive Joint where
  | to
  | step
  | then
  deriving Repr, DecidableEq

def Joint.word : Joint → List Char
  | .to => ['T', 'O']
  | .step => ['S', 'T', 'E', 'P']
  | .then => ['T', 'H', 'E', 'N']

inductive Token where
  /-- The keyword that opens a sentence. -/
  | opening (kind : Kind)
  | joint (word : Joint)
  | name (slot : Nat)
  | numeral (digits : List Char)
  /-- The digits of a line number. -/
  | lineNumber (digits : List Char)
  /-- Quoted text, without its quotes. -/
  | text (content : List Char)
  | operator (op : Operator)
  | relation (relation : Relation)
  /-- The equals sign of an assignment. -/
  | becomes
  | openBracket
  | closeBracket
  | comma
  deriving Repr, DecidableEq

/-- What the place in a sentence has tokens looked for. -/
inductive Expecting where
  | keyword (kind : Kind)
  /-- A name, a numeral, quoted text, a sign or an opening bracket. -/
  | operand
  /-- An operator, a relation, a bracket, a comma or a word inside the sentence. -/
  | operator
  /-- What follows the name on the left of an assignment: an equals sign or an opening bracket. -/
  | binding
  | lineNumber
  deriving Repr, DecidableEq

/-- Whether a character may be skipped between tokens. -/
def isGap (c : Char) : Bool :=
  c == ' ' || c == '\t'

namespace Token

/-- Quoted text: from the opening quote to the next one, or to the end of the text. -/
def scanText (mark : Char) (rest : List Char) : Token × Nat :=
  let content := rest.takeWhile (· != mark)
  let closing := if content.length < rest.length then 1 else 0
  (.text content, 1 + content.length + closing)

/-- A numeral, when there is one. -/
def scanNumeral? (s : List Char) : Option (Token × Nat) :=
  let n := Number.numeralLength s
  if n = 0 then none else some (.numeral (s.take n), n)

def scanOperand? (s : List Char) : Option (Token × Nat) :=
  match s with
  | '"' :: rest => some (scanText '"' rest)
  | '\'' :: rest => some (scanText '\'' rest)
  | '(' :: _ => some (.openBracket, 1)
  | '+' :: _ => some (.operator .add, 1)
  | '-' :: _ => some (.operator .sub, 1)
  | _ =>
    match Name.scan? s with
    | some (slot, size) => some (.name slot, size)
    | none => scanNumeral? s

def scanJoint? (s : List Char) : Option (Token × Nat) :=
  [Joint.to, .step, .then].findSome? fun j =>
    (afterWord? j.word s).map fun _ => (.joint j, j.word.length)

def scanOperator? (s : List Char) : Option (Token × Nat) :=
  match s with
  | '<' :: '=' :: _ => some (.relation .le, 2)
  | '>' :: '=' :: _ => some (.relation .ge, 2)
  | '<' :: '>' :: _ => some (.relation .ne, 2)
  | '=' :: '=' :: _ => some (.relation .eqEq, 2)
  | '<' :: _ => some (.relation .lt, 1)
  | '>' :: _ => some (.relation .gt, 1)
  | '=' :: _ => some (.relation .eq, 1)
  | '+' :: _ => some (.operator .add, 1)
  | '-' :: _ => some (.operator .sub, 1)
  | '*' :: _ => some (.operator .mul, 1)
  | '/' :: _ => some (.operator .div, 1)
  | '(' :: _ => some (.openBracket, 1)
  | ')' :: _ => some (.closeBracket, 1)
  | ',' :: _ => some (.comma, 1)
  | _ => scanJoint? s

def scanBinding? : List Char → Option (Token × Nat)
  | '=' :: _ => some (.becomes, 1)
  | '(' :: _ => some (.openBracket, 1)
  | _ => none

def scanLineNumber? (s : List Char) : Option (Token × Nat) :=
  let digits := s.takeWhile Text.isDecimal
  if digits.isEmpty then none else some (.lineNumber digits, digits.length)

/-- The token at the start of a text, and how many characters it has. -/
def scan? (expecting : Expecting) (s : List Char) : Option (Token × Nat) :=
  match expecting with
  | .keyword kind => (afterWord? kind.keyword s).map fun _ => (.opening kind, kind.keyword.length)
  | .operand => scanOperand? s
  | .operator => scanOperator? s
  | .binding => scanBinding? s
  | .lineNumber => scanLineNumber? s

end Token

end LineBasic
