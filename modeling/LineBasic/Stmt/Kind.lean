/-
  LineBasic.Stmt.Kind

  The kind of a statement, by the keyword that it starts with.

  Keywords are compared letter by letter, case ignored; the dotted capital and the dotless small I
  count as `I`, and the long S as `S`. Which characters must follow the keyword differs: `LET`,
  `DIM`, `FOR`, `GOTO` and `IF` want a blank, `PRINT` and `NEXT` a space or the end of the line, and
  `END` wants nothing. A statement with none of them is an assignment.
-/
import LineBasic.Text.Blank

namespace LineBasic

/-- Whether `c` is the letter `letter` (a capital of the alphabet) of a keyword. -/
def isKeywordLetter (letter c : Char) : Bool :=
  c == letter || c == letter.toLower ||
    (letter == 'I' && (c.toNat == 0x130 || c.toNat == 0x131)) ||
    (letter == 'S' && c.toNat == 0x17F)

/-- What follows the word (given in capitals) that the text starts with. -/
def afterWord? : List Char → List Char → Option (List Char)
  | [], rest => some rest
  | _ :: _, [] => none
  | letter :: word, c :: rest => if isKeywordLetter letter c then afterWord? word rest else none

inductive Kind where
  | LET
  | DIM
  | FOR
  | PRINT
  | GOTO
  | IF
  | END
  | NEXT
  | ASSIGN
  deriving Repr, DecidableEq

namespace Kind

/-- The kinds that a keyword opens, in the order in which the keywords are tried. -/
def opened : List Kind := [LET, DIM, FOR, PRINT, GOTO, IF, END, NEXT]

def name : Kind → String
  | LET => "LET"
  | DIM => "DIM"
  | FOR => "FOR"
  | PRINT => "PRINT"
  | GOTO => "GOTO"
  | IF => "IF"
  | END => "END"
  | NEXT => "NEXT"
  | ASSIGN => "ASSIGN"

def ofName? (name : String) : Option Kind :=
  (opened ++ [ASSIGN]).find? (·.name = name)

theorem ofName?_name (k : Kind) : ofName? k.name = some k := by
  cases k <;> rfl

/-- The keyword that opens the kind; an assignment has none. -/
def keyword (k : Kind) : List Char :=
  if k = ASSIGN then [] else k.name.toList

/-- Whether the text after the keyword lets the keyword stand. -/
def mayFollow (k : Kind) (rest : List Char) : Bool :=
  match k with
  | END | ASSIGN => true
  | PRINT | NEXT => rest.isEmpty || rest == ['\n'] || rest.head? == some ' '
  | _ => rest.head?.any Text.isBlank

/-- Whether the text opens with the keyword of the kind. -/
def opens (k : Kind) (text : List Char) : Bool :=
  (afterWord? k.keyword text).any k.mayFollow

/-- The kind of a statement. -/
def ofText (text : List Char) : Kind :=
  (opened.find? (·.opens text)).getD ASSIGN

end Kind

end LineBasic
