/-
  LineBasic.Sentence.Basic

  Statements as they are written: names with their place in the text, numerals and line numbers as
  runs of characters, quoted text without its quotes. Brackets leave no trace but the shape of the
  tree. `Sentence.resolve` turns a sentence into the statement it stands for.
-/
import LineBasic.Stmt.Basic

namespace LineBasic

/-- A name in a text: its slot, and the offset at which it stands. -/
structure Mention where
  slot : Nat
  place : Nat
  deriving Repr, DecidableEq

/-- An expression as written. -/
inductive Phrase where
  | numeral (digits : List Char)
  | name (mention : Mention)
  | element (mention : Mention) (index : Phrase)
  | signed (sign : Sign) (operand : Phrase)
  | binary (op : Operator) (left right : Phrase)
  deriving Repr, DecidableEq

/-- A condition as written. -/
inductive Clause where
  | nonzero (operand : Phrase)
  | compare (relation : Relation) (left right : Phrase)
  deriving Repr, DecidableEq

/-- The left side of an assignment as written. -/
inductive Recipient where
  | scalar (mention : Mention)
  | element (mention : Mention) (index : Phrase)
  deriving Repr, DecidableEq

/-- A statement as written. -/
inductive Sentence where
  | assign (recipient : Recipient) (value : Phrase)
  | dim (items : List (Mention × Phrase))
  | forTo (mention : Mention) (start limit : Phrase) (step : Option Phrase)
  | next (mention : Option Mention)
  | printText (text : List Char)
  | print (value : Option Phrase)
  | goto (digits : List Char)
  | ifThen (clause : Clause) (digits : Option (List Char))
  deriving Repr, DecidableEq

end LineBasic
