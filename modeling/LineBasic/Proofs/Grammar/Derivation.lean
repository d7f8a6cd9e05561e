/-
  LineBasic.Proofs.Grammar.Derivation

  The grammar of sentences: which sequences of lexemes are an expression, a condition, a statement,
  and what is built from them. One constructor stands for one alternative of a rule; expressions
  have three ranks, each with the operators that bind as it says, and operators of one rank group to
  the left.

  The derivations mention terminals only. Nothing here looks ahead, prefers a longer lexeme, or
  knows what the reader expects at a place.
-/
import LineBasic.Proofs.Grammar.Terminal

namespace LineBasic.Grammar

/-! ## Expressions -/

inductive Rank where
  | sum
  | product
  | factor
  deriving Repr, DecidableEq

/-- The lexemes are an expression of the rank, built up to the phrase. -/
inductive DerivesPhrase : Rank → List Lexeme → Phrase → Prop
  | ofProduct {xs : List Lexeme} {e : Phrase} (he : DerivesPhrase .product xs e) :
      DerivesPhrase .sum xs e
  | sum {xs ys : List Lexeme} {x : Lexeme} {a b : Phrase} {op : Operator}
      (hop : op = .add ∨ op = .sub) (ha : DerivesPhrase .sum xs a)
      (hx : x.terminal = .symbol op.symbol) (hb : DerivesPhrase .product ys b) :
      DerivesPhrase .sum (xs ++ x :: ys) (.binary op a b)
  | ofFactor {xs : List Lexeme} {e : Phrase} (he : DerivesPhrase .factor xs e) :
      DerivesPhrase .product xs e
  | product {xs ys : List Lexeme} {x : Lexeme} {a b : Phrase} {op : Operator}
      (hop : op = .mul ∨ op = .div) (ha : DerivesPhrase .product xs a)
      (hx : x.terminal = .symbol op.symbol) (hb : DerivesPhrase .factor ys b) :
      DerivesPhrase .product (xs ++ x :: ys) (.binary op a b)
  | signed {xs : List Lexeme} {x : Lexeme} {e : Phrase} {sign : Sign}
      (hx : x.terminal = .symbol sign.symbol) (he : DerivesPhrase .factor xs e) :
      DerivesPhrase .factor (x :: xs) (.signed sign e)
  | group {xs : List Lexeme} {x y : Lexeme} {e : Phrase}
      (hx : x.terminal = .symbol "(") (he : DerivesPhrase .sum xs e)
      (hy : y.terminal = .symbol ")") :
      DerivesPhrase .factor (x :: (xs ++ [y])) e
  | element {xs : List Lexeme} {name x y : Lexeme} {e : Phrase}
      (hname : name.terminal = .NAME) (hx : x.terminal = .symbol "(")
      (he : DerivesPhrase .sum xs e) (hy : y.terminal = .symbol ")") :
      DerivesPhrase .factor (name :: x :: (xs ++ [y])) (.element name.mention e)
  | name {name : Lexeme} (hname : name.terminal = .NAME) :
      DerivesPhrase .factor [name] (.name name.mention)
  | numeral {x : Lexeme} (hx : x.terminal = .NUMBER) :
      DerivesPhrase .factor [x] (.numeral x.chars)

/-- The lexemes are a condition. -/
inductive DerivesClause : List Lexeme → Clause → Prop
  | nonzero {xs : List Lexeme} {e : Phrase} (he : DerivesPhrase .sum xs e) :
      DerivesClause xs (.nonzero e)
  | compare {xs ys : List Lexeme} {x : Lexeme} {a b : Phrase} {relation : Relation}
      (ha : DerivesPhrase .sum xs a) (hx : x.terminal = .symbol relation.symbol)
      (hb : DerivesPhrase .sum ys b) :
      DerivesClause (xs ++ x :: ys) (.compare relation a b)

/-! ## Statements -/

/-- The lexemes are the left side of an assignment. -/
inductive DerivesRecipient : List Lexeme → Recipient → Prop
  | scalar {name : Lexeme} (hname : name.terminal = .NAME) :
      DerivesRecipient [name] (.scalar name.mention)
  | element {xs : List Lexeme} {name x y : Lexeme} {e : Phrase}
      (hname : name.terminal = .NAME) (hx : x.terminal = .symbol "(")
      (he : DerivesPhrase .sum xs e) (hy : y.terminal = .symbol ")") :
      DerivesRecipient (name :: x :: (xs ++ [y])) (.element name.mention e)

/-- The lexemes are one item of a `DIM` statement. -/
inductive DerivesItem : List Lexeme → Mention × Phrase → Prop
  | item {xs : List Lexeme} {name x y : Lexeme} {e : Phrase}
      (hname : name.terminal = .NAME) (hx : x.terminal = .symbol "(")
      (he : DerivesPhrase .sum xs e) (hy : y.terminal = .symbol ")") :
      DerivesItem (name :: x :: (xs ++ [y])) (name.mention, e)

/-- The lexemes are the items of a `DIM` statement. -/
inductive DerivesItems : List Lexeme → List (Mention × Phrase) → Prop
  | one {xs : List Lexeme} {item : Mention × Phrase} (hitem : DerivesItem xs item) :
      DerivesItems xs [item]
  | more {xs ys : List Lexeme} {x : Lexeme} {items : List (Mention × Phrase)}
      {item : Mention × Phrase} (hitems : DerivesItems xs items)
      (hx : x.terminal = .symbol ",") (hitem : DerivesItem ys item) :
      DerivesItems (xs ++ x :: ys) (items ++ [item])

/-- The lexemes are a statement of the kind. No rule belongs to `END`. -/
inductive Derives : Kind → List Lexeme → Sentence → Prop
  | letAssign {w x : Lexeme} {xs ys : List Lexeme} {r : Recipient} {e : Phrase}
      (hw : w.terminal = .word "LET") (hr : DerivesRecipient xs r)
      (hx : x.terminal = .symbol "=") (he : DerivesPhrase .sum ys e) :
      Derives .LET (w :: (xs ++ x :: ys)) (.assign r e)
  | assign {x : Lexeme} {xs ys : List Lexeme} {r : Recipient} {e : Phrase}
      (hr : DerivesRecipient xs r) (hx : x.terminal = .symbol "=")
      (he : DerivesPhrase .sum ys e) :
      Derives .ASSIGN (xs ++ x :: ys) (.assign r e)
  | dim {w : Lexeme} {xs : List Lexeme} {items : List (Mention × Phrase)}
      (hw : w.terminal = .word "DIM") (hitems : DerivesItems xs items) :
      Derives .DIM (w :: xs) (.dim items)
  | forTo {w name x y : Lexeme} {xs ys : List Lexeme} {a b : Phrase}
      (hw : w.terminal = .word "FOR") (hname : name.terminal = .NAME)
      (hx : x.terminal = .symbol "=") (ha : DerivesPhrase .sum xs a)
      (hy : y.terminal = .word "TO") (hb : DerivesPhrase .sum ys b) :
      Derives .FOR (w :: name :: x :: (xs ++ y :: ys)) (.forTo name.mention a b none)
  | forStep {w name x y z : Lexeme} {xs ys zs : List Lexeme} {a b c : Phrase}
      (hw : w.terminal = .word "FOR") (hname : name.terminal = .NAME)
      (hx : x.terminal = .symbol "=") (ha : DerivesPhrase .sum xs a)
      (hy : y.terminal = .word "TO") (hb : DerivesPhrase .sum ys b)
      (hz : z.terminal = .word "STEP") (hc : DerivesPhrase .sum zs c) :
      Derives .FOR (w :: name :: x :: (xs ++ y :: (ys ++ z :: zs)))
        (.forTo name.mention a b (some c))
  | next {w : Lexeme} (hw : w.terminal = .word "NEXT") :
      Derives .NEXT [w] (.next none)
  | nextName {w name : Lexeme} (hw : w.terminal = .word "NEXT") (hname : name.terminal = .NAME) :
      Derives .NEXT [w, name] (.next (some name.mention))
  | printText {w x : Lexeme} (hw : w.terminal = .word "PRINT") (hx : x.terminal = .STRING) :
      Derives .PRINT [w, x] (.printText x.content)
  | printNothing {w : Lexeme} (hw : w.terminal = .word "PRINT") :
      Derives .PRINT [w] (.print none)
  | print {w : Lexeme} {xs : List Lexeme} {e : Phrase} (hw : w.terminal = .word "PRINT")
      (he : DerivesPhrase .sum xs e) :
      Derives .PRINT (w :: xs) (.print (some e))
  | goto {w x : Lexeme} (hw : w.terminal = .word "GOTO") (hx : x.terminal = .INT) :
      Derives .GOTO [w, x] (.goto x.chars)
  | ifTest {w : Lexeme} {xs : List Lexeme} {c : Clause} (hw : w.terminal = .word "IF")
      (hc : DerivesClause xs c) :
      Derives .IF (w :: xs) (.ifThen c none)
  | ifThen {w x y : Lexeme} {xs : List Lexeme} {c : Clause} (hw : w.terminal = .word "IF")
      (hc : DerivesClause xs c) (hx : x.terminal = .word "THEN") (hy : y.terminal = .INT) :
      Derives .IF (w :: (xs ++ [x, y])) (.ifThen c (some y.chars))

/-! ## Texts -/

/-- The text can be cut into lexemes that are the sentence. -/
def DerivedAs (kind : Kind) (text : List Char) (s : Sentence) : Prop :=
  ∃ xs, Spells 0 text xs ∧ Derives kind xs s

/-- The text can be cut into the lexemes of a sentence. -/
def Derivable (kind : Kind) (text : List Char) : Prop :=
  ∃ s, DerivedAs kind text s

end LineBasic.Grammar
