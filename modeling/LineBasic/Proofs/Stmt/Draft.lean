/-
  LineBasic.Proofs.Stmt.Draft

  Statements to be written down. A draft is a statement together with what the statement leaves open
  about its text: the numeral of each number, the mark around a quoted text, and the brackets that
  stand around operands without need.

  `StmtDraft.stmt` is the statement and `StmtDraft.text` its text. The text has the keyword in
  capitals, a space behind it when something follows, the same gap between any two other parts, and
  brackets where the draft has them and where the ranks of the operators ask for them.
-/
import LineBasic.Proofs.Grammar.Derivation
import LineBasic.Stmt.Basic

namespace LineBasic

open Grammar

/-! ## Ranks -/

def Operator.rank : Operator → Rank
  | .add | .sub => .sum
  | .mul | .div => .product

/-- The rank that the right operand of an operator must have, one of its own rank being too low. -/
def Operator.rightRank : Operator → Rank
  | .add | .sub => .product
  | .mul | .div => .factor

/-- Whether an operand of one rank needs brackets in a place for another: a sum as an operand of a
    product, any operation under a sign, an operation to the right of one of its rank. -/
def Grammar.Rank.needsBrackets : (place operand : Rank) → Bool
  | .product, .sum => true
  | .factor, .sum => true
  | .factor, .product => true
  | _, _ => false

/-! ## Expressions -/

/-- An expression to be written. -/
inductive ExprDraft where
  | numeral (digits : List Char)
  | name (slot : Nat)
  | element (letter : Nat) (index : ExprDraft)
  | signed (sign : Sign) (operand : ExprDraft)
  | binary (op : Operator) (left right : ExprDraft)
  /-- The operand in brackets that it need not have. -/
  | bracketed (operand : ExprDraft)
  deriving Repr, DecidableEq

/-- The text in brackets. -/
def inBrackets (gap text : List Char) : List Char :=
  gap.intercalate ["(".toList, text, ")".toList]

/-- A letter with a text in brackets: an array element, or an item of `DIM`. -/
def subscripted (gap : List Char) (letter : Nat) (text : List Char) : List Char :=
  gap.intercalate [(Name.ofSlot letter).toList, inBrackets gap text]

/-- The text of an operand in its place, in brackets if it needs them. -/
def inPlace (gap : List Char) (place operand : Rank) (text : List Char) : List Char :=
  if place.needsBrackets operand then inBrackets gap text else text

namespace ExprDraft

/-- The expression that is drafted. -/
def expr : ExprDraft → Expr
  | .numeral digits => .num (Number.numeralValue digits)
  | .name slot => .var slot
  | .element letter index => .element letter index.expr
  | .signed sign operand => .signed sign operand.expr
  | .binary op left right => .binary op left.expr right.expr
  | .bracketed operand => operand.expr

def rank : ExprDraft → Rank
  | .binary op _ _ => op.rank
  | _ => .factor

/-- The text of the expression. -/
def text (gap : List Char) : ExprDraft → List Char
  | .numeral digits => digits
  | .name slot => (Name.ofSlot slot).toList
  | .element letter index => subscripted gap letter (index.text gap)
  | .signed sign operand =>
    gap.intercalate
      [sign.symbol.toList, inPlace gap .factor operand.rank (operand.text gap)]
  | .binary op left right =>
    gap.intercalate
      [inPlace gap op.rank left.rank (left.text gap), op.symbol.toList,
        inPlace gap op.rightRank right.rank (right.text gap)]
  | .bracketed operand => inBrackets gap (operand.text gap)

/-- The numerals are numerals. -/
def Proper : ExprDraft → Prop
  | .numeral digits => digits ∈ numberPattern
  | .name _ => True
  | .element _ index => index.Proper
  | .signed _ operand => operand.Proper
  | .binary _ left right => left.Proper ∧ right.Proper
  | .bracketed operand => operand.Proper

end ExprDraft

/-! ## Parts of statements -/

/-- A condition to be written. -/
inductive CondDraft where
  | nonzero (operand : ExprDraft)
  | compare (relation : Relation) (left right : ExprDraft)
  deriving Repr, DecidableEq

namespace CondDraft

def cond : CondDraft → Cond
  | .nonzero operand => .nonzero operand.expr
  | .compare relation left right => .compare relation left.expr right.expr

def text (gap : List Char) : CondDraft → List Char
  | .nonzero operand => operand.text gap
  | .compare relation left right =>
    gap.intercalate [left.text gap, relation.symbol.toList, right.text gap]

def Proper : CondDraft → Prop
  | .nonzero operand => operand.Proper
  | .compare _ left right => left.Proper ∧ right.Proper

end CondDraft

/-- The left side of an assignment to be written. -/
inductive TargetDraft where
  | scalar (slot : Nat)
  | element (letter : Nat) (index : ExprDraft)
  deriving Repr, DecidableEq

namespace TargetDraft

def target : TargetDraft → Target
  | .scalar slot => .scalar slot
  | .element letter index => .element letter index.expr

def text (gap : List Char) : TargetDraft → List Char
  | .scalar slot => (Name.ofSlot slot).toList
  | .element letter index => subscripted gap letter (index.text gap)

def Proper : TargetDraft → Prop
  | .scalar _ => True
  | .element _ index => index.Proper

end TargetDraft

/-- The text of the items of a `DIM` statement, with commas between them. -/
def itemsText (gap : List Char) (items : List (Nat × ExprDraft)) : List Char :=
  gap.intercalate
    ((items.map fun item => subscripted gap item.1 (item.2.text gap)).intersperse ",".toList)

/-! ## Statements -/

/-- A statement to be written. -/
inductive StmtDraft where
  | assign (target : TargetDraft) (value : ExprDraft)
  | dim (items : List (Nat × ExprDraft))
  | forTo (slot : Nat) (start limit : ExprDraft) (step : Option ExprDraft)
  | next (slot : Option Nat)
  | printText (mark : Char) (content : List Char)
  | print (value : Option ExprDraft)
  | goto (line : Int)
  | ifThen (cond : CondDraft) (line : Option Int)
  | stop
  deriving Repr, DecidableEq

namespace StmtDraft

/-- The statement that is drafted. -/
def stmt : StmtDraft → Stmt
  | .assign target value => .assign target.target value.expr
  | .dim items => .dim (items.map fun item => (item.1, item.2.expr))
  | .forTo slot start limit step => .forTo slot start.expr limit.expr (step.map ExprDraft.expr)
  | .next slot => .next slot
  | .printText _ content => .printText (String.ofList content)
  | .print value => .print (value.map ExprDraft.expr)
  | .goto line => .goto line
  | .ifThen cond line => .ifThen cond.cond line
  | .stop => .stop

def kind : StmtDraft → Kind
  | .assign .. => .LET
  | .dim _ => .DIM
  | .forTo .. => .FOR
  | .next _ => .NEXT
  | .printText .. => .PRINT
  | .print _ => .PRINT
  | .goto _ => .GOTO
  | .ifThen .. => .IF
  | .stop => .END

/-- What follows the keyword and the space behind it; nothing when the keyword stands alone. -/
def operands? (gap : List Char) : StmtDraft → Option (List Char)
  | .assign target value => some (gap.intercalate [target.text gap, "=".toList, value.text gap])
  | .dim items => some (itemsText gap items)
  | .forTo slot start limit none =>
    some (gap.intercalate
      [(Name.ofSlot slot).toList, "=".toList, start.text gap, "TO".toList, limit.text gap])
  | .forTo slot start limit (some step) =>
    some (gap.intercalate
      [(Name.ofSlot slot).toList, "=".toList, start.text gap, "TO".toList, limit.text gap,
        "STEP".toList, step.text gap])
  | .next slot => slot.map fun slot => (Name.ofSlot slot).toList
  | .printText mark content => some (mark :: (content ++ [mark]))
  | .print value => value.map (·.text gap)
  | .goto line => some (toString line).toList
  | .ifThen cond none => some (cond.text gap)
  | .ifThen cond (some line) =>
    some (gap.intercalate [cond.text gap, "THEN".toList, (toString line).toList])
  | .stop => none

/-- The text of the statement. -/
def text (gap : List Char) (d : StmtDraft) : List Char :=
  match d.operands? gap with
  | none => d.kind.keyword
  | some rest => d.kind.keyword ++ ' ' :: (gap ++ rest)

/-- The numerals are numerals, and a quoted text stands in quotation marks that it does not hold. -/
def Proper : StmtDraft → Prop
  | .assign target value => target.Proper ∧ value.Proper
  | .dim items => ∀ item ∈ items, item.2.Proper
  | .forTo _ start limit step => start.Proper ∧ limit.Proper ∧ ∀ e ∈ step, e.Proper
  | .next _ => True
  | .printText mark content => (mark = '"' ∨ mark = '\'') ∧ mark ∉ content
  | .print value => ∀ e ∈ value, e.Proper
  | .goto _ => True
  | .ifThen cond _ => cond.Proper
  | .stop => True

example :
    text [] (.ifThen (.compare .le
      (.binary .mul (.bracketed (.name 0)) (.binary .sub (.numeral ['2']) (.element 1 (.name 37))))
      (.signed .minus (.binary .add (.name 0) (.name 1)))) (some 70)) =
        "IF (A)*(2-B(B1))<=-(A+B)THEN70".toList := by
  rfl

end StmtDraft

end LineBasic
