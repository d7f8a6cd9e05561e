/-
  LineBasic.Stmt.Basic

  Expressions, conditions and statements as the machine executes them: variables are slots, arrays
  are letters, numerals are numbers.

  Trees may also be handed to the machine directly, so slots and letters are not bounded here and
  each sort of tree has a place for what the machine does not know. `WellFormed` is what reading a
  statement guarantees.
-/
import LineBasic.Name

namespace LineBasic

/-! ## Expressions -/

inductive Sign where
  | plus
  | minus
  deriving Repr, DecidableEq

/-- Only the minus sign changes its operand. -/
def Sign.ofSymbol (symbol : String) : Sign :=
  if symbol = "-" then .minus else .plus

def Sign.symbol : Sign → String
  | .plus => "+"
  | .minus => "-"

inductive Operator where
  | add
  | sub
  | mul
  | div
  deriving Repr, DecidableEq

def Operator.symbol : Operator → String
  | .add => "+"
  | .sub => "-"
  | .mul => "*"
  | .div => "/"

def Operator.ofSymbol? : String → Option Operator
  | "+" => some .add
  | "-" => some .sub
  | "*" => some .mul
  | "/" => some .div
  | _ => none

theorem Operator.ofSymbol?_symbol (op : Operator) : ofSymbol? op.symbol = some op := by
  cases op <;> rfl

inductive Expr where
  | num (value : Float)
  | var (slot : Nat)
  | element (letter : Nat) (index : Expr)
  | signed (sign : Sign) (operand : Expr)
  | binary (op : Operator) (left right : Expr)
  /-- Two operands joined by an operator the machine does not know. -/
  | unknownBinary (left right : Expr)
  /-- A tree the machine does not know. -/
  | unknown

/-! ## Conditions -/

/-- The relations; equality has two spellings. -/
inductive Relation where
  | le
  | ge
  | ne
  | lt
  | gt
  | eq
  | eqEq
  deriving Repr, DecidableEq

def Relation.symbol : Relation → String
  | .le => "<="
  | .ge => ">="
  | .ne => "<>"
  | .lt => "<"
  | .gt => ">"
  | .eq => "="
  | .eqEq => "=="

def Relation.ofSymbol? : String → Option Relation
  | "<=" => some .le
  | ">=" => some .ge
  | "<>" => some .ne
  | "<" => some .lt
  | ">" => some .gt
  | "=" => some .eq
  | "==" => some .eqEq
  | _ => none

theorem Relation.ofSymbol?_symbol (r : Relation) : ofSymbol? r.symbol = some r := by
  cases r <;> rfl

inductive Cond where
  /-- A bare expression, true when it is not zero. -/
  | nonzero (operand : Expr)
  | compare (relation : Relation) (left right : Expr)
  /-- Two operands compared by a relation the machine does not know. -/
  | unknown (symbol : String) (left right : Expr)

/-! ## Statements -/

/-- What an assignment writes. -/
inductive Target where
  | scalar (slot : Nat)
  | element (letter : Nat) (index : Expr)

inductive Stmt where
  | assign (target : Target) (value : Expr)
  | dim (items : List (Nat × Expr))
  | forTo (slot : Nat) (start limit : Expr) (step : Option Expr)
  | next (slot : Option Nat)
  | printText (text : String)
  | print (value : Option Expr)
  | goto (line : Int)
  | ifThen (cond : Cond) (line : Option Int)
  | stop
  /-- A tree the machine does not know. -/
  | unknown

/-! ## Trees that reading produces -/

/-- Slots and letters name variables, and every operator is known. -/
def Expr.WellFormed : Expr → Prop
  | .num _ => True
  | .var slot => slot < slotCount
  | .element letter index => letter < letterCount ∧ index.WellFormed
  | .signed _ operand => operand.WellFormed
  | .binary _ left right => left.WellFormed ∧ right.WellFormed
  | .unknownBinary _ _ => False
  | .unknown => False

def Cond.WellFormed : Cond → Prop
  | .nonzero operand => operand.WellFormed
  | .compare _ left right => left.WellFormed ∧ right.WellFormed
  | .unknown _ _ _ => False

def Target.WellFormed : Target → Prop
  | .scalar slot => slot < slotCount
  | .element letter index => letter < letterCount ∧ index.WellFormed

instance Expr.decidableWellFormed : (e : Expr) → Decidable e.WellFormed
  | .num _ => isTrue trivial
  | .var slot => inferInstanceAs (Decidable (slot < slotCount))
  | .element letter index =>
    have := index.decidableWellFormed
    inferInstanceAs (Decidable (letter < letterCount ∧ index.WellFormed))
  | .signed _ operand => operand.decidableWellFormed
  | .binary _ left right =>
    have := left.decidableWellFormed
    have := right.decidableWellFormed
    inferInstanceAs (Decidable (left.WellFormed ∧ right.WellFormed))
  | .unknownBinary _ _ => isFalse id
  | .unknown => isFalse id

instance Cond.decidableWellFormed : (c : Cond) → Decidable c.WellFormed
  | .nonzero operand => inferInstanceAs (Decidable operand.WellFormed)
  | .compare _ left right => inferInstanceAs (Decidable (left.WellFormed ∧ right.WellFormed))
  | .unknown _ _ _ => isFalse id

instance Target.decidableWellFormed : (t : Target) → Decidable t.WellFormed
  | .scalar slot => inferInstanceAs (Decidable (slot < slotCount))
  | .element letter index =>
    inferInstanceAs (Decidable (letter < letterCount ∧ index.WellFormed))

def Stmt.WellFormed : Stmt → Prop
  | .assign target value => target.WellFormed ∧ value.WellFormed
  | .dim items => items ≠ [] ∧ ∀ item ∈ items, item.1 < letterCount ∧ item.2.WellFormed
  | .forTo slot start limit step =>
    slot < slotCount ∧ start.WellFormed ∧ limit.WellFormed ∧ ∀ s ∈ step, s.WellFormed
  | .next slot => ∀ s ∈ slot, s < slotCount
  | .printText _ => True
  | .print value => ∀ v ∈ value, v.WellFormed
  | .goto line => 0 ≤ line
  | .ifThen cond line => cond.WellFormed ∧ ∀ n ∈ line, 0 ≤ n
  | .stop => True
  | .unknown => False

instance Stmt.decidableWellFormed : (s : Stmt) → Decidable s.WellFormed
  | .assign target value => inferInstanceAs (Decidable (target.WellFormed ∧ value.WellFormed))
  | .dim items =>
    inferInstanceAs (Decidable
      (items ≠ [] ∧ ∀ item ∈ items, item.1 < letterCount ∧ item.2.WellFormed))
  | .forTo slot start limit step =>
    inferInstanceAs (Decidable
      (slot < slotCount ∧ start.WellFormed ∧ limit.WellFormed ∧ ∀ s ∈ step, s.WellFormed))
  | .next slot => inferInstanceAs (Decidable (∀ s ∈ slot, s < slotCount))
  | .printText _ => isTrue trivial
  | .print value => inferInstanceAs (Decidable (∀ v ∈ value, v.WellFormed))
  | .goto line => inferInstanceAs (Decidable (0 ≤ line))
  | .ifThen cond line => inferInstanceAs (Decidable (cond.WellFormed ∧ ∀ n ∈ line, 0 ≤ n))
  | .stop => isTrue trivial
  | .unknown => isFalse id

end LineBasic
