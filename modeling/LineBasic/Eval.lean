/-
  LineBasic.Eval

  The value of an expression and the truth of a condition.

  Array reads are soft: a read outside the array, or of an undeclared array, yields zero and is
  reported. `Reading` is a value together with the reports of the reads behind it, in the order in
  which they failed.
-/
import LineBasic.Memory
import LineBasic.Stmt.Basic

namespace LineBasic

/-! ## Readings -/

structure Reading (α : Type) where
  reports : List Complaint
  outcome : Except Fault α

namespace Reading

def pure {α : Type} (a : α) : Reading α := ⟨[], .ok a⟩

def bind {α β : Type} (x : Reading α) (f : α → Reading β) : Reading β :=
  match x.outcome with
  | .error fault => ⟨x.reports, .error fault⟩
  | .ok a => ⟨x.reports ++ (f a).reports, (f a).outcome⟩

instance : Monad Reading where
  pure := pure
  bind := bind

@[simp]
theorem pure_eq {α : Type} (a : α) : (Pure.pure a : Reading α) = ⟨[], .ok a⟩ := rfl

theorem bind_eq {α β : Type} (x : Reading α) (f : α → Reading β) : x >>= f = x.bind f := rfl

instance : LawfulMonad Reading := LawfulMonad.mk' Reading
  (by
    intro α x
    rcases x with ⟨reports, fault | a⟩ <;> simp [Functor.map, bind, pure])
  (by
    intro α β a f
    simp [Bind.bind, Pure.pure, bind, pure])
  (by
    intro α β γ x f g
    rcases x with ⟨reports, fault | a⟩
    · rfl
    · simp only [Bind.bind, bind]
      cases (f a).outcome <;> simp)

/-- After a value, the reports of the two parts follow each other. -/
theorem bind_of_ok {α β : Type} {x : Reading α} {f : α → Reading β} {a : α}
    (h : x.outcome = .ok a) : x >>= f = ⟨x.reports ++ (f a).reports, (f a).outcome⟩ := by
  simp only [bind_eq, bind, h]

/-- After a fault, nothing follows. -/
theorem bind_of_error {α β : Type} {x : Reading α} {f : α → Reading β} {fault : Fault}
    (h : x.outcome = .error fault) : x >>= f = ⟨x.reports, .error fault⟩ := by
  simp only [bind_eq, bind, h]

/-- A reading that fails without a report. -/
def fail {α : Type} (fault : Fault) : Reading α := ⟨[], .error fault⟩

def ofExcept {α : Type} (outcome : Except Fault α) : Reading α := ⟨[], outcome⟩

end Reading

/-! ## Values -/

/-- Reads an array element; a complaint becomes a report and the value zero. -/
def Memory.readSoft (m : Memory) (letter : Nat) (subscript : Float) : Reading Float :=
  match m.readElement letter subscript with
  | .ok value => .pure value
  | .error (.complaint c) => ⟨[c], .ok 0.0⟩
  | .error (.fault fault) => .fail fault

def Sign.apply : Sign → Float → Float
  | .plus, x => x
  | .minus, x => -x

/-- The operation of an operator. Division by zero leaves the dividend. -/
def Operator.apply : Operator → Float → Float → Float
  | .add, x, y => x + y
  | .sub, x, y => x - y
  | .mul, x, y => x * y
  | .div, x, y => x / (if y == 0.0 then 1.0 else y)

def Relation.holds : Relation → Float → Float → Bool
  | .le, x, y => decide (x ≤ y)
  | .ge, x, y => decide (x ≥ y)
  | .ne, x, y => !(x == y)
  | .lt, x, y => decide (x < y)
  | .gt, x, y => decide (x > y)
  | .eq, x, y => x == y
  | .eqEq, x, y => x == y

/-- The value of an expression. Subscripts are evaluated before the read they belong to, and left
    operands before right ones. -/
def Expr.eval (m : Memory) : Expr → Reading Float
  | .num value => .pure value
  | .var slot => .ofExcept (m.read slot)
  | .element letter index => do
    let subscript ← index.eval m
    m.readSoft letter subscript
  | .signed sign operand => do
    let x ← operand.eval m
    return sign.apply x
  | .binary op left right => do
    let x ← left.eval m
    let y ← right.eval m
    return op.apply x y
  | .unknownBinary left right => do
    let _ ← left.eval m
    let _ ← right.eval m
    .fail .unknownExpression
  | .unknown => .fail .unknownExpression

/-- Whether a condition holds. -/
def Cond.eval (m : Memory) : Cond → Reading Bool
  | .nonzero operand => do
    let x ← operand.eval m
    return !(x == 0.0)
  | .compare relation left right => do
    let x ← left.eval m
    let y ← right.eval m
    return relation.holds x y
  | .unknown symbol left right => do
    let _ ← left.eval m
    let _ ← right.eval m
    .fail (.unknownRelation symbol)

end LineBasic
