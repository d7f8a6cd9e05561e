/-
  LineBasic.Machine.Exec

  The execution of one statement.

  `FOR` evaluates its start, limit and step once. A loop that would not run at all is skipped to the
  line after its `NEXT`, which is found by counting the `FOR` and `NEXT` lines behind it, whether
  they parse or not. `NEXT` adds the step and goes back to the line after `FOR` while the limit is
  not passed.
-/
import LineBasic.Machine.Basic
import LineBasic.Number.Decimal

namespace LineBasic

/-- Where execution goes on after a statement. -/
inductive Flow where
  | next
  /-- At the line that the statement chose. -/
  | jump
  | halt
  deriving Repr, DecidableEq

/-! ## Loops -/

/-- The index of the `NEXT` line that closes `depth` loops, counted from the index of the first
    of the lines. -/
def matchingNext? (depth index : Nat) : List Line → Option Nat
  | [] => none
  | line :: rest =>
    match line.kind with
    | .FOR => matchingNext? (depth + 1) (index + 1) rest
    | .NEXT => if depth ≤ 1 then some index else matchingNext? (depth - 1) (index + 1) rest
    | _ => matchingNext? depth (index + 1) rest

/-- The index of the `NEXT` line that closes the loop whose body starts at index `start`. -/
def Listing.matchingNext? (l : Listing) (start : Nat) : Option Nat :=
  LineBasic.matchingNext? 1 start (l.lines.drop start)

/-- Whether a loop that starts with `start` does not run at all. -/
def skipsLoop (start limit step : Float) : Bool :=
  (decide (step > 0.0) && decide (start > limit)) || (decide (step < 0.0) && decide (start < limit))

namespace Frame

/-- Whether the loop goes on with the value `value`. -/
def continues (f : Frame) (value : Float) : Bool :=
  (decide (f.step > 0.0) && decide (value ≤ f.limit)) ||
    (decide (f.step < 0.0) && decide (value ≥ f.limit))

end Frame

namespace Action

/-- Goes to the line with a number. -/
def goTo (jump : Jump) (line : Int) : Action Flow := do
  match (← get).listing.indexOf? line with
  | some index =>
    modify ({ · with pc := index })
    return .jump
  | none => complain (.noSuchLine jump line)

/-- The step of a loop: one unless another is given, and never zero. -/
def stepOf (step : Option Expr) : Action Float := do
  let value ← match step with
    | some e => take e.eval
    | none => pure 1.0
  return if value == 0.0 then 1.0 else value

def openLoop (slot : Nat) (start limit : Expr) (step : Option Expr) : Action Flow := do
  let first ← take start.eval
  let limit ← take limit.eval
  let step ← stepOf step
  changeOrFail (·.write slot first)
  let m ← get
  if skipsLoop first limit step then
    match m.listing.matchingNext? (m.pc + 1) with
    | some index =>
      modify ({ · with pc := index + 1 })
      return .jump
    | none => complain .forWithoutNext
  else if m.maxDepth ≤ m.frames.length then complain .forTooDeep
  else
    modify fun m => { m with frames := ⟨slot, limit, step, m.pc⟩ :: m.frames }
    return .next

def closeLoop (slot : Option Nat) : Action Flow := do
  match (← get).frames with
  | [] => complain .nextWithoutFor
  | frame :: outer =>
    if slot.any (· ≠ frame.slot) then
      complain (.nextMismatch (slot.getD frame.slot) frame.slot)
    else
      let old ← take fun memory => .ofExcept (memory.read frame.slot)
      let value := old + frame.step
      changeOrFail (·.write frame.slot value)
      if frame.continues value then
        modify ({ · with pc := frame.forIndex + 1 })
        return .jump
      else
        modify ({ · with frames := outer })
        return .next

/-! ## Statements -/

/-- Assigns a value. A subscript on the left is evaluated before the value. -/
def assign (target : Target) (value : Expr) : Action Unit :=
  match target with
  | .scalar slot => do
    let x ← take value.eval
    changeOrFail (·.write slot x)
  | .element letter index => do
    let subscript ← take index.eval
    let x ← take value.eval
    change (·.writeElement letter subscript x)

/-- Declares arrays one after the other; a bound may use the arrays before it. -/
def declareAll : List (Nat × Expr) → Action Unit
  | [] => pure ()
  | (letter, bound) :: rest => do
    let x ← take bound.eval
    changeOrFail (·.declare letter x)
    declareAll rest

def exec : Stmt → Action Flow
  | .assign target value => do
    assign target value
    return .next
  | .dim items => do
    declareAll items
    return .next
  | .forTo slot start limit step => openLoop slot start limit step
  | .next slot => closeLoop slot
  | .printText text => do
    note (.printed text)
    return .next
  | .print value => do
    let x ← match value with
      | some e => take e.eval
      | none => pure 0.0
    note (.printed (Number.shown x))
    return .next
  | .goto line => goTo .GOTO line
  | .ifThen cond line => do
    let holds ← take cond.eval
    match line, holds with
    | some line, true => goTo .THEN line
    | _, _ => return .next
  | .stop => return .halt
  | .unknown => fail .unknownStatement

/-- Executes the statement of a line; a line that did not parse complains now. -/
def execLine (line : Line) : Action Flow :=
  match line.content with
  | .ok stmt => exec stmt
  | .error m => complain (.misread m)

end Action

end LineBasic
