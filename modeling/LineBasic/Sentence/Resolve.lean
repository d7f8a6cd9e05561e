/-
  LineBasic.Sentence.Resolve

  From a sentence to the statement it stands for: numerals become numbers, names slots.

  Three things are refused here and not while reading. Expressions may nest `maxNesting` levels deep
  (brackets add no level); only a bare letter may be subscripted or dimensioned; and a line number
  has a largest length. The tree is walked from left to right and each part before the whole, so
  the innermost and leftmost of several mistakes is the one that is reported.
-/
import LineBasic.Complaint
import LineBasic.Number.Numeral
import LineBasic.Sentence.Basic

namespace LineBasic

/-- The greatest depth of an expression. -/
def maxNesting : Nat := 480

/-- Why a statement is refused. -/
inductive Rejection where
  | misread (misread : Misread)
  /-- The line number of a statement of the kind cannot be read. -/
  | target (kind : Kind) (flaw : Text.IntegerFlaw)
  deriving Repr, DecidableEq

/-- What a refused statement fails with where it is not kept for later. -/
def Rejection.failure : Rejection → Failure
  | .misread m => .complaint (.misread m)
  | .target kind flaw => .fault (.badTarget kind flaw)

/-- The letter of an array. -/
def Mention.letter (m : Mention) : Except Rejection Nat :=
  if m.slot < letterCount then .ok m.slot
  else .error (.misread ⟨.suffixedArray m.slot, some (m.place + 1)⟩)

/-- The level below, unless the levels are used up. -/
def descend (room : Nat) : Except Rejection Nat :=
  match room with
  | 0 => .error (.misread ⟨.tooDeep, none⟩)
  | room + 1 => .ok room

/-- The expression that a phrase stands for, with room for `room` levels. -/
def Phrase.resolveWithin (room : Nat) : Phrase → Except Rejection Expr
  | .numeral digits => .ok (.num (Number.numeralValue digits))
  | .name mention => .ok (.var mention.slot)
  | .element mention index => do
    let below ← descend room
    let index ← index.resolveWithin below
    return .element (← mention.letter) index
  | .signed sign operand => do
    let below ← descend room
    return .signed sign (← operand.resolveWithin below)
  | .binary op left right => do
    let below ← descend room
    let left ← left.resolveWithin below
    let right ← right.resolveWithin below
    return .binary op left right

def Phrase.resolve (e : Phrase) : Except Rejection Expr :=
  e.resolveWithin maxNesting

def Clause.resolve : Clause → Except Rejection Cond
  | .nonzero operand => return .nonzero (← operand.resolve)
  | .compare relation left right => do
    let left ← left.resolve
    let right ← right.resolve
    return .compare relation left right

def Recipient.resolve : Recipient → Except Rejection Target
  | .scalar mention => .ok (.scalar mention.slot)
  | .element mention index => do
    let index ← index.resolve
    return .element (← mention.letter) index

/-- The item of a `DIM` statement: a letter and an upper bound. -/
def resolveItem (item : Mention × Phrase) : Except Rejection (Nat × Expr) := do
  let bound ← item.2.resolve
  return (← item.1.letter, bound)

/-- The line number that a run of digits names, in a statement of the given kind. -/
def resolveLine (kind : Kind) (digits : List Char) : Except Rejection Int :=
  match Text.readNatural digits with
  | .ok n => .ok n
  | .error flaw => .error (.target kind flaw)

/-- An optional part resolves to an optional part. -/
def resolveOption {α β : Type} (f : α → Except Rejection β) :
    Option α → Except Rejection (Option β)
  | none => .ok none
  | some a => return some (← f a)

def Sentence.resolve : Sentence → Except Rejection Stmt
  | .assign recipient value => do
    let target ← recipient.resolve
    return .assign target (← value.resolve)
  | .dim items => return .dim (← items.mapM resolveItem)
  | .forTo mention start limit step => do
    let start ← start.resolve
    let limit ← limit.resolve
    return .forTo mention.slot start limit (← resolveOption Phrase.resolve step)
  | .next mention => .ok (.next (mention.map (·.slot)))
  | .printText text => .ok (.printText (String.ofList text))
  | .print value => return .print (← resolveOption Phrase.resolve value)
  | .goto digits => return .goto (← resolveLine .GOTO digits)
  | .ifThen clause digits => do
    let cond ← clause.resolve
    return .ifThen cond (← resolveOption (resolveLine .IF) digits)

end LineBasic
