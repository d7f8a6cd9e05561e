/-
  LineBasic.Number.Index

  The integer a number stands for as a subscript: the number without its fraction. Numbers that are
  not finite stand for none.
-/
import LineBasic.Number.Binary

namespace LineBasic.Number

/-- The whole part of `significand * 2 ^ exponent`. -/
def wholePart (significand : Nat) (exponent : Int) : Nat :=
  if 0 ≤ exponent then significand <<< exponent.toNat else significand >>> (-exponent).toNat

def Binary.truncate? : Binary → Option Int
  | .finite negative m q => some (if negative then -(wholePart m q : Int) else wholePart m q)
  | _ => none

/-- The number cut toward zero, at any magnitude. -/
def truncate? (x : Float) : Option Int :=
  (Binary.ofFloat x).truncate?

/-- A subscript as messages show it: the exact integer, or the number that has none. -/
inductive Subscript where
  | integer (value : Int)
  | nan
  | infinite (negative : Bool)
  deriving Repr, DecidableEq

def Subscript.ofFloat (x : Float) : Subscript :=
  match Binary.ofFloat x with
  | .nan => .nan
  | .infinite negative => .infinite negative
  | b => .integer (b.truncate?.getD 0)

def Subscript.text : Subscript → String
  | .integer value => toString value
  | .nan => "nan"
  | .infinite false => "inf"
  | .infinite true => "-inf"

end LineBasic.Number
