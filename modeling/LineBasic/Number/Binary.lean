/-
  LineBasic.Number.Binary

  What the 64 bits of a number stand for: a sign, a significand and a power of two, an infinity, or
  no number. Everything that is said exactly about a number (its cell index, its decimal digits) is
  read off this form, in integer arithmetic.
-/

namespace LineBasic.Number

/-- A binary64 datum. `finite negative m q` stands for `m * 2 ^ q`, negated when `negative`. -/
inductive Binary where
  | nan
  | infinite (negative : Bool)
  | finite (negative : Bool) (significand : Nat) (exponent : Int)
  deriving Repr, DecidableEq

/-- The weight of the sign bit. -/
def signWeight : Nat := 1 <<< 63

/-- The weight of the lowest bit of the exponent, which is also the implicit leading bit of a
    significand. -/
def fractionWeight : Nat := 1 <<< 52

/-- How many values the exponent field has. -/
def exponentValues : Nat := 1 <<< 11

/-- Reads the three fields of a 64-bit pattern: the sign, eleven bits of exponent, 52 bits of
    fraction. An exponent field of zero has no implicit leading bit, and the largest stands for the
    infinities and for no number. -/
def Binary.ofBits (bits : UInt64) : Binary :=
  let n := bits.toNat
  let negative := decide (signWeight ≤ n)
  let field := n / fractionWeight % exponentValues
  let fraction := n % fractionWeight
  if field + 1 = exponentValues then
    if fraction = 0 then .infinite negative else .nan
  else if field = 0 then .finite negative fraction (-1074)
  else .finite negative (fractionWeight + fraction) ((field : Int) - 1075)

def Binary.ofFloat (x : Float) : Binary :=
  .ofBits x.toBits

end LineBasic.Number
