/-
  LineBasic.Number.Decimal

  Decimal text of a number, to a given count of significant digits.

  The digits are those of the exact value, rounded once, a half to the even neighbour. Zeros at the
  end of the fraction are dropped. The number is written positionally unless its decimal exponent
  is below `Format.leastPositional` or is not below the count of digits.
-/
import LineBasic.Number.Binary

namespace LineBasic.Number

/-- `n / d` rounded to the nearest integer, a half to the even one. -/
def roundDiv (n d : Nat) : Nat :=
  let q := n / d
  let r := n % d
  if 2 * r < d ∨ (2 * r = d ∧ q % 2 = 0) then q else q + 1

/-- The `k`-th power of ten. -/
def tenTo (k : Nat) : Nat :=
  Nat.pow 10 k

/-- How many decimal digits the text of `n` has. -/
def digitCount (n : Nat) : Nat :=
  (Nat.toDigits 10 n).length

/-- The `e` with `10 ^ e ≤ n / d < 10 ^ (e + 1)`, for positive `n` and `d`. -/
def decimalExponent (n d : Nat) : Int :=
  if d ≤ n then (digitCount (n / d) : Int) - 1
  else -(digitCount ((d - 1) / n) : Int)

/-- `n / d` rounded to `places` significant digits: the digits as one number of exactly that many
    digits, and the decimal exponent of the first. -/
def significant (places n d : Nat) : Nat × Int :=
  let e := decimalExponent n d
  let shift := e - (places - 1)
  let digits :=
    if 0 ≤ shift then roundDiv n (d * tenTo shift.toNat)
    else roundDiv (n * tenTo (-shift).toNat) d
  if digits = tenTo places then (tenTo (places - 1), e + 1) else (digits, e)

/-! ## Layout -/

/-- How numbers are laid out. -/
structure Format where
  /-- The count of significant digits. -/
  places : Nat
  /-- The least decimal exponent that is written positionally. -/
  leastPositional : Int
  /-- The least count of digits in a written exponent. -/
  exponentWidth : Nat

/-- Six significant digits, positional from 0.0001 on, exponents of two digits or more. -/
def Format.shown : Format := ⟨6, -4, 2⟩

/-- The digits without the zeros at their end. -/
def dropFinalZeros (digits : List Char) : List Char :=
  (digits.reverse.dropWhile (· == '0')).reverse

/-- `whole`, and the fraction after a point when there is one. -/
def withFraction (whole fraction : List Char) : List Char :=
  if fraction.isEmpty then whole else whole ++ '.' :: fraction

/-- The digits `digits` of a number whose first digit has the decimal exponent `e`. -/
def positional (digits : List Char) (e : Int) : List Char :=
  if 0 ≤ e then
    let size := e.toNat + 1
    withFraction (digits.take size ++ List.replicate (size - digits.length) '0')
      (digits.drop size)
  else withFraction ['0'] (List.replicate ((-e).toNat - 1) '0' ++ digits)

def Format.exponential (f : Format) (digits : List Char) (e : Int) : List Char :=
  let power := Nat.toDigits 10 e.natAbs
  withFraction (digits.take 1) (digits.drop 1) ++
    'e' :: (if e < 0 then '-' else '+') ::
      (List.replicate (f.exponentWidth - power.length) '0' ++ power)

/-- The positive value `n / d`. -/
def Format.positive (f : Format) (n d : Nat) : List Char :=
  let (value, e) := significant f.places n d
  let digits := dropFinalZeros (Nat.toDigits 10 value)
  if f.leastPositional ≤ e ∧ e < f.places then positional digits e
  else f.exponential digits e

def Format.write (f : Format) : Binary → List Char
  | .nan => ['n', 'a', 'n']
  | .infinite negative => (if negative then ['-'] else []) ++ ['i', 'n', 'f']
  | .finite negative m q =>
    (if negative then ['-'] else []) ++
      if m = 0 then ['0']
      else if 0 ≤ q then f.positive (m <<< q.toNat) 1
      else f.positive m (1 <<< (-q).toNat)

example : String.ofList (Format.shown.write (.finite false 3 (-1))) = "1.5" := by decide +kernel

example : String.ofList (Format.shown.write (.finite true 0 (-1074))) = "-0" := by decide +kernel

example : String.ofList (Format.shown.write (.finite false 1000000 0)) = "1e+06" := by
  decide +kernel

example : String.ofList (Format.shown.write (.finite false 2469135 (-1))) = "1.23457e+06" := by
  decide +kernel

/-- A number as PRINT shows it. -/
def shown (x : Float) : String :=
  String.ofList (Format.shown.write (.ofFloat x))

end LineBasic.Number
