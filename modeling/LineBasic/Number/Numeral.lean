/-
  LineBasic.Number.Numeral

  Numerals: digits of any script with at most one point and an optional power of ten.

  `scanNumeral` takes the longest numeral at the start of a text: the power of ten belongs to it
  only when it has digits of its own, so `1e` is the numeral `1` followed by a letter.
-/
import LineBasic.Text.Integer

namespace LineBasic.Number

open LineBasic.Text

/-- How many characters of the text belong to the power of ten at its start. -/
def exponentLength : List Char → Nat
  | c :: rest =>
    if c = 'e' ∨ c = 'E' then
      match rest with
      | s :: digits =>
        if s = '+' ∨ s = '-' then
          let n := (digits.takeWhile isDecimal).length
          if n = 0 then 0 else n + 2
        else
          let n := (rest.takeWhile isDecimal).length
          if n = 0 then 0 else n + 1
      | [] => 0
    else 0
  | [] => 0

/-- How many characters of the text belong to the digits and the point at its start: digits and
    then perhaps a point with or without digits after it, or a point with digits after it. -/
def mantissaLength (s : List Char) : Nat :=
  let whole := (s.takeWhile isDecimal).length
  match s.drop whole with
  | '.' :: rest =>
    let fraction := (rest.takeWhile isDecimal).length
    if whole = 0 ∧ fraction = 0 then 0 else whole + 1 + fraction
  | _ => whole

/-- The length of the numeral at the start of the text, 0 when there is none. -/
def numeralLength (s : List Char) : Nat :=
  let n := mantissaLength s
  if n = 0 then 0 else n + exponentLength (s.drop n)

/-- The number nearest to what a numeral shows, a half going to the even neighbour; past the
    largest number it is the infinity. -/
def numeralValue (s : List Char) : Float :=
  let isMark := fun c : Char => c == 'e' || c == 'E'
  let mantissa := s.takeWhile fun c => !isMark c
  let whole := mantissa.takeWhile (· != '.')
  let fraction := (mantissa.dropWhile (· != '.')).drop 1
  let power : Int :=
    match (s.dropWhile fun c => !isMark c).drop 1 with
    | '-' :: digits => -(decimalValue digits : Int)
    | '+' :: digits => decimalValue digits
    | digits => decimalValue digits
  let scale := power - fraction.length
  Float.ofScientific (decimalValue (whole ++ fraction)) (decide (scale < 0)) scale.natAbs

end LineBasic.Number
