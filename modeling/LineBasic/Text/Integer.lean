/-
  LineBasic.Text.Integer

  Reading and writing integers. A word is read digit by digit, in any script; a word with more than
  `maxDigits` digits is refused before anything else is looked at. An integer with more than
  `maxDigits` digits is not written either.
-/
import LineBasic.Text.Blank
import LineBasic.Text.Digit
import LineBasic.Text.Quoted

namespace LineBasic.Text

/-- The longest run of digits that is read as an integer, or written for one. -/
def maxDigits : Nat := 4300

inductive IntegerFlaw where
  | tooLong (digits : Nat)
  | notDecimal (word : String)
  deriving Repr, DecidableEq

/-- The quoted word of a message is cut after this many characters. -/
def shownWord : Nat := 200

def IntegerFlaw.message : IntegerFlaw → String
  | .tooLong digits =>
    s!"Exceeds the limit ({maxDigits} digits) for integer string conversion: value has {digits} " ++
      "digits; use sys.set_int_max_str_digits() to increase the limit"
  | .notDecimal word =>
    "invalid literal for int() with base 10: " ++
      String.ofList ((quote word.toList).take shownWord)

/-- The number that a run of decimal digits shows. -/
def decimalValue (digits : List Char) : Nat :=
  digits.foldl (fun n c => 10 * n + (decimalValue? c).getD 0) 0

/-- Reads a word of decimal digits. -/
def readNatural (word : List Char) : Except IntegerFlaw Nat :=
  let digits := word.takeWhile isDecimal
  if maxDigits < digits.length then .error (.tooLong digits.length)
  else if digits.length < word.length then .error (.notDecimal (String.ofList word))
  else .ok (decimalValue word)

/-! ## Signed integers with separators -/

/-- Digits in groups joined by single underscores. -/
def groupedDigits? : List Char → Option (List Char)
  | [] => none
  | [c] => if isDecimal c then some [c] else none
  | c :: '_' :: rest => if isDecimal c then (groupedDigits? rest).map (c :: ·) else none
  | c :: rest => if isDecimal c then (groupedDigits? rest).map (c :: ·) else none

/-- White space around an integer. The information separators are not among it. -/
def isPadding (c : Char) : Bool :=
  isBlank c && !(0x1C ≤ c.toNat && c.toNat ≤ 0x1F)

/-- Reads an integer with an optional sign, white space around it and underscores between its
    digits. -/
def readInteger? (s : List Char) : Option Int :=
  let body := ((s.dropWhile isPadding).reverse.dropWhile isPadding).reverse
  let magnitude (digits : List Char) : Option Int :=
    match groupedDigits? digits with
    | some ds => if ds.length ≤ maxDigits then some (decimalValue ds) else none
    | none => none
  match body with
  | '-' :: digits => (magnitude digits).map (- ·)
  | '+' :: digits => magnitude digits
  | digits => magnitude digits

/-! ## Writing -/

/-- Whether an integer has few enough digits to be written. -/
def isWritable (n : Int) : Bool :=
  (Nat.toDigits 10 n.natAbs).length ≤ maxDigits

/-- What is said when an integer has too many digits to be written. -/
def unwritableMessage : String :=
  s!"Exceeds the limit ({maxDigits} digits) for integer string conversion; use " ++
    "sys.set_int_max_str_digits() to increase the limit"

end LineBasic.Text
