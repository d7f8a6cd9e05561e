/-
  LineBasic.Text.Quoted

  The quoted form of a text, in which messages name files, words and other messages.

  The mark is an apostrophe, or a double quote when the text holds an apostrophe and no double
  quote. The mark and the backslash are escaped, tab, line feed and carriage return have escapes of
  their own, and a character that is not printable is shown by its number in the shortest of the
  forms with two, four and eight hexadecimal digits.
-/
import LineBasic.Text.Printable

namespace LineBasic.Text

/-- `n` in lower-case hexadecimal with at least `width` digits. -/
def hexDigits (width n : Nat) : List Char :=
  let digits := Nat.toDigits 16 n
  List.replicate (width - digits.length) '0' ++ digits

def quoteMark (s : List Char) : Char :=
  if s.contains '\'' && !s.contains '"' then '"' else '\''

/-- One character of a text quoted with `mark`. -/
def quoteChar (mark c : Char) : List Char :=
  if c = mark ∨ c = '\\' then ['\\', c]
  else if c = '\t' then ['\\', 't']
  else if c = '\n' then ['\\', 'n']
  else if c = '\r' then ['\\', 'r']
  else if isPrintable c then [c]
  else if c.toNat ≤ 0xFF then '\\' :: 'x' :: hexDigits 2 c.toNat
  else if c.toNat ≤ 0xFFFF then '\\' :: 'u' :: hexDigits 4 c.toNat
  else '\\' :: 'U' :: hexDigits 8 c.toNat

def quote (s : List Char) : List Char :=
  let mark := quoteMark s
  mark :: (s.flatMap (quoteChar mark) ++ [mark])

example : quote ['a', '\'', 'b'] = ['"', 'a', '\'', 'b', '"'] := by decide +kernel

example : quote ['"', '\''] = ['\'', '"', '\\', '\'', '\''] := by decide +kernel

/-- The quoted form of a string. -/
def quoted (s : String) : String :=
  String.ofList (quote s.toList)

end LineBasic.Text
