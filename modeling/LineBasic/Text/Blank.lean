/-
  LineBasic.Text.Blank

  White space, its removal at both ends of a text, and the first word of a text.
-/
import LineBasic.Text.Range

namespace LineBasic.Text

/-- White space of every script, the separators among the control characters included. -/
def blankRanges : List (Nat × Nat) :=
  [(0x09, 0x0D), (0x1C, 0x20), (0x85, 0x85), (0xA0, 0xA0), (0x1680, 0x1680), (0x2000, 0x200A),
   (0x2028, 0x2029), (0x202F, 0x202F), (0x205F, 0x205F), (0x3000, 0x3000)]

def isBlank (c : Char) : Bool :=
  inRanges blankRanges c

/-- The text without the blanks at its end. -/
def trimEnd (s : List Char) : List Char :=
  (s.reverse.dropWhile isBlank).reverse

/-- The text without the blanks at its two ends. -/
def trim (s : List Char) : List Char :=
  trimEnd (s.dropWhile isBlank)

/-- The text before the first space, and the text after it (nothing when there is no space). -/
def splitAtSpace (s : List Char) : List Char × List Char :=
  (s.takeWhile (· != ' '), (s.dropWhile (· != ' ')).drop 1)

end LineBasic.Text
