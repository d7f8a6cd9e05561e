/-
  LineBasic.Text.Range

  Character classes given as ranges of code points.
-/

namespace LineBasic.Text

/-- Whether the character's code point lies in one of the inclusive ranges. -/
def inRanges (ranges : List (Nat × Nat)) (c : Char) : Bool :=
  ranges.any fun (lo, hi) => lo ≤ c.toNat && c.toNat ≤ hi

end LineBasic.Text
