/-
  LineBasic.Proofs.Number.ExactValue

  The rational number that a number is, read off its bits, and what is left of it without its
  fraction.

  `exactValue?` weighs the three fields of the bits as the format defines them; `CutTo` says what it
  is to cut a rational toward zero, in terms of absolute values and signs. That shifting the
  significand cuts the exact value holds at every exponent (`truncate?_eq_some_iff`): a shift to the
  right is division by a power of two, which loses the fraction and no more, and with a shift to the
  left there is no fraction to lose.
-/
import LineBasic.Number.Index
import Mathlib.Algebra.Order.Field.Power
import Mathlib.Algebra.Order.Floor.Semifield
import Mathlib.Data.Rat.Floor
import Mathlib.Tactic.Linarith
import Mathlib.Tactic.Positivity
import Mathlib.Tactic.Ring

namespace LineBasic.Number

/-! ## The value of the bits -/

/-- The number as a rational, when it is finite. An exponent field of zero stands for the least
    exponent, without the leading one. -/
def exactValue? (x : Float) : Option ℚ :=
  let bits := x.toBits.toBitVec
  let sign : ℚ := if bits.msb then -1 else 1
  let field := (bits.extractLsb' 52 11).toNat
  let fraction : ℚ := (bits.extractLsb' 0 52).toNat / 2 ^ 52
  if field = 2047 then none
  else if field = 0 then some (sign * (2 ^ (-1022 : ℤ) * fraction))
  else some (sign * (2 ^ ((field : ℤ) - 1023) * (1 + fraction)))

/-- What the parts of a datum stand for. -/
def Binary.value? : Binary → Option ℚ
  | .finite negative m q => some ((if negative then -1 else 1) * (m * 2 ^ q))
  | _ => none

/-- A fraction of 52 bits lowers the exponent by as many. -/
theorem zpow_mul_div (e : ℤ) (a : ℚ) : 2 ^ e * (a / 2 ^ 52) = a * 2 ^ (e - 52) := by
  rw [zpow_sub₀ two_ne_zero, zpow_ofNat]
  ring

/-- The parts are read off the bits so that they stand for the value of the bits. -/
theorem exactValue?_eq (x : Float) : exactValue? x = (Binary.ofFloat x).value? := by
  obtain ⟨n, hn⟩ : ∃ n, x.toBits.toNat = n := ⟨_, rfl⟩
  have hsign : x.toBits.toBitVec.msb = decide (signWeight ≤ n) := by
    rw [BitVec.msb_eq_decide, UInt64.toNat_toBitVec, hn]
    rfl
  have hfield : (x.toBits.toBitVec.extractLsb' 52 11).toNat =
      n / fractionWeight % exponentValues := by
    rw [BitVec.extractLsb'_toNat, Nat.shiftRight_eq_div_pow, UInt64.toNat_toBitVec, hn]
    rfl
  have hfraction : (x.toBits.toBitVec.extractLsb' 0 52).toNat = n % fractionWeight := by
    rw [BitVec.extractLsb'_toNat, Nat.shiftRight_zero, UInt64.toNat_toBitVec, hn]
    rfl
  simp only [exactValue?, Binary.ofFloat, Binary.ofBits, hsign, hfield, hfraction, hn]
  -- The fields agree; what is left is the exponent, which the two give to different significands.
  generalize n / fractionWeight % exponentValues = field
  generalize n % fractionWeight = fraction
  have hlast : field + 1 = exponentValues ↔ field = 2047 := Nat.succ_inj (b := 2047)
  by_cases hspecial : field = 2047
  · rw [if_pos hspecial, if_pos (hlast.mpr hspecial)]
    split
    · rfl
    · rfl
  · rw [if_neg hspecial, if_neg (mt hlast.mp hspecial)]
    by_cases hleast : field = 0
    · rw [if_pos hleast, if_pos hleast, Binary.value?, zpow_mul_div]
      norm_num
    · have hweight : ((fractionWeight + fraction : ℕ) : ℚ) = 2 ^ 52 + fraction := by
        rw [Nat.cast_add, fractionWeight, Nat.one_shiftLeft, Nat.cast_pow, Nat.cast_ofNat]
      have hwhole : (1 : ℚ) + fraction / 2 ^ 52 = (2 ^ 52 + fraction) / 2 ^ 52 := by
        rw [add_div, div_self (by norm_num)]
      rw [if_neg hleast, if_neg hleast, Binary.value?, hweight, hwhole, zpow_mul_div, sub_sub]
      norm_num

example : exactValue? (-0.1875) = some (-3 / 16) := by decide +kernel

/-! ## Cutting toward zero -/

/-- The integer is the rational without its fraction: of the integers whose absolute value is not
    above that of the rational it has the largest, and it has the sign of the rational. -/
structure CutTo (q : ℚ) (n : ℤ) : Prop where
  abs_le : |(n : ℚ)| ≤ |q|
  largest : ∀ k : ℤ, |(k : ℚ)| ≤ |q| → |k| ≤ |n|
  sign : 0 ≤ n * q

namespace CutTo

variable {q : ℚ} {n k : ℤ}

theorem floor (hq : 0 ≤ q) : CutTo q ⌊q⌋ := by
  have hfloor : (0 : ℚ) ≤ ⌊q⌋ := by exact_mod_cast Int.floor_nonneg.mpr hq
  refine ⟨?_, ?_, mul_nonneg hfloor hq⟩
  · rw [abs_of_nonneg hfloor, abs_of_nonneg hq]
    exact Int.floor_le q
  · intro k hk
    rw [abs_of_nonneg hq, ← Int.cast_abs] at hk
    exact (Int.le_floor.mpr hk).trans (le_abs_self ⌊q⌋)

theorem neg (h : CutTo q n) : CutTo (-q) (-n) where
  abs_le := by
    rw [Int.cast_neg, abs_neg, abs_neg]
    exact h.abs_le
  largest := by
    intro k hk
    rw [abs_neg] at hk ⊢
    exact h.largest k hk
  sign := by
    rw [Int.cast_neg, neg_mul_neg]
    exact h.sign

theorem eq_floor (h : CutTo q n) (hq : 0 ≤ q) : n = ⌊q⌋ := by
  -- The absolute value is that of the floor, and the sign rules out its negative.
  have habs : |n| = ⌊q⌋ := by
    apply le_antisymm
    · rw [Int.le_floor, Int.cast_abs]
      exact h.abs_le.trans_eq (abs_of_nonneg hq)
    · exact (le_abs_self ⌊q⌋).trans (h.largest ⌊q⌋ (floor hq).abs_le)
  have hn : 0 ≤ n := by
    rcases hq.eq_or_lt with rfl | hpos
    · rw [Int.floor_zero, abs_eq_zero] at habs
      exact habs.ge
    · exact_mod_cast nonneg_of_mul_nonneg_left h.sign hpos
  rw [← habs, abs_of_nonneg hn]

theorem eq_ceil (h : CutTo q n) (hq : q ≤ 0) : n = ⌈q⌉ := by
  have hfloor := h.neg.eq_floor (neg_nonneg.mpr hq)
  rw [Int.floor_neg] at hfloor
  exact neg_injective hfloor

/-- A rational is cut to one integer. -/
theorem unique (h : CutTo q n) (h' : CutTo q k) : n = k := by
  rcases le_total 0 q with hq | hq
  · rw [h.eq_floor hq, h'.eq_floor hq]
  · rw [h.eq_ceil hq, h'.eq_ceil hq]

/-- What lies behind -1 is not cut to a negative integer. -/
theorem nonneg_iff (h : CutTo q n) : 0 ≤ n ↔ -1 < q := by
  rcases le_total 0 q with hq | hq
  · rw [h.eq_floor hq, Int.floor_nonneg]
    exact ⟨fun _ => by linarith, fun _ => hq⟩
  · rw [h.eq_ceil hq, ← Int.cast_one, ← Int.cast_neg, ← Int.lt_ceil]
    omega

/-- What is cut lies before a positive integer if the rational does. -/
theorem lt_iff (h : CutTo q n) (hk : 0 < k) : n < k ↔ q < k := by
  rcases le_total 0 q with hq | hq
  · rw [h.eq_floor hq, Int.floor_lt]
  · have hk' : (0 : ℚ) < k := by exact_mod_cast hk
    have hn : n ≤ 0 := by
      rw [h.eq_ceil hq, Int.ceil_le, Int.cast_zero]
      exact hq
    exact ⟨fun _ => by linarith, fun _ => by omega⟩

theorem eq_zero (h : CutTo q n) (hq : |q| < 1) : n = 0 := by
  have hn : |n| < 1 := by
    rw [← Int.cast_lt (R := ℚ), Int.cast_abs, Int.cast_one]
    exact lt_of_le_of_lt h.abs_le hq
  exact Int.abs_lt_one_iff.mp hn

end CutTo

theorem exists_cutTo (q : ℚ) : ∃ n, CutTo q n := by
  rcases le_total 0 q with hq | hq
  · exact ⟨_, CutTo.floor hq⟩
  · have hcut := (CutTo.floor (neg_nonneg.mpr hq)).neg
    rw [neg_neg] at hcut
    exact ⟨_, hcut⟩

/-! ## The whole part -/

theorem wholePart_eq_floor (m : ℕ) (e : ℤ) : (wholePart m e : ℤ) = ⌊(m : ℚ) * 2 ^ e⌋ := by
  have hpower : ∀ k : ℕ, (2 : ℚ) ^ (k : ℤ) = (2 ^ k : ℕ) := by
    intro k
    rw [zpow_natCast, Nat.cast_pow, Nat.cast_ofNat]
  rw [← Int.natCast_floor_eq_floor (by positivity), wholePart]
  split
  · rename_i he
    obtain ⟨k, rfl⟩ := Int.eq_ofNat_of_zero_le he
    rw [Int.toNat_natCast, Nat.shiftLeft_eq, hpower, ← Nat.cast_mul, Nat.floor_natCast]
  · rename_i he
    obtain ⟨k, hk⟩ := Int.eq_ofNat_of_zero_le (a := -e) (by omega)
    rw [hk, Int.toNat_natCast, Nat.shiftRight_eq_div_pow, ← neg_neg e, hk, zpow_neg, hpower,
      ← div_eq_mul_inv, Nat.floor_div_eq_div]

/-- A number stands for the integer that its exact value is cut to. -/
theorem truncate?_eq_some_iff (x : Float) (n : ℤ) :
    truncate? x = some n ↔ ∃ q, exactValue? x = some q ∧ CutTo q n := by
  rw [exactValue?_eq, truncate?]
  cases Binary.ofFloat x with
  | nan => simp [Binary.truncate?, Binary.value?]
  | infinite negative => simp [Binary.truncate?, Binary.value?]
  | finite negative m e =>
      have hpositive : CutTo (m * 2 ^ e) (wholePart m e) := by
        rw [wholePart_eq_floor]
        exact CutTo.floor (by positivity)
      have hcut : CutTo ((if negative then -1 else 1) * (m * 2 ^ e))
          (if negative then -(wholePart m e : ℤ) else wholePart m e) := by
        cases negative with
        | false => simpa using hpositive
        | true => simpa using hpositive.neg
      simp only [Binary.truncate?, Binary.value?, Option.some.injEq, exists_eq_left']
      constructor
      · rintro rfl
        exact hcut
      · exact hcut.unique

/-- Every finite number stands for an integer. -/
theorem truncate?_of_exactValue? {x : Float} {q : ℚ} (h : exactValue? x = some q) :
    ∃ n, truncate? x = some n ∧ CutTo q n := by
  obtain ⟨n, hcut⟩ := exists_cutTo q
  exact ⟨n, (truncate?_eq_some_iff x n).mpr ⟨q, h, hcut⟩, hcut⟩

end LineBasic.Number
