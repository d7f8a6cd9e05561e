/-
  LineBasic.Proofs.Text.Integer

  The decimal text of a number is read as that number, when it is not too long, and it is not too
  long when the number is small enough. The same numbers are those that can be written.
-/
import LineBasic.Proofs.Grammar.Scan
import LineBasic.Proofs.Sentence.Meaning

namespace LineBasic.Text

theorem decimalValue?_ascii {c : Char} (h : c.isDigit = true) :
    decimalValue? c = some (c.toNat - '0'.toNat) := by
  have hc : 0x30 ≤ c.toNat ∧ c.toNat < 0x30 + 10 := by
    have hsome := Grammar.digit?_isSome_iff.mpr h
    simp only [Name.digit?] at hsome
    split at hsome
    · omega
    · simp at hsome
  have hzero : '0'.toNat = 0x30 := rfl
  simp [decimalValue?, decimalZeros, hc, hzero]

theorem isDecimal_ascii {c : Char} (h : c.isDigit = true) : isDecimal c = true := by
  rw [isDecimal, decimalValue?_ascii h, Option.isSome_some]

/-- No digit of any script is a blank. -/
theorem isBlank_of_isDecimal {c : Char} (h : isDecimal c = true) : isBlank c = false := by
  obtain ⟨n, hn⟩ := Option.isSome_iff_exists.mp h
  obtain ⟨base, hbase, hc⟩ := List.exists_of_findSome?_eq_some hn
  by_contra hblank
  obtain ⟨⟨lo, hi⟩, hrange, hin⟩ := List.any_eq_true.mp (Bool.eq_true_of_not_eq_false hblank)
  have hapart : ∀ base ∈ decimalZeros, ∀ range ∈ blankRanges,
      base + 10 ≤ range.1 ∨ range.2 < base := by decide
  have := hapart base hbase _ hrange
  simp only [Bool.and_eq_true, decide_eq_true_eq] at hin
  split at hc
  · omega
  · simp at hc

theorem readable_nil : Readable [] :=
  ⟨by simp, Nat.zero_le _⟩

theorem Readable.notMem_space {word : List Char} (h : Readable word) : ' ' ∉ word := by
  intro hmem
  have hblank := isBlank_of_isDecimal (h.1 _ hmem)
  exact absurd hblank (by decide)

theorem decimalValue_ascii {s : List Char} (h : ∀ c ∈ s, c.isDigit = true) :
    decimalValue s = Nat.ofDigitChars 10 s 0 := by
  rw [decimalValue, Nat.ofDigitChars_eq_foldl]
  refine List.foldl_ext _ _ _ fun n c hc => ?_
  rw [decimalValue?_ascii (h c hc), Option.getD_some]

theorem decimalValue_concat (s : List Char) (c : Char) :
    decimalValue (s ++ [c]) = 10 * decimalValue s + (decimalValue? c).getD 0 := by
  rw [decimalValue, List.foldl_append]
  rfl

/-- A number has no more digits than its text. -/
theorem decimalValue_lt (s : List Char) : decimalValue s < 10 ^ s.length := by
  induction s using List.reverseRecOn with
  | nil => simp [decimalValue]
  | append_singleton s c ih =>
      have hdigit : (decimalValue? c).getD 0 < 10 := by
        cases h : decimalValue? c with
        | none => simp
        | some n => exact decimalValue?_lt h
      rw [decimalValue_concat, List.length_append, List.length_singleton, Nat.pow_succ]
      omega

theorem isDigit_of_mem_toDigits {n : Nat} {c : Char} (h : c ∈ Nat.toDigits 10 n) :
    c.isDigit = true :=
  Nat.isDigit_of_mem_toDigits (by decide) (by decide) h

@[simp] theorem decimalValue_toDigits (n : Nat) : decimalValue (Nat.toDigits 10 n) = n := by
  rw [decimalValue_ascii fun c => isDigit_of_mem_toDigits, Nat.ofDigitChars_ten_toDigits]

theorem length_toDigits_le_maxDigits_iff {n : Nat} :
    (Nat.toDigits 10 n).length ≤ maxDigits ↔ n < 10 ^ maxDigits :=
  Nat.length_toDigits_le_iff (by decide) (by decide)

theorem readable_toDigits_iff {n : Nat} : Readable (Nat.toDigits 10 n) ↔ n < 10 ^ maxDigits := by
  rw [Readable, length_toDigits_le_maxDigits_iff]
  exact and_iff_right fun c hc => isDecimal_ascii (isDigit_of_mem_toDigits hc)

/-- A number that is too large is refused for its length. -/
theorem readNatural_toDigits_of_le {n : Nat} (h : 10 ^ maxDigits ≤ n) :
    readNatural (Nat.toDigits 10 n) = .error (.tooLong (Nat.toDigits 10 n).length) := by
  have hall : ∀ c ∈ Nat.toDigits 10 n, isDecimal c = true :=
    fun c hc => isDecimal_ascii (isDigit_of_mem_toDigits hc)
  have hlong : maxDigits < (Nat.toDigits 10 n).length := by
    by_contra hshort
    have hreadable : Readable (Nat.toDigits 10 n) := ⟨hall, Nat.not_lt.mp hshort⟩
    exact absurd (readable_toDigits_iff.mp hreadable) (Nat.not_lt.mpr h)
  rw [readNatural, List.takeWhile_eq_self_iff.mpr hall, if_pos hlong]

/-- What is small enough to be read is small enough to be written, and the other way round. -/
theorem isWritable_iff {n : Int} : isWritable n = true ↔ n.natAbs < 10 ^ maxDigits := by
  rw [isWritable, decide_eq_true_eq, length_toDigits_le_maxDigits_iff]

theorem isWritable_eq_false_iff {n : Int} : isWritable n = false ↔ 10 ^ maxDigits ≤ n.natAbs := by
  rw [Bool.eq_false_iff, ne_eq, isWritable_iff, not_lt]

/-- A number that is read can be written. -/
theorem Readable.isWritable {word : List Char} (h : Readable word) :
    isWritable (decimalValue word) = true := by
  rw [isWritable_iff, Int.natAbs_natCast]
  calc decimalValue word < 10 ^ word.length := decimalValue_lt word
    _ ≤ 10 ^ maxDigits := Nat.pow_le_pow_right (by decide) h.2

/-- The text of a number that is not negative is its digits. -/
theorem toList_toString_int {n : Int} (h : 0 ≤ n) :
    (toString n).toList = Nat.toDigits 10 n.toNat := by
  rw [Int.toString_eq_repr, Int.repr_eq_if, if_pos h, Nat.toList_repr]

/-- The digits of a number are not blank. -/
theorem isBlank_of_mem_toDigits {n : Nat} {c : Char} (h : c ∈ Nat.toDigits 10 n) :
    isBlank c = false :=
  isBlank_of_isDecimal (isDecimal_ascii (isDigit_of_mem_toDigits h))

end LineBasic.Text
