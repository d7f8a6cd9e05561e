/-
  LineBasic.Proofs.Grammar.Numeral

  The numeral at the start of a text, found by length, is a text of the pattern of numbers; and a
  text of the pattern is found whole when nothing follows that could make it longer.
-/
import LineBasic.Proofs.Grammar.Terminal
import Mathlib.Data.List.TakeWhile

namespace LineBasic.Grammar

open Number Text

/-- A run of a class is taken whole where the class ends behind it. -/
theorem takeWhile_append_stop {p : Char → Bool} {run rest : List Char}
    (hrun : ∀ c ∈ run, p c = true) (hrest : ∀ c ∈ rest.head?, p c = false) :
    (run ++ rest).takeWhile p = run := by
  rw [List.takeWhile_append_of_pos hrun]
  cases rest with
  | nil => simp
  | cons c rest =>
      rw [List.takeWhile_cons_of_neg (by simp [hrest c rfl]), List.append_nil]

theorem take_takeWhile_length (p : Char → Bool) (s : List Char) :
    s.take (s.takeWhile p).length = s.takeWhile p :=
  (List.prefix_iff_eq_take.mp (List.takeWhile_prefix p)).symm

theorem takeWhile_decimal_mem_digits {s : List Char} (h : (s.takeWhile isDecimal).length ≠ 0) :
    s.takeWhile isDecimal ∈ digits := by
  refine mem_digits.mpr ⟨?_, fun c hc => List.mem_takeWhile_imp hc⟩
  intro hnil
  exact h (by rw [hnil]; rfl)

/-! ## The power of ten -/

theorem length_takeWhile_le (p : Char → Bool) (s : List Char) :
    (s.takeWhile p).length ≤ s.length :=
  (List.takeWhile_prefix p).length_le

theorem exponentLength_le (s : List Char) : exponentLength s ≤ s.length := by
  cases s with
  | nil => simp [exponentLength]
  | cons mark rest =>
      cases rest with
      | nil => simp [exponentLength]
      | cons sign power =>
          have hpower := length_takeWhile_le isDecimal power
          have hdigits := length_takeWhile_le isDecimal (sign :: power)
          simp only [exponentLength, List.length_cons] at hdigits ⊢
          -- Mark, sign, digits or not: in every case no more than is there.
          repeat' split
          all_goals omega

theorem take_exponentLength {s : List Char} (h : exponentLength s ≠ 0) :
    s.take (exponentLength s) ∈ powerPattern := by
  cases s with
  | nil => simp [exponentLength] at h
  | cons mark rest =>
      by_cases hmark : mark = 'e' ∨ mark = 'E'
      · cases rest with
        | nil => simp [exponentLength, hmark] at h
        | cons sign power =>
            simp only [exponentLength, hmark, if_true] at h ⊢
            -- With a sign the digits start behind it, without one right behind the mark.
            split at h
            · rename_i hsign
              split at h
              · exact absurd rfl h
              · rename_i hpower
                rw [if_pos hsign, if_neg hpower]
                refine mem_powerPattern.mpr
                  ⟨mark, [sign], power.takeWhile isDecimal, ?_, hmark, ?_,
                    takeWhile_decimal_mem_digits hpower⟩
                · simp only [List.take_succ_cons, take_takeWhile_length, List.singleton_append]
                · rcases hsign with rfl | rfl <;> simp
            · rename_i hsign
              split at h
              · exact absurd rfl h
              · rename_i hpower
                rw [if_neg hsign, if_neg hpower]
                refine mem_powerPattern.mpr
                  ⟨mark, [], (sign :: power).takeWhile isDecimal, ?_, hmark, Or.inl rfl,
                    takeWhile_decimal_mem_digits hpower⟩
                rw [List.take_succ_cons, take_takeWhile_length, List.nil_append]
      · simp [exponentLength, hmark] at h

theorem exponentLength_append {power rest : List Char} (hpower : power ∈ powerPattern)
    (hrest : ∀ c ∈ rest.head?, isDecimal c = false) :
    exponentLength (power ++ rest) = power.length := by
  obtain ⟨mark, sign, ds, rfl, hmark, hsign, hds⟩ := mem_powerPattern.mp hpower
  obtain ⟨hne, hall⟩ := mem_digits.mp hds
  have hrun : (ds ++ rest).takeWhile isDecimal = ds := takeWhile_append_stop hall hrest
  have hlen : ds.length ≠ 0 := by simpa using hne
  rcases hsign with rfl | hsign
  · obtain ⟨d, more, rfl⟩ := List.exists_cons_of_ne_nil hne
    -- A digit is no sign, so the digits follow the mark at once.
    have hd : ¬ (d = '+' ∨ d = '-') := by
      rintro (rfl | rfl)
      · exact absurd (hall '+' (by simp)) (by decide)
      · exact absurd (hall '-' (by simp)) (by decide)
    simp only [List.cons_append] at hrun
    simp only [List.nil_append, List.cons_append, exponentLength, hmark, hd, if_true, if_false,
      hrun]
    rw [if_neg hlen]
    rfl
  · obtain ⟨c, hc, rfl⟩ : ∃ c, (c = '+' ∨ c = '-') ∧ sign = [c] := by
      rcases hsign with rfl | rfl <;> simp
    simp only [List.cons_append, List.nil_append, exponentLength, hmark, hc, if_true, hrun, hlen,
      if_false, List.length_cons]

/-- Where neither `e` nor `E` stands there is no power of ten. -/
theorem exponentLength_eq_zero {s : List Char} (h : ∀ c ∈ s.head?, c ≠ 'e' ∧ c ≠ 'E') :
    exponentLength s = 0 := by
  cases s with
  | nil => rfl
  | cons c rest =>
      obtain ⟨h1, h2⟩ := h c rfl
      simp [exponentLength, h1, h2]

/-! ## The mantissa -/

/-- A text is its leading digits and a rest that starts with none. -/
theorem exists_leadingDigits (s : List Char) :
    ∃ run rest, s = run ++ rest ∧ (∀ c ∈ run, isDecimal c = true) ∧
      ∀ c ∈ rest.head?, isDecimal c = false := by
  refine ⟨s.takeWhile isDecimal, s.dropWhile isDecimal, List.takeWhile_append_dropWhile.symm,
    fun c hc => List.mem_takeWhile_imp hc, ?_⟩
  intro c hc
  have h := List.head?_dropWhile_not isDecimal s
  rw [Option.mem_def.mp hc] at h
  simpa using h

section Mantissa

variable {run rest : List Char} (hrun : ∀ c ∈ run, isDecimal c = true)
include hrun

theorem mantissaLength_point :
    mantissaLength (run ++ '.' :: rest) =
      if run.length = 0 ∧ (rest.takeWhile isDecimal).length = 0 then 0
      else run.length + 1 + (rest.takeWhile isDecimal).length := by
  have htake : (run ++ '.' :: rest).takeWhile isDecimal = run :=
    takeWhile_append_stop hrun (by simp; decide)
  simp only [mantissaLength, htake, List.drop_left]

theorem mantissaLength_noPoint (hdigit : ∀ c ∈ rest.head?, isDecimal c = false)
    (hpoint : ∀ c ∈ rest.head?, c ≠ '.') : mantissaLength (run ++ rest) = run.length := by
  have htake : (run ++ rest).takeWhile isDecimal = run := takeWhile_append_stop hrun hdigit
  simp only [mantissaLength, htake, List.drop_left]
  split
  · exact absurd rfl (hpoint '.' rfl)
  · rfl

end Mantissa

theorem mantissaLength_le (s : List Char) : mantissaLength s ≤ s.length := by
  obtain ⟨run, rest, rfl, hrun, hstop⟩ := exists_leadingDigits s
  by_cases hpoint : ∃ fraction, rest = '.' :: fraction
  · obtain ⟨fraction, rfl⟩ := hpoint
    have hfraction := length_takeWhile_le isDecimal fraction
    rw [mantissaLength_point hrun, List.length_append, List.length_cons]
    split <;> omega
  · rw [mantissaLength_noPoint hrun hstop, List.length_append]
    · omega
    · rintro c hc rfl
      exact hpoint ⟨rest.tail, List.eq_cons_of_mem_head? hc⟩

theorem take_mantissaLength {s : List Char} (h : mantissaLength s ≠ 0) :
    s.take (mantissaLength s) ∈ mantissaPattern := by
  obtain ⟨run, rest, rfl, hrun, hstop⟩ := exists_leadingDigits s
  by_cases hpoint : ∃ fraction, rest = '.' :: fraction
  · obtain ⟨fraction, rfl⟩ := hpoint
    rw [mantissaLength_point hrun] at h ⊢
    split at h
    · exact absurd rfl h
    · rename_i hne
      rw [if_neg hne]
      refine mem_mantissaPattern.mpr (Or.inr ⟨run, fraction.takeWhile isDecimal, ?_, ?_, ?_⟩)
      · rw [Nat.add_assoc, List.take_length_add_append, Nat.add_comm, List.take_succ_cons,
          take_takeWhile_length]
      · intro c hc
        rcases List.mem_append.mp hc with hc | hc
        · exact hrun c hc
        · exact List.mem_takeWhile_imp hc
      · intro hnil
        obtain ⟨h1, h2⟩ := List.append_eq_nil_iff.mp hnil
        exact hne ⟨by simp [h1], by simp [h2]⟩
  · have hno : ∀ c ∈ rest.head?, c ≠ '.' := by
      rintro c hc rfl
      exact hpoint ⟨rest.tail, List.eq_cons_of_mem_head? hc⟩
    rw [mantissaLength_noPoint hrun hstop hno] at h ⊢
    rw [List.take_left]
    exact mem_mantissaPattern.mpr (Or.inl (mem_digits.mpr ⟨by simpa using h, hrun⟩))

theorem mantissaLength_append {mantissa rest : List Char} (hm : mantissa ∈ mantissaPattern)
    (hdigit : ∀ c ∈ rest.head?, isDecimal c = false) (hpoint : ∀ c ∈ rest.head?, c ≠ '.') :
    mantissaLength (mantissa ++ rest) = mantissa.length ∧ mantissa ≠ [] := by
  rcases mem_mantissaPattern.mp hm with hds | ⟨whole, fraction, rfl, hall, hne⟩
  · obtain ⟨hne, hall⟩ := mem_digits.mp hds
    exact ⟨mantissaLength_noPoint hall hdigit hpoint, hne⟩
  · have hwhole : ∀ c ∈ whole, isDecimal c = true :=
      fun c hc => hall c (List.mem_append_left _ hc)
    have hfraction : (fraction ++ rest).takeWhile isDecimal = fraction :=
      takeWhile_append_stop (fun c hc => hall c (List.mem_append_right _ hc)) hdigit
    refine ⟨?_, by simp⟩
    rw [List.append_assoc, List.cons_append, mantissaLength_point hwhole, hfraction, if_neg]
    · simp only [List.length_append, List.length_cons]
      omega
    · rintro ⟨h1, h2⟩
      exact hne (by simp [List.length_eq_zero_iff.mp h1, List.length_eq_zero_iff.mp h2])

/-! ## Numerals -/

theorem numeralLength_le (s : List Char) : numeralLength s ≤ s.length := by
  have hm := mantissaLength_le s
  have he := exponentLength_le (s.drop (mantissaLength s))
  rw [List.length_drop] at he
  simp only [numeralLength]
  split <;> omega

/-- What is found as a numeral is one. -/
theorem take_numeralLength {s : List Char} (h : numeralLength s ≠ 0) :
    s.take (numeralLength s) ∈ numberPattern := by
  have hm : mantissaLength s ≠ 0 := by
    intro hm
    simp [numeralLength, hm] at h
  rw [numberPattern, Language.mem_mul]
  refine ⟨_, take_mantissaLength hm,
    (s.drop (mantissaLength s)).take (exponentLength (s.drop (mantissaLength s))), ?_, ?_⟩
  · rw [mem_optional]
    by_cases he : exponentLength (s.drop (mantissaLength s)) = 0
    · exact Or.inl (by rw [he, List.take_zero])
    · exact Or.inr (take_exponentLength he)
  · simp only [numeralLength, hm, if_false, List.take_add]

/-- The mantissa ends at the mark of the power, which is neither a digit nor a point. -/
theorem mantissaLength_before_power {mantissa power : List Char} (hm : mantissa ∈ mantissaPattern)
    (hpower : power ∈ powerPattern) (rest : List Char) :
    mantissaLength (mantissa ++ (power ++ rest)) = mantissa.length ∧ mantissa ≠ [] := by
  obtain ⟨mark, sign, ds, rfl, hmark, -⟩ := mem_powerPattern.mp hpower
  apply mantissaLength_append hm
  · intro c hc
    obtain rfl : mark = c := by simpa using hc
    rcases hmark with rfl | rfl <;> decide
  · intro c hc
    obtain rfl : mark = c := by simpa using hc
    rcases hmark with rfl | rfl <;> decide

/-- A numeral is found whole when no digit, point or power of ten follows. -/
theorem numeralLength_append {s rest : List Char} (hs : s ∈ numberPattern)
    (hrest : ∀ c ∈ rest.head?, isDecimal c = false ∧ c ≠ '.' ∧ c ≠ 'e' ∧ c ≠ 'E') :
    numeralLength (s ++ rest) = s.length ∧ s ≠ [] := by
  obtain ⟨mantissa, hm, power, hpower, rfl⟩ := Language.mem_mul.mp hs
  rcases mem_optional.mp hpower with rfl | hpower
  · obtain ⟨hlen, hne⟩ := mantissaLength_append hm (fun c hc => (hrest c hc).1)
      (fun c hc => (hrest c hc).2.1)
    have hpos : mantissa.length ≠ 0 := by simpa using hne
    rw [List.append_nil]
    refine ⟨?_, hne⟩
    simp only [numeralLength, hlen, hpos, if_false, List.drop_left]
    rw [exponentLength_eq_zero fun c hc => (hrest c hc).2.2, Nat.add_zero]
  · obtain ⟨hlen, hne⟩ := mantissaLength_before_power hm hpower rest
    have hpos : mantissa.length ≠ 0 := by simpa using hne
    refine ⟨?_, by simp [hne]⟩
    rw [List.append_assoc]
    simp only [numeralLength, hlen, hpos, if_false, List.drop_left, List.length_append]
    rw [exponentLength_append hpower fun c hc => (hrest c hc).1]

theorem le_takeWhile_append {p : Char → Bool} {run : List Char} (hrun : ∀ c ∈ run, p c = true)
    (rest : List Char) : run.length ≤ ((run ++ rest).takeWhile p).length := by
  rw [List.takeWhile_append_of_pos hrun, List.length_append]
  exact Nat.le_add_right _ _

/-- However the text goes on behind a mantissa, one at least as long is found. -/
theorem le_mantissaLength {mantissa : List Char} (hm : mantissa ∈ mantissaPattern)
    (rest : List Char) : mantissa.length ≤ mantissaLength (mantissa ++ rest) := by
  rcases mem_mantissaPattern.mp hm with hds | ⟨whole, fraction, rfl, hall, hne⟩
  · obtain ⟨hne, hall⟩ := mem_digits.mp hds
    have hwhole := le_takeWhile_append hall rest
    simp only [mantissaLength]
    split
    · split <;> omega
    · exact hwhole
  · have hwhole : ∀ c ∈ whole, isDecimal c = true := fun c hc => hall c (List.mem_append_left _ hc)
    have hfraction : ∀ c ∈ fraction, isDecimal c = true :=
      fun c hc => hall c (List.mem_append_right _ hc)
    have hrun := le_takeWhile_append hfraction rest
    rw [List.append_assoc, List.cons_append, mantissaLength_point hwhole]
    have hpos : whole.length + fraction.length ≠ 0 := by simpa [List.length_append] using hne
    rw [if_neg (by omega), List.length_append, List.length_cons]
    omega

/-- However the text goes on behind a power of ten, one at least as long is found. -/
theorem le_exponentLength {power : List Char} (hpower : power ∈ powerPattern) (rest : List Char) :
    power.length ≤ exponentLength (power ++ rest) := by
  obtain ⟨run, behind, rfl, hrun, hstop⟩ := exists_leadingDigits rest
  obtain ⟨mark, sign, ds, rfl, hmark, hsign, hds⟩ := mem_powerPattern.mp hpower
  -- The power with the digits behind it is a power of ten too, and that one is found whole.
  have hlonger : mark :: (sign ++ (ds ++ run)) ∈ powerPattern := by
    obtain ⟨hne, hall⟩ := mem_digits.mp hds
    refine mem_powerPattern.mpr ⟨mark, sign, ds ++ run, rfl, hmark, hsign, mem_digits.mpr ⟨?_, ?_⟩⟩
    · simp [hne]
    · simpa [or_imp, forall_and] using ⟨hall, hrun⟩
  have hfound := exponentLength_append hlonger hstop
  have htext : mark :: (sign ++ ds) ++ (run ++ behind) =
      mark :: (sign ++ (ds ++ run)) ++ behind := by
    simp
  rw [htext, hfound]
  simp

/-- However the text goes on behind a numeral, one at least as long is found. -/
theorem le_numeralLength {s : List Char} (hs : s ∈ numberPattern) (rest : List Char) :
    0 < s.length ∧ s.length ≤ numeralLength (s ++ rest) := by
  obtain ⟨mantissa, hm, power, hpower, rfl⟩ := Language.mem_mul.mp hs
  have hmantissa := le_mantissaLength hm (power ++ rest)
  have hpos : 0 < mantissa.length := by
    obtain ⟨-, hne⟩ := @mantissaLength_append mantissa [] hm (by simp) (by simp)
    exact List.length_pos_iff.mpr hne
  have hfound : mantissaLength (mantissa ++ (power ++ rest)) ≠ 0 := by omega
  rw [List.append_assoc]
  simp only [numeralLength, hfound, if_false, List.length_append]
  rcases mem_optional.mp hpower with rfl | hpower
  · rw [List.length_nil]
    omega
  · have hexponent := le_exponentLength hpower rest
    rw [(mantissaLength_before_power hm hpower rest).1, List.drop_left]
    omega

end LineBasic.Grammar
