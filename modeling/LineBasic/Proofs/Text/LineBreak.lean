/-
  LineBasic.Proofs.Text.LineBreak

  The lines of a text hold no line break, and lines without one, each ended by a line feed, are
  found again. Reading a file leaves a text alone that has no carriage return.
-/
import LineBasic.Text.Blank
import LineBasic.Text.LineBreak

namespace LineBasic.Text

/-- No line can be broken at one of the characters. -/
def Unbroken (s : List Char) : Prop :=
  ∀ c ∈ s, isLineBreak c = false

theorem isBlank_of_isLineBreak {c : Char} (h : isLineBreak c = true) : isBlank c = true := by
  simp only [isLineBreak, Bool.or_eq_true, Bool.and_eq_true, decide_eq_true_eq, beq_iff_eq] at h
  simp only [isBlank, inRanges, blankRanges, List.any_cons, List.any_nil, Bool.or_eq_true,
    Bool.and_eq_true, decide_eq_true_eq]
  omega

theorem unbroken_nil : Unbroken [] := by
  simp [Unbroken]

theorem unbroken_cons {c : Char} {s : List Char} :
    Unbroken (c :: s) ↔ isLineBreak c = false ∧ Unbroken s := by
  simp [Unbroken]

theorem unbroken_append {s t : List Char} : Unbroken (s ++ t) ↔ Unbroken s ∧ Unbroken t := by
  simp [Unbroken, or_imp, forall_and]

theorem unbroken_of_all {s : List Char} (h : s.all (!isLineBreak ·) = true) : Unbroken s := by
  intro c hc
  simpa using List.all_eq_true.mp h c hc

theorem Unbroken.reverse {s : List Char} (h : Unbroken s) : Unbroken s.reverse := by
  simpa [Unbroken] using h

/-- A text without blanks has no line break. -/
theorem unbroken_of_not_isBlank {s : List Char} (h : ∀ c ∈ s, isBlank c = false) : Unbroken s := by
  intro c hc
  cases hbreak : isLineBreak c with
  | false => rfl
  | true =>
      have hblank := isBlank_of_isLineBreak hbreak
      rw [h c hc] at hblank
      simp at hblank

/-! ## Cutting a text into lines -/

theorem splitLinesFrom_cons_break {c : Char} {pending rest : List Char}
    (hc : isLineBreak c = true) (hfeed : c ≠ '\r') :
    splitLinesFrom pending (c :: rest) = pending.reverse :: splitLinesFrom [] rest := by
  rw [splitLinesFrom]
  · simp [hc]
  · rintro tail rfl
    exact fun _ => hfeed rfl

/-- A character that breaks no line is added to the line that is open. -/
theorem splitLinesFrom_cons {c : Char} {pending rest : List Char} (hc : isLineBreak c = false) :
    splitLinesFrom pending (c :: rest) = splitLinesFrom (c :: pending) rest := by
  rw [splitLinesFrom]
  · simp [hc]
  · rintro tail rfl
    exact absurd hc (by decide)

theorem unbroken_of_mem_splitLinesFrom {pending s line : List Char} (hpending : Unbroken pending)
    (h : line ∈ splitLinesFrom pending s) : Unbroken line := by
  -- Over the cutting itself: what is open holds no break, and becomes a line as it is.
  fun_induction splitLinesFrom pending s with
  | case1 pending hempty => simp at h
  | case2 pending hempty =>
      obtain rfl := List.mem_singleton.mp h
      exact hpending.reverse
  | case3 pending rest ih =>
      rcases List.mem_cons.mp h with rfl | h
      · exact hpending.reverse
      · exact ih unbroken_nil h
  | case4 pending c rest hno hc ih =>
      rcases List.mem_cons.mp h with rfl | h
      · exact hpending.reverse
      · exact ih unbroken_nil h
  | case5 pending c rest hno hc ih =>
      exact ih (unbroken_cons.mpr ⟨Bool.eq_false_iff.mpr hc, hpending⟩) h

/-- A line of a text holds no line break. -/
theorem unbroken_of_mem_splitLines {s line : List Char} (h : line ∈ splitLines s) :
    Unbroken line :=
  unbroken_of_mem_splitLinesFrom unbroken_nil h

theorem splitLinesFrom_line {line pending rest : List Char} (h : Unbroken line) :
    splitLinesFrom pending (line ++ '\n' :: rest) =
      (pending.reverse ++ line) :: splitLinesFrom [] rest := by
  induction line generalizing pending with
  | nil => rw [List.nil_append, splitLinesFrom_cons_break (by decide) (by decide), List.append_nil]
  | cons c line ih =>
      obtain ⟨hc, hline⟩ := unbroken_cons.mp h
      rw [List.cons_append, splitLinesFrom_cons hc, ih hline, List.reverse_cons, List.append_assoc,
        List.singleton_append]

/-- Unbroken lines, each ended by a line feed, are the lines of the text that they make. -/
theorem splitLines_flatMap {lines : List (List Char)} (h : ∀ line ∈ lines, Unbroken line) :
    splitLines (lines.flatMap (· ++ ['\n'])) = lines := by
  induction lines with
  | nil => rfl
  | cons line lines ih =>
      simp only [List.mem_cons, forall_eq_or_imp] at h
      rw [List.flatMap_cons, List.append_assoc, List.singleton_append, splitLines,
        splitLinesFrom_line h.1, List.reverse_nil, List.nil_append]
      exact congrArg _ (ih h.2)

/-! ## Carriage returns -/

theorem unifyNewlinesFrom_eq {done s : List Char} (h : '\r' ∉ s) :
    unifyNewlinesFrom done s = done.reverse ++ s := by
  induction s generalizing done with
  | nil => simp [unifyNewlinesFrom]
  | cons c rest ih =>
      simp only [List.mem_cons, not_or] at h
      rw [unifyNewlinesFrom, if_neg (Ne.symm h.1), ih h.2, List.reverse_cons, List.append_assoc,
        List.singleton_append]
      rintro tail rfl
      exact fun _ => h.1 rfl

/-- A text without carriage returns is read from a file as it is. -/
theorem unifyNewlines_eq_self {s : List Char} (h : '\r' ∉ s) : unifyNewlines s = s :=
  unifyNewlinesFrom_eq h

end LineBasic.Text
