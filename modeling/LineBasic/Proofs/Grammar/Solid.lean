/-
  LineBasic.Proofs.Grammar.Solid

  Where blanks can stand in a text that is cut into lexemes: between them, and inside quoted text.
  No other lexeme has a blank in it, and quoted text that is closed ends in its mark; so a text can
  be cut at a gap, and the gap at its end can be taken off, without touching a lexeme.
-/
import LineBasic.Proofs.Text.Integer
import LineBasic.Proofs.Text.Trim

namespace LineBasic.Grammar

open Text

/-! ## Patterns without blanks -/

/-- No character of a numeral is a blank. -/
theorem isBlank_of_mem_number {s : List Char} (h : s ∈ numberPattern) :
    ∀ c ∈ s, isBlank c = false := by
  have hdigits : ∀ {s : List Char}, s ∈ digits → ∀ c ∈ s, isBlank c = false :=
    fun hs c hc => isBlank_of_isDecimal ((mem_digits.mp hs).2 c hc)
  have hmantissa : ∀ {s : List Char}, s ∈ mantissaPattern → ∀ c ∈ s, isBlank c = false := by
    intro s hs
    rcases mem_mantissaPattern.mp hs with hs | ⟨whole, fraction, rfl, hall, -⟩
    · exact hdigits hs
    · simp only [List.mem_append, or_imp, forall_and] at hall
      intro c hc
      rcases List.mem_append.mp hc with hc | hc
      · exact isBlank_of_isDecimal (hall.1 c hc)
      · rcases List.mem_cons.mp hc with rfl | hc
        · rfl
        · exact isBlank_of_isDecimal (hall.2 c hc)
  have hpower : ∀ {s : List Char}, s ∈ powerPattern → ∀ c ∈ s, isBlank c = false := by
    intro s hs
    obtain ⟨mark, sign, power, rfl, hmark, hsign, hpower⟩ := mem_powerPattern.mp hs
    intro c hc
    rcases List.mem_cons.mp hc with rfl | hc
    · rcases hmark with rfl | rfl <;> rfl
    · rcases List.mem_append.mp hc with hc | hc
      · rcases hsign with rfl | rfl | rfl
        · simp at hc
        · obtain rfl := List.mem_singleton.mp hc
          rfl
        · obtain rfl := List.mem_singleton.mp hc
          rfl
      · exact hdigits hpower c hc
  obtain ⟨mantissa, hm, power, hp, rfl⟩ := Language.mem_mul.mp h
  intro c hc
  rcases List.mem_append.mp hc with hc | hc
  · exact hmantissa hm c hc
  · rcases mem_optional.mp hp with rfl | hp
    · simp at hc
    · exact hpower hp c hc

theorem ne_nil_of_mem_number {s : List Char} (h : s ∈ numberPattern) : s ≠ [] := by
  obtain ⟨mantissa, hm, power, -, rfl⟩ := Language.mem_mul.mp h
  rcases mem_mantissaPattern.mp hm with hm | ⟨whole, fraction, rfl, -, -⟩
  · simp [(mem_digits.mp hm).1]
  · simp

/-- No character of a name is a blank. -/
theorem isBlank_of_mem_name {s : List Char} (h : s ∈ namePattern) :
    ∀ c ∈ s, isBlank c = false := by
  have hdigit : ∀ {d : Char}, d.isDigit = true → isBlank d = false :=
    fun hd => isBlank_of_isDecimal (isDecimal_ascii hd)
  have hletter : ∀ {c : Char}, c.isAlpha = true → isBlank c = false := by
    intro c hc
    have hrange : 0x41 ≤ c.toNat ∧ c.toNat ≤ 0x7A := by
      have hsome := letter?_isSome_iff.mpr hc
      grind [Name.letter?]
    by_contra hblank
    obtain ⟨⟨lo, hi⟩, hmem, hin⟩ := List.any_eq_true.mp (Bool.eq_true_of_not_eq_false hblank)
    -- The letters lie between two ranges of blanks.
    have hapart : ∀ range ∈ blankRanges, range.2 < 0x41 ∨ 0x7A < range.1 := by decide
    have hbetween := hapart _ hmem
    simp only [Bool.and_eq_true, decide_eq_true_eq] at hin
    omega
  obtain ⟨c, hc, rfl | ⟨d, hd, rfl⟩⟩ := mem_namePattern.mp h
  · simpa using hletter hc
  · simpa using ⟨hletter hc, hdigit hd⟩

/-- No form of a letter is a blank when neither the letter nor its small form is. -/
theorem isBlank_of_isKeywordLetter {letter c : Char} (hc : isKeywordLetter letter c = true)
    (hletter : isBlank letter = false) (hlower : isBlank letter.toLower = false) :
    isBlank c = false := by
  have hcode : ∀ {c : Char}, c.toNat = 0x130 ∨ c.toNat = 0x131 ∨ c.toNat = 0x17F →
      isBlank c = false := by
    rintro c (h | h | h) <;> simp [isBlank, inRanges, blankRanges, h]
  simp only [isKeywordLetter, Bool.or_eq_true, Bool.and_eq_true, beq_iff_eq] at hc
  rcases hc with ((rfl | rfl) | ⟨-, h | h⟩) | ⟨-, h⟩
  · exact hletter
  · exact hlower
  · exact hcode (Or.inl h)
  · exact hcode (Or.inr (Or.inl h))
  · exact hcode (Or.inr (Or.inr h))

theorem isBlank_of_mem_word {word s : List Char}
    (hword : word.all (fun letter => !isBlank letter && !isBlank letter.toLower) = true)
    (h : List.Forall₂ (fun letter c => isKeywordLetter letter c = true) word s) :
    ∀ c ∈ s, isBlank c = false := by
  induction h with
  | nil => simp
  | cons hc _ ih =>
      simp only [List.all_cons, Bool.and_eq_true, Bool.not_eq_true'] at hword
      obtain ⟨⟨hletter, hlower⟩, hrest⟩ := hword
      simp only [List.mem_cons, forall_eq_or_imp]
      exact ⟨isBlank_of_isKeywordLetter hc hletter hlower, ih hrest⟩

/-! ## Lexemes without blanks -/

theorem isBlank_of_isGap {c : Char} (h : isGap c = true) : isBlank c = true := by
  simp only [isGap, Bool.or_eq_true, beq_iff_eq] at h
  rcases h with rfl | rfl <;> rfl

/-- Only quoted text has blanks in it. -/
theorem Lexeme.isBlank_of_mem {x : Lexeme} {e : Expecting} {t : Token} (hx : x.Matches)
    (ht : x.ReadAs e t) (hstring : x.terminal ≠ .STRING) : ∀ c ∈ x.chars, isBlank c = false := by
  have hsymbol : ∀ {symbol : String}, x.terminal = .symbol symbol →
      symbol.toList.all (!isBlank ·) = true → ∀ c ∈ x.chars, isBlank c = false := by
    intro symbol hterminal hall c hc
    rw [chars_of_symbol hx hterminal] at hc
    simpa using List.all_eq_true.mp hall c hc
  cases ht with
  | @opening kind _ hterminal =>
      refine isBlank_of_mem_word ?_ (chars_of_word hx hterminal)
      cases kind <;> decide
  | name hterminal =>
      rw [Matches, hterminal] at hx
      exact isBlank_of_mem_name hx
  | numeral hterminal =>
      rw [Matches, hterminal] at hx
      exact isBlank_of_mem_number hx
  | text hterminal => exact absurd hterminal hstring
  | plus hterminal => exact hsymbol hterminal (by decide)
  | minus hterminal => exact hsymbol hterminal (by decide)
  | openOperand hterminal => exact hsymbol hterminal (by decide)
  | @operator op hterminal => exact hsymbol hterminal (by cases op <;> decide)
  | @relation relation hterminal => exact hsymbol hterminal (by cases relation <;> decide)
  | @joint joint letters hletters hterminal =>
      have hforall := chars_of_word hx hterminal
      rw [hletters] at hforall
      exact isBlank_of_mem_word (by cases joint <;> decide) hforall
  | openOperator hterminal => exact hsymbol hterminal (by decide)
  | close hterminal => exact hsymbol hterminal (by decide)
  | comma hterminal => exact hsymbol hterminal (by decide)
  | becomes hterminal => exact hsymbol hterminal (by decide)
  | openBinding hterminal => exact hsymbol hterminal (by decide)
  | lineNumber hterminal =>
      rw [Matches, hterminal] at hx
      exact fun c hc => isBlank_of_isDecimal ((mem_digits.mp hx).2 c hc)

end LineBasic.Grammar
