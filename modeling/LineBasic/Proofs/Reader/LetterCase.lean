/-
  LineBasic.Proofs.Reader.LetterCase

  Small letters are read as capitals. Every class of characters that scanning asks for, and every
  mark that it looks for, is the same for a letter in either case; so a text in capitals is cut into
  the same tokens, and reading it goes through the same states (`Recast.capitals_faithful`).

  The case of a letter matters in quoted text only, which is part of the token.
-/
import LineBasic.Proofs.Grammar.Scan
import LineBasic.Proofs.Reader.Recast

namespace LineBasic

/-! ## Characters -/

/-- The letters that have a capital. -/
def smallLetters : List Char := "abcdefghijklmnopqrstuvwxyz".toList

theorem toUpper_eq_self_or_mem (c : Char) : c.toUpper = c ∨ c ∈ smallLetters := by
  by_cases hc : 'a'.val ≤ c.val ∧ c.val ≤ 'z'.val
  · have hall : ∀ n ≤ 'z'.toNat, 'a'.toNat ≤ n → Char.ofNat n ∈ smallLetters := by decide
    exact .inr (Char.ofNat_toNat c ▸ hall c.toNat hc.2 hc.1)
  · exact .inl (dif_neg hc)

/-- What small letters and their capitals have in common, a character and its capital have. -/
theorem apply_toUpper {α : Type} (f : Char → α)
    (h : (smallLetters.map fun c => f c.toUpper) = smallLetters.map f) (c : Char) :
    f c.toUpper = f c := by
  rcases toUpper_eq_self_or_mem c with hself | hsmall
  · rw [hself]
  · exact List.map_inj_left.mp h c hsmall

theorem isGap_toUpper : ∀ c : Char, isGap c.toUpper = isGap c :=
  apply_toUpper isGap (by decide)

theorem isBlank_toUpper : ∀ c : Char, Text.isBlank c.toUpper = Text.isBlank c :=
  apply_toUpper Text.isBlank (by decide)

theorem letter?_toUpper : ∀ c : Char, Name.letter? c.toUpper = Name.letter? c :=
  apply_toUpper Name.letter? (by decide)

theorem digit?_toUpper : ∀ c : Char, Name.digit? c.toUpper = Name.digit? c :=
  apply_toUpper Name.digit? (by decide)

theorem decimalValue?_toUpper : ∀ c : Char, Text.decimalValue? c.toUpper = Text.decimalValue? c :=
  apply_toUpper Text.decimalValue? (by decide +kernel)

theorem isDecimal_toUpper (c : Char) : Text.isDecimal c.toUpper = Text.isDecimal c := by
  rw [Text.isDecimal, Text.isDecimal, decimalValue?_toUpper]

/-- Digits have no case: those of ASCII come before the letters, and those of other scripts far
    behind them. -/
theorem toUpper_of_isDecimal {c : Char} (h : Text.isDecimal c = true) : c.toUpper = c := by
  have hrange := Grammar.isDecimal_toNat h
  refine dif_neg fun hsmall => ?_
  have hlow : 0x61 ≤ c.toNat := hsmall.1
  have hhigh : c.toNat ≤ 0x7A := hsmall.2
  omega

/-- The characters of the grammar that are neither letters nor digits. -/
def marks : List Char :=
  ['<', '>', '=', '+', '-', '*', '/', '(', ')', ',', '.', '"', '\'']

theorem beq_mark_toUpper {mark : Char} (h : mark ∈ marks) :
    ∀ c : Char, (c.toUpper == mark) = (c == mark) := by
  have hall : marks.all (fun mark =>
      (smallLetters.map fun c => c.toUpper == mark) == smallLetters.map (· == mark)) = true := by
    decide +kernel
  exact apply_toUpper (· == mark) (eq_of_beq (List.all_eq_true.mp hall mark h))

theorem toUpper_eq_mark_iff {mark : Char} (h : mark ∈ marks) (c : Char) :
    c.toUpper = mark ↔ c = mark := by
  rw [← beq_iff_eq, beq_mark_toUpper h, beq_iff_eq]

theorem toUpper_of_mem_marks {c : Char} (h : c ∈ marks) : c.toUpper = c :=
  (toUpper_eq_mark_iff h c).mpr rfl

theorem toUpper_mem_iff {m : List Char} (h : m ⊆ marks) (c : Char) : c.toUpper ∈ m ↔ c ∈ m := by
  refine ⟨fun hc => ?_, fun hc => ?_⟩
  · exact (toUpper_eq_mark_iff (h hc) c).mp rfl ▸ hc
  · rwa [toUpper_of_mem_marks (h hc)]

/-! ## Words -/

/-- The letters that words of the grammar are written with. -/
def capitalLetters : List Char := smallLetters.map Char.toUpper

theorem isKeywordLetter_toUpper {letter : Char} (h : letter ∈ capitalLetters) :
    ∀ c : Char, isKeywordLetter letter c.toUpper = isKeywordLetter letter c := by
  have hall : capitalLetters.all (fun letter =>
      (smallLetters.map fun c => isKeywordLetter letter c.toUpper) ==
        smallLetters.map (isKeywordLetter letter)) = true := by decide +kernel
  exact apply_toUpper (isKeywordLetter letter) (eq_of_beq (List.all_eq_true.mp hall letter h))

theorem afterWord?_map_toUpper {word : List Char} (h : word ⊆ capitalLetters) (s : List Char) :
    afterWord? word (s.map Char.toUpper) = (afterWord? word s).map (List.map Char.toUpper) := by
  induction word generalizing s with
  | nil => rfl
  | cons letter word ih =>
      rw [List.cons_subset] at h
      cases s with
      | nil => rfl
      | cons c rest =>
          simp only [List.map_cons, afterWord?, isKeywordLetter_toUpper h.1]
          split
          · exact ih h.2 rest
          · rfl

theorem Kind.keyword_capitals (kind : Kind) : kind.keyword ⊆ capitalLetters := by
  cases kind <;> decide

theorem Joint.word_capitals (joint : Joint) : joint.word ⊆ capitalLetters := by
  cases joint <;> decide

/-! ## Names and numerals -/

theorem scan?_name_map_toUpper (s : List Char) :
    Name.scan? (s.map Char.toUpper) = Name.scan? s := by
  cases s with
  | nil => rfl
  | cons c rest =>
      have hnext :
          (rest.map Char.toUpper).head?.bind Name.digit? = rest.head?.bind Name.digit? := by
        cases rest with
        | nil => rfl
        | cons d rest => exact digit?_toUpper d
      simp only [List.map_cons, Name.scan?, letter?_toUpper, hnext]

theorem takeWhile_map_toUpper {p : Char → Bool} (hp : ∀ c : Char, p c.toUpper = p c)
    (s : List Char) : (s.map Char.toUpper).takeWhile p = (s.takeWhile p).map Char.toUpper := by
  rw [List.takeWhile_map]
  exact congrArg (fun q => (s.takeWhile q).map Char.toUpper) (funext hp)

theorem dropWhile_map_toUpper {p : Char → Bool} (hp : ∀ c : Char, p c.toUpper = p c)
    (s : List Char) : (s.map Char.toUpper).dropWhile p = (s.dropWhile p).map Char.toUpper := by
  rw [List.dropWhile_map]
  exact congrArg (fun q => (s.dropWhile q).map Char.toUpper) (funext hp)

theorem takeWhile_isDecimal_map_toUpper (s : List Char) :
    (s.map Char.toUpper).takeWhile Text.isDecimal = s.takeWhile Text.isDecimal := by
  rw [takeWhile_map_toUpper isDecimal_toUpper]
  refine (List.map_congr_left fun c hc => ?_).trans (List.map_id _)
  exact toUpper_of_isDecimal (List.mem_takeWhile_imp hc)

namespace Number

/-- Both letters that stand before a power of ten stay such. -/
theorem powerLetter_toUpper (c : Char) :
    (c.toUpper = 'e' ∨ c.toUpper = 'E') ↔ (c = 'e' ∨ c = 'E') :=
  decide_eq_decide.mp (apply_toUpper (fun c => decide (c = 'e' ∨ c = 'E')) (by decide) c)

theorem exponentLength_map_toUpper (s : List Char) :
    exponentLength (s.map Char.toUpper) = exponentLength s := by
  have hsign (c : Char) : (c.toUpper = '+' ∨ c.toUpper = '-') ↔ (c = '+' ∨ c = '-') := by
    rw [toUpper_eq_mark_iff (by decide), toUpper_eq_mark_iff (by decide)]
  cases s with
  | nil => rfl
  | cons c rest =>
      cases rest with
      | nil => simp only [List.map_cons, List.map_nil, exponentLength, powerLetter_toUpper]
      | cons d digits =>
          have hrest := takeWhile_isDecimal_map_toUpper (d :: digits)
          rw [List.map_cons] at hrest
          simp only [List.map_cons, exponentLength, powerLetter_toUpper, hsign, hrest,
            takeWhile_isDecimal_map_toUpper]

theorem mantissaLength_map_toUpper (s : List Char) :
    mantissaLength (s.map Char.toUpper) = mantissaLength s := by
  simp only [mantissaLength, takeWhile_isDecimal_map_toUpper, ← List.map_drop]
  cases s.drop (s.takeWhile Text.isDecimal).length with
  | nil => rfl
  | cons c rest =>
      by_cases hc : c = '.'
      · subst hc
        simp only [List.map_cons, show Char.toUpper '.' = '.' from rfl,
          takeWhile_isDecimal_map_toUpper]
      · have hne := mt (toUpper_eq_mark_iff (by decide) c).mp hc
        simp [hc, hne]

theorem numeralLength_map_toUpper (s : List Char) :
    numeralLength (s.map Char.toUpper) = numeralLength s := by
  simp only [numeralLength, mantissaLength_map_toUpper, ← List.map_drop, exponentLength_map_toUpper]

theorem decimalValue_map_toUpper (s : List Char) :
    Text.decimalValue (s.map Char.toUpper) = Text.decimalValue s := by
  simp only [Text.decimalValue, List.foldl_map, decimalValue?_toUpper]

theorem numeralValue_map_toUpper (s : List Char) :
    numeralValue (s.map Char.toUpper) = numeralValue s := by
  have hletter := apply_toUpper (fun c => !(c == 'e' || c == 'E')) (by decide)
  have hpoint := apply_toUpper (· != '.') (by decide)
  simp only [numeralValue, takeWhile_map_toUpper (p := fun c => !(c == 'e' || c == 'E')) hletter,
    dropWhile_map_toUpper (p := fun c => !(c == 'e' || c == 'E')) hletter,
    takeWhile_map_toUpper (p := (· != '.')) hpoint, dropWhile_map_toUpper (p := (· != '.')) hpoint,
    ← List.map_drop, List.length_map, ← List.map_append, decimalValue_map_toUpper]
  -- What is left is the power, whose sign is a mark.
  cases (s.dropWhile fun c => !(c == 'e' || c == 'E')).drop 1 with
  | nil => rfl
  | cons c digits =>
      by_cases hminus : c = '-'
      · subst hminus
        simp only [List.map_cons, show Char.toUpper '-' = '-' from rfl, decimalValue_map_toUpper]
      by_cases hplus : c = '+'
      · subst hplus
        simp only [List.map_cons, show Char.toUpper '+' = '+' from rfl, decimalValue_map_toUpper]
      have hdigits := decimalValue_map_toUpper (c :: digits)
      rw [List.map_cons] at hdigits
      have hminus' := mt (toUpper_eq_mark_iff (by decide) c).mp hminus
      have hplus' := mt (toUpper_eq_mark_iff (by decide) c).mp hplus
      simp [hminus, hplus, hminus', hplus', hdigits]

end Number

/-! ## Tokens -/

/-- The same text in capitals. -/
def Recast.capitals : Recast where
  char := Char.toUpper
  shift := 0

/-- A token and its length, in a text that is written in capitals. -/
def Token.inCapitals (front : Token × Nat) : Token × Nat :=
  (front.1.recast .capitals, front.2)

namespace Token

theorem scanText_map_toUpper {mark : Char} (h : mark ∈ marks) (rest : List Char) :
    scanText mark (rest.map Char.toUpper) = inCapitals (scanText mark rest) := by
  have hmark (c : Char) : (c.toUpper != mark) = (c != mark) :=
    congrArg (!·) (beq_mark_toUpper h c)
  simp only [scanText, takeWhile_map_toUpper (p := (· != mark)) hmark, List.length_map]
  rfl

theorem scanNumeral?_map_toUpper (s : List Char) :
    scanNumeral? (s.map Char.toUpper) = (scanNumeral? s).map inCapitals := by
  simp only [scanNumeral?, Number.numeralLength_map_toUpper, ← List.map_take]
  split <;> rfl

/-- The marks that an operand may open with. -/
def operandMarks : List Char := ['"', '\'', '(', '+', '-']

/-- Where no mark stands, an operand is a name or else a numeral. -/
theorem scanOperand?_of_notMem {c : Char} (hc : c ∉ operandMarks) (rest : List Char) :
    scanOperand? (c :: rest) = ((Name.scan? (c :: rest)).map fun n => (.name n.1, n.2)).or
      (scanNumeral? (c :: rest)) := by
  simp only [operandMarks, List.mem_cons, List.not_mem_nil, or_false, not_or] at hc
  cases hname : Name.scan? (c :: rest) <;> simp [scanOperand?, hc, hname]

theorem scanOperand?_map_toUpper (s : List Char) :
    scanOperand? (s.map Char.toUpper) = (scanOperand? s).map inCapitals := by
  cases s with
  | nil => rfl
  | cons c rest =>
      by_cases hc : c ∈ operandMarks
      · simp only [operandMarks, List.mem_cons, List.not_mem_nil, or_false] at hc
        rcases hc with rfl | rfl | rfl | rfl | rfl
        · exact congrArg some (scanText_map_toUpper (by decide) rest)
        · exact congrArg some (scanText_map_toUpper (by decide) rest)
        · rfl
        · rfl
        · rfl
      · have hc' := mt (toUpper_mem_iff (m := operandMarks) (by decide) c).mp hc
        have hname := scan?_name_map_toUpper (c :: rest)
        have hnumeral := scanNumeral?_map_toUpper (c :: rest)
        rw [List.map_cons] at hname hnumeral
        rw [List.map_cons, scanOperand?_of_notMem hc', scanOperand?_of_notMem hc, hname, hnumeral]
        cases Name.scan? (c :: rest) <;> rfl

theorem scanJoint?_map_toUpper (s : List Char) :
    scanJoint? (s.map Char.toUpper) = scanJoint? s := by
  simp only [scanJoint?, afterWord?_map_toUpper (Joint.word_capitals _), Option.map_map,
    Function.comp_def]

/-- The marks that may stand behind an operand. -/
def operatorMarks : List Char := ['<', '>', '=', '+', '-', '*', '/', '(', ')', ',']

theorem scanOperator?_of_notMem {c : Char} (hc : c ∉ operatorMarks) (rest : List Char) :
    scanOperator? (c :: rest) = scanJoint? (c :: rest) := by
  simp only [operatorMarks, List.mem_cons, List.not_mem_nil, or_false, not_or] at hc
  simp [scanOperator?, hc]

/-- What matters of the text behind a mark: the second sign of a relation, if it comes at once. -/
def relationTail (rest : List Char) : List Char :=
  (rest.take 1).filter (· ∈ ['=', '>'])

theorem scanOperator?_of_mem {c : Char} (hc : c ∈ operatorMarks) (rest : List Char) :
    scanOperator? (c :: rest) = scanOperator? (c :: relationTail rest) := by
  simp only [operatorMarks, List.mem_cons, List.not_mem_nil, or_false] at hc
  cases rest with
  | nil => rfl
  | cons d rest =>
      by_cases hd : d ∈ ['=', '>']
      · simp only [List.mem_cons, List.not_mem_nil, or_false] at hd
        rcases hd with rfl | rfl <;>
          rcases hc with rfl | rfl | rfl | rfl | rfl | rfl | rfl | rfl | rfl | rfl <;> rfl
      · -- No other character belongs to the sign.
        have htail : relationTail (d :: rest) = [] := by simpa [relationTail] using hd
        rw [htail]
        simp only [List.mem_cons, List.not_mem_nil, or_false, not_or] at hd
        rcases hc with rfl | rfl | rfl | rfl | rfl | rfl | rfl | rfl | rfl | rfl <;>
          simp [scanOperator?, hd]

theorem relationTail_map_toUpper (rest : List Char) :
    relationTail (rest.map Char.toUpper) = relationTail rest := by
  cases rest with
  | nil => rfl
  | cons d rest =>
      by_cases hd : d ∈ ['=', '>']
      · have hsubset : ['=', '>'] ⊆ marks := by decide
        simp only [relationTail, List.map_cons, toUpper_of_mem_marks (hsubset hd),
          List.take_succ_cons, List.take_zero]
      · have hd' := mt (toUpper_mem_iff (m := ['=', '>']) (by decide) d).mp hd
        simp only [relationTail, List.map_cons, List.take_succ_cons, List.take_zero,
          List.filter_cons, hd, hd', decide_false, Bool.false_eq_true, if_false, List.filter_nil]

theorem scanOperator?_map_toUpper (s : List Char) :
    scanOperator? (s.map Char.toUpper) = scanOperator? s := by
  cases s with
  | nil => rfl
  | cons c rest =>
      by_cases hc : c ∈ operatorMarks
      · have hsubset : operatorMarks ⊆ marks := by decide
        rw [List.map_cons, toUpper_of_mem_marks (hsubset hc), scanOperator?_of_mem hc,
          scanOperator?_of_mem hc rest, relationTail_map_toUpper]
      · have hc' := mt (toUpper_mem_iff (m := operatorMarks) (by decide) c).mp hc
        have hjoint := scanJoint?_map_toUpper (c :: rest)
        rw [List.map_cons] at hjoint
        rw [List.map_cons, scanOperator?_of_notMem hc', scanOperator?_of_notMem hc, hjoint]

theorem scanBinding?_map_toUpper (s : List Char) :
    scanBinding? (s.map Char.toUpper) = scanBinding? s := by
  cases s with
  | nil => rfl
  | cons c rest =>
      by_cases hc : c ∈ ['=', '(']
      · simp only [List.mem_cons, List.not_mem_nil, or_false] at hc
        rcases hc with rfl | rfl <;> rfl
      · have hc' := mt (toUpper_mem_iff (m := ['=', '(']) (by decide) c).mp hc
        simp only [List.mem_cons, List.not_mem_nil, or_false, not_or] at hc hc'
        simp [scanBinding?, hc, hc']

/-- A token behind an operand holds no text. -/
theorem map_inCapitals_scanOperator? (s : List Char) :
    (scanOperator? s).map inCapitals = scanOperator? s := by
  have hjoint : (scanJoint? s).map inCapitals = scanJoint? s := by
    cases h : scanJoint? s with
    | none => rfl
    | some front =>
        obtain ⟨t, size⟩ := front
        obtain ⟨joint, rfl, -⟩ := Grammar.exists_word_of_scanJoint? h
        rfl
  unfold scanOperator?
  split
  case h_15 => exact hjoint
  all_goals rfl

theorem map_inCapitals_scanBinding? (s : List Char) :
    (scanBinding? s).map inCapitals = scanBinding? s := by
  unfold scanBinding?
  split <;> rfl

theorem scanLineNumber?_map_toUpper (s : List Char) :
    scanLineNumber? (s.map Char.toUpper) = (scanLineNumber? s).map inCapitals := by
  simp only [scanLineNumber?, takeWhile_isDecimal_map_toUpper]
  split <;> rfl

theorem scan?_map_toUpper (e : Expecting) (s : List Char) :
    scan? e (s.map Char.toUpper) = (scan? e s).map inCapitals := by
  cases e with
  | keyword kind =>
      simp only [scan?, afterWord?_map_toUpper kind.keyword_capitals, Option.map_map]
      rfl
  | operand => exact scanOperand?_map_toUpper s
  | operator =>
      exact (scanOperator?_map_toUpper s).trans (map_inCapitals_scanOperator? s).symm
  | binding => exact (scanBinding?_map_toUpper s).trans (map_inCapitals_scanBinding? s).symm
  | lineNumber => exact scanLineNumber?_map_toUpper s

end Token

theorem Recast.capitals_faithful : capitals.Faithful where
  gap := isGap_toUpper
  scan := Token.scan?_map_toUpper
  numeral := Number.numeralValue_map_toUpper

end LineBasic
