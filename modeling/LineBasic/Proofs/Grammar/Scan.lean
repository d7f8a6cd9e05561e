/-
  LineBasic.Proofs.Grammar.Scan

  Scanning against the patterns of the terminals, in both directions. What is scanned off the front
  of a text is a lexeme (`frontIs_of_scan?`); and a lexeme that stands at the front of a text
  is scanned off it whole, if what follows does not run on (`scan?_append`).

  `Lexeme.ReadAs` says which token a lexeme is at a place in a sentence: an equals sign is one
  terminal and two tokens, and the signs of operands are operators as well.
-/
import LineBasic.Proofs.Grammar.Numeral
import LineBasic.Sentence.Reader

namespace LineBasic.Grammar

/-! ## Lexemes as tokens -/

/-- The lexeme is the token, where such a token is looked for. -/
inductive Lexeme.ReadAs (x : Lexeme) : Expecting → Token → Prop
  | opening {kind : Kind} (hkind : kind ≠ .ASSIGN) (hx : x.terminal = .word kind.name) :
      x.ReadAs (.keyword kind) (.opening kind)
  | name (hx : x.terminal = .NAME) : x.ReadAs .operand (.name x.mention.slot)
  | numeral (hx : x.terminal = .NUMBER) : x.ReadAs .operand (.numeral x.chars)
  | text (hx : x.terminal = .STRING) : x.ReadAs .operand (.text x.content)
  | plus (hx : x.terminal = .symbol "+") : x.ReadAs .operand (.operator .add)
  | minus (hx : x.terminal = .symbol "-") : x.ReadAs .operand (.operator .sub)
  | openOperand (hx : x.terminal = .symbol "(") : x.ReadAs .operand .openBracket
  | operator {op : Operator} (hx : x.terminal = .symbol op.symbol) :
      x.ReadAs .operator (.operator op)
  | relation {relation : Relation} (hx : x.terminal = .symbol relation.symbol) :
      x.ReadAs .operator (.relation relation)
  | joint {joint : Joint} {letters : String} (hletters : letters.toList = joint.word)
      (hx : x.terminal = .word letters) : x.ReadAs .operator (.joint joint)
  | openOperator (hx : x.terminal = .symbol "(") : x.ReadAs .operator .openBracket
  | close (hx : x.terminal = .symbol ")") : x.ReadAs .operator .closeBracket
  | comma (hx : x.terminal = .symbol ",") : x.ReadAs .operator .comma
  | becomes (hx : x.terminal = .symbol "=") : x.ReadAs .binding .becomes
  | openBinding (hx : x.terminal = .symbol "(") : x.ReadAs .binding .openBracket
  | lineNumber (hx : x.terminal = .INT) : x.ReadAs .lineNumber (.lineNumber x.chars)

/-! ## Words -/

/-- A word is at the front of a text when a piece of the text is the word. -/
theorem afterWord?_append {word piece : List Char} (rest : List Char)
    (h : List.Forall₂ (fun letter c => isKeywordLetter letter c = true) word piece) :
    afterWord? word (piece ++ rest) = some rest := by
  induction h with
  | nil => rfl
  | cons hc _ ih => simp only [List.cons_append, afterWord?, hc, if_true, ih]

theorem forall₂_of_afterWord? {word s : List Char} (h : (afterWord? word s).isSome) :
    List.Forall₂ (fun letter c => isKeywordLetter letter c = true) word (s.take word.length) ∧
      word.length ≤ s.length := by
  induction word generalizing s with
  | nil => simp
  | cons letter word ih =>
      cases s with
      | nil => simp [afterWord?] at h
      | cons c rest =>
          simp only [afterWord?] at h
          split at h
          · rename_i hc
            obtain ⟨hforall, hlen⟩ := ih h
            exact ⟨by simpa using ⟨hc, hforall⟩, by simpa using hlen⟩
          · simp at h

/-! ## Characters -/

theorem isDecimal_toNat {c : Char} (h : Text.isDecimal c = true) :
    (0x30 ≤ c.toNat ∧ c.toNat ≤ 0x39) ∨ 0x660 ≤ c.toNat := by
  obtain ⟨n, hn⟩ := Option.isSome_iff_exists.mp h
  obtain ⟨base, hbase, hc⟩ := List.exists_of_findSome?_eq_some hn
  -- Behind the ASCII digits there is no other run of digits for a while.
  have hbases : ∀ base ∈ Text.decimalZeros, base = 0x30 ∨ 0x660 ≤ base := by decide
  split at hc
  · have := hbases base hbase
    omega
  · simp at hc

theorem letter?_isSome_iff {c : Char} : (Name.letter? c).isSome ↔ c.isAlpha = true := by
  have hc : c.toNat = c.val.toNat := rfl
  have hA : 'A'.val.toNat = 0x41 := rfl
  have hZ : 'Z'.val.toNat = 0x5A := rfl
  have ha : 'a'.val.toNat = 0x61 := rfl
  have hz : 'z'.val.toNat = 0x7A := rfl
  have halpha : c.isAlpha = (decide (c.val ≥ 'A'.val ∧ c.val ≤ 'Z'.val) ||
      decide (c.val ≥ 'a'.val) && decide (c.val ≤ 'z'.val)) := rfl
  simp only [Name.letter?, halpha, Bool.or_eq_true, Bool.and_eq_true, decide_eq_true_eq,
    ge_iff_le, UInt32.le_iff_toNat_le]
  split
  · simp only [Option.isSome_some, true_iff]
    omega
  · split
    · simp only [Option.isSome_some, true_iff]
      omega
    · simp only [Option.isSome_none, Bool.false_eq_true, false_iff]
      omega

theorem digit?_isSome_iff {c : Char} : (Name.digit? c).isSome ↔ c.isDigit = true := by
  have hc : c.toNat = c.val.toNat := rfl
  have h0 : '0'.val.toNat = 0x30 := rfl
  have h9 : '9'.val.toNat = 0x39 := rfl
  simp only [Name.digit?, Char.isDigit, Bool.and_eq_true, decide_eq_true_eq, ge_iff_le,
    UInt32.le_iff_toNat_le]
  split
  · simp only [Option.isSome_some, true_iff]
    omega
  · simp only [Option.isSome_none, Bool.false_eq_true, false_iff]
    omega

/-- No digit of any script is a letter of a name. -/
theorem letter?_eq_none_of_isDecimal {c : Char} (h : Text.isDecimal c = true) :
    Name.letter? c = none := by
  have := isDecimal_toNat h
  grind [Name.letter?]

theorem isKeywordLetter_T {c : Char} : isKeywordLetter 'T' c = true ↔ c = 'T' ∨ c = 't' := by
  have hlower : 'T'.toLower = 't' := rfl
  simp [isKeywordLetter, hlower]

theorem isKeywordLetter_S {c : Char} :
    isKeywordLetter 'S' c = true ↔ c = 'S' ∨ c = 's' ∨ c = 'ſ' := by
  have hlower : 'S'.toLower = 's' := rfl
  have hlong : c.toNat = 0x17F ↔ c = 'ſ' :=
    ⟨fun h => Char.toNat_inj.mp h, fun h => by subst h; rfl⟩
  simp [isKeywordLetter, hlower, hlong, or_assoc]

/-! ## Names -/

/-- The name of a text of the pattern of names, however the text goes on. -/
theorem scan?_name_append {s rest : List Char} (hs : s ∈ namePattern)
    (hrest : ∀ c ∈ rest.head?, c.isDigit = false) :
    ∃ slot, Name.scan? s = some (slot, s.length) ∧
      Name.scan? (s ++ rest) = some (slot, s.length) := by
  obtain ⟨c, hc, hshape⟩ := mem_namePattern.mp hs
  obtain ⟨letter, hletter⟩ := Option.isSome_iff_exists.mp (letter?_isSome_iff.mpr hc)
  rcases hshape with rfl | ⟨d, hd, rfl⟩
  -- A letter alone could take in a digit, but none follows.
  · refine ⟨letter, by simp [Name.scan?, hletter], ?_⟩
    have hnone : rest.head?.bind Name.digit? = none := by
      cases hhead : rest.head? with
      | none => rfl
      | some d =>
          have hd : ¬ d.isDigit = true := by simp [hrest d hhead]
          simpa using mt digit?_isSome_iff.mp hd
    simp [Name.scan?, hletter, hnone]
  · obtain ⟨digit, hdigit⟩ := Option.isSome_iff_exists.mp (digit?_isSome_iff.mpr hd)
    exact ⟨Name.suffixedSlot letter digit, by simp [Name.scan?, hletter, hdigit],
      by simp [Name.scan?, hletter, hdigit]⟩

theorem take_scan?_name {s : List Char} {slot size : Nat} (h : Name.scan? s = some (slot, size)) :
    s.take size ∈ namePattern ∧ Name.scan? (s.take size) = some (slot, size) ∧ 0 < size ∧
      size ≤ s.length := by
  cases s with
  | nil => simp [Name.scan?] at h
  | cons c rest =>
      simp only [Name.scan?] at h
      cases hletter : Name.letter? c with
      | none => simp [hletter] at h
      | some letter =>
          have hc : c.isAlpha = true := letter?_isSome_iff.mp (by simp [hletter])
          cases hdigit : rest.head?.bind Name.digit? with
          | none =>
              simp only [hletter, hdigit, Option.some.injEq, Prod.mk.injEq] at h
              obtain ⟨rfl, rfl⟩ := h
              refine ⟨mem_namePattern.mpr ⟨c, hc, Or.inl rfl⟩, ?_, by simp, by simp⟩
              simp [Name.scan?, hletter]
          | some digit =>
              obtain ⟨d, hd, hd'⟩ := Option.bind_eq_some_iff.mp hdigit
              obtain ⟨more, rfl⟩ := List.head?_eq_some_iff.mp hd
              simp only [hletter, hdigit, Option.some.injEq, Prod.mk.injEq] at h
              obtain ⟨rfl, rfl⟩ := h
              have hdd : d.isDigit = true := digit?_isSome_iff.mp (by simp [hd'])
              refine ⟨mem_namePattern.mpr ⟨c, hc, Or.inr ⟨d, hdd, rfl⟩⟩, ?_, by simp, by simp⟩
              simp [Name.scan?, hletter, hd']

theorem mention_slot {x : Lexeme} {slot size : Nat} (h : Name.scan? x.chars = some (slot, size)) :
    x.mention.slot = slot := by
  simp only [Lexeme.mention, Name.at?, List.drop_zero, h, Option.getD_some]

/-! ## Quoted text -/

theorem content_eq {x : Lexeme} {mark : Char} {content : List Char}
    (hcontent : ∀ c ∈ content, c ≠ mark)
    (hx : x.chars = mark :: content ∨ x.chars = mark :: (content ++ [mark])) :
    x.content = content := by
  rcases hx with hx | hx
  · have hlast : content.getLast? ≠ some mark :=
      fun h => hcontent mark (List.mem_of_getLast? h) rfl
    simp only [Lexeme.content, hx, hlast, if_false]
  · simp only [Lexeme.content, hx, List.getLast?_append, List.getLast?_singleton, Option.some_or,
      if_true, List.dropLast_concat]

/-- A text goes on without the mark to its end, or up to the first mark. -/
theorem exists_upToMark (mark : Char) (rest : List Char) :
    ∃ content, (∀ c ∈ content, c ≠ mark) ∧
      (rest = content ∨ ∃ more, rest = content ++ mark :: more) := by
  induction rest with
  | nil => exact ⟨[], by simp, Or.inl rfl⟩
  | cons c rest ih =>
      by_cases hc : c = mark
      · exact ⟨[], by simp, Or.inr ⟨rest, by rw [hc]; rfl⟩⟩
      · obtain ⟨content, hcontent, hrest⟩ := ih
        refine ⟨c :: content, by simpa using ⟨hc, hcontent⟩, ?_⟩
        rcases hrest with rfl | ⟨more, rfl⟩
        · exact Or.inl rfl
        · exact Or.inr ⟨more, rfl⟩

section Quoted

variable {mark : Char} {content : List Char} (hcontent : ∀ c ∈ content, c ≠ mark)
include hcontent

theorem scanText_open :
    Token.scanText mark content = (.text content, (mark :: content).length) := by
  have htake : content.takeWhile (· != mark) = content :=
    List.takeWhile_eq_self_iff.mpr fun c hc => bne_iff_ne.mpr (hcontent c hc)
  simp only [Token.scanText, htake, Nat.lt_irrefl, if_false, List.length_cons, Prod.mk.injEq,
    true_and]
  omega

theorem scanText_closed (more : List Char) :
    Token.scanText mark (content ++ mark :: more) =
      (.text content, (mark :: (content ++ [mark])).length) := by
  have htake : (content ++ mark :: more).takeWhile (· != mark) = content :=
    takeWhile_append_stop (fun c hc => bne_iff_ne.mpr (hcontent c hc)) (by simp)
  have hlt : content.length < (content ++ mark :: more).length := by simp
  simp only [Token.scanText, htake]
  rw [if_pos hlt]
  simp only [List.length_cons, List.length_append, List.length_nil, Prod.mk.injEq, true_and]
  omega

end Quoted

/-! ## Words inside a sentence -/

theorem scanJoint?_append {joint : Joint} {piece : List Char} (rest : List Char)
    (h : List.Forall₂ (fun letter c => isKeywordLetter letter c = true) joint.word piece) :
    Token.scanJoint? (piece ++ rest) = some (.joint joint, piece.length) := by
  have hafter := afterWord?_append rest h
  have hlen := h.length_eq
  cases joint with
  | «to» => simp only [Token.scanJoint?, List.findSome?_cons, hafter, Option.map_some, hlen]
  | step =>
      -- `TO` is tried before, and fails at the first letter.
      obtain ⟨c, piece, hc, -, rfl⟩ := List.forall₂_cons_left_iff.mp h
      have hno : isKeywordLetter 'T' c = false := by
        rcases isKeywordLetter_S.mp hc with rfl | rfl | rfl <;> decide
      have hto : afterWord? Joint.to.word (c :: piece ++ rest) = none := by
        simp [Joint.word, afterWord?, hno]
      simp only [Token.scanJoint?, List.findSome?_cons, hto, hafter, Option.map_none,
        Option.map_some, hlen]
  | «then» =>
      -- `TO` fails at the second letter, `STEP` at the first.
      obtain ⟨c, piece, hc, htail, rfl⟩ := List.forall₂_cons_left_iff.mp h
      obtain ⟨d, piece, hd, -, rfl⟩ := List.forall₂_cons_left_iff.mp htail
      have hno : isKeywordLetter 'O' d = false := by
        have hlower : 'H'.toLower = 'h' := rfl
        have hd : d = 'H' ∨ d = 'h' := by simpa [isKeywordLetter, hlower] using hd
        rcases hd with rfl | rfl <;> decide
      have hS : isKeywordLetter 'S' c = false := by
        rcases isKeywordLetter_T.mp hc with rfl | rfl <;> decide
      have hto : afterWord? Joint.to.word (c :: d :: piece ++ rest) = none := by
        simp [Joint.word, afterWord?, hno]
      have hstep : afterWord? Joint.step.word (c :: d :: piece ++ rest) = none := by
        simp [Joint.word, afterWord?, hS]
      simp only [Token.scanJoint?, List.findSome?_cons, hto, hstep, hafter, Option.map_none,
        Option.map_some, hlen]

theorem exists_word_of_scanJoint? {s : List Char} {t : Token} {size : Nat}
    (h : Token.scanJoint? s = some (t, size)) :
    ∃ joint : Joint, t = .joint joint ∧ size = joint.word.length ∧
      (afterWord? joint.word s).isSome := by
  obtain ⟨joint, -, hj⟩ := List.exists_of_findSome?_eq_some h
  obtain ⟨rest, hrest, heq⟩ := Option.map_eq_some_iff.mp hj
  obtain ⟨rfl, rfl⟩ := Prod.mk.inj heq
  exact ⟨joint, rfl, rfl, by rw [hrest]; rfl⟩

/-- The words inside a sentence start with `T` or `S`, in any of their forms. -/
theorem joint_head {joint : Joint} {piece : List Char}
    (h : List.Forall₂ (fun letter c => isKeywordLetter letter c = true) joint.word piece) :
    ∃ c more, piece = c :: more ∧ c ∈ ['T', 't', 'S', 's', 'ſ'] := by
  cases joint with
  | step =>
      obtain ⟨c, more, hc, -, rfl⟩ := List.forall₂_cons_left_iff.mp h
      exact ⟨c, more, rfl, by rcases isKeywordLetter_S.mp hc with rfl | rfl | rfl <;> simp⟩
  | «to» =>
      obtain ⟨c, more, hc, -, rfl⟩ := List.forall₂_cons_left_iff.mp h
      exact ⟨c, more, rfl, by rcases isKeywordLetter_T.mp hc with rfl | rfl <;> simp⟩
  | «then» =>
      obtain ⟨c, more, hc, -, rfl⟩ := List.forall₂_cons_left_iff.mp h
      exact ⟨c, more, rfl, by rcases isKeywordLetter_T.mp hc with rfl | rfl <;> simp⟩

/-! ## Lexemes are scanned whole -/

/-- What follows does not make the token longer. -/
def EndsBefore : Token → List Char → Prop
  | .name _, rest => ∀ c ∈ rest.head?, c.isDigit = false
  | .numeral _, rest =>
    ∀ c ∈ rest.head?, Text.isDecimal c = false ∧ c ≠ '.' ∧ c ≠ 'e' ∧ c ≠ 'E'
  | .lineNumber _, rest => ∀ c ∈ rest.head?, Text.isDecimal c = false
  | .text _, rest => rest = []
  | .relation _, rest => ∀ c ∈ rest.head?, c ≠ '=' ∧ c ≠ '>'
  | _, _ => True

theorem scanOperand?_of_name {c : Char} {rest : List Char} {slot size : Nat}
    (h : Name.scan? (c :: rest) = some (slot, size)) (hc : c ∉ ['"', '\'', '(', '+', '-']) :
    Token.scanOperand? (c :: rest) = some (.name slot, size) := by
  simp only [List.mem_cons, List.not_mem_nil, or_false, not_or] at hc
  unfold Token.scanOperand?
  split <;> simp_all

theorem scanOperand?_of_noName {c : Char} {rest : List Char}
    (h : Name.letter? c = none) (hc : c ∉ ['"', '\'', '(', '+', '-']) :
    Token.scanOperand? (c :: rest) = Token.scanNumeral? (c :: rest) := by
  have hname : Name.scan? (c :: rest) = none := by simp only [Name.scan?, h]
  simp only [List.mem_cons, List.not_mem_nil, or_false, not_or] at hc
  unfold Token.scanOperand?
  split <;> simp_all

/-- A numeral starts with a digit or a point. -/
theorem number_head {s : List Char} (h : s ∈ numberPattern) :
    ∃ c more, s = c :: more ∧ (Text.isDecimal c = true ∨ c = '.') := by
  obtain ⟨mantissa, hm, power, -, rfl⟩ := Language.mem_mul.mp h
  rcases mem_mantissaPattern.mp hm with hds | ⟨whole, fraction, rfl, hall, -⟩
  · obtain ⟨hne, hall⟩ := mem_digits.mp hds
    obtain ⟨c, more, rfl⟩ := List.exists_cons_of_ne_nil hne
    exact ⟨c, more ++ power, rfl, Or.inl (hall c (by simp))⟩
  · cases whole with
    | nil => exact ⟨'.', fraction ++ power, rfl, Or.inr rfl⟩
    | cons c more =>
        exact ⟨c, more ++ '.' :: fraction ++ power, by simp, Or.inl (hall c (by simp))⟩

/-- A text that starts as a name is taken for the name that is scanned off it. -/
theorem scanOperand?_eq_name {s rest : List Char} {slot size : Nat} (hs : s ∈ namePattern)
    (h : Name.scan? (s ++ rest) = some (slot, size)) :
    Token.scanOperand? (s ++ rest) = some (.name slot, size) := by
  obtain ⟨c, hc, hshape⟩ := mem_namePattern.mp hs
  obtain ⟨more, rfl⟩ : ∃ more, s = c :: more := by
    rcases hshape with h | ⟨d, -, h⟩
    · exact ⟨[], h⟩
    · exact ⟨[d], h⟩
  refine scanOperand?_of_name h ?_
  intro hmem
  simp only [List.mem_cons, List.not_mem_nil, or_false] at hmem
  rcases hmem with rfl | rfl | rfl | rfl | rfl <;> simp at hc

/-- A text that starts as a numeral is looked at for nothing else. -/
theorem scanOperand?_eq_numeral {s rest : List Char} (hs : s ∈ numberPattern) :
    Token.scanOperand? (s ++ rest) = Token.scanNumeral? (s ++ rest) := by
  obtain ⟨c, more, rfl, hc⟩ := number_head hs
  rcases hc with hc | rfl
  · have hrange := isDecimal_toNat hc
    refine scanOperand?_of_noName (letter?_eq_none_of_isDecimal hc) ?_
    intro hmem
    simp only [List.mem_cons, List.not_mem_nil, or_false] at hmem
    rcases hmem with rfl | rfl | rfl | rfl | rfl <;> revert hrange <;> decide
  · exact scanOperand?_of_noName rfl (by decide)

theorem chars_of_symbol {x : Lexeme} {symbol : String} (hx : x.Matches)
    (h : x.terminal = .symbol symbol) : x.chars = symbol.toList := by
  rw [Lexeme.Matches, h] at hx
  exact Set.mem_singleton_iff.mp hx

theorem chars_of_word {x : Lexeme} {letters : String} (hx : x.Matches)
    (h : x.terminal = .word letters) :
    List.Forall₂ (fun letter c => isKeywordLetter letter c = true) letters.toList x.chars := by
  rw [Lexeme.Matches, h] at hx
  exact hx

theorem keyword_eq {kind : Kind} (h : kind ≠ .ASSIGN) : kind.keyword = kind.name.toList := by
  simp only [Kind.keyword, h, if_false]

section ScanOperand

variable {x : Lexeme} {rest : List Char} (hx : x.Matches)
include hx

theorem scanOperand?_name (hname : x.terminal = .NAME)
    (hend : ∀ c ∈ rest.head?, c.isDigit = false) :
    Token.scanOperand? (x.chars ++ rest) = some (.name x.mention.slot, x.chars.length) := by
  rw [Lexeme.Matches, hname] at hx
  obtain ⟨slot, hscan, happend⟩ := scan?_name_append hx hend
  rw [mention_slot hscan]
  exact scanOperand?_eq_name hx happend

theorem scanOperand?_numeral (hnumber : x.terminal = .NUMBER)
    (hend : ∀ c ∈ rest.head?, Text.isDecimal c = false ∧ c ≠ '.' ∧ c ≠ 'e' ∧ c ≠ 'E') :
    Token.scanOperand? (x.chars ++ rest) = some (.numeral x.chars, x.chars.length) := by
  rw [Lexeme.Matches, hnumber] at hx
  obtain ⟨hlen, hne⟩ := numeralLength_append hx hend
  have hscan : Token.scanNumeral? (x.chars ++ rest) = some (.numeral x.chars, x.chars.length) := by
    have hpos : x.chars.length ≠ 0 := by simpa using hne
    simp only [Token.scanNumeral?, hlen, hpos, if_false, List.take_left]
  rw [scanOperand?_eq_numeral hx, hscan]

theorem scanOperand?_text (hstring : x.terminal = .STRING) :
    Token.scanOperand? x.chars = some (.text x.content, x.chars.length) := by
  rw [Lexeme.Matches, hstring] at hx
  have hquote : ∀ mark : Char, x.chars ∈ quotedPattern mark →
      ∃ tail, x.chars = mark :: tail ∧
        Token.scanText mark tail = (.text x.content, x.chars.length) := by
    intro mark hmark
    obtain ⟨content, hcontent, hshape⟩ := mem_quotedPattern.mp hmark
    rw [content_eq hcontent hshape]
    rcases hshape with h | h
    · exact ⟨content, h, by rw [h]; exact scanText_open hcontent⟩
    · exact ⟨content ++ [mark], h, by rw [h]; exact scanText_closed hcontent []⟩
  rcases hx with hx | hx
  · obtain ⟨tail, htail, hscan⟩ := hquote _ hx
    rw [← hscan, htail]
    rfl
  · obtain ⟨tail, htail, hscan⟩ := hquote _ hx
    rw [← hscan, htail]
    rfl

end ScanOperand

section ScanOperator

variable {x : Lexeme} {rest : List Char} (hx : x.Matches)
include hx

theorem scanOperator?_joint {joint : Joint} {letters : String}
    (hletters : letters.toList = joint.word) (hword : x.terminal = .word letters) :
    Token.scanOperator? (x.chars ++ rest) = some (.joint joint, x.chars.length) := by
  have hforall := chars_of_word hx hword
  rw [hletters] at hforall
  rw [← scanJoint?_append rest hforall]
  obtain ⟨c, more, hmore, hc⟩ := joint_head hforall
  rw [hmore]
  simp only [List.mem_cons, List.not_mem_nil, or_false] at hc
  rcases hc with rfl | rfl | rfl | rfl | rfl <;> rfl

theorem scanOperator?_relation {relation : Relation}
    (hsymbol : x.terminal = .symbol relation.symbol)
    (hend : ∀ c ∈ rest.head?, c ≠ '=' ∧ c ≠ '>') :
    Token.scanOperator? (x.chars ++ rest) = some (.relation relation, x.chars.length) := by
  rw [chars_of_symbol hx hsymbol]
  cases rest with
  | nil => cases relation <;> rfl
  | cons c rest =>
      obtain ⟨h1, h2⟩ := hend c rfl
      -- A longer relation would need one of the two characters that do not follow.
      cases relation <;> simp [Relation.symbol, Token.scanOperator?, h1, h2]

end ScanOperator

/-- A lexeme at the front of a text is scanned off it whole. -/
theorem scan?_append {x : Lexeme} {e : Expecting} {t : Token} {rest : List Char}
    (hx : x.Matches) (ht : x.ReadAs e t) (hend : EndsBefore t rest) :
    Token.scan? e (x.chars ++ rest) = some (t, x.chars.length) := by
  cases ht with
  | @opening kind hkind hword =>
      have hforall := chars_of_word hx hword
      have hafter := afterWord?_append rest hforall
      simp only [Token.scan?, keyword_eq hkind, hafter, Option.map_some, hforall.length_eq]
  | name hname => exact scanOperand?_name hx hname hend
  | numeral hnumber => exact scanOperand?_numeral hx hnumber hend
  | text hstring =>
      -- Quoted text may lack its closing mark, and then takes all that follows.
      obtain rfl : rest = [] := hend
      rw [List.append_nil]
      exact scanOperand?_text hx hstring
  | plus hsymbol => rw [chars_of_symbol hx hsymbol]; rfl
  | minus hsymbol => rw [chars_of_symbol hx hsymbol]; rfl
  | openOperand hsymbol => rw [chars_of_symbol hx hsymbol]; rfl
  | @operator op hsymbol =>
      rw [chars_of_symbol hx hsymbol]
      cases op <;> rfl
  | relation hsymbol => exact scanOperator?_relation hx hsymbol hend
  | joint hletters hword => exact scanOperator?_joint hx hletters hword
  | openOperator hsymbol => rw [chars_of_symbol hx hsymbol]; rfl
  | close hsymbol => rw [chars_of_symbol hx hsymbol]; rfl
  | comma hsymbol => rw [chars_of_symbol hx hsymbol]; rfl
  | becomes hsymbol => rw [chars_of_symbol hx hsymbol]; rfl
  | openBinding hsymbol => rw [chars_of_symbol hx hsymbol]; rfl
  | lineNumber hint =>
      rw [Lexeme.Matches, hint] at hx
      obtain ⟨hne, hall⟩ := mem_digits.mp hx
      have htake : (x.chars ++ rest).takeWhile Text.isDecimal = x.chars :=
        takeWhile_append_stop hall hend
      simp only [Token.scan?, Token.scanLineNumber?, htake]
      rw [if_neg (by simpa using hne)]

/-- Quoted text is one token only. -/
theorem Lexeme.ReadAs.of_string {x : Lexeme} {e : Expecting} {t : Token} (ht : x.ReadAs e t)
    (hstring : x.terminal = .STRING) : e = .operand ∧ t = .text x.content := by
  cases ht <;> simp_all

theorem mark_of_string {x : Lexeme} (hx : x.Matches) (hstring : x.terminal = .STRING) :
    ∃ mark more, (mark = '"' ∨ mark = '\'') ∧ x.chars = mark :: more := by
  rw [Lexeme.Matches, hstring] at hx
  rcases hx with hx | hx
  · obtain ⟨content, -, h | h⟩ := mem_quotedPattern.mp hx <;> exact ⟨_, _, Or.inl rfl, h⟩
  · obtain ⟨content, -, h | h⟩ := mem_quotedPattern.mp hx <;> exact ⟨_, _, Or.inr rfl, h⟩

/-- Quoted text has its closing mark. -/
def Lexeme.Closed (x : Lexeme) : Prop :=
  x.terminal = .STRING →
    ∃ mark content, (mark = '"' ∨ mark = '\'') ∧ (∀ c ∈ content, c ≠ mark) ∧
      x.chars = mark :: (content ++ [mark])

/-- Quoted text with its closing mark is scanned off whatever follows. -/
theorem scan?_closed {x : Lexeme} (hstring : x.terminal = .STRING) (hclosed : x.Closed)
    (rest : List Char) :
    Token.scan? .operand (x.chars ++ rest) = some (.text x.content, x.chars.length) := by
  obtain ⟨mark, content, hmark, hcontent, hchars⟩ := hclosed hstring
  have hscan := scanText_closed hcontent rest
  rw [content_eq hcontent (Or.inr hchars), hchars, ← hscan]
  have happend : mark :: (content ++ [mark]) ++ rest = mark :: (content ++ mark :: rest) := by simp
  rw [happend]
  rcases hmark with rfl | rfl <;> rfl

/-! ## What is scanned is a lexeme -/

/-- The first `size` characters of the text are the token, where such a token is looked for. -/
def FrontIs (e : Expecting) (s : List Char) (t : Token) (size : Nat) : Prop :=
  0 < size ∧ size ≤ s.length ∧
    ∃ terminal, ∀ place, Lexeme.Matches ⟨terminal, s.take size, place⟩ ∧
      Lexeme.ReadAs ⟨terminal, s.take size, place⟩ e t

theorem frontIs_symbol {e : Expecting} {t t' : Token} {size : Nat} (symbol : String)
    (rest : List Char) (h : some (t', symbol.toList.length) = some (t, size))
    (hne : symbol.toList ≠ []) (hread : ∀ x : Lexeme, x.terminal = .symbol symbol → x.ReadAs e t') :
    FrontIs e (symbol.toList ++ rest) t size := by
  obtain ⟨rfl, rfl⟩ := Prod.mk.inj (Option.some.inj h)
  refine ⟨List.length_pos_iff.mpr hne, by simp, .symbol symbol, fun place => ⟨?_, hread _ rfl⟩⟩
  rw [List.take_left]
  exact Set.mem_singleton _

theorem readAs_text {x : Lexeme} {content : List Char} (hx : x.terminal = .STRING)
    (hcontent : x.content = content) : x.ReadAs .operand (.text content) := by
  subst hcontent
  exact .text hx

theorem readAs_name {x : Lexeme} {slot size : Nat} (hx : x.terminal = .NAME)
    (hslot : Name.scan? x.chars = some (slot, size)) : x.ReadAs .operand (.name slot) := by
  rw [← mention_slot hslot]
  exact .name hx

theorem frontIs_of_scanText {mark : Char} {rest : List Char} {t : Token} {size : Nat}
    (hmark : ∀ s, s ∈ quotedPattern mark → s ∈ Terminal.pattern .STRING)
    (h : Token.scanText mark rest = (t, size)) : FrontIs .operand (mark :: rest) t size := by
  obtain ⟨content, hcontent, hrest⟩ := exists_upToMark mark rest
  rcases hrest with rfl | ⟨more, rfl⟩
  · rw [scanText_open hcontent] at h
    obtain ⟨rfl, rfl⟩ := Prod.mk.inj h
    refine ⟨by simp, by simp, .STRING, fun place => ?_⟩
    rw [List.take_length]
    exact ⟨hmark _ (mem_quotedPattern.mpr ⟨_, hcontent, Or.inl rfl⟩),
      readAs_text rfl (content_eq hcontent (Or.inl rfl))⟩
  · rw [scanText_closed hcontent] at h
    obtain ⟨rfl, rfl⟩ := Prod.mk.inj h
    have htake : (mark :: (content ++ mark :: more)).take (mark :: (content ++ [mark])).length
        = mark :: (content ++ [mark]) := by
      simp [List.take_append]
    refine ⟨by simp, by simp, .STRING, fun place => ?_⟩
    rw [htake]
    exact ⟨hmark _ (mem_quotedPattern.mpr ⟨_, hcontent, Or.inr rfl⟩),
      readAs_text rfl (content_eq hcontent (Or.inr rfl))⟩

theorem frontIs_of_scanNumeral? {s : List Char} {t : Token} {size : Nat}
    (h : Token.scanNumeral? s = some (t, size)) : FrontIs .operand s t size := by
  simp only [Token.scanNumeral?] at h
  split at h
  · simp at h
  · rename_i hne
    obtain ⟨rfl, rfl⟩ := Prod.mk.inj (Option.some.inj h)
    exact ⟨Nat.pos_of_ne_zero hne, numeralLength_le s, .NUMBER,
      fun place => ⟨take_numeralLength hne, .numeral rfl⟩⟩

theorem frontIs_of_scanOperand? {s : List Char} {t : Token} {size : Nat}
    (h : Token.scanOperand? s = some (t, size)) : FrontIs .operand s t size := by
  unfold Token.scanOperand? at h
  split at h
  · exact frontIs_of_scanText (fun s hs => Or.inl hs) (Option.some.inj h)
  · exact frontIs_of_scanText (fun s hs => Or.inr hs) (Option.some.inj h)
  · exact frontIs_symbol "(" _ h (by decide) fun x hx => .openOperand hx
  · exact frontIs_symbol "+" _ h (by decide) fun x hx => .plus hx
  · exact frontIs_symbol "-" _ h (by decide) fun x hx => .minus hx
  · split at h
    · rename_i slot size hname
      obtain ⟨rfl, rfl⟩ := Prod.mk.inj (Option.some.inj h)
      obtain ⟨hmem, hscan, hpos, hle⟩ := take_scan?_name hname
      exact ⟨hpos, hle, .NAME, fun place => ⟨hmem, readAs_name rfl hscan⟩⟩
    · exact frontIs_of_scanNumeral? h

theorem frontIs_of_scanJoint? {s : List Char} {t : Token} {size : Nat}
    (h : Token.scanJoint? s = some (t, size)) : FrontIs .operator s t size := by
  obtain ⟨joint, rfl, rfl, hsome⟩ := exists_word_of_scanJoint? h
  obtain ⟨hforall, hlen⟩ := forall₂_of_afterWord? hsome
  have hpos : 0 < joint.word.length := by cases joint <;> decide
  refine ⟨hpos, hlen, .word (String.ofList joint.word), fun place => ⟨?_, .joint ?_ rfl⟩⟩
  · exact mem_wordPattern.mpr (by simpa using hforall)
  · exact String.toList_ofList

theorem frontIs_of_scanOperator? {s : List Char} {t : Token} {size : Nat}
    (h : Token.scanOperator? s = some (t, size)) : FrontIs .operator s t size := by
  unfold Token.scanOperator? at h
  split at h
  · exact frontIs_symbol "<=" _ h (by decide) fun x hx => .relation hx
  · exact frontIs_symbol ">=" _ h (by decide) fun x hx => .relation hx
  · exact frontIs_symbol "<>" _ h (by decide) fun x hx => .relation hx
  · exact frontIs_symbol "==" _ h (by decide) fun x hx => .relation hx
  · exact frontIs_symbol "<" _ h (by decide) fun x hx => .relation hx
  · exact frontIs_symbol ">" _ h (by decide) fun x hx => .relation hx
  · exact frontIs_symbol "=" _ h (by decide) fun x hx => .relation hx
  · exact frontIs_symbol "+" _ h (by decide) fun x hx => .operator hx
  · exact frontIs_symbol "-" _ h (by decide) fun x hx => .operator hx
  · exact frontIs_symbol "*" _ h (by decide) fun x hx => .operator hx
  · exact frontIs_symbol "/" _ h (by decide) fun x hx => .operator hx
  · exact frontIs_symbol "(" _ h (by decide) fun x hx => .openOperator hx
  · exact frontIs_symbol ")" _ h (by decide) fun x hx => .close hx
  · exact frontIs_symbol "," _ h (by decide) fun x hx => .comma hx
  · exact frontIs_of_scanJoint? h

/-- What is scanned off the front of a text is a lexeme. -/
theorem frontIs_of_scan? {e : Expecting} {s : List Char} {t : Token} {size : Nat}
    (he : e ≠ .keyword .ASSIGN) (h : Token.scan? e s = some (t, size)) : FrontIs e s t size := by
  cases e with
  | keyword kind =>
      have hkind : kind ≠ .ASSIGN := fun hk => he (by rw [hk])
      obtain ⟨rest, hrest, heq⟩ := Option.map_eq_some_iff.mp h
      obtain ⟨rfl, rfl⟩ := Prod.mk.inj heq
      obtain ⟨hforall, hlen⟩ := forall₂_of_afterWord? (by rw [hrest]; rfl : (afterWord? _ s).isSome)
      have hpos : 0 < kind.keyword.length := by
        cases kind with
        | ASSIGN => exact absurd rfl hkind
        | _ => decide
      refine ⟨hpos, hlen, .word kind.name, fun place => ⟨?_, .opening hkind rfl⟩⟩
      rw [keyword_eq hkind] at hforall ⊢
      exact hforall
  | operand => exact frontIs_of_scanOperand? h
  | operator => exact frontIs_of_scanOperator? h
  | binding =>
      simp only [Token.scan?] at h
      unfold Token.scanBinding? at h
      split at h
      · exact frontIs_symbol "=" _ h (by decide) fun x hx => .becomes hx
      · exact frontIs_symbol "(" _ h (by decide) fun x hx => .openBinding hx
      · simp at h
  | lineNumber =>
      simp only [Token.scan?, Token.scanLineNumber?] at h
      split at h
      · simp at h
      · rename_i hne
        obtain ⟨rfl, rfl⟩ := Prod.mk.inj (Option.some.inj h)
        have hne : s.takeWhile Text.isDecimal ≠ [] := by simpa using hne
        refine ⟨List.length_pos_iff.mpr hne, length_takeWhile_le _ s, .INT, fun place => ?_⟩
        rw [take_takeWhile_length]
        exact ⟨takeWhile_decimal_mem_digits (by simpa using hne), .lineNumber rfl⟩

end LineBasic.Grammar
