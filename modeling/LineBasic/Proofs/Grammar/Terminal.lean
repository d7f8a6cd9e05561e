/-
  LineBasic.Proofs.Grammar.Terminal

  The terminals of the grammar and what texts they stand for, said as regular languages and without
  reference to the reader.

  A lexeme is a piece of a text that is claimed for a terminal. `Spells` cuts a text into lexemes:
  any run of spaces and tabs may stand between two of them, and also before the first and behind the
  last. It does not say how to find the cuts: a text may be cut in many ways, and which of them are
  sentences is for the derivations to say.
-/
import LineBasic.Sentence.Token
import Mathlib.Computability.Language

namespace LineBasic.Grammar

open Computability

/-! ## Patterns -/

/-- The texts of one character of a class. -/
def oneOf (p : Char → Bool) : Language Char :=
  {s | ∃ c, p c = true ∧ s = [c]}

/-- A text of the language, or nothing. -/
def optional (l : Language Char) : Language Char :=
  1 + l

/-- One or more decimal digits of any script. -/
def digits : Language Char :=
  oneOf Text.isDecimal * (oneOf Text.isDecimal)∗

/-- An ASCII letter and perhaps an ASCII digit. -/
def namePattern : Language Char :=
  oneOf Char.isAlpha * optional (oneOf Char.isDigit)

/-- The digits and the point of a numeral. -/
def mantissaPattern : Language Char :=
  digits * optional (oneOf (· == '.')) * (oneOf Text.isDecimal)∗ + oneOf (· == '.') * digits

/-- The power of ten of a numeral. -/
def powerPattern : Language Char :=
  oneOf (fun c => c == 'e' || c == 'E') * optional (oneOf fun c => c == '+' || c == '-') * digits

def numberPattern : Language Char :=
  mantissaPattern * optional powerPattern

/-- Text that a quotation mark opens, and that the next one closes unless the text is at its end. -/
def quotedPattern (mark : Char) : Language Char :=
  oneOf (· == mark) * (oneOf (· != mark))∗ * optional (oneOf (· == mark))

/-- The texts that are the word, given in capitals, in any case. -/
def wordPattern (word : String) : Language Char :=
  {s | List.Forall₂ (fun letter c => isKeywordLetter letter c = true) word.toList s}

/-! ## Terminals and lexemes -/

inductive Terminal where
  /-- A keyword, given in capitals. -/
  | word (letters : String)
  /-- A sign that is written in one way only. -/
  | symbol (chars : String)
  | NAME
  | NUMBER
  | INT
  | STRING
  deriving Repr, DecidableEq

/-- The texts that a terminal stands for. -/
def Terminal.pattern : Terminal → Language Char
  | .word letters => wordPattern letters
  | .symbol chars => {chars.toList}
  | .NAME => namePattern
  | .NUMBER => numberPattern
  | .INT => digits
  | .STRING => quotedPattern '"' + quotedPattern '\''

/-- A piece of a text, the terminal it is taken for, and the offset at which it starts. -/
structure Lexeme where
  terminal : Terminal
  chars : List Char
  place : Nat
  deriving Repr, DecidableEq

namespace Lexeme

/-- The piece is a text of its terminal, as a whole. -/
def Matches (x : Lexeme) : Prop :=
  x.chars ∈ x.terminal.pattern

/-- The variable that a name mentions. -/
def mention (x : Lexeme) : Mention :=
  ⟨(Name.at? x.chars 0).1.getD 0, x.place⟩

/-- Quoted text without its marks. The closing mark may be missing. -/
def content (x : Lexeme) : List Char :=
  match x.chars with
  | [] => []
  | mark :: rest => if rest.getLast? = some mark then rest.dropLast else rest

end Lexeme

/-- The text from offset `place` on is the lexemes in order, with spaces and tabs around them. -/
inductive Spells : Nat → List Char → List Lexeme → Prop
  | nil {place : Nat} {gap : List Char} (hgap : gap.all isGap = true) : Spells place gap []
  | cons {place : Nat} {gap rest : List Char} {x : Lexeme} {xs : List Lexeme}
      (hgap : gap.all isGap = true) (hplace : x.place = place + gap.length) (hx : x.Matches)
      (hrest : Spells (x.place + x.chars.length) rest xs) :
      Spells place (gap ++ x.chars ++ rest) (x :: xs)

/-! ## Membership -/

@[simp] theorem mem_oneOf {p : Char → Bool} {s : List Char} :
    s ∈ oneOf p ↔ ∃ c, p c = true ∧ s = [c] := Iff.rfl

@[simp] theorem mem_optional {l : Language Char} {s : List Char} :
    s ∈ optional l ↔ s = [] ∨ s ∈ l := by
  simp only [optional, Language.mem_add, Language.mem_one]

@[simp] theorem mem_wordPattern {word : String} {s : List Char} :
    s ∈ wordPattern word ↔
      List.Forall₂ (fun letter c => isKeywordLetter letter c = true) word.toList s := Iff.rfl

/-- Repetition of single characters of a class gives the texts over the class. -/
@[simp] theorem mem_kstar_oneOf {p : Char → Bool} {s : List Char} :
    s ∈ (oneOf p)∗ ↔ ∀ c ∈ s, p c = true := by
  refine ⟨?_, ?_⟩
  · intro h
    obtain ⟨pieces, rfl, hpieces⟩ := Language.mem_kstar.mp h
    intro c hc
    obtain ⟨piece, hpiece, hmem⟩ := List.mem_flatten.mp hc
    obtain ⟨d, hd, rfl⟩ := hpieces piece hpiece
    obtain rfl := List.mem_singleton.mp hmem
    exact hd
  · intro h
    -- Each character is a piece of its own.
    refine Language.mem_kstar.mpr ⟨s.map ([·]), ?_, ?_⟩
    · induction s with
      | nil => rfl
      | cons c rest ih =>
          simp only [List.map_cons, List.flatten_cons, List.singleton_append]
          rw [← ih fun d hd => h d (List.mem_cons_of_mem _ hd)]
    · intro piece hpiece
      obtain ⟨c, hc, rfl⟩ := List.mem_map.mp hpiece
      exact ⟨c, h c hc, rfl⟩

@[simp] theorem mem_digits {s : List Char} :
    s ∈ digits ↔ s ≠ [] ∧ ∀ c ∈ s, Text.isDecimal c = true := by
  simp only [digits, Language.mem_mul, mem_oneOf, mem_kstar_oneOf]
  refine ⟨?_, ?_⟩
  · rintro ⟨_, ⟨c, hc, rfl⟩, rest, hrest, rfl⟩
    exact ⟨by simp, by simpa using ⟨hc, hrest⟩⟩
  · rintro ⟨hne, hall⟩
    obtain ⟨c, rest, rfl⟩ := List.exists_cons_of_ne_nil hne
    simp only [List.mem_cons, forall_eq_or_imp] at hall
    exact ⟨[c], ⟨c, hall.1, rfl⟩, rest, hall.2, rfl⟩

theorem mem_namePattern {s : List Char} :
    s ∈ namePattern ↔
      ∃ c, c.isAlpha = true ∧ (s = [c] ∨ ∃ d, d.isDigit = true ∧ s = [c, d]) := by
  simp only [namePattern, Language.mem_mul, mem_oneOf, mem_optional]
  refine ⟨?_, ?_⟩
  · rintro ⟨_, ⟨c, hc, rfl⟩, rest, rfl | ⟨d, hd, rfl⟩, rfl⟩
    · exact ⟨c, hc, Or.inl rfl⟩
    · exact ⟨c, hc, Or.inr ⟨d, hd, rfl⟩⟩
  · rintro ⟨c, hc, rfl | ⟨d, hd, rfl⟩⟩
    · exact ⟨[c], ⟨c, hc, rfl⟩, [], Or.inl rfl, rfl⟩
    · exact ⟨[c], ⟨c, hc, rfl⟩, [d], Or.inr ⟨d, hd, rfl⟩, rfl⟩

/-- A mantissa is digits, or digits with a point before, among or behind them. -/
theorem mem_mantissaPattern {s : List Char} :
    s ∈ mantissaPattern ↔
      s ∈ digits ∨ ∃ whole fraction, s = whole ++ '.' :: fraction ∧
        (∀ c ∈ whole ++ fraction, Text.isDecimal c = true) ∧ whole ++ fraction ≠ [] := by
  simp only [mantissaPattern, Language.mem_add, Language.mem_mul, mem_oneOf, mem_optional,
    mem_digits, mem_kstar_oneOf, beq_iff_eq, exists_eq_left]
  refine ⟨?_, ?_⟩
  · rintro (⟨_, ⟨whole, ⟨hne, hwhole⟩, point, rfl | rfl, rfl⟩, fraction, hfraction, rfl⟩ |
      ⟨fraction, ⟨hne, hfraction⟩, rfl⟩)
    · refine Or.inl ⟨by simp [hne], ?_⟩
      simpa [or_imp, forall_and] using ⟨hwhole, hfraction⟩
    · refine Or.inr ⟨whole, fraction, by simp, ?_, by simp [hne]⟩
      simpa [or_imp, forall_and] using ⟨hwhole, hfraction⟩
    · exact Or.inr ⟨[], fraction, rfl, by simpa using hfraction, by simpa using hne⟩
  · rintro (⟨hne, hall⟩ | ⟨whole, fraction, rfl, hall, hne⟩)
    · exact Or.inl ⟨s, ⟨s, ⟨hne, hall⟩, [], Or.inl rfl, by simp⟩, [], by simp, by simp⟩
    · simp only [List.mem_append, or_imp, forall_and] at hall
      by_cases hw : whole = []
      · subst hw
        exact Or.inr ⟨fraction, ⟨by simpa using hne, hall.2⟩, rfl⟩
      · exact Or.inl ⟨whole ++ ['.'], ⟨whole, ⟨hw, hall.1⟩, ['.'], Or.inr rfl, rfl⟩, fraction,
          hall.2, by simp⟩

theorem mem_powerPattern {s : List Char} :
    s ∈ powerPattern ↔
      ∃ mark sign power, s = mark :: (sign ++ power) ∧ (mark = 'e' ∨ mark = 'E') ∧
        (sign = [] ∨ sign = ['+'] ∨ sign = ['-']) ∧ power ∈ digits := by
  simp only [powerPattern, Language.mem_mul, mem_oneOf, mem_optional, Bool.or_eq_true, beq_iff_eq]
  refine ⟨?_, ?_⟩
  · rintro ⟨_, ⟨_, ⟨mark, hmark, rfl⟩, sign, hsign, rfl⟩, power, hpower, rfl⟩
    refine ⟨mark, sign, power, by simp, hmark, ?_, hpower⟩
    rcases hsign with rfl | ⟨c, rfl | rfl, rfl⟩ <;> simp
  · rintro ⟨mark, sign, power, rfl, hmark, hsign, hpower⟩
    refine ⟨mark :: sign, ⟨[mark], ⟨mark, hmark, rfl⟩, sign, ?_, rfl⟩, power, hpower, by simp⟩
    rcases hsign with rfl | rfl | rfl <;> simp

/-- Quoted text has an opening mark, a content without the mark, and perhaps the mark again. -/
theorem mem_quotedPattern {mark : Char} {s : List Char} :
    s ∈ quotedPattern mark ↔
      ∃ content, (∀ c ∈ content, c ≠ mark) ∧
        (s = mark :: content ∨ s = mark :: (content ++ [mark])) := by
  simp only [quotedPattern, Language.mem_mul, mem_oneOf, mem_optional, mem_kstar_oneOf,
    beq_iff_eq, bne_iff_ne, exists_eq_left]
  refine ⟨?_, ?_⟩
  · rintro ⟨_, ⟨content, hcontent, rfl⟩, closing, rfl | rfl, rfl⟩
    · exact ⟨content, hcontent, Or.inl (by simp)⟩
    · exact ⟨content, hcontent, Or.inr (by simp)⟩
  · rintro ⟨content, hcontent, rfl | rfl⟩
    · exact ⟨mark :: content, ⟨content, hcontent, rfl⟩, [], Or.inl rfl, by simp⟩
    · exact ⟨mark :: content, ⟨content, hcontent, rfl⟩, [mark], Or.inr rfl, by simp⟩

end LineBasic.Grammar
