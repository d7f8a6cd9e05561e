/-
  LineBasic.Proofs.Grammar.Spelling

  Putting a text together from lexemes. `SpelledAs` says of a text that it can be cut into lexemes
  with a property, wherever it stands; it forgets the offsets, so that texts with the property can
  be written one behind the other with gaps between them.
-/
import LineBasic.Proofs.Reader.Reading

namespace LineBasic.Grammar

/-! ## Cuts of a longer text -/

theorem Spells.gap_append {place : Nat} {gap text : List Char} {xs : List Lexeme}
    (hgap : gap.all isGap = true) (h : Spells (place + gap.length) text xs) :
    Spells place (gap ++ text) xs := by
  induction gap generalizing place with
  | nil => simpa using h
  | cons c gap ih =>
      simp only [List.all_cons, Bool.and_eq_true] at hgap
      apply Spells.gap_cons hgap.1
      apply ih hgap.2
      rw [List.length_cons] at h
      have hplace : place + 1 + gap.length = place + (gap.length + 1) := by omega
      rw [hplace]
      exact h

/-- Two texts are cut one after the other. -/
theorem Spells.append {place : Nat} {text rest : List Char} {xs ys : List Lexeme}
    (h : Spells place text xs) (hrest : Spells (place + text.length) rest ys) :
    Spells place (text ++ rest) (xs ++ ys) := by
  induction h with
  | nil hgap => exact hrest.gap_append hgap
  | @cons place gap tail x xs hgap hplace hx htail ih =>
      have hoffset : x.place + x.chars.length + tail.length =
          place + (gap ++ x.chars ++ tail).length := by
        rw [hplace]
        simp only [List.length_append]
        omega
      have hbehind := ih (hoffset ▸ hrest)
      rw [List.append_assoc]
      exact .cons hgap hplace hx hbehind

/-! ## Texts apart from their place -/

/-- Wherever the text stands, it can be cut into lexemes with the property. -/
def SpelledAs (text : List Char) (P : List Lexeme → Prop) : Prop :=
  ∀ place, ∃ xs, Spells place text xs ∧ P xs

/-- The lexemes are one, of the terminal and with the characters. -/
def IsOne (t : Terminal) (chars : List Char) (xs : List Lexeme) : Prop :=
  ∃ x, xs = [x] ∧ x.terminal = t ∧ x.chars = chars

/-- Lexemes with one property are followed by lexemes with another. -/
def FollowedBy (P Q : List Lexeme → Prop) (zs : List Lexeme) : Prop :=
  ∃ xs ys, zs = xs ++ ys ∧ P xs ∧ Q ys

namespace SpelledAs

variable {text rest gap chars : List Char} {P Q : List Lexeme → Prop} {t : Terminal}

theorem imp (h : SpelledAs text P) (hQ : ∀ xs, P xs → Q xs) : SpelledAs text Q := by
  intro place
  obtain ⟨xs, hxs, hP⟩ := h place
  exact ⟨xs, hxs, hQ xs hP⟩

theorem append (h : SpelledAs text P) (hrest : SpelledAs rest Q) :
    SpelledAs (text ++ rest) (FollowedBy P Q) := by
  intro place
  obtain ⟨xs, hxs, hP⟩ := h place
  obtain ⟨ys, hys, hQ⟩ := hrest (place + text.length)
  exact ⟨xs ++ ys, hxs.append hys, xs, ys, rfl, hP, hQ⟩

/-- A gap may stand before the text. -/
theorem gap_append (hgap : gap.all isGap = true) (h : SpelledAs text P) :
    SpelledAs (gap ++ text) P := by
  intro place
  obtain ⟨xs, hxs, hP⟩ := h (place + gap.length)
  exact ⟨xs, hxs.gap_append hgap, hP⟩

/-- A text of a terminal is one lexeme. -/
theorem one (hchars : chars ∈ t.pattern) : SpelledAs chars (IsOne t chars) := by
  intro place
  have hspells : Spells place ([] ++ chars) [⟨t, chars, place⟩] :=
    Spells.one (x := ⟨t, chars, place⟩) rfl rfl hchars
  exact ⟨_, hspells, _, rfl, rfl, rfl⟩

/-- Of parts with the same gap between any two of them, the first one is taken off. -/
theorem cons {next : List Char} {parts : List (List Char)} (hgap : gap.all isGap = true)
    (h : SpelledAs text P) (hrest : SpelledAs (gap.intercalate (next :: parts)) Q) :
    SpelledAs (gap.intercalate (text :: next :: parts)) (FollowedBy P Q) := by
  rw [List.intercalate_cons_cons, List.append_assoc]
  exact h.append (hrest.gap_append hgap)

theorem last (h : SpelledAs text P) : SpelledAs (gap.intercalate [text]) P := by
  rwa [List.intercalate_singleton]

end SpelledAs

/-- A word in capitals is a text of its terminal. -/
theorem mem_pattern_word (word : String) : word.toList ∈ (Terminal.word word).pattern := by
  rw [Terminal.pattern, mem_wordPattern]
  apply List.forall₂_same.mpr
  intro c _
  simp [isKeywordLetter]

theorem spelled_symbol (chars : String) :
    SpelledAs chars.toList (IsOne (.symbol chars) chars.toList) := by
  apply SpelledAs.one
  rfl

theorem spelled_word (word : String) : SpelledAs word.toList (IsOne (.word word) word.toList) :=
  .one (mem_pattern_word word)

end LineBasic.Grammar
