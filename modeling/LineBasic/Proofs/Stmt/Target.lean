/-
  LineBasic.Proofs.Stmt.Target

  A text is refused for a line number in one way only: somewhere in it stands a run of digits that
  is too long to be read. Nothing else in a sentence, and nothing about the sentence as a whole, is
  refused for that reason. So the line numbers of a statement that is read are short, and can be
  written again.
-/
import LineBasic.Proofs.Sentence.Rejection
import LineBasic.Proofs.Stmt.Acceptance
import LineBasic.Proofs.Stmt.Parsing
import LineBasic.Proofs.Stmt.Writing

namespace LineBasic

open Grammar

/-- A sentence that is refused for a line number has one that cannot be read. -/
theorem Sentence.exists_line_of_resolve {s : Sentence} {kind : Kind} {flaw : Text.IntegerFlaw}
    (h : s.resolve = .error (.target kind flaw)) :
    ∃ digits ∈ s.lineNumbers, Text.readNatural digits = .error flaw := by
  rcases s.refused_resolve _ h with hblames | ⟨-, kind', flaw', htarget, hline⟩
  · cases hblames
  · obtain ⟨-, rfl⟩ := Rejection.target.inj htarget
    exact hline

theorem Grammar.Spells.infix_of_mem {place : Nat} {text : List Char} {xs : List Lexeme}
    (h : Spells place text xs) {x : Lexeme} (hx : x ∈ xs) : x.chars <:+: text := by
  induction h with
  | nil hgap => simp at hx
  | @cons place gap rest y ys hgap hplace hy hrest ih =>
      rcases List.mem_cons.mp hx with rfl | hx
      · exact ⟨gap, rest, rfl⟩
      · exact (ih hx).trans (List.suffix_append _ _).isInfix

/-- The line numbers of a sentence are lexemes of it. -/
theorem Grammar.Derives.exists_int {kind : Kind} {xs : List Lexeme} {s : Sentence}
    (h : Derives kind xs s) {digits : List Char} (hdigits : digits ∈ s.lineNumbers) :
    ∃ x ∈ xs, x.terminal = .INT ∧ x.chars = digits := by
  cases h with
  | goto hw hx =>
      obtain rfl := List.mem_singleton.mp hdigits
      exact ⟨_, by simp, hx, rfl⟩
  | ifThen hw hc hx hy =>
      obtain rfl := List.mem_singleton.mp hdigits
      exact ⟨_, by simp, hy, rfl⟩
  | _ => simp [Sentence.lineNumbers] at hdigits

/-- The text holds a run of digits that is too long to be read. -/
def Text.HoldsLongNumber (text : List Char) (length : Nat) : Prop :=
  maxDigits < length ∧
    ∃ digits, digits <:+: text ∧ digits.length = length ∧ ∀ c ∈ digits, isDecimal c = true

theorem Text.HoldsLongNumber.mono {part text : List Char} {length : Nat}
    (h : HoldsLongNumber part length) (hpart : part <:+: text) : HoldsLongNumber text length := by
  obtain ⟨hlong, digits, hinfix, hdigits⟩ := h
  exact ⟨hlong, digits, hinfix.trans hpart, hdigits⟩

theorem holdsLongNumber_of_read {kind kind' : Kind} {text : List Char} {s : Sentence}
    {flaw : Text.IntegerFlaw} (hread : Sentence.read kind text = .ok s)
    (hs : s.resolve = .error (.target kind' flaw)) :
    ∃ length, flaw = .tooLong length ∧ Text.HoldsLongNumber text length := by
  obtain ⟨digits, hdigits, hflaw⟩ := Sentence.exists_line_of_resolve hs
  obtain ⟨xs, hspells, hderives⟩ := derives_of_read hread
  obtain ⟨x, hx, hint, rfl⟩ := hderives.exists_int hdigits
  have hmatch := hspells.all_match x hx
  rw [Lexeme.Matches, hint] at hmatch
  have hall := (mem_digits.mp hmatch).2
  -- All characters are digits, so only the length is left to object to.
  rw [Text.readNatural, List.takeWhile_eq_self_iff.mpr hall] at hflaw
  simp only [Nat.lt_irrefl, if_false] at hflaw
  split at hflaw
  · rename_i hlong
    exact ⟨x.chars.length, (Except.error.inj hflaw).symm, hlong, x.chars,
      hspells.infix_of_mem hx, rfl, hall⟩
  · simp at hflaw

/-- A text that is refused for a line number holds a run of digits that is too long. -/
theorem Stmt.holdsLongNumber_of_parseAs {kind kind' : Kind} {text : List Char}
    {flaw : Text.IntegerFlaw} (h : parseAs kind text = .error (.target kind' flaw)) :
    ∃ length, flaw = .tooLong length ∧ Text.HoldsLongNumber (Text.trim text) length := by
  have hparsing := parsing kind text
  rw [h] at hparsing
  cases hparsing with
  | whole _ hread hs => exact holdsLongNumber_of_read hread hs
  | @cutRefused place _ _ _ _ _ hcut hs =>
      -- The text was cut where reading stopped, and the front was refused.
      obtain ⟨length, hflaw, hlong⟩ := holdsLongNumber_of_read hcut hs
      exact ⟨length, hflaw, hlong.mono (List.take_prefix place _).isInfix⟩

/-! ## Line numbers that were read -/

/-- The line numbers that a sentence means are the values of those that are written in it. -/
theorem Sentence.exists_digits_of_mem_targets {s : Sentence} {n : Int}
    (h : n ∈ s.meaning.targets) : ∃ digits ∈ s.lineNumbers, n = Text.decimalValue digits := by
  cases s with
  | goto digits => exact ⟨digits, List.mem_singleton_self _, List.mem_singleton.mp h⟩
  | ifThen clause digits =>
      simp only [meaning, Stmt.targets, Option.mem_toList, Option.map_eq_some_iff] at h
      obtain ⟨ds, hds, rfl⟩ := h
      exact ⟨ds, Option.mem_toList.mpr hds, rfl⟩
  | _ => simp [meaning, Stmt.targets] at h

theorem Sentence.isWritable_of_resolve {s : Sentence} {stmt : Stmt} (h : s.resolve = .ok stmt) :
    ∀ n ∈ stmt.targets, Text.isWritable n = true := by
  obtain ⟨hresolvable, rfl⟩ := Sentence.resolve_eq_ok_iff.mp h
  intro n hn
  obtain ⟨digits, hdigits, rfl⟩ := exists_digits_of_mem_targets hn
  exact (hresolvable.readable digits hdigits).isWritable

/-- A statement that a text is read as refers to no line number that cannot be written. -/
theorem Stmt.isWritable_of_parseAs {kind : Kind} {text : List Char} {stmt : Stmt}
    (h : parseAs kind text = .ok stmt) : ∀ n ∈ stmt.targets, Text.isWritable n = true := by
  have hparsing := parsing kind text
  rw [h] at hparsing
  cases hparsing with
  | stop hkind => simp [targets]
  | whole _ hread hs => exact Sentence.isWritable_of_resolve hs
  | cut _ _ _ hcut hs _ => exact Sentence.isWritable_of_resolve hs

end LineBasic
