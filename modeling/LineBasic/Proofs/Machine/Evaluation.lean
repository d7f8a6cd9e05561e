/-
  LineBasic.Proofs.Machine.Evaluation

  A well-formed expression or condition has a value in every memory: its names have cells, array
  reads that fail are soft, and division by zero is none. What a read or write that is not soft can
  fail with is said here too.
-/
import LineBasic.Eval

namespace LineBasic

/-! ## Readings with a value -/

/-- The reading ends in a value. -/
def Reading.Succeeds {α : Type} (x : Reading α) : Prop :=
  ∃ a, x.outcome = .ok a

theorem Reading.Succeeds.bind {α β : Type} {x : Reading α} {f : α → Reading β} (hx : x.Succeeds)
    (hf : ∀ a, (f a).Succeeds) : (x >>= f).Succeeds := by
  obtain ⟨a, ha⟩ := hx
  obtain ⟨b, hb⟩ := hf a
  exact ⟨b, by rw [Reading.bind_of_ok ha, hb]⟩

theorem Reading.Succeeds.pure {α : Type} (a : α) : (Pure.pure a : Reading α).Succeeds :=
  ⟨a, rfl⟩

/-! ## Memory -/

namespace Memory

variable {m : Memory} {slot letter : Nat} {x : Float}

theorem read_eq_ok (h : slot < slotCount) : ∃ v, m.read slot = .ok v :=
  ⟨m.scalars[slot], by rw [read, dif_pos h]⟩

theorem write_eq_ok (h : slot < slotCount) (v : Float) : ∃ m', m.write slot v = .ok m' :=
  ⟨{ m with scalars := m.scalars.set slot v }, by rw [write, dif_pos h]⟩

/-- A subscript names a cell that there is. -/
theorem lt_of_cell? {count i : Nat} (h : cell? count x = some i) : i < count := by
  unfold cell? at h
  split at h
  · split at h
    · obtain rfl := Option.some.inj h
      assumption
    · cases h
  · cases h

/-- An element of an array that has a letter is there, or its absence is a complaint. -/
theorem locate_error {failure : Failure} (h : letter < letterCount)
    (hfail : m.locate letter x = .error failure) :
    failure = .complaint (.undeclared letter) ∨
      failure = .complaint (.outOfBounds letter (.ofFloat x)) := by
  simp only [locate, cells?, dif_pos h] at hfail
  split at hfail
  · rename_i heq
    simp at heq
  · exact Or.inl (Except.error.inj hfail).symm
  · split at hfail
    · simp at hfail
    · exact Or.inr (Except.error.inj hfail).symm

theorem readSoft_succeeds (h : letter < letterCount) : (m.readSoft letter x).Succeeds := by
  unfold readSoft readElement
  -- Both complaints that there are become reports.
  cases hlocate : m.locate letter x with
  | ok place => exact ⟨_, rfl⟩
  | error failure =>
      rcases locate_error h hlocate with rfl | rfl
      · exact ⟨_, rfl⟩
      · exact ⟨_, rfl⟩

theorem writeElement_error {v : Float} {failure : Failure} (h : letter < letterCount)
    (hfail : m.writeElement letter x v = .error failure) :
    failure = .complaint (.undeclared letter) ∨
      failure = .complaint (.outOfBounds letter (.ofFloat x)) := by
  unfold writeElement at hfail
  cases hlocate : m.locate letter x with
  | ok place =>
      rw [hlocate] at hfail
      simp [bind, Except.bind, pure, Except.pure] at hfail
  | error e =>
      rw [hlocate] at hfail
      obtain rfl := Except.error.inj hfail
      exact locate_error h hlocate

/-- Only the size of the array keeps a letter from being declared. -/
theorem declare_error {fault : Fault} (h : letter < letterCount)
    (hfail : m.declare letter x = .error fault) : fault = .uncountable ∨ fault = .outOfMemory := by
  simp only [declare, dif_pos h] at hfail
  split at hfail
  · exact Or.inl (Except.error.inj hfail).symm
  · split at hfail
    · exact Or.inr (Except.error.inj hfail).symm
    · simp at hfail

end Memory

/-! ## Expressions and conditions -/

theorem Expr.eval_succeeds {e : Expr} (m : Memory) (h : e.WellFormed) : (e.eval m).Succeeds := by
  induction e with
  | num value => exact .pure value
  | var slot => exact Memory.read_eq_ok h
  | element letter index ih => exact (ih h.2).bind fun x => Memory.readSoft_succeeds h.1
  | signed sign operand ih => exact (ih h).bind fun x => .pure _
  | binary op left right ihl ihr =>
      exact (ihl h.1).bind fun x => (ihr h.2).bind fun y => .pure _
  | unknownBinary left right => exact h.elim
  | unknown => exact h.elim

theorem Cond.eval_succeeds {c : Cond} (m : Memory) (h : c.WellFormed) : (c.eval m).Succeeds := by
  cases c with
  | nonzero operand => exact (Expr.eval_succeeds m h).bind fun x => .pure _
  | compare relation left right =>
      exact (Expr.eval_succeeds m h.1).bind fun x =>
        (Expr.eval_succeeds m h.2).bind fun y => .pure _
  | unknown symbol left right => exact h.elim

end LineBasic
