/-
  LineBasic.Proofs.Memory.Places

  The places of a memory that can be written, one at a time, and what a write leaves alone.

  There are three sorts of writes: a scalar is set, an array is declared, and an element of an array
  is set. `Puts` names the place that a write is to; `Puts.cells?_cases` says all that a write can
  do to an array, and what is kept of the arrays follows from it case by case.
-/
import LineBasic.Proofs.Machine.Evaluation

namespace LineBasic

/-- What a write is to. -/
inductive Place where
  | scalar (slot : Nat)
  /-- An array as a whole, which a declaration replaces. -/
  | array (letter : Nat)
  /-- The elements of an array. -/
  | elements (letter : Nat)
  deriving Repr, DecidableEq

namespace Memory

variable {m m' : Memory} {letter other slot : Nat} {x v : Float}

/-- The first memory becomes the second by one write to the place. -/
inductive Puts (m : Memory) : Place → Memory → Prop
  | set {slot : Nat} {v : Float} {m' : Memory} (h : m.write slot v = .ok m') :
      Puts m (.scalar slot) m'
  | declare {letter : Nat} {bound : Float} {m' : Memory} (h : m.declare letter bound = .ok m') :
      Puts m (.array letter) m'
  | setElement {letter : Nat} {x v : Float} {m' : Memory}
      (h : m.writeElement letter x v = .ok m') : Puts m (.elements letter) m'

/-! ## Arrays after a write -/

theorem cells?_of_arrays_eq (h : m'.arrays = m.arrays) (letter : Nat) :
    m'.cells? letter = m.cells? letter := by
  simp only [cells?, h]

/-- A declared array has as many cells as its bound says, all zero, and the others are as before. -/
theorem cells?_of_declare {bound : Float} (h : m.declare letter bound = .ok m') (other : Nat) :
    m'.cells? other =
      if other = letter then .ok (some (.replicate (cellCount bound) 0.0)) else m.cells? other := by
  -- Only too many cells, or a letter that is none, would have been refused.
  simp only [declare] at h
  split at h
  · cases h
  · split at h
    · cases h
    · split at h
      · rename_i hletter
        obtain rfl := Except.ok.inj h
        by_cases heq : other = letter
        · subst heq
          simp [cells?, hletter]
        · simp only [cells?, if_neg heq]
          split
          · rw [Vector.getElem_set_ne _ _ (Ne.symm heq)]
          · rfl
      · cases h

/-- What is located is a cell of a declared array. -/
theorem of_locate {cells : Array Float} {i : Nat} (h : m.locate letter x = .ok (cells, i)) :
    m.cells? letter = .ok (some cells) ∧ cell? cells.size x = some i := by
  unfold locate at h
  split at h
  · cases h
  · cases h
  · rename_i hcells
    split at h
    · rename_i hcell
      obtain ⟨rfl, rfl⟩ := Prod.mk.inj (Except.ok.inj h)
      exact ⟨hcells, hcell⟩
    · cases h

theorem lt_of_cells? {declared : Option (Array Float)} (h : m.cells? letter = .ok declared) :
    letter < letterCount := by
  unfold cells? at h
  split at h
  · assumption
  · cases h

/-- An element that was set is in its cell, and the other arrays are as before. -/
theorem cells?_of_writeElement (h : m.writeElement letter x v = .ok m') :
    ∃ cells i, m.cells? letter = .ok (some cells) ∧ cell? cells.size x = some i ∧
      ∀ other, m'.cells? other =
        if other = letter then .ok (some (cells.setIfInBounds i v)) else m.cells? other := by
  unfold writeElement at h
  cases hlocate : m.locate letter x with
  | error failure =>
      rw [hlocate] at h
      cases h
  | ok place =>
      obtain ⟨cells, i⟩ := place
      obtain ⟨hcells, hcell⟩ := of_locate hlocate
      have hletter := lt_of_cells? hcells
      rw [hlocate] at h
      obtain rfl := Except.ok.inj h
      refine ⟨cells, i, hcells, hcell, ?_⟩
      intro other
      by_cases heq : other = letter
      · subst heq
        simp [cells?, hletter]
      · simp only [cells?, if_neg heq]
        split
        · rw [Vector.getElem_setIfInBounds_ne _ (Ne.symm heq)]
        · rfl

namespace Puts

variable {p : Place} (h : m.Puts p m')
include h

/-! ## What a write leaves alone -/

theorem read_eq (hp : p ≠ .scalar slot) : m'.read slot = m.read slot := by
  cases h with
  | set hwrite => exact read_of_write_ne hwrite (by rintro rfl; exact hp rfl)
  | declare hdeclare => exact read_of_declare hdeclare
  | setElement hwrite => exact read_of_writeElement hwrite

/-- An array is as before, or was declared anew, or has one cell set. -/
theorem cells?_cases (letter : Nat) :
    m'.cells? letter = m.cells? letter ∨
    (p = .array letter ∧ ∃ count, m'.cells? letter = .ok (some (.replicate count 0.0))) ∨
    (p = .elements letter ∧ ∃ cells i v, m.cells? letter = .ok (some cells) ∧
      m'.cells? letter = .ok (some (cells.setIfInBounds i v))) := by
  cases h with
  | set hwrite => exact Or.inl (cells?_of_arrays_eq (arrays_of_write hwrite) letter)
  | @declare declared bound _ hdeclare =>
      have hcells := cells?_of_declare hdeclare letter
      by_cases heq : letter = declared
      · rw [if_pos heq] at hcells
        exact Or.inr (Or.inl ⟨by rw [heq], _, hcells⟩)
      · rw [if_neg heq] at hcells
        exact Or.inl hcells
  | @setElement written x v _ hwrite =>
      obtain ⟨cells, i, hold, -, hnew⟩ := cells?_of_writeElement hwrite
      have hcells := hnew letter
      by_cases heq : letter = written
      · rw [if_pos heq] at hcells
        subst heq
        exact Or.inr (Or.inr ⟨rfl, cells, i, v, hold, hcells⟩)
      · rw [if_neg heq] at hcells
        exact Or.inl hcells

theorem cells?_eq (hp : p ≠ .array letter) (hp' : p ≠ .elements letter) :
    m'.cells? letter = m.cells? letter := by
  rcases h.cells?_cases letter with hsame | ⟨hdeclared, -⟩ | ⟨hset, -⟩
  · exact hsame
  · exact absurd hdeclared hp
  · exact absurd hset hp'

/-- Only a declaration changes how many cells an array has. -/
theorem size_eq (hp : p ≠ .array letter) : m'.size letter = m.size letter := by
  rcases h.cells?_cases letter with hsame | ⟨hdeclared, -⟩ | ⟨-, cells, i, v, hold, hnew⟩
  · rw [size, size, hsame]
  · exact absurd hdeclared hp
  · rw [size, size, hold, hnew]
    simp [Except.map]

/-- Only a declaration makes an array that was not there. -/
theorem undeclared (hp : p ≠ .array letter) (hm : m.cells? letter = .ok none) :
    m'.cells? letter = .ok none := by
  rcases h.cells?_cases letter with hsame | ⟨hdeclared, -⟩ | ⟨-, cells, i, v, hold, -⟩
  · exact hsame.trans hm
  · exact absurd hdeclared hp
  · rw [hold] at hm
    cases hm

end Puts

/-- All cells that the array has are zero. -/
def ZeroIn (letter : Nat) (m : Memory) : Prop :=
  ∀ cells, m.cells? letter = .ok (some cells) → ∀ x ∈ cells, x = 0.0

/-- Only setting an element brings something else than zero into an array. -/
theorem Puts.zeroIn {p : Place} (h : m.Puts p m') (hp : p ≠ .elements letter)
    (hm : m.ZeroIn letter) : m'.ZeroIn letter := by
  intro cells hcells
  rcases h.cells?_cases letter with hsame | ⟨-, count, hnew⟩ | ⟨hset, -⟩
  · exact hm cells (hsame.symm.trans hcells)
  · obtain rfl := Option.some.inj (Except.ok.inj (hnew.symm.trans hcells))
    intro x hx
    exact (Array.mem_replicate.mp hx).2
  · exact absurd hset hp

/-! ## Memories at the start -/

theorem read_empty (h : slot < slotCount) : empty.read slot = .ok 0.0 := by
  simp [read, empty, h]

theorem cells?_empty (h : letter < letterCount) : empty.cells? letter = .ok none := by
  simp [cells?, empty, h]

theorem zeroIn_empty (letter : Nat) : empty.ZeroIn letter := by
  intro cells hcells
  rw [cells?_empty (lt_of_cells? hcells)] at hcells
  cases hcells

end Memory

end LineBasic
