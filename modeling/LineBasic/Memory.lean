/-
  LineBasic.Memory

  The variables of a session: one number per name, and one array per letter once it is declared.

  Subscripts and bounds are numbers, cut toward zero. An array read or write outside the array, or
  of an array that was not declared, is a complaint; a slot or letter that no name has is a fault.
-/
import LineBasic.Complaint

namespace LineBasic

structure Memory where
  scalars : Vector Float slotCount
  arrays : Vector (Option (Array Float)) letterCount

namespace Memory

/-- Every variable zero, no array declared. -/
def empty : Memory where
  scalars := .replicate slotCount 0.0
  arrays := .replicate letterCount none

instance : Inhabited Memory := ⟨empty⟩

/-! ## Scalars -/

def read (m : Memory) (slot : Nat) : Except Fault Float :=
  if h : slot < slotCount then .ok m.scalars[slot] else .error .missing

def write (m : Memory) (slot : Nat) (value : Float) : Except Fault Memory :=
  if h : slot < slotCount then .ok { m with scalars := m.scalars.set slot value }
  else .error .missingTarget

/-- A slot holds what was written to it. -/
theorem read_of_write {m n : Memory} {slot : Nat} {value : Float}
    (h : m.write slot value = .ok n) : n.read slot = .ok value := by
  simp only [write] at h
  split at h
  · simp only [Except.ok.injEq] at h
    subst h
    simp only [read, *, ↓reduceDIte, Vector.getElem_set_self]
  · simp at h

/-- Writing a slot changes no other. -/
theorem read_of_write_ne {m n : Memory} {slot other : Nat} {value : Float}
    (h : m.write slot value = .ok n) (hne : other ≠ slot) : n.read other = m.read other := by
  simp only [write] at h
  split at h
  · simp only [Except.ok.injEq] at h
    subst h
    simp only [read]
    split
    · rw [Vector.getElem_set_ne _ _ (Ne.symm hne)]
    · rfl
  · simp at h

/-- Writing a slot changes no array. -/
theorem arrays_of_write {m n : Memory} {slot : Nat} {value : Float}
    (h : m.write slot value = .ok n) : n.arrays = m.arrays := by
  simp only [write] at h
  split at h
  · obtain rfl := Except.ok.inj h
    rfl
  · simp at h

/-! ## Arrays -/

/-- More cells than this cannot be counted. -/
def countableCells : Nat := (1 <<< 63) - 1

/-- More cells than this do not fit into any memory. -/
def addressableCells : Nat := 1 <<< 60

/-- How many cells an array with the given upper bound has: the cells 0 to the bound, and one cell
    when the bound is negative or not finite. -/
def cellCount (bound : Float) : Nat :=
  ((Number.truncate? bound).getD 0).toNat + 1

/-- Declares an array, or declares it anew, with all cells zero. -/
def declare (m : Memory) (letter : Nat) (bound : Float) : Except Fault Memory :=
  let count := cellCount bound
  if countableCells < count then .error .uncountable
  else if addressableCells < count then .error .outOfMemory
  else if h : letter < letterCount then
    .ok { m with arrays := m.arrays.set letter (some (.replicate count 0.0)) }
  else .error .missingTarget

/-- The cells of an array, when it is declared. -/
def cells? (m : Memory) (letter : Nat) : Except Fault (Option (Array Float)) :=
  if h : letter < letterCount then .ok m.arrays[letter] else .error .missing

/-- How many cells an array has; an undeclared array has none. -/
def size (m : Memory) (letter : Nat) : Except Fault Nat :=
  (m.cells? letter).map fun cells => (cells.map (·.size)).getD 0

/-- The cell that a subscript names, in an array with `count` cells. -/
def cell? (count : Nat) (subscript : Float) : Option Nat :=
  match Number.truncate? subscript with
  | some (.ofNat i) => if i < count then some i else none
  | _ => none

/-- The cells of a declared array, and the one among them that a subscript names. -/
def locate (m : Memory) (letter : Nat) (subscript : Float) : Except Failure (Array Float × Nat) :=
  match m.cells? letter with
  | .error fault => .error (.fault fault)
  | .ok none => .error (.complaint (.undeclared letter))
  | .ok (some cells) =>
    match cell? cells.size subscript with
    | some i => .ok (cells, i)
    | none => .error (.complaint (.outOfBounds letter (.ofFloat subscript)))

def readElement (m : Memory) (letter : Nat) (subscript : Float) : Except Failure Float := do
  let (cells, i) ← m.locate letter subscript
  return cells.getD i 0.0

def writeElement (m : Memory) (letter : Nat) (subscript value : Float) :
    Except Failure Memory := do
  let (cells, i) ← m.locate letter subscript
  return { m with arrays := m.arrays.setIfInBounds letter (some (cells.setIfInBounds i value)) }

/-- Declaring an array changes no scalar. -/
theorem read_of_declare {m n : Memory} {letter slot : Nat} {bound : Float}
    (h : m.declare letter bound = .ok n) : n.read slot = m.read slot := by
  simp only [declare] at h
  split at h
  · simp at h
  · split at h
    · simp at h
    · split at h
      · obtain rfl := Except.ok.inj h
        rfl
      · simp at h

theorem read_of_writeElement {m n : Memory} {letter slot : Nat} {subscript value : Float}
    (h : m.writeElement letter subscript value = .ok n) : n.read slot = m.read slot := by
  unfold writeElement at h
  cases hlocate : m.locate letter subscript with
  | error failure =>
      rw [hlocate] at h
      cases h
  | ok place =>
      rw [hlocate] at h
      obtain rfl := Except.ok.inj h
      rfl

end Memory

end LineBasic
