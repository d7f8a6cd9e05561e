/-
  LineBasic.Proofs.Memory.Cells

  A memory as cells that do not depend on each other, after any calls on it.

  What can be seen of a memory are its scalars (`read`) and its arrays (`cells?`), as functions of
  slots and letters; a call that succeeds updates one of the two at one place. Elements are named by
  numbers, and all numbers with one whole part name the same element: `-0.9` and `0.9` are both cell
  0. So reading behind a write asks whether the whole parts agree, not whether the numbers do.
-/
import LineBasic.Proofs.Memory.Places
import Mathlib.Logic.Function.Basic

namespace LineBasic.Memory

open Number

/-! ## Calls -/

/-- A call that may change a memory. -/
inductive Access where
  | write (slot : Nat) (value : Float)
  | declare (letter : Nat) (bound : Float)
  | writeElement (letter : Nat) (subscript value : Float)
  | reset

/-- What a call makes of a memory, or what it fails with. -/
def outcome (m : Memory) : Access → Except Failure Memory
  | .write slot value => (m.write slot value).mapError .fault
  | .declare letter bound => (m.declare letter bound).mapError .fault
  | .writeElement letter subscript value => m.writeElement letter subscript value
  | .reset => .ok .empty

/-- The memory after a call. A call that fails leaves it as it was. -/
def apply (m : Memory) (call : Access) : Memory :=
  (m.outcome call).toOption.getD m

/-- The memory after calls, one after the other. -/
def applyAll (m : Memory) (calls : List Access) : Memory :=
  calls.foldl apply m

variable {m m' : Memory} {slot letter : Nat} {bound x v : Float}

theorem apply_of_ok {call : Access} (h : m.outcome call = .ok m') : m.apply call = m' := by
  rw [apply, h]
  rfl

theorem apply_of_error {call : Access} {failure : Failure} (h : m.outcome call = .error failure) :
    m.apply call = m := by
  rw [apply, h]
  rfl

/-! ## Scalars -/

theorem read_eq_ok_iff : (∃ value, m.read slot = .ok value) ↔ slot < slotCount := by
  refine ⟨?_, read_eq_ok⟩
  rintro ⟨value, h⟩
  rw [read] at h
  split at h
  · assumption
  · cases h

theorem write_of_le (h : slotCount ≤ slot) : m.write slot v = .error .missingTarget := by
  rw [write, dif_neg (Nat.not_lt.mpr h)]

theorem read_eq_update (h : m.write slot v = .ok m') :
    m'.read = Function.update m.read slot (.ok v) := by
  funext other
  by_cases heq : other = slot
  · subst heq
    rw [Function.update_self, read_of_write h]
  · rw [Function.update_of_ne heq, read_of_write_ne h heq]

/-! ## Arrays -/

theorem cells?_eq_ok_iff : (∃ declared, m.cells? letter = .ok declared) ↔ letter < letterCount := by
  refine ⟨fun ⟨_, h⟩ => lt_of_cells? h, fun h => ⟨m.arrays[letter], ?_⟩⟩
  rw [cells?, dif_pos h]

theorem lt_of_declare (h : m.declare letter bound = .ok m') : letter < letterCount := by
  have hcells := cells?_of_declare h letter
  rw [if_pos rfl] at hcells
  exact lt_of_cells? hcells

/-- A letter is refused a bound only if the bound asks for too many cells. -/
theorem reason_of_declare {fault : Fault} (h : m.declare letter bound = .error fault) :
    letterCount ≤ letter ∨ addressableCells < cellCount bound := by
  have hcountable : addressableCells ≤ countableCells := by decide
  by_contra hfits
  obtain ⟨hletter, hcount⟩ := not_or.mp hfits
  rw [declare, if_neg (by omega), if_neg hcount, dif_pos (Nat.not_le.mp hletter)] at h
  cases h

theorem cells?_eq_update_of_declare (h : m.declare letter bound = .ok m') :
    m'.cells? =
      Function.update m.cells? letter (.ok (some (.replicate (cellCount bound) 0.0))) := by
  funext other
  rw [cells?_of_declare h]
  by_cases heq : other = letter
  · subst heq
    rw [if_pos rfl, Function.update_self]
  · rw [if_neg heq, Function.update_of_ne heq]

/-! ## Elements -/

/-- A subscript names the cell that is its whole part. -/
theorem cell?_eq_some_iff {count i : Nat} :
    cell? count x = some i ↔ truncate? x = some (i : Int) ∧ i < count := by
  unfold cell?
  split
  · rename_i j hj
    rw [hj, Option.ite_none_right_eq_some]
    simp only [Option.some.injEq, Int.ofNat_eq_natCast, Int.natCast_inj]
    refine ⟨?_, ?_⟩
    · rintro ⟨hlt, rfl⟩
      exact ⟨rfl, hlt⟩
    · rintro ⟨rfl, hlt⟩
      exact ⟨hlt, rfl⟩
  · rename_i hother
    simp only [reduceCtorEq, false_iff, not_and]
    intro hi
    exact absurd hi (hother i)

/-- Subscripts with one whole part name one cell. -/
theorem cell?_congr {y : Float} (h : truncate? y = truncate? x) (count : Nat) :
    cell? count y = cell? count x := by
  unfold cell?
  rw [h]

theorem readElement_congr (h : m'.cells? letter = m.cells? letter) (y : Float) :
    m'.readElement letter y = m.readElement letter y := by
  unfold readElement locate
  rw [h]

theorem readElement_of_cell {cells : Array Float} {i : Nat}
    (hcells : m.cells? letter = .ok (some cells)) (hcell : cell? cells.size x = some i) :
    m.readElement letter x = .ok (cells.getD i 0.0) := by
  simp only [readElement, locate, hcells, hcell]
  rfl

theorem readElement_of_no_cell {cells : Array Float}
    (hcells : m.cells? letter = .ok (some cells)) (hcell : cell? cells.size x = none) :
    m.readElement letter x = .error (.complaint (.outOfBounds letter (.ofFloat x))) := by
  simp only [readElement, locate, hcells, hcell]
  rfl

/-- An element can be written if it can be read, and is refused for the same reason if not. -/
theorem writeElement_eq_error_iff {failure : Failure} :
    m.writeElement letter x v = .error failure ↔ m.readElement letter x = .error failure := by
  unfold writeElement readElement
  cases m.locate letter x with
  | error e =>
      refine ⟨?_, ?_⟩
      · intro h
        rw [← Except.error.inj h]
        rfl
      · intro h
        rw [← Except.error.inj h]
        rfl
  | ok place =>
      refine ⟨?_, ?_⟩
      · intro h
        cases h
      · intro h
        cases h

theorem cells?_eq_update_of_writeElement (h : m.writeElement letter x v = .ok m') :
    ∃ (cells : Array Float) (i : Nat), m.cells? letter = .ok (some cells) ∧
      cell? cells.size x = some i ∧
      m'.cells? = Function.update m.cells? letter (.ok (some (cells.setIfInBounds i v))) := by
  obtain ⟨cells, i, hcells, hcell, hnew⟩ := cells?_of_writeElement h
  refine ⟨cells, i, hcells, hcell, ?_⟩
  funext other
  rw [hnew]
  by_cases heq : other = letter
  · subst heq
    rw [if_pos rfl, Function.update_self]
  · rw [if_neg heq, Function.update_of_ne heq]

/-- Behind a write an element is what was written, under every subscript with the same whole part,
    and all other elements are what they were. -/
theorem readElement_of_writeElement (h : m.writeElement letter x v = .ok m') (other : Nat)
    (y : Float) :
    m'.readElement other y =
      if other = letter ∧ truncate? y = truncate? x then .ok v else m.readElement other y := by
  obtain ⟨cells, i, hcells, hcell, hnew⟩ := cells?_of_writeElement h
  have hi := lt_of_cell? hcell
  by_cases heq : other = letter
  · subst heq
    have hcells' := hnew other
    rw [if_pos rfl] at hcells'
    have hsize : (cells.setIfInBounds i v).size = cells.size := Array.size_setIfInBounds
    by_cases hsame : truncate? y = truncate? x
    · rw [if_pos ⟨rfl, hsame⟩]
      have hcell' : cell? (cells.setIfInBounds i v).size y = some i := by
        rw [hsize, cell?_congr hsame, hcell]
      rw [readElement_of_cell hcells' hcell']
      simp [hi]
    · rw [if_neg fun hboth => hsame hboth.2]
      cases hcell' : cell? cells.size y with
      | none =>
          rw [readElement_of_no_cell hcells hcell', readElement_of_no_cell hcells' (hsize ▸ hcell')]
      | some j =>
          -- Another whole part is another cell.
          have hne : i ≠ j := by
            rintro rfl
            exact hsame ((cell?_eq_some_iff.mp hcell').1.trans (cell?_eq_some_iff.mp hcell).1.symm)
          rw [readElement_of_cell hcells hcell', readElement_of_cell hcells' (hsize ▸ hcell')]
          simp [Array.getElem?_setIfInBounds_ne hne]
  · rw [if_neg fun hboth => heq hboth.1]
    exact readElement_congr ((hnew other).trans (if_neg heq)) y

/-! ## What a call does -/

/-- How many cells a bound asks for: one more than its whole part, and one if that is negative or if
    there is none. -/
def Asks (bound : Float) (count : Nat) : Prop :=
  match truncate? bound with
  | some i => (count : Int) = max i 0 + 1
  | none => count = 1

theorem asks_cellCount (bound : Float) : Asks bound (cellCount bound) := by
  unfold Asks cellCount
  cases truncate? bound with
  | none => rfl
  | some i =>
      simp only [Option.getD_some]
      omega

theorem Asks.pos {count : Nat} (h : Asks bound count) : 0 < count := by
  unfold Asks at h
  split at h
  · omega
  · omega

/-- What can come of a call: what is seen of the memory that it makes, or why it is refused. -/
inductive Does (m : Memory) : Access → Except Failure Memory → Prop
  | write {slot : Nat} {v : Float} {m' : Memory} (hslot : slot < 286)
      (hread : m'.read = Function.update m.read slot (.ok v)) (hcells : m'.cells? = m.cells?) :
      Does m (.write slot v) (.ok m')
  | writeFails {slot : Nat} {v : Float} (hslot : 286 ≤ slot) :
      Does m (.write slot v) (.error (.fault .missingTarget))
  | declare {letter count : Nat} {bound : Float} {m' : Memory} (hletter : letter < 26)
      (hcount : Asks bound count) (hread : m'.read = m.read)
      (hcells : m'.cells? =
        Function.update m.cells? letter (.ok (some (.replicate count 0.0)))) :
      Does m (.declare letter bound) (.ok m')
  /-- The letter is none, or there is no room for the cells. -/
  | declareFails {letter count : Nat} {bound : Float} {fault : Fault} (hcount : Asks bound count)
      (hreason : 26 ≤ letter ∨ addressableCells < count) :
      Does m (.declare letter bound) (.error (.fault fault))
  | writeElement {letter i : Nat} {x v old : Float} {cells : Array Float} {m' : Memory}
      (hold : m.readElement letter x = .ok old) (hdeclared : m.cells? letter = .ok (some cells))
      (hi : i < cells.size) (hwhole : truncate? x = some (i : Int)) (hread : m'.read = m.read)
      (hcells : m'.cells? =
        Function.update m.cells? letter (.ok (some (cells.setIfInBounds i v)))) :
      Does m (.writeElement letter x v) (.ok m')
  /-- The element cannot be read either, for the same reason. -/
  | writeElementFails {letter : Nat} {x v : Float} {failure : Failure}
      (hread : m.readElement letter x = .error failure) :
      Does m (.writeElement letter x v) (.error failure)
  | reset {m' : Memory} (hread : ∀ slot < 286, m'.read slot = .ok 0.0)
      (hcells : ∀ letter < 26, m'.cells? letter = .ok none) : Does m .reset (.ok m')

theorem write_does (m : Memory) (slot : Nat) (v : Float) :
    Does m (.write slot v) (m.outcome (.write slot v)) := by
  rw [outcome]
  by_cases hslot : slot < slotCount
  · obtain ⟨m', hwrite⟩ := write_eq_ok (m := m) hslot v
    rw [hwrite]
    refine .write hslot (read_eq_update hwrite) ?_
    funext letter
    exact cells?_of_arrays_eq (arrays_of_write hwrite) letter
  · rw [write_of_le (Nat.not_lt.mp hslot)]
    exact .writeFails (Nat.not_lt.mp hslot)

theorem declare_does (m : Memory) (letter : Nat) (bound : Float) :
    Does m (.declare letter bound) (m.outcome (.declare letter bound)) := by
  have hcount := asks_cellCount bound
  rw [outcome]
  cases hdeclare : m.declare letter bound with
  | ok m' =>
      refine .declare (lt_of_declare hdeclare) hcount ?_ (cells?_eq_update_of_declare hdeclare)
      funext slot
      exact read_of_declare hdeclare
  | error fault => exact .declareFails hcount (reason_of_declare hdeclare)

theorem writeElement_does (m : Memory) (letter : Nat) (x v : Float) :
    Does m (.writeElement letter x v) (m.outcome (.writeElement letter x v)) := by
  rw [outcome]
  cases hwrite : m.writeElement letter x v with
  | ok m' =>
      obtain ⟨cells, i, hcells, hcell, hnew⟩ := cells?_eq_update_of_writeElement hwrite
      obtain ⟨hwhole, hi⟩ := cell?_eq_some_iff.mp hcell
      refine .writeElement (readElement_of_cell hcells hcell) hcells hi hwhole ?_ hnew
      funext slot
      exact read_of_writeElement hwrite
  | error failure => exact .writeElementFails (writeElement_eq_error_iff.mp hwrite)

theorem outcome_does (m : Memory) (call : Access) : Does m call (m.outcome call) := by
  cases call with
  | write slot v => exact write_does m slot v
  | declare letter bound => exact declare_does m letter bound
  | writeElement letter x v => exact writeElement_does m letter x v
  | reset => exact .reset (fun _ => read_empty) (fun _ => cells?_empty)

/-! ## Declared arrays -/

/-- Every array that is declared has a cell. -/
def HasCells (m : Memory) : Prop :=
  ∀ letter cells, m.cells? letter = .ok (some cells) → 0 < cells.size

theorem hasCells_empty : empty.HasCells := by
  intro letter cells hcells
  rw [cells?_empty (lt_of_cells? hcells)] at hcells
  cases hcells

/-- An array that is put in the place of another has a cell, if the others have. -/
theorem HasCells.update (hm : m.HasCells) {new : Array Float} (hnew : 0 < new.size)
    (hcells : m'.cells? = Function.update m.cells? letter (.ok (some new))) : m'.HasCells := by
  intro other cells hother
  rw [hcells] at hother
  by_cases heq : other = letter
  · rw [heq, Function.update_self] at hother
    obtain rfl := Option.some.inj (Except.ok.inj hother)
    exact hnew
  · rw [Function.update_of_ne heq] at hother
    exact hm other cells hother

/-- A call makes no array without cells. -/
theorem HasCells.does {call : Access} (hm : m.HasCells) (h : Does m call (.ok m')) :
    m'.HasCells := by
  cases h with
  | write hslot hread hcells =>
      intro letter cells hdeclared
      rw [hcells] at hdeclared
      exact hm letter cells hdeclared
  | declare hletter hcount hread hcells =>
      exact hm.update (by rw [Array.size_replicate]; exact hcount.pos) hcells
  | writeElement hold hdeclared hi hwhole hread hcells =>
      exact hm.update (by rw [Array.size_setIfInBounds]; exact hm _ _ hdeclared) hcells
  | reset hread hcells =>
      intro letter cells hdeclared
      rw [hcells letter (lt_of_cells? hdeclared)] at hdeclared
      cases hdeclared

theorem HasCells.apply (hm : m.HasCells) (call : Access) : (m.apply call).HasCells := by
  have hdoes := outcome_does m call
  cases h : m.outcome call with
  | ok m' =>
      rw [apply_of_ok h]
      rw [h] at hdoes
      exact hm.does hdoes
  | error failure =>
      rw [apply_of_error h]
      exact hm

theorem HasCells.applyAll (hm : m.HasCells) (calls : List Access) :
    (m.applyAll calls).HasCells := by
  induction calls generalizing m with
  | nil => exact hm
  | cons call calls ih => exact ih (hm.apply call)

/-! ## Independence -/

/-- A memory is cells that do not depend on each other. -/
structure Independent (m : Memory) : Prop where
  scalar_iff : ∀ slot, (∃ value, m.read slot = .ok value) ↔ slot < 286
  array_iff : ∀ letter, (∃ declared, m.cells? letter = .ok declared) ↔ letter < 26
  hasCells : m.HasCells
  /-- A call changes what it is to and nothing else, or it is refused. -/
  does : ∀ call, Does m call (m.outcome call)
  /-- A call that is refused changes nothing. -/
  refused : ∀ call failure, m.outcome call = .error failure → m.apply call = m
  /-- Behind a write to an element it is found under every subscript with the same whole part, and
      all else is read as before. -/
  readElement : ∀ letter x v m', m.outcome (.writeElement letter x v) = .ok m' →
    ∀ other y, m'.readElement other y =
      if other = letter ∧ truncate? y = truncate? x then .ok v else m.readElement other y

/-- After any calls, successful or not, a memory is 286 scalars and 26 arrays, each of the declared
    ones with a cell at least, and the cells do not depend on each other. -/
theorem independent_after_calls (calls : List Access) : (empty.applyAll calls).Independent where
  scalar_iff _ := read_eq_ok_iff
  array_iff _ := cells?_eq_ok_iff
  hasCells := hasCells_empty.applyAll calls
  does := outcome_does _
  refused _ _ := apply_of_error
  readElement _ _ _ _ h := readElement_of_writeElement h

/-- The last call is refused, and the element is found under another subscript. -/
example :
    let calls : List Access := [.declare 0 2.5, .writeElement 0 (-0.9) 7.0, .writeElement 0 3.0 1.0]
    ((empty.applyAll calls).readElement 0 0.5).toOption = some 7.0 := by
  decide +kernel

end LineBasic.Memory
