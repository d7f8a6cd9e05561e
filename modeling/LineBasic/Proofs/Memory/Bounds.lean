/-
  LineBasic.Proofs.Memory.Bounds

  The subscripts of a declared array, as rational numbers.

  The bound of a declaration and the subscript of an element are both cut toward zero. So the cells
  go from 0 to what the bound is cut to, and every subscript between -1 and 0 names cell 0. The
  subscripts of an array are then an open interval of rationals, from -1 to the integer behind the
  last cell, until the array is declared anew or the memory is reset (`elements_within_bound`).
-/
import LineBasic.Proofs.Memory.Cells
import LineBasic.Proofs.Number.ExactValue

namespace LineBasic.Memory

open Number

variable {m m' : Memory} {letter count : Nat} {bound y : Float} {top : ℤ}

/-! ## Arrays keep their size -/

/-- Whether a call puts another array in the place of the one with the letter. -/
def Access.Replaces (letter : Nat) : Access → Prop
  | .declare other _ => other = letter
  | .reset => True
  | _ => False

/-- The array is declared and has so many cells. -/
def HasSize (m : Memory) (letter count : Nat) : Prop :=
  ∃ cells, m.cells? letter = .ok (some cells) ∧ cells.size = count

theorem hasSize_of_declare (h : m.declare letter bound = .ok m') :
    m'.HasSize letter (cellCount bound) := by
  have hcells := cells?_of_declare h letter
  rw [if_pos rfl] at hcells
  exact ⟨_, hcells, Array.size_replicate⟩

theorem HasSize.does {call : Access} (hm : m.HasSize letter count)
    (hcall : ¬call.Replaces letter) (h : Does m call (.ok m')) : m'.HasSize letter count := by
  obtain ⟨cells, hcells, hsize⟩ := hm
  cases h with
  | write hslot hread hsame => exact ⟨cells, by rw [hsame, hcells], hsize⟩
  | declare hletter hcount hread hnew =>
      refine ⟨cells, ?_, hsize⟩
      rw [hnew, Function.update_of_ne (Ne.symm hcall), hcells]
  | @writeElement written i x v old cells' _ hold hdeclared hi hwhole hread hnew =>
      -- An element that is set changes the cells of its array but not how many there are.
      by_cases heq : letter = written
      · subst heq
        obtain rfl := Option.some.inj (Except.ok.inj (hdeclared.symm.trans hcells))
        refine ⟨cells'.setIfInBounds i v, ?_, Array.size_setIfInBounds.trans hsize⟩
        rw [hnew, Function.update_self]
      · refine ⟨cells, ?_, hsize⟩
        rw [hnew, Function.update_of_ne heq, hcells]
  | reset hread hnone => exact absurd trivial hcall

theorem HasSize.apply {call : Access} (hm : m.HasSize letter count)
    (hcall : ¬call.Replaces letter) : (m.apply call).HasSize letter count := by
  have hdoes := outcome_does m call
  cases h : m.outcome call with
  | ok m' =>
      rw [apply_of_ok h]
      rw [h] at hdoes
      exact hm.does hcall hdoes
  | error failure =>
      rw [apply_of_error h]
      exact hm

theorem HasSize.applyAll {calls : List Access} (hm : m.HasSize letter count)
    (hcalls : ∀ call ∈ calls, ¬call.Replaces letter) :
    (m.applyAll calls).HasSize letter count := by
  induction calls generalizing m with
  | nil => exact hm
  | cons call calls ih =>
      obtain ⟨hcall, hrest⟩ := List.forall_mem_cons.mp hcalls
      exact ih (hm.apply hcall) hrest

/-! ## Subscripts as rationals -/

/-- The subscript is finite and lies between -1 and the integer behind the last cell, in an array
    whose bound was cut to `top`. -/
def InRange (top : ℤ) (y : Float) : Prop :=
  ∃ q, exactValue? y = some q ∧ -1 < q ∧ q < ((max top 0 + 1 : ℤ) : ℚ)

/-- A subscript names a cell if it is in range. -/
theorem exists_cell_iff (hcount : (count : ℤ) = max top 0 + 1) (y : Float) :
    (∃ i, cell? count y = some i) ↔ InRange top y := by
  constructor
  · rintro ⟨i, hi⟩
    obtain ⟨hwhole, hlt⟩ := cell?_eq_some_iff.mp hi
    obtain ⟨q, hq, hcut⟩ := (truncate?_eq_some_iff y i).mp hwhole
    refine ⟨q, hq, hcut.nonneg_iff.mp (Int.natCast_nonneg i), ?_⟩
    exact (hcut.lt_iff (by omega)).mp (by omega)
  · rintro ⟨q, hq, hlower, hupper⟩
    obtain ⟨n, hwhole, hcut⟩ := truncate?_of_exactValue? hq
    obtain ⟨i, rfl⟩ := Int.eq_ofNat_of_zero_le (hcut.nonneg_iff.mpr hlower)
    have hlt := (hcut.lt_iff (by omega)).mpr hupper
    exact ⟨i, cell?_eq_some_iff.mpr ⟨hwhole, by omega⟩⟩

/-- An element can be written if it can be read. -/
theorem exists_writeElement_iff {v : Float} :
    (∃ m', m.writeElement letter y v = .ok m') ↔ ∃ value, m.readElement letter y = .ok value := by
  unfold writeElement readElement
  cases m.locate letter y with
  | error failure =>
      refine ⟨?_, ?_⟩
      · rintro ⟨_, h⟩
        cases h
      · rintro ⟨_, h⟩
        cases h
  | ok place => exact ⟨fun _ => ⟨_, rfl⟩, fun _ => ⟨_, rfl⟩⟩

/-- The elements of an array are those with a subscript in range. All others are refused as out of
    bounds. -/
structure Bounded (m : Memory) (letter : Nat) (top : ℤ) : Prop where
  read_iff : ∀ y, (∃ value, m.readElement letter y = .ok value) ↔ InRange top y
  write_iff : ∀ y v, (∃ m', m.writeElement letter y v = .ok m') ↔ InRange top y
  read_refused : ∀ y, ¬InRange top y →
    m.readElement letter y = .error (.complaint (.outOfBounds letter (.ofFloat y)))
  write_refused : ∀ y v, ¬InRange top y →
    m.writeElement letter y v = .error (.complaint (.outOfBounds letter (.ofFloat y)))

theorem HasSize.bounded (hm : m.HasSize letter count) (hcount : (count : ℤ) = max top 0 + 1) :
    m.Bounded letter top := by
  obtain ⟨cells, hcells, rfl⟩ := hm
  have hrefused : ∀ y, ¬InRange top y →
      m.readElement letter y = .error (.complaint (.outOfBounds letter (.ofFloat y))) := by
    intro y hy
    refine readElement_of_no_cell hcells (Option.eq_none_iff_forall_ne_some.mpr ?_)
    intro i hi
    exact hy ((exists_cell_iff hcount y).mp ⟨i, hi⟩)
  have hread : ∀ y, (∃ value, m.readElement letter y = .ok value) ↔ InRange top y := by
    intro y
    constructor
    · rintro ⟨value, hok⟩
      by_contra hy
      rw [hrefused y hy] at hok
      cases hok
    · intro hy
      obtain ⟨i, hi⟩ := (exists_cell_iff hcount y).mpr hy
      exact ⟨_, readElement_of_cell hcells hi⟩
  exact {
    read_iff := hread
    write_iff := fun y v => exists_writeElement_iff.trans (hread y)
    read_refused := hrefused
    write_refused := fun y v hy => writeElement_eq_error_iff.mpr (hrefused y hy) }

/-- A finite number stands for the one integer that its exact value is cut to, at any magnitude. So
    behind the declaration of an array with a finite bound, until it is declared anew or the memory
    is reset, an element can be read and written if its subscript lies between -1 and the integer
    behind what the bound is cut to, and it is refused as out of bounds if not. -/
theorem elements_within_bound :
    (∀ x q, exactValue? x = some q →
      ∃ n, truncate? x = some n ∧ (∀ k, CutTo q k ↔ k = n) ∧ (|q| < 1 → n = 0)) ∧
    ∀ (m m' : Memory) (letter : Nat) (bound : Float) (b : ℚ) (top : ℤ) (calls : List Access),
      exactValue? bound = some b → CutTo b top → m.declare letter bound = .ok m' →
      (∀ call ∈ calls, ¬call.Replaces letter) → (m'.applyAll calls).Bounded letter top := by
  constructor
  · intro x q hq
    obtain ⟨n, hwhole, hcut⟩ := truncate?_of_exactValue? hq
    refine ⟨n, hwhole, fun k => ⟨fun hk => hk.unique hcut, ?_⟩, hcut.eq_zero⟩
    rintro rfl
    exact hcut
  · intro m m' letter bound b top calls hbound htop hdeclare hcalls
    have hcount := asks_cellCount bound
    rw [Asks, (truncate?_eq_some_iff bound top).mpr ⟨b, hbound, htop⟩] at hcount
    exact ((hasSize_of_declare hdeclare).applyAll hcalls).bounded hcount

/-- With the bound 2.5 there are the cells 0 to 2: a negative fraction is in range, a fraction
    behind the last cell too, and the next integer is not. -/
theorem elements_within_bound_fractions :
    ∃ m', empty.declare 0 2.5 = .ok m' ∧
      let after := m'.applyAll [.writeElement 0 (-0.75) 7.0, .declare 1 4.0]
      (∃ value, after.readElement 0 (-0.75) = .ok value) ∧
      (∃ m'', after.writeElement 0 2.75 1.0 = .ok m'') ∧
      after.readElement 0 3.0 = .error (.complaint (.outOfBounds 0 (.integer 3))) := by
  cases hdeclare : empty.declare 0 2.5 with
  | error fault => exact absurd (reason_of_declare hdeclare) (by decide +kernel)
  | ok m' =>
      have hbound : exactValue? 2.5 = some (5 / 2) := by decide +kernel
      obtain ⟨n, hwhole, hcut, -⟩ := elements_within_bound.1 2.5 (5 / 2) hbound
      have hn : truncate? 2.5 = some 2 := by decide +kernel
      obtain rfl := Option.some.inj (hn.symm.trans hwhole)
      have hbounded := elements_within_bound.2 empty m' 0 2.5 (5 / 2) 2
        [.writeElement 0 (-0.75) 7.0, .declare 1 4.0] hbound ((hcut 2).mpr rfl) hdeclare
        (by simp [Access.Replaces])
      have hlower : InRange 2 (-0.75) := ⟨-3 / 4, by decide +kernel, by norm_num, by norm_num⟩
      have hupper : InRange 2 2.75 := ⟨11 / 4, by decide +kernel, by norm_num, by norm_num⟩
      have houtside : ¬InRange 2 3.0 := by
        have hthree : exactValue? 3.0 = some 3 := by decide +kernel
        rintro ⟨q, hq, -, hlt⟩
        obtain rfl := Option.some.inj (hthree.symm.trans hq)
        norm_num at hlt
      have hshown : Subscript.ofFloat 3.0 = .integer 3 := by decide +kernel
      refine ⟨m', rfl, (hbounded.read_iff _).mpr hlower, (hbounded.write_iff _ _).mpr hupper, ?_⟩
      rw [hbounded.read_refused _ houtside, hshown]

end LineBasic.Memory
