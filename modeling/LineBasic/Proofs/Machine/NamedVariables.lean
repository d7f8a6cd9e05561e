/-
  LineBasic.Proofs.Machine.NamedVariables

  An expression depends on the variables that it names, and on nothing else.

  Which element of an array is read is known only when the subscript has been evaluated, and a
  report shows the subscript; so an expression that names an array is taken to depend on the whole
  of it. Two memories that agree on the scalars and the arrays that an expression names give the
  same reading (`Expr.eval_congr`, by induction on the expression). A write to any other variable is
  then of no consequence, since it leaves these alone.
-/
import LineBasic.Proofs.Memory.Places
import LineBasic.Proofs.Stmt.RoundTrip

namespace LineBasic

/-! ## Variables that are named -/

namespace Expr

/-- The scalars that an expression names. -/
def slots : Expr → List Nat
  | .num _ | .unknown => []
  | .var slot => [slot]
  | .element _ index => index.slots
  | .signed _ operand => operand.slots
  | .binary _ left right | .unknownBinary left right => left.slots ++ right.slots

/-- The arrays that an expression names. -/
def letters : Expr → List Nat
  | .num _ | .var _ | .unknown => []
  | .element letter index => letter :: index.letters
  | .signed _ operand => operand.letters
  | .binary _ left right | .unknownBinary left right => left.letters ++ right.letters

end Expr

def Cond.slots (c : Cond) : List Nat :=
  c.exprs.flatMap Expr.slots

def Cond.letters (c : Cond) : List Nat :=
  c.exprs.flatMap Expr.letters

/-- The scalars that share a letter: the letter alone, and with each digit. -/
def Name.sharing (letter : Nat) : List Nat :=
  letter :: (List.range 10).map (suffixedSlot letter)

/-- The place belongs to one of the scalars or arrays. -/
def Place.In (slots letters : List Nat) : Place → Prop
  | .scalar slot => slot ∈ slots
  | .array letter | .elements letter => letter ∈ letters

namespace Memory

variable {m m' : Memory} {slots slots' letters letters' : List Nat}

/-- The memories have the same values in the scalars, and the same arrays: declared or not, of the
    same size and with the same cells. -/
structure AgreesOn (slots letters : List Nat) (m m' : Memory) : Prop where
  read_eq : ∀ slot ∈ slots, m'.read slot = m.read slot
  cells_eq : ∀ letter ∈ letters, m'.cells? letter = m.cells? letter

theorem AgreesOn.mono (h : AgreesOn slots letters m m') (hslots : slots' ⊆ slots)
    (hletters : letters' ⊆ letters) : AgreesOn slots' letters' m m' :=
  ⟨fun slot hslot => h.read_eq slot (hslots hslot),
    fun letter hletter => h.cells_eq letter (hletters hletter)⟩

theorem Puts.agreesOn {p : Place} (h : m.Puts p m') (hp : ¬ p.In slots letters) :
    AgreesOn slots letters m m' := by
  refine ⟨?_, ?_⟩
  · intro slot hslot
    apply h.read_eq
    rintro rfl
    exact hp hslot
  · intro letter hletter
    apply h.cells?_eq
    · rintro rfl
      exact hp hletter
    · rintro rfl
      exact hp hletter

/-- What a soft read gives, its report included, is in the cells of its array. -/
theorem readSoft_congr {letter : Nat} (h : m'.cells? letter = m.cells? letter) (x : Float) :
    m'.readSoft letter x = m.readSoft letter x := by
  unfold readSoft readElement locate
  rw [h]

end Memory

/-! ## Evaluation -/

section Evaluation

variable {m m' : Memory}

theorem Expr.eval_congr {e : Expr} (h : m.AgreesOn e.slots e.letters m') :
    e.eval m' = e.eval m := by
  induction e with
  | num x => rfl
  | var slot =>
      have hread := h.read_eq slot (by simp [slots])
      rw [eval, eval, hread]
  | element letter index ih =>
      have hcells := h.cells_eq letter (by simp [letters])
      have hindex := ih (h.mono (by simp [slots]) (by simp [letters]))
      -- Both sides read with the same subscript, so only the cells of the array are left.
      simp only [eval, hindex, Memory.readSoft_congr hcells]
  | signed sign operand ih =>
      have hoperand := ih (h.mono (by simp [slots]) (by simp [letters]))
      simp only [eval, hoperand]
  | binary op left right ihl ihr =>
      have hleft := ihl (h.mono (by simp [slots]) (by simp [letters]))
      have hright := ihr (h.mono (by simp [slots]) (by simp [letters]))
      simp only [eval, hleft, hright]
  | unknownBinary left right ihl ihr =>
      have hleft := ihl (h.mono (by simp [slots]) (by simp [letters]))
      have hright := ihr (h.mono (by simp [slots]) (by simp [letters]))
      simp only [eval, hleft, hright]
  | unknown => rfl

theorem Cond.eval_congr {c : Cond} (h : m.AgreesOn c.slots c.letters m') :
    c.eval m' = c.eval m := by
  -- Each side of a condition names no more than the condition.
  have hside : ∀ e ∈ c.exprs, e.eval m' = e.eval m := by
    intro e he
    apply Expr.eval_congr
    apply h.mono
    · intro slot hslot
      exact List.mem_flatMap.mpr ⟨e, he, hslot⟩
    · intro letter hletter
      exact List.mem_flatMap.mpr ⟨e, he, hletter⟩
  cases c with
  | nonzero operand =>
      rw [eval, eval, hside operand (by simp [exprs])]
  | compare relation left right =>
      rw [eval, eval, hside left (by simp [exprs]), hside right (by simp [exprs])]
  | unknown symbol left right =>
      rw [eval, eval, hside left (by simp [exprs]), hside right (by simp [exprs])]

end Evaluation

/-! ## Names that share a letter -/

/-- A letter alone and with each digit names as many different scalars. -/
theorem Name.nodup_sharing {letter : Nat} (h : letter < letterCount) : (sharing letter).Nodup := by
  rw [sharing, List.nodup_cons]
  refine ⟨?_, ?_⟩
  · intro hmem
    obtain ⟨digit, -, hslot⟩ := List.mem_map.mp hmem
    simp only [suffixedSlot] at hslot
    omega
  · apply List.Nodup.map _ List.nodup_range
    intro digit digit' hslot
    simp only [suffixedSlot] at hslot
    omega

/-- Expressions and conditions have the same value, or truth, and the same reports in any two
    memories that agree on the scalars and the arrays that they name; so a write to a variable that
    is not named is without influence. In particular the scalar `A`, the scalars `A0` to `A9` and
    the array `A` are variables of their own: what is written to one of them is not found in
    another. -/
theorem reading_depends_on_named_variables {m m' : Memory} :
    (∀ e : Expr, m.AgreesOn e.slots e.letters m' → e.eval m' = e.eval m) ∧
    (∀ c : Cond, m.AgreesOn c.slots c.letters m' → c.eval m' = c.eval m) ∧
    (∀ p, m.Puts p m' →
      (∀ e : Expr, ¬ p.In e.slots e.letters → e.eval m' = e.eval m) ∧
      ∀ c : Cond, ¬ p.In c.slots c.letters → c.eval m' = c.eval m) ∧
    ∀ letter, letter < letterCount → (Name.sharing letter).Nodup ∧
      ∀ slot ∈ Name.sharing letter,
        (∀ p, m.Puts p m' → p ≠ .scalar slot → m'.read slot = m.read slot) ∧
        (m.Puts (.scalar slot) m' → m'.cells? letter = m.cells? letter) := by
  refine ⟨?_, ?_, ?_, ?_⟩
  · intro e h
    exact Expr.eval_congr h
  · intro c h
    exact Cond.eval_congr h
  · intro p hputs
    refine ⟨?_, ?_⟩
    · intro e hp
      exact Expr.eval_congr (hputs.agreesOn hp)
    · intro c hp
      exact Cond.eval_congr (hputs.agreesOn hp)
  · intro letter hletter
    refine ⟨Name.nodup_sharing hletter, ?_⟩
    intro slot hslot
    refine ⟨?_, ?_⟩
    · intro p hputs hp
      exact hputs.read_eq hp
    · intro hputs
      exact hputs.cells?_eq (by simp) (by simp)

/-- `A(A0)+A(3)` in a memory in which `A` has three cells, and in one in which the scalars `A` and
    `A1` and the array `B` are different. -/
theorem reading_depends_on_named_variables_shared_letter :
    ∃ (m m' : Memory) (e : Expr), m.read 0 = .ok 0.0 ∧ m'.read 0 = .ok 7.0 ∧
      m.cells? 1 = .ok none ∧ m'.cells? 1 = .ok (some #[4.0]) ∧
      m.AgreesOn e.slots e.letters m' ∧ e.eval m' = e.eval m ∧
      e.eval m = ⟨[.outOfBounds 0 (.integer 3)], .ok 5.0⟩ := by
  let m : Memory :=
    { scalars := Memory.empty.scalars.set 26 1.0,
      arrays := Memory.empty.arrays.set 0 (some #[0.0, 5.0, 0.0]) }
  let m' : Memory :=
    { scalars := (m.scalars.set 0 7.0).set 27 8.0, arrays := m.arrays.set 1 (some #[4.0]) }
  let e : Expr := .binary .add (.element 0 (.var 26)) (.element 0 (.num 3.0))
  have hagrees : m.AgreesOn e.slots e.letters m' := by
    refine ⟨?_, ?_⟩
    · intro slot hslot
      obtain rfl : slot = 26 := by simpa [e, Expr.slots] using hslot
      rfl
    · intro letter hletter
      obtain rfl : letter = 0 := by simpa [e, Expr.letters] using hletter
      rfl
  have hsame := reading_depends_on_named_variables.1 e hagrees
  have hreports : (e.eval m).reports = [.outOfBounds 0 (.integer 3)] := by decide +kernel
  have hvalue : (e.eval m).outcome = .ok 5.0 := by decide +kernel
  refine ⟨m, m', e, by decide +kernel, by decide +kernel, by decide +kernel, by decide +kernel,
    hagrees, hsame, ?_⟩
  rw [← hreports, ← hvalue]

end LineBasic
