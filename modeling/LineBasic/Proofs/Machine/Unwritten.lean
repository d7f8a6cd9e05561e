/-
  LineBasic.Proofs.Machine.Unwritten

  What a run leaves alone of the variables: all that the listing does not name to be written.

  A statement writes the places that it names, and no others, with one exception: `NEXT` may name
  nothing, and writes the variable of a loop that was opened any number of lines before. That loop
  was opened by a `FOR` of the listing, though, which names the variable. So between any two points
  of a run the memory is rewritten in places that lines in between name or loops count
  (`rewrites_steps`), and what the writes to such places keep, the run keeps.
-/
import LineBasic.Proofs.Machine.LoopStack
import LineBasic.Proofs.Memory.Places
import Mathlib.Logic.Relation

namespace LineBasic

/-! ## Places that are named -/

/-- The places that a statement names to be written: the target of an assignment, the arrays of a
    `DIM` and the variable of a `FOR`. -/
def Stmt.writes : Stmt → List Place
  | .assign (.scalar slot) _ => [.scalar slot]
  | .assign (.element letter _) _ => [.elements letter]
  | .dim items => items.map fun item => .array item.1
  | .forTo slot _ _ _ => [.scalar slot]
  | _ => []

/-- A line that did not parse names nothing. -/
def Line.writes (line : Line) : List Place :=
  match line.content with
  | .ok stmt => stmt.writes
  | .error _ => []

def Listing.writes (l : Listing) : List Place :=
  l.lines.flatMap Line.writes

theorem Line.writes_of_content {line : Line} {stmt : Stmt} (h : line.content = .ok stmt) :
    line.writes = stmt.writes := by
  rw [writes, h]

/-! ## Memories that are rewritten -/

namespace Memory

variable {P : Place → Prop} {m m' : Memory}

/-- The first memory becomes the second by writes to such places. -/
def Rewrites (P : Place → Prop) : Memory → Memory → Prop :=
  Relation.ReflTransGen fun m m' => ∃ p, P p ∧ m.Puts p m'

theorem Puts.rewrites {p : Place} (h : m.Puts p m') (hp : P p) : Rewrites P m m' :=
  .single ⟨p, hp, h⟩

namespace Rewrites

variable {slot letter : Nat} (h : Rewrites P m m')
include h

/-- What each of the writes keeps, all of them keep. -/
theorem keeps {Q : Memory → Prop} (hputs : ∀ {p m m'}, P p → m.Puts p m' → Q m → Q m')
    (hm : Q m) : Q m' := by
  induction h with
  | refl => exact hm
  | tail hrest hlast ih =>
      obtain ⟨p, hp, hput⟩ := hlast
      exact hputs hp hput ih

theorem read_eq (hslot : ¬ P (.scalar slot)) : m'.read slot = m.read slot := by
  refine h.keeps (Q := fun memory => memory.read slot = m.read slot) ?_ rfl
  intro p memory memory' hp hputs hread
  exact (hputs.read_eq (by rintro rfl; exact hslot hp)).trans hread

theorem size_eq (hletter : ¬ P (.array letter)) : m'.size letter = m.size letter := by
  refine h.keeps (Q := fun memory => memory.size letter = m.size letter) ?_ rfl
  intro p memory memory' hp hputs hsize
  exact (hputs.size_eq (by rintro rfl; exact hletter hp)).trans hsize

theorem undeclared (hletter : ¬ P (.array letter)) (hm : m.cells? letter = .ok none) :
    m'.cells? letter = .ok none := by
  refine h.keeps (Q := fun memory => memory.cells? letter = .ok none) ?_ hm
  intro p memory memory' hp hputs
  exact hputs.undeclared (by rintro rfl; exact hletter hp)

theorem zeroIn (hletter : ¬ P (.elements letter)) (hm : m.ZeroIn letter) : m'.ZeroIn letter := by
  refine h.keeps (Q := ZeroIn letter) ?_ hm
  intro p memory memory' hp hputs
  exact hputs.zeroIn (by rintro rfl; exact hletter hp)

end Rewrites

end Memory

/-! ## Statements -/

section Statements

variable {P : Place → Prop} {m : Machine}

theorem EntersLoop.rewrites {m' : Machine} {slot : Nat} {start limit : Expr} {step : Option Expr}
    {first last stride : Float} (h : EntersLoop m slot start limit step first last stride m')
    (hslot : P (.scalar slot)) : m.memory.Rewrites P m'.memory := by
  cases h with
  | intro hstart hlimit hstep hwrite => exact (Memory.Puts.set hwrite).rewrites hslot

theorem CountsLoop.rewrites {m' : Machine} {f : Frame} {value : Float}
    (h : CountsLoop m f value m') (hslot : P (.scalar f.slot)) :
    m.memory.Rewrites P m'.memory := by
  cases h with
  | intro hread hwrite => exact (Memory.Puts.set hwrite).rewrites hslot

theorem Declares.rewrites {items : List (Nat × Expr)} {r : EStateM.Result Failure Machine Unit}
    (h : Declares m items r) (hitems : ∀ item ∈ items, P (.array item.1)) :
    m.memory.Rewrites P (machineAfter r).memory := by
  induction h with
  | nil => exact .refl
  | cons hbound hdeclare hrest ih =>
      simp only [List.mem_cons, forall_eq_or_imp] at hitems
      exact ((Memory.Puts.declare hdeclare).rewrites hitems.1).trans (ih hitems.2)
  | fail hbound hdeclare => exact .refl

/-- A statement writes what it names, and the variables of the open loops. -/
theorem Effect.rewrites {stmt : Stmt} {r : EStateM.Result Failure Machine Flow}
    (h : Effect m stmt r) (hstmt : ∀ p ∈ stmt.writes, P p)
    (hframes : ∀ f ∈ m.frames, P (.scalar f.slot)) :
    m.memory.Rewrites P (machineAfter r).memory := by
  cases h with
  | assign hvalue hwrite =>
      exact (Memory.Puts.set hwrite).rewrites (hstmt _ List.mem_cons_self)
  | assignElement hindex hvalue hwrite =>
      exact (Memory.Puts.setElement hwrite).rewrites (hstmt _ List.mem_cons_self)
  | dim hd =>
      rw [Stmt.writes, List.forall_mem_map] at hstmt
      exact hd.rewrites hstmt
  | dimFails hd =>
      -- The arrays before the one that fails have been declared.
      rw [Stmt.writes, List.forall_mem_map] at hstmt
      exact hd.rewrites hstmt
  | openLoop henter => exact henter.rewrites (hstmt _ List.mem_cons_self)
  | loopTooDeep henter => exact henter.rewrites (hstmt _ List.mem_cons_self)
  | skipLoop henter => exact henter.rewrites (hstmt _ List.mem_cons_self)
  | skipFails henter => exact henter.rewrites (hstmt _ List.mem_cons_self)
  | repeatLoop hopen hslot hcount =>
      exact hcount.rewrites (hframes _ (by rw [hopen]; exact List.mem_cons_self))
  | closeLoop hopen hslot hcount =>
      exact hcount.rewrites (hframes _ (by rw [hopen]; exact List.mem_cons_self))
  | _ => exact .refl

end Statements

/-! ## Runs -/

/-- The variable of a loop that was opened is named by its `FOR`. -/
theorem Frame.Opened.mem_writes {l : Listing} {f : Frame} (h : f.Opened l) :
    .scalar f.slot ∈ l.writes := by
  obtain ⟨line, start, limit, step, hline, hfor⟩ := h.line
  refine List.mem_flatMap.mpr ⟨line, List.mem_of_getElem? hline, ?_⟩
  rw [Line.writes_of_content hfor]
  exact List.mem_cons_self

namespace Machine

variable {P : Place → Prop} {m : Machine}

theorem InOrder.rewrites {l : Listing} {maxDepth : Int} (hl : l.Stored)
    (hm : InOrder l maxDepth m)
    (hnamed : ∀ line, l.lines[m.pc]? = some line → ∀ p ∈ line.writes, P p)
    (hscalars : ∀ slot, .scalar slot ∈ l.writes → P (.scalar slot)) :
    m.memory.Rewrites P m.step.machine.memory := by
  have hlisting := hm.inRun.listing_eq
  cases hline : m.listing.lines[m.pc]? with
  | none =>
      rw [step_of_end hline]
      exact .refl
  | some line =>
      rw [step_of_line hline, Step.memory_ofResult]
      rw [hlisting] at hline
      cases hcontent : line.content with
      | error e =>
          rw [Action.execLine, hcontent]
          exact .refl
      | ok stmt =>
          obtain ⟨-, heffect⟩ := hm.inRun.effect hl (List.mem_of_getElem? hline) hcontent
          apply heffect.rewrites
          · rw [← Line.writes_of_content hcontent]
            exact hnamed line hline
          · intro f hf
            have hopened := hm.orderly.opened f hf
            rw [hlisting] at hopened
            exact hscalars f.slot hopened.mem_writes

/-- Between two points of a run only such places are written as the lines that are executed name, or
    as are scalars that the listing names. -/
theorem rewrites_steps (hstored : m.listing.Stored) (n k : Nat)
    (hnamed : ∀ j s line, n ≤ j → j < n + k → m.start.steps j = .running s →
      m.listing.lines[s.pc]? = some line → ∀ p ∈ line.writes, P p)
    (hscalars : ∀ slot, .scalar slot ∈ m.listing.writes → P (.scalar slot)) :
    (m.start.steps n).machine.memory.Rewrites P (m.start.steps (n + k)).machine.memory := by
  -- On the lines between the points; a run that is over in between changes no more.
  induction k with
  | zero => exact .refl
  | succ k ih =>
      have hbefore := ih fun j s line hj hk => hnamed j s line hj (by omega)
      refine hbefore.trans ?_
      rw [← Nat.add_assoc]
      have hpoint := InOrder.run hstored (n + k)
      cases hs : m.start.steps (n + k) with
      | running s =>
          rw [hs] at hpoint
          rw [steps_succ hs]
          apply hpoint.rewrites (hstored.lock true) _ hscalars
          intro line hline
          exact hnamed (n + k) s line (by omega) (by omega) hs hline
      | finished s outcome =>
          rw [steps_succ_of_over (by simp [hs]), hs]
      | faulted s fault =>
          rw [steps_succ_of_over (by simp [hs]), hs]

end Machine

/-- At every point of the run of a stored listing: a scalar that no assignment and no `FOR` names is
    zero, an array that no `DIM` names is not declared, and an array of which no assignment sets an
    element has nothing but zeros. And from that point to any later one, an array keeps its size
    unless a `DIM` that names it is executed in between. -/
theorem unwritten_variables_stay {m : Machine} (hstored : m.listing.Stored) (n : Nat) :
    (∀ slot, slot < slotCount → .scalar slot ∉ m.listing.writes →
      (m.start.steps n).machine.memory.read slot = .ok 0.0) ∧
    (∀ letter, letter < letterCount → .array letter ∉ m.listing.writes →
      (m.start.steps n).machine.memory.cells? letter = .ok none) ∧
    (∀ letter, .elements letter ∉ m.listing.writes →
      (m.start.steps n).machine.memory.ZeroIn letter) ∧
    ∀ letter k, (∀ j s line, n ≤ j → j < n + k → m.start.steps j = .running s →
        m.listing.lines[s.pc]? = some line → .array letter ∉ line.writes) →
      (m.start.steps (n + k)).machine.memory.size letter =
        (m.start.steps n).machine.memory.size letter := by
  -- From the start on, only places that the listing names are written.
  have hrun : Memory.empty.Rewrites (· ∈ m.listing.writes) (m.start.steps n).machine.memory := by
    have hsteps := Machine.rewrites_steps (P := (· ∈ m.listing.writes)) hstored 0 n
      (fun j s line _ _ _ hline p hp =>
        List.mem_flatMap.mpr ⟨line, List.mem_of_getElem? hline, hp⟩) (fun _ => id)
    rwa [Nat.zero_add] at hsteps
  refine ⟨?_, ?_, ?_, ?_⟩
  · intro slot hslot hnamed
    rw [hrun.read_eq hnamed, Memory.read_empty hslot]
  · intro letter hletter hnamed
    exact hrun.undeclared hnamed (Memory.cells?_empty hletter)
  · intro letter hnamed
    exact hrun.zeroIn hnamed (Memory.zeroIn_empty letter)
  · intro letter k hquiet
    have hsteps := Machine.rewrites_steps (P := (· ≠ .array letter)) hstored n k
      (fun j s line hj hk hs hline p hp heq => hquiet j s line hj hk hs hline (heq ▸ hp))
      (fun slot _ => by simp)
    exact hsteps.size_eq (by simp)

/-- A loop over `A` that reads the array `A` and sums up in `A0`; the array is declared once more
    when the loop is over. -/
theorem unwritten_variables_stay_shared_letter :
    ∃ m : Machine, m.listing.Stored ∧
      m.listing.lines.map (·.text) =
        ["DIM A(2), B(1)", "FOR A=1 TO 2", "A0=A0+A", "B(0)=A(A)", "NEXT", "DIM A(5)"] ∧
      (m.start.steps 8).machine.memory.read 26 = .ok 3.0 ∧
      (m.start.steps 8).machine.memory.read 27 = .ok 0.0 ∧
      (m.start.steps 8).machine.memory.cells? 2 = .ok none ∧
      (m.start.steps 8).machine.memory.ZeroIn 0 ∧
      (m.start.steps 1).machine.memory.size 0 = .ok 3 ∧
      (m.start.steps 8).machine.memory.size 0 = .ok 3 ∧
      (m.start.steps 9).machine.memory.size 0 = .ok 6 := by
  let edits : List Edit := [.insert 10 "DIM A(2), B(1)", .insert 20 "FOR A=1 TO 2",
    .insert 30 "A0=A0+A", .insert 40 "B(0)=A(A)", .insert 50 "NEXT", .insert 60 "DIM A(5)"]
  let m : Machine := { listing := { lines := [
    ⟨10, "DIM A(2), B(1)", .DIM, .ok (.dim [(0, .num 2.0), (1, .num 1.0)])⟩,
    ⟨20, "FOR A=1 TO 2", .FOR, .ok (.forTo 0 (.num 1.0) (.num 2.0) none)⟩,
    ⟨30, "A0=A0+A", .ASSIGN, .ok (.assign (.scalar 26) (.binary .add (.var 26) (.var 0)))⟩,
    ⟨40, "B(0)=A(A)", .ASSIGN, .ok (.assign (.element 1 (.num 0.0)) (.element 0 (.var 0)))⟩,
    ⟨50, "NEXT", .NEXT, .ok (.next none)⟩,
    ⟨60, "DIM A(5)", .DIM, .ok (.dim [(0, .num 5.0)])⟩] } }
  have hstored : m.listing.Stored := ⟨1000, edits, rfl⟩
  have hlines : ∀ j < 8, 1 ≤ j → ∀ line ∈ m.listing.lines[(m.start.steps j).machine.pc]?,
      Place.array 0 ∉ line.writes := by decide +kernel
  have hquiet : ∀ j s line, 1 ≤ j → j < 1 + 7 → m.start.steps j = .running s →
      m.listing.lines[s.pc]? = some line → Place.array 0 ∉ line.writes := by
    intro j s line hj hk hs hline
    refine hlines j hk hj line ?_
    rw [hs]
    exact hline
  have hbefore : (m.start.steps 1).machine.memory.size 0 = .ok 3 := by decide +kernel
  obtain ⟨hscalars, harrays, helements, -⟩ := unwritten_variables_stay hstored 8
  obtain ⟨-, -, -, hsize⟩ := unwritten_variables_stay hstored 1
  exact ⟨m, hstored, rfl, by decide +kernel, hscalars 27 (by decide) (by decide +kernel),
    harrays 2 (by decide) (by decide +kernel), helements 0 (by decide +kernel), hbefore,
    (hsize 0 7 hquiet).trans hbefore, by decide +kernel⟩

end LineBasic
