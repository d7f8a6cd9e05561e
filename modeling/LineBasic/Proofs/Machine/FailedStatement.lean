/-
  LineBasic.Proofs.Machine.FailedStatement

  What a statement that ends in a complaint leaves behind. Every statement reads and checks before
  it changes anything, so the machine is as it was, but for the reports of the array reads that
  yielded zero. There is one exception: `FOR` sets its variable before it looks for its `NEXT` or
  for room for one more loop, and the variable keeps the first value when there is none.
-/
import LineBasic.Proofs.Machine.Failure

namespace LineBasic

/-- One variable was set, and the memory is otherwise the same. -/
structure Memory.SetOnly (slot : Nat) (value : Float) (memory memory' : Memory) : Prop where
  read_eq : memory'.read slot = .ok value
  read_other : ∀ other, other ≠ slot → memory'.read other = memory.read other
  arrays_eq : memory'.arrays = memory.arrays

/-- How a statement changes the memory before it ends in a complaint. -/
def Stmt.Spoils : Stmt → Complaint → Memory → Memory → Prop
  | .forTo slot start _ _, c, memory, memory' =>
      (c = .forWithoutNext ∨ c = .forTooDeep) ∧
        ∃ first, (start.eval memory).outcome = .ok first ∧ memory.SetOnly slot first memory'
  | _, _, memory, memory' => memory' = memory

theorem Stmt.Spoils.arrays_eq {stmt : Stmt} {c : Complaint} {memory memory' : Memory}
    (h : stmt.Spoils c memory memory') : memory'.arrays = memory.arrays := by
  cases stmt with
  | forTo slot start limit step =>
      obtain ⟨-, first, -, hset⟩ := h
      exact hset.arrays_eq
  | _ => exact congrArg Memory.arrays h

/-- A statement ended in the complaint and left a machine on which nothing was done but array reads
    that were reported, and what the statement may spoil. -/
structure LeftByComplaint (m : Machine) (stmt : Stmt) (c : Complaint) (m' : Machine) : Prop where
  control : m.SameControl m'
  running_eq : m'.running = m.running
  log_eq : ∃ reports : List Complaint, m'.log = m.log ++ reports.map Event.softRead
  arrays_eq : m'.memory.arrays = m.memory.arrays
  spoils : stmt.Spoils c m.memory m'.memory

namespace LeftByComplaint

variable {m m' : Machine} {stmt : Stmt} {c : Complaint}

theorem after {reports : List Complaint} {memory : Memory}
    (h : stmt.Spoils c m.memory memory) : LeftByComplaint m stmt c (m.after reports memory) where
  control := .after m reports memory
  running_eq := rfl
  log_eq := ⟨reports, rfl⟩
  arrays_eq := h.arrays_eq
  spoils := h

/-- Nothing was read, and nothing done. -/
theorem refl (h : stmt.Spoils c m.memory m.memory) : LeftByComplaint m stmt c m := by
  have hleft : LeftByComplaint m stmt c (m.after [] m.memory) := after h
  rwa [Machine.after_nil_self] at hleft

end LeftByComplaint

section Rules

variable {m m' : Machine} {stmt : Stmt} {c : Complaint}

/-- A loop that was entered has its variable set, whatever becomes of it. -/
theorem EntersLoop.leftByComplaint {slot : Nat} {start limit : Expr} {step : Option Expr}
    {first last stride : Float} (h : EntersLoop m slot start limit step first last stride m')
    (hc : c = .forWithoutNext ∨ c = .forTooDeep) :
    LeftByComplaint m (.forTo slot start limit step) c m' := by
  have hfirst := h.outcomes.1
  cases h with
  | intro hstart hlimit hstep hwrite =>
      have hset : m.memory.SetOnly slot first _ :=
        ⟨Memory.read_of_write hwrite, fun _ => Memory.read_of_write_ne hwrite,
          Memory.arrays_of_write hwrite⟩
      exact .after ⟨hc, first, hfirst, hset⟩

/-- A rule that ends in a complaint leaves the machine as it was. -/
theorem Effect.leftByComplaint (hstmt : stmt.WellFormed)
    (h : Effect m stmt (.error (.complaint c) m')) : LeftByComplaint m stmt c m' := by
  cases h with
  | assignFails hindex hvalue hwrite => exact .after rfl
  | dimFails hd =>
      -- Arrays that were declared before the one that fails stay, but that is no complaint.
      rcases hd.fault_cases fun item hitem => (hstmt.2 item hitem).1 with hfault | hfault
      · cases hfault
      · cases hfault
  | loopTooDeep henter => exact henter.leftByComplaint (Or.inr rfl)
  | skipFails henter => exact henter.leftByComplaint (Or.inl rfl)
  | noLoop hframes => exact .refl rfl
  | otherLoop hframes hslot => exact .refl rfl
  | gotoFails hline => exact .refl rfl
  | thenFails hcond hline => exact .after rfl

/-- A line that complains is still the line at hand. -/
theorem Machine.InRun.pc_of_complaint {l : Listing} {s s' : Machine} {line : Line} (hl : l.Stored)
    (hs : InRun l s) (hline : line ∈ l.lines)
    (h : Action.execLine line s = .error (.complaint c) s') : s'.pc = s.pc := by
  cases hcontent : line.content with
  | error e =>
      rw [Action.execLine, hcontent] at h
      obtain ⟨-, rfl⟩ := EStateM.Result.error.inj h
      rfl
  | ok stmt =>
      obtain ⟨hstmt, heffect⟩ := hs.effect hl hline hcontent
      -- `FOR` may have written its variable by then, but the line to execute is set last.
      rw [h] at heffect
      exact (heffect.leftByComplaint hstmt).control.pc_eq

/-- A well-formed statement that ends in a complaint leaves the listing, the loops, the line to
    execute and the arrays alone, and the variables too unless it is a `FOR`: that fails only for
    want of a `NEXT` or of room, and has set its variable, and no other, to the first value. -/
theorem complaint_leaves_machine (hstmt : stmt.WellFormed)
    (hframes : ∀ f ∈ m.frames, f.slot < slotCount)
    (h : Action.exec stmt m = .error (.complaint c) m') : LeftByComplaint m stmt c m' := by
  have heffect := exec_effect hstmt hframes
  rw [h] at heffect
  exact heffect.leftByComplaint hstmt

end Rules

/-- A loop within a loop that is to be skipped and has no `NEXT`; its limit is an array element that
    there is not. -/
theorem complaint_leaves_machine_skipped_loop :
    ∃ (m s s' : Machine) (stmt : Stmt), m.listing.Stored ∧
      m.listing.lines.map (·.text) = ["FOR B=1 TO 2", "DIM C(2)", "FOR A=3 TO C(7)"] ∧
      m.start.steps 2 = .running s ∧ (s.listing.lines[s.pc]?).map (·.content) = some (.ok stmt) ∧
      Action.exec stmt s = .error (.complaint .forWithoutNext) s' ∧
      s'.memory.read 0 = .ok 3.0 ∧ LeftByComplaint s stmt .forWithoutNext s' := by
  let edits : List Edit :=
    [.insert 10 "FOR B=1 TO 2", .insert 20 "DIM C(2)", .insert 30 "FOR A=3 TO C(7)"]
  let stmt : Stmt := .forTo 0 (.num 3.0) (.element 2 (.num 7.0)) none
  let m : Machine := { listing := { lines := [
    ⟨10, "FOR B=1 TO 2", .FOR, .ok (.forTo 1 (.num 1.0) (.num 2.0) none)⟩,
    ⟨20, "DIM C(2)", .DIM, .ok (.dim [(2, .num 2.0)])⟩,
    ⟨30, "FOR A=3 TO C(7)", .FOR, .ok stmt⟩] } }
  let s : Machine := (m.start.steps 2).machine
  have hstored : m.listing.Stored := ⟨1000, edits, rfl⟩
  have hrun : m.start.steps 2 = .running s := rfl
  have hfails : Action.exec stmt s =
      .error (.complaint .forWithoutNext) (machineAfter (Action.exec stmt s)) := rfl
  have hwf : stmt.WellFormed := ⟨by decide, trivial, ⟨by decide, trivial⟩, by simp⟩
  have hframes : ∀ f ∈ s.frames, f.slot < slotCount := by decide +kernel
  have hleft := complaint_leaves_machine hwf hframes hfails
  exact ⟨m, s, _, stmt, hstored, rfl, hrun, rfl, hfails, by decide +kernel, hleft⟩

end LineBasic
