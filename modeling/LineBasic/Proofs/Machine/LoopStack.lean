/-
  LineBasic.Proofs.Machine.LoopStack

  The line to execute and the open loops at every point of a run, however the run jumps.

  A jump out of a loop leaves the loop open, and coming back opens it again, so the open loops say
  little about where the run is. What they do say they keep: each was opened by a `FOR` line of the
  listing on its variable and has a step that is not zero, and there are no more of them than may be
  open. `Moves` says once what executing a line can do to the control of the machine.
-/
import LineBasic.Proofs.Listing.Nesting
import LineBasic.Proofs.Machine.Control

namespace LineBasic

/-! ## What a line does to the control -/

/-- How the line to execute and the open loops change when a line is executed; the rest of the
    control stays. -/
inductive Machine.Moves (m : Machine) : Machine → Prop
  /-- The run ends at the line. -/
  | stays {m' : Machine} (h : m.SameControl m') : Moves m m'
  | goesOn {m' : Machine} (h : m.SameControl m') : Moves m { m' with pc := m.pc + 1 }
  | jumps {m' : Machine} {n : Int} {i : Nat} (h : m.SameControl m')
      (hline : m.listing.indexOf? n = some i) : Moves m { m' with pc := i }
  | skips {m' : Machine} {i : Nat} (h : m.SameControl m')
      (hnext : m.listing.matchingNext? (m.pc + 1) = some i) : Moves m { m' with pc := i + 1 }
  | opens {m' : Machine} {slot : Nat} {start limit : Expr} {step : Option Expr} {line : Line}
      {last stride : Float} (h : m.SameControl m') (hline : m.listing.lines[m.pc]? = some line)
      (hstmt : line.content = .ok (.forTo slot start limit step))
      (hstride : (stride == 0.0) = false) (hroom : (m.frames.length : Int) < m.maxDepth) :
      Moves m { m' with frames := ⟨slot, last, stride, m.pc⟩ :: m.frames, pc := m.pc + 1 }
  | repeats {m' : Machine} {f : Frame} {outer : List Frame} (h : m.SameControl m')
      (hframes : m.frames = f :: outer) : Moves m { m' with pc := f.forIndex + 1 }
  | closes {m' : Machine} {f : Frame} {outer : List Frame} (h : m.SameControl m')
      (hframes : m.frames = f :: outer) : Moves m { m' with frames := outer, pc := m.pc + 1 }

/-- The step of a loop is never zero. -/
theorem readStep_ne_zero {memory : Memory} {step : Option Expr} {reports : List Complaint}
    {stride : Float} (h : readStep memory step = ⟨reports, .ok stride⟩) :
    (stride == 0.0) = false := by
  have hone : ((1.0 : Float) == 0.0) = false := by decide
  cases step with
  | none =>
      obtain rfl := Except.ok.inj (Reading.mk.inj h).2
      exact hone
  | some e =>
      rw [readStep, Reading.bind_eq, Reading.bind] at h
      split at h
      · simp at h
      · rename_i x hx
        obtain rfl := Except.ok.inj (Reading.mk.inj h).2
        -- Zero is replaced by one, and only zero is.
        cases hzero : x == 0.0 with
        | true => simp [hone]
        | false => simp [hzero]

theorem EntersLoop.stride_ne_zero {m m' : Machine} {slot : Nat} {start limit : Expr}
    {step : Option Expr} {first last stride : Float}
    (h : EntersLoop m slot start limit step first last stride m') : (stride == 0.0) = false := by
  cases h with
  | intro hstart hlimit hstep hwrite => exact readStep_ne_zero hstep

/-- Behind a line after which the run goes on, the next line is at hand. -/
theorem Machine.SameControl.moves_next {m m' : Machine} (h : m.SameControl m') :
    m.Moves { m' with pc := m'.pc + 1 } := by
  rw [h.pc_eq]
  exact .goesOn h

/-- A failure ends the run at the line. -/
theorem Machine.SameControl.moves_failure {m m' : Machine} (h : m.SameControl m') (number : Int)
    (failure : Failure) : m.Moves (Step.ofResult number (.error failure m')).machine :=
  .stays (h.trans (Step.sameControl_ofResult_error number failure m'))

/-- Whatever the statement of the line at hand does, the control moves in one of these ways. -/
theorem Effect.moves {m : Machine} {line : Line} {stmt : Stmt}
    {r : EStateM.Result Failure Machine Flow} (h : Effect m stmt r)
    (hline : m.listing.lines[m.pc]? = some line) (hstmt : line.content = .ok stmt) :
    m.Moves (Step.ofResult line.number r).machine := by
  cases h with
  | assign => exact (Machine.SameControl.after m _ _).moves_next
  | assignElement => exact (Machine.SameControl.after m _ _).moves_next
  | assignFails => exact (Machine.SameControl.after m _ _).moves_failure _ _
  | dim hd => exact hd.sameControl.moves_next
  | dimFails hd => exact hd.sameControl.moves_failure _ _
  | @openLoop slot start limit step first last stride m' henter hruns hroom =>
      have hsame := henter.sameControl
      show m.Moves { m' with frames := ⟨slot, last, stride, m.pc⟩ :: m.frames, pc := m'.pc + 1 }
      rw [hsame.pc_eq]
      exact .opens hsame hline hstmt henter.stride_ne_zero hroom
  | loopTooDeep henter => exact henter.sameControl.moves_failure _ _
  | skipLoop henter hskips hnext => exact .skips henter.sameControl hnext
  | skipFails henter => exact henter.sameControl.moves_failure _ _
  | repeatLoop hframes hslot hcount => exact .repeats hcount.sameControl hframes
  | @closeLoop slot f outer value m' hframes hslot hcount =>
      have hsame := hcount.sameControl
      show m.Moves { m' with frames := outer, pc := m'.pc + 1 }
      rw [hsame.pc_eq]
      exact .closes hsame hframes
  | noLoop => exact (Machine.SameControl.refl m).moves_failure _ _
  | otherLoop => exact (Machine.SameControl.refl m).moves_failure _ _
  | printText => exact ((Machine.SameControl.refl m).note _).moves_next
  | printNothing => exact ((Machine.SameControl.refl m).note _).moves_next
  | print => exact ((Machine.SameControl.after m _ _).note _).moves_next
  | goto hjump => exact .jumps (.refl m) hjump
  | gotoFails => exact (Machine.SameControl.refl m).moves_failure _ _
  | ifGoesOn => exact (Machine.SameControl.after m _ _).moves_next
  | thenJumps hcond hjump => exact .jumps (.after m _ _) hjump
  | thenFails => exact (Machine.SameControl.after m _ _).moves_failure _ _
  | stop => exact .stays (.refl m)

theorem Machine.InRun.moves {l : Listing} {m : Machine} (hl : l.Stored) (hm : InRun l m)
    (hpc : m.pc < m.listing.lines.length) : m.Moves m.step.machine := by
  have hline : m.listing.lines[m.pc]? = some m.listing.lines[m.pc] := List.getElem?_eq_getElem hpc
  have hmem : m.listing.lines[m.pc] ∈ l.lines := hm.listing_eq ▸ List.getElem_mem hpc
  rw [step_of_line hline]
  cases hstmt : m.listing.lines[m.pc].content with
  | error e =>
      rw [Action.execLine, hstmt]
      exact (SameControl.refl m).moves_failure _ _
  | ok stmt => exact (hm.effect hl hmem hstmt).2.moves hline hstmt

/-! ## What every line keeps -/

/-- The loop was opened by a `FOR` line of the listing on its variable, and its step is not zero. -/
structure Frame.Opened (l : Listing) (f : Frame) : Prop where
  line : ∃ line start limit step,
    l.lines[f.forIndex]? = some line ∧ line.content = .ok (.forTo f.slot start limit step)
  step_ne_zero : (f.step == 0.0) = false

/-- The line to execute is one of the listing or the place behind the last, and the open loops are
    of the listing and no more than may be open. -/
structure Machine.Orderly (m : Machine) : Prop where
  pc_le : m.pc ≤ m.listing.lines.length
  depth_le : (m.frames.length : Int) ≤ max m.maxDepth 0
  opened : ∀ f ∈ m.frames, f.Opened m.listing

theorem Listing.lt_of_indexOf? {l : Listing} {n : Int} {i : Nat} (h : l.indexOf? n = some i) :
    i < l.lines.length :=
  (List.findIdx?_eq_some_iff_getElem.mp h).1

namespace Machine.Orderly

variable {m m' : Machine}

theorem of_sameControl (hm : m.Orderly) (h : m.SameControl m') : m'.Orderly := by
  refine ⟨?_, ?_, ?_⟩
  · rw [h.pc_eq, h.listing_eq]
    exact hm.pc_le
  · rw [h.frames_eq, h.maxDepth_eq]
    exact hm.depth_le
  · rw [h.frames_eq, h.listing_eq]
    exact hm.opened

/-- Another line may be next, if there is one or it is the place behind the last. -/
theorem goTo {i : Nat} (hm : m.Orderly) (hi : i ≤ m.listing.lines.length) :
    Orderly { m with pc := i } :=
  ⟨hi, hm.depth_le, hm.opened⟩

theorem moves (hm : m.Orderly) (hpc : m.pc < m.listing.lines.length) (h : m.Moves m') :
    m'.Orderly := by
  cases h with
  | stays h => exact hm.of_sameControl h
  | goesOn h => exact (hm.of_sameControl h).goTo (by rw [h.listing_eq]; omega)
  | jumps h hjump =>
      have hi := Listing.lt_of_indexOf? hjump
      exact (hm.of_sameControl h).goTo (by rw [h.listing_eq]; omega)
  | skips h hnext =>
      have hi := Listing.lt_of_matchingNext? hnext
      exact (hm.of_sameControl h).goTo (by rw [h.listing_eq]; omega)
  | repeats h hframes =>
      -- The line of the innermost loop is in the listing, so there is a place behind it.
      have hopened := hm.opened _ (by rw [hframes]; exact List.mem_cons_self)
      obtain ⟨line, _, _, _, hline, -⟩ := hopened.line
      have hi := (List.getElem?_eq_some_iff.mp hline).1
      exact (hm.of_sameControl h).goTo (by rw [h.listing_eq]; omega)
  | opens h hline hstmt hstride hroom =>
      refine ⟨?_, ?_, ?_⟩
      · rw [h.listing_eq]
        exact hpc
      · simp only [List.length_cons, h.maxDepth_eq]
        omega
      · rw [h.listing_eq]
        intro f hf
        rcases List.mem_cons.mp hf with rfl | hf
        · exact ⟨⟨_, _, _, _, hline, hstmt⟩, hstride⟩
        · exact hm.opened f hf
  | closes h hframes =>
      have hdepth := hm.depth_le
      rw [hframes, List.length_cons] at hdepth
      refine ⟨?_, ?_, ?_⟩
      · rw [h.listing_eq]
        exact hpc
      · simp only [h.maxDepth_eq]
        omega
      · rw [h.listing_eq]
        intro f hf
        exact hm.opened f (by rw [hframes]; exact List.mem_cons_of_mem _ hf)

end Machine.Orderly

/-! ## Runs -/

theorem Machine.Moves.maxDepth_eq {m m' : Machine} (h : m.Moves m') :
    m'.maxDepth = m.maxDepth := by
  cases h with
  | stays h => exact h.maxDepth_eq
  | goesOn h => exact h.maxDepth_eq
  | jumps h => exact h.maxDepth_eq
  | skips h => exact h.maxDepth_eq
  | opens h => exact h.maxDepth_eq
  | repeats h => exact h.maxDepth_eq
  | closes h => exact h.maxDepth_eq

/-- The machine runs the listing, in order, with as many loops allowed as at the start. -/
structure Machine.InOrder (l : Listing) (maxDepth : Int) (m : Machine) : Prop where
  inRun : InRun l m
  orderly : m.Orderly
  maxDepth_eq : m.maxDepth = maxDepth

theorem Machine.InOrder.step {l : Listing} {maxDepth : Int} {m : Machine} (hl : l.Stored)
    (hm : InOrder l maxDepth m) : InOrder l maxDepth m.step.machine := by
  have hrun := hm.inRun.step hl
  by_cases hpc : m.pc < m.listing.lines.length
  · have hmoves := hm.inRun.moves hl hpc
    exact ⟨hrun, hm.orderly.moves hpc hmoves, hmoves.maxDepth_eq.trans hm.maxDepth_eq⟩
  · -- Behind the last line nothing is executed.
    have hend : m.step = .finished m .passedEnd :=
      step_of_end (List.getElem?_eq_none (Nat.le_of_not_lt hpc))
    rw [hend]
    exact hm

theorem Machine.InOrder.start (m : Machine) : InOrder m.start.listing m.maxDepth m.start := by
  refine ⟨.start m, ⟨Nat.zero_le _, Int.le_max_right _ _, ?_⟩, rfl⟩
  intro f hf
  cases hf

/-- At every point of the run of a stored listing the machine is in order. -/
theorem Machine.InOrder.run {m : Machine} (hstored : m.listing.Stored) (n : Nat) :
    InOrder m.start.listing m.maxDepth (m.start.steps n).machine :=
  steps_induction (fun _ hm => hm.step (hstored.lock true)) n (.start m)

/-- At every point of the run of a stored listing, however it jumps: the line to execute is one of
    the listing or the place behind the last; no more loops are open than may be; and each of them
    was opened by the `FOR` line that it names, on its variable, and has a step that is not zero. -/
theorem run_keeps_loops_in_order {m : Machine} (hstored : m.listing.Stored) (n : Nat) :
    (m.start.steps n).machine.pc ≤ m.listing.lines.length ∧
    ((m.start.steps n).machine.frames.length : Int) ≤ max m.maxDepth 0 ∧
    ∀ f ∈ (m.start.steps n).machine.frames,
      (∃ line start limit step, m.listing.lines[f.forIndex]? = some line ∧
        line.content = .ok (.forTo f.slot start limit step)) ∧
      (f.step == 0.0) = false := by
  have hl : m.start.listing.Stored := hstored.lock true
  have hpoint : Machine.InOrder m.start.listing m.maxDepth (m.start.steps n).machine :=
    Machine.steps_induction (fun _ hm => hm.step hl) n (.start m)
  obtain ⟨hrun, horder, hdepth⟩ := hpoint
  have hlines : (m.start.steps n).machine.listing.lines = m.listing.lines := by
    rw [hrun.listing_eq]
    rfl
  refine ⟨?_, ?_, fun f hf => ?_⟩
  · rw [← hlines]
    exact horder.pc_le
  · rw [← hdepth]
    exact horder.depth_le
  · obtain ⟨hline, hstep⟩ := horder.opened f hf
    rw [hlines] at hline
    exact ⟨hline, hstep⟩

/-- A jump back to the `FOR` line opens the loop again, as often as loops may be open; its step is
    given as zero. -/
theorem run_keeps_loops_in_order_reopened :
    ∃ m : Machine, m.listing.Stored ∧ m.maxDepth = 2 ∧
      (m.start.steps 3).machine.frames.length = 2 ∧
      ∀ f ∈ (m.start.steps 3).machine.frames,
        (∃ line start limit step, m.listing.lines[f.forIndex]? = some line ∧
          line.content = .ok (.forTo f.slot start limit step)) ∧
        (f.step == 0.0) = false := by
  let edits : List Edit := [.insert 10 "FOR I = 1 TO 9 STEP 0", .insert 20 "GOTO 10"]
  let m : Machine := { listing := ({ capacity := 2 } : Listing).applyAll edits, maxDepth := 2 }
  have hstored : m.listing.Stored := ⟨2, edits, rfl⟩
  have hopen : (m.start.steps 3).machine.frames.length = 2 := by decide +kernel
  exact ⟨m, hstored, rfl, hopen, (run_keeps_loops_in_order hstored 3).2.2⟩

end LineBasic
