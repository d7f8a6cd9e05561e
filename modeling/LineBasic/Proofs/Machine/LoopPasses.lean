/-
  LineBasic.Proofs.Machine.LoopPasses

  How often a loop is executed, and with which values of its variable.

  `FOR` and `NEXT` make different tests: `FOR` skips the loop if its first value is past the limit,
  `NEXT` goes back as long as the new value is not. Between them the lines may do what they like
  with everything but the variable, also with the variables from which limit and step were computed.
  So one pass through the loop adds the step once, and the passes end at the first value that fails
  the test of `NEXT` (`at_pass`, by induction over the passes).
-/
import LineBasic.Proofs.Listing.Nesting
import LineBasic.Proofs.Machine.Guise

namespace LineBasic

/-! ## Loops of a listing -/

/-- A statement after which the next line follows, if it does not fail, and which does not assign
    the variable: another assignment, or a declaration, an output or a test without a jump. -/
def Stmt.LeavesAlone (slot : Nat) : Stmt → Prop
  | .assign (.scalar other) _ => other ≠ slot
  | .assign (.element ..) _ | .dim _ | .printText _ | .print _ | .ifThen _ none => True
  | _ => False

/-- The lines between two lines leave the variable alone, and the second is a `NEXT` that names it
    or names none. -/
structure Listing.Loop (l : Listing) (slot first last : Nat) : Prop where
  body : ∀ i, first < i → i < last → ∃ line stmt, l.lines[i]? = some line ∧
    line.content = .ok stmt ∧ stmt.LeavesAlone slot
  next : ∃ line name, l.lines[last]? = some line ∧ line.content = .ok (.next name) ∧
    ∀ s ∈ name, s = slot

/-- The values of the variable of a loop, one pass after the other. -/
def loopValue (first stride : Float) : Nat → Float
  | 0 => first
  | k + 1 => loopValue first stride k + stride

/-- When a pass through a loop starts, counted from the `FOR` line, if there are so many lines
    between `FOR` and `NEXT`. -/
def passTime (lines k : Nat) : Nat :=
  1 + k * (lines + 1)

theorem passTime_succ (lines k : Nat) : passTime lines (k + 1) = passTime lines k + lines + 1 := by
  rw [passTime, passTime, Nat.succ_mul]
  omega

theorem passTime_mono (lines : Nat) {k n : Nat} (h : k ≤ n) : passTime lines k ≤ passTime lines n :=
  Nat.add_le_add_left (Nat.mul_le_mul_right _ h) _

/-! ## Lines of a loop -/

theorem Declares.read_eq {m : Machine} {items : List (Nat × Expr)}
    {r : EStateM.Result Failure Machine Unit} (h : Declares m items r) (slot : Nat) :
    (machineAfter r).memory.read slot = m.memory.read slot := by
  induction h with
  | nil => rfl
  | cons hbound hdeclare hrest ih => exact ih.trans (Memory.read_of_declare hdeclare)
  | fail hbound hdeclare => rfl

/-- A statement that leaves the variable alone leads to the next line. -/
theorem Effect.leavesAlone {m m' : Machine} {stmt : Stmt} {slot : Nat} {number : Int}
    {r : EStateM.Result Failure Machine Flow} (h : Effect m stmt r)
    (hstmt : stmt.LeavesAlone slot) (hrunning : Step.ofResult number r = .running m') :
    m'.pc = m.pc + 1 ∧ m'.memory.read slot = m.memory.read slot ∧ m'.frames = m.frames := by
  cases h with
  | assign hvalue hwrite =>
      obtain rfl := Step.running.inj hrunning
      exact ⟨rfl, Memory.read_of_write_ne hwrite (Ne.symm hstmt), rfl⟩
  | assignElement hindex hvalue hwrite =>
      obtain rfl := Step.running.inj hrunning
      exact ⟨rfl, Memory.read_of_writeElement hwrite, rfl⟩
  | dim hd =>
      obtain rfl := Step.running.inj hrunning
      have hsame := hd.sameControl
      exact ⟨congrArg (· + 1) hsame.pc_eq, hd.read_eq slot, hsame.frames_eq⟩
  | printText =>
      obtain rfl := Step.running.inj hrunning
      exact ⟨rfl, rfl, rfl⟩
  | printNothing =>
      obtain rfl := Step.running.inj hrunning
      exact ⟨rfl, rfl, rfl⟩
  | print hvalue =>
      obtain rfl := Step.running.inj hrunning
      exact ⟨rfl, rfl, rfl⟩
  | ifGoesOn hcond =>
      obtain rfl := Step.running.inj hrunning
      exact ⟨rfl, rfl, rfl⟩
  | assignFails => exact absurd hrunning (Step.ofResult_error_ne _ _ _ _)
  | dimFails => exact absurd hrunning (Step.ofResult_error_ne _ _ _ _)
  | _ => exact hstmt.elim

/-- Counting a loop adds the step to its variable. -/
theorem CountsLoop.read_eq {m m' : Machine} {f : Frame} {x value : Float}
    (h : CountsLoop m f value m') (hread : m.memory.read f.slot = .ok x) :
    value = x + f.step ∧ m'.memory.read f.slot = .ok (x + f.step) := by
  cases h with
  | intro hold hwrite =>
      obtain rfl := Except.ok.inj (hold.symm.trans hread)
      exact ⟨rfl, Memory.read_of_write hwrite⟩

namespace Machine

/-- The machine is running the listing and has come to a line, with a value in the variable and some
    loops open. -/
structure At (l : Listing) (slot i : Nat) (x : Float) (frames : List Frame) (m : Machine) :
    Prop where
  inRun : InRun l m
  pc_eq : m.pc = i
  read_eq : m.memory.read slot = .ok x
  frames_eq : m.frames = frames

namespace At

variable {l : Listing} {slot i : Nat} {x : Float} {frames outer : List Frame} {m m' : Machine}
  {line : Line} (hl : l.Stored)
include hl

theorem leavesAlone {stmt : Stmt} (hm : m.At l slot i x frames) (hline : l.lines[i]? = some line)
    (hcontent : line.content = .ok stmt) (hstmt : stmt.LeavesAlone slot)
    (hstep : m.step = .running m') : m'.At l slot (i + 1) x frames := by
  have hrun := hm.inRun.step hl
  rw [hstep] at hrun
  rw [step_of_line (by rw [hm.inRun.listing_eq, hm.pc_eq]; exact hline)] at hstep
  obtain ⟨hpc, hread, hframes⟩ := Effect.leavesAlone
    (hm.inRun.effect hl (List.mem_of_getElem? hline) hcontent).2 hstmt hstep
  exact ⟨hrun, hpc.trans (congrArg (· + 1) hm.pc_eq), hread.trans hm.read_eq,
    hframes.trans hm.frames_eq⟩

/-- A `NEXT` adds the step and goes back, or leaves the loop. -/
theorem next {f : Frame} {name : Option Nat} (hm : m.At l f.slot i x (f :: outer))
    (hline : l.lines[i]? = some line) (hcontent : line.content = .ok (.next name))
    (hname : ∀ s ∈ name, s = f.slot) :
    ∃ m', m.step = .running m' ∧
      if f.continues (x + f.step) then
        m'.At l f.slot (f.forIndex + 1) (x + f.step) (f :: outer)
      else m'.At l f.slot (i + 1) (x + f.step) outer := by
  have hrun := hm.inRun.step hl
  have heffect := (hm.inRun.effect hl (List.mem_of_getElem? hline) hcontent).2
  rw [step_of_line (by rw [hm.inRun.listing_eq, hm.pc_eq]; exact hline)] at hrun ⊢
  generalize Action.execLine line m = r at heffect hrun ⊢
  -- The innermost loop is this one, so only the new value decides.
  cases heffect with
  | repeatLoop hframes hslot hcount hgoes =>
      obtain ⟨rfl, rfl⟩ := List.cons.inj (hframes.symm.trans hm.frames_eq)
      obtain ⟨rfl, hread⟩ := hcount.read_eq hm.read_eq
      refine ⟨_, rfl, ?_⟩
      rw [if_pos hgoes]
      exact ⟨hrun, rfl, hread, hcount.sameControl.frames_eq.trans hframes⟩
  | closeLoop hframes hslot hcount hends =>
      obtain ⟨rfl, rfl⟩ := List.cons.inj (hframes.symm.trans hm.frames_eq)
      obtain ⟨rfl, hread⟩ := hcount.read_eq hm.read_eq
      refine ⟨_, rfl, ?_⟩
      rw [if_neg (by simp [hends])]
      exact ⟨hrun, congrArg (· + 1) (hcount.sameControl.pc_eq.trans hm.pc_eq), hread, rfl⟩
  | noLoop hframes => cases hframes.symm.trans hm.frames_eq
  | otherLoop hframes hslot =>
      obtain ⟨rfl, -⟩ := List.cons.inj (hframes.symm.trans hm.frames_eq)
      exact absurd (hname _ rfl) hslot

end At

/-- A `FOR` for which there is room goes into its loop, or behind the `NEXT` that counting finds. -/
theorem InRun.forTo {l : Listing} {s : Machine} {line : Line} {slot e : Nat} {start limit : Expr}
    {step : Option Expr} (hl : l.Stored) (hs : InRun l s) (hline : l.lines[s.pc]? = some line)
    (hcontent : line.content = .ok (.forTo slot start limit step))
    (hnext : l.matchingNext? (s.pc + 1) = some e) (hroom : (s.frames.length : Int) < s.maxDepth) :
    ∃ first last stride s', s.step = .running s' ∧
      (start.eval s.memory).outcome = .ok first ∧ (limit.eval s.memory).outcome = .ok last ∧
      (readStep s.memory step).outcome = .ok stride ∧
      if skipsLoop first last stride then s'.At l slot (e + 1) first s.frames
      else s'.At l slot (s.pc + 1) first (⟨slot, last, stride, s.pc⟩ :: s.frames) := by
  have hrun := hs.step hl
  have heffect := (hs.effect hl (List.mem_of_getElem? hline) hcontent).2
  rw [step_of_line (by rw [hs.listing_eq]; exact hline)] at hrun ⊢
  generalize Action.execLine line s = r at heffect hrun ⊢
  cases heffect with
  | openLoop henter hruns _ =>
      obtain ⟨hfirst, hlast, hstride⟩ := henter.outcomes
      refine ⟨_, _, _, _, rfl, hfirst, hlast, hstride, ?_⟩
      rw [if_neg (by simp [hruns])]
      exact ⟨hrun, congrArg (· + 1) henter.sameControl.pc_eq, henter.read_eq, rfl⟩
  | skipLoop henter hskips hfound =>
      obtain ⟨hfirst, hlast, hstride⟩ := henter.outcomes
      refine ⟨_, _, _, _, rfl, hfirst, hlast, hstride, ?_⟩
      rw [if_pos hskips]
      rw [hs.listing_eq, hnext] at hfound
      obtain rfl := Option.some.inj hfound
      exact ⟨hrun, rfl, henter.read_eq, henter.sameControl.frames_eq⟩
  | loopTooDeep henter hruns hfull => omega
  | skipFails henter hskips hmissing =>
      rw [hs.listing_eq, hnext] at hmissing
      cases hmissing

/-! ## Passes -/

section Passes

variable {l : Listing} {f : Frame} {outer : List Frame} {e lines n : Nat} {s : Machine}
  (hl : l.Stored) (hloop : l.Loop f.slot f.forIndex e) (hlines : e = f.forIndex + 1 + lines)
  (hquiet : ∀ t m, t < passTime lines (n + 1) → s.steps t = .running m →
    f.forIndex < m.pc → m.pc < e → ∃ m', m.step = .running m')
include hl hloop hlines hquiet

/-- Through the lines of a pass the variable keeps its value. -/
theorem at_line {k : Nat} {x : Float} {m : Machine} (hk : k ≤ n)
    (hpoint : s.steps (passTime lines k) = .running m)
    (hm : m.At l f.slot (f.forIndex + 1) x (f :: outer)) {j : Nat} (hj : j ≤ lines) :
    ∃ m', s.steps (passTime lines k + j) = .running m' ∧
      m'.At l f.slot (f.forIndex + 1 + j) x (f :: outer) := by
  -- Over the lines of the pass; each is executed before the last pass is over, so it does not fail.
  induction j with
  | zero => exact ⟨m, hpoint, hm⟩
  | succ j ih =>
      obtain ⟨m', hpoint', hm'⟩ := ih (by omega)
      obtain ⟨line, stmt, hline, hcontent, hstmt⟩ :=
        hloop.body (f.forIndex + 1 + j) (by omega) (by omega)
      have htime : passTime lines (k + 1) ≤ passTime lines (n + 1) :=
        passTime_mono lines (Nat.succ_le_succ hk)
      rw [passTime_succ] at htime
      have hpc := hm'.pc_eq
      obtain ⟨m'', hstep⟩ := hquiet _ m' (by omega) hpoint' (by omega) (by omega)
      exact ⟨m'', (steps_succ hpoint').trans hstep, hm'.leavesAlone hl hline hcontent hstmt hstep⟩

/-- At the end of a pass the step is added, and the test of `NEXT` decides. -/
theorem at_next {k : Nat} {x : Float} {m : Machine} (hk : k ≤ n)
    (hpoint : s.steps (passTime lines k) = .running m)
    (hm : m.At l f.slot (f.forIndex + 1) x (f :: outer)) :
    ∃ m', s.steps (passTime lines (k + 1)) = .running m' ∧
      if f.continues (x + f.step) then
        m'.At l f.slot (f.forIndex + 1) (x + f.step) (f :: outer)
      else m'.At l f.slot (e + 1) (x + f.step) outer := by
  obtain ⟨m₁, hpoint₁, hm₁⟩ := at_line hl hloop hlines hquiet hk hpoint hm (Nat.le_refl lines)
  obtain ⟨line, name, hline, hcontent, hname⟩ := hloop.next
  rw [← hlines] at hm₁
  obtain ⟨m', hstep, hm'⟩ := hm₁.next hl hline hcontent hname
  rw [passTime_succ]
  exact ⟨m', (steps_succ hpoint₁).trans hstep, hm'⟩

variable {first : Float} {m : Machine} (hpoint : s.steps 1 = .running m)
  (hm : m.At l f.slot (f.forIndex + 1) first (f :: outer))
  (hgoes : ∀ k < n, f.continues (loopValue first f.step (k + 1)) = true)
include hpoint hm hgoes

/-- As long as the test of `NEXT` succeeds, one pass follows the other. -/
theorem at_pass {k : Nat} (hk : k ≤ n) :
    ∃ m', s.steps (passTime lines k) = .running m' ∧
      m'.At l f.slot (f.forIndex + 1) (loopValue first f.step k) (f :: outer) := by
  induction k with
  | zero =>
      refine ⟨m, ?_, hm⟩
      rw [passTime, Nat.zero_mul]
      exact hpoint
  | succ k ih =>
      obtain ⟨m₁, hpoint₁, hm₁⟩ := ih (by omega)
      obtain ⟨m', hpoint', hm'⟩ := at_next hl hloop hlines hquiet (by omega) hpoint₁ hm₁
      have htest : f.continues (loopValue first f.step k + f.step) = true := hgoes k (by omega)
      rw [if_pos htest] at hm'
      exact ⟨m', hpoint', hm'⟩

/-- The pass after which the test fails is the last. -/
theorem at_end (hends : f.continues (loopValue first f.step (n + 1)) = false) :
    ∃ m', s.steps (passTime lines (n + 1)) = .running m' ∧
      m'.At l f.slot (e + 1) (loopValue first f.step (n + 1)) outer := by
  obtain ⟨m₁, hpoint₁, hm₁⟩ :=
    at_pass hl hloop hlines hquiet hpoint hm hgoes (Nat.le_refl n)
  obtain ⟨m', hpoint', hm'⟩ := at_next hl hloop hlines hquiet (Nat.le_refl n) hpoint₁ hm₁
  have htest : ¬ f.continues (loopValue first f.step n + f.step) = true := by
    rw [← loopValue, hends]
    exact Bool.false_ne_true
  rw [if_neg htest] at hm'
  exact ⟨m', hpoint', hm'⟩

end Passes

end Machine

/-- A run at a `FOR` line, with the `NEXT` that counting finds for it, lines between them that leave
    the variable alone, and room for one more loop. The first value, the limit and the step are read
    once. If the loop is skipped, the run is behind the `NEXT` at once, with the first value in the
    variable. Otherwise let `n` be the first number for which the test of `NEXT` fails on value
    `n + 1`; unless a line between fails, the lines between are passed through for the values `0` to
    `n`, one pass after the other, and then the run is behind the `NEXT`, with value `n + 1` in the
    variable. Either way the open loops are then those from before. -/
theorem loop_passes_announced {m s : Machine} {t slot e : Nat} {line : Line} {start limit : Expr}
    {step : Option Expr} (hstored : m.listing.Stored) (hrun : m.start.steps t = .running s)
    (hline : m.listing.lines[s.pc]? = some line)
    (hfor : line.content = .ok (.forTo slot start limit step))
    (hnext : m.listing.matchingNext? (s.pc + 1) = some e) (hloop : m.listing.Loop slot s.pc e)
    (hroom : (s.frames.length : Int) < s.maxDepth) :
    ∃ first last stride : Float,
      (start.eval s.memory).outcome = .ok first ∧ (limit.eval s.memory).outcome = .ok last ∧
      (readStep s.memory step).outcome = .ok stride ∧
      (skipsLoop first last stride = true →
        ∃ s', s.step = .running s' ∧ s'.At m.start.listing slot (e + 1) first s.frames) ∧
      (skipsLoop first last stride = false →
        let f : Frame := ⟨slot, last, stride, s.pc⟩
        let lines : Nat := e - (s.pc + 1)
        ∀ n, (∀ k < n, f.continues (loopValue first stride (k + 1)) = true) →
        f.continues (loopValue first stride (n + 1)) = false →
        (∀ u s', u < passTime lines (n + 1) → s.steps u = .running s' → s.pc < s'.pc → s'.pc < e →
          ∃ s'', s'.step = .running s'') →
        (∀ k ≤ n, ∀ j ≤ lines, ∃ s', s.steps (passTime lines k + j) = .running s' ∧
          s'.At m.start.listing slot (s.pc + 1 + j) (loopValue first stride k) (f :: s.frames)) ∧
        ∃ s', s.steps (passTime lines (n + 1)) = .running s' ∧
          s'.At m.start.listing slot (e + 1) (loopValue first stride (n + 1)) s.frames) := by
  have hl : m.start.listing.Stored := hstored.lock true
  have hs : Machine.InRun m.start.listing s := by
    have hpoint := (Machine.InRun.start m).steps hl t
    rwa [hrun] at hpoint
  obtain ⟨first, last, stride, s₁, hstep, hfirst, hlast, hstride, hat⟩ :=
    hs.forTo hl hline hfor hnext hroom
  refine ⟨first, last, stride, hfirst, hlast, hstride, fun hskips => ?_, ?_⟩
  · rw [if_pos hskips] at hat
    exact ⟨s₁, hstep, hat⟩
  · intro hruns f lines n hgoes hends hquiet
    rw [if_neg (by simp [hruns])] at hat
    have hlocked : m.start.listing.Loop f.slot f.forIndex e := ⟨hloop.body, hloop.next⟩
    have hle : s.pc + 1 ≤ e := (matchingNext?_bounds hnext).1
    have hlines : e = f.forIndex + 1 + lines := (Nat.add_sub_cancel' hle).symm
    have hpoint : s.steps 1 = .running s₁ := (Machine.steps_succ rfl).trans hstep
    refine ⟨fun k hk j hj => ?_, ?_⟩
    · obtain ⟨s₂, hpoint₂, hat₂⟩ :=
        Machine.at_pass hl hlocked hlines hquiet hpoint hat hgoes hk
      exact Machine.at_line hl hlocked hlines hquiet hk hpoint₂ hat₂ hj
    · exact Machine.at_end hl hlocked hlines hquiet hpoint hat hgoes hends

/-- A loop that changes the variable from which its limit and its step were computed. -/
theorem loop_passes_announced_changing_limit :
    ∃ m s s₁ s₂ s₃ : Machine, m.listing.Stored ∧
      m.listing.lines.map (·.text) =
        ["L=3", "FOR I=1 TO L STEP L-1", "L=L+10", "PRINT I", "NEXT"] ∧
      m.start.steps 1 = .running s ∧
      s.steps 1 = .running s₁ ∧ s₁.At m.start.listing 8 2 1.0 [⟨8, 3.0, 2.0, 1⟩] ∧
      s.steps 4 = .running s₂ ∧ s₂.At m.start.listing 8 2 3.0 [⟨8, 3.0, 2.0, 1⟩] ∧
      s.steps 7 = .running s₃ ∧ s₃.At m.start.listing 8 5 5.0 [] := by
  let edits : List Edit := [.insert 10 "L=3", .insert 20 "FOR I=1 TO L STEP L-1",
    .insert 30 "L=L+10", .insert 40 "PRINT I", .insert 50 "NEXT"]
  let step : Expr := .binary .sub (.var 11) (.num 1.0)
  let opening : Line :=
    ⟨20, "FOR I=1 TO L STEP L-1", .FOR, .ok (.forTo 8 (.num 1.0) (.var 11) (some step))⟩
  let m : Machine := { listing := { lines := [
    ⟨10, "L=3", .ASSIGN, .ok (.assign (.scalar 11) (.num 3.0))⟩, opening,
    ⟨30, "L=L+10", .ASSIGN, .ok (.assign (.scalar 11) (.binary .add (.var 11) (.num 10.0)))⟩,
    ⟨40, "PRINT I", .PRINT, .ok (.print (some (.var 8)))⟩,
    ⟨50, "NEXT", .NEXT, .ok (.next none)⟩] } }
  let s : Machine := (m.start.steps 1).machine
  have hstored : m.listing.Stored := ⟨1000, edits, rfl⟩
  have hrun : m.start.steps 1 = .running s := rfl
  have hline : m.listing.lines[s.pc]? = some opening := rfl
  have hloop : m.listing.Loop 8 s.pc 4 := by
    have hother : (11 : Nat) ≠ 8 := by decide
    refine ⟨fun i hi hi' => ?_, _, _, rfl, rfl, by simp⟩
    have hpc : s.pc = 1 := rfl
    obtain rfl | rfl : i = 2 ∨ i = 3 := by omega
    · exact ⟨_, _, rfl, rfl, hother⟩
    · exact ⟨_, _, rfl, rfl, trivial⟩
  obtain ⟨first, last, stride, hfirst, hlast, hstride, -, hpasses⟩ :=
    loop_passes_announced hstored hrun hline rfl (by decide +kernel) hloop (by decide +kernel)
  obtain rfl : first = 1.0 := (Except.ok.inj hfirst).symm
  obtain rfl : last = 3.0 := by
    have hread : ((Expr.var 11).eval s.memory).outcome = .ok 3.0 := by decide +kernel
    exact Except.ok.inj (hlast.symm.trans hread)
  obtain rfl : stride = 2.0 := by
    have hread : (readStep s.memory (some step)).outcome = .ok 2.0 := by decide +kernel
    exact Except.ok.inj (hstride.symm.trans hread)
  have hgoes :
      ∀ k < 1, (⟨8, 3.0, 2.0, 1⟩ : Frame).continues (loopValue 1.0 2.0 (k + 1)) = true := by
    decide +kernel
  have hsteps : ∀ u < 7, (s.steps (u + 1)).ending?.isNone = true := by decide +kernel
  have hquiet : ∀ u s', u < 7 → s.steps u = .running s' → s.pc < s'.pc → s'.pc < 4 →
      ∃ s'', s'.step = .running s'' := by
    intro u s' hu hpoint _ _
    have hstep := hsteps u hu
    rw [Machine.steps_succ hpoint] at hstep
    cases hnext : s'.step with
    | running s'' => exact ⟨s'', rfl⟩
    | finished s'' outcome =>
        rw [hnext] at hstep
        cases hstep
    | faulted s'' fault =>
        rw [hnext] at hstep
        cases hstep
  obtain ⟨hpass, s₃, hs₃, hat₃⟩ :=
    hpasses (by decide +kernel) 1 hgoes (by decide +kernel) hquiet
  obtain ⟨s₁, hs₁, hat₁⟩ := hpass 0 (by decide) 0 (by decide)
  obtain ⟨s₂, hs₂, hat₂⟩ := hpass 1 (by decide) 0 (by decide)
  have hvalue : loopValue 1.0 2.0 1 = 3.0 := by decide +kernel
  have hvalue' : loopValue 1.0 2.0 2 = 5.0 := by decide +kernel
  rw [hvalue] at hat₂
  rw [hvalue'] at hat₃
  exact ⟨m, s, s₁, s₂, s₃, hstored, rfl, hrun, hs₁, hat₁, hs₂, hat₂, hs₃, hat₃⟩

end LineBasic
