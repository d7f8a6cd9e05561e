/-
  LineBasic.Proofs.Machine.RunsAlike

  A run depends on the lines of the listing alone, whatever happened to the machine before.

  The lines of a stored listing are what their numbers and texts say, and a run starts with all
  variables zero and no loop open; so two machines whose listings read the same run alike, up to any
  point (`runs_alike_of_lines`). A run that is over has put nothing else in the listing and has
  released it, so that the machine can run once more, and does the same.
-/
import LineBasic.Proofs.Machine.History
import LineBasic.Proofs.Machine.LoopStack
import LineBasic.Proofs.Machine.Unreached

namespace LineBasic

/-- Listings with the same numbers and texts have the same lines. -/
theorem Listing.lines_eq_of_texts {l l' : Listing} (hl : l.Sound) (hl' : l'.Sound)
    (h : l'.lines.map (fun line => (line.number, line.text)) =
      l.lines.map fun line => (line.number, line.text)) : l'.lines = l.lines := by
  have hnumbers : l'.lines.map (·.number) = l.lines.map (·.number) := by
    simpa [Function.comp_def] using congrArg (List.map Prod.fst) h
  have htexts : l'.lines.map (·.text) = l.lines.map (·.text) := by
    simpa [Function.comp_def] using congrArg (List.map Prod.snd) h
  apply List.ext_getElem?
  intro i
  apply getElem?_eq_of_text hl hl' hnumbers
  rw [← List.getElem?_map, htexts, List.getElem?_map]

/-- Points of two runs that match give the same answer. -/
theorem Step.Matches.answer_eq {m m' : Machine} {s s' : Step}
    (h : Step.Matches id m m' s s') : s'.answer = s.answer := by
  rw [Step.answer, h.ending_eq, Outcome.renumber_id, Except.map_id, Option.map_id, id, Step.answer]

namespace Machine

/-- A run of at most `fuel` lines gives the answer, makes the events known and leaves a machine. -/
structure Runs (fuel : Nat) (m : Machine) (answer : Except Failure (Option Outcome))
    (events : List Event) (r : Machine) : Prop where
  run_eq : Action.run fuel m = resultOf r answer
  log_eq : r.log.toList = m.log.toList ++ events

/-- The variables, the open loops and the line to execute are the same. -/
structure SameState (m m' : Machine) : Prop where
  memory_eq : m'.memory = m.memory
  frames_eq : m'.frames = m.frames
  pc_eq : m'.pc = m.pc

/-- A run that is over has left the lines as they were, and the machine can be changed and run. -/
structure Released (m r : Machine) : Prop where
  lines_eq : r.listing.lines = m.listing.lines
  unlocked : r.listing.locked = false
  idle : r.running = false

/-! ## Where a run is left -/

section Settled

variable {m : Machine}

theorem sameState_settled (s : Step) : s.machine.SameState s.settled := by
  cases s with
  | running m => exact ⟨rfl, rfl, rfl⟩
  | finished m outcome => exact ⟨rfl, rfl, rfl⟩
  | faulted m fault => exact ⟨rfl, rfl, rfl⟩

theorem log_settled (s : Step) : s.settled.log = s.machine.log := by
  cases s with
  | running m => rfl
  | finished m outcome => rfl
  | faulted m fault => rfl

theorem maxDepth_settled (s : Step) : s.settled.maxDepth = s.machine.maxDepth := by
  cases s with
  | running m => rfl
  | finished m outcome => rfl
  | faulted m fault => rfl

/-- A run that gave an answer is over. -/
theorem settled_of_answer {s : Step} (h : s.answer ≠ .ok none) :
    s.settled = s.machine.release := by
  cases s with
  | running m => exact absurd rfl h
  | finished m outcome => rfl
  | faulted m fault => rfl

variable (hstored : m.listing.Stored) (n : Nat)
include hstored

/-- At every point of a run the lines are those of the start, and as many loops may be open. -/
theorem lines_steps :
    (m.start.steps n).machine.listing.lines = m.listing.lines ∧
      (m.start.steps n).machine.maxDepth = m.maxDepth := by
  have hl : m.start.listing.Stored := hstored.lock true
  have hpoint : InOrder m.start.listing m.maxDepth (m.start.steps n).machine :=
    steps_induction (fun _ hm => hm.step hl) n (.start m)
  refine ⟨?_, hpoint.maxDepth_eq⟩
  rw [hpoint.inRun.listing_eq]
  rfl

theorem released_settled (h : (m.start.steps n).answer ≠ .ok none) :
    m.Released (m.start.steps n).settled := by
  rw [settled_of_answer h]
  exact ⟨(lines_steps hstored n).1, rfl, rfl⟩

end Settled

/-! ## Two runs -/

section Lines

variable {m m' : Machine} (hstored : m.listing.Stored) (hidle : m.running = false)
  (hidle' : m'.running = false) (hdepth : m'.maxDepth = m.maxDepth)
  (hlines : m'.listing.lines = m.listing.lines) (fuel : Nat)
include hstored hdepth hlines

theorem matches_of_lines :
    Step.Matches id m m' (m.start.steps fuel) (m'.start.steps fuel) := by
  -- What a statement looks for in a listing depends on the lines only, not on how many fit.
  have hfits : (Guise.ofRun m' id).Fits m.start.listing := by
    refine ⟨fun n _ => ?_, fun start => ?_, fun _ h => h⟩
    · exact congrArg (List.findIdx? (·.number = n)) hlines
    · exact congrArg (fun lines => matchingNext? 1 start (lines.drop start)) hlines
  refine Guise.matches_steps_id hdepth (by rw [hlines]) hfits hstored fun k s _ => ?_
  show m'.listing.lines[s.pc]? = m.listing.lines[s.pc]?.map (Line.renumber id)
  rw [hlines, Line.renumber_id, Option.map_id, id]

include hidle hidle'

/-- Two machines with the same lines run alike, up to any point. -/
theorem runs_alike_of_lines :
    ∃ events,
      m.Runs fuel (m.start.steps fuel).answer events (m.start.steps fuel).settled ∧
      m'.Runs fuel (m.start.steps fuel).answer events (m'.start.steps fuel).settled ∧
      (m.start.steps fuel).settled.SameState (m'.start.steps fuel).settled := by
  have hmatches := matches_of_lines hstored hdepth hlines fuel
  have hsame := sameState_settled (m.start.steps fuel)
  have hsame' := sameState_settled (m'.start.steps fuel)
  obtain ⟨events, hlog, hlog'⟩ := hmatches.events_eq
  rw [Event.renumber_id, List.map_id] at hlog'
  refine ⟨events, ⟨Action.run_of_idle hidle fuel, ?_⟩, ⟨?_, ?_⟩, ?_, ?_, ?_⟩
  · rw [log_settled, hlog]
  · rw [Action.run_of_idle hidle', hmatches.answer_eq]
  · rw [log_settled, hlog']
  · rw [hsame'.memory_eq, hmatches.memory_eq, hsame.memory_eq]
  · rw [hsame'.frames_eq, hmatches.frames_eq, hsame.frames_eq]
  · rw [hsame'.pc_eq, hmatches.pc_eq, hsame.pc_eq]

end Lines

/-- Two machines that are not running, whatever led to them, with the same numbers and texts in
    their listings and room for as many open loops. Run for as long as one likes, they give the same
    answer, make the same events known, which both streams show, and leave the same variables, open
    loops and line to execute. A run that is over leaves the lines as they were, and the machine
    ready; run once more it does the same again. -/
theorem runs_alike {m m' : Machine} (hm : m.Reached) (hm' : m'.Reached)
    (hidle : m.running = false) (hidle' : m'.running = false) (hdepth : m'.maxDepth = m.maxDepth)
    (htexts : m'.listing.lines.map (fun line => (line.number, line.text)) =
      m.listing.lines.map fun line => (line.number, line.text)) (fuel : Nat) :
    ∃ (answer : Except Failure (Option Outcome)) (events : List Event) (r r' : Machine),
      m.Runs fuel answer events r ∧ m'.Runs fuel answer events r' ∧ r.SameState r' ∧
      (answer ≠ .ok none → m.Released r ∧ m'.Released r' ∧
        ∃ again, r.Runs fuel answer events again ∧ r.SameState again) := by
  have hlines : m'.listing.lines = m.listing.lines :=
    Listing.lines_eq_of_texts hm.stored.sound hm'.stored.sound htexts
  obtain ⟨events, hruns, hruns', hsame⟩ :=
    runs_alike_of_lines hm.stored hidle hidle' hdepth hlines fuel
  have hanswer := (matches_of_lines hm.stored hdepth hlines fuel).answer_eq
  refine ⟨_, events, _, _, hruns, hruns', hsame, fun hover => ?_⟩
  have hreleased := released_settled hm.stored fuel hover
  have hreleased' := released_settled hm'.stored fuel (hanswer ▸ hover)
  -- The machine that the run has left is one more machine with these lines.
  have hdepth' : (m.start.steps fuel).settled.maxDepth = m.maxDepth := by
    rw [maxDepth_settled, (lines_steps hm.stored fuel).2]
  obtain ⟨events', hfirst, hagain, hstate⟩ :=
    runs_alike_of_lines hm.stored hidle hreleased.idle hdepth' hreleased.lines_eq fuel
  obtain rfl : events' = events :=
    List.append_cancel_left (hfirst.log_eq.symm.trans hruns.log_eq)
  exact ⟨hreleased, hreleased', _, hagain, hstate⟩

/-- A program typed out of order, with a run that failed, one that was broken off within a line, and
    statements executed on their own; and the same program, loaded into a new machine. -/
theorem runs_alike_after_failure :
    ∃ (m m' r r' again : Machine) (outcome : Outcome) (events : List Event),
      m.Reached ∧ m'.Reached ∧
      m.frames.length = 1 ∧ m'.frames.length = 0 ∧
      m.memory.read 18 = .ok 5.0 ∧ m'.memory.read 18 = .ok 0.0 ∧
      outcome = .halted 30 (.noSuchLine .GOTO 99) ∧
      events = [.runStarted 3, .printed "1", .runHalted 30 (.noSuchLine .GOTO 99)] ∧
      m.Runs 9 (.ok (some outcome)) events r ∧ m'.Runs 9 (.ok (some outcome)) events r' ∧
      r.SameState r' ∧ m.Released r ∧ m'.Released r' ∧
      r.Runs 9 (.ok (some outcome)) events again := by
  let operations : List Operation := [.edit (.insert 20 "PRINT S"),
    .edit (.enter "10 S=S+1".toList), .edit (.insert 30 "GOTO 99"), .run 9, .run 1,
    .abort .empty [] 2, .exec (.assign (.scalar 18) (.num 5.0)),
    .exec (.forTo 8 (.num 1.0) (.num 2.0) none)]
  let operations' : List Operation := [.edit (.load "10 S=S+1\n20 PRINT S\n30 GOTO 99\n".toList)]
  let m : Machine := operations.foldl afterOperation { listing := { capacity := 3 } }
  let m' : Machine := operations'.foldl afterOperation { listing := { capacity := 1000 } }
  have hm : m.Reached := ⟨3, 256, operations, rfl⟩
  have hm' : m'.Reached := ⟨1000, 256, operations', rfl⟩
  obtain ⟨hidle, hopen, hread⟩ :
      m.running = false ∧ m.frames.length = 1 ∧ m.memory.read 18 = .ok 5.0 := by decide +kernel
  obtain ⟨hidle', hopen', hread'⟩ :
      m'.running = false ∧ m'.frames.length = 0 ∧ m'.memory.read 18 = .ok 0.0 := by decide +kernel
  obtain ⟨hdepth, htexts⟩ : m'.maxDepth = m.maxDepth ∧
      m'.listing.lines.map (fun line => (line.number, line.text)) =
        m.listing.lines.map fun line => (line.number, line.text) := by decide +kernel
  obtain ⟨hanswer, hlog⟩ :
      (match Action.run 9 m' with | .ok answer _ => answer | .error _ _ => none) =
        some (.halted 30 (.noSuchLine .GOTO 99)) ∧
      (machineAfter (Action.run 9 m')).log.toList = m'.log.toList ++
        [.runStarted 3, .printed "1", .runHalted 30 (.noSuchLine .GOTO 99)] := by decide +kernel
  obtain ⟨answer, events, r, r', hruns, hruns', hsame, hover⟩ :=
    runs_alike hm hm' hidle hidle' hdepth htexts 9
  rw [hruns'.run_eq] at hanswer hlog
  rw [machineAfter_resultOf, hruns'.log_eq] at hlog
  cases answer with
  | error failure => cases hanswer
  | ok answer =>
      obtain rfl : answer = some _ := hanswer
      obtain ⟨hreleased, hreleased', again, hagain, -⟩ := hover (by simp)
      exact ⟨m, m', r, r', again, _, events, hm, hm', hopen, hopen', hread, hread', rfl,
        List.append_cancel_left hlog, hruns, hruns', hsame, hreleased, hreleased', hagain⟩

end Machine

end LineBasic
