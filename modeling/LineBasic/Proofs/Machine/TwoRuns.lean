/-
  LineBasic.Proofs.Machine.TwoRuns

  Two runs, each from its own start, as two guises of one run: the run with nothing before it. At
  every point they are the same but for the numbers of lines, and so they end the same; only a
  report with a line number that is too long to be written makes one of them break off where the
  other is halted.
-/
import LineBasic.Proofs.Machine.Guise

namespace LineBasic

/-! ## Points of two runs -/

/-- The texts that events show on the output; most events show nothing there. -/
def outTexts (events : List Event) : List String :=
  (events.map Event.out).filter (· ≠ "")

/-- Two points of two runs, which the machines `m` and `m'` have started, are the same in the
    variables, the open loops, the line to execute and what the output has shown since the start. -/
structure Step.Alike (m m' : Machine) (s s' : Step) : Prop where
  memory_eq : s'.machine.memory = s.machine.memory
  frames_eq : s'.machine.frames = s.machine.frames
  pc_eq : s'.machine.pc = s.machine.pc
  out_eq : ∃ texts : List String,
    outTexts s.machine.log.toList = outTexts m.log.toList ++ texts ∧
    outTexts s'.machine.log.toList = outTexts m'.log.toList ++ texts

/-- Two points of two runs are the same but for the numbers of lines, also in how the run ended if
    it did, and in what happened since the start. -/
structure Step.Matches (f : Int → Int) (m m' : Machine) (s s' : Step) : Prop
    extends Step.Alike m m' s s' where
  ending_eq : s'.ending? = s.ending?.map (Except.map (Outcome.renumber f))
  events_eq : ∃ events : List Event, s.machine.log.toList = m.log.toList ++ events ∧
    s'.machine.log.toList = m'.log.toList ++ events.map (Event.renumber f)

/-- Two points of two runs are the same but for the numbers of lines and for the end: the first run
    is halted and reports a complaint, the second breaks off where it would report it. -/
structure Step.MatchesUnreported (f : Int → Int) (m m' : Machine) (s s' : Step) : Prop
    extends Step.Alike m m' s s' where
  breaksOff : s'.ending? = some (.error .unwritable)
  halted : ∃ (events : List Event) (line : Int) (c : Complaint),
    s.ending? = some (.ok (.halted line c)) ∧
    s.machine.log.toList = m.log.toList ++ events ++ [.runHalted line c] ∧
    s'.machine.log.toList = m'.log.toList ++ events.map (Event.renumber f)

section Texts

variable (events events' : List Event)

theorem outTexts_append : outTexts (events ++ events') = outTexts events ++ outTexts events' := by
  rw [outTexts, List.map_append, List.filter_append, outTexts, outTexts]

theorem outTexts_renumber (f : Int → Int) : outTexts (events.map (Event.renumber f)) =
    outTexts events := by
  rw [outTexts, List.map_map, outTexts]
  simp only [Function.comp_def, Event.out_renumber]

end Texts

/-- The statements of a stored listing refer to no negative line number. -/
theorem Listing.Stored.targets_nonneg {l : Listing} (h : l.Stored) :
    ∀ line ∈ l.lines, ∀ stmt, line.content = .ok stmt → ∀ n ∈ stmt.targets, 0 ≤ n :=
  fun line hline _ hstmt => ((h.sound.lines line hline).wellFormed hstmt).1.targets_nonneg

/-! ## A point in its guise -/

namespace Guise

section Points

variable (g : Guise) (s : Step)

/-- Whether it is reported how the run ended or not, the state is the same. -/
theorem exists_machine_step : ∃ log, (g.step s).machine = { g.machine s.machine with log } := by
  cases s with
  | running m => exact ⟨_, rfl⟩
  | finished m outcome =>
      rw [step]
      split
      · exact ⟨_, rfl⟩
      · exact ⟨_, rfl⟩
  | faulted m fault => exact ⟨_, rfl⟩

@[simp] theorem memory_step : (g.step s).machine.memory = s.machine.memory := by
  obtain ⟨log, h⟩ := g.exists_machine_step s
  rw [h, machine_memory]

@[simp] theorem frames_step : (g.step s).machine.frames = s.machine.frames := by
  obtain ⟨log, h⟩ := g.exists_machine_step s
  rw [h, machine_frames]

@[simp] theorem pc_step : (g.step s).machine.pc = s.machine.pc := by
  obtain ⟨log, h⟩ := g.exists_machine_step s
  rw [h, machine_pc]

variable {s}

/-- Where the run has not ended, or its ending can be written in the guise, it ends the same. -/
theorem step_of_isWritable
    (h : ∀ m outcome, s = .finished m outcome → (outcome.renumber g.number).isWritable = true) :
    (g.step s).ending? = s.ending?.map (Except.map (Outcome.renumber g.number)) ∧
      (g.step s).machine.log = (g.machine s.machine).log := by
  cases s with
  | running m => exact ⟨rfl, rfl⟩
  | finished m outcome =>
      rw [step, if_pos (h m outcome rfl)]
      exact ⟨rfl, rfl⟩
  | faulted m fault => exact ⟨rfl, rfl⟩

theorem step_of_not_isWritable {m : Machine} {outcome : Outcome}
    (h : (outcome.renumber g.number).isWritable = false) :
    g.step (.finished m outcome) = .faulted (g.machine m.unnote) .unwritable :=
  if_neg (Bool.eq_false_iff.mp h)

end Points

/-! ## Runs from their starts -/

/-- The machine with nothing in its log. -/
def unlogged (m : Machine) : Machine :=
  { m with log := #[] }

/-- The guise of the run that a machine starts. -/
def ofRun (m : Machine) (number : Int → Int) : Guise :=
  ⟨m.start.listing, number, m.log⟩

/-- What happened before, and behind it what happened since, as the guise numbers lines. -/
theorem toList_log_ofRun (m : Machine) (f : Int → Int) (q : Machine) :
    ((ofRun m f).machine q).log.toList =
      m.log.toList ++ q.log.toList.map (Event.renumber f) := by
  rw [machine_log, ofRun, Array.toList_append, Array.toList_map]

/-- Apart from the listing and the log, runs start alike. -/
theorem machine_start {m m' : Machine} (f : Int → Int) (hdepth : m'.maxDepth = m.maxDepth)
    (hlength : m'.listing.lines.length = m.listing.lines.length) :
    (ofRun m' f).machine (unlogged m).start = m'.start := by
  simp [machine, ofRun, unlogged, Machine.start, Machine.reset, Machine.note, Event.renumber,
    hdepth, hlength]

section Runs

variable {m m' : Machine} {f : Int → Int} {n : Nat} {s : Step} {outcome : Outcome}
  (hdepth : m'.maxDepth = m.maxDepth)
  (hlength : m'.listing.lines.length = m.listing.lines.length)
  (hfits : (ofRun m' f).Fits m.start.listing)
  (hstored : m.listing.Stored)
include hstored

/-- A run does not depend on what happened before it. -/
theorem steps_start (n : Nat) :
    m.start.steps n = (ofRun m id).step ((unlogged m).start.steps n) := by
  have hfits : (ofRun m id).Fits m.start.listing :=
    ⟨fun _ _ => rfl, fun _ => rfl, fun _ h => h⟩
  have hagrees : ∀ i, (ofRun m id).AgreesAt m.start.listing i := by
    intro i
    rw [AgreesAt, ofRun, Line.renumber_id, Option.map_id, id]
  have hsteps := steps_eq (m := (unlogged m).start) (n := n) hfits
    (hstored.lock true).targets_nonneg rfl fun k s _ => hagrees s.pc
  rwa [machine_start id rfl rfl] at hsteps

/-- A run ends with numbers that can be written, or with a fault. -/
theorem isWritable_of_finished {p : Machine} (h : m.start.steps n = .finished p outcome) :
    outcome.isWritable = true := by
  rw [steps_start hstored] at h
  generalize (unlogged m).start.steps n = s at h
  cases s with
  | running q => cases h
  | finished q outcome' =>
      rw [step] at h
      split at h
      case isTrue hwritable =>
        obtain ⟨-, rfl⟩ := Step.finished.inj h
        exact hwritable
      case isFalse => cases h
  | faulted q fault => cases h

/-- Without line numbers changed, every report can be written that the run gives. -/
theorem step_ofRun_id (h : s = (unlogged m).start.steps n) :
    ((ofRun m id).step s).ending? = s.ending? ∧
      ((ofRun m id).step s).machine.log.toList = m.log.toList ++ s.machine.log.toList := by
  have hwritable : ∀ p outcome, s = .finished p outcome →
      (outcome.renumber id).isWritable = true := by
    intro p outcome hover
    rw [Outcome.renumber_id]
    exact isWritable_of_finished (m := unlogged m) hstored (h.symm.trans hover)
  obtain ⟨hending, hlog⟩ := step_of_isWritable (ofRun m id) hwritable
  refine ⟨?_, ?_⟩
  · rw [hending, ofRun, Outcome.renumber_id, Except.map_id, Option.map_id, id]
  · rw [hlog, toList_log_ofRun, Event.renumber_id, List.map_id]

include hdepth hlength hfits

/-- Two runs whose look-ups agree are two guises of one run, as long as the lines that they execute
    are the same. -/
theorem exists_steps_eq
    (hagrees : ∀ k s, m.start.steps k = .running s →
      (ofRun m' f).AgreesAt m.start.listing s.pc) :
    ∃ s, s = (unlogged m).start.steps n ∧ m.start.steps n = (ofRun m id).step s ∧
      m'.start.steps n = (ofRun m' f).step s := by
  refine ⟨_, rfl, steps_start hstored n, ?_⟩
  rw [← machine_start f hdepth hlength]
  refine steps_eq hfits (hstored.lock true).targets_nonneg rfl fun k p hp => ?_
  -- The points of the common run are points of the first, where the lines agree.
  have hpoint : m.start.steps k = .running ((ofRun m id).machine p) := by
    rw [steps_start hstored, hp]
    rfl
  have hline := hagrees k _ hpoint
  exact hline

variable (hagrees : ∀ k s, m.start.steps k = .running s →
  (ofRun m' f).AgreesAt m.start.listing s.pc)
include hagrees

/-- Two runs whose look-ups agree are the same at every point, as long as the lines that they
    execute are and what the first reports can be written with the numbers of the second. -/
theorem matches_steps
    (hwritable : ∀ outcome, (m.start.steps n).ending? = some (.ok outcome) →
      (outcome.renumber f).isWritable = true) :
    Step.Matches f m m' (m.start.steps n) (m'.start.steps n) := by
  obtain ⟨s, hs, hrun, hrun'⟩ := exists_steps_eq (n := n) hdepth hlength hfits hstored hagrees
  obtain ⟨hending, hlog⟩ := step_ofRun_id hstored hs
  rw [hrun, hending] at hwritable
  have hreports :
      ∀ p outcome, s = .finished p outcome → (outcome.renumber f).isWritable = true := by
    rintro p outcome rfl
    exact hwritable outcome rfl
  obtain ⟨hending', hlog'⟩ := step_of_isWritable (ofRun m' f) hreports
  have hevents : ((ofRun m' f).step s).machine.log.toList =
      m'.log.toList ++ s.machine.log.toList.map (Event.renumber f) := by
    rw [hlog', toList_log_ofRun]
  rw [hrun, hrun']
  refine ⟨⟨by simp, by simp, by simp, outTexts s.machine.log.toList, ?_, ?_⟩, ?_, _, hlog, hevents⟩
  · rw [hlog, outTexts_append]
  · rw [hevents, outTexts_append, outTexts_renumber]
  · rw [hending', hending, ofRun]

/-- Where the report of the first run cannot be written with the numbers of the second, that run
    breaks off. -/
theorem matchesUnreported_steps (hending : (m.start.steps n).ending? = some (.ok outcome))
    (hlong : (outcome.renumber f).isWritable = false) :
    Step.MatchesUnreported f m m' (m.start.steps n) (m'.start.steps n) := by
  obtain ⟨s, hs, hrun, hrun'⟩ := exists_steps_eq (n := n) hdepth hlength hfits hstored hagrees
  obtain ⟨hsame, hlog⟩ := step_ofRun_id hstored hs
  rw [hrun, hsame] at hending
  obtain ⟨p, rfl⟩ := Step.exists_finished hending
  obtain ⟨line, c, rfl⟩ := Outcome.eq_halted_of_not_isWritable hlong
  -- The first run has noted its end; without that, the logs are the same.
  obtain ⟨q, rfl⟩ := Machine.exists_note_of_halted hs.symm
  have hbreaks : m'.start.steps n = .faulted ((ofRun m' f).machine q) .unwritable := by
    rw [hrun', step_of_not_isWritable _ hlong, Machine.unnote_note]
  have hevents : (m.start.steps n).machine.log.toList =
      m.log.toList ++ q.log.toList ++ [.runHalted line c] := by
    rw [hrun, hlog, List.append_assoc]
    exact congrArg (m.log.toList ++ ·) Array.toList_push
  have hevents' : (m'.start.steps n).machine.log.toList =
      m'.log.toList ++ q.log.toList.map (Event.renumber f) := by
    rw [hbreaks, Step.machine, toList_log_ofRun]
  refine ⟨⟨?_, ?_, ?_, outTexts q.log.toList, ?_, ?_⟩, ?_, q.log.toList, line, c, ?_, hevents,
    hevents'⟩
  · simp [hrun, hrun']
  · simp [hrun, hrun']
  · simp [hrun, hrun']
  · rw [hevents, outTexts_append, outTexts_append]
    exact List.append_nil _
  · rw [hevents', outTexts_append, outTexts_renumber]
  · rw [hbreaks, Step.ending?]
  · rw [hrun, hsame, Step.ending?]

end Runs

/-- Where no line number changes, no report becomes too long. -/
theorem matches_steps_id {m m' : Machine} {n : Nat} (hdepth : m'.maxDepth = m.maxDepth)
    (hlength : m'.listing.lines.length = m.listing.lines.length)
    (hfits : (ofRun m' id).Fits m.start.listing) (hstored : m.listing.Stored)
    (hagrees : ∀ k s, m.start.steps k = .running s →
      (ofRun m' id).AgreesAt m.start.listing s.pc) :
    Step.Matches id m m' (m.start.steps n) (m'.start.steps n) := by
  refine matches_steps hdepth hlength hfits hstored hagrees fun outcome hending => ?_
  obtain ⟨p, hover⟩ := Step.exists_finished hending
  rw [Outcome.renumber_id]
  exact isWritable_of_finished hstored hover

end Guise

end LineBasic
