/-
  LineBasic.Proofs.Machine.Ending

  Where a run that is over has stopped, and what the error stream has shown of it.

  A run ends with its last step, and that step decides: behind the last line there is nothing to
  execute, `END` halts, and a line that complains is left as the line at hand, because no statement
  moves on before it fails. Up to there the error stream has shown nothing but reads that failed
  (`shows_steps`, from line to line); a complaint that ends the run is shown behind them.
-/
import LineBasic.Proofs.Machine.FailedStatement
import LineBasic.Proofs.Machine.History
import LineBasic.Proofs.Machine.LoopStack
import LineBasic.Proofs.Machine.Reads

namespace LineBasic

/-! ## What the error stream shows -/

/-- The texts that events show on the error stream; most events show nothing there. -/
def errorTexts (events : List Event) : List String :=
  (events.map Event.report).filter (· ≠ "")

/-- The complaints of array reads, which do not end a run. -/
def Complaint.IsOfRead : Complaint → Prop
  | .undeclared _ | .outOfBounds _ _ => True
  | _ => False

/-- The line that is shown of a read that failed. -/
def Complaint.readNotice (c : Complaint) : String :=
  s!"{c.label}: {c.message}\n"

/-- The lines that are shown of how a run ended: one if it was halted, else none. -/
def Outcome.notices : Outcome → List String
  | .halted number c => [s!"{c.label} in line {number}: {c.message}\n"]
  | _ => []

/-- From the first machine to the second the error stream has shown some reads that failed, each in
    a line of its own, and after them the given lines. -/
def Machine.Shows (m : Machine) (last : List String) (m' : Machine) : Prop :=
  ∃ (events : List Event) (reads : List Complaint),
    m'.log.toList = m.log.toList ++ events ∧ (∀ c ∈ reads, c.IsOfRead) ∧
    errorTexts events = reads.map Complaint.readNotice ++ last

theorem append_newline_ne (s : String) : s ++ "\n" ≠ "" := by
  intro h
  have hlength := congrArg String.length h
  rw [String.length_append] at hlength
  exact absurd hlength (Nat.succ_ne_zero _)

section Texts

variable (events events' : List Event)

theorem errorTexts_append :
    errorTexts (events ++ events') = errorTexts events ++ errorTexts events' := by
  rw [errorTexts, List.map_append, List.filter_append, errorTexts, errorTexts]

theorem errorTexts_cons_of_ne {event : Event} (h : event.report ≠ "") :
    errorTexts (event :: events) = event.report :: errorTexts events := by
  rw [errorTexts, List.map_cons, List.filter_cons_of_pos (by simpa using h), errorTexts]

theorem errorTexts_softRead (reads : List Complaint) :
    errorTexts (reads.map Event.softRead) = reads.map Complaint.readNotice := by
  induction reads with
  | nil => rfl
  | cons c reads ih =>
      have hshown : (Event.softRead c).report ≠ "" := append_newline_ne _
      rw [List.map_cons, errorTexts_cons_of_ne _ hshown, ih]
      rfl

theorem errorTexts_printed (texts : List String) : errorTexts (texts.map Event.printed) = [] := by
  induction texts with
  | nil => rfl
  | cons text texts ih => exact ih

theorem errorTexts_runHalted (number : Int) (c : Complaint) :
    errorTexts [.runHalted number c] = (Outcome.halted number c).notices := by
  have hshown : (Event.runHalted number c).report ≠ "" := append_newline_ne _
  rw [errorTexts_cons_of_ne _ hshown]
  rfl

end Texts

namespace Machine.Shows

variable {m m' m'' : Machine} {last : List String}

theorem refl (m : Machine) : m.Shows [] m :=
  ⟨[], [], by simp, by simp, rfl⟩

theorem trans (h : m.Shows [] m') (h' : m'.Shows last m'') : m.Shows last m'' := by
  obtain ⟨events, reads, hlog, hreads, htexts⟩ := h
  obtain ⟨events', reads', hlog', hreads', htexts'⟩ := h'
  refine ⟨events ++ events', reads ++ reads', ?_, ?_, ?_⟩
  · rw [hlog', hlog, List.append_assoc]
  · intro c hc
    rcases List.mem_append.mp hc with hc | hc
    · exact hreads c hc
    · exact hreads' c hc
  · rw [errorTexts_append, htexts, htexts', List.append_nil, List.map_append, List.append_assoc]

/-- Only the log matters. -/
theorem of_log_eq (h : m.Shows last m') (hlog : m''.log = m'.log) : m.Shows last m'' := by
  obtain ⟨events, reads, hevents, hreads, htexts⟩ := h
  exact ⟨events, reads, by rw [hlog, hevents], hreads, htexts⟩

theorem start (m : Machine) : m.Shows [] m.start :=
  ⟨[.runStarted m.listing.lines.length], [], Array.toList_push .., by simp, rfl⟩

theorem halt (h : m.Shows [] m') (number : Int) (c : Complaint) :
    m.Shows (Outcome.halted number c).notices (m'.note (.runHalted number c)) := by
  refine h.trans ⟨[.runHalted number c], [], Array.toList_push .., by simp, ?_⟩
  exact errorTexts_runHalted number c

end Machine.Shows

/-! ## Lines -/

/-- What is reported of a statement are complaints of array reads. -/
theorem isOfRead_of_mem_reported {stmt : Stmt} (hstmt : stmt.WellFormed) {memory : Memory} :
    ∀ c ∈ reported (stmt.reads memory), c.IsOfRead := by
  intro c hc
  obtain ⟨r, hr, hcomplaint⟩ := List.mem_filterMap.mp hc
  have hgives := ElementRead.gives (Stmt.letter_lt hstmt r hr)
  rw [hcomplaint] at hgives
  generalize r.value = x at hgives
  cases hgives with
  | undeclared => trivial
  | outOfBounds => trivial

theorem Machine.Tells.shows {m m' : Machine} {stmt : Stmt} (hstmt : stmt.WellFormed)
    (h : m.Tells (stmt.reads m.memory) m') : m.Shows [] m' := by
  obtain ⟨texts, hlog⟩ := h
  refine ⟨(reported (stmt.reads m.memory)).map .softRead ++ texts.map .printed,
    reported (stmt.reads m.memory), ?_, isOfRead_of_mem_reported hstmt, ?_⟩
  · rw [hlog, List.append_assoc]
  · rw [errorTexts_append, errorTexts_softRead, errorTexts_printed]

/-- The lines that are shown of how the run ended, at a point where it has. -/
def Step.notices : Step → List String
  | .finished _ outcome => outcome.notices
  | _ => []

/-- Behind what executing a line has shown, the run shows the complaint that halts it. -/
theorem Step.shows_ofResult {m : Machine} {r : EStateM.Result Failure Machine Flow}
    (h : m.Shows [] (machineAfter r)) (number : Int) :
    m.Shows (ofResult number r).notices (ofResult number r).machine := by
  rcases r with ⟨_ | _ | _, m'⟩ | ⟨c | fault, m'⟩
  · exact h.of_log_eq rfl
  · exact h
  · exact h
  · rcases m'.halt_cases number c with ⟨-, hhalt⟩ | ⟨-, hhalt⟩
    · rw [ofResult, hhalt]
      exact h.halt number c
    · rw [ofResult, hhalt]
      exact h
  · exact h

namespace Machine

variable {l : Listing} {maxDepth : Int} {s r : Machine} {outcome : Outcome}

theorem InRun.shows_step (hl : l.Stored) (hs : InRun l s) :
    s.Shows s.step.notices s.step.machine := by
  cases hline : s.listing.lines[s.pc]? with
  | none =>
      rw [step_of_end hline]
      exact .refl s
  | some line =>
      rw [step_of_line hline]
      apply Step.shows_ofResult
      have hmem : line ∈ l.lines := hs.listing_eq ▸ List.mem_of_getElem? hline
      cases hcontent : line.content with
      | error e =>
          rw [Action.execLine, hcontent]
          exact .refl s
      | ok stmt =>
          have hstmt := (hs.effect hl hmem hcontent).1
          rw [Action.execLine, hcontent]
          exact (exec_tells hstmt s).shows hstmt

/-- Along a run only failed reads are shown, until it is halted. -/
theorem InRun.shows_steps (hl : l.Stored) (hs : InRun l s) (k : Nat) :
    s.Shows (s.steps k).notices (s.steps k).machine := by
  induction k generalizing s with
  | zero => exact .refl s
  | succ k ih =>
      have hshows := hs.shows_step hl
      have hnext := hs.step hl
      rw [Machine.steps]
      cases hstep : s.step with
      | running s₁ =>
          rw [hstep] at hshows hnext
          exact hshows.trans (ih hnext)
      | finished s₁ outcome =>
          -- The rest of the steps stays at this point, and shows nothing more.
          rw [hstep] at hshows
          exact hshows
      | faulted s₁ fault =>
          rw [hstep] at hshows
          exact hshows

/-! ## The last step -/

/-- What the last step of a run comes from. -/
inductive Ends (l : Listing) (s : Machine) : Machine → Outcome → Prop
  | passedEnd (hpc : s.pc = l.lines.length) : Ends l s s .passedEnd
  | ended {line : Line} (hline : l.lines[s.pc]? = some line) (hkind : line.kind = .END)
      (hstmt : line.content = .ok .stop) : Ends l s s (.ended line.number)
  | halted {line : Line} {c : Complaint} {s' : Machine} (hline : l.lines[s.pc]? = some line)
      (hfails : Action.execLine line s = .error (.complaint c) s') (hpc : s'.pc = s.pc) :
      Ends l s (s'.note (.runHalted line.number c)) (.halted line.number c)

/-- Only `END` halts, and it leaves the machine as it was. -/
theorem InRun.stop_of_halt (hl : l.Stored) (hs : InRun l s) {line : Line} {s' : Machine}
    (hline : line ∈ l.lines) (h : Action.execLine line s = .ok .halt s') :
    line.kind = .END ∧ line.content = .ok .stop ∧ s' = s := by
  cases hcontent : line.content with
  | error e =>
      rw [Action.execLine, hcontent] at h
      cases h
  | ok stmt =>
      obtain ⟨-, heffect⟩ := hs.effect hl hline hcontent
      have hcovers := ((hl.sound.lines line hline).wellFormed hcontent).2
      rw [h] at heffect
      cases heffect with
      | stop =>
          refine ⟨?_, rfl, rfl⟩
          -- Lines that parse have the kind of their statement.
          generalize line.kind = kind at hcovers
          cases kind with
          | END => rfl
          | _ => exact hcovers.elim

theorem InOrder.ends (hl : l.Stored) (hs : InOrder l maxDepth s)
    (h : s.step = .finished r outcome) : Ends l s r outcome := by
  have hlisting := hs.inRun.listing_eq
  cases hline : s.listing.lines[s.pc]? with
  | none =>
      -- The line to execute is never behind the place behind the last line.
      have hle := hs.orderly.pc_le
      have hge := List.getElem?_eq_none_iff.mp hline
      rw [step_of_end hline] at h
      obtain ⟨rfl, rfl⟩ := Step.finished.inj h
      rw [hlisting] at hle hge
      exact .passedEnd (by omega)
  | some line =>
      rw [step_of_line hline] at h
      rw [hlisting] at hline
      have hmem : line ∈ l.lines := List.mem_of_getElem? hline
      rcases hresult : Action.execLine line s with ⟨_ | _ | _, s'⟩ | ⟨c | fault, s'⟩
      all_goals rw [hresult] at h
      · cases h
      · cases h
      · obtain ⟨rfl, rfl⟩ := Step.finished.inj h
        obtain ⟨hkind, hstmt, rfl⟩ := hs.inRun.stop_of_halt hl hmem hresult
        exact .ended hline hkind hstmt
      · rcases s'.halt_cases line.number c with ⟨-, hhalt⟩ | ⟨-, hhalt⟩
        · obtain ⟨rfl, rfl⟩ := Step.finished.inj (hhalt.symm.trans h)
          exact .halted hline hresult (hs.inRun.pc_of_complaint hl hmem hresult)
        · cases hhalt.symm.trans h
      · cases h

end Machine

/-! ## Runs that are over -/

/-- A run that gives an outcome has come to its end, and left the machine it had there. -/
theorem Action.exists_finished_of_run {fuel : Nat} {m r : Machine} {outcome : Outcome}
    (h : Action.run fuel m = .ok (some outcome) r) :
    ∃ s, m.start.steps fuel = .finished s outcome ∧ r = s.release := by
  by_cases hidle : m.running = false
  · rw [run_of_idle hidle] at h
    cases hsteps : m.start.steps fuel with
    | running s =>
        rw [hsteps] at h
        cases h
    | finished s outcome' =>
        rw [hsteps] at h
        obtain ⟨houtcome, rfl⟩ := EStateM.Result.ok.inj h
        obtain rfl := Option.some.inj houtcome
        exact ⟨s, rfl, rfl⟩
    | faulted s fault =>
        rw [hsteps] at h
        cases h
  · rw [run_of_running (Bool.of_not_eq_false hidle)] at h
    cases h

/-- The outcome says where the run has stopped that the first machine started and that left the
    second: behind the last line, at an `END` line with the number, or at the line with the number,
    which made the complaint when the run came to it. -/
inductive Outcome.Marks (m r : Machine) : Outcome → Prop
  | passedEnd (hpc : r.pc = m.listing.lines.length) : Marks m r .passedEnd
  | ended {line : Line} (hline : m.listing.lines[r.pc]? = some line) (hkind : line.kind = .END)
      (hstmt : line.content = .ok .stop) : Marks m r (.ended line.number)
  | halted {line : Line} {c : Complaint} {k : Nat} {s s' : Machine}
      (hline : m.listing.lines[r.pc]? = some line) (hpoint : m.start.steps k = .running s)
      (hpc : s.pc = r.pc) (hfails : Action.execLine line s = .error (.complaint c) s') :
      Marks m r (.halted line.number c)

/-- A run of a stored listing that gives an outcome has left the lines as they were and stopped
    where the outcome says. The error stream has shown the array reads that failed, and nothing else
    but, behind them, the complaint that halted the run if one did. -/
theorem run_reports_where_it_stopped {m r : Machine} {fuel : Nat} {outcome : Outcome}
    (hstored : m.listing.Stored) (hrun : Action.run fuel m = .ok (some outcome) r) :
    r.listing.lines = m.listing.lines ∧ outcome.Marks m r ∧ m.Shows outcome.notices r := by
  have hl : m.start.listing.Stored := hstored.lock true
  obtain ⟨p, hover, rfl⟩ := Action.exists_finished_of_run hrun
  refine ⟨?_, ?_, ?_⟩
  · have hpoint := Machine.InOrder.run hstored fuel
    rw [hover] at hpoint
    have hlisting : p.listing = m.start.listing := hpoint.inRun.listing_eq
    show p.listing.lines = _
    rw [hlisting]
    rfl
  · obtain ⟨k, s, hs, hlast⟩ := Machine.exists_last_step hover (by simp)
    have hpoint := Machine.InOrder.run hstored k
    rw [hs] at hpoint
    cases hpoint.ends hl hlast with
    | passedEnd hpc => exact .passedEnd hpc
    | ended hline hkind hstmt => exact .ended hline hkind hstmt
    | @halted line c s' hline hfails hpc =>
        have hat : m.listing.lines[s'.pc]? = some line := by rw [hpc]; exact hline
        exact .halted hat hs hpc.symm hfails
  · have hshows := (Machine.InRun.start m).shows_steps hl fuel
    rw [hover] at hshows
    exact (Machine.Shows.start m).trans hshows

/-- A run that reads an array that is not declared, goes on, and is halted at its second line. -/
theorem run_reports_where_it_stopped_failed_jump :
    ∃ m r : Machine, m.listing.Stored ∧
      m.listing.lines.map (·.text) = ["PRINT B(0)", "GOTO 99"] ∧
      Action.run 9 m = .ok (some (.halted 20 (.noSuchLine .GOTO 99))) r ∧ r.pc = 1 ∧
      errorTexts r.log.toList = ["Runtime error: array B not DIM'd\n",
        "Runtime error in line 20: GOTO to 99 not found\n"] ∧
      r.listing.lines = m.listing.lines ∧
      (Outcome.halted 20 (.noSuchLine .GOTO 99)).Marks m r ∧
      m.Shows ["Runtime error in line 20: GOTO to 99 not found\n"] r := by
  let edits : List Edit := [.insert 10 "PRINT B(0)", .insert 20 "GOTO 99"]
  let m : Machine := { listing := { lines := [
    ⟨10, "PRINT B(0)", .PRINT, .ok (.print (some (.element 1 (.num 0.0))))⟩,
    ⟨20, "GOTO 99", .GOTO, .ok (.goto 99)⟩] } }
  have hstored : m.listing.Stored := ⟨1000, edits, rfl⟩
  have hrun : Action.run 9 m =
      .ok (some (.halted 20 (.noSuchLine .GOTO 99))) (machineAfter (Action.run 9 m)) := rfl
  obtain ⟨hlines, hmarks, hshows⟩ := run_reports_where_it_stopped hstored hrun
  exact ⟨m, _, hstored, rfl, hrun, rfl, by decide +kernel, hlines, hmarks, hshows⟩

end LineBasic
