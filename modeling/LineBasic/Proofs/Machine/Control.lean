/-
  LineBasic.Proofs.Machine.Control

  The run of a stored listing, line after line. Executing a line never touches the listing, and the
  loops it opens count variables that there are; so at every point of a run the statement at hand is
  well formed and does what one of the rules says (`InRun.effect`).
-/
import LineBasic.Machine.Run
import LineBasic.Proofs.Machine.Effect
import LineBasic.Proofs.Stmt.WellFormed

namespace LineBasic

/-! ## What a statement leaves alone -/

namespace Machine

/-- Only the memory and the log differ. -/
structure SameControl (m m' : Machine) : Prop where
  listing_eq : m'.listing = m.listing
  frames_eq : m'.frames = m.frames
  pc_eq : m'.pc = m.pc
  maxDepth_eq : m'.maxDepth = m.maxDepth

theorem SameControl.refl (m : Machine) : SameControl m m :=
  ⟨rfl, rfl, rfl, rfl⟩

theorem SameControl.note {m m' : Machine} (h : SameControl m m') (event : Event) :
    SameControl m (m'.note event) :=
  ⟨h.listing_eq, h.frames_eq, h.pc_eq, h.maxDepth_eq⟩

theorem SameControl.after (m : Machine) (reports : List Complaint) (memory : Memory) :
    SameControl m (m.after reports memory) :=
  ⟨rfl, rfl, rfl, rfl⟩

theorem SameControl.trans {m m' m'' : Machine} (h : SameControl m m') (h' : SameControl m' m'') :
    SameControl m m'' :=
  ⟨h'.1.trans h.1, h'.2.trans h.2, h'.3.trans h.3, h'.4.trans h.4⟩

end Machine

/-- The machine after an action, whether it succeeded or not. -/
def machineAfter {α : Type} : EStateM.Result Failure Machine α → Machine
  | .ok _ m => m
  | .error _ m => m

/-- The result that gives an answer and leaves a state. -/
def resultOf {σ α : Type} (s : σ) : Except Failure α → EStateM.Result Failure σ α
  | .ok a => .ok a s
  | .error failure => .error failure s

theorem EntersLoop.sameControl {m m' : Machine} {slot : Nat} {start limit : Expr}
    {step : Option Expr} {first last stride : Float}
    (h : EntersLoop m slot start limit step first last stride m') : m.SameControl m' := by
  cases h
  exact .after m _ _

/-- The first value, the limit and the step are what the memory says before the loop. -/
theorem EntersLoop.outcomes {m m' : Machine} {slot : Nat} {start limit : Expr}
    {step : Option Expr} {first last stride : Float}
    (h : EntersLoop m slot start limit step first last stride m') :
    (start.eval m.memory).outcome = .ok first ∧ (limit.eval m.memory).outcome = .ok last ∧
      (readStep m.memory step).outcome = .ok stride := by
  cases h with
  | intro hstart hlimit hstep hwrite =>
      rw [hstart, hlimit, hstep]
      exact ⟨rfl, rfl, rfl⟩

/-- Entering a loop sets its variable. -/
theorem EntersLoop.read_eq {m m' : Machine} {slot : Nat} {start limit : Expr}
    {step : Option Expr} {first last stride : Float}
    (h : EntersLoop m slot start limit step first last stride m') :
    m'.memory.read slot = .ok first := by
  cases h with
  | intro hstart hlimit hstep hwrite => exact Memory.read_of_write hwrite

theorem CountsLoop.sameControl {m m' : Machine} {f : Frame} {value : Float}
    (h : CountsLoop m f value m') : m.SameControl m' := by
  cases h
  exact .after m _ _

theorem Declares.sameControl {m : Machine} {items : List (Nat × Expr)}
    {r : EStateM.Result Failure Machine Unit} (h : Declares m items r) :
    m.SameControl (machineAfter r) := by
  induction h with
  | nil => exact ⟨rfl, rfl, rfl, rfl⟩
  | cons hbound hdeclare hrest ih => exact (Machine.SameControl.after _ _ _).trans ih
  | fail hbound hdeclare => exact .after _ _ _

/-- No statement changes the listing. -/
theorem Effect.listing_eq {m : Machine} {stmt : Stmt} {r : EStateM.Result Failure Machine Flow}
    (h : Effect m stmt r) : (machineAfter r).listing = m.listing := by
  cases h with
  | dim hd => exact hd.sameControl.listing_eq
  | dimFails hd => exact hd.sameControl.listing_eq
  | openLoop henter => exact henter.sameControl.listing_eq
  | loopTooDeep henter => exact henter.sameControl.listing_eq
  | skipLoop henter => exact henter.sameControl.listing_eq
  | skipFails henter => exact henter.sameControl.listing_eq
  | repeatLoop hframes hslot hcount => exact hcount.sameControl.listing_eq
  | closeLoop hframes hslot hcount => exact hcount.sameControl.listing_eq
  | _ => rfl

/-- The loops stay as they are, or a `FOR` opens one, or a `NEXT` closes the innermost. -/
theorem Effect.frames_cases {m : Machine} {stmt : Stmt}
    {r : EStateM.Result Failure Machine Flow} (h : Effect m stmt r) :
    (machineAfter r).frames = m.frames ∨
      (∃ slot start limit step last stride, stmt = .forTo slot start limit step ∧
        (machineAfter r).frames = ⟨slot, last, stride, m.pc⟩ :: m.frames) ∨
      ∃ f, m.frames = f :: (machineAfter r).frames := by
  cases h with
  | dim hd => exact Or.inl hd.sameControl.frames_eq
  | dimFails hd => exact Or.inl hd.sameControl.frames_eq
  | openLoop henter => exact Or.inr (Or.inl ⟨_, _, _, _, _, _, rfl, rfl⟩)
  | loopTooDeep henter => exact Or.inl henter.sameControl.frames_eq
  | skipLoop henter => exact Or.inl henter.sameControl.frames_eq
  | skipFails henter => exact Or.inl henter.sameControl.frames_eq
  | repeatLoop hframes hslot hcount => exact Or.inl hcount.sameControl.frames_eq
  | closeLoop hframes hslot hcount => exact Or.inr (Or.inr ⟨_, hframes⟩)
  | _ => exact Or.inl rfl

/-! ## Steps -/

/-- The machine at a point of a run, whether the run goes on or not. -/
def Step.machine : Step → Machine
  | .running m => m
  | .finished m _ => m
  | .faulted m _ => m

/-- How the run ended, if it did. -/
def Step.ending? : Step → Option (Except Fault Outcome)
  | .running _ => none
  | .finished _ outcome => some (.ok outcome)
  | .faulted _ fault => some (.error fault)

/-- A run that ended with an outcome has done so at a machine. -/
theorem Step.exists_finished {s : Step} {outcome : Outcome} (h : s.ending? = some (.ok outcome)) :
    ∃ m, s = .finished m outcome := by
  cases s with
  | running m => cases h
  | finished m outcome' =>
      obtain rfl := Except.ok.inj (Option.some.inj h)
      exact ⟨m, rfl⟩
  | faulted m fault => cases h

namespace Machine

section Halt

variable (m : Machine) {number : Int} {c : Complaint}

theorem halt_of_isWritable (h : Text.isWritable number = true) :
    m.halt number c = .finished (m.note (.runHalted number c)) (.halted number c) :=
  if_pos h

theorem halt_of_not_isWritable (h : Text.isWritable number = false) :
    m.halt number c = .faulted m .unwritable :=
  if_neg (Bool.eq_false_iff.mp h)

variable (number c)

/-- A complaint ends the run, with a report or with a fault in its place. -/
theorem halt_cases :
    (Text.isWritable number = true ∧
      m.halt number c = .finished (m.note (.runHalted number c)) (.halted number c)) ∨
    (Text.isWritable number = false ∧ m.halt number c = .faulted m .unwritable) := by
  cases h : Text.isWritable number with
  | true => exact Or.inl ⟨rfl, m.halt_of_isWritable h⟩
  | false => exact Or.inr ⟨rfl, m.halt_of_not_isWritable h⟩

theorem halt_ne_running (m' : Machine) : m.halt number c ≠ .running m' := by
  rcases m.halt_cases number c with ⟨-, h⟩ | ⟨-, h⟩
  · simp [h]
  · simp [h]

/-- Whether it is reported or not, a complaint changes nothing but the log. -/
theorem exists_log_halt : ∃ log, (m.halt number c).machine = { m with log } := by
  rcases m.halt_cases number c with ⟨-, h⟩ | ⟨-, h⟩
  · exact ⟨_, by rw [h]; rfl⟩
  · exact ⟨_, by rw [h]; rfl⟩

end Halt

end Machine

/-- The point of the run that executing the line with a number leads to. -/
def Step.ofResult (number : Int) : EStateM.Result Failure Machine Flow → Step
  | .ok .next m => .running { m with pc := m.pc + 1 }
  | .ok .jump m => .running m
  | .ok .halt m => .finished m (.ended number)
  | .error (.complaint c) m => m.halt number c
  | .error (.fault fault) m => .faulted m fault

/-- After a failure the run does not go on. -/
theorem Step.ofResult_error_ne (number : Int) (failure : Failure) (m m' : Machine) :
    ofResult number (.error failure m) ≠ .running m' := by
  cases failure with
  | complaint c => exact m.halt_ne_running number c m'
  | fault fault =>
      intro h
      cases h

/-- Behind a line, only the line to execute and the log change once more. -/
theorem Step.exists_machine_ofResult (number : Int) (r : EStateM.Result Failure Machine Flow) :
    ∃ pc log, (ofResult number r).machine = { machineAfter r with pc, log } := by
  rcases r with ⟨_ | _ | _, m⟩ | ⟨c | fault, m⟩
  · exact ⟨_, _, rfl⟩
  · exact ⟨_, _, rfl⟩
  · exact ⟨_, _, rfl⟩
  · obtain ⟨log, h⟩ := m.exists_log_halt number c
    exact ⟨m.pc, log, h⟩
  · exact ⟨_, _, rfl⟩

section OfResult

variable (number : Int) (r : EStateM.Result Failure Machine Flow)

theorem Step.listing_ofResult : (ofResult number r).machine.listing = (machineAfter r).listing := by
  obtain ⟨pc, log, h⟩ := exists_machine_ofResult number r
  rw [h]

theorem Step.memory_ofResult : (ofResult number r).machine.memory = (machineAfter r).memory := by
  obtain ⟨pc, log, h⟩ := exists_machine_ofResult number r
  rw [h]

theorem Step.frames_ofResult : (ofResult number r).machine.frames = (machineAfter r).frames := by
  obtain ⟨pc, log, h⟩ := exists_machine_ofResult number r
  rw [h]

end OfResult

/-- A failure leaves the control as the line did that failed. -/
theorem Step.sameControl_ofResult_error (number : Int) (failure : Failure) (m : Machine) :
    m.SameControl (ofResult number (.error failure m)).machine := by
  cases failure with
  | complaint c =>
      obtain ⟨log, h⟩ := m.exists_log_halt number c
      rw [ofResult, h]
      exact ⟨rfl, rfl, rfl, rfl⟩
  | fault fault => exact .refl m

namespace Machine

theorem step_of_line {m : Machine} {line : Line} (h : m.listing.lines[m.pc]? = some line) :
    m.step = Step.ofResult line.number (Action.execLine line m) := by
  rw [step, h]
  rcases hr : Action.execLine line m with ⟨_ | _ | _, m'⟩ | ⟨c | fault, m'⟩
  all_goals simp only [hr, Step.ofResult]

/-- A line that cannot be parsed complains when it is executed. -/
theorem step_of_misread {m : Machine} {line : Line} {e : Misread}
    (h : m.listing.lines[m.pc]? = some line) (he : line.content = .error e) :
    m.step = m.halt line.number (.misread e) := by
  rw [step_of_line h, Action.execLine, he]
  rfl

theorem step_of_end {m : Machine} (h : m.listing.lines[m.pc]? = none) :
    m.step = .finished m .passedEnd := by
  rw [step, h]

/-- A run that is over with its first line is as far as it gets. -/
theorem steps_succ_of_step {m : Machine} (h : ∀ m', m.step ≠ .running m') (n : Nat) :
    m.steps (n + 1) = m.step := by
  rw [steps]
  cases hstep : m.step with
  | running m' => exact absurd hstep (h m')
  | finished m' outcome => rfl
  | faulted m' fault => rfl

/-- A run that was not over goes on by one line. -/
theorem steps_succ {s m : Machine} {t : Nat} (h : s.steps t = .running m) :
    s.steps (t + 1) = m.step := by
  induction t generalizing s with
  | zero =>
      obtain rfl := Step.running.inj h
      rw [steps]
      cases s.step with
      | _ => rfl
  | succ t ih =>
      rw [steps] at h ⊢
      cases hstep : s.step with
      | running s' =>
          rw [hstep] at h
          exact ih h
      | finished s' outcome =>
          rw [hstep] at h
          cases h
      | faulted s' fault =>
          rw [hstep] at h
          cases h

/-- A run that is over stays where it is. -/
theorem steps_succ_of_over {s : Machine} {t : Nat} (h : ∀ m, s.steps t ≠ .running m) :
    s.steps (t + 1) = s.steps t := by
  induction t generalizing s with
  | zero => exact absurd rfl (h s)
  | succ t ih =>
      rw [steps] at h ⊢
      rw [steps]
      cases hstep : s.step with
      | running s' =>
          rw [hstep] at h
          exact ih h
      | finished s' outcome => rfl
      | faulted s' fault => rfl

/-- A run that is over has gone on up to its last step. -/
theorem exists_last_step {s : Machine} {last : Step} {n : Nat} (h : s.steps n = last)
    (hover : ∀ m, last ≠ .running m) :
    ∃ k s', s.steps k = .running s' ∧ s'.step = last := by
  induction n generalizing s with
  | zero => exact absurd h.symm (hover s)
  | succ n ih =>
      rw [steps] at h
      cases hstep : s.step with
      | running s₁ =>
          rw [hstep] at h
          obtain ⟨k, s', hs', hlast⟩ := ih h
          refine ⟨k + 1, s', ?_, hlast⟩
          rw [steps, hstep]
          exact hs'
      | finished s₁ outcome =>
          rw [hstep] at h
          exact ⟨0, s, rfl, hstep.trans h⟩
      | faulted s₁ fault =>
          rw [hstep] at h
          exact ⟨0, s, rfl, hstep.trans h⟩

/-- A run that was halted has noted that last. -/
theorem exists_note_of_halted {s r : Machine} {number : Int} {c : Complaint} {n : Nat}
    (h : s.steps n = .finished r (.halted number c)) :
    ∃ m : Machine, r = m.note (.runHalted number c) := by
  obtain ⟨k, s', -, hlast⟩ := exists_last_step h (by simp)
  -- The last step was at a line, and the line complained.
  cases hline : s'.listing.lines[s'.pc]? with
  | none =>
      rw [step_of_end hline] at hlast
      cases hlast
  | some line =>
      rw [step_of_line hline] at hlast
      rcases hresult : Action.execLine line s' with ⟨_ | _ | _, m⟩ | ⟨d | fault, m⟩
      all_goals rw [hresult] at hlast
      case error.complaint =>
        rcases m.halt_cases line.number d with ⟨-, hhalt⟩ | ⟨-, hhalt⟩
        · obtain ⟨rfl, hhalted⟩ := Step.finished.inj (hhalt.symm.trans hlast)
          obtain ⟨rfl, rfl⟩ := Outcome.halted.inj hhalted
          exact ⟨m, rfl⟩
        · cases hhalt.symm.trans hlast
      all_goals cases hlast

/-- What a step keeps, a run keeps up to every point. -/
theorem steps_induction {P : Machine → Prop} (hstep : ∀ m, P m → P m.step.machine) {m : Machine}
    (n : Nat) (hm : P m) : P (m.steps n).machine := by
  induction n generalizing m with
  | zero => exact hm
  | succ n ih =>
      have hnext := hstep m hm
      -- A run that is over stays where it is.
      rw [steps]
      generalize m.step = next at hnext
      cases next with
      | running m' => exact ih hnext
      | finished m' outcome => exact hnext
      | faulted m' fault => exact hnext

end Machine

/-! ## Runs of a listing -/

/-- The machine is running the listing. -/
structure Machine.InRun (l : Listing) (m : Machine) : Prop where
  listing_eq : m.listing = l
  /-- The loops that are open count variables that there are. -/
  named : ∀ f ∈ m.frames, f.slot < slotCount

namespace Machine.InRun

variable {l : Listing} {m : Machine} {line : Line} {stmt : Stmt}

theorem start (m : Machine) : InRun m.start.listing m.start :=
  ⟨rfl, by simp [Machine.start, Machine.reset, Machine.note]⟩

/-- The statement of a line is well formed and does what one of the rules says. -/
theorem effect (hl : l.Stored) (hm : InRun l m) (hline : line ∈ l.lines)
    (hstmt : line.content = .ok stmt) :
    stmt.WellFormed ∧ Effect m stmt (Action.execLine line m) := by
  have hwf := ((hl.sound.lines line hline).wellFormed hstmt).1
  refine ⟨hwf, ?_⟩
  rw [Action.execLine, hstmt]
  exact exec_effect hwf hm.named

/-- Executing a line, with whatever result, leaves a machine that is running the listing. -/
theorem execLine (hl : l.Stored) (hm : InRun l m) (hline : line ∈ l.lines) :
    InRun l (machineAfter (Action.execLine line m)) := by
  cases hcontent : line.content with
  | error e =>
      rw [Action.execLine, hcontent]
      exact hm
  | ok stmt =>
      obtain ⟨hwf, heffect⟩ := hm.effect hl hline hcontent
      refine ⟨heffect.listing_eq.trans hm.listing_eq, fun f hf => ?_⟩
      -- A loop that is new was opened by this statement, whose variable there is.
      rcases heffect.frames_cases with
        hsame | ⟨slot, start, limit, step, last, stride, rfl, hopen⟩ | ⟨inner, hclose⟩
      · exact hm.named f (hsame ▸ hf)
      · rw [hopen] at hf
        rcases List.mem_cons.mp hf with rfl | hf
        · exact hwf.1
        · exact hm.named f hf
      · exact hm.named f (hclose ▸ List.mem_cons_of_mem _ hf)

theorem step (hl : l.Stored) (hm : InRun l m) : InRun l m.step.machine := by
  cases hline : m.listing.lines[m.pc]? with
  | none =>
      rw [step_of_end hline]
      exact hm
  | some line =>
      have hmem : line ∈ l.lines := hm.listing_eq ▸ List.mem_of_getElem? hline
      have hleft := hm.execLine hl hmem
      rw [step_of_line hline]
      refine ⟨(Step.listing_ofResult _ _).trans hleft.listing_eq, ?_⟩
      rw [Step.frames_ofResult]
      exact hleft.named

theorem steps (hl : l.Stored) (n : Nat) (hm : InRun l m) : InRun l (m.steps n).machine :=
  steps_induction (fun _ => step hl) n hm

end Machine.InRun

end LineBasic
