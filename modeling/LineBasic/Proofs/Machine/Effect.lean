/-
  LineBasic.Proofs.Machine.Effect

  What executing a statement does to the machine, as rules: one for each way in which a statement
  can go on, jump, halt or fail, with the values it depends on and the machine it leaves.

  `exec_effect` says that a well-formed statement always does one of these things. There is no rule
  for a missing variable, a fault of the evaluator or a statement that is not known, so whoever goes
  through the rules never meets one.
-/
import LineBasic.Machine.Exec
import LineBasic.Proofs.Complaint
import LineBasic.Proofs.Machine.Evaluation

namespace LineBasic

/-! ## Machines after readings -/

/-- The machine after the reports of some readings became known, and with a new memory. -/
def Machine.after (m : Machine) (reports : List Complaint) (memory : Memory) : Machine :=
  { m with memory, log := m.log ++ reports.map Event.softRead }

namespace Machine

variable (m : Machine) (reports more : List Complaint) (memory memory' : Memory)

@[simp] theorem after_listing : (m.after reports memory).listing = m.listing := rfl

@[simp] theorem after_memory : (m.after reports memory).memory = memory := rfl

@[simp] theorem after_frames : (m.after reports memory).frames = m.frames := rfl

@[simp] theorem after_pc : (m.after reports memory).pc = m.pc := rfl

@[simp] theorem after_maxDepth : (m.after reports memory).maxDepth = m.maxDepth := rfl

@[simp] theorem after_after :
    (m.after reports memory).after more memory' = m.after (reports ++ more) memory' := by
  have hlog : m.log ++ reports.map Event.softRead ++ more.map Event.softRead =
      m.log ++ (reports ++ more).map Event.softRead := by
    apply Array.toList_inj.mp
    simp
  simp only [after, hlog]

/-- No reading was made: only the memory is new. -/
theorem after_nil : m.after [] memory = { m with memory } := by
  simp [after]

@[simp] theorem after_nil_self : m.after [] m.memory = m :=
  m.after_nil m.memory

end Machine

/-! ## Actions that succeed or fail -/

namespace Action

variable {α β : Type} {m m' : Machine} {reports : List Complaint} {memory : Memory}

theorem bind_of_ok {x : Action α} {f : α → Action β} {a : α} (h : x m = .ok a m') :
    (x >>= f) m = f a m' := by
  simp only [bind, EStateM.bind, h]

theorem bind_of_error {x : Action α} {f : α → Action β} {failure : Failure}
    (h : x m = .error failure m') : (x >>= f) m = .error failure m' := by
  simp only [bind, EStateM.bind, h]

theorem get_eq_ok : (get : Action Machine) m = .ok m m := rfl

/-- Taking a value makes the reports behind it known. -/
theorem take_of_ok {read : Memory → Reading α} {a : α} (h : read m.memory = ⟨reports, .ok a⟩) :
    take read m = .ok a (m.after reports m.memory) := by
  rw [take, bind_of_ok get_eq_ok]
  simp only [h]
  rfl

theorem take_of_error {read : Memory → Reading α} {fault : Fault}
    (h : read m.memory = ⟨reports, .error fault⟩) :
    take read m = .error (.fault fault) (m.after reports m.memory) := by
  rw [take, bind_of_ok get_eq_ok]
  simp only [h]
  rfl

theorem change_of_ok {f : Memory → Except Failure Memory} (h : f m.memory = .ok memory) :
    change f m = .ok () (m.after [] memory) := by
  rw [change, bind_of_ok get_eq_ok, h, Machine.after_nil]
  rfl

theorem change_of_error {f : Memory → Except Failure Memory} {failure : Failure}
    (h : f m.memory = .error failure) : change f m = .error failure m := by
  rw [change, bind_of_ok get_eq_ok, h]
  rfl

theorem changeOrFail_of_ok {f : Memory → Except Fault Memory} (h : f m.memory = .ok memory) :
    changeOrFail f m = .ok () (m.after [] memory) :=
  change_of_ok (by rw [h]; rfl)

theorem changeOrFail_of_error {f : Memory → Except Fault Memory} {fault : Fault}
    (h : f m.memory = .error fault) : changeOrFail f m = .error (.fault fault) m :=
  change_of_error (by rw [h]; rfl)

end Action

/-! ## Rules -/

/-- The step of a loop as `FOR` reads it: one unless another is given, and never zero. -/
def readStep (memory : Memory) : Option Expr → Reading Float
  | some e => do
    let x ← e.eval memory
    return if x == 0.0 then 1.0 else x
  | none => pure 1.0

/-- A `FOR` statement finds its first value, its limit and its step, and sets its variable. -/
inductive EntersLoop (m : Machine) (slot : Nat) (start limit : Expr) (step : Option Expr)
    (first last stride : Float) : Machine → Prop
  | intro {rs rs' rs'' : List Complaint} {memory : Memory}
      (hstart : start.eval m.memory = ⟨rs, .ok first⟩)
      (hlimit : limit.eval m.memory = ⟨rs', .ok last⟩)
      (hstep : readStep m.memory step = ⟨rs'', .ok stride⟩)
      (hwrite : m.memory.write slot first = .ok memory) :
      EntersLoop m slot start limit step first last stride (m.after (rs ++ rs' ++ rs'') memory)

/-- A `NEXT` statement adds the step to the variable of the loop. -/
inductive CountsLoop (m : Machine) (f : Frame) : Float → Machine → Prop
  | intro {old : Float} {memory : Memory} (hread : m.memory.read f.slot = .ok old)
      (hwrite : m.memory.write f.slot (old + f.step) = .ok memory) :
      CountsLoop m f (old + f.step) (m.after [] memory)

/-- A `DIM` statement declares its arrays in order, up to the first that cannot be declared. -/
inductive Declares : Machine → List (Nat × Expr) → EStateM.Result Failure Machine Unit → Prop
  | nil {m : Machine} : Declares m [] (.ok () m)
  | cons {m : Machine} {letter : Nat} {bound : Expr} {rest : List (Nat × Expr)}
      {reports : List Complaint} {x : Float} {memory : Memory}
      {r : EStateM.Result Failure Machine Unit}
      (hbound : bound.eval m.memory = ⟨reports, .ok x⟩)
      (hdeclare : m.memory.declare letter x = .ok memory)
      (hrest : Declares (m.after reports memory) rest r) : Declares m ((letter, bound) :: rest) r
  | fail {m : Machine} {letter : Nat} {bound : Expr} {rest : List (Nat × Expr)}
      {reports : List Complaint} {x : Float} {fault : Fault}
      (hbound : bound.eval m.memory = ⟨reports, .ok x⟩)
      (hdeclare : m.memory.declare letter x = .error fault) :
      Declares m ((letter, bound) :: rest) (.error (.fault fault) (m.after reports m.memory))

/-- The statement, executed by the machine, leads to the result. -/
inductive Effect (m : Machine) : Stmt → EStateM.Result Failure Machine Flow → Prop
  | assign {slot : Nat} {value : Expr} {reports : List Complaint} {x : Float} {memory : Memory}
      (hvalue : value.eval m.memory = ⟨reports, .ok x⟩)
      (hwrite : m.memory.write slot x = .ok memory) :
      Effect m (.assign (.scalar slot) value) (.ok .next (m.after reports memory))
  | assignElement {letter : Nat} {index value : Expr} {rs rs' : List Complaint} {i x : Float}
      {memory : Memory} (hindex : index.eval m.memory = ⟨rs, .ok i⟩)
      (hvalue : value.eval m.memory = ⟨rs', .ok x⟩)
      (hwrite : m.memory.writeElement letter i x = .ok memory) :
      Effect m (.assign (.element letter index) value) (.ok .next (m.after (rs ++ rs') memory))
  | assignFails {letter : Nat} {index value : Expr} {rs rs' : List Complaint} {i x : Float}
      {failure : Failure} (hindex : index.eval m.memory = ⟨rs, .ok i⟩)
      (hvalue : value.eval m.memory = ⟨rs', .ok x⟩)
      (hwrite : m.memory.writeElement letter i x = .error failure) :
      Effect m (.assign (.element letter index) value)
        (.error failure (m.after (rs ++ rs') m.memory))
  | dim {items : List (Nat × Expr)} {m' : Machine} (h : Declares m items (.ok () m')) :
      Effect m (.dim items) (.ok .next m')
  | dimFails {items : List (Nat × Expr)} {failure : Failure} {m' : Machine}
      (h : Declares m items (.error failure m')) : Effect m (.dim items) (.error failure m')
  | openLoop {slot : Nat} {start limit : Expr} {step : Option Expr} {first last stride : Float}
      {m' : Machine} (henter : EntersLoop m slot start limit step first last stride m')
      (hruns : skipsLoop first last stride = false) (hroom : (m.frames.length : Int) < m.maxDepth) :
      Effect m (.forTo slot start limit step)
        (.ok .next { m' with frames := ⟨slot, last, stride, m.pc⟩ :: m.frames })
  | loopTooDeep {slot : Nat} {start limit : Expr} {step : Option Expr} {first last stride : Float}
      {m' : Machine} (henter : EntersLoop m slot start limit step first last stride m')
      (hruns : skipsLoop first last stride = false) (hfull : m.maxDepth ≤ m.frames.length) :
      Effect m (.forTo slot start limit step) (.error (.complaint .forTooDeep) m')
  | skipLoop {slot : Nat} {start limit : Expr} {step : Option Expr} {first last stride : Float}
      {m' : Machine} {i : Nat} (henter : EntersLoop m slot start limit step first last stride m')
      (hskips : skipsLoop first last stride = true)
      (hnext : m.listing.matchingNext? (m.pc + 1) = some i) :
      Effect m (.forTo slot start limit step) (.ok .jump { m' with pc := i + 1 })
  | skipFails {slot : Nat} {start limit : Expr} {step : Option Expr} {first last stride : Float}
      {m' : Machine} (henter : EntersLoop m slot start limit step first last stride m')
      (hskips : skipsLoop first last stride = true)
      (hnext : m.listing.matchingNext? (m.pc + 1) = none) :
      Effect m (.forTo slot start limit step) (.error (.complaint .forWithoutNext) m')
  | repeatLoop {slot : Option Nat} {f : Frame} {outer : List Frame} {value : Float} {m' : Machine}
      (hframes : m.frames = f :: outer) (hslot : ∀ s ∈ slot, s = f.slot)
      (hcount : CountsLoop m f value m') (hgoes : f.continues value = true) :
      Effect m (.next slot) (.ok .jump { m' with pc := f.forIndex + 1 })
  | closeLoop {slot : Option Nat} {f : Frame} {outer : List Frame} {value : Float} {m' : Machine}
      (hframes : m.frames = f :: outer) (hslot : ∀ s ∈ slot, s = f.slot)
      (hcount : CountsLoop m f value m') (hends : f.continues value = false) :
      Effect m (.next slot) (.ok .next { m' with frames := outer })
  | noLoop {slot : Option Nat} (hframes : m.frames = []) :
      Effect m (.next slot) (.error (.complaint .nextWithoutFor) m)
  | otherLoop {s : Nat} {f : Frame} {outer : List Frame} (hframes : m.frames = f :: outer)
      (hslot : s ≠ f.slot) :
      Effect m (.next (some s)) (.error (.complaint (.nextMismatch s f.slot)) m)
  | printText {text : String} : Effect m (.printText text) (.ok .next (m.note (.printed text)))
  | printNothing : Effect m (.print none) (.ok .next (m.note (.printed (Number.shown 0.0))))
  | print {value : Expr} {reports : List Complaint} {x : Float}
      (hvalue : value.eval m.memory = ⟨reports, .ok x⟩) :
      Effect m (.print (some value))
        (.ok .next ((m.after reports m.memory).note (.printed (Number.shown x))))
  | goto {n : Int} {i : Nat} (hline : m.listing.indexOf? n = some i) :
      Effect m (.goto n) (.ok .jump { m with pc := i })
  | gotoFails {n : Int} {failure : Failure} (hline : m.listing.indexOf? n = none)
      (hraised : (Complaint.noSuchLine .GOTO n).raised = failure) :
      Effect m (.goto n) (.error failure m)
  | ifGoesOn {cond : Cond} {line : Option Int} {reports : List Complaint} {holds : Bool}
      (hcond : cond.eval m.memory = ⟨reports, .ok holds⟩) (h : line = none ∨ holds = false) :
      Effect m (.ifThen cond line) (.ok .next (m.after reports m.memory))
  | thenJumps {cond : Cond} {n : Int} {reports : List Complaint} {i : Nat}
      (hcond : cond.eval m.memory = ⟨reports, .ok true⟩)
      (hline : m.listing.indexOf? n = some i) :
      Effect m (.ifThen cond (some n)) (.ok .jump { m.after reports m.memory with pc := i })
  | thenFails {cond : Cond} {n : Int} {reports : List Complaint} {failure : Failure}
      (hcond : cond.eval m.memory = ⟨reports, .ok true⟩) (hline : m.listing.indexOf? n = none)
      (hraised : (Complaint.noSuchLine .THEN n).raised = failure) :
      Effect m (.ifThen cond (some n)) (.error failure (m.after reports m.memory))
  | stop : Effect m .stop (.ok .halt m)

/-! ## Execution follows the rules -/

section Rules

variable {m : Machine}

theorem Reading.Succeeds.eq {α : Type} {x : Reading α} (h : x.Succeeds) :
    ∃ reports a, x = ⟨reports, .ok a⟩ := by
  obtain ⟨a, ha⟩ := h
  exact ⟨x.reports, a, by rw [← ha]⟩

theorem assign_effect {target : Target} {value : Expr} (htarget : target.WellFormed)
    (hvalue : value.WellFormed) :
    Effect m (.assign target value) (Action.exec (.assign target value) m) := by
  obtain ⟨rs', x, hx⟩ := (Expr.eval_succeeds m.memory hvalue).eq
  -- Readings never change the memory, so the value is the same behind a subscript.
  cases target with
  | scalar slot =>
      obtain ⟨memory, hmemory⟩ := Memory.write_eq_ok (m := m.memory) htarget x
      have hassign : Action.assign (.scalar slot) value m = .ok () (m.after rs' memory) := by
        rw [Action.assign, Action.bind_of_ok (Action.take_of_ok hx),
          Action.changeOrFail_of_ok (by simpa using hmemory)]
        simp
      rw [Action.exec, Action.bind_of_ok hassign]
      exact .assign hx hmemory
  | element letter index =>
      obtain ⟨rs, i, hi⟩ := (Expr.eval_succeeds m.memory htarget.2).eq
      have hassign : Action.assign (.element letter index) value m =
          Action.change (·.writeElement letter i x) (m.after (rs ++ rs') m.memory) := by
        rw [Action.assign, Action.bind_of_ok (Action.take_of_ok hi),
          Action.bind_of_ok (Action.take_of_ok (by simpa using hx))]
        simp
      cases hwrite : m.memory.writeElement letter i x with
      | ok memory =>
          rw [Action.change_of_ok (by simpa using hwrite), Machine.after_after,
            List.append_nil] at hassign
          rw [Action.exec, Action.bind_of_ok hassign]
          exact .assignElement hi hx hwrite
      | error failure =>
          rw [Action.change_of_error (by simpa using hwrite)] at hassign
          rw [Action.exec, Action.bind_of_error hassign]
          exact .assignFails hi hx hwrite

theorem declareAll_declares {items : List (Nat × Expr)} (h : ∀ item ∈ items, item.2.WellFormed) :
    Declares m items (Action.declareAll items m) := by
  -- The machine varies: a bound is read in the memory that the items before it left.
  induction items generalizing m with
  | nil => exact .nil
  | cons item rest ih =>
      obtain ⟨letter, bound⟩ := item
      simp only [List.mem_cons, forall_eq_or_imp] at h
      obtain ⟨reports, x, hx⟩ := (Expr.eval_succeeds m.memory h.1).eq
      rw [Action.declareAll, Action.bind_of_ok (Action.take_of_ok hx)]
      cases hdeclare : m.memory.declare letter x with
      | ok memory =>
          rw [Action.bind_of_ok (Action.changeOrFail_of_ok (by simpa using hdeclare))]
          simpa using Declares.cons hx hdeclare (ih h.2)
      | error fault =>
          rw [Action.bind_of_error (Action.changeOrFail_of_error (by simpa using hdeclare))]
          exact .fail hx hdeclare

theorem dim_effect {items : List (Nat × Expr)} (h : ∀ item ∈ items, item.2.WellFormed) :
    Effect m (.dim items) (Action.exec (.dim items) m) := by
  have hdeclares := declareAll_declares (m := m) h
  rw [Action.exec]
  cases hrun : Action.declareAll items m with
  | ok a m' =>
      rw [Action.bind_of_ok hrun]
      exact .dim (hrun ▸ hdeclares)
  | error failure m' =>
      rw [Action.bind_of_error hrun]
      exact .dimFails (hrun ▸ hdeclares)

theorem readStep_succeeds {step : Option Expr} (h : ∀ s ∈ step, s.WellFormed) (memory : Memory) :
    (readStep memory step).Succeeds := by
  cases step with
  | none => exact .pure _
  | some e => exact (Expr.eval_succeeds memory (h e rfl)).bind fun x => .pure _

theorem stepOf_of_readStep {step : Option Expr} {reports : List Complaint} {stride : Float}
    (hstep : ∀ s ∈ step, s.WellFormed) (h : readStep m.memory step = ⟨reports, .ok stride⟩) :
    Action.stepOf step m = .ok stride (m.after reports m.memory) := by
  cases step with
  | none =>
      obtain ⟨rfl, hstride⟩ := Reading.mk.inj h
      obtain rfl := Except.ok.inj hstride
      rw [Machine.after_nil_self]
      -- The default is not zero, but either way the step is one.
      exact congrArg (EStateM.Result.ok · m) (ite_self _)
  | some e =>
      obtain ⟨rs, x, hx⟩ := (Expr.eval_succeeds m.memory (hstep e rfl)).eq
      have hread : readStep m.memory (some e) = ⟨rs, .ok (if x == 0.0 then 1.0 else x)⟩ := by
        simp [readStep, Reading.bind_eq, Reading.bind, hx]
      obtain ⟨rfl, hstride⟩ := Reading.mk.inj (hread.symm.trans h)
      obtain rfl := Except.ok.inj hstride
      rw [Action.stepOf, Action.bind_of_ok (Action.take_of_ok hx)]
      rfl

theorem forTo_effect {slot : Nat} {start limit : Expr} {step : Option Expr}
    (hslot : slot < slotCount) (hstart : start.WellFormed) (hlimit : limit.WellFormed)
    (hstep : ∀ s ∈ step, s.WellFormed) :
    Effect m (.forTo slot start limit step) (Action.exec (.forTo slot start limit step) m) := by
  obtain ⟨rs, first, hfirst⟩ := (Expr.eval_succeeds m.memory hstart).eq
  obtain ⟨rs', last, hlast⟩ := (Expr.eval_succeeds m.memory hlimit).eq
  obtain ⟨rs'', stride, hstride⟩ := (readStep_succeeds hstep m.memory).eq
  obtain ⟨memory, hwrite⟩ := Memory.write_eq_ok (m := m.memory) hslot first
  have henter := EntersLoop.intro (m := m) hfirst hlast hstride hwrite
  -- The three readings and the write succeed; what is left is the choice behind them.
  rw [Action.exec, Action.openLoop, Action.bind_of_ok (Action.take_of_ok hfirst),
    Action.bind_of_ok (Action.take_of_ok (by simpa using hlast)),
    Action.bind_of_ok (stepOf_of_readStep hstep (by simpa using hstride)),
    Action.bind_of_ok (Action.changeOrFail_of_ok (by simpa using hwrite)),
    Action.bind_of_ok Action.get_eq_ok]
  simp only [Machine.after_memory, Machine.after_after, Machine.after_listing, Machine.after_pc,
    Machine.after_maxDepth, Machine.after_frames, List.append_nil]
  by_cases hskips : skipsLoop first last stride = true
  · rw [if_pos hskips]
    cases hnext : m.listing.matchingNext? (m.pc + 1) with
    | some i => exact .skipLoop henter hskips hnext
    | none => exact .skipFails henter hskips hnext
  · have hruns : skipsLoop first last stride = false := Bool.eq_false_iff.mpr hskips
    rw [if_neg hskips]
    by_cases hfull : m.maxDepth ≤ m.frames.length
    · rw [if_pos hfull]
      exact .loopTooDeep henter hruns hfull
    · rw [if_neg hfull]
      exact .openLoop henter hruns (Int.not_le.mp hfull)

theorem next_effect {slot : Option Nat} (hframes : ∀ f ∈ m.frames, f.slot < slotCount) :
    Effect m (.next slot) (Action.exec (.next slot) m) := by
  rw [Action.exec, Action.closeLoop, Action.bind_of_ok Action.get_eq_ok]
  cases hf : m.frames with
  | nil => exact .noLoop hf
  | cons f outer =>
      by_cases hother : slot.any (· ≠ f.slot) = true
      · simp only [if_pos hother]
        cases slot with
        | none => simp at hother
        | some s => exact .otherLoop hf (by simpa using hother)
      · have hslot : ∀ s ∈ slot, s = f.slot := by
          rintro s rfl
          simpa using hother
        -- The variable is there, so only the new value decides.
        have hlt : f.slot < slotCount := hframes f (by simp [hf])
        obtain ⟨old, hread⟩ := Memory.read_eq_ok (m := m.memory) hlt
        obtain ⟨memory, hwrite⟩ := Memory.write_eq_ok (m := m.memory) hlt (old + f.step)
        have htake : Reading.ofExcept (m.memory.read f.slot) = ⟨[], .ok old⟩ := by
          rw [hread, Reading.ofExcept]
        have hcount := CountsLoop.intro hread hwrite
        simp only [if_neg hother]
        rw [Action.bind_of_ok (Action.take_of_ok htake), Machine.after_nil_self,
          Action.bind_of_ok (Action.changeOrFail_of_ok hwrite)]
        by_cases hgoes : f.continues (old + f.step) = true
        · rw [if_pos hgoes]
          exact .repeatLoop hf hslot hcount hgoes
        · rw [if_neg hgoes]
          exact .closeLoop hf hslot hcount (Bool.eq_false_iff.mpr hgoes)

theorem print_effect {value : Option Expr} (h : ∀ v ∈ value, v.WellFormed) :
    Effect m (.print value) (Action.exec (.print value) m) := by
  cases value with
  | none => exact .printNothing
  | some e =>
      obtain ⟨reports, x, hx⟩ := (Expr.eval_succeeds m.memory (h e rfl)).eq
      rw [Action.exec]
      simp only []
      rw [Action.bind_of_ok (Action.take_of_ok hx)]
      exact .print hx

theorem goTo_eq (jump : Jump) (n : Int) :
    Action.goTo jump n m =
      match m.listing.indexOf? n with
      | some i => .ok .jump { m with pc := i }
      | none => .error (Complaint.noSuchLine jump n).raised m := by
  rw [Action.goTo, Action.bind_of_ok Action.get_eq_ok]
  cases m.listing.indexOf? n with
  | some i => rfl
  | none => rfl

theorem goto_effect (n : Int) : Effect m (.goto n) (Action.exec (.goto n) m) := by
  rw [Action.exec, goTo_eq]
  cases hline : m.listing.indexOf? n with
  | some i => exact .goto hline
  | none => exact .gotoFails hline rfl

theorem ifThen_effect {cond : Cond} (line : Option Int) (h : cond.WellFormed) :
    Effect m (.ifThen cond line) (Action.exec (.ifThen cond line) m) := by
  obtain ⟨reports, holds, hcond⟩ := (Cond.eval_succeeds m.memory h).eq
  rw [Action.exec, Action.bind_of_ok (Action.take_of_ok hcond)]
  cases line with
  | none => exact .ifGoesOn hcond (Or.inl rfl)
  | some n =>
      cases holds with
      | false => exact .ifGoesOn hcond (Or.inr rfl)
      | true =>
          simp only [goTo_eq, Machine.after_listing]
          cases hline : m.listing.indexOf? n with
          | some i => exact .thenJumps hcond hline
          | none => exact .thenFails hcond hline rfl

/-- A well-formed statement does what one of the rules says, as long as the open loops count
    variables that there are. -/
theorem exec_effect {stmt : Stmt} (hstmt : stmt.WellFormed)
    (hframes : ∀ f ∈ m.frames, f.slot < slotCount) : Effect m stmt (Action.exec stmt m) := by
  cases stmt with
  | assign target value => exact assign_effect hstmt.1 hstmt.2
  | dim items => exact dim_effect fun item hitem => (hstmt.2 item hitem).2
  | forTo slot start limit step =>
      obtain ⟨hslot, hstart, hlimit, hstep⟩ := hstmt
      exact forTo_effect hslot hstart hlimit hstep
  | next slot => exact next_effect hframes
  | printText text => exact .printText
  | print value => exact print_effect hstmt
  | goto line => exact goto_effect line
  | ifThen cond line => exact ifThen_effect line hstmt.1
  | stop => exact .stop
  | unknown => exact hstmt.elim

end Rules

end LineBasic
