/-
  LineBasic.Proofs.Machine.Guise

  One run in two guises. Executing a statement looks into the listing in two places only: for the
  line with a number, and for the `NEXT` of a loop that it skips. So two machines that differ in the
  listing, in how its lines are numbered and in what happened before stay in step, as long as these
  look-ups find the same places and the lines at hand are the same.

  `Mirrors` says of two actions that they do the same in two guises. It holds of the parts of every
  statement and is kept by executing one part after the other; from it follow a line (`step_eq`) and
  a run (`steps_eq`). A complaint is written with the line numbers of its guise. Where one has
  become too long to be written, a fault takes the place of the complaint, and `Guise.step` says so.
-/
import LineBasic.Proofs.Machine.Control
import LineBasic.Proofs.Stmt.RoundTrip

namespace LineBasic

/-! ## Other line numbers -/

/-- The complaint with line numbers changed; only one complaint names a line. -/
def Complaint.renumber (f : Int → Int) : Complaint → Complaint
  | .noSuchLine jump line => .noSuchLine jump (f line)
  | c => c

/-- The failure with line numbers changed. A complaint is raised anew, since the line that it names
    may have become too long to be written. -/
def Failure.renumber (f : Int → Int) : Failure → Failure
  | .complaint c => (c.renumber f).raised
  | .fault cause => .fault cause

/-- The event with the line numbers of a run changed. -/
def Event.renumber (f : Int → Int) : Event → Event
  | .runHalted line c => .runHalted (f line) (c.renumber f)
  | e => e

def Outcome.renumber (f : Int → Int) : Outcome → Outcome
  | .ended line => .ended (f line)
  | .passedEnd => .passedEnd
  | .halted line c => .halted (f line) (c.renumber f)

/-- Whether the numbers in how a run ended can be written. -/
def Outcome.isWritable : Outcome → Bool
  | .halted line c => Text.isWritable line && c.isWritable
  | _ => true

/-- Only a complaint brings in a number that has to be written. -/
theorem Outcome.eq_halted_of_not_isWritable {f : Int → Int} {outcome : Outcome}
    (h : (outcome.renumber f).isWritable = false) : ∃ line c, outcome = .halted line c := by
  cases outcome with
  | halted line c => exact ⟨line, c, rfl⟩
  | _ => cases h

/-- The statement with the lines that it refers to changed. -/
def Stmt.renumber (f : Int → Int) : Stmt → Stmt
  | .goto line => .goto (f line)
  | .ifThen cond line => .ifThen cond (line.map f)
  | stmt => stmt

/-- The line with its number and the lines that it refers to changed; text and kind stay. -/
def Line.renumber (f : Int → Int) (line : Line) : Line :=
  { line with number := f line.number, content := line.content.map (Stmt.renumber f) }

section Identity

@[simp] theorem Complaint.renumber_id (c : Complaint) : c.renumber id = c := by
  cases c with
  | _ => rfl

@[simp] theorem Event.renumber_id : Event.renumber id = id := by
  funext e
  cases e with
  | runHalted line c => rw [renumber, Complaint.renumber_id, id, id]
  | _ => rfl

@[simp] theorem Outcome.renumber_id : Outcome.renumber id = id := by
  funext o
  cases o with
  | halted line c => rw [renumber, Complaint.renumber_id, id, id]
  | _ => rfl

@[simp] theorem Stmt.renumber_id (stmt : Stmt) : stmt.renumber id = stmt := by
  cases stmt with
  | ifThen cond line => rw [renumber, Option.map_id, id]
  | _ => rfl

@[simp] theorem Line.renumber_id : Line.renumber id = id := by
  funext line
  have hcontent : line.content.map (Stmt.renumber id) = line.content := by
    cases line.content with
    | ok stmt => simp only [Except.map, Stmt.renumber_id]
    | error e => rfl
  rw [renumber, hcontent]
  rfl

end Identity

/-- The output does not show line numbers. -/
@[simp] theorem Event.out_renumber (f : Int → Int) (e : Event) : (e.renumber f).out = e.out := by
  cases e with
  | _ => rfl

/-- A complaint that cannot be raised as it is cannot be raised with longer numbers either. -/
theorem Complaint.renumber_raised {f : Int → Int}
    (hf : ∀ n, Text.isWritable n = false → Text.isWritable (f n) = false) (c : Complaint) :
    c.raised.renumber f = (c.renumber f).raised := by
  cases hc : c.isWritable with
  | true => rw [raised_of_isWritable hc, Failure.renumber]
  | false =>
      have hlong : (c.renumber f).isWritable = false := by
        cases c with
        | noSuchLine jump line => exact hf line hc
        | listingFull capacity line => exact hc
        | _ => cases hc
      rw [raised_of_not_isWritable hc, raised_of_not_isWritable hlong, Failure.renumber]

/-! ## Guises -/

namespace Machine

/-- The machine before the last event of its log. -/
def unnote (m : Machine) : Machine :=
  { m with log := m.log.pop }

@[simp] theorem unnote_note (m : Machine) (event : Event) : (m.note event).unnote = m := by
  simp [unnote, note]

end Machine

/-- Another listing for a machine, how its lines are numbered there, and what happened before. -/
structure Guise where
  listing : Listing
  number : Int → Int
  earlier : Array Event

namespace Guise

variable (g : Guise)

/-- The machine in its guise. -/
def machine (m : Machine) : Machine :=
  { m with listing := g.listing, log := g.earlier ++ m.log.map (Event.renumber g.number) }

def result {α : Type} : EStateM.Result Failure Machine α → EStateM.Result Failure Machine α
  | .ok a m => .ok a (g.machine m)
  | .error failure m => .error (failure.renumber g.number) (g.machine m)

/-- The point of the run in its guise. The report of a complaint may have numbers in the guise that
    cannot be written; then the run breaks off before it. -/
def step : Step → Step
  | .running m => .running (g.machine m)
  | .finished m outcome =>
    if (outcome.renumber g.number).isWritable then
      .finished (g.machine m) (outcome.renumber g.number)
    else .faulted (g.machine m.unnote) .unwritable
  | .faulted m fault => .faulted (g.machine m) fault

/-- What a statement looks for in the listing is found in the same places, and no line number
    becomes short enough to be written that was not. -/
structure Fits (l : Listing) : Prop where
  indexOf?_eq : ∀ n : Int, 0 ≤ n → g.listing.indexOf? (g.number n) = l.indexOf? n
  matchingNext?_eq : ∀ start, g.listing.matchingNext? start = l.matchingNext? start
  unwritable : ∀ n : Int, Text.isWritable n = false → Text.isWritable (g.number n) = false

variable (m : Machine)

@[simp] theorem machine_listing : (g.machine m).listing = g.listing := rfl

@[simp] theorem machine_memory : (g.machine m).memory = m.memory := rfl

@[simp] theorem machine_frames : (g.machine m).frames = m.frames := rfl

@[simp] theorem machine_pc : (g.machine m).pc = m.pc := rfl

@[simp] theorem machine_maxDepth : (g.machine m).maxDepth = m.maxDepth := rfl

@[simp] theorem machine_log :
    (g.machine m).log = g.earlier ++ m.log.map (Event.renumber g.number) := rfl

theorem machine_note (e : Event) :
    g.machine (m.note e) = (g.machine m).note (e.renumber g.number) := by
  simp only [machine, Machine.note, Array.map_push, Array.append_push]

theorem machine_after (reports : List Complaint) (memory : Memory) :
    g.machine (m.after reports memory) = (g.machine m).after reports memory := by
  have hlog : g.earlier ++ (m.log ++ reports.map Event.softRead).map (Event.renumber g.number) =
      g.earlier ++ m.log.map (Event.renumber g.number) ++ reports.map Event.softRead := by
    apply Array.toList_inj.mp
    simp [Event.renumber]
  simp only [machine, Machine.after, hlog]

end Guise

/-! ## Actions that do the same -/

/-- Started in the guise of a machine with the listing, the second action does what the first does
    to the machine, and the first leaves the listing alone. -/
def Mirrors (g : Guise) (l : Listing) {α : Type} (x x' : Action α) : Prop :=
  ∀ m : Machine, m.listing = l →
    x' (g.machine m) = g.result (x m) ∧ (machineAfter (x m)).listing = l

/-- An element that cannot be written is complained of without a line number. -/
theorem Memory.renumber_of_writeElement {f : Int → Int} {m : Memory} {letter : Nat} {x v : Float}
    {failure : Failure} (h : m.writeElement letter x v = .error failure) :
    failure.renumber f = failure := by
  unfold writeElement at h
  cases hlocate : m.locate letter x with
  | ok place =>
      rw [hlocate] at h
      cases h
  | error e =>
      rw [hlocate] at h
      obtain rfl := Except.error.inj h
      unfold locate at hlocate
      split at hlocate
      · obtain rfl := Except.error.inj hlocate
        rfl
      · obtain rfl := Except.error.inj hlocate
        rfl
      · split at hlocate
        · cases hlocate
        · obtain rfl := Except.error.inj hlocate
          rfl

namespace Mirrors

variable {g : Guise} {l : Listing} {α β : Type}

theorem pure (a : α) : Mirrors g l (pure a) (pure a) :=
  fun _ hm => ⟨rfl, hm⟩

theorem bind {x x' : Action α} {f f' : α → Action β} (hx : Mirrors g l x x')
    (hf : ∀ a, Mirrors g l (f a) (f' a)) : Mirrors g l (x >>= f) (x' >>= f') := by
  intro m hm
  obtain ⟨hsame, hlisting⟩ := hx m hm
  cases hresult : x m with
  | ok a m₁ =>
      rw [hresult] at hsame hlisting
      rw [Action.bind_of_ok hresult, Action.bind_of_ok hsame]
      exact hf a m₁ hlisting
  | error failure m₁ =>
      rw [hresult] at hsame hlisting
      rw [Action.bind_of_error hresult, Action.bind_of_error hsame]
      exact ⟨rfl, hlisting⟩

/-- Actions that depend on the machine. -/
theorem get {f f' : Machine → Action β}
    (hf : ∀ m, m.listing = l → Mirrors g l (f m) (f' (g.machine m))) :
    Mirrors g l (get >>= f) (get >>= f') := by
  intro m hm
  rw [Action.bind_of_ok Action.get_eq_ok, Action.bind_of_ok Action.get_eq_ok]
  exact hf m hm m hm

theorem modify {f f' : Machine → Machine} (hsame : ∀ m, f' (g.machine m) = g.machine (f m))
    (hlisting : ∀ m, (f m).listing = m.listing) : Mirrors g l (modify f) (modify f') := by
  intro m hm
  refine ⟨?_, (hlisting m).trans hm⟩
  show EStateM.Result.ok PUnit.unit (f' (g.machine m)) = .ok PUnit.unit (g.machine (f m))
  rw [hsame]

theorem ite {p p' : Prop} [Decidable p] [Decidable p'] {x x' y y' : Action α} (hp : p' ↔ p)
    (hx : Mirrors g l x x') (hy : Mirrors g l y y') :
    Mirrors g l (if p then x else y) (if p' then x' else y') := by
  by_cases h : p
  · rw [if_pos h, if_pos (hp.mpr h)]
    exact hx
  · rw [if_neg h, if_neg (mt hp.mp h)]
    exact hy

/-- A complaint that names no line. -/
theorem complain {c : Complaint} (hc : c.raised.renumber g.number = c.raised) :
    Mirrors g l (Action.complain (α := α) c) (Action.complain c) := by
  intro m hm
  refine ⟨?_, hm⟩
  show EStateM.Result.error c.raised (g.machine m) = g.result (.error c.raised m)
  rw [Guise.result, hc]

theorem fail (fault : Fault) : Mirrors g l (Action.fail (α := α) fault) (Action.fail fault) :=
  fun _ hm => ⟨rfl, hm⟩

theorem note {e : Event} (he : e.renumber g.number = e) :
    Mirrors g l (Action.note e) (Action.note e) := by
  apply Mirrors.modify
  · intro m
    rw [g.machine_note, he]
  · exact fun _ => rfl

theorem take (read : Memory → Reading α) : Mirrors g l (Action.take read) (Action.take read) := by
  intro m hm
  rcases hread : read m.memory with ⟨reports, fault | a⟩
  · rw [Action.take_of_error hread, Action.take_of_error (m := g.machine m) hread]
    refine ⟨?_, hm⟩
    rw [Guise.result, g.machine_after]
    rfl
  · rw [Action.take_of_ok hread, Action.take_of_ok (m := g.machine m) hread]
    refine ⟨?_, hm⟩
    rw [Guise.result, g.machine_after]
    rfl

/-- A change of memory fails, if at all, without naming a line. -/
theorem change {f : Memory → Except Failure Memory}
    (hf : ∀ memory failure, f memory = .error failure → failure.renumber g.number = failure) :
    Mirrors g l (Action.change f) (Action.change f) := by
  intro m hm
  cases hchange : f m.memory with
  | ok memory =>
      rw [Action.change_of_ok hchange, Action.change_of_ok (m := g.machine m) hchange]
      refine ⟨?_, hm⟩
      rw [Guise.result, g.machine_after]
  | error failure =>
      rw [Action.change_of_error hchange, Action.change_of_error (m := g.machine m) hchange]
      refine ⟨?_, hm⟩
      rw [Guise.result, hf m.memory failure hchange]

theorem changeOrFail (f : Memory → Except Fault Memory) :
    Mirrors g l (Action.changeOrFail f) (Action.changeOrFail f) := by
  apply change
  intro memory failure h
  cases hf : f memory with
  | ok _ =>
      rw [hf] at h
      cases h
  | error fault =>
      rw [hf] at h
      obtain rfl := Except.error.inj h
      rfl

/-! ## Statements -/

variable (hg : g.Fits l)
include hg

theorem goTo (jump : Jump) {n : Int} (hn : 0 ≤ n) :
    Mirrors g l (Action.goTo jump n) (Action.goTo jump (g.number n)) := by
  intro m hm
  have hindex : (g.machine m).listing.indexOf? (g.number n) = m.listing.indexOf? n := by
    rw [g.machine_listing, hm]
    exact hg.indexOf?_eq n hn
  rw [goTo_eq, goTo_eq, hindex]
  cases m.listing.indexOf? n with
  | some i => exact ⟨rfl, hm⟩
  | none =>
      refine ⟨?_, hm⟩
      rw [Guise.result, Complaint.renumber_raised hg.unwritable, Complaint.renumber]

omit hg in
theorem stepOf (step : Option Expr) : Mirrors g l (Action.stepOf step) (Action.stepOf step) := by
  cases step with
  | none => exact .pure _
  | some e => exact .bind (.take _) fun _ => .pure _

theorem openLoop (slot : Nat) (start limit : Expr) (step : Option Expr) :
    Mirrors g l (Action.openLoop slot start limit step)
      (Action.openLoop slot start limit step) := by
  refine .bind (.take _) fun first => .bind (.take _) fun last => .bind (.stepOf step) fun stride =>
    .bind (.changeOrFail _) fun _ => .get fun m hm => .ite Iff.rfl ?_ (.ite Iff.rfl ?_ ?_)
  · have hnext : (g.machine m).listing.matchingNext? ((g.machine m).pc + 1) =
        m.listing.matchingNext? (m.pc + 1) := by
      rw [g.machine_listing, g.machine_pc, hm]
      exact hg.matchingNext?_eq _
    rw [hnext]
    cases m.listing.matchingNext? (m.pc + 1) with
    | some i => exact .bind (.modify (fun _ => rfl) fun _ => rfl) fun _ => .pure _
    | none => exact .complain rfl
  · exact .complain rfl
  · exact .bind (.modify (fun _ => rfl) fun _ => rfl) fun _ => .pure _

omit hg in
theorem closeLoop (slot : Option Nat) :
    Mirrors g l (Action.closeLoop slot) (Action.closeLoop slot) := by
  refine .get fun m hm => ?_
  simp only [g.machine_frames]
  cases m.frames with
  | nil => exact .complain rfl
  | cons f outer =>
      refine .ite Iff.rfl (.complain rfl) (.bind (.take _) fun old =>
        .bind (.changeOrFail _) fun _ => .ite Iff.rfl ?_ ?_)
      · exact .bind (.modify (fun _ => rfl) fun _ => rfl) fun _ => .pure _
      · exact .bind (.modify (fun _ => rfl) fun _ => rfl) fun _ => .pure _

omit hg in
theorem assign (target : Target) (value : Expr) :
    Mirrors g l (Action.assign target value) (Action.assign target value) := by
  cases target with
  | scalar slot => exact .bind (.take _) fun x => .changeOrFail _
  | element letter index =>
      exact .bind (.take _) fun i => .bind (.take _) fun x =>
        .change fun _ _ => Memory.renumber_of_writeElement

omit hg in
theorem declareAll (items : List (Nat × Expr)) :
    Mirrors g l (Action.declareAll items) (Action.declareAll items) := by
  induction items with
  | nil => exact .pure _
  | cons item rest ih => exact .bind (.take _) fun x => .bind (.changeOrFail _) fun _ => ih

theorem exec {stmt : Stmt} (hstmt : ∀ n ∈ stmt.targets, 0 ≤ n) :
    Mirrors g l (Action.exec stmt) (Action.exec (stmt.renumber g.number)) := by
  cases stmt with
  | assign target value => exact .bind (.assign target value) fun _ => .pure _
  | dim items => exact .bind (.declareAll items) fun _ => .pure _
  | forTo slot start limit step => exact .openLoop hg slot start limit step
  | next slot => exact .closeLoop slot
  | printText text => exact .bind (.note rfl) fun _ => .pure _
  | print value =>
      cases value with
      | none => exact .bind (.pure _) fun x => .bind (.note rfl) fun _ => .pure _
      | some e => exact .bind (.take _) fun x => .bind (.note rfl) fun _ => .pure _
  | goto n => exact .goTo hg _ (hstmt n (List.mem_singleton_self n))
  | ifThen cond line =>
      refine .bind (.take _) fun holds => ?_
      cases line with
      | none => exact .pure _
      | some n =>
          cases holds with
          | false => exact .pure _
          | true => exact .goTo hg _ (hstmt n (List.mem_singleton_self n))
  | stop => exact .pure _
  | unknown => exact .fail _

theorem execLine {line : Line}
    (hline : ∀ stmt, line.content = .ok stmt → ∀ n ∈ stmt.targets, 0 ≤ n) :
    Mirrors g l (Action.execLine line) (Action.execLine (line.renumber g.number)) := by
  unfold Action.execLine Line.renumber
  cases hcontent : line.content with
  | ok stmt => exact .exec hg (hline stmt hcontent)
  | error e => exact .complain rfl

end Mirrors

/-! ## Lines and runs -/

/-- Executing a line that complains ends the run, with a report if its numbers can be written. -/
theorem Step.ofResult_raised (number : Int) (c : Complaint) (m : Machine) :
    ofResult number (.error c.raised m) =
      if (Outcome.halted number c).isWritable then
        .finished (m.note (.runHalted number c)) (.halted number c)
      else .faulted m .unwritable := by
  cases hc : c.isWritable with
  | true =>
      rw [Complaint.raised_of_isWritable hc, ofResult, Machine.halt, Outcome.isWritable, hc,
        Bool.and_true]
  | false =>
      rw [Complaint.raised_of_not_isWritable hc, ofResult, Outcome.isWritable, hc, Bool.and_false,
        if_neg Bool.false_ne_true]

namespace Guise

variable {g : Guise} {l : Listing} {m : Machine}

/-- A run that is over is so in the guise, reported or not. -/
theorem step_ne_running {s : Step} (h : ∀ m, s ≠ .running m) (m : Machine) :
    g.step s ≠ .running m := by
  cases s with
  | running m' => exact absurd rfl (h m')
  | finished m' outcome =>
      rw [step]
      split
      · simp
      · simp
  | faulted m' fault => simp [step]

/-- A complaint ends the run in the guise as well: reported as the guise numbers lines, or not. -/
theorem step_halt (hnumber : ∀ n, Text.isWritable n = false → Text.isWritable (g.number n) = false)
    (number : Int) (c : Complaint) (m : Machine) :
    g.step (m.halt number c) =
      Step.ofResult (g.number number) (.error (c.renumber g.number).raised (g.machine m)) := by
  rw [Step.ofResult_raised]
  rcases m.halt_cases number c with ⟨-, hhalt⟩ | ⟨hlong, hhalt⟩
  · -- The note of the report is taken back, and made once more with the numbers of the guise.
    rw [hhalt, step, g.machine_note, Machine.unnote_note]
    rfl
  · have hlong' : (Outcome.halted (g.number number) (c.renumber g.number)).isWritable = false := by
      rw [Outcome.isWritable, hnumber number hlong, Bool.false_and]
    rw [hhalt, if_neg (Bool.eq_false_iff.mp hlong'), step]

theorem step_ofResult
    (hnumber : ∀ n, Text.isWritable n = false → Text.isWritable (g.number n) = false) (number : Int)
    (r : EStateM.Result Failure Machine Flow) :
    g.step (Step.ofResult number r) = Step.ofResult (g.number number) (g.result r) := by
  rcases r with ⟨_ | _ | _, m⟩ | ⟨c | fault, m⟩
  · rfl
  · rfl
  · rfl
  · exact step_halt hnumber number c m
  · rfl

/-- The line at hand is the same in both guises. -/
def AgreesAt (g : Guise) (l : Listing) (i : Nat) : Prop :=
  g.listing.lines[i]? = l.lines[i]?.map (Line.renumber g.number)

variable (hg : g.Fits l)
  (htargets : ∀ line ∈ l.lines, ∀ stmt, line.content = .ok stmt → ∀ n ∈ stmt.targets, 0 ≤ n)
include hg htargets

/-- A line that is the same in both guises does the same, and keeps the listing. -/
theorem step_eq (hm : m.listing = l) (hagrees : g.AgreesAt l m.pc) :
    (g.machine m).step = g.step m.step ∧ m.step.machine.listing = l := by
  unfold AgreesAt at hagrees
  cases hline : l.lines[m.pc]? with
  | none =>
      rw [hline] at hagrees
      rw [Machine.step_of_end (m := m) (by rw [hm]; exact hline),
        Machine.step_of_end (m := g.machine m) hagrees]
      exact ⟨rfl, hm⟩
  | some line =>
      rw [hline] at hagrees
      obtain ⟨hsame, hlisting⟩ :=
        Mirrors.execLine hg (htargets line (List.mem_of_getElem? hline)) m hm
      rw [Machine.step_of_line (m := m) (by rw [hm]; exact hline),
        Machine.step_of_line (m := g.machine m) hagrees]
      refine ⟨?_, ?_⟩
      · rw [step_ofResult hg.unwritable, hsame]
        rfl
      · rw [Step.listing_ofResult, hlisting]

/-- Two guises stay in step as long as the lines that are executed are the same in both. -/
theorem steps_eq {n : Nat} (hm : m.listing = l)
    (hagrees : ∀ k m', m.steps k = .running m' → g.AgreesAt l m'.pc) :
    (g.machine m).steps n = g.step (m.steps n) := by
  induction n generalizing m with
  | zero => rfl
  | succ n ih =>
      obtain ⟨hstep, hlisting⟩ := step_eq hg htargets hm (hagrees 0 m rfl)
      -- A run that is over stays so, and then it is over in the guise as well.
      by_cases hover : ∀ m', m.step ≠ .running m'
      · have hover' : ∀ m', (g.machine m).step ≠ .running m' := hstep ▸ step_ne_running hover
        rw [Machine.steps_succ_of_step hover', hstep, Machine.steps_succ_of_step hover]
      · obtain ⟨m₁, hnext⟩ : ∃ m', m.step = .running m' := by simpa using hover
        rw [hnext] at hstep hlisting
        rw [Machine.steps, Machine.steps, hstep, hnext]
        refine ih hlisting fun k m' hk => hagrees (k + 1) m' ?_
        rw [Machine.steps, hnext]
        exact hk

end Guise

end LineBasic
