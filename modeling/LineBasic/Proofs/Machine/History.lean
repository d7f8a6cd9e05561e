/-
  LineBasic.Proofs.Machine.History

  What can happen to a machine between two runs: edits, loading and saving, what is typed at the
  console, statements executed on their own, and earlier runs, whether they ended, failed or were
  broken off from outside.

  Statements may be any at all here, also such as no text has. None of it brings a line into the
  listing other than by an edit, so that the listing of a machine with a history is one that edits
  lead to (`Reached.stored`).
-/
import LineBasic.Console.Session
import LineBasic.Proofs.Machine.Editing
import LineBasic.Proofs.Machine.Guise

namespace LineBasic

/-! ## Operations -/

/-- Something that happens to a machine. -/
inductive Operation where
  | edit (call : Call)
  | lock (locked : Bool)
  | exec (stmt : Stmt)
  | reset
  | run (fuel : Nat)
  /-- An exception from outside breaks a run off, maybe in the middle of a line; this is what it
      leaves of the variables and the loops, and the line it leaves. -/
  | abort (memory : Memory) (frames : List Frame) (pc : Nat)
  | command (command : Command)
  /-- A file is loaded from the console, of which reading it gave the contents. -/
  | loadFile (path : String) (contents : Except Fault (List UInt8))
  /-- A file is saved from the console, with what writing it gave. -/
  | saveFile (path : String) (written : Except Fault Unit)

namespace Machine

/-- The machine after an operation, whether it succeeded or not. -/
def afterOperation (m : Machine) : Operation → Machine
  | .edit call => machineAfter (call.action m)
  | .lock locked => { m with listing := { m.listing with locked } }
  | .exec stmt => machineAfter (Action.exec stmt m)
  | .reset => m.reset
  | .run fuel => machineAfter (Action.run fuel m)
  | .abort memory frames pc => { m.release with memory, frames, pc }
  | .command command => machineAfter (Action.perform command m)
  | .loadFile path contents => machineAfter (Action.tryLoad path contents m)
  | .saveFile path written => machineAfter (Action.trySaved path written m)

/-- A machine that some operations lead to, starting with a new one. -/
def Reached (m : Machine) : Prop :=
  ∃ (capacity maxDepth : Int) (operations : List Operation),
    m = operations.foldl afterOperation { listing := { capacity }, maxDepth }

end Machine

/-! ## Results of runs -/

/-- What a run answers that came to this point: nothing yet, how it ended, or a fault. -/
def Step.answer (s : Step) : Except Failure (Option Outcome) :=
  match s.ending? with
  | none => .ok none
  | some (.ok outcome) => .ok (some outcome)
  | some (.error fault) => .error (.fault fault)

/-- The machine that a run leaves that came to this point. -/
def Step.settled : Step → Machine
  | .running m => m
  | .finished m _ => m.release
  | .faulted m _ => m.release

theorem Step.settled_cases (s : Step) : s.settled = s.machine ∨ s.settled = s.machine.release := by
  cases s with
  | running m => exact Or.inl rfl
  | finished m outcome => exact Or.inr rfl
  | faulted m fault => exact Or.inr rfl

namespace Action

variable {m : Machine}

theorem run_of_idle (hidle : m.running = false) (fuel : Nat) :
    run fuel m = resultOf (m.start.steps fuel).settled (m.start.steps fuel).answer := by
  rw [run, bind_of_ok get_eq_ok, hidle, if_neg Bool.false_ne_true]
  cases m.start.steps fuel with
  | running m' => rfl
  | finished m' outcome => rfl
  | faulted m' fault => rfl

theorem run_of_running (hrunning : m.running = true) (fuel : Nat) :
    run fuel m = .error (.fault .alreadyRunning) m := by
  rw [run, bind_of_ok get_eq_ok, hrunning, if_pos rfl]
  rfl

end Action

theorem machineAfter_resultOf {α : Type} (m : Machine) (answer : Except Failure α) :
    machineAfter (resultOf m answer) = m := by
  cases answer with
  | ok a => rfl
  | error failure => rfl

/-! ## Statements leave the listing alone -/

theorem listing_goTo (jump : Jump) (n : Int) (m : Machine) :
    (machineAfter (Action.goTo jump n m)).listing = m.listing := by
  rw [goTo_eq]
  cases m.listing.indexOf? n with
  | some i => rfl
  | none => rfl

/-- No statement changes the listing, not even one that no text has. -/
theorem listing_exec (stmt : Stmt) (m : Machine) :
    (machineAfter (Action.exec stmt m)).listing = m.listing := by
  -- A statement without a line number does the same in the guise that changes nothing.
  let g : Guise := ⟨m.listing, id, #[]⟩
  have hg : g.Fits m.listing := ⟨fun _ _ => rfl, fun _ => rfl, fun _ h => h⟩
  cases stmt with
  | goto n => exact listing_goTo .GOTO n m
  | ifThen cond line =>
      rw [Action.exec]
      rcases hread : cond.eval m.memory with ⟨reports, fault | holds⟩
      · rw [Action.bind_of_error (Action.take_of_error hread)]
        rfl
      · rw [Action.bind_of_ok (Action.take_of_ok hread)]
        cases line with
        | none => rfl
        | some n =>
            cases holds with
            | false => rfl
            | true => exact listing_goTo .THEN n _
  | _ => exact (Mirrors.exec hg (by simp [Stmt.targets]) m rfl).2

/-! ## What keeps a listing stored -/

/-- Whatever comes of the action, a listing that edits led to is one still. -/
def KeepsStored {α : Type} (x : Action α) : Prop :=
  ∀ m : Machine, m.listing.Stored → (machineAfter (x m)).listing.Stored

namespace KeepsStored

variable {α β : Type} {x : Action α}

theorem of_listing_eq (h : ∀ m, (machineAfter (x m)).listing = m.listing) : KeepsStored x := by
  intro m hm
  rw [h m]
  exact hm

theorem pure (a : α) : KeepsStored (pure a) :=
  of_listing_eq fun _ => rfl

theorem throw (failure : Failure) : KeepsStored (throw failure : Action α) :=
  of_listing_eq fun _ => rfl

theorem note (event : Event) : KeepsStored (Action.note event) :=
  of_listing_eq fun _ => rfl

theorem bind {f : α → Action β} (hx : KeepsStored x) (hf : ∀ a, KeepsStored (f a)) :
    KeepsStored (x >>= f) := by
  intro m hm
  have hleft := hx m hm
  cases hresult : x m with
  | ok a m' =>
      rw [hresult] at hleft
      rw [Action.bind_of_ok hresult]
      exact hf a m' hleft
  | error failure m' =>
      rw [hresult] at hleft
      rw [Action.bind_of_error hresult]
      exact hleft

/-- What an action that failed has done stays done. -/
theorem tryCatch {f : Failure → Action α} (hx : KeepsStored x) (hf : ∀ e, KeepsStored (f e)) :
    KeepsStored (tryCatch x f) := by
  intro m hm
  have hleft := hx m hm
  simp only [tryCatchThe, MonadExcept.tryCatch, MonadExceptOf.tryCatch, EStateM.tryCatch]
  cases hresult : x m with
  | ok a m' =>
      rw [hresult] at hleft
      exact hleft
  | error failure m' =>
      rw [hresult] at hleft
      exact hf failure m' hleft

theorem edit {f : Listing → Except Failure Listing}
    (hf : ∀ {l l' : Listing}, l.Stored → f l = .ok l' → l'.Stored) :
    KeepsStored (Action.edit f) := by
  intro m hm
  cases hedit : f m.listing with
  | ok l =>
      rw [Action.edit_of_ok hedit]
      exact hf hm hedit
  | error failure =>
      rw [Action.edit_of_error hedit]
      exact hm

theorem enter (raw : List Char) : KeepsStored (Action.enter raw) := by
  intro m hm
  rcases Action.enter_cases raw m with ⟨entry, l, -, hl, henter⟩ | ⟨failure, henter⟩
  · rw [henter]
    exact hm.enter hl
  · rw [henter]
    exact hm

theorem list : KeepsStored Action.list := by
  refine of_listing_eq fun m => ?_
  rw [Action.list, Action.bind_of_ok Action.get_eq_ok]
  cases m.listing.dump with
  | ok text => rfl
  | error fault => rfl

theorem load (text : List Char) : KeepsStored (Action.load text) := by
  intro m hm
  have hloaded : (m.listing.load text).listing.Stored := hm.apply (.load text)
  cases houtcome : (m.listing.load text).outcome with
  | ok _ =>
      rw [Action.load_of_ok houtcome]
      exact hloaded
  | error failure =>
      rw [Action.load_of_error houtcome]
      exact hloaded

theorem call (call : Call) : KeepsStored call.action := by
  cases call with
  | insert number text => exact .edit Listing.Stored.insert
  | erase number => exact .edit Listing.Stored.erase
  | clear => exact .edit Listing.Stored.clear
  | load text => exact .load text
  | enter raw => exact .enter raw

theorem tryLoad (path : String) (contents : Except Fault (List UInt8)) :
    KeepsStored (Action.tryLoad path contents) := by
  have hload : KeepsStored (Action.loadFile contents) := by
    unfold Action.loadFile
    split
    · exact .throw _
    · split
      · exact .throw _
      · exact .load _
  -- Both ways answer early, and the answer is looked at behind them.
  refine .bind (.tryCatch (.bind hload fun _ => .pure _) fun failure => ?_) fun answer => ?_
  · cases failure with
    | complaint c => exact .bind (.note _) fun _ => .pure _
    | fault fault =>
        dsimp only
        split
        · exact .bind (.note _) fun _ => .pure _
        · exact .throw _
  · cases answer with
    | ok _ => exact .pure _
    | error _ => exact .pure _

theorem trySaved (path : String) (written : Except Fault Unit) :
    KeepsStored (Action.trySaved path written) := by
  have hsaved : KeepsStored (Action.saved path written) := by
    cases written with
    | ok _ => exact of_listing_eq fun _ => rfl
    | error fault => exact .throw _
  refine .tryCatch hsaved fun failure => ?_
  cases failure with
  | complaint c => exact .throw _
  | fault fault =>
      dsimp only
      split
      · exact .note _
      · exact .throw _

theorem tryEnter (raw : List Char) : KeepsStored (Action.tryEnter raw) := by
  refine .tryCatch (.enter raw) fun failure => ?_
  cases failure with
  | complaint c => exact .note _
  | fault fault => exact .throw _

theorem perform (command : Command) : KeepsStored (Action.perform command) := by
  cases command with
  | programLine text => exact .bind (.tryEnter text) fun _ => .pure _
  | new =>
      have hreset : KeepsStored Action.reset := of_listing_eq fun _ => rfl
      exact .bind (.bind (.edit Listing.Stored.clear) fun _ => hreset) fun _ => .pure _
  | list => exact .bind (.list) fun _ => .pure _
  | _ => exact of_listing_eq fun _ => rfl

theorem run (fuel : Nat) : KeepsStored (Action.run fuel) := by
  intro m hm
  by_cases hidle : m.running = false
  · -- The run works on the locked listing, and leaves it locked only if it is not over.
    have hlocked : m.start.listing.Stored := hm.lock true
    have hlisting := ((Machine.InRun.start m).steps hlocked fuel).listing_eq
    rw [Action.run_of_idle hidle, machineAfter_resultOf]
    rcases (m.start.steps fuel).settled_cases with hsettled | hsettled
    · rw [hsettled, hlisting]
      exact hlocked
    · rw [hsettled, Machine.release, hlisting]
      exact hlocked.lock false
  · rw [Action.run_of_running (Bool.of_not_eq_false hidle)]
    exact hm

end KeepsStored

theorem Machine.stored_afterOperation {m : Machine} (operation : Operation)
    (hm : m.listing.Stored) : (m.afterOperation operation).listing.Stored := by
  cases operation with
  | edit call => exact KeepsStored.call call m hm
  | lock locked => exact hm.lock locked
  | exec stmt => exact KeepsStored.of_listing_eq (listing_exec stmt) m hm
  | reset => exact hm
  | run fuel => exact KeepsStored.run fuel m hm
  | abort memory frames pc => exact hm.lock false
  | command command => exact KeepsStored.perform command m hm
  | loadFile path contents => exact KeepsStored.tryLoad path contents m hm
  | saveFile path written => exact KeepsStored.trySaved path written m hm

theorem Machine.Reached.stored {m : Machine} (h : m.Reached) : m.listing.Stored := by
  obtain ⟨capacity, maxDepth, operations, rfl⟩ := h
  have hnew : ({ capacity } : Listing).Stored := ⟨capacity, [], rfl⟩
  exact List.foldlRecOn operations afterOperation hnew fun m hm operation _ =>
    m.stored_afterOperation operation hm

end LineBasic
