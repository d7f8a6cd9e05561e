/-
  LineBasic.Proofs.Machine.Forward

  Runs that never go back come to an end. Jumps name line numbers and the machine keeps indices; as
  the lines stand in the order of their numbers, a jump to a greater number is one to a later line.
  A loop goes back only where there is a `FOR` to open it and a `NEXT` to repeat it, and a `FOR`
  that skips its loop goes forward. So the line to execute moves on with every step (`Onward.step`),
  and a run is over before it has made more steps than there are lines, the one behind the last
  included.
-/
import LineBasic.Proofs.Machine.FailedStatement
import LineBasic.Proofs.Machine.History
import LineBasic.Proofs.Machine.LoopStack

namespace LineBasic

/-! ## Listings without a way back -/

/-- The line numbers that the statement of a line may go to. -/
def Line.targets (line : Line) : List Int :=
  match line.content with
  | .ok stmt => stmt.targets
  | .error _ => []

/-- Jumps go to greater line numbers, and there are no loops: one of the two kinds of lines that
    make one is missing. -/
structure Listing.Forward (l : Listing) : Prop where
  targets : ∀ line ∈ l.lines, ∀ n ∈ line.targets, line.number < n
  noLoops : (∀ line ∈ l.lines, line.kind ≠ .NEXT) ∨ ∀ line ∈ l.lines, line.kind ≠ .FOR

/-- In lines that stand in order, a greater number is found further on. -/
theorem Listing.Sound.lt_of_indexOf? {l : Listing} (hl : l.Sound) {i j : Nat} {line : Line}
    {n : Int} (hline : l.lines[i]? = some line) (hn : line.number < n)
    (hj : l.indexOf? n = some j) : i < j := by
  obtain ⟨hjlt, hnumber, -⟩ := List.findIdx?_eq_some_iff_getElem.mp hj
  obtain ⟨hilt, rfl⟩ := List.getElem?_eq_some_iff.mp hline
  have hnumber : l.lines[j].number = n := by simpa using hnumber
  have hordered := List.pairwise_iff_getElem.mp hl.ordered
  rcases Nat.lt_trichotomy i j with hlt | rfl | hgt
  · exact hlt
  · omega
  · have hless := hordered j i hjlt hilt hgt
    omega

/-! ## One step -/

/-- A statement after which the run goes on leads forward, if its targets do and it is no `NEXT`
    with a loop to repeat. -/
theorem Effect.pc_lt {m m' : Machine} {number : Int} {stmt : Stmt}
    {r : EStateM.Result Failure Machine Flow} (h : Effect m stmt r)
    (hrunning : Step.ofResult number r = .running m')
    (htargets : ∀ n ∈ stmt.targets, ∀ i, m.listing.indexOf? n = some i → m.pc < i)
    (hnext : ∀ slot, stmt = .next slot → m.frames = []) : m.pc < m'.pc := by
  have hgoesOn : ∀ {s : Machine}, m.SameControl s →
      Step.ofResult number (.ok .next s) = .running m' → m.pc < m'.pc := by
    intro s hsame hnextLine
    obtain rfl := Step.running.inj hnextLine
    show m.pc < s.pc + 1
    rw [hsame.pc_eq]
    exact Nat.lt_succ_self _
  cases h with
  | assign => exact hgoesOn (.after m _ _) hrunning
  | assignElement => exact hgoesOn (.after m _ _) hrunning
  | dim hd => exact hgoesOn hd.sameControl hrunning
  | @openLoop slot start limit step first last stride s henter =>
      obtain rfl := Step.running.inj hrunning
      show m.pc < s.pc + 1
      rw [henter.sameControl.pc_eq]
      exact Nat.lt_succ_self _
  | @skipLoop slot start limit step first last stride s i henter hskips hmatch =>
      -- The `NEXT` of the loop is looked for behind the `FOR`.
      obtain rfl := Step.running.inj hrunning
      have hbounds := matchingNext?_bounds hmatch
      show m.pc < i + 1
      omega
  | repeatLoop hframes =>
      rw [hnext _ rfl] at hframes
      cases hframes
  | closeLoop hframes =>
      rw [hnext _ rfl] at hframes
      cases hframes
  | printText => exact hgoesOn ((Machine.SameControl.refl m).note _) hrunning
  | printNothing => exact hgoesOn ((Machine.SameControl.refl m).note _) hrunning
  | print => exact hgoesOn ((Machine.SameControl.after m _ _).note _) hrunning
  | goto hline =>
      obtain rfl := Step.running.inj hrunning
      exact htargets _ (List.mem_singleton_self _) _ hline
  | ifGoesOn => exact hgoesOn (.after m _ _) hrunning
  | thenJumps hcond hline =>
      obtain rfl := Step.running.inj hrunning
      exact htargets _ (List.mem_singleton_self _) _ hline
  | stop => cases hrunning
  | _ => exact absurd hrunning (Step.ofResult_error_ne number _ _ m')

/-- Without a `FOR`, no loop is ever open. -/
theorem Effect.frames_nil {m : Machine} {stmt : Stmt} {r : EStateM.Result Failure Machine Flow}
    (h : Effect m stmt r) (hframes : m.frames = [])
    (hfor : ∀ slot start limit step, stmt ≠ .forTo slot start limit step) :
    (machineAfter r).frames = [] := by
  rcases h.frames_cases with hsame | ⟨slot, start, limit, step, _, _, hstmt, -⟩ | ⟨f, hclose⟩
  · rw [hsame, hframes]
  · exact absurd hstmt (hfor slot start limit step)
  · rw [hframes] at hclose
    cases hclose

/-- Only the size of an array makes a statement fail in a way that is no complaint. -/
theorem Stmt.MayFail.dim_of_fault {stmt : Stmt} {fault : Fault} (h : stmt.MayFail (.fault fault)) :
    ∃ items, stmt = .dim items ∧ (fault = .uncountable ∨ fault = .outOfMemory) := by
  cases stmt with
  | dim items =>
      refine ⟨items, rfl, ?_⟩
      cases fault with
      | uncountable => exact Or.inl rfl
      | outOfMemory => exact Or.inr rfl
      | _ => exact h.elim
  | assign target value => cases target <;> exact h.elim
  | ifThen cond line => cases line <;> exact h.elim
  | _ => exact h.elim

namespace Machine

/-- The machine is running the listing, and no `NEXT` of it can go back. -/
structure Onward (l : Listing) (m : Machine) : Prop where
  inRun : InRun l m
  noLoops : (∀ line ∈ l.lines, line.kind ≠ .NEXT) ∨
    (∀ line ∈ l.lines, line.kind ≠ .FOR) ∧ m.frames = []

variable {l : Listing} {m m' : Machine}

theorem Onward.start (h : m.listing.Forward) : Onward m.start.listing m.start := by
  refine ⟨.start m, ?_⟩
  rcases h.noLoops with hnext | hfor
  · exact Or.inl hnext
  · exact Or.inr ⟨hfor, rfl⟩

/-- The line that a step has executed, when the run goes on behind it. -/
theorem exists_line_of_running (h : m.step = .running m') :
    ∃ line stmt, m.listing.lines[m.pc]? = some line ∧ line.content = .ok stmt ∧
      Step.ofResult line.number (Action.execLine line m) = .running m' := by
  cases hline : m.listing.lines[m.pc]? with
  | none =>
      rw [step_of_end hline] at h
      cases h
  | some line =>
      rw [step_of_line hline] at h
      cases hstmt : line.content with
      | ok stmt => exact ⟨line, stmt, rfl, hstmt, h⟩
      | error e =>
          rw [Action.execLine, hstmt] at h
          exact absurd h (Step.ofResult_error_ne _ _ _ _)

/-- A step after which the run goes on leads to a later line. -/
theorem Onward.step (hl : l.Stored) (hforward : l.Forward) (hm : Onward l m)
    (h : m.step = .running m') : Onward l m' ∧ m.pc < m'.pc := by
  obtain ⟨line, stmt, hline, hstmt, hrunning⟩ := exists_line_of_running h
  rw [hm.inRun.listing_eq] at hline
  have hmem : line ∈ l.lines := List.mem_of_getElem? hline
  obtain ⟨-, hcovers⟩ := (hl.sound.lines line hmem).wellFormed hstmt
  obtain ⟨-, heffect⟩ := hm.inRun.effect hl hmem hstmt
  refine ⟨⟨?_, ?_⟩, ?_⟩
  · have hinRun := hm.inRun.step hl
    rwa [h] at hinRun
  · refine hm.noLoops.imp_right fun ⟨hfor, hframes⟩ => ⟨hfor, ?_⟩
    have hleft := Step.frames_ofResult line.number (Action.execLine line m)
    rw [hrunning] at hleft
    refine hleft.trans ?_
    apply heffect.frames_nil hframes
    rintro slot start limit step rfl
    exact hfor line hmem hcovers.eq_FOR
  · apply heffect.pc_lt hrunning
    · intro n hn i hi
      rw [hm.inRun.listing_eq] at hi
      have hgreater := hforward.targets line hmem n (by rw [Line.targets, hstmt]; exact hn)
      exact hl.sound.lt_of_indexOf? hline hgreater hi
    · rintro slot rfl
      rcases hm.noLoops with hnext | ⟨-, hframes⟩
      · exact absurd hcovers.eq_NEXT (hnext line hmem)
      · exact hframes

/-! ## Runs -/

/-- The indices of the lines that are executed, one after the other, in at most `fuel` steps. -/
def executed (fuel : Nat) (m : Machine) : List Nat :=
  match fuel with
  | 0 => []
  | fuel + 1 =>
    if m.pc < m.listing.lines.length then
      m.pc :: match m.step with
        | .running m' => m'.executed fuel
        | _ => []
    else []

/-- A line is executed at every point of the run but those behind the last line. -/
theorem getElem?_executed {fuel k i : Nat} :
    (m.executed fuel)[k]? = some i ↔
      k < fuel ∧ ∃ s, m.steps k = .running s ∧ s.pc = i ∧ i < s.listing.lines.length := by
  induction fuel generalizing m k with
  | zero => simp [executed]
  | succ fuel ih =>
      rw [executed]
      split
      · rename_i hpc
        cases k with
        | zero =>
            simp only [List.getElem?_cons_zero, Option.some.injEq, steps, Step.running.injEq]
            refine ⟨fun h => ⟨Nat.succ_pos fuel, m, rfl, h, h ▸ hpc⟩, ?_⟩
            rintro ⟨-, s, rfl, h, -⟩
            exact h
        | succ k =>
            rw [List.getElem?_cons_succ, steps]
            cases hstep : m.step with
            | running m' => simp [ih]
            | finished m' outcome => simp
            | faulted m' fault => simp
      · rename_i hpc
        -- Behind the last line the run is over with the next step.
        have hend : m.listing.lines[m.pc]? = none := List.getElem?_eq_none_iff.mpr (by omega)
        cases k with
        | zero =>
            simp only [List.getElem?_nil, steps, Step.running.injEq, reduceCtorEq, false_iff]
            rintro ⟨-, s, rfl, rfl, hlt⟩
            exact hpc hlt
        | succ k => simp [steps, step_of_end hend]

/-- Each line that is executed stands behind the one before it. -/
theorem Onward.executed (hl : l.Stored) (hforward : l.Forward) (hm : Onward l m) (fuel : Nat) :
    (m.executed fuel).Pairwise (· < ·) ∧
      ∀ i ∈ m.executed fuel, m.pc ≤ i ∧ i < l.lines.length := by
  induction fuel generalizing m with
  | zero => exact ⟨.nil, by simp [Machine.executed]⟩
  | succ fuel ih =>
      rw [Machine.executed, hm.inRun.listing_eq]
      split
      · rename_i hpc
        cases hstep : m.step with
        | running m' =>
            obtain ⟨hm', hlt⟩ := hm.step hl hforward hstep
            obtain ⟨hordered, hbounds⟩ := ih hm'
            refine ⟨List.pairwise_cons.mpr ⟨fun i hi => ?_, hordered⟩, fun i hi => ?_⟩
            · have hle := (hbounds i hi).1
              omega
            · rcases List.mem_cons.mp hi with rfl | hi
              · exact ⟨Nat.le_refl _, hpc⟩
              · have hle := hbounds i hi
                omega
        | finished m' outcome => simpa using hpc
        | faulted m' fault => simpa using hpc
      · simp

/-- As many lines as were executed stand before the line to execute. -/
theorem Onward.le_pc (hl : l.Stored) (hforward : l.Forward) (hm : Onward l m) {k : Nat}
    (h : m.steps k = .running m') : m.pc + k ≤ m'.pc := by
  induction k generalizing m with
  | zero =>
      obtain rfl := Step.running.inj h
      exact Nat.le_refl _
  | succ k ih =>
      rw [steps] at h
      cases hstep : m.step with
      | running s =>
          obtain ⟨hs, hlt⟩ := hm.step hl hforward hstep
          rw [hstep] at h
          have hle := ih hs h
          omega
      | finished s outcome =>
          rw [hstep] at h
          cases h
      | faulted s fault =>
          rw [hstep] at h
          cases h

/-! ## Faults -/

/-- A run was ended by a fault at the line to execute: a `DIM` whose array does not fit, or a line
    with a complaint that cannot be reported, for its number is too long to be written. -/
inductive FaultsAt (lines : List Line) (m : Machine) : Fault → Prop
  | dim {line : Line} {items : List (Nat × Expr)} {fault : Fault}
      (hline : lines[m.pc]? = some line) (hdim : line.content = .ok (.dim items))
      (hsize : fault = .uncountable ∨ fault = .outOfMemory) : FaultsAt lines m fault
  | unwritable {line : Line} {s : Machine} {c : Complaint} (hline : lines[m.pc]? = some line)
      (hcomplains : Action.execLine line s = .error (.complaint c) m)
      (hnumber : Text.isWritable line.number = false) : FaultsAt lines m .unwritable

theorem InRun.faultsAt_of_step (hl : l.Stored) (hm : InRun l m) {fault : Fault}
    (h : m.step = .faulted m' fault) : FaultsAt l.lines m' fault := by
  cases hline : m.listing.lines[m.pc]? with
  | none =>
      rw [step_of_end hline] at h
      cases h
  | some line =>
      rw [step_of_line hline] at h
      rw [hm.listing_eq] at hline
      have hmem : line ∈ l.lines := List.mem_of_getElem? hline
      rcases hresult : Action.execLine line m with ⟨_ | _ | _, s⟩ | ⟨c | fault', s⟩
      all_goals rw [hresult] at h
      · cases h
      · cases h
      · cases h
      · -- The line complained, and its number is what keeps the complaint from being reported.
        rcases s.halt_cases line.number c with ⟨-, hhalt⟩ | ⟨hnumber, hhalt⟩
        · cases hhalt.symm.trans h
        · obtain ⟨rfl, rfl⟩ := Step.faulted.inj (hhalt.symm.trans h)
          have hpc := hm.pc_of_complaint hl hmem hresult
          exact .unwritable (by rw [hpc, hline]) hresult hnumber
      · obtain ⟨rfl, rfl⟩ := Step.faulted.inj h
        cases hstmt : line.content with
        | error e =>
            rw [Action.execLine, hstmt] at hresult
            cases hresult
        | ok stmt =>
            obtain ⟨hwf, heffect⟩ := hm.effect hl hmem hstmt
            rw [hresult] at heffect
            -- Targets were read, so that `DIM` is left of the statements that fail.
            obtain ⟨items, rfl, hsize⟩ :=
              (heffect.mayFail hwf (hl.isWritable_targets hmem hstmt)).dim_of_fault
            cases heffect with
            | dimFails hd =>
                have hpc : s.pc = m.pc := hd.sameControl.pc_eq
                exact .dim (by rw [hpc, hline]) hstmt hsize

theorem InRun.faultsAt_of_steps (hl : l.Stored) (hm : InRun l m) {fuel : Nat} {fault : Fault}
    (h : m.steps fuel = .faulted m' fault) : FaultsAt l.lines m' fault := by
  obtain ⟨k, s, hs, hlast⟩ := exists_last_step h (by simp)
  have hpoint := hm.steps hl k
  rw [hs] at hpoint
  exact hpoint.faultsAt_of_step hl hlast

end Machine

/-- A run of a stored listing in which no line leads back is over after no more lines than there
    are. The lines executed are those at the points of the run, and none is executed twice. The run
    gives an outcome, or a fault has ended it: at a `DIM`, or at a line with a complaint and with a
    number that is too long to be written. -/
theorem forward_run_ends {m : Machine} {fuel : Nat} (hstored : m.listing.Stored)
    (hforward : m.listing.Forward) (hidle : m.running = false)
    (hfuel : m.listing.lines.length < fuel) :
    (∀ k i, (m.start.executed fuel)[k]? = some i ↔ k < fuel ∧
      ∃ s, m.start.steps k = .running s ∧ s.pc = i ∧ i < s.listing.lines.length) ∧
    (m.start.executed fuel).Nodup ∧
    (∀ i ∈ m.start.executed fuel, i < m.listing.lines.length) ∧
    (m.start.executed fuel).length ≤ m.listing.lines.length ∧
    ((∃ outcome s, m.start.steps fuel = .finished s outcome ∧
        Action.run fuel m = .ok (some outcome) s.release) ∨
      ∃ fault s, m.start.steps fuel = .faulted s fault ∧
        Action.run fuel m = .error (.fault fault) s.release ∧
        Machine.FaultsAt m.listing.lines s fault) := by
  have hl : m.start.listing.Stored := hstored.lock true
  have hstart : Machine.Onward m.start.listing m.start := .start hforward
  have hforward' : m.start.listing.Forward := ⟨hforward.targets, hforward.noLoops⟩
  obtain ⟨hordered, hbounds⟩ := hstart.executed hl hforward' fuel
  have hnodup : (m.start.executed fuel).Nodup := hordered.imp Nat.ne_of_lt
  have hlines : ∀ i ∈ m.start.executed fuel, i < m.listing.lines.length := fun i hi =>
    (hbounds i hi).2
  refine ⟨fun k i => Machine.getElem?_executed, hnodup, hlines, ?_, ?_⟩
  · have hsubset : m.start.executed fuel ⊆ List.range m.listing.lines.length := fun i hi =>
      List.mem_range.mpr (hlines i hi)
    simpa using List.Nodup.length_le_of_subset hnodup hsubset
  · rw [Action.run_of_idle hidle]
    cases hsteps : m.start.steps fuel with
    | running s =>
        -- The line to execute would be further on than the place behind the last.
        have hpoint := Machine.InOrder.run hstored fuel
        rw [hsteps] at hpoint
        have hle : s.pc ≤ m.listing.lines.length := by
          have hpc := hpoint.orderly.pc_le
          rw [hpoint.inRun.listing_eq] at hpc
          exact hpc
        have hge := hstart.le_pc hl hforward' hsteps
        omega
    | finished s outcome => exact Or.inl ⟨outcome, s, rfl, rfl⟩
    | faulted s fault =>
        exact Or.inr ⟨fault, s, rfl, rfl, hstart.inRun.faultsAt_of_steps hl hsteps⟩

/-- A loop without its `NEXT`, a jump over two lines, one of which has a target that there is not,
    and an array that does not fit into memory: the run ends at the `DIM`. -/
theorem forward_run_ends_at_dim :
    ∃ (m s : Machine) (items : List (Nat × Expr)), m.listing.Stored ∧ m.listing.Forward ∧
      m.running = false ∧ m.listing.lines.length = 6 ∧ m.start.executed 7 = [0, 1, 4] ∧
      (m.start.executed 7).Nodup ∧
      (∃ p, m.start.steps 2 = .running p ∧ p.pc = 4) ∧
      m.start.steps 7 = .faulted s .outOfMemory ∧ s.pc = 4 ∧
      (m.listing.lines[4]?).map (·.content) = some (.ok (.dim items)) ∧
      Action.run 7 m = .error (.fault .outOfMemory) s.release := by
  let edits : List Edit := [.insert 10 "FOR I = 1 TO 3", .insert 20 "IF A(1) = 0 THEN 50",
    .insert 30 "PRINT I", .insert 40 "GOTO 70", .insert 50 "DIM A(1), B(4E18)", .insert 60 "END"]
  obtain ⟨l, hl⟩ : ∃ l, l = ({ capacity := 10 } : Listing).applyAll edits := ⟨_, rfl⟩
  have hstored : l.Stored := ⟨10, edits, hl⟩
  have hlines : l.lines.length = 6 ∧ (∀ line ∈ l.lines, ∀ n ∈ line.targets, line.number < n) ∧
      (∀ line ∈ l.lines, line.kind ≠ .NEXT) ∧
      Machine.executed 7 (Machine.start { listing := l }) = [0, 1, 4] ∧
      ((Machine.start { listing := l }).steps 7).ending? = some (.error .outOfMemory) ∧
      ((Machine.start { listing := l }).steps 7).machine.pc = 4 := by
    rw [hl]
    decide +kernel
  obtain ⟨hlength, htargets, hnext, hexecuted, hending, hpc⟩ := hlines
  have hforward : l.Forward := ⟨htargets, Or.inl hnext⟩
  have hfuel : l.lines.length < 7 := by omega
  obtain ⟨hpoints, hnodup, -, -, hends⟩ :=
    forward_run_ends (m := { listing := l }) hstored hforward rfl hfuel
  obtain ⟨-, p, hp, hat, -⟩ := (hpoints 2 4).mp (by rw [hexecuted]; rfl)
  rcases hends with ⟨outcome, s, hs, -⟩ | ⟨fault, s, hs, hrun, hfault⟩
  · rw [hs] at hending
    cases hending
  · rw [hs] at hending hpc
    obtain rfl : fault = .outOfMemory := Except.error.inj (Option.some.inj hending)
    cases hfault with
    | @dim line items _ hline hdim hsize =>
        have hpc : s.pc = 4 := hpc
        rw [hpc] at hline
        exact ⟨{ listing := l }, s, items, hstored, hforward, rfl, hlength, hexecuted, hnodup,
          ⟨p, hp, hat⟩, hs, hpc, by rw [hline, Option.map_some, hdim], hrun⟩

/-- A line with no statement in it and with a number that is too long to be written: there is no
    `DIM`, and yet the run has no outcome. -/
theorem run_faults_without_dim :
    ∃ m r : Machine, m.listing.Stored ∧ m.listing.Forward ∧ m.running = false ∧
      m.listing.lines.length = 1 ∧ (∀ line ∈ m.listing.lines, line.kind ≠ .DIM) ∧
      Action.run 2 m = .error (.fault .unwritable) r := by
  let e : Misread := ⟨.unknownStatement "FOO", some 2⟩
  obtain ⟨large, hlarge⟩ : ∃ n : Nat, n = 10 ^ Text.maxDigits := ⟨_, rfl⟩
  let m : Machine := { listing := { lines := [⟨large, "FOO", .ASSIGN, .error e⟩] } }
  have hlong : Text.isWritable (large : Int) = false := by
    rw [Text.isWritable_eq_false_iff, ← hlarge]
    exact Nat.le_refl large
  have hline : m.start.listing.lines[m.start.pc]? = some ⟨large, "FOO", .ASSIGN, .error e⟩ := rfl
  have hstep : m.start.step = .faulted m.start .unwritable := by
    rw [Machine.step_of_misread hline rfl, Machine.halt_of_not_isWritable _ hlong]
  have hsteps : m.start.steps 2 = .faulted m.start .unwritable := by
    rw [Machine.steps, hstep]
  refine ⟨m, m.start.release, ⟨1000, [.insert large "FOO"], rfl⟩, ⟨by simp [m, Line.targets],
    Or.inl (by simp [m])⟩, rfl, rfl, by simp [m], ?_⟩
  rw [Action.run_of_idle rfl, hsteps]
  rfl

end LineBasic
