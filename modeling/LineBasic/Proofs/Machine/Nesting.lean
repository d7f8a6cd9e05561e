/-
  LineBasic.Proofs.Machine.Nesting

  The loops that are open while a listing without jumps runs are those that its text leaves open
  before the line at hand.

  Without jumps a run leaves the order of the lines only at loops: `NEXT` goes back behind its
  `FOR`, where the same loops are open, and a `FOR` whose loop does not run goes on behind the
  `NEXT` that counting finds, where the loops before the `FOR` are open. So both ways out of a loop
  lead to the same line.
-/
import LineBasic.Proofs.Listing.Nesting
import LineBasic.Proofs.Machine.Control

namespace LineBasic

/-- Whether the statement of a line may go to a line by its number. -/
def Line.jumps (line : Line) : Bool :=
  match line.content with
  | .ok (.goto _) => true
  | .ok (.ifThen _ (some _)) => true
  | _ => false

/-- The open loops are those that the listing leaves open before the line at hand. -/
def Machine.Nested (m : Machine) : Prop :=
  m.frames.map (·.forIndex) = m.listing.openLoops m.pc

/-! ## Lines with a statement -/

/-- The open loops behind a statement of a kind, by the statement. -/
def Stmt.nest (opened : List Nat) (index : Nat) : Stmt → List Nat
  | .forTo _ _ _ _ => index :: opened
  | .next _ => opened.tail
  | _ => opened

/-- A line with a statement nests as its statement does. -/
theorem nest_of_covers {kind : Kind} {stmt : Stmt} (h : kind.Covers stmt) (opened : List Nat)
    (i : Nat) : nest opened i kind = stmt.nest opened i := by
  unfold Kind.Covers at h
  split at h
  case h_11 => exact h.elim
  all_goals rfl

/-! ## What a statement keeps -/

namespace Machine.Nested

variable {m m' : Machine} {line : Line} {stmt : Stmt}

theorem of_sameControl (hm : m.Nested) (h : m.SameControl m') : m'.Nested := by
  rw [Nested, h.frames_eq, h.listing_eq, h.pc_eq]
  exact hm

/-- A failure leaves the loops nested as the line did that failed. -/
theorem fails (hm : m.Nested) (h : m.SameControl m') (number : Int) (failure : Failure) :
    (Step.ofResult number (.error failure m')).machine.Nested :=
  hm.of_sameControl (h.trans (Step.sameControl_ofResult_error number failure m'))

/-- After the statement, the line behind it has the loops open that the statement leaves. -/
theorem goOn (hline : m.listing.lines[m.pc]? = some line) (hkind : line.kind.Covers stmt)
    (hlisting : m'.listing = m.listing) (hpc : m'.pc = m.pc)
    (hframes : m'.frames.map (·.forIndex) = stmt.nest (m.listing.openLoops m.pc) m.pc) :
    Nested { m' with pc := m'.pc + 1 } := by
  rw [Nested, hlisting, hpc, Listing.openLoops_succ hline, nest_of_covers hkind]
  exact hframes

/-- Another line may be next, if the same loops are open before it. -/
theorem goTo {i : Nat} (hm : m.Nested) (h : m.SameControl m')
    (hopen : m.listing.openLoops i = m.listing.openLoops m.pc) : Nested { m' with pc := i } := by
  rw [Nested, h.frames_eq, h.listing_eq, hopen]
  exact hm

end Machine.Nested

/-- A statement that does not jump keeps the loops nested as the listing has them. -/
theorem Effect.nested {m : Machine} {line : Line} {stmt : Stmt}
    {r : EStateM.Result Failure Machine Flow} (h : Effect m stmt r)
    (hline : m.listing.lines[m.pc]? = some line) (hstmt : line.content = .ok stmt)
    (hkind : line.kind.Covers stmt) (hjumps : line.jumps = false) (hm : m.Nested) :
    (Step.ofResult line.number r).machine.Nested := by
  have hlt : m.pc < m.listing.lines.length := (List.getElem?_eq_some_iff.mp hline).1
  -- Only loops change the order of lines or the open loops; the rest goes on or stays.
  cases h with
  | assign => exact .goOn hline hkind rfl rfl hm
  | assignElement => exact .goOn hline hkind rfl rfl hm
  | assignFails => exact hm.fails (.after m _ _) _ _
  | dim hd =>
      have hsame := hd.sameControl
      exact .goOn hline hkind hsame.listing_eq hsame.pc_eq (hsame.frames_eq ▸ hm)
  | dimFails hd => exact hm.fails hd.sameControl _ _
  | openLoop henter hruns hroom =>
      have hsame := henter.sameControl
      refine .goOn hline hkind hsame.listing_eq hsame.pc_eq ?_
      rw [List.map_cons, hm, Stmt.nest]
  | loopTooDeep henter => exact hm.fails henter.sameControl _ _
  | skipLoop henter hskips hnext =>
      exact hm.goTo henter.sameControl (Listing.openLoops_behind hline hkind.eq_FOR hnext)
  | skipFails henter => exact hm.fails henter.sameControl _ _
  | repeatLoop hframes hslot hcount hgoes =>
      -- Behind the `FOR` line of the innermost loop the same loops are open as here.
      have hopen := hm.symm
      rw [hframes, List.map_cons] at hopen
      exact hm.goTo hcount.sameControl ((Listing.openLoops_body hlt.le hopen).trans hopen.symm)
  | closeLoop hframes hslot hcount hends =>
      have hsame := hcount.sameControl
      rw [Machine.Nested, hframes, List.map_cons] at hm
      refine .goOn hline hkind hsame.listing_eq hsame.pc_eq ?_
      rw [Stmt.nest, ← hm, List.tail_cons]
  | noLoop => exact hm.fails (.refl m) _ _
  | otherLoop => exact hm.fails (.refl m) _ _
  | printText => exact .goOn hline hkind rfl rfl hm
  | printNothing => exact .goOn hline hkind rfl rfl hm
  | print => exact .goOn hline hkind rfl rfl hm
  | goto => simp [Line.jumps, hstmt] at hjumps
  | gotoFails => simp [Line.jumps, hstmt] at hjumps
  | ifGoesOn => exact .goOn hline hkind rfl rfl hm
  | thenJumps => simp [Line.jumps, hstmt] at hjumps
  | thenFails => simp [Line.jumps, hstmt] at hjumps
  | stop => exact hm

/-! ## Runs -/

/-- A `NEXT` after which the run goes on leads back into the innermost loop or out of it. -/
theorem Effect.next_cases {m m' : Machine} {number : Int} {slot : Option Nat}
    {r : EStateM.Result Failure Machine Flow} (h : Effect m (.next slot) r)
    (hrunning : Step.ofResult number r = .running m') :
    ∃ f outer, m.frames = f :: outer ∧
      (m'.frames = m.frames ∧ m'.pc = f.forIndex + 1 ∨ m'.frames = outer ∧ m'.pc = m.pc + 1) := by
  cases h with
  | repeatLoop hframes hslot hcount =>
      obtain rfl := Step.running.inj hrunning
      exact ⟨_, _, hframes, Or.inl ⟨hcount.sameControl.frames_eq, rfl⟩⟩
  | closeLoop hframes hslot hcount =>
      obtain rfl := Step.running.inj hrunning
      refine ⟨_, _, hframes, Or.inr ⟨rfl, ?_⟩⟩
      rw [hcount.sameControl.pc_eq]
  | noLoop => exact absurd hrunning (Step.ofResult_error_ne number _ _ m')
  | otherLoop => exact absurd hrunning (Step.ofResult_error_ne number _ _ m')

/-- A `FOR` after which the run goes on leads into its loop, or behind the `NEXT` that counting
    finds. -/
theorem Effect.forTo_cases {m m' : Machine} {number : Int} {slot : Nat} {start limit : Expr}
    {step : Option Expr} {r : EStateM.Result Failure Machine Flow}
    (h : Effect m (.forTo slot start limit step) r)
    (hrunning : Step.ofResult number r = .running m') :
    (∃ f, f.forIndex = m.pc ∧ m'.frames = f :: m.frames ∧ m'.pc = m.pc + 1) ∨
      ∃ i, m.listing.matchingNext? (m.pc + 1) = some i ∧ m'.frames = m.frames ∧ m'.pc = i + 1 := by
  cases h with
  | openLoop henter =>
      obtain rfl := Step.running.inj hrunning
      refine Or.inl ⟨_, rfl, rfl, ?_⟩
      rw [henter.sameControl.pc_eq]
  | loopTooDeep => exact absurd hrunning (Step.ofResult_error_ne number _ _ m')
  | skipLoop henter hskips hnext =>
      obtain rfl := Step.running.inj hrunning
      exact Or.inr ⟨_, hnext, henter.sameControl.frames_eq, rfl⟩
  | skipFails => exact absurd hrunning (Step.ofResult_error_ne number _ _ m')

theorem Machine.Nested.step {l : Listing} {m : Machine} (hl : l.Stored)
    (hjumps : ∀ line ∈ l.lines, line.jumps = false) (hrun : InRun l m) (hm : m.Nested) :
    m.step.machine.Nested := by
  cases hline : m.listing.lines[m.pc]? with
  | none =>
      rw [step_of_end hline]
      exact hm
  | some line =>
      have hmem : line ∈ l.lines := hrun.listing_eq ▸ List.mem_of_getElem? hline
      rw [step_of_line hline]
      cases hstmt : line.content with
      | error e =>
          rw [Action.execLine, hstmt]
          exact hm.fails (.refl m) _ _
      | ok stmt =>
          have hkind := ((hl.sound.lines line hmem).wellFormed hstmt).2
          exact (hrun.effect hl hmem hstmt).2.nested hline hstmt hkind (hjumps line hmem) hm

/-- At every point of the run of a stored listing without jumps, the open loops are those that the
    listing leaves open before the line at hand, the innermost first. So a `NEXT` that goes back
    into a loop or leaves it is the one that counting from the `FOR` finds, and leaving a loop leads
    to the line to which a `FOR` goes that skips it. -/
theorem frames_follow_nesting {m m' : Machine} {n : Nat} (hstored : m.listing.Stored)
    (hjumps : ∀ line ∈ m.listing.lines, line.jumps = false)
    (hpoint : (m.start.steps n).machine = m') :
    m'.frames.map (·.forIndex) = m.listing.openLoops m'.pc ∧
    ∀ line m'', m.listing.lines[m'.pc]? = some line → m'.step = .running m'' →
      (∀ slot, line.content = .ok (.next slot) →
        ∃ f outer, m'.frames = f :: outer ∧
          m.listing.matchingNext? (f.forIndex + 1) = some m'.pc ∧
          (m''.frames = m'.frames ∧ m''.pc = f.forIndex + 1 ∨
            m''.frames = outer ∧ m''.pc = m'.pc + 1)) ∧
      (∀ slot start limit step, line.content = .ok (.forTo slot start limit step) →
        (∃ f, f.forIndex = m'.pc ∧ m''.frames = f :: m'.frames ∧ m''.pc = m'.pc + 1) ∨
        ∃ i, m.listing.matchingNext? (m'.pc + 1) = some i ∧ m''.frames = m'.frames ∧
          m''.pc = i + 1) := by
  have hl : m.start.listing.Stored := hstored.lock true
  -- Being in a run and being nested are kept together, step by step.
  obtain ⟨hrun, hnested⟩ : Machine.InRun m.start.listing m' ∧ m'.Nested := by
    rw [← hpoint]
    refine Machine.steps_induction (P := fun m' => Machine.InRun m.start.listing m' ∧ m'.Nested)
      (fun m' hm' => ⟨hm'.1.step hl, hm'.2.step hl hjumps hm'.1⟩) n ⟨.start m, ?_⟩
    rfl
  have hlisting : m'.listing = m.start.listing := hrun.listing_eq
  have hopen : m'.frames.map (·.forIndex) = m.listing.openLoops m'.pc := by
    rw [hnested, hlisting]
    rfl
  refine ⟨hopen, fun line m'' hline hstep => ?_⟩
  have hmem : line ∈ m.start.listing.lines := List.mem_of_getElem? hline
  have hline' : m'.listing.lines[m'.pc]? = some line := by
    rw [hlisting]
    exact hline
  rw [Machine.step_of_line hline'] at hstep
  refine ⟨?_, ?_⟩
  · intro slot hstmt
    obtain ⟨f, outer, hframes, hcases⟩ := (hrun.effect hl hmem hstmt).2.next_cases hstep
    have hkind := ((hl.sound.lines line hmem).wellFormed hstmt).2.eq_NEXT
    rw [hframes, List.map_cons] at hopen
    exact ⟨f, outer, hframes, Listing.matchingNext?_of_open hline hkind hopen.symm, hcases⟩
  · intro slot start limit step hstmt
    have hcases := (hrun.effect hl hmem hstmt).2.forTo_cases hstep
    rw [hlisting] at hcases
    exact hcases

/-- Two loops, the inner of which is skipped with a `FOR` in it that does not parse. -/
theorem frames_follow_nesting_skipped :
    ∃ m m' : Machine, m.listing.Stored ∧ (∀ line ∈ m.listing.lines, line.jumps = false) ∧
      (m.start.steps 3).machine = m' ∧ m.listing.lines.length = 6 ∧
      m'.frames.map (·.forIndex) = m.listing.openLoops m'.pc := by
  let edits : List Edit :=
    [.insert 10 "FOR I = 1 TO 3", .insert 20 "FOR J = 2 TO 1", .insert 30 "FOR K",
      .insert 40 "NEXT", .insert 50 "NEXT J", .insert 60 "NEXT I"]
  obtain ⟨l, hl⟩ : ∃ l, l = ({ capacity := 10 } : Listing).applyAll edits := ⟨_, rfl⟩
  have hlines : l.lines.length = 6 ∧ l.lines.all (fun line => !line.jumps) = true := by
    rw [hl]
    decide +kernel
  have hjumps : ∀ line ∈ l.lines, line.jumps = false := by
    intro line hline
    simpa using List.all_eq_true.mp hlines.2 line hline
  have hstored : Listing.Stored l := ⟨10, edits, hl⟩
  exact ⟨{ listing := l }, _, hstored, hjumps, rfl, hlines.1,
    (frames_follow_nesting (m := { listing := l }) hstored hjumps rfl).1⟩

end LineBasic
