/-
  LineBasic.Proofs.Machine.Failure

  How the run of a stored listing can fail. A line that did not parse complains of just that when it
  is executed; of the others each statement has its own few failures (`Stmt.MayFail`), and most have
  none. Missing variables, unknown trees and the like are not among them, nor are line numbers that
  cannot be written: the statements of a listing were read, so theirs are short.
-/
import LineBasic.Proofs.Machine.Control
import LineBasic.Proofs.Stmt.Target

namespace LineBasic

/-- The failures that a statement is announced to end in: writes outside an array, loops and jumps
    without a place to go on, and arrays that do not fit into memory. -/
def Stmt.MayFail : Stmt → Failure → Prop
  | .assign (.element letter _) _, .complaint (.undeclared l) => l = letter
  | .assign (.element letter _) _, .complaint (.outOfBounds l _) => l = letter
  | .forTo _ _ _ _, .complaint .forWithoutNext => True
  | .forTo _ _ _ _, .complaint .forTooDeep => True
  | .next _, .complaint .nextWithoutFor => True
  | .next _, .complaint (.nextMismatch _ _) => True
  | .goto n, .complaint (.noSuchLine .GOTO line) => line = n
  | .ifThen _ (some n), .complaint (.noSuchLine .THEN line) => line = n
  | .dim _, .fault .uncountable => True
  | .dim _, .fault .outOfMemory => True
  | _, _ => False

/-- Declaring arrays fails for their size only. -/
theorem Declares.fault_cases {m : Machine} {items : List (Nat × Expr)} {failure : Failure}
    {m' : Machine} (h : Declares m items (.error failure m'))
    (hitems : ∀ item ∈ items, item.1 < letterCount) :
    failure = .fault .uncountable ∨ failure = .fault .outOfMemory := by
  generalize hr : EStateM.Result.error failure m' = r at h
  induction h with
  | nil => simp at hr
  | cons hbound hdeclare hrest ih => exact ih (fun item hi => hitems item (by simp [hi])) hr
  | fail hbound hdeclare =>
      obtain ⟨rfl, -⟩ := EStateM.Result.error.inj hr
      rcases Memory.declare_error (hitems _ List.mem_cons_self) hdeclare with rfl | rfl
      · exact Or.inl rfl
      · exact Or.inr rfl

/-- The statements of a stored listing refer to no line number that cannot be written. -/
theorem Listing.Stored.isWritable_targets {l : Listing} (h : l.Stored) {line : Line}
    (hline : line ∈ l.lines) {stmt : Stmt} (hstmt : line.content = .ok stmt) :
    ∀ n ∈ stmt.targets, Text.isWritable n = true := by
  have hparse := (h.sound.lines line hline).parse_eq
  rw [hstmt] at hparse
  exact Stmt.isWritable_of_parseAs hparse

/-- A rule that ends in a failure ends in an announced one, if the line numbers in the statement can
    be written. -/
theorem Effect.mayFail {m m' : Machine} {stmt : Stmt} {failure : Failure} (hstmt : stmt.WellFormed)
    (htargets : ∀ n ∈ stmt.targets, Text.isWritable n = true)
    (h : Effect m stmt (.error failure m')) : stmt.MayFail failure := by
  cases h with
  | assignFails hindex hvalue hwrite =>
      rcases Memory.writeElement_error hstmt.1.1 hwrite with rfl | rfl
      · exact rfl
      · exact rfl
  | dimFails hd =>
      rcases hd.fault_cases fun item hitem => (hstmt.2 item hitem).1 with rfl | rfl
      · trivial
      · trivial
  | loopTooDeep => trivial
  | skipFails => trivial
  | noLoop => trivial
  | otherLoop => trivial
  | @gotoFails n _ hline hraised =>
      rw [Complaint.raised_noSuchLine (htargets n (List.mem_singleton_self n))] at hraised
      subst hraised
      exact rfl
  | @thenFails cond n _ _ hcond hline hraised =>
      rw [Complaint.raised_noSuchLine (htargets n (List.mem_singleton_self n))] at hraised
      subst hraised
      exact rfl

/-- No statement complains of a line that did not parse. -/
theorem Stmt.not_mayFail_misread (stmt : Stmt) (e : Misread) :
    ¬ stmt.MayFail (.complaint (.misread e)) := by
  rcases stmt with ⟨_ | _, _⟩ | _ | _ | _ | _ | _ | _ | ⟨_, _ | _⟩ | _ | _
  all_goals exact id

/-- At every point of the run of a stored listing, the line at hand complains that it did not parse
    exactly when it did not, and otherwise is executed or fails as its statement may. -/
theorem execLine_fails_as_announced {m m' : Machine} {n : Nat} {line : Line}
    (hstored : m.listing.Stored) (hrun : m.start.steps n = .running m')
    (hline : m'.listing.lines[m'.pc]? = some line) :
    (∀ e, (∃ m'', Action.execLine line m' = .error (.complaint (.misread e)) m'') ↔
      line.content = .error e) ∧
    ∀ stmt, line.content = .ok stmt →
      (∃ flow m'', Action.execLine line m' = .ok flow m'') ∨
      ∃ failure m'', Action.execLine line m' = .error failure m'' ∧ stmt.MayFail failure := by
  have hl : m.start.listing.Stored := hstored.lock true
  have hm : Machine.InRun m.start.listing m' := by
    have hpoint := (Machine.InRun.start m).steps hl n
    rwa [hrun] at hpoint
  have hmem : line ∈ m.start.listing.lines := hm.listing_eq ▸ List.mem_of_getElem? hline
  have hmisread : ∀ {e}, line.content = .error e →
      Action.execLine line m' = .error (.complaint (.misread e)) m' := by
    intro e he
    rw [Action.execLine, he]
    rfl
  have hfails : ∀ {stmt failure m''}, line.content = .ok stmt →
      Action.execLine line m' = .error failure m'' → stmt.MayFail failure := by
    intro stmt failure m'' hstmt hresult
    obtain ⟨hwf, heffect⟩ := hm.effect hl hmem hstmt
    rw [hresult] at heffect
    exact heffect.mayFail hwf (hl.isWritable_targets hmem hstmt)
  refine ⟨fun e => ⟨?_, fun he => ⟨m', hmisread he⟩⟩, fun stmt hstmt => ?_⟩
  · rintro ⟨m'', hresult⟩
    -- A parsed line never complains that it did not parse.
    cases hcontent : line.content with
    | ok stmt => exact absurd (hfails hcontent hresult) (stmt.not_mayFail_misread e)
    | error e' =>
        rw [hmisread hcontent] at hresult
        simp only [EStateM.Result.error.injEq, Failure.complaint.injEq,
          Complaint.misread.injEq] at hresult
        rw [hresult.1]
  · cases hresult : Action.execLine line m' with
    | ok flow m'' => exact Or.inl ⟨flow, m'', rfl⟩
    | error failure m'' => exact Or.inr ⟨failure, m'', rfl, hfails hstmt hresult⟩

/-- A jump to a `NEXT` without a loop. -/
theorem execLine_fails_as_announced_next :
    ∃ (m m' : Machine) (line : Line), m.listing.Stored ∧ m.start.steps 1 = .running m' ∧
      m'.listing.lines[m'.pc]? = some line ∧ line.content = .ok (.next none) ∧
      ((∃ flow m'', Action.execLine line m' = .ok flow m'') ∨
        ∃ failure m'', Action.execLine line m' = .error failure m'' ∧
          Stmt.MayFail (.next none) failure) := by
  let edits : List Edit := [.insert 30 "NEXT", .insert 10 "GOTO 30", .insert 20 "PRINT"]
  let m : Machine := { listing := ({ capacity := 3 } : Listing).applyAll edits }
  have hstored : m.listing.Stored := ⟨3, edits, rfl⟩
  have hrun : m.start.steps 1 = .running (m.start.steps 1).machine := rfl
  have hline : (m.start.steps 1).machine.listing.lines[(m.start.steps 1).machine.pc]? =
      some ⟨30, "NEXT", .NEXT, .ok (.next none)⟩ := rfl
  exact ⟨m, _, _, hstored, hrun, hline, rfl,
    (execLine_fails_as_announced hstored hrun hline).2 _ rfl⟩

end LineBasic
