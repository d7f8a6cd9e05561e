/-
  LineBasic.Proofs.Machine.Renumbering

  A listing with other line numbers, in the same order, runs as before. Indices and line numbers do
  not mix: the machine keeps indices, statements name numbers, and a number is looked up by its
  value. So the renumbered run is a guise of the other, also where a jump finds no line. Only the
  report of a complaint writes line numbers; where one has become too long for that, the renumbered
  run breaks off in place of the report.
-/
import LineBasic.Proofs.Listing.Nesting
import LineBasic.Proofs.Machine.TwoRuns
import LineBasic.Proofs.Text.Integer

namespace LineBasic

/-- Line numbers changed as natural numbers are; negative ones stay. -/
def renumbering (r : Nat → Nat) : Int → Int
  | .ofNat n => r n
  | .negSucc n => .negSucc n

section Lookup

variable {r : Nat → Nat} (hr : StrictMono r)
include hr

theorem renumbering_eq_iff {a b : Int} (ha : 0 ≤ a) (hb : 0 ≤ b) :
    renumbering r a = renumbering r b ↔ a = b := by
  obtain ⟨a, rfl⟩ := Int.eq_ofNat_of_zero_le ha
  obtain ⟨b, rfl⟩ := Int.eq_ofNat_of_zero_le hb
  show (r a : Int) = r b ↔ (a : Int) = b
  rw [Int.natCast_inj, Int.natCast_inj, hr.injective.eq_iff]

/-- Numbers do not get shorter. -/
theorem isWritable_renumbering {n : Int} (h : Text.isWritable n = false) :
    Text.isWritable (renumbering r n) = false := by
  cases n with
  | negSucc n => exact h
  | ofNat n =>
      rw [Text.isWritable_eq_false_iff] at h ⊢
      have hle : n ≤ r n := hr.le_apply
      exact h.trans hle

/-- A number that was changed is found where it was before. -/
theorem findIdx?_renumbered {lines : List Line} (hlines : ∀ line ∈ lines, 0 ≤ line.number) {n : Int}
    (hn : 0 ≤ n) :
    (lines.map (Line.renumber (renumbering r))).findIdx? (·.number = renumbering r n) =
      lines.findIdx? (·.number = n) := by
  induction lines with
  | nil => rfl
  | cons line rest ih =>
      simp only [List.mem_cons, forall_eq_or_imp] at hlines
      have hnumber : (line.renumber (renumbering r)).number = renumbering r n ↔ line.number = n :=
        renumbering_eq_iff hr hlines.1 hn
      rw [List.map_cons, List.findIdx?_cons, List.findIdx?_cons, ih hlines.2]
      simp only [hnumber]

end Lookup

/-- The run of a listing with its numbers changed, order kept, is at every point the run of the
    listing, line numbers changed in what it reports. Where the run is halted with a report whose
    numbers are too long once they are changed, the renumbered run breaks off in place of the
    report, and is otherwise the same. -/
theorem matches_renumbered {r : Nat → Nat} (hr : StrictMono r) {m m' : Machine}
    (hstored : m.listing.Stored) (hnonneg : ∀ line ∈ m.listing.lines, 0 ≤ line.number)
    (hlines : m'.listing.lines = m.listing.lines.map (Line.renumber (renumbering r)))
    (hdepth : m'.maxDepth = m.maxDepth) (n : Nat) :
    ((∀ outcome, (m.start.steps n).ending? = some (.ok outcome) →
        (outcome.renumber (renumbering r)).isWritable = true) →
      Step.Matches (renumbering r) m m' (m.start.steps n) (m'.start.steps n)) ∧
    (∀ outcome, (m.start.steps n).ending? = some (.ok outcome) →
      (outcome.renumber (renumbering r)).isWritable = false →
      Step.MatchesUnreported (renumbering r) m m' (m.start.steps n) (m'.start.steps n)) := by
  have hlines' : m'.start.listing.lines =
      m.start.listing.lines.map (Line.renumber (renumbering r)) := hlines
  have hlength : m'.listing.lines.length = m.listing.lines.length := by
    rw [hlines, List.length_map]
  have hcounts : List.Forall₂ (fun line line' : Line => line.kind.CountsAs line'.kind)
      m.start.listing.lines m'.start.listing.lines := by
    rw [hlines', List.forall₂_map_right_iff, List.forall₂_same]
    exact fun line _ => Or.inl rfl
  have hfits : (Guise.ofRun m' (renumbering r)).Fits m.start.listing := by
    refine ⟨fun k hk => ?_, Listing.matchingNext?_eq_of_countsAs hcounts,
      fun k => isWritable_renumbering hr⟩
    show m'.start.listing.indexOf? (renumbering r k) = m.start.listing.indexOf? k
    rw [Listing.indexOf?, hlines']
    exact findIdx?_renumbered hr hnonneg hk
  -- Every line is the renumbered one, wherever the run comes.
  have hagrees : ∀ k s, m.start.steps k = .running s →
      (Guise.ofRun m' (renumbering r)).AgreesAt m.start.listing s.pc := by
    intro k s _
    show m'.start.listing.lines[s.pc]? = _
    rw [hlines', List.getElem?_map]
    rfl
  exact ⟨Guise.matches_steps hdepth hlength hfits hstored hagrees,
    fun _ => Guise.matchesUnreported_steps hdepth hlength hfits hstored hagrees⟩

/-- A jump to a line that there is, and one to a line that there is not. -/
theorem matches_renumbered_missing :
    ∃ m m' : Machine, m.listing.Stored ∧ (∀ line ∈ m.listing.lines, 0 ≤ line.number) ∧
      m'.listing.lines = m.listing.lines.map (Line.renumber (renumbering (100 * ·))) ∧
      m'.maxDepth = m.maxDepth ∧
      (m.start.steps 2).ending? = some (.ok (.halted 30 (.noSuchLine .THEN 40))) ∧
      (m'.start.steps 2).ending? = some (.ok (.halted 3000 (.noSuchLine .THEN 4000))) := by
  let edits : List Edit :=
    [.insert 10 "GOTO 30", .insert 20 "PRINT 1", .insert 30 "IF 1 THEN 40"]
  obtain ⟨l, hl⟩ : ∃ l, l = ({ capacity := 3 } : Listing).applyAll edits := ⟨_, rfl⟩
  have hstored : l.Stored := ⟨3, edits, hl⟩
  have hnumbers : l.lines.map (·.number) = [10, 20, 30] := by
    rw [hl]
    decide +kernel
  have hnonneg : ∀ line ∈ l.lines, 0 ≤ line.number := by
    intro line hline
    have hmem : line.number ∈ l.lines.map (·.number) := List.mem_map_of_mem hline
    rw [hnumbers] at hmem
    simp only [List.mem_cons, List.not_mem_nil, or_false] at hmem
    omega
  have hr : StrictMono (100 * · : Nat → Nat) := fun a b h => by
    show 100 * a < 100 * b
    omega
  let m : Machine := { listing := l }
  let m' : Machine :=
    { listing := { lines := l.lines.map (Line.renumber (renumbering (100 * ·))) } }
  have hending : (m.start.steps 2).ending? = some (.ok (.halted 30 (.noSuchLine .THEN 40))) := by
    show ((Machine.start { listing := l }).steps 2).ending? = _
    rw [hl]
    decide +kernel
  have hlines : m'.listing.lines = m.listing.lines.map (Line.renumber (renumbering (100 * ·))) :=
    rfl
  have hdepth : m'.maxDepth = m.maxDepth := rfl
  have hwritable : ∀ outcome, (m.start.steps 2).ending? = some (.ok outcome) →
      (outcome.renumber (renumbering (100 * ·))).isWritable = true := by
    intro outcome houtcome
    obtain rfl := Except.ok.inj (Option.some.inj (hending.symm.trans houtcome))
    decide
  have hmatches := (matches_renumbered hr hstored hnonneg hlines hdepth 2).1 hwritable
  refine ⟨m, m', hstored, hnonneg, hlines, hdepth, hending, ?_⟩
  rw [hmatches.ending_eq, hending]
  rfl

/-- A line with no statement in it, once with a number that is read back and once with one that is
    too long to be written: the one run ends with a report, the other with a fault. -/
theorem renumbered_run_breaks_off :
    ∃ (r : Nat → Nat) (m m' : Machine) (e : Misread), StrictMono r ∧ m.listing.Stored ∧
      (∀ line ∈ m.listing.lines, 0 ≤ line.number) ∧
      m'.listing.lines = m.listing.lines.map (Line.renumber (renumbering r)) ∧
      m'.maxDepth = m.maxDepth ∧
      (m.start.steps 1).ending? = some (.ok (.halted 10 (.misread e))) ∧
      (m'.start.steps 1).ending? = some (.error .unwritable) := by
  let e : Misread := ⟨.unknownStatement "FOO", some 2⟩
  obtain ⟨large, hlarge⟩ : ∃ n, n = 10 ^ Text.maxDigits := ⟨_, rfl⟩
  let r : Nat → Nat := (· + large)
  let m : Machine := { listing := { lines := [⟨10, "FOO", .ASSIGN, .error e⟩] } }
  let m' : Machine :=
    { listing := { lines := m.listing.lines.map (Line.renumber (renumbering r)) } }
  have hr : StrictMono r := fun a b h => Nat.add_lt_add_right h _
  have hstored : m.listing.Stored := ⟨1000, [.insert 10 "FOO"], rfl⟩
  have hlong : Text.isWritable (renumbering r 10) = false := by
    rw [Text.isWritable_eq_false_iff, ← hlarge]
    exact Nat.le_add_left large 10
  refine ⟨r, m, m', e, hr, hstored, by simp [m], rfl, rfl, by decide +kernel, ?_⟩
  have hline : m'.start.listing.lines[m'.start.pc]? =
      some ⟨renumbering r 10, "FOO", .ASSIGN, .error e⟩ := rfl
  have hstep : m'.start.step = .faulted m'.start .unwritable := by
    rw [Machine.step_of_misread hline rfl, Machine.halt_of_not_isWritable _ hlong]
  rw [Machine.steps, hstep]
  rfl

end LineBasic
