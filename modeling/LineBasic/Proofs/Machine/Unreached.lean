/-
  LineBasic.Proofs.Machine.Unreached

  A line that is not executed matters only as a bracket. Runs read such lines where they look for a
  line number and where they count loops, so the text of the line is free as long as it opens or
  closes a loop as before; in particular it need not parse.
-/
import LineBasic.Proofs.Listing.Nesting
import LineBasic.Proofs.Listing.RoundTrip
import LineBasic.Proofs.Machine.TwoRuns

namespace LineBasic

/-! ## Lines with the same text -/

namespace Listing

variable {l l' : Listing}

/-- Where two listings with the same numbers have the same text, they have the same line. -/
theorem getElem?_eq_of_text (hl : l.Sound) (hl' : l'.Sound)
    (hnumbers : l'.lines.map (·.number) = l.lines.map (·.number)) {i : Nat}
    (htext : l'.lines[i]?.map (·.text) = l.lines[i]?.map (·.text)) :
    l'.lines[i]? = l.lines[i]? := by
  have hnumber : l'.lines[i]?.map (·.number) = l.lines[i]?.map (·.number) := by
    rw [← List.getElem?_map, hnumbers, List.getElem?_map]
  cases hline : l.lines[i]? with
  | none =>
      rw [hline] at htext
      exact Option.map_eq_none_iff.mp htext
  | some line =>
      rw [hline] at htext hnumber
      obtain ⟨line', hline', htext'⟩ := Option.map_eq_some_iff.mp htext
      rw [hline'] at hnumber ⊢
      rw [(hl.lines line (List.mem_of_getElem? hline)).eq_of_text
        (hl'.lines line' (List.mem_of_getElem? hline')) (Option.some.inj hnumber) htext']

theorem indexOf?_eq_of_numbers (h : l'.lines.map (·.number) = l.lines.map (·.number)) (n : Int) :
    l'.indexOf? n = l.indexOf? n := by
  have hnumbers : ∀ l : Listing, l.indexOf? n = (l.lines.map (·.number)).findIdx? (· = n) := by
    intro l
    rw [List.findIdx?_map]
    rfl
  rw [hnumbers, hnumbers, h]

end Listing

/-! ## Runs -/

/-- Two listings with the same numbers that differ in the text of one line, which counts the same
    among loops: if the run of the first never comes to that line, the run of the second is the same
    at every point, and reports the same. -/
theorem run_eq_of_unreached {m m' : Machine} {k : Nat} (hstored : m.listing.Stored)
    (hstored' : m'.listing.Stored) (hdepth : m'.maxDepth = m.maxDepth)
    (hnumbers : m'.listing.lines.map (·.number) = m.listing.lines.map (·.number))
    (htexts : ∀ i, i ≠ k →
      m'.listing.lines[i]?.map (·.text) = m.listing.lines[i]?.map (·.text))
    (hkinds : ∀ line line', m.listing.lines[k]? = some line → m'.listing.lines[k]? = some line' →
      line.kind.CountsAs line'.kind)
    (hunreached : ∀ n s, m.start.steps n = .running s → s.pc ≠ k) (n : Nat) :
    (m'.start.steps n).machine.memory = (m.start.steps n).machine.memory ∧
    (m'.start.steps n).machine.frames = (m.start.steps n).machine.frames ∧
    (m'.start.steps n).machine.pc = (m.start.steps n).machine.pc ∧
    (m'.start.steps n).ending? = (m.start.steps n).ending? ∧
    ∃ events : List Event, (m.start.steps n).machine.log.toList = m.log.toList ++ events ∧
      (m'.start.steps n).machine.log.toList = m'.log.toList ++ events := by
  have hsame : ∀ i, i ≠ k → m'.listing.lines[i]? = m.listing.lines[i]? := fun i hi =>
    Listing.getElem?_eq_of_text hstored.sound hstored'.sound hnumbers (htexts i hi)
  have hlength : m'.listing.lines.length = m.listing.lines.length := by
    simpa using congrArg List.length hnumbers
  have hcounts : List.Forall₂ (fun line line' : Line => line.kind.CountsAs line'.kind)
      m.start.listing.lines m'.start.listing.lines := by
    refine List.forall₂_iff_get.mpr ⟨hlength.symm, fun i hi hi' => ?_⟩
    have hline : m.listing.lines[i]? = some m.listing.lines[i] := List.getElem?_eq_getElem hi
    have hline' : m'.listing.lines[i]? = some m'.listing.lines[i] := List.getElem?_eq_getElem hi'
    by_cases hk : i = k
    · subst hk
      exact hkinds _ _ hline hline'
    · have heq : m'.listing.lines[i] = m.listing.lines[i] :=
        Option.some.inj (hline'.symm.trans ((hsame i hk).trans hline))
      exact Or.inl (congrArg Line.kind heq)
  have hfits : (Guise.ofRun m' id).Fits m.start.listing :=
    ⟨fun j _ => Listing.indexOf?_eq_of_numbers hnumbers j,
      Listing.matchingNext?_eq_of_countsAs hcounts, fun _ h => h⟩
  have hmatches : Step.Matches id m m' (m.start.steps n) (m'.start.steps n) := by
    refine Guise.matches_steps_id hdepth hlength hfits hstored fun j s hs => ?_
    show m'.listing.lines[s.pc]? = m.listing.lines[s.pc]?.map (Line.renumber id)
    rw [hsame s.pc (hunreached j s hs), Line.renumber_id, Option.map_id, id]
  obtain ⟨events, hlog, hlog'⟩ := hmatches.events_eq
  refine ⟨hmatches.memory_eq, hmatches.frames_eq, hmatches.pc_eq, ?_, events, hlog, ?_⟩
  · rw [hmatches.ending_eq, Outcome.renumber_id, Except.map_id, Option.map_id, id]
  · rw [hlog', Event.renumber_id, List.map_id]

/-- A line behind a jump, once with a statement and once with a text that is none. -/
theorem run_eq_of_unreached_misread :
    ∃ m m' : Machine, m.listing.Stored ∧ m'.listing.Stored ∧
      m.listing.lines.map (·.text) = ["GOTO 30", "GOTO 10", "END"] ∧
      m'.listing.lines.map (·.text) = ["GOTO 30", "PRINT (", "END"] ∧
      (∀ n s, m.start.steps n = .running s → s.pc ≠ 1) ∧
      (m'.start.steps 2).ending? = some (.ok (.ended 30)) := by
  let edits (text : String) : List Edit :=
    [.insert 10 "GOTO 30", .insert 20 text, .insert 30 "END"]
  let first : Line := ⟨10, "GOTO 30", .GOTO, .ok (.goto 30)⟩
  let last : Line := ⟨30, "END", .END, .ok .stop⟩
  let m : Machine :=
    { listing := { lines := [first, ⟨20, "GOTO 10", .GOTO, .ok (.goto 10)⟩, last], capacity := 3 } }
  let m' : Machine :=
    { listing := { lines := [first, ⟨20, "PRINT (", .PRINT,
        .error ⟨.malformed .PRINT "PRINT (", some 7⟩⟩, last], capacity := 3 } }
  have hstored : m.listing.Stored := ⟨3, edits "GOTO 10", rfl⟩
  have hstored' : m'.listing.Stored := ⟨3, edits "PRINT (", rfl⟩
  have hunreached : ∀ n s, m.start.steps n = .running s → s.pc ≠ 1 := by
    intro n s hs
    match n with
    | 0 =>
        obtain rfl := Step.running.inj hs
        decide
    | 1 =>
        obtain rfl := Step.running.inj hs
        decide
    | n + 2 => cases hs
  have htexts : ∀ i, i ≠ 1 →
      m'.listing.lines[i]?.map (·.text) = m.listing.lines[i]?.map (·.text) := by
    intro i hi
    match i with
    | 0 => rfl
    | 1 => exact absurd rfl hi
    | 2 => rfl
    | i + 3 => rfl
  have hkinds : ∀ line line', m.listing.lines[1]? = some line → m'.listing.lines[1]? = some line' →
      line.kind.CountsAs line'.kind := by
    intro line line' hline hline'
    obtain rfl := Option.some.inj hline
    obtain rfl := Option.some.inj hline'
    exact Or.inr (by decide)
  have hrun := run_eq_of_unreached (k := 1) hstored hstored' rfl rfl htexts hkinds hunreached 2
  refine ⟨m, m', hstored, hstored', rfl, rfl, hunreached, ?_⟩
  rw [hrun.2.2.2.1]
  rfl

end LineBasic
