/-
  LineBasic.Proofs.Listing.ClosingNext

  The `NEXT` line that closes a loop, said without counting line by line, and in two ways: it is the
  first line up to which there is one `NEXT` more than there are `FOR`s, and it is the `NEXT` line
  behind a block of whole loops. `Listing.finds_closing_next` says that counting finds this line in
  both senses, and none where there is none.

  Counting starts one loop deep but is at other depths on its way. So the first sense is stated for
  the line that closes `depth` loops (`Closes`), and a block is passed at any depth
  (`WellNested.matchingNext?_append`).
-/
import LineBasic.Proofs.Listing.Nesting

namespace LineBasic

/-- There is a line at the index, and it is a `NEXT` line. -/
def NextAt (lines : List Line) (i : Nat) : Prop :=
  ∃ line, lines[i]? = some line ∧ line.kind = .NEXT

/-- The lines hold `depth` more `NEXT` lines than `FOR` lines. -/
def Surplus (depth : Nat) (lines : List Line) : Prop :=
  lines.countP (·.kind = .NEXT) = lines.countP (·.kind = .FOR) + depth

/-- The `NEXT` line at `i` closes `depth` loops that are open before `start`: the lines from `start`
    up to it are the first that hold so many more `NEXT` lines than `FOR` lines. -/
structure Closes (depth : Nat) (lines : List Line) (start i : Nat) : Prop where
  start_le : start ≤ i
  nextAt : NextAt lines i
  surplus : Surplus depth (lines.extract start (i + 1))
  first : ∀ j, start ≤ j → j < i → ¬Surplus depth (lines.extract start (j + 1))

/-- A block of whole loops, one behind the other and one in the other, with lines of other kinds
    anywhere between. Whether the lines parse is not asked. -/
inductive WellNested : List Line → Prop
  | nil : WellNested []
  | plain {line : Line} {rest : List Line} (hfor : line.kind ≠ .FOR) (hnext : line.kind ≠ .NEXT)
      (hrest : WellNested rest) : WellNested (line :: rest)
  | loop {opening closing : Line} {body rest : List Line} (hfor : opening.kind = .FOR)
      (hbody : WellNested body) (hnext : closing.kind = .NEXT) (hrest : WellNested rest) :
      WellNested (opening :: (body ++ closing :: rest))

variable {depth i k start : Nat} {line : Line} {lines rest : List Line}

/-! ## The first line with the surplus -/

theorem surplus_nil : Surplus depth [] ↔ depth = 0 := by
  simp only [Surplus, List.countP_nil]
  omega

theorem surplus_FOR (h : line.kind = .FOR) :
    Surplus depth (line :: rest) ↔ Surplus (depth + 1) rest := by
  rw [Surplus, Surplus, List.countP_cons_of_neg (by simp [h]),
    List.countP_cons_of_pos (by simp [h])]
  omega

theorem surplus_NEXT (h : line.kind = .NEXT) :
    Surplus (depth + 1) (line :: rest) ↔ Surplus depth rest := by
  rw [Surplus, Surplus, List.countP_cons_of_pos (by simp [h]),
    List.countP_cons_of_neg (by simp [h])]
  omega

theorem surplus_other (hfor : line.kind ≠ .FOR) (hnext : line.kind ≠ .NEXT) :
    Surplus depth (line :: rest) ↔ Surplus depth rest := by
  simp [Surplus, hfor, hnext]

/-- Lines before the start do not matter. -/
theorem closes_drop :
    Closes depth (lines.drop start) 0 k ↔ Closes depth lines start (start + k) := by
  have hsegment : ∀ j, (lines.drop start).extract 0 (j + 1) =
      lines.extract start (start + j + 1) := by
    intro j
    rw [List.extract_eq_take_drop, List.extract_eq_take_drop, List.drop_zero, Nat.sub_zero,
      Nat.add_assoc, Nat.add_sub_cancel_left]
  have hnext : NextAt (lines.drop start) k ↔ NextAt lines (start + k) := by
    rw [NextAt, NextAt, List.getElem?_drop]
  constructor
  · intro h
    refine ⟨by omega, hnext.mp h.nextAt, hsegment k ▸ h.surplus, ?_⟩
    intro j hle hj
    obtain ⟨d, rfl⟩ := Nat.exists_eq_add_of_le hle
    rw [← hsegment]
    exact h.first d (Nat.zero_le d) (by omega)
  · intro h
    refine ⟨Nat.zero_le k, hnext.mpr h.nextAt, hsegment k ▸ h.surplus, ?_⟩
    intro j _ hj
    rw [hsegment]
    exact h.first (start + j) (by omega) (by omega)

/-- Behind a line that is not the one looked for, its part in the surplus is made good by the
    depth. -/
theorem closes_succ {depth' : Nat} (hhead : ¬Surplus depth [line])
    (hcons : ∀ segment, Surplus depth (line :: segment) ↔ Surplus depth' segment) :
    Closes depth (line :: rest) 0 (k + 1) ↔ Closes depth' rest 0 k := by
  have hsegment : ∀ j, Surplus depth ((line :: rest).extract 0 (j + 1 + 1)) ↔
      Surplus depth' (rest.extract 0 (j + 1)) := fun j => hcons (rest.take (j + 1))
  constructor
  · intro h
    refine ⟨Nat.zero_le k, h.nextAt, (hsegment k).mp h.surplus, ?_⟩
    intro j _ hj
    rw [← hsegment]
    exact h.first (j + 1) (Nat.zero_le _) (by omega)
  · intro h
    refine ⟨Nat.zero_le _, h.nextAt, (hsegment k).mpr h.surplus, ?_⟩
    intro j _ hj
    cases j with
    | zero => exact hhead
    | succ j =>
        rw [hsegment]
        exact h.first j (Nat.zero_le j) (by omega)

/-- One loop is closed by a `NEXT` line at the head, and by no other. -/
theorem closes_one_NEXT (h : line.kind = .NEXT) : Closes 1 (line :: rest) 0 k ↔ k = 0 := by
  have hsurplus : Surplus 1 [line] := (surplus_NEXT h).mpr (surplus_nil.mpr rfl)
  constructor
  · intro hcloses
    by_contra hk
    exact hcloses.first 0 (Nat.le_refl 0) (by omega) hsurplus
  · rintro rfl
    exact ⟨Nat.le_refl 0, ⟨line, rfl, h⟩, hsurplus, fun j _ hj => absurd hj (Nat.not_lt_zero j)⟩

/-- Counting finds the line that closes as many loops as it is deep. -/
theorem matchingNext?_eq_some_iff :
    matchingNext? (depth + 1) i lines = some (i + k) ↔ Closes (depth + 1) lines 0 k := by
  -- Over the lines, with the depth and the indices free, as every line counted changes them.
  induction lines generalizing depth i k with
  | nil =>
      refine ⟨fun h => by simp [matchingNext?] at h, ?_⟩
      intro h
      obtain ⟨line, hline, -⟩ := h.nextAt
      simp at hline
  | cons line rest ih =>
      -- A line that is passed is not the line looked for, and counting goes on behind it.
      have hpassed : ∀ {depth' : Nat},
          (∀ segment, Surplus (depth + 1) (line :: segment) ↔ Surplus (depth' + 1) segment) →
          (matchingNext? (depth' + 1) (i + 1) rest = some (i + k) ↔
            Closes (depth + 1) (line :: rest) 0 k) := by
        intro depth' hcons
        have hhead : ¬Surplus (depth + 1) [line] := by
          rw [hcons, surplus_nil]
          omega
        cases k with
        | zero =>
            refine ⟨?_, fun h => absurd h.surplus hhead⟩
            intro h
            have hbounds := matchingNext?_bounds h
            omega
        | succ k => rw [closes_succ hhead hcons, Nat.add_left_comm, Nat.add_comm k, ih]
      by_cases hfor : line.kind = .FOR
      · rw [matchingNext?_FOR hfor]
        exact hpassed fun _ => surplus_FOR hfor
      · by_cases hnext : line.kind = .NEXT
        · cases depth with
          | zero =>
              rw [matchingNext?_NEXT_one hnext, closes_one_NEXT hnext, Option.some.injEq]
              omega
          | succ depth =>
              rw [matchingNext?_NEXT hnext]
              exact hpassed fun _ => surplus_NEXT hnext
        · rw [matchingNext?_other hfor hnext]
          exact hpassed fun _ => surplus_other hfor hnext

/-! ## The line behind a block -/

/-- Counting passes a block of whole loops and is as deep behind it as before. -/
theorem WellNested.matchingNext?_append {block : List Line} (h : WellNested block) (depth i : Nat)
    (rest : List Line) :
    matchingNext? (depth + 1) i (block ++ rest) =
      matchingNext? (depth + 1) (i + block.length) rest := by
  induction h generalizing depth i rest with
  | nil => rfl
  | plain hfor hnext hrest ih =>
      rw [List.cons_append, matchingNext?_other hfor hnext, ih, List.length_cons,
        Nat.add_right_comm, Nat.add_assoc]
  | @loop opening closing body behind hfor hbody hnext hbehind ihbody ihbehind =>
      rw [List.cons_append, matchingNext?_FOR hfor, List.append_assoc, ihbody, List.cons_append,
        matchingNext?_NEXT hnext, ihbehind]
      congr 1
      rw [List.length_cons, List.length_append, List.length_cons]
      omega

/-- Where counting finds a line, there is a `NEXT` line behind a block of whole loops. -/
theorem exists_block {j : Nat} (h : matchingNext? (depth + 1) i lines = some j) :
    ∃ block line rest, lines = block ++ line :: rest ∧ WellNested block ∧ line.kind = .NEXT := by
  -- Over the number of lines: behind a `FOR` line there is first the body of its loop, and then
  -- the rest of the block, among fewer lines.
  induction hn : lines.length using Nat.strongRecOn generalizing depth i lines with
  | _ n ih =>
      cases lines with
      | nil => simp [matchingNext?] at h
      | cons line rest =>
          rw [List.length_cons] at hn
          by_cases hfor : line.kind = .FOR
          · rw [matchingNext?_FOR hfor] at h
            obtain ⟨body, closing, behind, rfl, hbody, hclosing⟩ := ih _ (by omega) h rfl
            rw [hbody.matchingNext?_append, matchingNext?_NEXT hclosing] at h
            rw [List.length_append, List.length_cons] at hn
            obtain ⟨block, last, behind, rfl, hblock, hlast⟩ := ih _ (by omega) h rfl
            exact ⟨line :: (body ++ closing :: block), last, behind, by simp,
              .loop hfor hbody hclosing hblock, hlast⟩
          · by_cases hnext : line.kind = .NEXT
            · exact ⟨[], line, rest, rfl, .nil, hnext⟩
            · rw [matchingNext?_other hfor hnext] at h
              obtain ⟨block, last, behind, rfl, hblock, hlast⟩ := ih _ (by omega) h rfl
              exact ⟨line :: block, last, behind, rfl, .plain hfor hnext hblock, hlast⟩

namespace Listing

variable {l : Listing}

theorem matchingNext?_iff_closes (start i : Nat) :
    l.matchingNext? start = some i ↔ Closes 1 l.lines start i := by
  constructor
  · intro h
    obtain ⟨k, rfl⟩ := Nat.exists_eq_add_of_le (matchingNext?_bounds h).1
    exact closes_drop.mp (matchingNext?_eq_some_iff.mp h)
  · intro h
    obtain ⟨k, rfl⟩ := Nat.exists_eq_add_of_le h.start_le
    exact matchingNext?_eq_some_iff.mpr (closes_drop.mpr h)

theorem matchingNext?_iff_wellNested (start i : Nat) :
    l.matchingNext? start = some i ↔
      start ≤ i ∧ WellNested (l.lines.extract start i) ∧ NextAt l.lines i := by
  constructor
  · intro h
    obtain ⟨block, line, rest, hlines, hblock, hnext⟩ := exists_block h
    rw [Listing.matchingNext?, hlines, hblock.matchingNext?_append, matchingNext?_NEXT_one hnext]
      at h
    obtain rfl := Option.some.inj h
    refine ⟨Nat.le_add_right .., ?_, line, ?_, hnext⟩
    · rw [List.extract_eq_take_drop, hlines, Nat.add_sub_cancel_left, List.take_left]
      exact hblock
    · rw [← List.getElem?_drop, hlines, List.getElem?_append_right (Nat.le_refl _), Nat.sub_self]
      rfl
  · rintro ⟨hle, hblock, line, hline, hnext⟩
    obtain ⟨hi, rfl⟩ := List.getElem?_eq_some_iff.mp hline
    have hlines : l.lines.drop start =
        l.lines.extract start i ++ l.lines[i] :: l.lines.drop (i + 1) := by
      have hdrop : l.lines.drop i = (l.lines.drop start).drop (i - start) := by
        rw [List.drop_drop, Nat.add_sub_cancel' hle]
      rw [List.extract_eq_take_drop, ← List.drop_eq_getElem_cons hi, hdrop, List.take_append_drop]
    have hlength : (l.lines.extract start i).length = i - start := by
      rw [List.extract_eq_take_drop, List.length_take, List.length_drop]
      omega
    rw [Listing.matchingNext?, hlines, hblock.matchingNext?_append, hlength,
      Nat.add_sub_cancel' hle]
    exact matchingNext?_NEXT_one hnext

/-- Counting from a line finds the `NEXT` line that closes the loop around it, and no other: the
    first line up to which there is one `NEXT` more than there are `FOR`s, if there is one, which is
    the `NEXT` line behind a block of whole loops, whatever comes behind it. -/
theorem finds_closing_next (l : Listing) (start : Nat) :
    (∀ i, l.matchingNext? start = some i ↔ Closes 1 l.lines start i) ∧
    (l.matchingNext? start = none ↔ ¬∃ i, Closes 1 l.lines start i) ∧
    ∀ i, l.matchingNext? start = some i ↔
      start ≤ i ∧ WellNested (l.lines.extract start i) ∧ NextAt l.lines i := by
  refine ⟨matchingNext?_iff_closes start, ?_, matchingNext?_iff_wellNested start⟩
  simp only [← matchingNext?_iff_closes, Option.eq_none_iff_forall_ne_some, not_exists, ne_eq]

/-- The inner loop counts although neither of its lines parses, and the last line is not reached. -/
example :
    let text := "10 FOR I = 2 TO 1\n20 FOR J\n30 NEXT 5\n40 NEXT I\n50 NEXT"
    (({} : Listing).load text.toList).listing.matchingNext? 1 = some 3 := by
  decide +kernel

end Listing

end LineBasic
