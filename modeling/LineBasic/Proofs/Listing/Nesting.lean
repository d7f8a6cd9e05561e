/-
  LineBasic.Proofs.Listing.Nesting

  The loops of a listing as brackets: a `FOR` line opens one, a `NEXT` line closes the last that is
  open, and all other lines, whether they parse or not, leave the brackets alone.

  `openLoops` scans from the first line on and keeps the open brackets. Counting, as
  `matchingNext?` does it, keeps only how many were opened behind a given one; the two agree
  wherever they meet (`matchingNext?_of_open`, `openLoops_of_matchingNext?`).
-/
import LineBasic.Machine.Exec
import Mathlib.Data.List.Forall2

namespace LineBasic

/-- The open loops behind a line with a kind and an index, the last opened first. -/
def nest (opened : List Nat) (index : Nat) : Kind → List Nat
  | .FOR => index :: opened
  | .NEXT => opened.tail
  | _ => opened

/-- The open loops behind lines, counted from the index of the first of them. -/
def openLoops (opened : List Nat) (index : Nat) : List Line → List Nat
  | [] => opened
  | line :: rest => openLoops (nest opened index line.kind) (index + 1) rest

/-- The indices of the `FOR` lines left open before a line, the last opened first. -/
def Listing.openLoops (l : Listing) (index : Nat) : List Nat :=
  LineBasic.openLoops [] 0 (l.lines.take index)

/-! ## Scanning -/

theorem openLoops_append (opened : List Nat) (index : Nat) (xs ys : List Line) :
    openLoops opened index (xs ++ ys) =
      openLoops (openLoops opened index xs) (index + xs.length) ys := by
  induction xs generalizing opened index with
  | nil => rfl
  | cons line rest ih =>
      simp only [List.cons_append, openLoops, ih, List.length_cons]
      rw [Nat.add_assoc, Nat.add_comm 1]

namespace Listing

variable {l : Listing} {i : Nat} {line : Line}

theorem openLoops_zero : l.openLoops 0 = [] := rfl

/-- One line more is scanned. -/
theorem openLoops_succ (h : l.lines[i]? = some line) :
    l.openLoops (i + 1) = nest (l.openLoops i) i line.kind := by
  obtain ⟨hi, rfl⟩ := List.getElem?_eq_some_iff.mp h
  have hlen : (l.lines.take i).length = i := by
    rw [List.length_take]
    omega
  rw [Listing.openLoops, Listing.openLoops, List.take_succ_eq_append_getElem hi, openLoops_append,
    hlen, Nat.zero_add]
  rfl

/-- Scanning goes on from where it was. -/
theorem openLoops_add (hi : i ≤ l.lines.length) (count : Nat) :
    l.openLoops (i + count) =
      LineBasic.openLoops (l.openLoops i) i ((l.lines.drop i).take count) := by
  have hlen : (l.lines.take i).length = i := by
    rw [List.length_take]
    omega
  rw [Listing.openLoops, Listing.openLoops, List.take_add, openLoops_append, hlen, Nat.zero_add]

end Listing

/-! ## Counting -/

section Counting

variable {depth i : Nat} {line : Line} {rest : List Line}

theorem matchingNext?_FOR (h : line.kind = .FOR) :
    matchingNext? depth i (line :: rest) = matchingNext? (depth + 1) (i + 1) rest := by
  simp only [matchingNext?, h]

theorem matchingNext?_NEXT_one (h : line.kind = .NEXT) :
    matchingNext? 1 i (line :: rest) = some i := by
  simp only [matchingNext?, h, Nat.le_refl, if_true]

theorem matchingNext?_NEXT (h : line.kind = .NEXT) :
    matchingNext? (depth + 2) i (line :: rest) = matchingNext? (depth + 1) (i + 1) rest := by
  simp [matchingNext?, h]

theorem matchingNext?_other (hfor : line.kind ≠ .FOR) (hnext : line.kind ≠ .NEXT) :
    matchingNext? depth i (line :: rest) = matchingNext? depth (i + 1) rest := by
  cases h : line.kind with
  | FOR => exact absurd h hfor
  | NEXT => exact absurd h hnext
  | _ => simp only [matchingNext?, h]

theorem nest_other {opened : List Nat} {kind : Kind} (hfor : kind ≠ .FOR) (hnext : kind ≠ .NEXT) :
    nest opened i kind = opened := by
  cases kind with
  | FOR => exact absurd rfl hfor
  | NEXT => exact absurd rfl hnext
  | _ => rfl

/-- Counting stops at one of the lines. -/
theorem matchingNext?_bounds {lines : List Line} {j : Nat}
    (h : matchingNext? depth i lines = some j) : i ≤ j ∧ j < i + lines.length := by
  induction lines generalizing depth i with
  | nil => simp [matchingNext?] at h
  | cons line rest ih =>
      -- Unless counting stops here, it stops at one of the lines behind.
      have hlater : ∀ {depth}, matchingNext? depth (i + 1) rest = some j →
          i ≤ j ∧ j < i + (line :: rest).length := by
        intro depth hrest
        have hbounds := ih hrest
        rw [List.length_cons]
        omega
      simp only [matchingNext?] at h
      split at h
      · exact hlater h
      · split at h
        · obtain rfl := Option.some.inj h
          rw [List.length_cons]
          omega
        · exact hlater h
      · exact hlater h

/-- A line of the second kind counts as one of the first: it opens or closes a loop as that does, or
    neither has to do with loops. -/
def Kind.CountsAs (kind kind' : Kind) : Prop :=
  kind' = kind ∨ (kind ≠ .FOR ∧ kind ≠ .NEXT) ∧ kind' ≠ .FOR ∧ kind' ≠ .NEXT

/-- Counting looks at nothing but whether lines open or close a loop. -/
theorem matchingNext?_congr {lines lines' : List Line}
    (h : List.Forall₂ (fun line line' => line.kind.CountsAs line'.kind) lines lines') :
    matchingNext? depth i lines' = matchingNext? depth i lines := by
  induction h generalizing depth i with
  | nil => rfl
  | cons hkind hrest ih =>
      rcases hkind with hsame | ⟨⟨hfor, hnext⟩, hfor', hnext'⟩
      · simp only [matchingNext?, hsame, ih]
      · rw [matchingNext?_other hfor hnext, matchingNext?_other hfor' hnext', ih]

/-- Counting that is `inner.length` loops deep stops where scanning has closed all of them. -/
theorem openLoops_of_matchingNext? {inner : List Nat} (outer : List Nat) {lines : List Line}
    {j : Nat} (hinner : inner ≠ []) (h : matchingNext? inner.length i lines = some j) :
    i ≤ j ∧ openLoops (inner ++ outer) i (lines.take (j + 1 - i)) = outer := by
  -- Over the lines; `inner` holds the loops that counting knows only the number of.
  induction lines generalizing inner i with
  | nil => simp [matchingNext?] at h
  | cons line rest ih =>
      -- One line is scanned, and the rest from the index behind it.
      have hscan : ∀ opened : List Nat, i + 1 ≤ j →
          openLoops opened i ((line :: rest).take (j + 1 - i)) =
            openLoops (nest opened i line.kind) (i + 1) (rest.take (j + 1 - (i + 1))) := by
        intro opened hle
        rw [show j + 1 - i = j + 1 - (i + 1) + 1 by omega, List.take_succ_cons]
        rfl
      by_cases hfor : line.kind = .FOR
      · rw [matchingNext?_FOR hfor] at h
        obtain ⟨hle, hclosed⟩ := ih (List.cons_ne_nil i inner) h
        refine ⟨by omega, ?_⟩
        rw [hscan _ hle, hfor]
        exact hclosed
      · by_cases hnext : line.kind = .NEXT
        · obtain ⟨a, inner, rfl⟩ := List.exists_cons_of_ne_nil hinner
          cases inner with
          | nil =>
              rw [List.length_singleton, matchingNext?_NEXT_one hnext] at h
              obtain rfl := Option.some.inj h
              refine ⟨Nat.le_refl i, ?_⟩
              rw [Nat.add_sub_cancel_left, List.take_succ_cons, List.take_zero]
              simp only [openLoops, hnext, nest, List.cons_append, List.nil_append, List.tail_cons]
          | cons b inner =>
              rw [List.length_cons, List.length_cons, matchingNext?_NEXT hnext] at h
              obtain ⟨hle, hclosed⟩ := ih (List.cons_ne_nil b inner) h
              refine ⟨by omega, ?_⟩
              rw [hscan _ hle, hnext]
              exact hclosed
        · rw [matchingNext?_other hfor hnext] at h
          obtain ⟨hle, hclosed⟩ := ih hinner h
          refine ⟨by omega, ?_⟩
          rw [hscan _ hle, nest_other hfor hnext]
          exact hclosed

end Counting

/-! ## Scanning and counting agree -/

namespace Listing

variable {l : Listing} {i f : Nat} {outer : List Nat} {line : Line}

theorem matchingNext?_eq_of_countsAs {l' : Listing}
    (h : List.Forall₂ (fun line line' => line.kind.CountsAs line'.kind) l.lines l'.lines)
    (start : Nat) : l'.matchingNext? start = l.matchingNext? start :=
  matchingNext?_congr (List.forall₂_drop start h)

theorem lt_of_matchingNext? {start : Nat} (h : l.matchingNext? start = some i) :
    i < l.lines.length := by
  have hbounds := matchingNext?_bounds h
  rw [List.length_drop] at hbounds
  omega

/-- A loop that is open before a line was opened last behind its own `FOR` line, and counting from
    there has come to as many loops as were opened inside it. -/
theorem counting_of_open (inner : List Nat) (hi : i ≤ l.lines.length)
    (h : l.openLoops i = inner ++ f :: outer) :
    l.openLoops (f + 1) = f :: outer ∧
      l.matchingNext? (f + 1) = LineBasic.matchingNext? (inner.length + 1) i (l.lines.drop i) := by
  -- Over the scanned lines; the loops inside this one vary, as lines open and close them.
  induction i generalizing inner with
  | zero => simp [openLoops_zero] at h
  | succ i ih =>
      have hlt : i < l.lines.length := by omega
      obtain ⟨line, hline⟩ : ∃ line, l.lines[i]? = some line :=
        ⟨_, List.getElem?_eq_getElem hlt⟩
      have hdrop : l.lines.drop i = line :: l.lines.drop (i + 1) := by
        obtain ⟨_, rfl⟩ := List.getElem?_eq_some_iff.mp hline
        exact List.drop_eq_getElem_cons hlt
      have hscan := openLoops_succ hline
      by_cases hfor : line.kind = .FOR
      · cases inner with
        | nil =>
            -- The loop is the one that this line opens.
            rw [hscan, hfor, nest, List.nil_append] at h
            obtain ⟨rfl, rfl⟩ := List.cons.inj h
            exact ⟨by rw [hscan, hfor, nest], rfl⟩
        | cons a inner =>
            rw [hscan, hfor, nest, List.cons_append] at h
            obtain ⟨hopen, hcount⟩ := ih _ (by omega) (List.cons.inj h).2
            refine ⟨hopen, ?_⟩
            rw [hcount, hdrop, matchingNext?_FOR hfor]
            rfl
      · by_cases hnext : line.kind = .NEXT
        · -- The line closes a loop inside this one, for this one is still open behind it.
          rw [hscan, hnext, nest] at h
          cases hopened : l.openLoops i with
          | nil => simp [hopened] at h
          | cons a opened =>
              rw [hopened, List.tail_cons] at h
              rw [h, ← List.cons_append] at hopened
              obtain ⟨hopen, hcount⟩ := ih _ (by omega) hopened
              refine ⟨hopen, ?_⟩
              rw [hcount, hdrop, List.length_cons, matchingNext?_NEXT hnext]
        · rw [hscan, nest_other hfor hnext] at h
          obtain ⟨hopen, hcount⟩ := ih _ (by omega) h
          refine ⟨hopen, ?_⟩
          rw [hcount, hdrop, matchingNext?_other hfor hnext]

/-- The last loop that is open before a `NEXT` line is the one that counting closes there. -/
theorem matchingNext?_of_open (hline : l.lines[i]? = some line) (hnext : line.kind = .NEXT)
    (h : l.openLoops i = f :: outer) : l.matchingNext? (f + 1) = some i := by
  obtain ⟨hi, rfl⟩ := List.getElem?_eq_some_iff.mp hline
  rw [(counting_of_open [] (by omega) h).2, List.drop_eq_getElem_cons hi]
  exact matchingNext?_NEXT_one hnext

/-- Behind the `FOR` line of the last open loop the same loops are open. -/
theorem openLoops_body (hi : i ≤ l.lines.length) (h : l.openLoops i = f :: outer) :
    l.openLoops (f + 1) = f :: outer :=
  (counting_of_open [] hi h).1

/-- Behind the `NEXT` line that counting finds, the loops are open that were before the `FOR`. -/
theorem openLoops_behind {j : Nat} (hline : l.lines[i]? = some line) (hfor : line.kind = .FOR)
    (h : l.matchingNext? (i + 1) = some j) : l.openLoops (j + 1) = l.openLoops i := by
  obtain ⟨hi, -⟩ := List.getElem?_eq_some_iff.mp hline
  obtain ⟨hle, hclosed⟩ :=
    openLoops_of_matchingNext? (l.openLoops i) (List.cons_ne_nil i []) h
  have hopened : l.openLoops (i + 1) = [i] ++ l.openLoops i := by
    rw [openLoops_succ hline, hfor]
    rfl
  rw [← hopened, ← openLoops_add (by omega), show i + 1 + (j + 1 - (i + 1)) = j + 1 by omega]
    at hclosed
  exact hclosed

end Listing

end LineBasic
