/-
  LineBasic.Proofs.Listing.Sound

  What holds of a listing after any edits, whether they succeeded or not: the lines stand in the
  order of their numbers, no more of them than fit, each with a trimmed text and with what parsing
  that text afresh gives.

  What a successful insertion, deletion and clearing keep is kept by loading a text, which is a run
  of them that may break off, and so by every run of edits (`Listing.apply_induction`).
-/
import LineBasic.Listing.Basic
import LineBasic.Proofs.Text.Trim

namespace LineBasic

/-! ## Edits -/

/-- A call that changes a listing. -/
inductive Edit where
  | insert (number : Int) (text : String)
  | erase (number : Int)
  | clear
  | load (text : List Char)
  | lock (locked : Bool)

/-- The listing after a call. A call that fails leaves what it had made by then. -/
def Listing.apply (l : Listing) : Edit → Listing
  | .insert number text => (l.insert number text).toOption.getD l
  | .erase number => (l.erase number).toOption.getD l
  | .clear => l.clear.toOption.getD l
  | .load text => (l.load text).listing
  | .lock locked => { l with locked }

/-- The listing after calls, one after the other. -/
def Listing.applyAll (l : Listing) (edits : List Edit) : Listing :=
  edits.foldl apply l

/-- A listing that some calls lead to, starting with an empty one. -/
def Listing.Stored (l : Listing) : Prop :=
  ∃ (capacity : Int) (edits : List Edit), l = ({ capacity } : Listing).applyAll edits

/-- The line has a trimmed text, and is what the text alone says. -/
structure Line.Sound (line : Line) : Prop where
  trimmed : Text.trim line.text.toList = line.text.toList
  kind_eq : line.kind = Kind.ofText line.text.toList
  parse_eq : Stmt.parse line.text.toList = line.content.mapError .misread

structure Listing.Sound (l : Listing) : Prop where
  ordered : l.lines.Pairwise (·.number < ·.number)
  fits : (l.lines.length : Int) ≤ max l.capacity 0
  lines : ∀ line ∈ l.lines, line.Sound

/-! ## One line among others -/

/-- The line made from a trimmed text has the number, and the kind and content of the text. -/
theorem Line.sound_of_make {number : Int} {text : String} {line : Line}
    (htext : Text.trim text.toList = text.toList) (h : make number text = .ok line) :
    line.number = number ∧ line.Sound := by
  have hparse : Stmt.parse text.toList = Stmt.parseAs (Kind.ofText text.toList) text.toList := by
    rw [Stmt.parse, htext]
  simp only [make] at h
  split at h
  · rename_i stmt hstmt
    obtain rfl := Except.ok.inj h
    exact ⟨rfl, htext, rfl, hparse.trans hstmt⟩
  · rename_i m hm
    obtain rfl := Except.ok.inj h
    exact ⟨rfl, htext, rfl, hparse.trans hm⟩
  · simp at h

namespace Listing

section PutLine

variable {line : Line} {lines : List Line}

theorem mem_of_mem_putLine {x : Line} (h : x ∈ putLine line lines) : x = line ∨ x ∈ lines := by
  induction lines with
  | nil => simpa [putLine] using h
  | cons l rest ih =>
      simp only [putLine] at h
      split at h
      · simpa using h
      · split at h
        · rcases List.mem_cons.mp h with hx | hx
          · exact Or.inl hx
          · exact Or.inr (List.mem_cons_of_mem _ hx)
        · rcases List.mem_cons.mp h with hx | hx
          · exact Or.inr (List.mem_cons.mpr (Or.inl hx))
          · exact (ih hx).imp_right (List.mem_cons_of_mem _)

/-- Lines in order stay in order. -/
theorem pairwise_putLine (h : lines.Pairwise (·.number < ·.number)) :
    (putLine line lines).Pairwise (·.number < ·.number) := by
  induction lines with
  | nil => simp [putLine]
  | cons l rest ih =>
      obtain ⟨hl, hrest⟩ := List.pairwise_cons.mp h
      simp only [putLine]
      split
      · rename_i hlt
        refine List.pairwise_cons.mpr ⟨fun x hx => ?_, h⟩
        rcases List.mem_cons.mp hx with rfl | hx
        · exact hlt
        · exact Int.lt_trans hlt (hl x hx)
      · split
        · rename_i heq
          exact List.pairwise_cons.mpr ⟨fun x hx => heq ▸ hl x hx, hrest⟩
        · refine List.pairwise_cons.mpr ⟨fun x hx => ?_, ih hrest⟩
          rcases mem_of_mem_putLine hx with rfl | hx
          · omega
          · exact hl x hx

theorem length_putLine_le : (putLine line lines).length ≤ lines.length + 1 := by
  induction lines with
  | nil => simp [putLine]
  | cons l rest ih =>
      simp only [putLine]
      split
      · simp
      · split
        · simp
        · simpa using ih

/-- A line whose number is there already takes the place of the old one. -/
theorem length_putLine_of_mem (h : lines.Pairwise (·.number < ·.number))
    (hmem : ∃ x ∈ lines, x.number = line.number) : (putLine line lines).length = lines.length := by
  induction lines with
  | nil => simp at hmem
  | cons l rest ih =>
      obtain ⟨hl, hrest⟩ := List.pairwise_cons.mp h
      obtain ⟨x, hx, hnumber⟩ := hmem
      simp only [putLine]
      -- The number cannot be smaller than the first: all numbers behind it are greater.
      have hge : l.number ≤ line.number := by
        rcases List.mem_cons.mp hx with rfl | hx
        · exact Int.le_of_eq hnumber
        · exact hnumber ▸ Int.le_of_lt (hl x hx)
      rw [if_neg (Int.not_lt.mpr hge)]
      split
      · simp
      · rename_i hne
        have hbehind : x ∈ rest := by
          rcases List.mem_cons.mp hx with rfl | hx
          · exact absurd hnumber.symm hne
          · exact hx
        simpa using ih hrest ⟨x, hbehind, hnumber⟩

end PutLine

/-! ## What an edit does -/

/-- An insertion that succeeds puts one line in its place, for which there is room or an old line
    to replace. -/
theorem insert_eq_ok {l l' : Listing} {number : Int} {text : String}
    (h : l.insert number text = .ok l') :
    ∃ line, Line.make number (String.ofList (Text.trim text.toList)) = .ok line ∧
      ((∃ x ∈ l.lines, x.number = number) ∨ (l.lines.length : Int) < l.capacity) ∧
      l' = { l with lines := putLine line l.lines } := by
  simp only [insert] at h
  split at h
  · simp at h
  · split at h
    · simp at h
    · rename_i hroom
      split at h
      · rename_i line hline
        refine ⟨line, hline, ?_, (Except.ok.inj h).symm⟩
        cases hindex : l.indexOf? number with
        | none =>
            rw [hindex] at hroom
            exact Or.inr (by simpa using hroom)
        | some i =>
            obtain ⟨hi, hnumber, -⟩ := List.findIdx?_eq_some_iff_getElem.mp hindex
            exact Or.inl ⟨l.lines[i], List.getElem_mem hi, by simpa using hnumber⟩
      · simp at h

theorem erase_eq_ok {l l' : Listing} {number : Int} (h : l.erase number = .ok l') :
    l' = { l with lines := l.lines.filter (·.number ≠ number) } := by
  simp only [erase] at h
  split at h
  · simp at h
  · exact (Except.ok.inj h).symm

theorem clear_eq_ok {l l' : Listing} (h : l.clear = .ok l') : l' = { l with lines := [] } := by
  simp only [clear] at h
  split at h
  · simp at h
  · exact (Except.ok.inj h).symm

section Induction

variable {P : Listing → Prop}
  (hinsert : ∀ {l l' number text}, P l → insert l number text = .ok l' → P l')
  (herase : ∀ {l l' number}, P l → erase l number = .ok l' → P l')

include hinsert herase

theorem enter_induction {l l' : Listing} {entry : Entry} (hl : P l) (h : l.enter entry = .ok l') :
    P l' := by
  unfold enter at h
  split at h
  · exact hinsert hl h
  · exact herase hl h

/-- Entries applied one after the other keep what each of them keeps, wherever they break off. -/
theorem enterAll_induction {l : Listing} (entries : List Entry) (hl : P l) :
    P (l.enterAll entries).listing := by
  induction entries generalizing l with
  | nil => exact hl
  | cons entry rest ih =>
      simp only [enterAll]
      split
      · rename_i l' h
        exact ih (enter_induction hinsert herase hl h)
      · exact ih hl
      · exact hl

/-- What successful insertions, deletions and clearings keep, and locking, is kept by every call. -/
theorem apply_induction (hclear : ∀ {l l'}, P l → clear l = .ok l' → P l')
    (hlock : ∀ {l locked}, P l → P { l with locked }) {l : Listing} (edit : Edit) (hl : P l) :
    P (l.apply edit) := by
  cases edit with
  | insert number text =>
      simp only [apply]
      cases h : l.insert number text with
      | error failure => exact hl
      | ok l' => exact hinsert hl h
  | erase number =>
      simp only [apply]
      cases h : l.erase number with
      | error failure => exact hl
      | ok l' => exact herase hl h
  | clear =>
      simp only [apply]
      cases h : l.clear with
      | error failure => exact hl
      | ok l' => exact hclear hl h
  | load text =>
      simp only [apply, load]
      split
      · exact hl
      -- The text is looked at as a whole before the old lines go.
      · split
        · exact hl
        · rename_i l' h
          exact enterAll_induction hinsert herase _ (hclear hl h)
  | lock locked => exact hlock hl

end Induction

/-! ## What every edit keeps -/

namespace Sound

variable {l l' : Listing} {number : Int} {text : String}

theorem insert (hl : Sound l) (h : l.insert number text = .ok l') : Sound l' := by
  obtain ⟨line, hmake, hroom, rfl⟩ := insert_eq_ok h
  obtain ⟨hnumber, hline⟩ := Line.sound_of_make (by simp) hmake
  refine ⟨pairwise_putLine hl.ordered, ?_, fun x hx => ?_⟩
  -- Either the line replaces one, or there was room for one more.
  · have hfits := hl.fits
    rcases hroom with ⟨x, hx, hold⟩ | hroom
    · rw [length_putLine_of_mem hl.ordered ⟨x, hx, hold.trans hnumber.symm⟩]
      exact hfits
    · have hle : (putLine line l.lines).length ≤ l.lines.length + 1 := length_putLine_le
      simp only
      omega
  · rcases mem_of_mem_putLine hx with rfl | hx
    · exact hline
    · exact hl.lines x hx

theorem erase (hl : Sound l) (h : l.erase number = .ok l') : Sound l' := by
  rw [erase_eq_ok h]
  refine ⟨hl.ordered.filter _, ?_, fun x hx => hl.lines x (List.mem_filter.mp hx).1⟩
  have hle := List.length_filter_le (·.number ≠ number) l.lines
  have hfits := hl.fits
  simp only
  omega

theorem clear (h : l.clear = .ok l') : Sound l' := by
  rw [clear_eq_ok h]
  exact ⟨.nil, Int.le_max_right _ _, by simp⟩

theorem apply (edit : Edit) (hl : Sound l) : Sound (l.apply edit) :=
  apply_induction insert erase (fun _ => clear) (fun hl => ⟨hl.ordered, hl.fits, hl.lines⟩) edit hl

theorem applyAll (edits : List Edit) (hl : Sound l) : Sound (l.applyAll edits) := by
  induction edits generalizing l with
  | nil => exact hl
  | cons edit rest ih => exact ih (hl.apply edit)

theorem empty (capacity : Int) : Sound { capacity } :=
  ⟨.nil, Int.le_max_right _ _, by simp⟩

end Sound

theorem Stored.sound {l : Listing} (h : l.Stored) : l.Sound := by
  obtain ⟨capacity, edits, rfl⟩ := h
  exact (Sound.empty capacity).applyAll edits

namespace Stored

variable {l l' : Listing} {number : Int} {text : String} (hl : l.Stored)
include hl

/-- One call more leads to a listing that calls lead to. -/
theorem apply (edit : Edit) : (l.apply edit).Stored := by
  obtain ⟨capacity, edits, rfl⟩ := hl
  refine ⟨capacity, edits ++ [edit], ?_⟩
  rw [applyAll, applyAll, List.foldl_append]
  rfl

theorem lock (locked : Bool) : Stored { l with locked } :=
  hl.apply (.lock locked)

theorem insert (h : l.insert number text = .ok l') : l'.Stored := by
  have hafter := hl.apply (.insert number text)
  rwa [Listing.apply, h] at hafter

theorem erase (h : l.erase number = .ok l') : l'.Stored := by
  have hafter := hl.apply (.erase number)
  rwa [Listing.apply, h] at hafter

theorem clear (h : l.clear = .ok l') : l'.Stored := by
  have hafter := hl.apply .clear
  rwa [Listing.apply, h] at hafter

theorem enter {entry : Entry} (h : l.enter entry = .ok l') : l'.Stored :=
  enter_induction insert erase hl h

end Stored

/-- No call changes how many lines fit. -/
theorem capacity_apply (l : Listing) (edit : Edit) : (l.apply edit).capacity = l.capacity :=
  apply_induction (P := fun l' => l'.capacity = l.capacity)
    (fun hl h => by
      obtain ⟨line, -, -, rfl⟩ := insert_eq_ok h
      exact hl)
    (fun hl h => by rw [erase_eq_ok h]; exact hl)
    (fun hl h => by rw [clear_eq_ok h]; exact hl)
    id edit rfl

theorem capacity_applyAll (l : Listing) (edits : List Edit) :
    (l.applyAll edits).capacity = l.capacity := by
  induction edits generalizing l with
  | nil => rfl
  | cons edit rest ih => exact (ih _).trans (capacity_apply l edit)

/-- A listing with room for `capacity` lines, after any calls, failed ones included: the numbers
    increase, the lines fit, and each line has a trimmed text with the kind, the statement or the
    complaint that the text has on its own. -/
theorem sound_after_edits (capacity : Int) (edits : List Edit) :
    ((({ capacity } : Listing).applyAll edits).lines.map (·.number)).Pairwise (· < ·) ∧
    ((({ capacity } : Listing).applyAll edits).lines.length : Int) ≤ max capacity 0 ∧
    ∀ line ∈ (({ capacity } : Listing).applyAll edits).lines,
      Text.trim line.text.toList = line.text.toList ∧
      line.kind = Kind.ofText line.text.toList ∧
      Stmt.parse line.text.toList = line.content.mapError .misread := by
  have hsound := (Sound.empty capacity).applyAll edits
  have hfits := hsound.fits
  rw [capacity_applyAll] at hfits
  refine ⟨List.pairwise_map.mpr hsound.ordered, hfits, fun line hline => ?_⟩
  obtain ⟨htrimmed, hkind, hparse⟩ := hsound.lines line hline
  exact ⟨htrimmed, hkind, hparse⟩

end Listing

end LineBasic
