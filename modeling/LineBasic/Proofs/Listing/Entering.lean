/-
  LineBasic.Proofs.Listing.Entering

  A listing as a map from line numbers to texts, and what an entry does to it: the number of the
  entry gets its text, or none when it has none, and every other number keeps what it has.

  An entry into a listing that is not locked is taken unless its number is new and there is no room,
  or its statement refers to a line number that cannot be read. Where there is no room, the
  complaint of that is what is raised of it; the number of an entry that was read is short, so it is
  the capacity that may be too long to be written.
-/
import LineBasic.Proofs.Complaint
import LineBasic.Proofs.Listing.RoundTrip

namespace LineBasic

/-- A trimmed text makes a line unless its statement refers to a line number that cannot be read. -/
theorem Line.make_eq_error_iff {number : Int} {text : String} {fault : Fault}
    (htext : Text.trim text.toList = text.toList) :
    make number text = .error fault ↔
      ∃ kind flaw, Stmt.parse text.toList = .error (.target kind flaw) ∧
        fault = .badTarget kind flaw := by
  rw [Stmt.parse, htext, make]
  cases hparse : Stmt.parseAs (Kind.ofText text.toList) text.toList with
  | ok stmt => simp
  | error rejection =>
      cases rejection with
      | misread m => simp
      | target kind flaw => simp [eq_comm]

namespace Listing

variable {l l' : Listing} {entry : Entry} {number : Int} {text : String}

/-- The text of the line with a number. -/
def text? (l : Listing) (n : Int) : Option String :=
  (l.lines.find? (·.number = n)).map (·.text)

/-- The second listing is the first after an entry. -/
structure AfterEntry (l : Listing) (entry : Entry) (l' : Listing) : Prop where
  text?_eq : ∀ n, l'.text? n = if n = entry.number then entry.text else l.text? n
  sound : l.Sound → l'.Sound
  capacity_eq : l'.capacity = l.capacity
  locked_eq : l'.locked = l.locked

/-- There is a line to replace, or room for one more. -/
def HasRoom (l : Listing) (n : Int) : Prop :=
  (∃ line ∈ l.lines, line.number = n) ∨ (l.lines.length : Int) < l.capacity

/-! ## The map behind the lines -/

theorem find?_putLine_self (line : Line) (lines : List Line) :
    (putLine line lines).find? (·.number = line.number) = some line := by
  induction lines with
  | nil => simp [putLine]
  | cons l rest ih =>
      simp only [putLine]
      split
      · simp
      · split
        · simp
        · rename_i hne
          rw [List.find?_cons_of_neg (by simpa using Ne.symm hne), ih]

/-- Putting a line in its place changes nothing at another number. -/
theorem find?_putLine_of_ne {line : Line} {n : Int} (h : line.number ≠ n) (lines : List Line) :
    (putLine line lines).find? (·.number = n) = lines.find? (·.number = n) := by
  induction lines with
  | nil => simp [putLine, h]
  | cons l rest ih =>
      simp only [putLine]
      split
      · rw [List.find?_cons_of_neg (by simpa using h)]
      · split
        · rename_i heq
          rw [List.find?_cons_of_neg (by simpa using h),
            List.find?_cons_of_neg (by simpa [← heq] using h)]
        · rw [List.find?_cons, List.find?_cons, ih]

/-- Erasing a number leaves nothing at it and everything at another. -/
theorem find?_erased (lines : List Line) (number n : Int) :
    (lines.filter (·.number ≠ number)).find? (·.number = n) =
      if n = number then none else lines.find? (·.number = n) := by
  rw [List.find?_filter]
  split
  · rename_i heq
    rw [List.find?_eq_none]
    simp [heq]
  · rename_i hne
    congr 1
    funext line
    by_cases hline : line.number = n
    · simp [hline, hne]
    · simp [hline]

/-! ## What an entry does -/

theorem enter_some : l.enter ⟨number, some text⟩ = l.insert number text := rfl

theorem enter_none : l.enter ⟨number, none⟩ = l.erase number := rfl

theorem hasRoom_iff :
    ((l.indexOf? number).isNone && decide (l.capacity ≤ l.lines.length)) = false ↔
      l.HasRoom number := by
  rw [Bool.and_eq_false_iff, Option.isNone_eq_false_iff, indexOf?, List.findIdx?_isSome,
    List.any_eq_true]
  simp only [decide_eq_true_eq, decide_eq_false_iff_not, Int.not_le, HasRoom]

instance (l : Listing) (n : Int) : Decidable (l.HasRoom n) :=
  decidable_of_iff _ hasRoom_iff

section Insert

variable (hopen : l.locked = false)
include hopen

theorem insert_of_make {line : Line} (hroom : l.HasRoom number)
    (h : Line.make number (String.ofList (Text.trim text.toList)) = .ok line) :
    l.insert number text = .ok { l with lines := putLine line l.lines } := by
  rw [insert, hopen, if_neg Bool.false_ne_true, hasRoom_iff.mpr hroom, if_neg Bool.false_ne_true,
    h]

theorem insert_of_make_error {fault : Fault} (hroom : l.HasRoom number)
    (h : Line.make number (String.ofList (Text.trim text.toList)) = .error fault) :
    l.insert number text = .error (.fault fault) := by
  rw [insert, hopen, if_neg Bool.false_ne_true, hasRoom_iff.mpr hroom, if_neg Bool.false_ne_true,
    h]

theorem insert_of_not_hasRoom (hfull : ¬ l.HasRoom number) :
    l.insert number text = .error (Complaint.listingFull l.capacity number).raised := by
  rw [← hasRoom_iff, Bool.not_eq_false] at hfull
  rw [insert, hopen, if_neg Bool.false_ne_true, hfull, if_pos rfl]

end Insert

theorem isWritable_listingFull_iff {capacity : Int} :
    (Complaint.listingFull capacity number).isWritable = true ↔
      capacity.natAbs < 10 ^ Text.maxDigits ∧ number.natAbs < 10 ^ Text.maxDigits := by
  rw [Complaint.isWritable, Bool.and_eq_true, Text.isWritable_iff, Text.isWritable_iff]

/-- With a short number, it depends on the capacity whether the complaint can be written. -/
theorem isWritable_listingFull (hshort : number.natAbs < 10 ^ Text.maxDigits) (capacity : Int) :
    (Complaint.listingFull capacity number).isWritable = Text.isWritable capacity := by
  rw [Complaint.isWritable, Text.isWritable_iff.mpr hshort, Bool.and_true]

/-- An insertion that succeeds gives the number its text. -/
theorem AfterEntry.insert (htext : Text.trim text.toList = text.toList)
    (h : l.insert number text = .ok l') : l.AfterEntry ⟨number, some text⟩ l' := by
  obtain ⟨line, hmake, -, rfl⟩ := insert_eq_ok h
  obtain ⟨rfl, hline⟩ := Line.make_eq_ok hmake
  refine ⟨fun n => ?_, fun hl => hl.insert h, rfl, rfl⟩
  split
  · rename_i heq
    rw [text?, heq, find?_putLine_self, Option.map_some, hline, htext, String.ofList_toList]
  · rename_i hne
    rw [text?, find?_putLine_of_ne (Ne.symm hne), ← text?]

/-- An erasure that succeeds leaves the number without a text. -/
theorem AfterEntry.erase (h : l.erase number = .ok l') : l.AfterEntry ⟨number, none⟩ l' := by
  obtain rfl := erase_eq_ok h
  refine ⟨fun n => ?_, fun hl => hl.erase h, rfl, rfl⟩
  rw [text?, find?_erased]
  split
  · rfl
  · rfl

end Listing

end LineBasic
