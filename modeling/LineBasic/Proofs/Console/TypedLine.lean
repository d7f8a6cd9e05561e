/-
  LineBasic.Proofs.Console.TypedLine

  What the console does with a line that starts with a digit, in a session that does not run.

  The line is entered, or refused with one complaint: its first word is no number, or the listing is
  full. There is a third way, on which the dialog ends: a word that looks like a number and is none,
  since it holds a superscript or the like or is too long, as the number of the line or as a line
  number in its statement; or a listing that is full and of a capacity too long for the complaint.
-/
import LineBasic.Console.Session
import LineBasic.Proofs.Listing.Entering
import LineBasic.Proofs.Machine.Editing

namespace LineBasic

/-! ## Lines that cannot be taken -/

/-- A line with a word that looks like a number and cannot be read as one: the number of the line,
    or a line number in a statement for which there is room; or a line for which there is none, and
    the listing cannot say so. -/
inductive Listing.FaultsOn (l : Listing) (line : List Char) : Prop
  | number (hdigits : ∀ c ∈ Text.firstWord line, Text.isDigit c = true)
      (hword : ¬ Text.Readable (Text.firstWord line)) : FaultsOn l line
  | target {n : Int} {text : String} {kind : Kind} {flaw : Text.IntegerFlaw}
      (htyped : Entry.TypedAs line ⟨n, some text⟩) (hroom : l.HasRoom n)
      (hparse : Stmt.parse text.toList = .error (.target kind flaw)) : FaultsOn l line
  | unwritable {n : Int} {text : String} (htyped : Entry.TypedAs line ⟨n, some text⟩)
      (hfull : ¬ l.HasRoom n) (hcapacity : Text.isWritable l.capacity = false) : FaultsOn l line

/-- The session after a line that started with a digit: the line is entered and nothing is said, or
    the listing stays and one complaint is shown. -/
inductive Session.Answers (s : Session) (line : List Char) : Session → Prop
  | entered {entry : Entry} {l : Listing} (htyped : Entry.TypedAs line entry)
      (hafter : s.machine.listing.AfterEntry entry l) :
      Answers s line { s with machine := { s.machine with listing := l } }
  | unnumbered (hword : ∃ c ∈ Text.firstWord line, Text.isDigit c = false) :
      Answers s line { s with machine := s.machine.note (.lineRefused
        (.misread ⟨.noLineNumber (String.ofList (Text.trim line)) none, none⟩)) }
  | full {n : Int} {text : String} (htyped : Entry.TypedAs line ⟨n, some text⟩)
      (hfull : ¬ s.machine.listing.HasRoom n) :
      Answers s line { s with machine := s.machine.note (.lineRefused
        (.listingFull s.machine.listing.capacity n)) }

/-! ## Entering a line into a listing -/

namespace Listing

variable {l : Listing} {line : List Char}

/-- The listing with a typed line. -/
def enterLine (l : Listing) (line : List Char) : Except Failure Listing :=
  (Entry.ofText line none).bind l.enter

theorem enterLine_of_typedAs {entry : Entry} (h : Entry.TypedAs line entry) :
    l.enterLine line = l.enter entry := by
  rw [enterLine, Entry.ofText_of_typedAs h]
  rfl

section Unlocked

variable (hopen : l.locked = false)
include hopen

theorem FaultsOn.enterLine (h : l.FaultsOn line) :
    ∃ fault, l.enterLine line = .error (.fault fault) := by
  cases h with
  | number hdigits hword =>
      obtain ⟨flaw, hflaw⟩ := Entry.ofText_of_not_readable hdigits hword
      exact ⟨.badInteger flaw, by rw [Listing.enterLine, hflaw]; rfl⟩
  | @target n text kind flaw htyped hroom hparse =>
      -- The text of an entry is trimmed already, so the line is made from it as it stands.
      have htrimmed := (Entry.sound_of_typedAs htyped).trimmed text rfl
      have hmake : Line.make n (String.ofList (Text.trim text.toList)) =
          .error (.badTarget kind flaw) := by
        rw [htrimmed, String.ofList_toList, Line.make_eq_error_iff htrimmed]
        exact ⟨kind, flaw, hparse, rfl⟩
      rw [enterLine_of_typedAs htyped, enter_some]
      exact ⟨_, insert_of_make_error hopen hroom hmake⟩
  | @unwritable n text htyped hfull hcapacity =>
      have hlong : (Complaint.listingFull l.capacity n).isWritable = false := by
        rw [isWritable_listingFull (Entry.sound_of_typedAs htyped).short, hcapacity]
      refine ⟨.unwritable, ?_⟩
      rw [enterLine_of_typedAs htyped, enter_some, insert_of_not_hasRoom hopen hfull,
        Complaint.raised_of_not_isWritable hlong]

/-- A line that stands for an entry is entered, does not fit or cannot be taken. -/
theorem enterLine_cases {entry : Entry} (htyped : Entry.TypedAs line entry) :
    (∃ l', l.AfterEntry entry l' ∧ l.enterLine line = .ok l') ∨
    (∃ text, entry.text = some text ∧ ¬ l.HasRoom entry.number ∧
      l.enterLine line = .error (.complaint (.listingFull l.capacity entry.number))) ∨
    l.FaultsOn line := by
  have hsound := Entry.sound_of_typedAs htyped
  obtain ⟨n, text⟩ := entry
  rw [enterLine_of_typedAs htyped]
  cases text with
  | none =>
      have herase : l.erase n = .ok { l with lines := l.lines.filter (·.number ≠ n) } := by
        rw [Listing.erase, hopen, if_neg Bool.false_ne_true]
      rw [enter_none]
      exact Or.inl ⟨_, .erase herase, herase⟩
  | some text =>
      have htrimmed := hsound.trimmed text rfl
      rw [enter_some]
      by_cases hroom : l.HasRoom n
      · cases hmake : Line.make n (String.ofList (Text.trim text.toList)) with
        | ok made =>
            have hinsert := insert_of_make hopen hroom hmake
            exact Or.inl ⟨_, .insert htrimmed hinsert, hinsert⟩
        | error fault =>
            rw [htrimmed, String.ofList_toList, Line.make_eq_error_iff htrimmed] at hmake
            obtain ⟨kind, flaw, hparse, -⟩ := hmake
            exact Or.inr (Or.inr (.target htyped hroom hparse))
      · cases hcapacity : Text.isWritable l.capacity with
        | false => exact Or.inr (Or.inr (.unwritable htyped hroom hcapacity))
        | true =>
            have hraised : (Complaint.listingFull l.capacity n).raised = _ :=
              Complaint.raised_of_isWritable
                ((isWritable_listingFull hsound.short _).trans hcapacity)
            exact Or.inr (Or.inl
              ⟨text, rfl, hroom, by rw [insert_of_not_hasRoom hopen hroom, hraised]⟩)

end Unlocked

/-- What cannot be taken has a digit that is no decimal one, or too many digits in a row, or comes
    to a capacity with too many. -/
theorem FaultsOn.cause (h : l.FaultsOn line) :
    (∃ c ∈ line, Text.isDigit c = true ∧ Text.isDecimal c = false) ∨
      (∃ length, Text.HoldsLongNumber line length) ∨ Text.isWritable l.capacity = false := by
  cases h with
  | number hdigits hword =>
      have hpart : Text.firstWord line <:+: line := Text.firstWord_isInfix line
      by_cases hall : ∀ c ∈ Text.firstWord line, Text.isDecimal c = true
      · have hlong : Text.maxDigits < (Text.firstWord line).length := by
          by_contra hshort
          exact hword ⟨hall, Nat.not_lt.mp hshort⟩
        exact Or.inr (Or.inl ⟨_, hlong, Text.firstWord line, hpart, rfl, hall⟩)
      · obtain ⟨c, hc, hdecimal⟩ : ∃ c ∈ Text.firstWord line, Text.isDecimal c = false := by
          simpa using hall
        exact Or.inl ⟨c, hpart.subset hc, hdigits c hc, hdecimal⟩
  | target htyped hroom hparse =>
      obtain ⟨length, -, hlong⟩ := Stmt.holdsLongNumber_of_parseAs hparse
      have hpart := Entry.isInfix_of_typedAs htyped rfl
      exact Or.inr (Or.inl ⟨length, hlong.mono ((Text.trim_isInfix _).trans hpart)⟩)
  | unwritable htyped hfull hcapacity => exact Or.inr (Or.inr hcapacity)

end Listing

/-! ## Handling a line -/

theorem Command.ofLine_of_isDigit {line : List Char} {c : Char}
    (hfirst : line.find? (fun c => !Text.isBlank c) = some c) (hdigit : Text.isDigit c = true) :
    ofLine line = .programLine (Text.trim line) := by
  rw [← Text.head?_trim_eq_find?] at hfirst
  obtain ⟨rest, hrest⟩ := List.head?_eq_some_iff.mp hfirst
  simp only [ofLine, hrest, hdigit, if_true]

namespace Action

variable {m : Machine} {line : List Char}

/-- Entering a trimmed line is an edit of the listing. -/
theorem enter_trim (line : List Char) : enter (Text.trim line) = edit (·.enterLine line) := by
  have hread : Entry.ofText (Text.trim line) none = Entry.ofText line none := by
    simp only [Entry.ofText, Text.trim_trim]
  rw [enter, hread]
  cases hentry : Entry.ofText line none with
  | ok entry =>
      simp only [Listing.enterLine, hentry]
      rfl
  | error failure =>
      simp only [Listing.enterLine, hentry]
      rfl

theorem tryEnter_of_ok {l : Listing} (h : m.listing.enterLine line = .ok l) :
    tryEnter (Text.trim line) m = .ok () { m with listing := l } := by
  have henter : enter (Text.trim line) m = .ok () { m with listing := l } := by
    rw [enter_trim]
    exact edit_of_ok h
  simp only [tryEnter, tryCatch, tryCatchThe, MonadExceptOf.tryCatch, EStateM.tryCatch, henter]

theorem tryEnter_of_error {failure : Failure} (h : m.listing.enterLine line = .error failure) :
    tryEnter (Text.trim line) m =
      match failure with
      | .complaint c => .ok () (m.note (.lineRefused c))
      | .fault fault => .error (.fault fault) m := by
  have henter : enter (Text.trim line) m = .error failure m := by
    rw [enter_trim]
    exact edit_of_error h
  simp only [tryEnter, tryCatch, tryCatchThe, MonadExceptOf.tryCatch, EStateM.tryCatch, henter]
  cases failure with
  | complaint c => rfl
  | fault fault => rfl

end Action

namespace Dialog

variable {fuel : Nat} {line : List Char} {s : Session}

section ProgramLine

variable (hline : Command.ofLine line = .programLine (Text.trim line))
include hline

theorem handle_of_tryEnter {m : Machine}
    (h : Action.tryEnter (Text.trim line) s.machine = .ok () m) :
    handle fuel line s = .ok true { s with machine := m } := by
  rw [handle, hline]
  simp only [perform, act, Action.perform, Action.bind_of_ok h]
  rfl

theorem handle_of_tryEnter_error {m : Machine} {failure : Failure}
    (h : Action.tryEnter (Text.trim line) s.machine = .error failure m) :
    handle fuel line s = .error failure { s with machine := m } := by
  rw [handle, hline]
  simp only [perform, act, Action.perform, Action.bind_of_error h]

/-- In a session that does not run, a line is answered or cannot be taken. -/
theorem answers_or_faults (hopen : s.machine.listing.locked = false)
    (hword : Text.firstWord line ≠ []) :
    (∃ s', handle fuel line s = .ok true s' ∧ s.Answers line s') ∨
      s.machine.listing.FaultsOn line := by
  by_cases hdigits : ∀ c ∈ Text.firstWord line, Text.isDigit c = true
  · by_cases hread : Text.Readable (Text.firstWord line)
    · obtain ⟨entry, htyped⟩ := Entry.exists_typedAs hword hread
      rcases Listing.enterLine_cases hopen htyped with
        ⟨l, hafter, hl⟩ | ⟨text, htext, hfull, hl⟩ | hfaults
      · exact Or.inl ⟨_, handle_of_tryEnter hline (Action.tryEnter_of_ok hl),
          .entered htyped hafter⟩
      · obtain ⟨n, _⟩ := entry
        obtain rfl : _ = some text := htext
        exact Or.inl ⟨_, handle_of_tryEnter hline (Action.tryEnter_of_error hl),
          .full htyped hfull⟩
      · exact Or.inr hfaults
    · exact Or.inr (.number hdigits hread)
  · have hother : ∃ c ∈ Text.firstWord line, Text.isDigit c = false := by
      simpa using hdigits
    have hl : s.machine.listing.enterLine line = .error (.complaint
        (.misread ⟨.noLineNumber (String.ofList (Text.trim line)) none, none⟩)) := by
      rw [Listing.enterLine, Entry.ofText_of_not_isDigit hother]
      rfl
    exact Or.inl ⟨_, handle_of_tryEnter hline (Action.tryEnter_of_error hl), .unnumbered hother⟩

theorem handle_of_faultsOn (hopen : s.machine.listing.locked = false)
    (h : s.machine.listing.FaultsOn line) :
    ∃ fault, handle fuel line s = .error (.fault fault) s := by
  obtain ⟨fault, hfault⟩ := h.enterLine hopen
  exact ⟨fault, handle_of_tryEnter_error hline (Action.tryEnter_of_error hfault)⟩

end ProgramLine

/-- A session that does not run answers a line that starts with a digit, and stays in the dialog,
    exactly if the line can be taken. A line that cannot has a digit that is no decimal one, or too
    many digits in a row, or it is the capacity that has too many; it changes nothing. -/
theorem handle_answers_iff (fuel : Nat) {c : Char} (hopen : s.machine.listing.locked = false)
    (hfirst : line.find? (fun c => !Text.isBlank c) = some c) (hdigit : Text.isDigit c = true) :
    ((∃ s', handle fuel line s = .ok true s' ∧ s.Answers line s') ↔
      ¬ s.machine.listing.FaultsOn line) ∧
    (s.machine.listing.FaultsOn line →
      (∃ fault, handle fuel line s = .error (.fault fault) s) ∧
      ((∃ c ∈ line, Text.isDigit c = true ∧ Text.isDecimal c = false) ∨
        (∃ length, Text.HoldsLongNumber line length) ∨
        Text.isWritable s.machine.listing.capacity = false)) := by
  have hline := Command.ofLine_of_isDigit hfirst hdigit
  have hfails : s.machine.listing.FaultsOn line →
      ∃ fault, handle fuel line s = .error (.fault fault) s := handle_of_faultsOn hline hopen
  refine ⟨⟨?_, ?_⟩, fun h => ⟨hfails h, h.cause⟩⟩
  · rintro ⟨s', hs', -⟩ hfaults
    obtain ⟨fault, hfault⟩ := hfails hfaults
    rw [hs'] at hfault
    simp at hfault
  · intro htaken
    exact (answers_or_faults hline hopen (Text.firstWord_ne_nil hfirst)).resolve_right htaken

/-- A tab before digits of another script, and a full listing with a line to replace. -/
theorem handle_answers_iff_replaced :
    ∃ s : Session, s.machine.listing.locked = false ∧ s.machine.listing.text? 10 = some "END" ∧
      ∃ s', handle 0 "\t１０ GOTO 20".toList s = .ok true s' ∧
        s.Answers "\t１０ GOTO 20".toList s' := by
  let l : Listing := ({ capacity := 1 } : Listing).applyAll [.insert 10 "END"]
  have hopen : l.locked = false := by decide +kernel
  have htext : l.text? 10 = some "END" := by decide +kernel
  have hfirst : "\t１０ GOTO 20".toList.find? (fun c => !Text.isBlank c) = some '１' := by
    decide +kernel
  have hdigit : Text.isDigit '１' = true := by decide +kernel
  let s : Session := { machine := { listing := l } }
  obtain ⟨hanswers, hfaults⟩ := handle_answers_iff (s := s) 0 hopen hfirst hdigit
  refine ⟨s, hopen, htext, hanswers.mpr fun h => ?_⟩
  have hdecimal : "\t１０ GOTO 20".toList.all (fun c => !Text.isDigit c || Text.isDecimal c) = true :=
    by decide +kernel
  rcases (hfaults h).2 with
    ⟨c, hc, hlooks, hform⟩ | ⟨length, hlong, digits, hpart, rfl, -⟩ | hcapacity
  · have hc := List.all_eq_true.mp hdecimal c hc
    simp [hlooks, hform] at hc
  · have hshort : digits.length ≤ 11 := hpart.length_le
    have hlimit : Text.maxDigits = 4300 := rfl
    omega
  · have hwritable : Text.isWritable l.capacity = true := by decide +kernel
    exact absurd (hwritable.symm.trans hcapacity) (by decide)

/-- A superscript is taken for the start of a program line and ends the dialog. -/
theorem handle_superscript :
    "²".toList.find? (fun c => !Text.isBlank c) = some '²' ∧ Text.isDigit '²' = true ∧
      handle 0 "²".toList {} = .error (.fault (.badInteger (.notDecimal "²"))) {} ∧
      ¬ ∃ s', handle 0 "²".toList {} = .ok true s' := by
  have hfails : handle 0 "²".toList {} = .error (.fault (.badInteger (.notDecimal "²"))) {} := rfl
  refine ⟨by decide +kernel, by decide +kernel, hfails, ?_⟩
  rintro ⟨s', hs'⟩
  rw [hfails] at hs'
  simp at hs'

end Dialog

end LineBasic
