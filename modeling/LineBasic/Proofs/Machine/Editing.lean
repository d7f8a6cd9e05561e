/-
  LineBasic.Proofs.Machine.Editing

  What a call that edits the listing leaves behind when it fails.

  A single edit that fails leaves the listing as it was. Loading a text is a run of edits behind a
  clearing: nothing is touched before every line of the text has its number, and from then on lines
  that do not parse are stored and lines that do not fit are dropped. Two things are left that break
  the run off in the middle: a line number in a statement with too many digits, and a line that does
  not fit into a listing whose capacity has too many digits for the complaint.
-/
import LineBasic.Machine.Run
import LineBasic.Proofs.Listing.Entering
import LineBasic.Proofs.Machine.Effect
import LineBasic.Proofs.Stmt.RoundTrip
import LineBasic.Proofs.Stmt.Target

namespace LineBasic

/-! ## Entries that fail -/

namespace Listing

variable {l l' : Listing} {entry : Entry} {fault : Fault} {failure : Failure}

/-- Entries change the lines alone. -/
theorem exists_lines_enterAll (l : Listing) (es : List Entry) :
    ∃ lines, (l.enterAll es).listing = { l with lines } := by
  apply enterAll_induction (P := fun l' => ∃ lines, l' = { l with lines })
  · rintro l₁ l₂ number text ⟨lines, rfl⟩ h
    obtain ⟨line, -, -, rfl⟩ := insert_eq_ok h
    exact ⟨_, rfl⟩
  · rintro l₁ l₂ number ⟨lines, rfl⟩ h
    rw [erase_eq_ok h]
    exact ⟨_, rfl⟩
  · exact ⟨l.lines, rfl⟩

/-- A line that cannot be made has a number in it that is too long. -/
theorem holdsLongNumber_of_make {number : Int} {text : String}
    (h : Line.make number text = .error fault) :
    ∃ kind length, fault = .badTarget kind (.tooLong length) ∧
      Text.HoldsLongNumber (Text.trim text.toList) length := by
  simp only [Line.make] at h
  split at h
  · simp at h
  · simp at h
  · rename_i kind flaw hparse
    obtain ⟨length, rfl, hlong⟩ := Stmt.holdsLongNumber_of_parseAs hparse
    exact ⟨kind, length, (Except.error.inj h).symm, hlong⟩

/-- The entry fails for what it holds or for what the listing is: it refers to a line number that is
    too long, or there is no room for it and the complaint of that cannot be written. -/
inductive Refuses (l : Listing) (entry : Entry) : Fault → Prop
  | longTarget {text : String} {kind : Kind} {length : Nat} (htext : entry.text = some text)
      (hlong : Text.HoldsLongNumber text.toList length) :
      Refuses l entry (.badTarget kind (.tooLong length))
  | unwritable (hfull : ¬ l.HasRoom entry.number) (hcapacity : Text.isWritable l.capacity = false) :
      Refuses l entry .unwritable

/-- An entry into a listing that is not locked faults for these reasons only. -/
theorem refuses_of_enter (hopen : l.locked = false) (hentry : entry.Sound)
    (h : l.enter entry = .error (.fault fault)) : l.Refuses entry fault := by
  obtain ⟨number, text⟩ := entry
  cases text with
  | none =>
      -- Deleting a line never fails, whether there is one or not.
      simp [enter_none, erase, hopen] at h
  | some text =>
      rw [enter_some] at h
      by_cases hroom : l.HasRoom number
      · cases hmake : Line.make number (String.ofList (Text.trim text.toList)) with
        | ok line => simp [insert_of_make hopen hroom hmake] at h
        | error fault' =>
            rw [insert_of_make_error hopen hroom hmake] at h
            obtain rfl := Failure.fault.inj (Except.error.inj h)
            obtain ⟨kind, length, rfl, hlong⟩ := holdsLongNumber_of_make hmake
            rw [String.toList_ofList, Text.trim_trim, hentry.trimmed text rfl] at hlong
            exact .longTarget rfl hlong
      · rw [insert_of_not_hasRoom hopen hroom] at h
        obtain ⟨hlong, rfl⟩ := Complaint.raised_eq_fault_iff.mp (Except.error.inj h)
        -- The number of the entry was read, so it is the capacity that is too long.
        rw [isWritable_listingFull hentry.short] at hlong
        exact .unwritable hroom hlong

/-- The first of some entries faults, or the others are applied to what it leaves. -/
theorem enterAll_cons_cases (l : Listing) (entry : Entry) :
    (∃ fault, l.enter entry = .error (.fault fault)) ∨
      ∃ l' : Listing, ∀ es, (l.enterAll (entry :: es)).listing = (l'.enterAll es).listing ∧
        (l.enterAll (entry :: es)).outcome = (l'.enterAll es).outcome := by
  cases hentry : l.enter entry with
  | ok l' => exact Or.inr ⟨l', fun es => by simp only [enterAll, hentry, and_self]⟩
  | error failure =>
      cases failure with
      | complaint c => exact Or.inr ⟨l, fun es => by simp only [enterAll, hentry, and_self]⟩
      | fault fault => exact Or.inl ⟨fault, rfl⟩

/-- Where a run of entries breaks off: all entries before were applied, and the next one faults. -/
theorem exists_of_enterAll_error {es : List Entry} (h : (l.enterAll es).outcome = .error failure) :
    ∃ before entry after fault, es = before ++ entry :: after ∧ failure = .fault fault ∧
      (l.enterAll es).listing = (l.enterAll before).listing ∧
      (l.enterAll before).listing.enter entry = .error (.fault fault) := by
  induction es generalizing l with
  | nil => simp [enterAll] at h
  | cons entry rest ih =>
      rcases enterAll_cons_cases l entry with ⟨fault, hfault⟩ | ⟨l', hl'⟩
      · simp only [enterAll, hfault] at h ⊢
        exact ⟨[], entry, rest, fault, rfl, (Except.error.inj h).symm, rfl, hfault⟩
      · rw [(hl' rest).2] at h
        obtain ⟨before, e, after, fault, rfl, hfailure, hlisting, hfault⟩ := ih h
        refine ⟨entry :: before, e, after, fault, rfl, hfailure, ?_, ?_⟩
        · rw [(hl' _).1, (hl' before).1, hlisting]
        · rw [(hl' before).1, hfault]

/-- A text whose loading broke off between two of its lines: the lines before were loaded, and the
    one at hand is refused by what they led to. -/
structure BreaksOff (l : Listing) (text : List Char) (failure : Failure) (l' : Listing) : Prop where
  unlocked : l.locked = false
  cause : ∃ before entry after fault, entries text = .ok (before ++ entry :: after) ∧
    l' = (({ l with lines := [] } : Listing).enterAll before).listing ∧
    failure = .fault fault ∧ l'.Refuses entry fault

/-- Loading that fails leaves the listing as it was, or breaks off. -/
theorem load_error {text : List Char} (h : (l.load text).outcome = .error failure) :
    (l.load text).listing = l ∨ l.BreaksOff text failure (l.load text).listing := by
  simp only [load] at h ⊢
  cases hentries : entries text with
  | error failure' => exact Or.inl rfl
  | ok es =>
      cases hclear : l.clear with
      | error failure' => exact Or.inl rfl
      | ok cleared =>
          simp only [hentries, hclear] at h ⊢
          have hopen : l.locked = false :=
            Bool.eq_false_iff.mpr fun hlocked => by simp [clear, hlocked] at hclear
          obtain rfl := clear_eq_ok hclear
          obtain ⟨before, entry, after, fault, rfl, rfl, hlisting, hfault⟩ :=
            exists_of_enterAll_error h
          obtain ⟨lines, hlines⟩ := exists_lines_enterAll { l with lines := [] } before
          obtain ⟨hsound, -⟩ :=
            mem_entries hentries (List.mem_append_right before List.mem_cons_self)
          have hrefuses := refuses_of_enter (by rw [hlines]; exact hopen) hsound hfault
          exact Or.inr ⟨hopen, before, entry, after, fault, hentries, hlisting, rfl,
            hlisting ▸ hrefuses⟩

end Listing

/-! ## Calls -/

/-- A call that edits the listing of a machine. -/
inductive Call where
  | insert (number : Int) (text : String)
  | erase (number : Int)
  | clear
  | load (text : List Char)
  | enter (raw : List Char)
  deriving Repr, DecidableEq

def Call.action : Call → Action Unit
  | .insert number text => Action.edit (·.insert number text)
  | .erase number => Action.edit (·.erase number)
  | .clear => Action.edit (·.clear)
  | .load text => Action.load text
  | .enter raw => Action.enter raw

namespace Action

variable {m m' : Machine} {failure : Failure} {f : Listing → Except Failure Listing}
  {text : List Char}

theorem edit_of_ok {l : Listing} (h : f m.listing = .ok l) :
    edit f m = .ok () { m with listing := l } := by
  rw [edit, bind_of_ok get_eq_ok, h]
  rfl

theorem edit_of_error (h : f m.listing = .error failure) : edit f m = .error failure m := by
  rw [edit, bind_of_ok get_eq_ok, h]
  rfl

/-- An edit that fails changes nothing. -/
theorem eq_of_edit_error (h : edit f m = .error failure m') : m' = m := by
  cases hf : f m.listing with
  | ok l => simp [edit_of_ok hf] at h
  | error failure' =>
      rw [edit_of_error hf] at h
      exact (EStateM.Result.error.inj h).2.symm

/-- A typed line is entered, or changes nothing. -/
theorem enter_cases (raw : List Char) (m : Machine) :
    (∃ entry l, Entry.ofText raw none = .ok entry ∧ m.listing.enter entry = .ok l ∧
      enter raw m = .ok () { m with listing := l }) ∨
    ∃ failure, enter raw m = .error failure m := by
  cases hentry : Entry.ofText raw none with
  | error failure =>
      refine Or.inr ⟨failure, ?_⟩
      simp only [enter, hentry]
      rfl
  | ok entry =>
      have henter : enter raw = edit (·.enter entry) := by simp only [enter, hentry]
      rw [henter]
      cases hedit : m.listing.enter entry with
      | ok l => exact Or.inl ⟨entry, l, rfl, hedit, edit_of_ok hedit⟩
      | error failure => exact Or.inr ⟨failure, edit_of_error hedit⟩

/-- The machine with what loading a text led to. -/
def afterLoading (m : Machine) (loading : Listing.Loading) : Machine :=
  ({ m with listing := loading.listing }).noteAll (loading.dropped.map .lineDropped)

theorem load_of_ok (h : (m.listing.load text).outcome = .ok ()) :
    load text m = .ok () ((afterLoading m (m.listing.load text)).note
      (.loaded (m.listing.load text).listing.lines.length)) := by
  rw [load, bind_of_ok get_eq_ok]
  simp only [h]
  rfl

theorem load_of_error (h : (m.listing.load text).outcome = .error failure) :
    load text m = .error failure (afterLoading m (m.listing.load text)) := by
  rw [load, bind_of_ok get_eq_ok]
  simp only [h]
  rfl

theorem load_error (h : load text m = .error failure m') :
    (m.listing.load text).outcome = .error failure ∧
      m'.listing = (m.listing.load text).listing := by
  cases houtcome : (m.listing.load text).outcome with
  | ok _ => simp [load_of_ok houtcome] at h
  | error failure' =>
      rw [load_of_error houtcome] at h
      obtain ⟨rfl, rfl⟩ := EStateM.Result.error.inj h
      exact ⟨rfl, rfl⟩

end Action

/-- A call that fails leaves the listing as it was, unless it loads a text and breaks off: at a line
    number that is too long, or at a line for which there is no room and no complaint. -/
theorem listing_of_failed_call {call : Call} {m m' : Machine} {failure : Failure}
    (h : call.action m = .error failure m') :
    m'.listing = m.listing ∨
      ∃ text, call = .load text ∧ m.listing.BreaksOff text failure m'.listing := by
  cases call with
  | insert number text =>
      simp only [Call.action] at h
      rw [Action.eq_of_edit_error h]
      exact Or.inl rfl
  | erase number =>
      simp only [Call.action] at h
      rw [Action.eq_of_edit_error h]
      exact Or.inl rfl
  | clear =>
      rw [Action.eq_of_edit_error h]
      exact Or.inl rfl
  | load text =>
      obtain ⟨houtcome, hlisting⟩ := Action.load_error h
      rw [hlisting]
      exact (Listing.load_error houtcome).imp_right fun hbreak => ⟨text, rfl, hbreak⟩
  | enter raw =>
      rcases Action.enter_cases raw m with ⟨entry, l, -, -, henter⟩ | ⟨failure', henter⟩
      · rw [Call.action, henter] at h
        cases h
      · rw [Call.action, henter] at h
        rw [← (EStateM.Result.error.inj h).2]
        exact Or.inl rfl

/-- A text with a line that has no number leaves the listing in place. -/
theorem listing_of_failed_call_unnumbered :
    ∃ (m m' : Machine) (failure : Failure),
      m.listing.lines.map (fun line => (line.number, line.text)) = [(10, "END")] ∧
      (Call.load "20 PRINT\nGOTO 10".toList).action m = .error failure m' ∧
      (m'.listing = m.listing ∨
        ∃ text, Call.load "20 PRINT\nGOTO 10".toList = .load text ∧
          m.listing.BreaksOff text failure m'.listing) := by
  let m : Machine := { listing := ({} : Listing).apply (.insert 10 "END") }
  have hcall : (Call.load "20 PRINT\nGOTO 10".toList).action m =
      .error (.complaint (.misread ⟨.noLineNumber "GOTO 10" (some 2), none⟩)) m := rfl
  exact ⟨m, m, _, rfl, hcall, listing_of_failed_call hcall⟩

/-! ## A text that breaks off -/

/-- The statement that jumps to a line. -/
def jumpTo (n : Nat) : String :=
  String.ofList ((StmtDraft.goto n).text [])

/-- The text of a program with the jump as its only line. -/
def jumpText (n : Nat) : List Char :=
  (Nat.toDigits 10 20 ++ ' ' :: (jumpTo n).toList) ++ ['\n']

section JumpText

variable (n : Nat)

theorem toList_jumpTo : (jumpTo n).toList = "GOTO ".toList ++ Nat.toDigits 10 n := by
  rw [jumpTo, String.toList_ofList, StmtDraft.text_goto]

theorem trim_jumpTo : Text.trim (jumpTo n).toList = (jumpTo n).toList := by
  rw [jumpTo, String.toList_ofList]
  exact StmtDraft.trim_text trivial (Int.natCast_nonneg n)

theorem entries_jumpText : Listing.entries (jumpText n) = .ok [⟨20, some (jumpTo n)⟩] := by
  have hne : jumpTo n ≠ "" := by
    intro hempty
    have hnil := toList_jumpTo n
    simp [hempty] at hnil
  have hdigits : ∀ k, Text.Unbroken (Nat.toDigits 10 k) :=
    fun k => Text.unbroken_of_not_isBlank fun c => Text.isBlank_of_mem_toDigits
  have hword : Text.Unbroken "GOTO ".toList := Text.unbroken_of_all (by decide)
  have hunbroken : Text.Unbroken (Nat.toDigits 10 20 ++ ' ' :: (jumpTo n).toList) := by
    rw [toList_jumpTo, Text.unbroken_append, Text.unbroken_cons, Text.unbroken_append]
    exact ⟨hdigits 20, rfl, hword, hdigits n⟩
  have hlines : Text.splitLines (jumpText n) =
      [Nat.toDigits 10 20 ++ ' ' :: (jumpTo n).toList] := by
    have hsplit := Text.splitLines_flatMap (List.forall_mem_singleton.mpr hunbroken)
    simpa [jumpText] using hsplit
  have hsmall : 20 < 10 ^ Text.maxDigits :=
    calc 20 < 10 ^ 2 := by decide
      _ ≤ 10 ^ Text.maxDigits := Nat.pow_le_pow_right (by decide) (by decide)
  have hentry : Entry.ofText (Nat.toDigits 10 20 ++ ' ' :: (jumpTo n).toList) (some 1) =
      .ok ⟨20, some (jumpTo n)⟩ :=
    Entry.ofText_line (trim_jumpTo n) hne hsmall
  have htrim := Entry.trim_line (n := 20) (trim_jumpTo n) hne
  rw [Listing.entries, hlines, Listing.entriesFrom, htrim, if_neg (by simp), hentry]
  rfl

variable {n} (hn : 10 ^ Text.maxDigits ≤ n)
include hn

theorem make_jumpTo (number : Int) :
    ∃ length, Line.make number (jumpTo n) = .error (.badTarget .GOTO (.tooLong length)) := by
  have htext : (jumpTo n).toList = (StmtDraft.goto n).text [] := String.toList_ofList
  have hparse := StmtDraft.parse_goto_of_le hn
  rw [← htext, Stmt.parse, trim_jumpTo] at hparse
  simp only [Line.make, hparse]
  exact ⟨_, rfl⟩

/-- Loading the text clears the listing and then fails, when the line number is too long. -/
theorem load_jumpText {l : Listing} (hopen : l.locked = false) (hroom : 0 < l.capacity) :
    ∃ failure, l.load (jumpText n) = ⟨{ l with lines := [] }, [], .error failure⟩ := by
  obtain ⟨length, hmake⟩ := make_jumpTo hn 20
  have hclear : l.clear = .ok { l with lines := [] } := by simp [Listing.clear, hopen]
  have hnofit : ¬ l.capacity ≤ 0 := by omega
  have henter : ({ l with lines := [] } : Listing).enter ⟨20, some (jumpTo n)⟩ =
      .error (.fault (.badTarget .GOTO (.tooLong length))) := by
    simp [Listing.enter, Listing.insert, hopen, hnofit, trim_jumpTo, hmake]
  simp only [Listing.load, entries_jumpText, hclear, Listing.enterAll, henter]
  exact ⟨_, rfl⟩

/-- Whatever program the machine has is gone after loading the text, which fails. -/
theorem load_jumpText_clears {m : Machine} (hopen : m.listing.locked = false)
    (hroom : 0 < m.listing.capacity) :
    ∃ failure m', (Call.load (jumpText n)).action m = .error failure m' ∧
      m'.listing.lines = [] := by
  obtain ⟨failure, hload⟩ := load_jumpText hn hopen hroom
  have houtcome : (m.listing.load (jumpText n)).outcome = .error failure := by rw [hload]
  refine ⟨failure, _, Action.load_of_error houtcome, ?_⟩
  rw [hload]
  rfl

end JumpText

/-- A jump to the least line number that is too long, loaded in place of another program. -/
theorem load_fails_and_clears :
    ∃ (m m' : Machine) (failure : Failure),
      m.listing.lines.map (fun line => (line.number, line.text)) = [(10, "END")] ∧
      (Call.load (jumpText (10 ^ Text.maxDigits))).action m = .error failure m' ∧
      m'.listing.lines = [] := by
  obtain ⟨m, hm⟩ : ∃ m : Machine, m = { listing := ({} : Listing).apply (.insert 10 "END") } :=
    ⟨_, rfl⟩
  have hopen : m.listing.locked = false := by rw [hm]; rfl
  have hroom : 0 < m.listing.capacity := by rw [hm]; decide
  have hlines : m.listing.lines.map (fun line => (line.number, line.text)) = [(10, "END")] := by
    rw [hm]
    rfl
  obtain ⟨failure, m', hcall, hcleared⟩ :=
    load_jumpText_clears (Nat.le_refl (10 ^ Text.maxDigits)) hopen hroom
  exact ⟨m, m', failure, hlines, hcall, hcleared⟩

end LineBasic
