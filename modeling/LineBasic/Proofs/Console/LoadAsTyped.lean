/-
  LineBasic.Proofs.Console.LoadAsTyped

  Loading a text does what clearing the listing and typing the lines of the text does.

  The two go different ways: loading takes all lines apart before it applies the first, and collects
  what did not fit; the console takes a line at a time, says at once what is wrong with it, and ends
  at the first line that cannot be taken. Line by line they meet in the same entries
  (`handleAll_eq`), so they leave the same lines, the same text on the error stream, and the same
  failure if there is one.
-/
import LineBasic.Proofs.Console.SaveLoad
import LineBasic.Proofs.Console.TypedLine

namespace LineBasic

/-- What the error stream has shown. -/
def Machine.errorText (m : Machine) : String :=
  String.join (m.log.toList.map Event.report)

theorem Session.ofResult_resultOf (s : Session) (outcome : Except Failure Unit) :
    ofResult (resultOf s outcome) = s := by
  cases outcome with
  | ok _ => rfl
  | error failure => rfl

namespace Dialog

/-- Answers lines one after the other, up to the first that cannot be taken. -/
def handleAll (fuel : Nat) : List (List Char) → Dialog Unit
  | [] => pure ()
  | line :: rest => do
    let _ ← handle fuel line
    handleAll fuel rest

/-- Clears the listing and types the lines of a text. -/
def retype (fuel : Nat) (text : List Char) : Dialog Unit := do
  act (Action.edit (·.clear))
  handleAll fuel (Text.splitLines text)

/-- Loads a text. -/
def loadText (text : List Char) : Dialog Unit :=
  act (Action.load text)

end Dialog

/-! ## Lines of a text -/

/-- A line that stands for an entry starts with a digit. -/
theorem Entry.TypedAs.ofLine {line : List Char} {entry : Entry} (h : TypedAs line entry) :
    Command.ofLine line = .programLine (Text.trim line) := by
  obtain ⟨c, hfirst, hdigit⟩ : ∃ c, (Text.trim line).head? = some c ∧ Text.isDecimal c = true := by
    cases h with
    | number hline hne hword =>
        obtain ⟨c, rest, hcons⟩ := List.exists_cons_of_ne_nil hne
        rw [hline, hcons]
        exact ⟨c, rfl, hword.1 c (by simp [hcons])⟩
    | numbered hline hne hword =>
        obtain ⟨c, rest, hcons⟩ := List.exists_cons_of_ne_nil hne
        rw [hline, hcons]
        exact ⟨c, rfl, hword.1 c (by simp [hcons])⟩
  rw [Text.head?_trim_eq_find?] at hfirst
  exact Command.ofLine_of_isDigit hfirst (by rw [Text.isDigit, hdigit, Bool.true_or])

/-- A text whose lines are blank or stand for entries is taken apart. -/
theorem Listing.entriesFrom_eq_ok {raws : List (List Char)}
    (h : ∀ raw ∈ raws, Text.trim raw ≠ [] → ∃ entry, Entry.ofText raw none = .ok entry)
    (source : Nat) : ∃ es, entriesFrom source raws = .ok es := by
  induction raws generalizing source with
  | nil => exact ⟨[], rfl⟩
  | cons raw rest ih =>
      simp only [List.mem_cons, forall_eq_or_imp] at h
      obtain ⟨es, hes⟩ := ih h.2 (source + 1)
      rw [entriesFrom]
      by_cases hblank : Text.trim raw = []
      · rw [if_pos (by simp [hblank])]
        exact ⟨es, hes⟩
      · obtain ⟨entry, hentry⟩ := h.1 hblank
        have hread : Entry.ofText raw (some source) = .ok entry :=
          Entry.ofText_of_typedAs (Entry.typedAs_of_ofText hentry)
        rw [if_neg (by simpa using hblank), hread, hes]
        exact ⟨entry :: es, rfl⟩

namespace Dialog

variable {fuel : Nat} {s : Session}

theorem handle_blank {line : List Char} (h : Text.trim line = []) :
    handle fuel line s = .ok true s := by
  have hcommand : Command.ofLine line = .nothing := by
    rw [Command.ofLine, h]
  rw [handle, hcommand]
  rfl

theorem bind_of_ok {α β : Type} {x : Dialog α} {f : α → Dialog β} {a : α} {s' : Session}
    (h : x s = .ok a s') : (x >>= f) s = f a s' := by
  simp only [bind, EStateM.bind, h]

theorem bind_of_error {α β : Type} {x : Dialog α} {f : α → Dialog β} {failure : Failure}
    {s' : Session} (h : x s = .error failure s') : (x >>= f) s = .error failure s' := by
  simp only [bind, EStateM.bind, h]

section Entries

variable {line : List Char} {entry : Entry} (htyped : Entry.TypedAs line entry)
include htyped

theorem handle_entered {l : Listing} (h : s.machine.listing.enter entry = .ok l) :
    handle fuel line s = .ok true { s with machine := { s.machine with listing := l } } := by
  rw [← Listing.enterLine_of_typedAs htyped] at h
  exact handle_of_tryEnter htyped.ofLine (Action.tryEnter_of_ok h)

theorem handle_refused {c : Complaint} (h : s.machine.listing.enter entry = .error (.complaint c)) :
    handle fuel line s = .ok true { s with machine := s.machine.note (.lineRefused c) } := by
  rw [← Listing.enterLine_of_typedAs htyped] at h
  exact handle_of_tryEnter htyped.ofLine (Action.tryEnter_of_error h)

theorem handle_faulted {fault : Fault} (h : s.machine.listing.enter entry = .error (.fault fault)) :
    handle fuel line s = .error (.fault fault) s := by
  rw [← Listing.enterLine_of_typedAs htyped] at h
  exact handle_of_tryEnter_error htyped.ofLine (Action.tryEnter_of_error h)

end Entries

/-- The machine after typed lines that led to the listing, with complaints about some of them. -/
def afterTyping (m : Machine) (loading : Listing.Loading) : Machine :=
  ({ m with listing := loading.listing }).noteAll (loading.dropped.map .lineRefused)

/-- A complaint about the first of some lines. -/
theorem afterTyping_note (m : Machine) (c : Complaint) (loading : Listing.Loading) :
    afterTyping (m.note (.lineRefused c)) loading =
      afterTyping m { loading with dropped := c :: loading.dropped } := by
  have hlog : m.log.push (.lineRefused c) ++ loading.dropped.map Event.lineRefused =
      m.log ++ (c :: loading.dropped).map Event.lineRefused := by
    apply Array.toList_inj.mp
    simp
  simp only [afterTyping, Machine.noteAll, Machine.note, hlog]

/-- Typed lines do what their entries do, one after the other. -/
theorem handleAll_eq {raws : List (List Char)} {source : Nat} {es : List Entry}
    (h : Listing.entriesFrom source raws = .ok es) :
    handleAll fuel raws s =
      resultOf { s with machine := afterTyping s.machine (s.machine.listing.enterAll es) }
        (s.machine.listing.enterAll es).outcome := by
  -- Over the lines of the text; the session is what the lines before have made of it.
  induction raws generalizing source es s with
  | nil =>
      obtain rfl := Except.ok.inj h
      simp only [Listing.enterAll, afterTyping, Machine.noteAll, List.map_nil, Array.appendList_nil]
      rfl
  | cons raw rest ih =>
      rw [Listing.entriesFrom] at h
      rw [handleAll]
      by_cases hblank : Text.trim raw = []
      · rw [if_pos (by simp [hblank])] at h
        rw [bind_of_ok (handle_blank hblank)]
        exact ih h
      · rw [if_neg (by simpa using hblank)] at h
        obtain ⟨entry, hentry, h⟩ := bind_eq_ok_iff.mp h
        obtain ⟨others, hothers, h⟩ := bind_eq_ok_iff.mp h
        obtain rfl := pure_eq_ok_iff.mp h
        have htyped := Entry.typedAs_of_ofText hentry
        cases hfirst : s.machine.listing.enter entry with
        | ok l =>
            rw [bind_of_ok (handle_entered htyped hfirst), ih hothers]
            simp only [Listing.enterAll, hfirst]
            rfl
        | error failure =>
            cases failure with
            | complaint c =>
                rw [bind_of_ok (handle_refused htyped hfirst), ih hothers, afterTyping_note]
                simp only [Listing.enterAll, hfirst]
                rfl
            | fault fault =>
                rw [bind_of_error (handle_faulted htyped hfirst)]
                simp only [Listing.enterAll, hfirst, afterTyping, Machine.noteAll, List.map_nil,
                  Array.appendList_nil]
                rfl

/-! ## Loading -/

/-- What is noted is shown behind what was shown before. -/
theorem errorText_noteAll (m : Machine) (events : List Event) :
    (m.noteAll events).errorText = m.errorText ++ String.join (events.map Event.report) := by
  simp [Machine.errorText, Machine.noteAll, String.join_append]

theorem errorText_note (m : Machine) (event : Event) :
    (m.note event).errorText = m.errorText ++ event.report := by
  simp only [Machine.errorText, Machine.note, Array.toList_push, List.map_append, List.map_cons,
    List.map_nil, String.join_append, String.join_cons, String.join_nil, String.append_empty]

/-- Loading a text ends in the machine that the loading made, with complaints about the lines that
    did not fit; it shows nothing else. -/
theorem loadText_eq {text : List Char} {loading : Listing.Loading}
    (h : s.machine.listing.load text = loading) :
    ∃ s' : Session, loadText text s = resultOf s' loading.outcome ∧
      s'.machine.listing = loading.listing ∧
      s'.machine.errorText = (Action.afterLoading s.machine loading).errorText := by
  let m : Machine := Action.afterLoading s.machine loading
  cases houtcome : loading.outcome with
  | ok _ =>
      have hload : Action.load text s.machine =
          .ok () (m.note (.loaded loading.listing.lines.length)) := by
        rw [Action.load_of_ok (h ▸ houtcome), h]
      refine ⟨{ s with machine := m.note (.loaded loading.listing.lines.length) }, ?_, rfl, ?_⟩
      · rw [loadText, act, hload]
        rfl
      · rw [errorText_note]
        exact String.append_empty
  | error failure =>
      have hload : Action.load text s.machine = .error failure m := by
        rw [Action.load_of_error (h ▸ houtcome), h]
      refine ⟨{ s with machine := m }, ?_, rfl, rfl⟩
      rw [loadText, act, hload]
      rfl

/-- Loading fails, once the lines are taken apart, only for a line with too many digits in a row or
    for a capacity with too many. -/
theorem tooLong_of_load {l : Listing} {text : List Char} {es : List Entry}
    {failure : Failure} (hopen : l.locked = false) (hentries : Listing.entries text = .ok es)
    (h : (l.enterAll es).outcome = .error failure) :
    (∃ raw ∈ Text.splitLines text, ∃ length, Text.HoldsLongNumber raw length) ∨
      Text.isWritable l.capacity = false := by
  obtain ⟨before, entry, after, fault, rfl, -, -, hfault⟩ := Listing.exists_of_enterAll_error h
  have hmem : entry ∈ before ++ entry :: after := List.mem_append_right before List.mem_cons_self
  obtain ⟨hsound, -⟩ := Listing.mem_entries hentries hmem
  obtain ⟨lines, hlines⟩ := Listing.exists_lines_enterAll l before
  have hrefuses : (l.enterAll before).listing.Refuses entry fault :=
    Listing.refuses_of_enter (by rw [hlines]; exact hopen) hsound hfault
  rw [hlines] at hrefuses
  cases hrefuses with
  | longTarget htext hlong =>
      obtain ⟨raw, hraw, n, hread⟩ := Listing.mem_entriesFrom hentries hmem
      have hpart := Entry.isInfix_of_typedAs (Entry.typedAs_of_ofText hread) htext
      exact Or.inl ⟨raw, hraw, _, hlong.mono hpart⟩
  | unwritable hfull hcapacity => exact Or.inr hcapacity

/-- In a session that can be changed, loading a text whose lines are blank or numbered ends as
    clearing the listing and typing the lines does: with the same lines, the same text on the error
    stream, and the same failure if there is one. It fails only if a line has too many digits in a
    row, or the capacity has too many for the complaint that the listing is full. -/
theorem loadText_agrees_with_retype (fuel : Nat) {text : List Char}
    (hopen : s.machine.listing.locked = false)
    (haccepted : ∀ raw ∈ Text.splitLines text, Text.trim raw ≠ [] →
      ∃ entry, Entry.ofText raw none = .ok entry) :
    ∃ (s₁ s₂ : Session) (outcome : Except Failure Unit) (shown : String),
      loadText text s = resultOf s₁ outcome ∧ retype fuel text s = resultOf s₂ outcome ∧
      s₂.machine.listing = s₁.machine.listing ∧
      s₁.machine.errorText = s.machine.errorText ++ shown ∧
      s₂.machine.errorText = s.machine.errorText ++ shown ∧
      ∀ failure, outcome = .error failure →
        (∃ raw ∈ Text.splitLines text, ∃ length, Text.HoldsLongNumber raw length) ∨
          Text.isWritable s.machine.listing.capacity = false := by
  obtain ⟨es, hes⟩ := Listing.entriesFrom_eq_ok haccepted 1
  have hentries : Listing.entries text = .ok es := hes
  have hclear : s.machine.listing.clear = .ok { s.machine.listing with lines := [] } := by
    simp [Listing.clear, hopen]
  obtain ⟨loading, hloading⟩ :
      ∃ loading, loading = ({ s.machine.listing with lines := [] } : Listing).enterAll es :=
    ⟨_, rfl⟩
  have hload : s.machine.listing.load text = loading := by
    simp only [Listing.load, hentries, hclear, hloading]
  have hretype : retype fuel text s =
      resultOf { s with machine := afterTyping s.machine loading } loading.outcome := by
    have hcleared : act (Action.edit (·.clear)) s = .ok () { s with machine :=
        { s.machine with listing := { s.machine.listing with lines := [] } } } := by
      rw [act, Action.edit_of_ok (f := (·.clear)) hclear]
    rw [retype, bind_of_ok hcleared, handleAll_eq hes, hloading]
    rfl
  obtain ⟨s₁, hresult, hlisting, htext⟩ := loadText_eq hload
  refine ⟨s₁, _, loading.outcome,
    String.join (loading.dropped.map fun c => c.message ++ "\n"), hresult, hretype, hlisting.symm,
    ?_, ?_, fun failure hfailure => ?_⟩
  · rw [htext, Action.afterLoading, errorText_noteAll, List.map_map]
    rfl
  · rw [afterTyping, errorText_noteAll, List.map_map]
    rfl
  · rw [hloading] at hfailure
    exact tooLong_of_load (l := { s.machine.listing with lines := [] }) hopen hentries hfailure

/-- A text with a line too many, which fits once another is deleted, and a line that is replaced,
    loaded and typed in place of an older program. -/
theorem loadText_agrees_with_retype_overflow :
    ∃ (s s₁ s₂ : Session) (outcome : Except Failure Unit),
      s.machine.listing.locked = false ∧
      s.machine.listing.text? 99 = some "END" ∧
      loadText "10 PRINT 1\n20 GOTO 10\n\n30 END\n10\n 30 END\n20 PRINT\n".toList s =
        resultOf s₁ outcome ∧
      retype 0 "10 PRINT 1\n20 GOTO 10\n\n30 END\n10\n 30 END\n20 PRINT\n".toList s =
        resultOf s₂ outcome ∧
      s₂.machine.listing = s₁.machine.listing ∧
      s₂.numberedTexts = [(20, "PRINT"), (30, "END")] ∧
      s₂.machine.errorText = "Program full (2 lines), line 30 dropped\n" := by
  obtain ⟨text, htext⟩ : ∃ text, text =
    "10 PRINT 1\n20 GOTO 10\n\n30 END\n10\n 30 END\n20 PRINT\n".toList := ⟨_, rfl⟩
  let s : Session :=
    { machine := { listing := ({ capacity := 2 } : Listing).applyAll [.insert 99 "END"] } }
  have hopen : s.machine.listing.locked = false := by decide +kernel
  have hnumbered : (Text.splitLines text).all
      (fun raw => (Text.trim raw).isEmpty || (Entry.ofText raw none).isOk) = true := by
    rw [htext]
    decide +kernel
  have haccepted : ∀ raw ∈ Text.splitLines text, Text.trim raw ≠ [] →
      ∃ entry, Entry.ofText raw none = .ok entry := by
    intro raw hraw hne
    have hline := List.all_eq_true.mp hnumbered raw hraw
    cases hentry : Entry.ofText raw none with
    | ok entry => exact ⟨entry, rfl⟩
    | error failure => simp [hentry, hne, Except.isOk, Except.toBool] at hline
  obtain ⟨s₁, s₂, outcome, shown, hload, hretype, hlisting, -, -, -⟩ :=
    loadText_agrees_with_retype 0 hopen haccepted
  have hs₂ : s₂ = Session.ofResult (retype 0 text s) := by
    rw [hretype, Session.ofResult_resultOf]
  rw [← htext]
  refine ⟨s, s₁, s₂, outcome, hopen, by decide +kernel, hload, hretype, hlisting, ?_, ?_⟩
  · rw [hs₂, htext]
    decide +kernel
  · rw [hs₂, htext]
    decide +kernel

end Dialog

end LineBasic
