/-
  LineBasic.Proofs.Console.SaveLoad

  A program that was typed, saved, cleared and loaded again.

  Typed lines keep a listing in a state in which only one thing can go wrong: a text with a line
  break inside, which no typed line ends at but every loaded line does. What is saved is read back
  byte for byte and decodes to the characters that were saved, so with unbroken texts the same lines
  come back, and nothing is reported.
-/
import LineBasic.Console.Session
import LineBasic.Proofs.Machine.Control
import LineBasic.Proofs.Machine.Editing
import LineBasic.Proofs.Text.Utf8

namespace LineBasic

open Text

/-! ## Files -/

namespace Disk

variable {d d' : Disk} {path : String} {bytes : List UInt8}

/-- A file can be written at the path. -/
def Writable (d : Disk) (path : String) : Prop :=
  ∃ bytes d', d.write path bytes = .ok d'

theorem follow_of_ok {inside b : Bool} {part : String} (h : d.follow inside part = .ok b) :
    d'.follow inside part = .ok b := by
  unfold follow at h ⊢
  split at h
  · rename_i hdot
    rwa [if_pos hdot]
  · rename_i hdot
    split at h
    · rename_i hup
      rwa [if_neg hdot, if_pos hup]
    · split at h
      · simp at h
      · split at h <;> simp at h

/-- The way to a place does not lead over files, so files do not matter for it. -/
theorem parent_of_ok {p : Path} {b : Bool} (h : d.parent p = .ok b) : d'.parent p = .ok b := by
  have hfold : ∀ (parts : List String) (inside : Bool),
      parts.foldlM d.follow inside = .ok b → parts.foldlM d'.follow inside = .ok b := by
    intro parts
    induction parts with
    | nil => exact fun inside h => h
    | cons part rest ih =>
        intro inside h
        rw [List.foldlM_cons] at h ⊢
        obtain ⟨next, hnext, h⟩ := bind_eq_ok_iff.mp h
        exact bind_eq_ok_iff.mpr ⟨next, follow_of_ok hnext, ih next h⟩
  exact hfold _ _ h

/-- The place that a file was written at. -/
theorem writeAt_eq_ok {p : Path} (h : d.writeAt p bytes = .ok d') :
    ∃ inside name, d.parent p = .ok inside ∧ p.slashed = false ∧
      arrive inside (p.parts.getLast?.getD ".") = .ok (.name name) ∧
      d' = ⟨(name, bytes) :: d.files.filter (·.1 ≠ name)⟩ := by
  unfold writeAt at h
  obtain ⟨inside, hinside, h⟩ := bind_eq_ok_iff.mp h
  split at h
  · simp at h
  · rename_i hslashed
    obtain ⟨place, hplace, h⟩ := bind_eq_ok_iff.mp h
    split at h
    · simp at h
    · simp at h
    · rename_i name
      exact ⟨inside, name, hinside, Bool.eq_false_iff.mpr hslashed, hplace,
        (Except.ok.inj h).symm⟩

theorem mapError_eq_ok {ε ε' α : Type} {f : ε → ε'} {x : Except ε α} {a : α} :
    x.mapError f = .ok a ↔ x = .ok a := by
  cases x <;> simp [Except.mapError]

theorem write_eq_ok (h : d.write path bytes = .ok d') :
    ∃ p, Path.ofString path = .ok p ∧ d.writeAt p bytes = .ok d' := by
  obtain ⟨p, hp, h⟩ := bind_eq_ok_iff.mp h
  exact ⟨p, hp, mapError_eq_ok.mp h⟩

/-- What was written is read. -/
theorem read_of_write (h : d.write path bytes = .ok d') : d'.read path = .ok bytes := by
  obtain ⟨p, hp, hwrite⟩ := write_eq_ok h
  obtain ⟨inside, name, hparent, hslashed, hplace, rfl⟩ := writeAt_eq_ok hwrite
  refine bind_eq_ok_iff.mpr ⟨p, hp, mapError_eq_ok.mpr ?_⟩
  unfold readAt
  rw [parent_of_ok hparent]
  simp only [bind, Except.bind, hplace, List.lookup_cons, beq_self_eq_true, hslashed,
    Bool.false_eq_true, if_false]

/-- Where one file can be written, any can. -/
theorem Writable.write (h : d.Writable path) (bytes : List UInt8) :
    ∃ d', d.write path bytes = .ok d' := by
  obtain ⟨other, d₁, hwrite⟩ := h
  obtain ⟨p, hp, hwrite⟩ := write_eq_ok hwrite
  obtain ⟨inside, name, hparent, hslashed, hplace, -⟩ := writeAt_eq_ok hwrite
  refine ⟨⟨(name, bytes) :: d.files.filter (·.1 ≠ name)⟩, ?_⟩
  refine bind_eq_ok_iff.mpr ⟨p, hp, mapError_eq_ok.mpr ?_⟩
  unfold writeAt
  rw [hparent]
  simp only [bind, Except.bind, hslashed, Bool.false_eq_true, if_false, hplace]

theorem Writable.ne_empty (h : d.Writable path) : path ≠ "" := by
  rintro rfl
  obtain ⟨bytes, d', hwrite⟩ := h
  obtain ⟨p, hp, -⟩ := write_eq_ok hwrite
  simp [Path.ofString] at hp

end Disk

/-! ## Commands -/

/-- A word with an argument. -/
theorem Command.ofLine_word {word rest : List Char} {first : Char} {path : String}
    (hword : word = first :: rest) (hspace : ' ' ∉ word) (hblank : isBlank first = false)
    (hdigit : isDigit first = false) (hpath : trim path.toList = path.toList) (hne : path ≠ "") :
    ofLine (word ++ ' ' :: path.toList) = ofWord (String.ofList (upper word)) path.toList := by
  have hchars : path.toList ≠ [] := by simpa using hne
  have htrim : trim (word ++ ' ' :: path.toList) = word ++ ' ' :: path.toList := by
    apply trim_eq_self
    · intro c hc
      rw [hword] at hc
      obtain rfl := Option.some.inj hc
      exact hblank
    · intro c hc
      rw [List.getLast?_append_of_ne_nil _ (List.cons_ne_nil _ _),
        List.getLast?_cons_of_ne_nil hchars, ← hpath] at hc
      exact getLast?_trim hc
  have hsplit : splitAtSpace (word ++ ' ' :: path.toList) = (word, path.toList) :=
    splitAtSpace_append hspace
  unfold ofLine
  rw [htrim]
  rw [hword, List.cons_append] at hsplit ⊢
  simp only [hdigit, hsplit, hpath, Bool.false_eq_true, if_false]

/-- What a file command asks for, given a path. -/
def FileCommand.onPath (path : String) : FileCommand → Command
  | .LOAD => .load path
  | .SAVE => .save path

section Commands

variable {path : String} (hpath : trim path.toList = path.toList) (hne : path ≠ "")
include hpath hne

theorem Command.ofLine_file (command : FileCommand) :
    ofLine (command.word.toList ++ ' ' :: path.toList) = command.onPath path := by
  have hchars : path.toList ≠ [] := by simpa using hne
  have hupper : String.ofList (upper command.word.toList) = command.word := by
    cases command <;> decide
  have hspace : ' ' ∉ command.word.toList := by cases command <;> decide
  obtain ⟨first, rest, hword, hblank, hdigit⟩ : ∃ first rest,
      command.word.toList = first :: rest ∧ isBlank first = false ∧ isDigit first = false := by
    cases command with
    | LOAD => exact ⟨'L', _, rfl, by decide, by decide⟩
    | SAVE => exact ⟨'S', _, rfl, by decide, by decide⟩
  rw [ofLine_word hword hspace hblank hdigit hpath hne, hupper]
  cases command <;> simp [FileCommand.word, ofWord, FileCommand.onPath, hchars]

theorem Command.ofLine_save : ofLine ("SAVE ".toList ++ path.toList) = .save path :=
  ofLine_file hpath hne .SAVE

theorem Command.ofLine_load : ofLine ("LOAD ".toList ++ path.toList) = .load path :=
  ofLine_file hpath hne .LOAD

end Commands

theorem Command.ofLine_new : ofLine "NEW".toList = .new := by
  decide

/-! ## Saving, clearing and loading -/

namespace Action

variable {m m' m'' : Machine} {path : String} {contents : Except Fault (List UInt8)}
  {failure : Failure}

/-- A saved listing is loaded as its text, carriage returns turned into line feeds. -/
theorem loadFile_saved (l : Listing) :
    loadFile (.ok l.written.toUTF8.toList) = load (unifyNewlines l.written.toList) := by
  simp only [loadFile, Utf8.decode_toUTF8]

theorem tryLoad_of_ok (h : loadFile contents m = .ok () m') :
    tryLoad path contents m = .ok true m' := by
  simp only [tryLoad, tryCatch, tryCatchThe, MonadExceptOf.tryCatch, EStateM.tryCatch, bind,
    EStateM.bind, h]
  rfl

/-- A saved listing that loads without a complaint. -/
theorem tryLoad_saved {l l' : Listing}
    (h : m.listing.load (unifyNewlines l.written.toList) = ⟨l', [], .ok ()⟩) :
    tryLoad path (.ok l.written.toUTF8.toList) m =
      .ok true (({ m with listing := l' }).note (.loaded l'.lines.length)) := by
  have hload := load_of_ok (congrArg Listing.Loading.outcome h)
  rw [← loadFile_saved] at hload
  rw [tryLoad_of_ok hload, h]
  simp [afterLoading, Machine.noteAll]

/-- After a loading that fails and is reported, the listing is what the loading left. -/
theorem listing_of_tryLoad_error {b : Bool} (h : loadFile contents m = .error failure m')
    (hload : tryLoad path contents m = .ok b m'') : m''.listing = m'.listing := by
  simp only [tryLoad, tryCatch, tryCatchThe, MonadExceptOf.tryCatch, EStateM.tryCatch, bind,
    EStateM.bind, h] at hload
  cases failure with
  | complaint c =>
      obtain ⟨-, rfl⟩ := EStateM.Result.ok.inj hload
      rfl
  | fault fault =>
      cases hrefusal : fault.isRefusal with
      | true =>
          simp only [hrefusal, if_true] at hload
          obtain ⟨-, rfl⟩ := EStateM.Result.ok.inj hload
          rfl
      | false =>
          simp only [hrefusal] at hload
          cases hload

/-- Whether loading a saved listing succeeds or is reported, the listing is what the text of the
    saved one gives. -/
theorem listing_of_tryLoad {l : Listing} {b : Bool}
    (h : tryLoad path (.ok l.written.toUTF8.toList) m = .ok b m') :
    m'.listing = (m.listing.load (unifyNewlines l.written.toList)).listing := by
  have hfile := congrFun (loadFile_saved l) m
  cases houtcome : (m.listing.load (unifyNewlines l.written.toList)).outcome with
  | ok _ =>
      rw [load_of_ok houtcome] at hfile
      rw [tryLoad_of_ok hfile] at h
      rw [← (EStateM.Result.ok.inj h).2]
      rfl
  | error failure =>
      rw [load_of_error houtcome] at hfile
      rw [listing_of_tryLoad_error hfile h]
      rfl

end Action

namespace Dialog

variable {s s' : Session} (fuel : Nat) {path : String}

theorem get_eq_ok : (get : Dialog Session) s = .ok s s := rfl

theorem perform_save {disk : Disk} {text : String} (hdump : s.machine.listing.dump = .ok text)
    (h : s.disk.write path text.toUTF8.toList = .ok disk) :
    perform fuel (.save path) s =
      .ok true ⟨s.machine.note (.saved s.machine.listing.lines.length path), disk⟩ := by
  have hcontents : act Action.fileContents s = .ok (.ok text.toUTF8.toList) s := by
    rw [act, Action.fileContents, Action.bind_of_ok Action.get_eq_ok, hdump]
    rfl
  have hwrite : s.disk.write path
      ((Except.ok text.toUTF8.toList : Except Fault (List UInt8)).toOption.getD []) = .ok disk := h
  simp only [perform, saveWith, bind, EStateM.bind, hcontents, get_eq_ok, hwrite]
  rfl

theorem perform_new (hopen : s.machine.listing.locked = false) :
    perform fuel .new s =
      .ok true { s with machine :=
        ({ s.machine with listing := { s.machine.listing with lines := [] } }).reset } := by
  have hclear : s.machine.listing.clear = .ok { s.machine.listing with lines := [] } := by
    simp [Listing.clear, hopen]
  have hedit := Action.edit_of_ok (f := (·.clear)) hclear
  simp only [perform, act, Action.perform, Action.new, bind, EStateM.bind, hedit]
  rfl

theorem perform_load {m : Machine}
    (h : Action.tryLoad path (s.disk.read path) s.machine = .ok true m) :
    perform fuel (.load path) s = .ok true { s with machine := m } := by
  simp only [perform, tryLoad, act, bind, EStateM.bind, get_eq_ok, h]
  rfl

variable {fuel} in
theorem tryLoad_of_perform {b : Bool} (h : perform fuel (.load path) s = .ok b s') :
    ∃ loaded, Action.tryLoad path (s.disk.read path) s.machine = .ok loaded s'.machine := by
  simp only [perform, tryLoad, act, bind, EStateM.bind, get_eq_ok] at h
  cases hload : Action.tryLoad path (s.disk.read path) s.machine with
  | ok loaded m =>
      rw [hload] at h
      rw [← (EStateM.Result.ok.inj h).2]
      exact ⟨loaded, rfl⟩
  | error failure m =>
      rw [hload] at h
      cases h

end Dialog

/-! ## Typed lines -/

/-- What typed program lines make of a listing. -/
structure Listing.Typed (l : Listing) : Prop where
  sound : l.Sound
  unlocked : l.locked = false
  nonneg : ∀ line ∈ l.lines, 0 ≤ line.number
  short : ∀ line ∈ l.lines, line.number.natAbs < 10 ^ maxDigits
  nonempty : ∀ line ∈ l.lines, line.text ≠ ""

namespace Listing

variable {l l' : Listing} {entry : Entry}

theorem Typed.empty (hlines : l.lines = []) (hopen : l.locked = false) : l.Typed := by
  refine ⟨⟨?_, ?_, ?_⟩, hopen, ?_, ?_, ?_⟩
  all_goals simp [hlines]

theorem Typed.enter (hl : l.Typed) (hentry : entry.Sound) (h : l.enter entry = .ok l') :
    l'.Typed := by
  have hsound : l'.Sound := enter_induction Sound.insert Sound.erase hl.sound h
  unfold Listing.enter at h
  split at h
  · rename_i text htext
    obtain ⟨line, hmake, -, rfl⟩ := insert_eq_ok h
    obtain ⟨hnumber, hline⟩ := Line.make_eq_ok hmake
    rw [hentry.trimmed text htext, String.ofList_toList] at hline
    refine ⟨hsound, hl.unlocked, fun x hx => ?_, fun x hx => ?_, fun x hx => ?_⟩
    · rcases mem_of_mem_putLine hx with rfl | hx
      · exact hnumber ▸ hentry.nonneg
      · exact hl.nonneg x hx
    · rcases mem_of_mem_putLine hx with rfl | hx
      · exact hnumber ▸ hentry.short
      · exact hl.short x hx
    · rcases mem_of_mem_putLine hx with rfl | hx
      · exact hline ▸ hentry.nonempty text htext
      · exact hl.nonempty x hx
  · obtain rfl := erase_eq_ok h
    have hold : ∀ {x : Line}, x ∈ l.lines.filter (·.number ≠ entry.number) → x ∈ l.lines :=
      fun hx => (List.mem_filter.mp hx).1
    exact ⟨hsound, hl.unlocked, fun x hx => hl.nonneg x (hold hx), fun x hx => hl.short x (hold hx),
      fun x hx => hl.nonempty x (hold hx)⟩

end Listing

namespace Action

variable {m : Machine} {raw : List Char}

/-- A typed program line, also one that is complained of, keeps a typed listing typed. -/
theorem typed_tryEnter (hm : m.listing.Typed) : (machineAfter (tryEnter raw m)).listing.Typed := by
  rcases enter_cases raw m with ⟨entry, l, hentry, hl, henter⟩ | ⟨failure, henter⟩
  · simp only [tryEnter, tryCatch, tryCatchThe, MonadExceptOf.tryCatch, EStateM.tryCatch, henter,
      machineAfter]
    exact hm.enter (Entry.sound_of_ofText hentry) hl
  · simp only [tryEnter, tryCatch, tryCatchThe, MonadExceptOf.tryCatch, EStateM.tryCatch, henter]
    cases failure with
    | complaint c => exact hm
    | fault fault => exact hm

end Action

namespace Session

/-- The session that a result leaves. -/
def ofResult {α : Type} : EStateM.Result Failure Session α → Session
  | .ok _ s => s
  | .error _ s => s

/-- The session after lines that were typed, whatever became of each. -/
def typed (fuel : Nat) (s : Session) (lines : List (List Char)) : Session :=
  lines.foldl (fun s line => ofResult (Dialog.handle fuel line s)) s

/-- A typed program line keeps a typed listing typed, and leaves the files alone. -/
theorem typed_handle (fuel : Nat) {s : Session} {line text : List Char}
    (h : Command.ofLine line = .programLine text) (hs : s.machine.listing.Typed) :
    (ofResult (Dialog.handle fuel line s)).machine.listing.Typed ∧
      (ofResult (Dialog.handle fuel line s)).disk = s.disk := by
  have henter : (machineAfter (Action.tryEnter text s.machine)).listing.Typed :=
    Action.typed_tryEnter hs
  simp only [Dialog.handle, h, Dialog.perform, Dialog.act, Action.perform, bind, EStateM.bind]
  cases hresult : Action.tryEnter text s.machine with
  | ok _ m =>
      rw [hresult] at henter
      exact ⟨henter, rfl⟩
  | error failure m =>
      rw [hresult] at henter
      exact ⟨henter, rfl⟩

/-- What one typed line keeps, any number of them do. -/
theorem typed_typed (fuel : Nat) {s : Session} {lines : List (List Char)}
    (hlines : ∀ line ∈ lines, ∃ text, Command.ofLine line = .programLine text)
    (hs : s.machine.listing.Typed) :
    (s.typed fuel lines).machine.listing.Typed ∧ (s.typed fuel lines).disk = s.disk := by
  induction lines generalizing s with
  | nil => exact ⟨hs, rfl⟩
  | cons line rest ih =>
      simp only [List.mem_cons, forall_eq_or_imp] at hlines
      obtain ⟨⟨text, htext⟩, hrest⟩ := hlines
      obtain ⟨hstep, hdisk⟩ := typed_handle fuel htext hs
      obtain ⟨htyped, hdisk'⟩ := ih hrest hstep
      exact ⟨htyped, hdisk'.trans hdisk⟩

/-! ## There and back -/

/-- The numbers and texts of the lines. -/
def numberedTexts (s : Session) : List (Int × String) :=
  s.machine.listing.lines.map fun line => (line.number, line.text)

/-- Saving to the path, clearing and loading again brings the same lines back, and reports
    nothing. -/
def Restores (fuel : Nat) (path : String) (s : Session) : Prop :=
  ∃ (s₁ s₂ s₃ : Session) (events : List Event),
    Dialog.handle fuel ("SAVE ".toList ++ path.toList) s = .ok true s₁ ∧
    Dialog.handle fuel "NEW".toList s₁ = .ok true s₂ ∧
    Dialog.handle fuel ("LOAD ".toList ++ path.toList) s₂ = .ok true s₃ ∧
    s₃.numberedTexts = s.numberedTexts ∧
    s₃.machine.log = s.machine.log ++ events ∧ ∀ e ∈ events, e.report = ""

section Restores

variable (fuel : Nat) {path : String} {s : Session} (hs : s.machine.listing.Typed)
  (hpath : trim path.toList = path.toList) (hwrite : s.disk.Writable path)
include hs hpath hwrite

/-- The session between clearing and loading: no lines, and the old ones in the file. -/
theorem exists_cleared :
    ∃ s₁ s₂ : Session,
      Dialog.handle fuel ("SAVE ".toList ++ path.toList) s = .ok true s₁ ∧
      Dialog.handle fuel "NEW".toList s₁ = .ok true s₂ ∧
      s₂.machine.listing = { s.machine.listing with lines := [] } ∧
      s₂.disk.read path = .ok s.machine.listing.written.toUTF8.toList ∧
      ∃ n, s₂.machine.log = s.machine.log.push (.saved n path) := by
  obtain ⟨disk, hdisk⟩ := hwrite.write s.machine.listing.written.toUTF8.toList
  have hsave := Dialog.perform_save fuel (Listing.dump_of_numbers hs.short) hdisk
  have hnew : Dialog.perform fuel .new
      ⟨s.machine.note (.saved s.machine.listing.lines.length path), disk⟩ = _ :=
    Dialog.perform_new fuel hs.unlocked
  rw [← Command.ofLine_save hpath hwrite.ne_empty] at hsave
  rw [← Command.ofLine_new] at hnew
  exact ⟨_, _, hsave, hnew, rfl, Disk.read_of_write hdisk, _, rfl⟩

theorem restores_of_unbroken (h : ∀ line ∈ s.machine.listing.lines, Unbroken line.text.toList) :
    s.Restores fuel path := by
  obtain ⟨s₁, s₂, hsave, hnew, hcleared, hread, n, hlog⟩ := exists_cleared fuel hs hpath hwrite
  have hplain : ∀ line ∈ s.machine.listing.lines, line.Plain :=
    fun line hline => ⟨hs.nonneg line hline, hs.nonempty line hline, h line hline⟩
  -- The text has no carriage return, so it is loaded as it was saved.
  have hfeeds : unifyNewlines s.machine.listing.written.toList =
      s.machine.listing.written.toList := by
    apply unifyNewlines_eq_self
    intro hreturn
    rw [Listing.written_toList, List.mem_flatMap] at hreturn
    obtain ⟨raw, hraw, hreturn⟩ := hreturn
    obtain ⟨line, hline, rfl⟩ := List.mem_map.mp hraw
    rcases List.mem_append.mp hreturn with hreturn | hreturn
    · exact absurd ((hplain line hline).unbroken_shown _ hreturn) (by decide)
    · exact absurd hreturn (by decide)
  have hload : s₂.machine.listing.load (unifyNewlines s.machine.listing.written.toList) =
      ⟨s.machine.listing, [], .ok ()⟩ := by
    rw [hfeeds, hcleared]
    exact Listing.load_written_of_plain hs.sound hplain hs.short hs.unlocked rfl
  have htry : Action.tryLoad path (s₂.disk.read path) s₂.machine = .ok true _ :=
    hread ▸ Action.tryLoad_saved hload
  have hloaded := Dialog.perform_load fuel htry
  rw [← Command.ofLine_load hpath hwrite.ne_empty] at hloaded
  refine ⟨s₁, s₂, _, [.saved n path, .loaded s.machine.listing.lines.length], hsave, hnew, hloaded,
    rfl, ?_, ?_⟩
  · simp [Machine.note, hlog]
  · simp only [List.mem_cons, List.not_mem_nil, or_false, forall_eq_or_imp, forall_eq]
    exact ⟨rfl, rfl⟩

theorem unbroken_of_restores (h : s.Restores fuel path) :
    ∀ line ∈ s.machine.listing.lines, Unbroken line.text.toList := by
  obtain ⟨s₁, s₂, s₃, events, hsave, hnew, hload, hsame, -, -⟩ := h
  obtain ⟨t₁, t₂, hsave', hnew', hcleared, hread, -⟩ := exists_cleared fuel hs hpath hwrite
  obtain rfl : s₁ = t₁ := (EStateM.Result.ok.inj (hsave.symm.trans hsave')).2
  obtain rfl : s₂ = t₂ := (EStateM.Result.ok.inj (hnew.symm.trans hnew')).2
  rw [Dialog.handle, Command.ofLine_load hpath hwrite.ne_empty] at hload
  obtain ⟨loaded, htry⟩ := Dialog.tryLoad_of_perform hload
  rw [hread] at htry
  have hlisting := Action.listing_of_tryLoad htry
  intro line hline
  have hpair : (line.number, line.text) ∈ s₃.numberedTexts := by
    rw [hsame]
    exact List.mem_map_of_mem hline
  obtain ⟨loadedLine, hmem, heq⟩ := List.mem_map.mp hpair
  obtain ⟨-, htext⟩ := Prod.mk.inj heq
  -- No line is left from before the loading, so the line was loaded, and has no break.
  rw [hlisting] at hmem
  rcases Listing.plain_of_mem_load hmem with hold | hplain
  · rw [hcleared] at hold
    simp at hold
  · rw [← htext]
    exact hplain.unbroken

end Restores

/-- A program that was typed into an empty listing comes back from a path that can be written
    exactly when none of its texts has a line break inside. -/
theorem restores_typed_iff (fuel : Nat) {s : Session} (hempty : s.machine.listing.lines = [])
    (hopen : s.machine.listing.locked = false) {lines : List (List Char)}
    (hlines : ∀ line ∈ lines, ∃ text, Command.ofLine line = .programLine text) {path : String}
    (hpath : trim path.toList = path.toList) (hwrite : s.disk.Writable path) :
    (s.typed fuel lines).Restores fuel path ↔
      ∀ line ∈ (s.typed fuel lines).machine.listing.lines,
        ∀ c ∈ line.text.toList, isLineBreak c = false := by
  obtain ⟨htyped, hdisk⟩ := typed_typed fuel hlines (.empty hempty hopen)
  rw [← hdisk] at hwrite
  exact ⟨unbroken_of_restores fuel htyped hpath hwrite,
    restores_of_unbroken fuel htyped hpath hwrite⟩

/-- Lines that are entered, replaced and deleted. -/
theorem restores_typed_iff_edited :
    (typed 0 {} ["20 GOTO 10".toList, "10 PRINT \"A B\"".toList, "30 END".toList,
        "10  PRINT 'A'".toList, "30".toList]).numberedTexts =
      [(10, "PRINT 'A'"), (20, "GOTO 10")] ∧
    (typed 0 {} ["20 GOTO 10".toList, "10 PRINT \"A B\"".toList, "30 END".toList,
        "10  PRINT 'A'".toList, "30".toList]).Restores 0 "a.bas" := by
  obtain ⟨lines, hlines⟩ : ∃ lines, lines = ["20 GOTO 10".toList, "10 PRINT \"A B\"".toList,
    "30 END".toList, "10  PRINT 'A'".toList, "30".toList] := ⟨_, rfl⟩
  have htexts : (typed 0 {} lines).numberedTexts = [(10, "PRINT 'A'"), (20, "GOTO 10")] := by
    rw [hlines]
    rfl
  have hprogram : ∀ line ∈ lines, ∃ text, Command.ofLine line = .programLine text := by
    rw [hlines]
    simp only [List.mem_cons, List.not_mem_nil, or_false, forall_eq_or_imp, forall_eq]
    exact ⟨⟨_, rfl⟩, ⟨_, rfl⟩, ⟨_, rfl⟩, ⟨_, rfl⟩, ⟨_, rfl⟩⟩
  have hwrite : ({} : Disk).Writable "a.bas" := ⟨[], _, rfl⟩
  have hpath : trim "a.bas".toList = "a.bas".toList := by decide
  have hiff := restores_typed_iff 0 (s := {}) rfl rfl hprogram hpath hwrite
  rw [← hlines]
  refine ⟨htexts, hiff.mpr ?_⟩
  intro line hline
  have hpair : (line.number, line.text) ∈ (typed 0 {} lines).numberedTexts :=
    List.mem_map_of_mem hline
  rw [htexts] at hpair
  simp only [List.mem_cons, Prod.mk.injEq, List.not_mem_nil, or_false] at hpair
  rcases hpair with ⟨-, htext⟩ | ⟨-, htext⟩
  · rw [htext]
    exact unbroken_of_all (by decide)
  · rw [htext]
    exact unbroken_of_all (by decide)

/-- A vertical tab inside a quoted text. -/
theorem not_restores_vertical_tab :
    (∃ text, Command.ofLine "10 PRINT \"A\x0bB\"".toList = .programLine text) ∧
      trim "a.bas".toList = "a.bas".toList ∧ ({} : Disk).Writable "a.bas" ∧
      ¬ (typed 0 {} ["10 PRINT \"A\x0bB\"".toList]).Restores 0 "a.bas" := by
  obtain ⟨s, hs⟩ : ∃ s, s = typed 0 {} ["10 PRINT \"A\x0bB\"".toList] := ⟨_, rfl⟩
  have hprogram : ∃ text, Command.ofLine "10 PRINT \"A\x0bB\"".toList = .programLine text :=
    ⟨_, rfl⟩
  have hpath : trim "a.bas".toList = "a.bas".toList := by decide
  have hwrite : ({} : Disk).Writable "a.bas" := ⟨[], _, rfl⟩
  have htexts : s.numberedTexts = [(10, "PRINT \"A\x0bB\"")] := by
    rw [hs]
    rfl
  obtain ⟨htyped, hdisk⟩ := typed_typed 0 (s := {}) (List.forall_mem_singleton.mpr hprogram)
    (.empty rfl rfl)
  rw [← hs] at htyped hdisk ⊢
  refine ⟨hprogram, hpath, hwrite, fun hrestores => ?_⟩
  have hunbroken := unbroken_of_restores 0 htyped hpath (hdisk ▸ hwrite) hrestores
  have hpair : (10, "PRINT \"A\x0bB\"") ∈ s.numberedTexts := by
    rw [htexts]
    exact List.mem_singleton_self _
  obtain ⟨line, hline, hsame⟩ := List.mem_map.mp hpair
  have htext : line.text = "PRINT \"A\x0bB\"" := (Prod.mk.inj hsame).2
  have htab := hunbroken line hline '\x0b' (by rw [htext]; decide)
  exact absurd htab (by decide)

end Session

end LineBasic
