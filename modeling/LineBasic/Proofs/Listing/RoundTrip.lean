/-
  LineBasic.Proofs.Listing.RoundTrip

  The listing as text. A line is plain when its text form tells it: its number is not negative, and
  its text is neither empty nor broken. Loading yields plain lines only, and the text of a sound
  listing of plain lines loads to these lines again. So a listing survives as text exactly when all
  its lines are plain.
-/
import LineBasic.Proofs.Listing.Entry
import LineBasic.Proofs.Listing.Sound

namespace LineBasic

/-! ## Lines -/

/-- What the text form of a line keeps apart from other lines. -/
structure Line.Plain (line : Line) : Prop where
  nonneg : 0 ≤ line.number
  nonempty : line.text ≠ ""
  unbroken : Text.Unbroken line.text.toList

namespace Line

/-- The line as it is typed. -/
def entry (line : Line) : Entry :=
  ⟨line.number, some line.text⟩

/-- The line as it is listed, without the line feed behind it. -/
def shown (line : Line) : List Char :=
  (toString line.number).toList ++ ' ' :: line.text.toList

/-- What a line is made from. -/
theorem make_eq_ok {number : Int} {text : String} {line : Line} (h : make number text = .ok line) :
    line.number = number ∧ line.text = text := by
  simp only [make] at h
  split at h
  · obtain rfl := Except.ok.inj h
    exact ⟨rfl, rfl⟩
  · obtain rfl := Except.ok.inj h
    exact ⟨rfl, rfl⟩
  · simp at h

/-- A sound line is made from its number and its text alone. -/
theorem Sound.make_eq {line : Line} (h : line.Sound) : make line.number line.text = .ok line := by
  have hparse : Stmt.parseAs (Kind.ofText line.text.toList) line.text.toList =
      line.content.mapError .misread := by
    rw [← h.parse_eq, Stmt.parse, h.trimmed]
  obtain ⟨number, text, kind, content⟩ := line
  obtain rfl : kind = Kind.ofText text.toList := h.kind_eq
  cases content with
  | ok stmt =>
      have hok : Stmt.parseAs (Kind.ofText text.toList) text.toList = .ok stmt := hparse
      simp only [make, hok]
  | error m =>
      have herror : Stmt.parseAs (Kind.ofText text.toList) text.toList = .error (.misread m) :=
        hparse
      simp only [make, herror]

/-- A line is what its number and text say. -/
theorem Sound.eq_of_text {line line' : Line} (h : line.Sound) (h' : line'.Sound)
    (hnumber : line'.number = line.number) (htext : line'.text = line.text) : line' = line := by
  have hmake := h'.make_eq
  rw [hnumber, htext, h.make_eq] at hmake
  exact (Except.ok.inj hmake).symm

section Plain

variable {line : Line} (hplain : line.Plain)
include hplain

theorem Plain.shown_eq :
    line.shown = Nat.toDigits 10 line.number.toNat ++ ' ' :: line.text.toList := by
  rw [shown, Text.toList_toString_int hplain.nonneg]

theorem Plain.unbroken_shown : Text.Unbroken line.shown := by
  have hnumber : Text.Unbroken (Nat.toDigits 10 line.number.toNat) :=
    Text.unbroken_of_not_isBlank fun _ => Text.isBlank_of_mem_toDigits
  rw [hplain.shown_eq]
  exact Text.unbroken_append.mpr ⟨hnumber, Text.unbroken_cons.mpr ⟨by decide, hplain.unbroken⟩⟩

/-- A plain line that is listed is typed again. -/
theorem Plain.ofText_shown (hsound : line.Sound)
    (hnumber : line.number.natAbs < 10 ^ Text.maxDigits) (source : Option Nat) :
    Text.trim line.shown ≠ [] ∧ Entry.ofText line.shown source = .ok line.entry := by
  have hvalue : ((line.number.toNat : Nat) : Int) = line.number := Int.toNat_of_nonneg hplain.nonneg
  have hsmall : line.number.toNat < 10 ^ Text.maxDigits := by
    have habs : line.number.toNat = line.number.natAbs := by omega
    rw [habs]
    exact hnumber
  rw [hplain.shown_eq]
  refine ⟨?_, ?_⟩
  · rw [Entry.trim_line hsound.trimmed hplain.nonempty]
    simp
  · rw [Entry.ofText_line hsound.trimmed hplain.nonempty hsmall, hvalue]
    rfl

end Plain

end Line

namespace Listing

/-! ## Text to entries -/

theorem mem_entriesFrom {source : Nat} {raws : List (List Char)} {es : List Entry}
    (h : entriesFrom source raws = .ok es) {entry : Entry} (hmem : entry ∈ es) :
    ∃ raw ∈ raws, ∃ n, Entry.ofText raw n = .ok entry := by
  induction raws generalizing source es with
  | nil =>
      rw [entriesFrom] at h
      obtain rfl := Except.ok.inj h
      simp at hmem
  | cons raw rest ih =>
      rw [entriesFrom] at h
      split at h
      · obtain ⟨r, hr, hentry⟩ := ih h hmem
        exact ⟨r, List.mem_cons_of_mem _ hr, hentry⟩
      · obtain ⟨first, hfirst, h⟩ := bind_eq_ok_iff.mp h
        obtain ⟨others, hothers, h⟩ := bind_eq_ok_iff.mp h
        obtain rfl := pure_eq_ok_iff.mp h
        rcases List.mem_cons.mp hmem with rfl | hmem
        · exact ⟨raw, List.mem_cons_self, _, hfirst⟩
        · obtain ⟨r, hr, hentry⟩ := ih hothers hmem
          exact ⟨r, List.mem_cons_of_mem _ hr, hentry⟩

/-- An entry of a text stands in one of its lines. -/
theorem mem_entries {text : List Char} {es : List Entry} (h : entries text = .ok es)
    {entry : Entry} (hmem : entry ∈ es) :
    entry.Sound ∧ ∀ t ∈ entry.text, Text.Unbroken t.toList := by
  obtain ⟨raw, hraw, n, hentry⟩ := mem_entriesFrom h hmem
  refine ⟨Entry.sound_of_ofText hentry, fun t ht c hc => ?_⟩
  exact Text.unbroken_of_mem_splitLines hraw c (Entry.mem_of_ofText hentry ht hc)

theorem entriesFrom_shown {source : Nat} {lines : List Line} (hplain : ∀ line ∈ lines, line.Plain)
    (hsound : ∀ line ∈ lines, line.Sound)
    (hnumbers : ∀ line ∈ lines, line.number.natAbs < 10 ^ Text.maxDigits) :
    entriesFrom source (lines.map Line.shown) = .ok (lines.map Line.entry) := by
  induction lines generalizing source with
  | nil => rfl
  | cons line rest ih =>
      simp only [List.mem_cons, forall_eq_or_imp] at hplain hsound hnumbers
      obtain ⟨htrim, hentry⟩ :=
        hplain.1.ofText_shown hsound.1 hnumbers.1 (some source)
      have hrest : entriesFrom (source + 1) (rest.map Line.shown) = .ok (rest.map Line.entry) :=
        ih hplain.2 hsound.2 hnumbers.2
      rw [List.map_cons, entriesFrom, if_neg (by simpa using htrim), hentry, hrest]
      rfl

theorem written_toList (l : Listing) :
    l.written.toList = (l.lines.map Line.shown).flatMap (· ++ ['\n']) := by
  rw [written, String.toList_join, List.flatMap_map, List.flatMap_map]
  congr 1
  funext line
  have hspace : (toString " ").toList = [' '] := rfl
  have hfeed : (toString "\n").toList = ['\n'] := rfl
  have htext : toString line.text = line.text := rfl
  simp [Line.shown, hspace, hfeed, htext]

/-- A listing can be written if its numbers can. -/
theorem dump_of_numbers {l : Listing}
    (h : ∀ line ∈ l.lines, line.number.natAbs < 10 ^ Text.maxDigits) : l.dump = .ok l.written := by
  rw [dump, if_pos]
  exact List.all_eq_true.mpr fun line hline => Text.isWritable_iff.mpr (h line hline)

/-! ## Entries to lines -/

/-- The lines after some entries are old ones, or made from one of the entries. -/
theorem mem_enterAll {l : Listing} {es : List Entry} {line : Line}
    (h : line ∈ (l.enterAll es).listing.lines) :
    line ∈ l.lines ∨ ∃ entry ∈ es, ∃ text ∈ entry.text,
      Line.make entry.number (String.ofList (Text.trim text.toList)) = .ok line := by
  induction es generalizing l with
  | nil => exact Or.inl h
  | cons entry rest ih =>
      have hlater : ∀ {l' : Listing}, line ∈ (l'.enterAll rest).listing.lines →
          line ∈ l'.lines ∨ ∃ e ∈ entry :: rest, ∃ text ∈ e.text,
            Line.make e.number (String.ofList (Text.trim text.toList)) = .ok line := by
        intro l' hl'
        refine (ih hl').imp_right ?_
        rintro ⟨e, he, hline⟩
        exact ⟨e, List.mem_cons_of_mem _ he, hline⟩
      simp only [enterAll] at h
      split at h
      · rename_i l' hentry
        rcases hlater h with hold | hnew
        · unfold enter at hentry
          split at hentry
          · rename_i text htext
            obtain ⟨made, hmake, -, rfl⟩ := insert_eq_ok hentry
            rcases mem_of_mem_putLine hold with rfl | hold
            · exact Or.inr ⟨entry, List.mem_cons_self, text, htext, hmake⟩
            · exact Or.inl hold
          · rw [erase_eq_ok hentry] at hold
            exact Or.inl (List.mem_filter.mp hold).1
        · exact Or.inr hnew
      · exact hlater h
      · exact Or.inl h

/-- Loading leaves old lines, or brings plain ones. -/
theorem plain_of_mem_load {l : Listing} {text : List Char} {line : Line}
    (h : line ∈ (l.load text).listing.lines) : line ∈ l.lines ∨ line.Plain := by
  simp only [load] at h
  split at h
  · exact Or.inl h
  · rename_i es hes
    split at h
    · exact Or.inl h
    · rename_i cleared hclear
      rw [clear_eq_ok hclear] at h
      rcases mem_enterAll h with hold | ⟨entry, hentry, t, ht, hmake⟩
      · simp at hold
      · obtain ⟨hsound, hunbroken⟩ := mem_entries hes hentry
        obtain ⟨hnumber, htext⟩ := Line.make_eq_ok hmake
        rw [hsound.trimmed t ht, String.ofList_toList] at htext
        refine Or.inr ⟨?_, ?_, ?_⟩
        · rw [hnumber]
          exact hsound.nonneg
        · rw [htext]
          exact hsound.nonempty t ht
        · rw [htext]
          exact hunbroken t ht

/-- A line behind all others is put at the end. -/
theorem putLine_last {line : Line} {lines : List Line} (h : ∀ x ∈ lines, x.number < line.number) :
    putLine line lines = lines ++ [line] := by
  induction lines with
  | nil => rfl
  | cons x rest ih =>
      simp only [List.mem_cons, forall_eq_or_imp] at h
      have hx := h.1
      rw [putLine, if_neg (by omega), if_neg (by omega), ih h.2, List.cons_append]

/-- A sound line with the greatest number, for which there is room, is inserted at the end. -/
theorem insert_last {l : Listing} {line : Line} (hopen : l.locked = false) (hline : line.Sound)
    (hlast : ∀ x ∈ l.lines, x.number < line.number) (hroom : (l.lines.length : Int) < l.capacity) :
    l.enter line.entry = .ok { l with lines := l.lines ++ [line] } := by
  have hmake : Line.make line.number (String.ofList (Text.trim line.text.toList)) = .ok line := by
    rw [hline.trimmed, String.ofList_toList, hline.make_eq]
  have hfull : ¬ l.capacity ≤ l.lines.length := by omega
  simp only [enter, Line.entry, insert, hopen, hfull, hmake, putLine_last hlast, decide_false,
    Bool.and_false, if_false, Bool.false_eq_true]

/-- Sound lines in order, for which there is room, are entered one behind the other. -/
theorem enterAll_lines {l : Listing} {rest : List Line} (hopen : l.locked = false)
    (hordered : (l.lines ++ rest).Pairwise (·.number < ·.number))
    (hfits : ((l.lines ++ rest).length : Int) ≤ max l.capacity 0)
    (hsound : ∀ line ∈ rest, line.Sound) :
    l.enterAll (rest.map Line.entry) = ⟨{ l with lines := l.lines ++ rest }, [], .ok ()⟩ := by
  -- Over the lines still to come; those entered so far stand in the listing.
  induction rest generalizing l with
  | nil => simp [enterAll]
  | cons line rest ih =>
      simp only [List.mem_cons, forall_eq_or_imp] at hsound
      have hlast : ∀ x ∈ l.lines, x.number < line.number := by
        intro x hx
        exact (List.pairwise_append.mp hordered).2.2 x hx line List.mem_cons_self
      have hroom : (l.lines.length : Int) < l.capacity := by
        simp only [List.length_append, List.length_cons] at hfits
        omega
      have hshift : l.lines ++ line :: rest = l.lines ++ [line] ++ rest := by simp
      rw [hshift] at hordered hfits
      have hrest := ih (l := { l with lines := l.lines ++ [line] }) hopen hordered hfits hsound.2
      rw [List.map_cons, enterAll, insert_last hopen hsound.1 hlast hroom]
      simp only
      rw [hrest, hshift]

/-! ## Listings as text -/

/-- A listing of plain lines is loaded from its text, whatever was in the listing before. -/
theorem load_written_of_plain {l old : Listing} (hl : l.Sound)
    (hplain : ∀ line ∈ l.lines, line.Plain)
    (hnumbers : ∀ line ∈ l.lines, line.number.natAbs < 10 ^ Text.maxDigits)
    (hopen : old.locked = false) (hcapacity : old.capacity = l.capacity) :
    old.load l.written.toList = ⟨{ old with lines := l.lines }, [], .ok ()⟩ := by
  have hunbroken : ∀ raw ∈ l.lines.map Line.shown, Text.Unbroken raw := by
    intro raw hraw
    obtain ⟨line, hline, rfl⟩ := List.mem_map.mp hraw
    exact (hplain line hline).unbroken_shown
  have hentries : entries l.written.toList = .ok (l.lines.map Line.entry) := by
    rw [entries, written_toList, Text.splitLines_flatMap hunbroken,
      entriesFrom_shown hplain hl.lines hnumbers]
  have hclear : old.clear = .ok { old with lines := [] } := by
    simp [clear, hopen]
  have hfits := hl.fits
  rw [← hcapacity] at hfits
  have henter : ({ old with lines := [] } : Listing).enterAll (l.lines.map Line.entry) =
      ⟨{ old with lines := l.lines }, [], .ok ()⟩ :=
    enterAll_lines hopen hl.ordered hfits hl.lines
  simp only [load, hentries, hclear]
  exact henter

/-- A listing that calls led to, with numbers that can be read and written, has a text that is
    loaded into an empty listing without a complaint, and gives the same lines, exactly when every
    number is not negative, every text has characters, and none of them breaks a line. -/
theorem load_dump_iff {l : Listing} (hl : l.Stored)
    (hnumbers : ∀ line ∈ l.lines, line.number.natAbs < 10 ^ Text.maxDigits) :
    (∃ (text : String) (loaded : Listing), l.dump = .ok text ∧ loaded.lines = l.lines ∧
      ({ capacity := l.capacity } : Listing).load text.toList = ⟨loaded, [], .ok ()⟩) ↔
      ∀ line ∈ l.lines,
        0 ≤ line.number ∧ line.text ≠ "" ∧ ∀ c ∈ line.text.toList, Text.isLineBreak c = false := by
  refine ⟨?_, ?_⟩
  · rintro ⟨text, loaded, -, hsame, hload⟩ line hline
    -- The line was loaded into a listing without lines, so it is not an old one.
    have hmem : line ∈ (({ capacity := l.capacity } : Listing).load text.toList).listing.lines := by
      rw [hload]
      exact hsame ▸ hline
    rcases plain_of_mem_load hmem with hold | hplain
    · simp at hold
    · exact ⟨hplain.nonneg, hplain.nonempty, hplain.unbroken⟩
  · intro h
    have hplain : ∀ line ∈ l.lines, line.Plain :=
      fun line hline => ⟨(h line hline).1, (h line hline).2.1, (h line hline).2.2⟩
    have hload : ({ capacity := l.capacity } : Listing).load l.written.toList =
        ⟨{ capacity := l.capacity, lines := l.lines }, [], .ok ()⟩ :=
      load_written_of_plain hl.sound hplain hnumbers rfl rfl
    exact ⟨l.written, { capacity := l.capacity, lines := l.lines }, dump_of_numbers hnumbers, rfl,
      hload⟩

/-- Two lines, one of them malformed, entered out of order. -/
theorem load_dump_iff_two :
    ∃ l : Listing, l.Stored ∧
      l.lines.map (fun line => (line.number, line.text)) = [(10, "GOTO"), (20, "PRINT 'A'")] ∧
      ∃ (text : String) (loaded : Listing), l.dump = .ok text ∧ loaded.lines = l.lines ∧
        ({ capacity := l.capacity } : Listing).load text.toList = ⟨loaded, [], .ok ()⟩ := by
  let edits : List Edit := [.insert 20 " PRINT 'A'", .insert 10 "GOTO", .erase 5]
  obtain ⟨l, hl⟩ : ∃ l, l = ({ capacity := 2 } : Listing).applyAll edits := ⟨_, rfl⟩
  have hlines : l.lines.map (fun line => (line.number, line.text)) =
      [(10, "GOTO"), (20, "PRINT 'A'")] := by
    rw [hl]
    rfl
  have hmem : ∀ line ∈ l.lines, (line.number = 10 ∧ line.text = "GOTO") ∨
      (line.number = 20 ∧ line.text = "PRINT 'A'") := by
    intro line hline
    have hpair := List.mem_map_of_mem (f := fun line : Line => (line.number, line.text)) hline
    rw [hlines] at hpair
    simpa using hpair
  have hstored : Listing.Stored l := ⟨2, edits, hl⟩
  refine ⟨l, hstored, hlines, (load_dump_iff hstored ?_).mpr ?_⟩
  · intro line hline
    have hpower : 10 ^ 2 ≤ 10 ^ Text.maxDigits := Nat.pow_le_pow_right (by decide) (by decide)
    rcases hmem line hline with ⟨hnumber, -⟩ | ⟨hnumber, -⟩
    · rw [hnumber]
      exact Nat.lt_of_lt_of_le (by decide) hpower
    · rw [hnumber]
      exact Nat.lt_of_lt_of_le (by decide) hpower
  · intro line hline
    rcases hmem line hline with ⟨hnumber, htext⟩ | ⟨hnumber, htext⟩
    · rw [hnumber, htext]
      exact ⟨by decide, by decide, Text.unbroken_of_all (by decide)⟩
    · rw [hnumber, htext]
      exact ⟨by decide, by decide, Text.unbroken_of_all (by decide)⟩

end Listing

end LineBasic
