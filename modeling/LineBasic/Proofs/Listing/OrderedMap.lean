/-
  LineBasic.Proofs.Listing.OrderedMap

  A listing is a finite map from line numbers to texts, written out in the order of the numbers.

  `Lists` relates a listing to its map. Inserting and erasing change the map at one number, the
  index of a line is the rank of its number, and the map determines the lines, so that it does not
  matter in which order a map was built up (`lines_eq_of_text?`). Two things keep a line out: a
  listing that is full, and a statement that refers to a line number that cannot be read. A full
  listing complains, unless the complaint has a number in it that cannot be written.
-/
import LineBasic.Proofs.Listing.Entering
import LineBasic.Proofs.Machine.Editing
import Mathlib.Data.List.Sort

namespace LineBasic

/-- The text as a listing keeps it, without the blanks around it. -/
def Text.stripped (text : String) : String :=
  String.ofList (trim text.toList)

/-- The text is a statement that refers to a line number that cannot be read. -/
def Stmt.HasLongTarget (text : String) : Prop :=
  ∃ kind flaw, Stmt.parse text.toList = .error (.target kind flaw)

theorem Stmt.HasLongTarget.exists_length {text : String} (h : HasLongTarget text) :
    ∃ length, Text.HoldsLongNumber text.toList length := by
  obtain ⟨kind, flaw, hparse⟩ := h
  obtain ⟨length, -, hlong⟩ := holdsLongNumber_of_parseAs hparse
  exact ⟨length, hlong.mono (Text.trim_isInfix _)⟩

/-- A line is made from a text unless it refers to a line number that cannot be read. -/
theorem Line.make_stripped_iff (number : Int) {text : String} :
    (∃ kind flaw, make number (Text.stripped text) = .error (.badTarget kind flaw)) ↔
      Stmt.HasLongTarget text := by
  have htrim : Text.trim (Text.stripped text).toList = (Text.stripped text).toList := by
    simp [Text.stripped]
  have hparse : Stmt.parse (Text.stripped text).toList = Stmt.parse text.toList := by
    simp [Text.stripped, Stmt.parse, Stmt.parseAs]
  simp only [make_eq_error_iff htrim, hparse, Stmt.HasLongTarget]
  refine ⟨?_, ?_⟩
  · rintro ⟨_, _, kind, flaw, htarget, -⟩
    exact ⟨kind, flaw, htarget⟩
  · rintro ⟨kind, flaw, htarget⟩
    exact ⟨kind, flaw, kind, flaw, htarget, rfl⟩

namespace Listing

/-- The listing is what some calls lead to, can be changed, has room for `capacity` lines, and holds
    the texts. -/
structure Lists (l : Listing) (capacity : Int) (texts : Int → Option String) : Prop where
  stored : l.Stored
  unlocked : l.locked = false
  capacity_eq : l.capacity = capacity
  text?_eq : ∀ n, l.text? n = texts n

/-- The entry is a line for which there is no room. -/
def Overflows (l : Listing) (entry : Entry) : Prop :=
  entry.text.isSome = true ∧ ¬ l.HasRoom entry.number

instance (l : Listing) (entry : Entry) : Decidable (l.Overflows entry) :=
  inferInstanceAs (Decidable (_ ∧ _))

/-- The listing after an entry; an entry that fails leaves it as it is. -/
def entered (l : Listing) (entry : Entry) : Listing :=
  (l.enter entry).toOption.getD l

variable {l l' : Listing} {n : Int} {text : String}

/-! ## The map determines the lines -/

theorem isSome_text?_iff : (l.text? n).isSome = true ↔ ∃ line ∈ l.lines, line.number = n := by
  simp [text?]

/-- Numbers increase, so two lines with the same number are one. -/
theorem Sound.eq_of_number {x y : Line} (hl : l.Sound) (hx : x ∈ l.lines) (hy : y ∈ l.lines)
    (h : x.number = y.number) : x = y := by
  have hnumbers : (l.lines.map (·.number)).Nodup :=
    List.pairwise_map.mpr (hl.ordered.imp fun hlt => Int.ne_of_lt hlt)
  exact List.inj_on_of_nodup_map hnumbers hx hy h

/-- In a sound listing a number has the text of the line with that number. -/
theorem text?_eq_some_iff (hl : l.Sound) :
    l.text? n = some text ↔ ∃ line ∈ l.lines, line.number = n ∧ line.text = text := by
  have hfound : ∀ {line}, l.lines.find? (·.number = n) = some line →
      line ∈ l.lines ∧ line.number = n := by
    intro line hfind
    exact ⟨List.mem_of_find?_eq_some hfind, by simpa using List.find?_some hfind⟩
  refine ⟨fun h => ?_, ?_⟩
  · obtain ⟨line, hfind, htext⟩ := Option.map_eq_some_iff.mp h
    exact ⟨line, (hfound hfind).1, (hfound hfind).2, htext⟩
  · rintro ⟨line, hline, hnumber, htext⟩
    obtain ⟨t, ht⟩ := Option.isSome_iff_exists.mp (isSome_text?_iff.mpr ⟨line, hline, hnumber⟩)
    obtain ⟨other, hfind, -⟩ := Option.map_eq_some_iff.mp ht
    have hsame : other = line :=
      hl.eq_of_number (hfound hfind).1 hline ((hfound hfind).2.trans hnumber.symm)
    rw [text?, hfind, Option.map_some, hsame, htext]

/-- Two sound listings with the same texts at the same numbers have the same lines. -/
theorem lines_eq_of_text? (hl : l.Sound) (hl' : l'.Sound) (h : ∀ n, l'.text? n = l.text? n) :
    l'.lines = l.lines := by
  have hsub : ∀ {a b : Listing}, a.Sound → b.Sound → (∀ n, b.text? n = a.text? n) →
      ∀ line ∈ a.lines, line ∈ b.lines := by
    intro a b ha hb hsame line hline
    have htext : b.text? line.number = some line.text := by
      rw [hsame, text?_eq_some_iff ha]
      exact ⟨line, hline, rfl, rfl⟩
    obtain ⟨other, hother, hnumber, htext⟩ := (text?_eq_some_iff hb).mp htext
    rwa [(ha.lines line hline).eq_of_text (hb.lines other hother) hnumber htext] at hother
  have hirrefl : Std.Irrefl fun x y : Line => x.number < y.number := ⟨fun _ => Int.lt_irrefl _⟩
  have hantisymm : Std.Antisymm fun x y : Line => x.number < y.number :=
    ⟨fun _ _ hlt hgt => absurd hgt (Int.lt_asymm hlt)⟩
  refine List.Pairwise.eq_of_mem_iff hl'.ordered hl.ordered fun line => ⟨?_, ?_⟩
  · exact hsub hl' hl (fun n => (h n).symm) line
  · exact hsub hl hl' h line

/-! ## The rank of a number -/

theorem findIdx?_eq_countP {lines : List Line} (h : lines.Pairwise (·.number < ·.number))
    (n : Int) :
    lines.findIdx? (·.number = n) =
      if (lines.find? (·.number = n)).isSome then some (lines.countP (·.number < n)) else none := by
  induction lines with
  | nil => rfl
  | cons line rest ih =>
      obtain ⟨hline, hrest⟩ := List.pairwise_cons.mp h
      rw [List.findIdx?_cons, List.find?_cons, List.countP_cons]
      by_cases hn : line.number = n
      · -- All numbers behind are greater, so none is counted.
        have hnone : rest.countP (·.number < n) = 0 := by
          rw [List.countP_eq_zero]
          intro x hx
          have hlt := hline x hx
          simp only [decide_eq_true_eq]
          omega
        simp [hn, hnone]
      · simp only [hn, decide_false, Bool.false_eq_true, if_false, ih hrest]
        by_cases hfound : (rest.find? (·.number = n)).isSome = true
        · obtain ⟨x, hx, hxn⟩ := List.find?_isSome.mp hfound
          have hlt := hline x hx
          have hless : line.number < n := by
            simp only [decide_eq_true_eq] at hxn
            omega
          simp only [hfound, if_true, Option.map_some, hless, decide_true]
        · simp [hfound]

/-- The index of a number is how many numbers are smaller. -/
theorem indexOf?_eq (hl : l.Sound) (n : Int) :
    l.indexOf? n =
      if (l.text? n).isSome then some (l.lines.countP (·.number < n)) else none := by
  rw [indexOf?, findIdx?_eq_countP hl.ordered, text?, Option.isSome_map]

/-! ## Edits of the map -/

/-- A text is stripped before it is inserted. -/
theorem insert_stripped : l.insert n (Text.stripped text) = l.insert n text := by
  simp [insert, Text.stripped]

namespace Lists

variable {capacity : Int} {texts : Int → Option String} {entry : Entry}
  (hl : l.Lists capacity texts)
include hl

theorem after (h : l.AfterEntry entry l') (hstored : l'.Stored) :
    l'.Lists capacity (Function.update texts entry.number entry.text) := by
  refine ⟨hstored, h.locked_eq.trans hl.unlocked, h.capacity_eq.trans hl.capacity_eq, fun k => ?_⟩
  rw [h.text?_eq, Function.update_apply, hl.text?_eq]

theorem not_hasRoom_iff : ¬ l.HasRoom n ↔ texts n = none ∧ capacity ≤ l.lines.length := by
  rw [HasRoom, ← isSome_text?_iff, hl.text?_eq, hl.capacity_eq, not_or, Int.not_lt,
    Bool.not_eq_true, Option.isSome_eq_false_iff, Option.isNone_iff_eq_none]

theorem insert_of_hasLongTarget (hroom : l.HasRoom n) (htext : Stmt.HasLongTarget text) :
    ∃ kind flaw, l.insert n text = .error (.fault (.badTarget kind flaw)) := by
  obtain ⟨kind, flaw, hmake⟩ := (Line.make_stripped_iff n).mpr htext
  exact ⟨kind, flaw, insert_of_make_error hl.unlocked hroom hmake⟩

/-- With room for it, a line changes the map at its number. -/
theorem insert (hroom : l.HasRoom n) (htext : ¬ Stmt.HasLongTarget text) :
    ∃ l', l.insert n text = .ok l' ∧
      l'.Lists capacity (Function.update texts n (some (Text.stripped text))) := by
  have htrimmed : Text.trim (Text.stripped text).toList = (Text.stripped text).toList := by
    simp [Text.stripped]
  cases hmake : Line.make n (Text.stripped text) with
  | error fault =>
      obtain ⟨kind, flaw, -, rfl⟩ := (Line.make_eq_error_iff htrimmed).mp hmake
      exact absurd ((Line.make_stripped_iff n).mp ⟨kind, flaw, hmake⟩) htext
  | ok line =>
      have hinsert := insert_of_make hl.unlocked hroom hmake
      have hafter : l.AfterEntry ⟨n, some (Text.stripped text)⟩ _ :=
        .insert htrimmed (insert_stripped.trans hinsert)
      exact ⟨_, hinsert, hl.after hafter (hl.stored.insert hinsert)⟩

/-- Without room the complaint of that is raised; with room only the text can be refused. -/
theorem insert_cases (n : Int) (text : String) :
    (¬ l.HasRoom n ∧ l.insert n text = .error (Complaint.listingFull capacity n).raised) ∨
    (l.HasRoom n ∧ ∃ kind flaw, l.insert n text = .error (.fault (.badTarget kind flaw))) ∨
    (l.HasRoom n ∧ ∃ l', l.insert n text = .ok l') := by
  by_cases hroom : l.HasRoom n
  · by_cases htext : Stmt.HasLongTarget text
    · exact Or.inr (Or.inl ⟨hroom, hl.insert_of_hasLongTarget hroom htext⟩)
    · obtain ⟨l', hinsert, -⟩ := hl.insert hroom htext
      exact Or.inr (Or.inr ⟨hroom, l', hinsert⟩)
  · exact Or.inl ⟨hroom, by rw [insert_of_not_hasRoom hl.unlocked hroom, hl.capacity_eq]⟩

/-- Want of room is complained of exactly if there is none and the numbers can be written. -/
theorem insert_full_iff :
    l.insert n text = .error (.complaint (.listingFull capacity n)) ↔
      ¬ l.HasRoom n ∧ (Complaint.listingFull capacity n).isWritable = true := by
  rcases hl.insert_cases n text with ⟨hfull, h⟩ | ⟨hroom, kind, flaw, h⟩ | ⟨hroom, l', h⟩
  · simp [h, hfull, Complaint.raised_eq_complaint_iff]
  · simp [h, hroom]
  · simp [h, hroom]

/-- Where they cannot, a fault keeps the line out in place of the complaint. -/
theorem insert_unwritable_iff :
    l.insert n text = .error (.fault .unwritable) ↔
      ¬ l.HasRoom n ∧ (Complaint.listingFull capacity n).isWritable = false := by
  rcases hl.insert_cases n text with ⟨hfull, h⟩ | ⟨hroom, kind, flaw, h⟩ | ⟨hroom, l', h⟩
  · simp [h, hfull, Complaint.raised_eq_fault_iff]
  · simp [h, hroom]
  · simp [h, hroom]

theorem erase (n : Int) :
    ∃ l', l.erase n = .ok l' ∧ l'.Lists capacity (Function.update texts n none) := by
  have herase : l.erase n = .ok { l with lines := l.lines.filter (·.number ≠ n) } := by
    rw [Listing.erase, hl.unlocked, if_neg Bool.false_ne_true]
  exact ⟨_, herase, hl.after (.erase herase) (hl.stored.erase herase)⟩

/-- An entry that fits changes the map at its number. -/
theorem entered (hfits : ¬ l.Overflows entry)
    (htext : ∀ text ∈ entry.text, ¬ Stmt.HasLongTarget text) :
    (l.entered entry).Lists capacity
      (Function.update texts entry.number (entry.text.map Text.stripped)) := by
  obtain ⟨n, text⟩ := entry
  cases text with
  | none =>
      obtain ⟨l', herase, hl'⟩ := hl.erase n
      rw [Listing.entered, enter_none, herase]
      exact hl'
  | some text =>
      have hroom : l.HasRoom n := by
        by_contra hfull
        exact hfits ⟨rfl, hfull⟩
      obtain ⟨l', hinsert, hl'⟩ := hl.insert hroom (htext text rfl)
      rw [Listing.entered, enter_some, hinsert]
      exact hl'

/-- An entry whose statement refers to a line number that cannot be read changes nothing. -/
theorem entered_of_hasLongTarget (htext : ∃ text ∈ entry.text, Stmt.HasLongTarget text) :
    l.entered entry = l := by
  obtain ⟨n, _⟩ := entry
  obtain ⟨text, rfl, htext⟩ := htext
  rw [Listing.entered, enter_some]
  by_cases hroom : l.HasRoom n
  · obtain ⟨kind, flaw, hinsert⟩ := hl.insert_of_hasLongTarget hroom htext
    rw [hinsert]
    rfl
  · rw [insert_of_not_hasRoom hl.unlocked hroom]
    rfl

/-- Whatever becomes of an entry that fits, the listing has a map. -/
theorem exists_entered (hfits : ¬ l.Overflows entry) :
    ∃ texts', (l.entered entry).Lists capacity texts' := by
  by_cases hlong : ∃ text ∈ entry.text, Stmt.HasLongTarget text
  · rw [hl.entered_of_hasLongTarget hlong]
    exact ⟨texts, hl⟩
  · exact ⟨_, hl.entered hfits fun text hmem htext => hlong ⟨text, hmem, htext⟩⟩

/-- Two listings with the same map and room for the same number of lines are the same. -/
theorem ext (hl' : l'.Lists capacity texts) : l' = l := by
  have hlines : l'.lines = l.lines :=
    lines_eq_of_text? hl.stored.sound hl'.stored.sound fun n => by
      rw [hl.text?_eq, hl'.text?_eq]
  have hcapacity : l'.capacity = l.capacity := hl'.capacity_eq.trans hl.capacity_eq.symm
  have hlocked : l'.locked = l.locked := hl'.unlocked.trans hl.unlocked.symm
  cases l
  cases l'
  simp only [Listing.mk.injEq]
  exact ⟨hlines, hcapacity, hlocked⟩

/-- Entries at different numbers can be made in either order, if they fit in both. -/
theorem entered_comm {a b : Entry} (hne : a.number ≠ b.number) (ha : ¬ l.Overflows a)
    (hab : ¬ (l.entered a).Overflows b) (hb : ¬ l.Overflows b)
    (hba : ¬ (l.entered b).Overflows a) :
    (l.entered a).entered b = (l.entered b).entered a := by
  have hnothing : ∀ {a b : Entry}, (∃ text ∈ a.text, Stmt.HasLongTarget text) → ¬ l.Overflows b →
      (l.entered a).entered b = (l.entered b).entered a := by
    intro a b hlong hb
    obtain ⟨texts', hl'⟩ := hl.exists_entered hb
    rw [hl.entered_of_hasLongTarget hlong, hl'.entered_of_hasLongTarget hlong]
  by_cases hlong : ∃ text ∈ a.text, Stmt.HasLongTarget text
  · exact hnothing hlong hb
  by_cases hlong' : ∃ text ∈ b.text, Stmt.HasLongTarget text
  · exact (hnothing hlong' ha).symm
  -- Both entries change the map, each at its own number.
  have hreads : ∀ text ∈ a.text, ¬ Stmt.HasLongTarget text :=
    fun text hmem htext => hlong ⟨text, hmem, htext⟩
  have hreads' : ∀ text ∈ b.text, ¬ Stmt.HasLongTarget text :=
    fun text hmem htext => hlong' ⟨text, hmem, htext⟩
  have hfirst := (hl.entered ha hreads).entered hab hreads'
  have hsecond := (hl.entered hb hreads').entered hba hreads
  rw [Function.update_comm hne.symm] at hsecond
  exact hsecond.ext hfirst

end Lists

/-! ## Listings are maps in order -/

/-- A listing that holds some texts and can be changed. Inserting is refused for want of room
    exactly if the number is new and the listing is full; the refusal is a complaint if the number
    and the capacity can be written, else a fault. Otherwise inserting maps the number to the text,
    stripped, unless the statement refers to a line number that cannot be read, which has too many
    digits. Erasing takes the number out of the map. The index of a number is how many numbers are
    smaller. Calls that lead to the same map lead to the same lines, so that entries at different
    numbers can be made in either order, as long as no entry overflows. -/
theorem lists_map_in_order {capacity : Int} {texts : Int → Option String}
    (hl : l.Lists capacity texts) :
    (∀ n text,
      (l.insert n text = .error (.complaint (.listingFull capacity n)) ↔
        (texts n = none ∧ capacity ≤ l.lines.length) ∧
          capacity.natAbs < 10 ^ Text.maxDigits ∧ n.natAbs < 10 ^ Text.maxDigits) ∧
      (l.insert n text = .error (.fault .unwritable) ↔
        (texts n = none ∧ capacity ≤ l.lines.length) ∧
          ¬ (capacity.natAbs < 10 ^ Text.maxDigits ∧ n.natAbs < 10 ^ Text.maxDigits)) ∧
      (¬ (texts n = none ∧ capacity ≤ l.lines.length) →
        ((∃ l', l.insert n text = .ok l' ∧
            l'.Lists capacity (Function.update texts n (some (Text.stripped text)))) ↔
          ¬ Stmt.HasLongTarget text)) ∧
      (Stmt.HasLongTarget text → ∃ length, Text.HoldsLongNumber text.toList length)) ∧
    (∀ n, ∃ l', l.erase n = .ok l' ∧ l'.Lists capacity (Function.update texts n none)) ∧
    (∀ n, l.indexOf? n =
      if (texts n).isSome then some (l.lines.countP (·.number < n)) else none) ∧
    (∀ l', Stored l' → (∀ n, l'.text? n = texts n) → l'.lines = l.lines) ∧
    ∀ a b : Entry, a.number ≠ b.number → ¬ l.Overflows a → ¬ (l.entered a).Overflows b →
      ¬ l.Overflows b → ¬ (l.entered b).Overflows a →
      (l.entered a).entered b = (l.entered b).entered a := by
  refine ⟨fun n text => ⟨?_, ?_, fun hroom => ?_, fun h => h.exists_length⟩, hl.erase,
    fun n => ?_, fun l' hstored htexts => ?_, fun a b => hl.entered_comm⟩
  · rw [hl.insert_full_iff, hl.not_hasRoom_iff, isWritable_listingFull_iff]
  · rw [hl.insert_unwritable_iff, hl.not_hasRoom_iff, ← isWritable_listingFull_iff,
      Bool.not_eq_true]
  · rw [← hl.not_hasRoom_iff, not_not] at hroom
    refine ⟨?_, hl.insert hroom⟩
    rintro ⟨l', hinsert, -⟩ htext
    obtain ⟨kind, flaw, hfault⟩ := hl.insert_of_hasLongTarget hroom htext
    simp [hinsert] at hfault
  · rw [indexOf?_eq hl.stored.sound, hl.text?_eq]
  · exact lines_eq_of_text? hl.stored.sound hstored.sound fun n =>
      (htexts n).trans (hl.text?_eq n).symm

/-- A full listing, entered out of order: a new line is refused, an old one is replaced, and
    replacing one line and erasing another can be done in either order. -/
theorem lists_map_in_order_full :
    ∃ (l : Listing) (texts : Int → Option String), l.Lists 2 texts ∧
      texts 10 = some "PRINT 1" ∧ texts 20 = some "END" ∧ texts 30 = none ∧
      l.insert 30 "END" = .error (.complaint (.listingFull 2 30)) ∧
      (∃ l', l.insert 20 " GOTO 10 " = .ok l' ∧
        l'.Lists 2 (Function.update texts 20 (some "GOTO 10"))) ∧
      l.indexOf? 20 = some 1 ∧
      (l.entered ⟨10, none⟩).entered ⟨20, some "GOTO 10"⟩ =
        (l.entered ⟨20, some "GOTO 10"⟩).entered ⟨10, none⟩ := by
  let edits : List Edit := [.insert 20 "END", .insert 10 " PRINT 1 "]
  let l : Listing := ({ capacity := 2 } : Listing).applyAll edits
  have hl : l.Lists 2 l.text? := ⟨⟨2, edits, rfl⟩, rfl, rfl, fun _ => rfl⟩
  have hnew : l.text? 30 = none := by decide +kernel
  have hfull : (2 : Int) ≤ l.lines.length := by decide +kernel
  have hold : l.text? 20 = some "END" := by decide +kernel
  have hstripped : Text.stripped " GOTO 10 " = "GOTO 10" := by decide +kernel
  obtain ⟨hinsert, -, hindex, -, hcomm⟩ := lists_map_in_order hl
  have hreads : ¬ Stmt.HasLongTarget " GOTO 10 " := by
    rintro ⟨kind, flaw, hparse⟩
    cases hparse
  have hpower : 10 ^ 2 ≤ 10 ^ Text.maxDigits := Nat.pow_le_pow_right (by decide) (by decide)
  have hrefused : l.insert 30 "END" = .error (.complaint (.listingFull 2 30)) :=
    (hinsert 30 "END").1.mpr ⟨⟨hnew, hfull⟩, Nat.lt_of_lt_of_le (by decide) hpower,
      Nat.lt_of_lt_of_le (by decide) hpower⟩
  refine ⟨l, l.text?, hl, by decide +kernel, hold, hnew, hrefused, ?_, ?_, ?_⟩
  · have hreplaced := ((hinsert 20 " GOTO 10 ").2.2.1 (by simp [hold])).mpr hreads
    rwa [hstripped] at hreplaced
  · rw [hindex, hold]
    decide +kernel
  · refine hcomm ⟨10, none⟩ ⟨20, some "GOTO 10"⟩ (by decide) ?_ ?_ ?_ ?_
    all_goals decide +kernel

/-- A line that jumps to a number with too many digits is not stored, although there is room. -/
theorem insert_long_target_fails :
    ∃ (l : Listing) (texts : Int → Option String), l.Lists 1000 texts ∧
      ¬ (texts 10 = none ∧ (1000 : Int) ≤ l.lines.length) ∧
      ¬ ∃ l', l.insert 10 (jumpTo (10 ^ Text.maxDigits)) = .ok l' := by
  obtain ⟨l, hl⟩ : ∃ l : Listing, l = {} := ⟨_, rfl⟩
  have hlists : l.Lists 1000 l.text? := by
    rw [hl]
    exact ⟨⟨1000, [], rfl⟩, rfl, rfl, fun _ => rfl⟩
  have hempty : l.lines.length = 0 := by
    rw [hl]
    rfl
  have hroom : ¬ (l.text? 10 = none ∧ (1000 : Int) ≤ l.lines.length) := by
    rw [hempty]
    omega
  refine ⟨l, l.text?, hlists, hroom, ?_⟩
  rw [← hlists.not_hasRoom_iff, not_not] at hroom
  rintro ⟨l', hinsert⟩
  obtain ⟨length, hmake⟩ := make_jumpTo (Nat.le_refl (10 ^ Text.maxDigits)) 10
  rw [← String.ofList_toList (s := jumpTo _), ← trim_jumpTo] at hmake
  rw [insert_of_make_error hlists.unlocked hroom hmake] at hinsert
  simp at hinsert

end Listing

end LineBasic
