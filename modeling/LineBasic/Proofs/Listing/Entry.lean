/-
  LineBasic.Proofs.Listing.Entry

  Typed program lines. Whatever is taken for one has a number that is not negative and no longer
  than a number may be, and if it has a text, the text is trimmed, not empty, and a part of what was
  typed. In the other direction, a number and a trimmed text with a space between them are taken for
  that number and that text.

  `Entry.TypedAs` says what a line stands for without saying how it is taken apart. A line that
  stands for no entry is refused in one of two ways: its first word does not look like a number, or
  it does and cannot be read as one.
-/
import LineBasic.Listing.Basic
import LineBasic.Proofs.Text.Integer
import LineBasic.Proofs.Text.LineBreak
import LineBasic.Proofs.Text.Trim

namespace LineBasic

namespace Text

theorem bne_space {word : List Char} (h : ' ' ∉ word) : ∀ c ∈ word, (c != ' ') = true := by
  intro c hc
  rw [bne_iff_ne]
  rintro rfl
  exact h hc

theorem splitAtSpace_append {word rest : List Char} (h : ' ' ∉ word) :
    splitAtSpace (word ++ ' ' :: rest) = (word, rest) := by
  have htake : (word ++ ' ' :: rest).takeWhile (· != ' ') = word :=
    Grammar.takeWhile_append_stop (bne_space h) (by simp)
  -- What is not taken is dropped at the space.
  have hdrop : (word ++ ' ' :: rest).dropWhile (· != ' ') = ' ' :: rest := by
    have hboth := List.takeWhile_append_dropWhile (p := (· != ' ')) (l := word ++ ' ' :: rest)
    rw [htake] at hboth
    exact List.append_cancel_left hboth
  rw [splitAtSpace, htake, hdrop, List.drop_succ_cons, List.drop_zero]

theorem splitAtSpace_of_notMem {s : List Char} (h : ' ' ∉ s) : splitAtSpace s = (s, []) := by
  have hdrop : s.dropWhile (· != ' ') = [] := List.dropWhile_eq_nil_iff.mpr (bne_space h)
  rw [splitAtSpace, List.takeWhile_eq_self_iff.mpr (bne_space h), hdrop, List.drop_nil]

/-- The first word of a line, which ends at a space. -/
def firstWord (line : List Char) : List Char :=
  (splitAtSpace (trim line)).1

/-- A line that is not blank has a first word. -/
theorem firstWord_ne_nil {line : List Char} {c : Char}
    (h : line.find? (fun c => !isBlank c) = some c) : firstWord line ≠ [] := by
  rw [← head?_trim_eq_find?] at h
  have hblank : isBlank c = false := head?_trim h
  have hspace : (c != ' ') = true := by
    rw [bne_iff_ne]
    rintro rfl
    exact absurd hblank (by decide)
  obtain ⟨rest, hrest⟩ := List.head?_eq_some_iff.mp h
  rw [firstWord, splitAtSpace, hrest]
  simp [hspace]

theorem firstWord_isInfix (line : List Char) : firstWord line <:+: line :=
  (List.takeWhile_prefix _).isInfix.trans (trim_isInfix line)

/-- A trimmed text does not end with its first space. -/
theorem trim_ne_nil_of_space {s word rest : List Char} (h : trim s = word ++ ' ' :: rest) :
    trim rest ≠ [] := by
  intro hnil
  rw [trim_eq_nil_iff] at hnil
  have hne := List.cons_ne_nil ' ' rest
  have hlast : (trim s).getLast? = some ((' ' :: rest).getLast hne) := by
    rw [h, List.getLast?_append_of_ne_nil _ hne, List.getLast?_eq_some_getLast hne]
  have hblank : ∀ c ∈ ' ' :: rest, isBlank c = true :=
    List.forall_mem_cons.mpr ⟨by decide, hnil⟩
  have hlastBlank := hblank _ (List.getLast_mem hne)
  rw [getLast?_trim hlast] at hlastBlank
  exact Bool.false_ne_true hlastBlank

end Text

namespace Entry

variable {raw : List Char} {source : Option Nat} {entry : Entry}

/-- What an entry is, whatever it was read from. -/
structure Sound (entry : Entry) : Prop where
  nonneg : 0 ≤ entry.number
  short : entry.number.natAbs < 10 ^ Text.maxDigits
  nonempty : ∀ text ∈ entry.text, text ≠ ""
  trimmed : ∀ text ∈ entry.text, Text.trim text.toList = text.toList

/-- The parts of an entry that was read. -/
theorem ofText_eq_ok (h : ofText raw source = .ok entry) :
    ∃ word rest, Text.splitAtSpace (Text.trim raw) = (word, rest) ∧ word ≠ [] ∧
      Text.Readable word ∧ entry.number = Text.decimalValue word ∧
      entry.text =
        if (Text.trim rest).isEmpty then none else some (String.ofList (Text.trim rest)) := by
  simp only [ofText] at h
  split at h
  · simp at h
  · rename_i hlooks
    split at h
    · simp at h
    · rename_i number hnumber
      obtain ⟨hreadable, rfl⟩ := Text.readNatural_eq_ok_iff.mp hnumber
      obtain rfl := Except.ok.inj h
      rw [Bool.or_eq_true, not_or, List.isEmpty_iff] at hlooks
      exact ⟨_, _, rfl, hlooks.1, hreadable, rfl, rfl⟩

/-! ## What a line stands for -/

/-- The entry that a line stands for: a number alone, or a number, a space and a text. -/
inductive TypedAs (line : List Char) : Entry → Prop
  | number {word : List Char} (hline : Text.trim line = word) (hne : word ≠ [])
      (hword : Text.Readable word) : TypedAs line ⟨Text.decimalValue word, none⟩
  | numbered {word rest : List Char} (hline : Text.trim line = word ++ ' ' :: rest)
      (hne : word ≠ []) (hword : Text.Readable word) :
      TypedAs line ⟨Text.decimalValue word, some (String.ofList (Text.trim rest))⟩

/-- A line whose first word is read has the number it shows. -/
theorem ofText_of_readable {word rest : List Char}
    (hsplit : Text.splitAtSpace (Text.trim raw) = (word, rest)) (hne : word ≠ [])
    (hword : Text.Readable word) :
    ofText raw source = .ok ⟨Text.decimalValue word,
      if (Text.trim rest).isEmpty then none else some (String.ofList (Text.trim rest))⟩ := by
  have hdigits : word.all Text.isDigit = true := by
    rw [List.all_eq_true]
    intro c hc
    rw [Text.isDigit, hword.1 c hc, Bool.true_or]
  simp only [ofText, hsplit, hdigits, Text.readNatural_of_readable hword]
  simp [hne]

theorem ofText_of_typedAs (h : TypedAs raw entry) : ofText raw source = .ok entry := by
  cases h with
  | number hline hne hword =>
      subst hline
      have hsplit := Text.splitAtSpace_of_notMem hword.notMem_space
      rw [ofText_of_readable hsplit hne hword]
      rfl
  | @numbered word rest hline hne hword =>
      have hsplit : Text.splitAtSpace (Text.trim raw) = (word, rest) := by
        rw [hline, Text.splitAtSpace_append hword.notMem_space]
      rw [ofText_of_readable hsplit hne hword,
        if_neg (by simpa using Text.trim_ne_nil_of_space hline)]

theorem typedAs_of_ofText (h : ofText raw source = .ok entry) : TypedAs raw entry := by
  obtain ⟨word, rest, hsplit, hne, hword, hnumber, htext⟩ := ofText_eq_ok h
  obtain ⟨number, text⟩ := entry
  obtain rfl : number = Text.decimalValue word := hnumber
  by_cases hspace : ' ' ∈ Text.trim raw
  · obtain ⟨before, after, hraw, hbefore⟩ := List.eq_append_cons_of_mem hspace
    rw [hraw, Text.splitAtSpace_append hbefore] at hsplit
    obtain ⟨rfl, rfl⟩ := Prod.mk.inj hsplit
    rw [if_neg (by simpa using Text.trim_ne_nil_of_space hraw)] at htext
    obtain rfl : text = _ := htext
    exact .numbered hraw hne hword
  · rw [Text.splitAtSpace_of_notMem hspace] at hsplit
    obtain ⟨hraw, rfl⟩ := Prod.mk.inj hsplit
    obtain rfl : text = none := htext
    exact .number hraw hne hword

/-- A line whose first word can be read stands for an entry. -/
theorem exists_typedAs (hne : Text.firstWord raw ≠ [])
    (hword : Text.Readable (Text.firstWord raw)) : ∃ entry, TypedAs raw entry := by
  have hread : ∃ entry, ofText raw none = .ok entry := ⟨_, ofText_of_readable rfl hne hword⟩
  exact hread.imp fun _ => typedAs_of_ofText

/-- A line whose first word does not look like a number is complained of. -/
theorem ofText_of_not_isDigit (h : ∃ c ∈ Text.firstWord raw, Text.isDigit c = false) :
    ofText raw source = .error (.complaint
      (.misread ⟨.noLineNumber (String.ofList (Text.trim raw)) source, none⟩)) := by
  have hdigits : (Text.firstWord raw).all Text.isDigit = false := by
    simpa using h
  simp only [ofText]
  rw [if_pos]
  rw [Bool.or_eq_true]
  exact Or.inr (by rw [← Text.firstWord, hdigits]; rfl)

/-- A line whose first word looks like a number and cannot be read is no matter for a complaint. -/
theorem ofText_of_not_readable
    (hdigits : ∀ c ∈ Text.firstWord raw, Text.isDigit c = true)
    (hword : ¬ Text.Readable (Text.firstWord raw)) :
    ∃ flaw, ofText raw source = .error (.fault (.badInteger flaw)) := by
  cases hread : Text.readNatural (Text.firstWord raw) with
  | ok n => exact absurd (Text.readable_of_readNatural hread) hword
  | error flaw =>
      have hne : Text.firstWord raw ≠ [] := by
        intro hnil
        exact hword (hnil ▸ Text.readable_nil)
      refine ⟨flaw, ?_⟩
      rw [Text.firstWord] at hne hread hdigits
      simp only [ofText, hread]
      simpa using ⟨hne, hdigits⟩

/-! ## What is taken for an entry -/

theorem sound_of_ofText (h : ofText raw source = .ok entry) : entry.Sound := by
  obtain ⟨word, rest, -, -, hword, hnumber, htext⟩ := ofText_eq_ok h
  refine ⟨by rw [hnumber]; exact Int.natCast_nonneg _, ?_, ?_, ?_⟩
  · rw [hnumber]
    exact Text.isWritable_iff.mp hword.isWritable
  · intro text hmem hempty
    rw [htext, hempty] at hmem
    split at hmem
    · simp at hmem
    · rename_i hne
      have hnil : String.ofList (Text.trim rest) = "" := Option.some.inj hmem
      rw [String.ofList_eq_empty_iff] at hnil
      exact hne (by rw [hnil]; rfl)
  · intro text hmem
    rw [htext] at hmem
    split at hmem
    · simp at hmem
    · rw [← Option.some.inj hmem, String.toList_ofList, Text.trim_trim]

theorem sound_of_typedAs (h : TypedAs raw entry) : entry.Sound :=
  have hread : ofText raw none = .ok entry := ofText_of_typedAs h
  sound_of_ofText hread

/-- The text of an entry is a piece of the line. -/
theorem isInfix_of_typedAs (h : TypedAs raw entry) {text : String} (hmem : text ∈ entry.text) :
    text.toList <:+: raw := by
  cases h with
  | number => simp at hmem
  | @numbered word rest hline =>
      obtain rfl := Option.some.inj hmem
      rw [String.toList_ofList]
      calc Text.trim rest <:+: rest := Text.trim_isInfix rest
        _ <:+: Text.trim raw := ⟨word ++ [' '], [], by rw [hline]; simp⟩
        _ <:+: raw := Text.trim_isInfix raw

theorem mem_of_ofText (h : ofText raw source = .ok entry) {text : String} (hmem : text ∈ entry.text)
    {c : Char} (hc : c ∈ text.toList) : c ∈ raw :=
  (isInfix_of_typedAs (typedAs_of_ofText h) hmem).subset hc

section Line

variable {n : Nat} {text : String} (htext : Text.trim text.toList = text.toList) (hne : text ≠ "")
include htext hne

/-- A number, a space and a trimmed text are trimmed. -/
theorem trim_line :
    Text.trim (Nat.toDigits 10 n ++ ' ' :: text.toList) =
      Nat.toDigits 10 n ++ ' ' :: text.toList := by
  have hchars : text.toList ≠ [] := by simpa using hne
  apply Text.trim_eq_self
  · intro c hc
    rw [List.head?_append_of_ne_nil _ Nat.toDigits_ne_nil] at hc
    exact Text.isBlank_of_mem_toDigits (List.mem_of_mem_head? hc)
  · intro c hc
    rw [List.getLast?_append_of_ne_nil _ (List.cons_ne_nil _ _),
      List.getLast?_cons_of_ne_nil hchars, ← htext] at hc
    exact Text.getLast?_trim hc

/-- A number and a trimmed text with a space between them are read as these two. -/
theorem ofText_line (hn : n < 10 ^ Text.maxDigits) :
    ofText (Nat.toDigits 10 n ++ ' ' :: text.toList) source = .ok ⟨n, some text⟩ := by
  have hword : ' ' ∉ Nat.toDigits 10 n := by
    intro hmem
    exact absurd (Text.isDigit_of_mem_toDigits hmem) (by decide)
  have hdigits : (Nat.toDigits 10 n).all Text.isDigit = true := by
    rw [List.all_eq_true]
    intro c hc
    rw [Text.isDigit, Text.isDecimal_ascii (Text.isDigit_of_mem_toDigits hc), Bool.true_or]
  have hread : Text.readNatural (Nat.toDigits 10 n) = .ok n := by
    rw [Text.readNatural_of_readable (Text.readable_toDigits_iff.mpr hn),
      Text.decimalValue_toDigits]
  have hchars : text.toList ≠ [] := by simpa using hne
  simp only [ofText, trim_line htext hne, Text.splitAtSpace_append hword, hdigits, hread, htext]
  simp [hchars]

end Line

end Entry

end LineBasic
