/-
  LineBasic.Proofs.Stmt.Trailing

  Text behind a statement. A quoted `PRINT` and an `IF` without `THEN` ignore what follows them, and
  nothing else does: where reading is refused, the text before that place has to be such a statement
  on its own, and it is then the same statement in whichever way the text goes on.

  The text is cut and read again. The cut does not change how the text before it falls into lexemes:
  quoted text before it is closed, or else it would have taken in what stands at the cut.
-/
import LineBasic.Proofs.Reader.Stopping
import LineBasic.Proofs.Sentence.Rejection
import LineBasic.Proofs.Stmt.Acceptance
import LineBasic.Proofs.Stmt.Parsing

namespace LineBasic

open Grammar

/-! ## The text before a refusal -/

/-- Reading the text is refused at the offset, which is not its start, and the text before the
    offset is the sentence. -/
structure Grammar.CutAs (kind : Kind) (text : List Char) (place : Nat) (s : Sentence) : Prop where
  refused : Sentence.read kind text = .error (.refused place)
  pos : 0 < place
  derived : DerivedAs kind (text.take place) s

namespace Grammar.CutAs

variable {kind : Kind} {text : List Char} {place : Nat} {s : Sentence}

/-- The sentence is derived from lexemes that are all closed. -/
theorem exists_closed (h : CutAs kind text place s) :
    ∃ xs, Spells 0 (text.take place) xs ∧ Accepts (.start kind) xs s ∧ ∀ x ∈ xs, x.Closed := by
  obtain ⟨hrefused, -, xs, hspells, hs⟩ := h
  obtain ⟨σ, hruns, hfinish⟩ := accepts_of_derives hs
  refine ⟨xs, hspells, ⟨σ, hruns, hfinish⟩, ?_⟩
  have houtcome := read_outcome (start_ne_opening kind) 0 0 text
  rw [← Sentence.read, hrefused] at houtcome
  cases houtcome with
  | @refused front rest c ys τ htext _ _ hc =>
      -- Quoted text that is open would have taken in what stands at the cut.
      subst htext
      rw [Nat.zero_add, List.take_left] at hspells
      exact closed_of_refused hspells hruns hc hrefused

theorem read_of_closed {text : List Char} {xs : List Lexeme} (hspells : Spells 0 text xs)
    (hs : Accepts (.start kind) xs s) (hclosed : ∀ x ∈ xs, x.Closed) :
    Sentence.read kind text = .ok s := by
  obtain ⟨σ, hruns, hfinish⟩ := hs
  have hread := read_of_runs 0 hspells hruns (.nil σ) (Or.inl hclosed)
  rw [List.append_nil] at hread
  rw [Sentence.read, hread, ReadState.read, hfinish]

theorem read_front (h : CutAs kind text place s) :
    Sentence.read kind (text.take place) = .ok s := by
  obtain ⟨xs, hspells, hs, hclosed⟩ := h.exists_closed
  exact read_of_closed hspells hs hclosed

theorem read_trimmed_front (h : CutAs kind text place s) :
    Sentence.read kind (Text.trimEnd (text.take place)) = .ok s := by
  obtain ⟨xs, hspells, ⟨σ, hruns, hfinish⟩, hclosed⟩ := h.exists_closed
  exact read_of_closed (hspells.trimEnd hruns hclosed) ⟨σ, hruns, hfinish⟩ hclosed

theorem unique {place' : Nat} {s' : Sentence} (h : CutAs kind text place s)
    (h' : CutAs kind text place' s') : place' = place ∧ s' = s := by
  have hplace := h.refused.symm.trans h'.refused
  obtain rfl := Stop.refused.inj (Except.error.inj hplace)
  exact ⟨rfl, Except.ok.inj (h'.read_front.symm.trans h.read_front)⟩

end Grammar.CutAs

theorem Grammar.cutAs_of_read {kind : Kind} {text : List Char} {place : Nat} {s : Sentence}
    (hread : Sentence.read kind text = .error (.refused place)) (hplace : 0 < place)
    (hcut : Sentence.read kind (text.take place) = .ok s) : CutAs kind text place s :=
  ⟨hread, hplace, derives_of_read hcut⟩

/-- A text that is not read is not derived. -/
theorem Grammar.not_derivable_of_read {kind : Kind} {text : List Char} {halt : Stop}
    (h : Sentence.read kind (Text.trim text) = .error halt) :
    ¬ Derivable kind (Text.trim text) := by
  rintro ⟨s, hs⟩
  rw [(read_eq_ok_iff isGap_getLast?_trim).mpr hs] at h
  cases h

/-! ## What parsing makes of it -/

theorem Sentence.lineNumbers_of_ignoresRest {s : Sentence} (h : s.meaning.ignoresRest = true) :
    s.lineNumbers = [] := by
  cases s with
  | ifThen clause digits =>
      cases digits with
      | none => rfl
      | some digits => simp [meaning, Stmt.ignoresRest] at h
  | goto digits => simp [meaning, Stmt.ignoresRest] at h
  | _ => rfl

namespace Stmt

variable {kind : Kind} {text : List Char}

/-- A text from which no sentence is derived is a statement before the rest, or it is refused as the
    sentence before the rest is, or it is malformed. -/
theorem parseAs_cases (hkind : kind = .PRINT ∨ kind = .IF)
    (hnot : ¬ Derivable kind (Text.trim text)) :
    (∃ place s stmt, CutAs kind (Text.trim text) place s ∧ s.resolve = .ok stmt ∧
      stmt.ignoresRest = true ∧ parseAs kind text = .ok stmt) ∨
    (∃ place s r, CutAs kind (Text.trim text) place s ∧ s.resolve = .error r ∧
      parseAs kind text = .error r) ∨
    ((∀ place s, CutAs kind (Text.trim text) place s →
        ∃ stmt, s.resolve = .ok stmt ∧ stmt.ignoresRest = false) ∧
      ∃ column, parseAs kind text =
        .error (.misread ⟨.malformed kind (String.ofList (Text.trim text)), some column⟩)) := by
  have hparsing := parsing kind text
  generalize parseAs kind text = outcome at hparsing
  cases hparsing with
  | stop hend =>
      subst hend
      simp at hkind
  | whole _ hread _ => exact absurd ⟨_, derives_of_read hread⟩ hnot
  | cut hread _ hplace hcut hs hrest =>
      exact Or.inl ⟨_, _, _, cutAs_of_read hread hplace hcut, hs, hrest, rfl⟩
  | cutRefused hread _ hplace hcut hs =>
      exact Or.inr (Or.inl ⟨_, _, _, cutAs_of_read hread hplace hcut, hs, rfl⟩)
  | @misread halt _ hread hnone =>
      refine Or.inr (Or.inr ⟨fun place s hcut => ?_, halt.column, ?_⟩)
      · have hhalt := Except.error.inj (hread.symm.trans hcut.refused)
        exact hnone place s hhalt hkind hcut.pos hcut.read_front
      · rw [Stmt.misread, if_neg (by rcases hkind with rfl | rfl <;> decide)]

/-- How a text is parsed that may have something behind the statement. -/
structure RestRule (kind : Kind) (text : List Char) : Prop where
  /-- The text before the refused place is a statement that ignores the rest. -/
  accepted : ∀ stmt, parseAs kind text = .ok stmt ↔
    ∃ place s, CutAs kind (Text.trim text) place s ∧ (∀ m ∈ s.arrays, m.slot < letterCount) ∧
      s.meaning = stmt ∧ stmt.ignoresRest = true
  /-- The statement is that of the text before the place, and of every other text that goes on
      behind it in a way that is refused there. -/
  stable : ∀ stmt place s, parseAs kind text = .ok stmt → CutAs kind (Text.trim text) place s →
    parseAs kind ((Text.trim text).take place) = .ok stmt ∧
      ∀ text', Sentence.read kind (Text.trim text') = .error (.refused place) →
        (Text.trim text').take place = (Text.trim text).take place →
          parseAs kind text' = .ok stmt
  /-- A name with a digit that is subscripted before the place is reported. -/
  suffixed : ∀ place s, CutAs kind (Text.trim text) place s →
    (∃ m ∈ s.arrays, letterCount ≤ m.slot) →
      ∃ m ∈ s.arrays, letterCount ≤ m.slot ∧ parseAs kind text = .error m.suffixed
  /-- Otherwise the text is malformed, as long as the line number before the place can be read. -/
  malformed : (∃ column, parseAs kind text =
      .error (.misread ⟨.malformed kind (String.ofList (Text.trim text)), some column⟩)) ↔
    ∀ place s, CutAs kind (Text.trim text) place s → (∀ m ∈ s.arrays, m.slot < letterCount) ∧
      (∀ digits ∈ s.lineNumbers, digits.length ≤ Text.maxDigits) ∧ s.meaning.ignoresRest = false

section Rest

variable (hkind : kind = .PRINT ∨ kind = .IF)
include hkind

theorem parseAs_of_cutAs {place : Nat} {s : Sentence} {stmt : Stmt}
    (hcut : CutAs kind (Text.trim text) place s) (hs : s.resolve = .ok stmt)
    (hrest : stmt.ignoresRest = true) : parseAs kind text = .ok stmt := by
  rcases parseAs_cases hkind (not_derivable_of_read hcut.refused) with
    ⟨p, s', stmt', hcut', hs', -, hparse⟩ | ⟨p, s', r, hcut', hs', -⟩ | ⟨hnone, -⟩
  · obtain ⟨-, rfl⟩ := hcut.unique hcut'
    rw [hparse, ← hs', hs]
  · obtain ⟨-, rfl⟩ := hcut.unique hcut'
    rw [hs] at hs'
    cases hs'
  · obtain ⟨stmt', hs', hrest'⟩ := hnone place s hcut
    obtain rfl := Except.ok.inj (hs.symm.trans hs')
    rw [hrest] at hrest'
    cases hrest'

variable (hnot : ¬ Derivable kind (Text.trim text))
  (hshallow : ∀ place s, CutAs kind (Text.trim text) place s → ∀ e ∈ s.phrases,
    e.depth ≤ maxNesting)
include hnot hshallow

omit hkind hnot in
/-- The sentence before the refused place resolves when its arrays are letters and its line number
    is short. -/
theorem resolve_of_cutAs {place : Nat} {s : Sentence}
    (hcut : CutAs kind (Text.trim text) place s) (hbare : ∀ m ∈ s.arrays, m.slot < letterCount)
    (hshort : ∀ digits ∈ s.lineNumbers, digits.length ≤ Text.maxDigits) :
    s.resolve = .ok s.meaning := by
  obtain ⟨xs, hspells, hderives⟩ := hcut.derived
  have hdigits := hderives.lineNumbers_digits hspells.all_match
  refine Sentence.resolve_eq_ok_iff.mpr ⟨⟨hbare, hshallow place s hcut, ?_⟩, rfl⟩
  exact fun digits hd => ⟨hdigits digits hd, hshort digits hd⟩

theorem accepted_iff (stmt : Stmt) :
    parseAs kind text = .ok stmt ↔
      ∃ place s, CutAs kind (Text.trim text) place s ∧ (∀ m ∈ s.arrays, m.slot < letterCount) ∧
        s.meaning = stmt ∧ stmt.ignoresRest = true := by
  refine ⟨fun h => ?_, ?_⟩
  · rcases parseAs_cases hkind hnot with
      ⟨place, s, stmt', hcut, hs, hrest, hparse⟩ | ⟨_, _, _, _, _, hparse⟩ | ⟨-, _, hparse⟩
    · obtain rfl := Except.ok.inj (h.symm.trans hparse)
      obtain ⟨hresolvable, hmeaning⟩ := Sentence.resolve_eq_ok_iff.mp hs
      exact ⟨place, s, hcut, hresolvable.bare, hmeaning, hrest⟩
    · rw [h] at hparse
      cases hparse
    · rw [h] at hparse
      cases hparse
  · rintro ⟨place, s, hcut, hbare, rfl, hrest⟩
    refine parseAs_of_cutAs hkind hcut (resolve_of_cutAs hshallow hcut hbare ?_) hrest
    simp [Sentence.lineNumbers_of_ignoresRest hrest]

theorem suffixed_of_cutAs {place : Nat} {s : Sentence}
    (hcut : CutAs kind (Text.trim text) place s) (hm : ∃ m ∈ s.arrays, letterCount ≤ m.slot) :
    ∃ m ∈ s.arrays, letterCount ≤ m.slot ∧ parseAs kind text = .error m.suffixed := by
  obtain ⟨m, hm, hslot⟩ := hm
  have hnotBare : ¬ ∀ m ∈ s.arrays, m.slot < letterCount :=
    fun hbare => absurd (hbare m hm) (Nat.not_lt.mpr hslot)
  have hunresolved : ∀ stmt, s.resolve ≠ .ok stmt :=
    fun stmt hs => hnotBare (Sentence.resolve_eq_ok_iff.mp hs).1.bare
  rcases parseAs_cases hkind hnot with
    ⟨_, _, stmt, hcut', hs, -⟩ | ⟨_, _, r, hcut', hs, hparse⟩ | ⟨hnone, -⟩
  · obtain ⟨-, rfl⟩ := hcut.unique hcut'
    exact absurd hs (hunresolved stmt)
  · obtain ⟨-, rfl⟩ := hcut.unique hcut'
    rw [hparse]
    rcases Sentence.refused_resolve _ r hs with hblames | ⟨hbare, -⟩
    · cases hblames with
      | depth he hdeep => exact absurd (hshallow _ _ hcut _ he) (Nat.not_le.mpr hdeep)
      | @array m hm hslot => exact ⟨m, hm, hslot, rfl⟩
    · exact absurd hbare hnotBare
  · obtain ⟨stmt, hs, -⟩ := hnone place s hcut
    exact absurd hs (hunresolved stmt)

theorem malformed_iff :
    (∃ column, parseAs kind text =
      .error (.misread ⟨.malformed kind (String.ofList (Text.trim text)), some column⟩)) ↔
    ∀ place s, CutAs kind (Text.trim text) place s → (∀ m ∈ s.arrays, m.slot < letterCount) ∧
      (∀ digits ∈ s.lineNumbers, digits.length ≤ Text.maxDigits) ∧
        s.meaning.ignoresRest = false := by
  rcases parseAs_cases hkind hnot with
    ⟨place, s, stmt, hcut, hs, hrest, hparse⟩ | ⟨place, s, r, hcut, hs, hparse⟩ |
      ⟨hnone, column, hparse⟩
  · refine ⟨fun ⟨column, h⟩ => ?_, fun h => ?_⟩
    · rw [hparse] at h
      cases h
    · obtain ⟨-, rfl⟩ := Sentence.resolve_eq_ok_iff.mp hs
      rw [(h place s hcut).2.2] at hrest
      cases hrest
  · refine ⟨fun ⟨column, h⟩ => ?_, fun h => ?_⟩
    · rw [hparse] at h
      obtain rfl := Except.error.inj h
      -- A sentence that does not resolve is never malformed.
      rcases s.cause_of_resolve hs with hcause | ⟨slot, hcause⟩ <;> cases hcause
    · obtain ⟨hbare, hshort, -⟩ := h place s hcut
      rw [resolve_of_cutAs hshallow hcut hbare hshort] at hs
      cases hs
  · refine ⟨fun _ place s hcut => ?_, fun _ => ⟨column, hparse⟩⟩
    obtain ⟨stmt, hs, hrest⟩ := hnone place s hcut
    obtain ⟨hresolvable, rfl⟩ := Sentence.resolve_eq_ok_iff.mp hs
    exact ⟨hresolvable.bare, fun digits hd => (hresolvable.readable digits hd).2, hrest⟩

theorem stable_of_cutAs {place : Nat} {s : Sentence} {stmt : Stmt}
    (h : parseAs kind text = .ok stmt) (hcut : CutAs kind (Text.trim text) place s) :
    parseAs kind ((Text.trim text).take place) = .ok stmt ∧
      ∀ text', Sentence.read kind (Text.trim text') = .error (.refused place) →
        (Text.trim text').take place = (Text.trim text).take place →
          parseAs kind text' = .ok stmt := by
  obtain ⟨place', s', hcut', hbare, rfl, hrest⟩ := (accepted_iff hkind hnot hshallow stmt).mp h
  obtain ⟨-, rfl⟩ := hcut.unique hcut'
  have hs : s'.resolve = .ok s'.meaning :=
    resolve_of_cutAs hshallow hcut hbare (by simp [Sentence.lineNumbers_of_ignoresRest hrest])
  refine ⟨?_, fun text' hread htake => ?_⟩
  -- The text before the place may end in blanks, but it does not start with one.
  · have hfirst : ∀ c ∈ ((Text.trim text).take place).head?, Text.isBlank c = false := by
      intro c hc
      rw [List.head?_take, if_neg (Nat.ne_of_gt hcut.pos)] at hc
      exact Text.head?_trim hc
    have hread := hcut.read_trimmed_front
    rw [← Text.trim_eq_trimEnd hfirst] at hread
    rw [parseAs_of_read (by rcases hkind with rfl | rfl <;> decide) hread, hs]
  · refine parseAs_of_cutAs hkind ⟨hread, hcut.pos, ?_⟩ hs hrest
    rw [htake]
    exact hcut.derived

end Rest

/-- Text behind a statement is ignored only where that is announced. Where the grammar does not
    derive the text of a `PRINT` or an `IF`, the rule holds; and a statement that may not be
    followed by anything is derived from the whole text. -/
theorem rest_ignored_only_where_announced (kind : Kind) (text : List Char) :
    (kind = .PRINT ∨ kind = .IF → ¬ Derivable kind (Text.trim text) →
      (∀ place s, CutAs kind (Text.trim text) place s → ∀ e ∈ s.phrases, e.depth ≤ maxNesting) →
        RestRule kind text) ∧
    ∀ stmt, parseAs kind text = .ok stmt → kind ≠ .END →
      (kind = .PRINT ∨ kind = .IF → stmt.ignoresRest = false) →
        ∃ s, DerivedAs kind (Text.trim text) s ∧ s.meaning = stmt := by
  refine ⟨fun hkind hnot hshallow => ?_, fun stmt h hend hstmt => ?_⟩
  · exact
      { accepted := accepted_iff hkind hnot hshallow
        stable := fun stmt place s => stable_of_cutAs hkind hnot hshallow
        suffixed := fun place s => suffixed_of_cutAs hkind hnot hshallow
        malformed := malformed_iff hkind hnot hshallow }
  · have hparsing := parsing kind text
    rw [h] at hparsing
    cases hparsing with
    | stop hkind => exact absurd hkind hend
    | whole _ hread hs =>
        exact ⟨_, derives_of_read hread, (Sentence.resolve_eq_ok_iff.mp hs).2⟩
    | cut _ hkind _ _ _ hrest =>
        rw [hstmt hkind] at hrest
        cases hrest

/-- A quoted `PRINT` with a name behind it, and an `IF` with its line number. -/
theorem rest_ignored_only_where_announced_quoted :
    RestRule .PRINT "PRINT \"A\" X".toList ∧
      ∃ s, DerivedAs .IF (Text.trim "IF A THEN 10".toList) s ∧
        s.meaning = .ifThen (.nonzero (.var 0)) (some 10) := by
  have hcut : CutAs .PRINT (Text.trim "PRINT \"A\" X".toList) 10 (.printText ['A']) :=
    cutAs_of_read rfl (by decide) rfl
  refine ⟨(rest_ignored_only_where_announced .PRINT _).1 (Or.inl rfl)
    (not_derivable_of_read hcut.refused) fun place s hcut' => ?_, ?_⟩
  · obtain ⟨-, rfl⟩ := hcut.unique hcut'
    simp [Sentence.phrases]
  · exact (rest_ignored_only_where_announced .IF _).2 _ rfl (by decide) fun _ => rfl

/-! ## Line numbers that are too long -/

/-- A jump on a condition that always holds, with a name behind its line number. -/
def jumpThenName (digits : List Char) : List Char :=
  "IF 1 THEN ".toList ++ (digits ++ " X".toList)

theorem trim_jumpThenName (digits : List Char) :
    Text.trim (jumpThenName digits) = jumpThenName digits := by
  have hends : Text.EndsSolid (jumpThenName digits) := .append (.append ⟨'X', rfl, rfl⟩)
  apply hends.trim_eq_self
  intro c hc
  obtain rfl : 'I' = c := Option.some.inj hc
  rfl

/-- Behind `THEN` the digits up to a space are read as one line number. -/
theorem read_jump {digits : List Char} (hdigits : digits ∈ Grammar.digits) (rest : List Char) :
    Sentence.read .IF ("IF 1 THEN ".toList ++ (digits ++ ' ' :: rest)) =
      (ReadState.complete (.ifThen (.nonzero (.numeral ['1'])) (some digits))).read 0 10
        (10 + digits.length) (' ' :: rest) := by
  have hjoin : Sentence.read .IF ("IF 1 THEN ".toList ++ (digits ++ ' ' :: rest)) =
      (ReadState.lineNumber (some (.nonzero (.numeral ['1'])))).read 0 5 10
        (digits ++ ' ' :: rest) := rfl
  have hend : EndsBefore (.lineNumber digits) (' ' :: rest) := by
    rintro c ⟨⟩
    rfl
  rw [hjoin]
  exact read_lexeme (x := ⟨.INT, digits, 10⟩) 5 hdigits (.lineNumber rfl) rfl
    (scan?_append (x := ⟨.INT, digits, 10⟩) hdigits (.lineNumber rfl) hend)

/-- The sentence before the name is the jump. -/
theorem cutAs_jumpThenName {digits : List Char} (hdigits : digits ∈ Grammar.digits) :
    CutAs .IF (Text.trim (jumpThenName digits)) (10 + digits.length + 1)
      (.ifThen (.nonzero (.numeral ['1'])) (some digits)) := by
  have htake : (jumpThenName digits).take (10 + digits.length + 1) =
      "IF 1 THEN ".toList ++ (digits ++ [' ']) := by
    have hsplit : jumpThenName digits = ("IF 1 THEN ".toList ++ (digits ++ [' '])) ++ ['X'] := by
      rw [List.append_assoc, List.append_assoc]
      rfl
    have hlength : ("IF 1 THEN ".toList ++ (digits ++ [' '])).length = 10 + digits.length + 1 := by
      rw [List.length_append, List.length_append]
      exact (Nat.add_assoc 10 digits.length 1).symm
    rw [hsplit, ← hlength, List.take_left]
  have hrefused : Sentence.read .IF (jumpThenName digits) =
      .error (.refused (10 + digits.length + 1)) := read_jump hdigits ['X']
  have hfront : Sentence.read .IF ("IF 1 THEN ".toList ++ (digits ++ [' '])) =
      .ok (.ifThen (.nonzero (.numeral ['1'])) (some digits)) :=
    read_jump hdigits []
  rw [← htake] at hfront
  rw [trim_jumpThenName]
  exact cutAs_of_read hrefused (by omega) hfront

/-- A jump with a name behind its line number is no statement that ignores the rest; but it is not
    reported as malformed when the line number is too long. -/
theorem long_target_not_malformed :
    ∃ (text : List Char) (place : Nat) (s : Sentence), ¬ Derivable .IF (Text.trim text) ∧
      CutAs .IF (Text.trim text) place s ∧ (∀ m ∈ s.arrays, m.slot < letterCount) ∧
      (∀ e ∈ s.phrases, e.depth ≤ maxNesting) ∧ s.meaning.ignoresRest = false ∧
      ¬ ∃ column, parseAs .IF text =
        .error (.misread ⟨.malformed .IF (String.ofList (Text.trim text)), some column⟩) := by
  obtain ⟨digits, hdigits, hlong⟩ : ∃ digits ∈ Grammar.digits,
      digits.length = Text.maxDigits + 1 := by
    refine ⟨List.replicate (Text.maxDigits + 1) '1', mem_digits.mpr ⟨?_, fun c hc => ?_⟩,
      List.length_replicate⟩
    · simp
    · rw [List.eq_of_mem_replicate hc]
      decide
  have hcut := cutAs_jumpThenName hdigits
  have hnot := not_derivable_of_read hcut.refused
  have hdepth : ∀ e ∈ [Phrase.numeral ['1']], e.depth ≤ maxNesting := by simp [Phrase.depth]
  refine ⟨_, _, _, hnot, hcut, by simp [Sentence.arrays, Sentence.ownArrays, Sentence.phrases,
    Clause.phrases, Phrase.arrays], hdepth, rfl, fun h => ?_⟩
  have hshallow : ∀ place s, CutAs .IF (Text.trim (jumpThenName digits)) place s →
      ∀ e ∈ s.phrases, e.depth ≤ maxNesting := by
    intro place s hcut'
    obtain ⟨-, rfl⟩ := hcut.unique hcut'
    exact hdepth
  obtain ⟨-, hshort, -⟩ := (malformed_iff (Or.inr rfl) hnot hshallow).mp h _ _ hcut
  have hle := hshort digits (List.mem_singleton_self digits)
  omega

end Stmt

end LineBasic
