/-
  LineBasic.Proofs.Stmt.Column

  The column of a syntax error. A text that is no statement of its kind ended too early, and the
  column is that of its last lexeme; or it went wrong, and the column is that of the first place at
  which no sentence can go on.

  Sentences are those that the grammar derives, from any cut of a text into lexemes. That a front
  can be completed is what the reader's states are for; that nothing can be taken where reading is
  refused holds for every cut of the front.
-/
import LineBasic.Proofs.Reader.Outlook
import LineBasic.Proofs.Reader.Stopping
import LineBasic.Proofs.Sentence.Rejection
import LineBasic.Proofs.Stmt.Acceptance
import LineBasic.Proofs.Stmt.Parsing

namespace LineBasic

namespace Grammar

/-! ## Fronts of sentences -/

/-- Some sentence begins with the lexemes. -/
def Begins (kind : Kind) (xs : List Lexeme) : Prop :=
  ∃ ys s, Derives kind (xs ++ ys) s

/-- Some text that begins with the text and the character behind it can be cut into a sentence. -/
def GoesOn (kind : Kind) (text : List Char) (c : Char) : Prop :=
  ∃ more, Derivable kind (text ++ c :: more)

theorem Begins.runs {kind : Kind} {xs : List Lexeme} (h : Begins kind xs) :
    ∃ σ, Runs (.start kind) xs σ := by
  obtain ⟨ys, s, hs⟩ := h
  obtain ⟨σ, hruns, -⟩ := accepts_of_derives hs
  obtain ⟨σ', hxs, -⟩ := hruns.exists_between
  exact ⟨σ', hxs⟩

theorem Runs.ne_opening {σ σ' : ReadState} {xs : List Lexeme} {kind : Kind} (h : Runs σ xs σ')
    (hσ : σ ≠ .opening kind) : σ' ≠ .opening kind := by
  induction h with
  | nil => exact hσ
  | cons hx _ ih =>
      apply ih
      rintro rfl
      obtain ⟨t, -, hstep⟩ := hx
      exact step?_ne_opening hstep

/-- A run from the start of a sentence can be completed. -/
theorem Runs.completable {kind : Kind} {xs : List Lexeme} {σ : ReadState} (hkind : kind ≠ .END)
    (h : Runs (.start kind) xs σ) : Completable σ := by
  apply LineBasic.Grammar.completable
  · exact h.ne_opening (start_ne_opening kind)
  · exact h.ne_opening (by cases kind <;> simp_all [ReadState.start])

theorem Runs.begins {kind : Kind} {xs : List Lexeme} {σ : ReadState} (hkind : kind ≠ .END)
    (h : Runs (.start kind) xs σ) : Begins kind xs := by
  obtain ⟨more, ys, s, -, hs⟩ := h.completable hkind 0
  exact ⟨ys, s, derives_of_accepts (.append h hs)⟩

/-- A text that the reader runs over is the front of a text from which a sentence is derived. -/
theorem Runs.exists_derivable {kind : Kind} {text : List Char} {xs : List Lexeme} {σ : ReadState}
    (hkind : kind ≠ .END) (hspells : Spells 0 text xs) (h : Runs (.start kind) xs σ) :
    ∃ more, Derivable kind (text ++ more) := by
  obtain ⟨more, ys, s, hys, hs⟩ := h.completable hkind (0 + text.length)
  exact ⟨more, s, xs ++ ys, hspells.append hys, derives_of_accepts (.append h hs)⟩

/-! ## The two ways to fail -/

/-- The text with a blank behind it is the front of a sentence, and the last lexeme of the text
    starts at the offset: in whichever way it is cut into lexemes with which a sentence begins.
    Where there is no lexeme, the offset is 0. -/
structure EndsEarly (kind : Kind) (text : List Char) (place : Nat) : Prop where
  goesOn : ∀ c, isGap c = true → GoesOn kind text c
  begins : ∃ xs, Spells 0 text xs ∧ Begins kind xs
  lastPlace_eq : ∀ xs, Spells 0 text xs → Begins kind xs → lastPlace 0 xs = place

/-- The text is the front of a sentence up to the offset, and no further: no sentence goes on with a
    lexeme that stands there, in whichever way the text before it is cut. Nor does a longer front of
    the text become the front of a sentence by being cut in another way, whatever blank is put
    behind the text. -/
structure BreaksAt (kind : Kind) (text : List Char) (place : Nat) : Prop where
  not_goesOn : ∀ c, Text.isBlank c = true → ¬ GoesOn kind text c
  derivable : ∃ more, Derivable kind (text.take place ++ more)
  begins : ∃ xs, Spells 0 (text.take place) xs ∧ Begins kind xs
  exists_char : ∃ c, text[place]? = some c ∧ isGap c = false
  not_begins : ∀ xs x, Spells 0 (text.take place) xs → x.Matches → x.place = place →
    x.chars <+: text.drop place → ¬ Begins kind (xs ++ [x])
  longest : ∀ n xs, place < n → Spells 0 (text.take n) xs → ¬ Begins kind xs

/-- The two exclude each other, for a space is a blank. -/
theorem EndsEarly.not_breaksAt {kind : Kind} {text : List Char} {place : Nat}
    (h : EndsEarly kind text place) : ¬ BreaksAt kind text place :=
  fun hbreaks => hbreaks.not_goesOn ' ' rfl (h.goesOn ' ' rfl)

section Stops

variable {kind : Kind} {text : List Char} {place : Nat} (hkind : kind ≠ .END)
  (hlast : ∀ c ∈ text.getLast?, isGap c = false)
include hkind hlast

/-- A text that ended too early for the reader did so for the grammar. -/
theorem endsEarly_of_read (h : Sentence.read kind text = .error (.ended place)) :
    EndsEarly kind text place := by
  have houtcome := read_outcome (start_ne_opening kind) 0 0 text
  rw [← Sentence.read, h] at houtcome
  cases houtcome with
  | @ended xs σ hspells hruns hfinish =>
      refine ⟨?_, ⟨xs, hspells, hruns.begins hkind⟩, ?_⟩
      · intro c hc
        have hgap : Spells (0 + text.length) [c] [] := .nil (by simpa using hc)
        have hspells' := hspells.append hgap
        rw [List.append_nil] at hspells'
        obtain ⟨more, hmore⟩ := hruns.exists_derivable hkind hspells'
        rw [List.append_assoc] at hmore
        exact ⟨more, hmore⟩
      · intro ys hys hbegins
        obtain ⟨τ, hruns'⟩ := hbegins.runs
        -- The reader follows this cut as well, and it ended where it did.
        have hread := read_of_runs 0 hys hruns' (.nil τ) (Or.inr ⟨rfl, hlast⟩)
        rw [List.append_nil, ← Sentence.read, h, ReadState.read] at hread
        split at hread
        · cases hread
        · exact (Stop.ended.inj (Except.error.inj hread)).symm

/-- Where the reader is refused, no sentence goes on. -/
theorem breaksAt_of_read (h : Sentence.read kind text = .error (.refused place)) :
    BreaksAt kind text place := by
  have hnotGoesOn : ∀ c, Text.isBlank c = true → ¬ GoesOn kind text c := by
    rintro c hc ⟨more, s, xs, hspells, hs⟩
    obtain ⟨σ, hruns, -⟩ := accepts_of_derives hs
    obtain ⟨ys, τ, hys, hruns'⟩ := exists_run_before_blank hc hspells hruns
    -- Reading would follow the cut to the end of the text.
    have hread := read_of_runs 0 hys hruns' (.nil τ) (Or.inr ⟨rfl, hlast⟩)
    rw [List.append_nil, ← Sentence.read, h, ReadState.read] at hread
    split at hread <;> cases hread
  have houtcome := read_outcome (start_ne_opening kind) 0 0 text
  rw [← Sentence.read, h] at houtcome
  cases houtcome with
  | @refused front rest c xs σ htext hspells hruns hc =>
      subst htext
      rw [Nat.zero_add] at h ⊢
      refine ⟨hnotGoesOn, ?_, ?_, ⟨c, by simp, hc⟩, ?_, ?_⟩
      · rw [List.take_left]
        exact hruns.exists_derivable hkind hspells
      · rw [List.take_left]
        exact ⟨xs, hspells, hruns.begins hkind⟩
      · rw [List.take_left, List.drop_left]
        rintro ys x hys hx hplace ⟨behind, hbehind⟩ hbegins
        obtain ⟨τ, hruns'⟩ := hbegins.runs
        obtain ⟨τ', hruns', hlast'⟩ := hruns'.exists_between
        cases hlast' with
        | cons hadv _ =>
            have hplace' : x.place = 0 + front.length := by omega
            rw [Sentence.read, ← hbehind] at h
            have hle := le_of_refused_of_runs hys hruns' hx hplace' hadv h
            obtain ⟨t, ht, -⟩ := hadv
            obtain ⟨d, more, hmore, -⟩ := head_not_gap hx ht
            rw [hmore, List.length_cons] at hle
            omega
      · intro n ys hn hys hbegins
        obtain ⟨τ, hruns'⟩ := hbegins.runs
        obtain ⟨k, rfl⟩ : ∃ k, n = front.length + (k + 1) := ⟨n - front.length - 1, by omega⟩
        rw [List.take_length_add_append, List.take_succ_cons] at hys
        apply read_ne_refused 0 hys hruns' hc (rest.drop k)
        rw [List.append_assoc, List.cons_append, List.take_append_drop, ← Sentence.read, h,
          Nat.zero_add]

end Stops

end Grammar

/-! ## Syntax errors -/

open Grammar

namespace Stmt

/-- A text is reported as no statement of its kind because reading it came to a stop, and with the
    column of the stop. -/
theorem exists_halt_of_parseAs {kind : Kind} {text : List Char} {cause : Misreading}
    {column : Option Nat} (h : parseAs kind text = .error (.misread ⟨cause, column⟩))
    (hcause : (∃ k s, cause = .malformed k s) ∨ ∃ s, cause = .unknownStatement s) :
    kind ≠ .END ∧ ∃ halt, Sentence.read kind (Text.trim text) = .error halt ∧
      column = some halt.column := by
  have hresolve : ∀ s : Sentence, s.resolve ≠ .error (.misread ⟨cause, column⟩) := by
    intro s hs
    rcases s.cause_of_resolve hs with rfl | ⟨slot, rfl⟩ <;> simp at hcause
  have hparsing := parsing kind text
  generalize parseAs kind text = outcome at h hparsing
  cases hparsing with
  | stop _ => cases h
  | @whole s _ _ _ hs => exact absurd (hs.trans h) (hresolve s)
  | cut _ _ _ _ _ _ => cases h
  | @cutRefused _ s _ _ _ _ _ hs => exact absurd (hs.trans h) (hresolve s)
  | @misread halt hkind hread _ =>
      obtain ⟨-, rfl⟩ := Misread.mk.inj (Rejection.misread.inj (Except.error.inj h))
      exact ⟨hkind, halt, hread, rfl⟩

/-- The column of a syntax error is right: exactly one of the two holds, that the text ended too
    early and the column is that of its last lexeme, or that it breaks at the column. -/
theorem column_marks_first_error {kind : Kind} {text : List Char} {cause : Misreading}
    {column : Option Nat} (h : parseAs kind text = .error (.misread ⟨cause, column⟩))
    (hcause : (∃ k s, cause = .malformed k s) ∨ ∃ s, cause = .unknownStatement s) :
    ∃ place, column = some (place + 1) ∧
      Xor (EndsEarly kind (Text.trim text) place) (BreaksAt kind (Text.trim text) place) := by
  obtain ⟨hkind, halt, hread, hcolumn⟩ := exists_halt_of_parseAs h hcause
  cases halt with
  | ended place =>
      have hends := endsEarly_of_read hkind isGap_getLast?_trim hread
      exact ⟨place, hcolumn, Or.inl ⟨hends, hends.not_breaksAt⟩⟩
  | refused place =>
      have hbreaks := breaksAt_of_read hkind isGap_getLast?_trim hread
      exact ⟨place, hcolumn, Or.inr ⟨hbreaks, fun hends => hends.not_breaksAt hbreaks⟩⟩

/-- A target that is none, and a text that ends behind an operator. -/
theorem column_marks_first_error_goto :
    (∃ place, some 6 = some (place + 1) ∧
      Xor (EndsEarly .GOTO (Text.trim "GOTO X".toList) place)
        (BreaksAt .GOTO (Text.trim "GOTO X".toList) place)) ∧
    ∃ place, some 11 = some (place + 1) ∧
      Xor (EndsEarly .LET (Text.trim "LET A = 1 + ".toList) place)
        (BreaksAt .LET (Text.trim "LET A = 1 + ".toList) place) := by
  have hgoto : parseAs .GOTO "GOTO X".toList =
      .error (.misread ⟨.malformed .GOTO "GOTO X", some 6⟩) := rfl
  have hlet : parseAs .LET "LET A = 1 + ".toList =
      .error (.misread ⟨.malformed .LET "LET A = 1 +", some 11⟩) := rfl
  exact ⟨column_marks_first_error hgoto (Or.inl ⟨_, _, rfl⟩),
    column_marks_first_error hlet (Or.inl ⟨_, _, rfl⟩)⟩

end Stmt

end LineBasic
