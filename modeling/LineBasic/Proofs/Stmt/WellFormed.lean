/-
  LineBasic.Proofs.Stmt.WellFormed

  What parsing a text guarantees of the statement: every slot and letter in it names a variable,
  every operator is known, and the statement is of the form that its kind stands for.

  The names are bounded because a name lexeme has a slot, the letters because resolving asks for
  bare letters. Both facts follow the derivation of the sentence; the reader is not looked at.
-/
import LineBasic.Proofs.Listing.Sound
import LineBasic.Proofs.Stmt.Acceptance
import LineBasic.Proofs.Stmt.Parsing

namespace LineBasic

open Grammar

/-- The statements that a text of the kind may stand for. -/
def Kind.Covers : Kind → Stmt → Prop
  | .LET, .assign _ _ => True
  | .ASSIGN, .assign _ _ => True
  | .DIM, .dim _ => True
  | .FOR, .forTo _ _ _ _ => True
  | .NEXT, .next _ => True
  | .PRINT, .printText _ => True
  | .PRINT, .print _ => True
  | .GOTO, .goto _ => True
  | .IF, .ifThen _ _ => True
  | .END, .stop => True
  | _, _ => False

theorem Kind.Covers.eq_FOR {kind : Kind} {slot : Nat} {start limit : Expr} {step : Option Expr}
    (h : kind.Covers (.forTo slot start limit step)) : kind = .FOR := by
  cases kind with
  | FOR => rfl
  | _ => exact h.elim

theorem Kind.Covers.eq_NEXT {kind : Kind} {slot : Option Nat} (h : kind.Covers (.next slot)) :
    kind = .NEXT := by
  cases kind with
  | NEXT => rfl
  | _ => exact h.elim

theorem Kind.Covers.eq_FOR_iff {kind : Kind} {stmt : Stmt} (h : kind.Covers stmt) :
    kind = .FOR ↔ ∃ slot start limit step, stmt = .forTo slot start limit step := by
  refine ⟨?_, ?_⟩
  · rintro rfl
    cases stmt with
    | forTo slot start limit step => exact ⟨slot, start, limit, step, rfl⟩
    | _ => exact h.elim
  · rintro ⟨slot, start, limit, step, rfl⟩
    exact h.eq_FOR

theorem Kind.Covers.eq_NEXT_iff {kind : Kind} {stmt : Stmt} (h : kind.Covers stmt) :
    kind = .NEXT ↔ ∃ slot, stmt = .next slot := by
  refine ⟨?_, ?_⟩
  · rintro rfl
    cases stmt with
    | next slot => exact ⟨slot, rfl⟩
    | _ => exact h.elim
  · rintro ⟨slot, rfl⟩
    exact h.eq_NEXT

/-! ## Names -/

/-- The variable that a lexeme mentions has a slot. -/
theorem Grammar.Lexeme.mention_slot_lt (x : Lexeme) : x.mention.slot < slotCount := by
  simp only [Lexeme.mention, Name.at?]
  split
  · rename_i slot size hscan
    exact Name.scan?_slot_lt hscan
  · decide

/-! ## Derived sentences -/

theorem Grammar.DerivesPhrase.wellFormed {rank : Rank} {xs : List Lexeme} {e : Phrase}
    (h : DerivesPhrase rank xs e) (hbare : ∀ m ∈ e.arrays, m.slot < letterCount) :
    e.meaning.WellFormed := by
  induction h with
  | ofProduct he ih => exact ih hbare
  | sum hop ha hx hb iha ihb =>
      simp only [Phrase.arrays, List.mem_append, or_imp, forall_and] at hbare
      exact ⟨iha hbare.1, ihb hbare.2⟩
  | ofFactor he ih => exact ih hbare
  | product hop ha hx hb iha ihb =>
      simp only [Phrase.arrays, List.mem_append, or_imp, forall_and] at hbare
      exact ⟨iha hbare.1, ihb hbare.2⟩
  | signed hx he ih => exact ih hbare
  | group hx he hy ih => exact ih hbare
  | element hname hx he hy ih =>
      simp only [Phrase.arrays, List.mem_cons, forall_eq_or_imp] at hbare
      exact ⟨hbare.1, ih hbare.2⟩
  | name hname => exact Lexeme.mention_slot_lt _
  | numeral hx => trivial

theorem Grammar.DerivesClause.wellFormed {xs : List Lexeme} {c : Clause} (h : DerivesClause xs c)
    (hphrases : ∀ e ∈ c.phrases, e.Resolvable) : c.meaning.WellFormed := by
  cases h with
  | nonzero he => exact he.wellFormed (hphrases _ (by simp [Clause.phrases])).2
  | compare ha hx hb =>
      exact ⟨ha.wellFormed (hphrases _ (by simp [Clause.phrases])).2,
        hb.wellFormed (hphrases _ (by simp [Clause.phrases])).2⟩

theorem Grammar.DerivesRecipient.wellFormed {xs : List Lexeme} {r : Recipient}
    (h : DerivesRecipient xs r) (hbare : ∀ m ∈ r.arrays, m.slot < letterCount)
    (hphrases : ∀ e ∈ r.phrases, e.Resolvable) : r.meaning.WellFormed := by
  cases h with
  | scalar hname => exact Lexeme.mention_slot_lt _
  | element hname hx he hy =>
      exact ⟨hbare _ (by simp [Recipient.arrays]),
        he.wellFormed (hphrases _ (by simp [Recipient.phrases])).2⟩

/-- The items of a `DIM` statement are some, and each bound is an expression. -/
theorem Grammar.DerivesItems.wellFormed {xs : List Lexeme} {items : List (Mention × Phrase)}
    (h : DerivesItems xs items) (hphrases : ∀ item ∈ items, item.2.Resolvable) :
    items ≠ [] ∧ ∀ item ∈ items, item.2.meaning.WellFormed := by
  have hitem : ∀ {xs item}, DerivesItem xs item → item.2.Resolvable →
      item.2.meaning.WellFormed := by
    rintro xs item ⟨hname, hx, he, hy⟩ hbound
    exact he.wellFormed hbound.2
  induction h with
  | one h => exact ⟨by simp, by simpa using hitem h (hphrases _ (by simp))⟩
  | more hitems hx h ih =>
      simp only [List.mem_append, List.mem_singleton, or_imp, forall_and, forall_eq] at hphrases ⊢
      exact ⟨by simp, (ih hphrases.1).2, hitem h hphrases.2⟩

theorem Grammar.wellFormed_assign {xs ys : List Lexeme} {r : Recipient} {e : Phrase}
    (hr : DerivesRecipient xs r) (he : DerivesPhrase .sum ys e)
    (hs : (Sentence.assign r e).Resolvable) : (Sentence.assign r e).meaning.WellFormed := by
  obtain ⟨hbare, hphrases, -⟩ := Sentence.resolvable_iff.mp hs
  simp only [Sentence.phrases, List.mem_append, List.mem_singleton, or_imp, forall_and,
    forall_eq] at hphrases
  exact ⟨hr.wellFormed hbare hphrases.1, he.wellFormed hphrases.2.2⟩

/-- A sentence that resolves means a well-formed statement of its kind. -/
theorem Grammar.Derives.wellFormed {kind : Kind} {xs : List Lexeme} {s : Sentence}
    (h : Derives kind xs s) (hs : s.Resolvable) :
    s.meaning.WellFormed ∧ kind.Covers s.meaning := by
  obtain ⟨hbare, hphrases, -⟩ := Sentence.resolvable_iff.mp hs
  -- One case per rule: its expressions are well formed, its names have slots, its kind is its own.
  cases h with
  | letAssign hw hr hx he => exact ⟨wellFormed_assign hr he hs, trivial⟩
  | assign hr hx he => exact ⟨wellFormed_assign hr he hs, trivial⟩
  | dim hw hitems =>
      simp only [Sentence.phrases, Sentence.ownArrays, List.forall_mem_map] at hphrases hbare
      obtain ⟨hne, hbounds⟩ := hitems.wellFormed hphrases
      refine ⟨⟨by simpa using hne, ?_⟩, trivial⟩
      simp only [List.forall_mem_map]
      exact fun item hitem => ⟨hbare item hitem, hbounds item hitem⟩
  | forTo hw hname hx ha hy hb =>
      simp only [Sentence.phrases, Option.toList_none, List.mem_cons, forall_eq_or_imp] at hphrases
      exact ⟨⟨Lexeme.mention_slot_lt _, ha.wellFormed hphrases.1.2, hb.wellFormed hphrases.2.1.2,
        by simp⟩, trivial⟩
  | forStep hw hname hx ha hy hb hz hc =>
      simp only [Sentence.phrases, Option.toList_some, List.mem_cons, forall_eq_or_imp] at hphrases
      obtain ⟨hstart, hlimit, hstep, -⟩ := hphrases
      exact ⟨⟨Lexeme.mention_slot_lt _, ha.wellFormed hstart.2, hb.wellFormed hlimit.2,
        by simpa using hc.wellFormed hstep.2⟩, trivial⟩
  | next hw => exact ⟨by simp [Sentence.meaning, Stmt.WellFormed], trivial⟩
  | nextName hw hname =>
      exact ⟨by simpa [Sentence.meaning, Stmt.WellFormed] using Lexeme.mention_slot_lt _, trivial⟩
  | printText hw hx => exact ⟨trivial, trivial⟩
  | printNothing hw => exact ⟨by simp [Sentence.meaning, Stmt.WellFormed], trivial⟩
  | print hw he =>
      have hvalue := he.wellFormed (hphrases _ (by simp [Sentence.phrases])).2
      exact ⟨by simpa [Sentence.meaning, Stmt.WellFormed] using hvalue, trivial⟩
  | goto hw hx => exact ⟨Int.natCast_nonneg _, trivial⟩
  | ifTest hw hc => exact ⟨⟨hc.wellFormed hphrases, by simp⟩, trivial⟩
  | ifThen hw hc hx hy => exact ⟨⟨hc.wellFormed hphrases, by simp⟩, trivial⟩

/-! ## Parsed statements -/

namespace Stmt

variable {kind : Kind} {text : List Char} {stmt : Stmt}

theorem wellFormed_of_read {s : Sentence} (hread : Sentence.read kind text = .ok s)
    (hs : s.resolve = .ok stmt) : stmt.WellFormed ∧ kind.Covers stmt := by
  obtain ⟨xs, -, hderives⟩ := derives_of_read hread
  obtain ⟨hresolvable, rfl⟩ := Sentence.resolve_eq_ok_iff.mp hs
  exact hderives.wellFormed hresolvable

/-- A parsed statement is well formed and of its kind, also when text behind it was ignored. -/
theorem wellFormed_of_parseAs (h : parseAs kind text = .ok stmt) :
    stmt.WellFormed ∧ kind.Covers stmt := by
  have hparsing := parsing kind text
  rw [h] at hparsing
  cases hparsing with
  | stop hkind =>
      subst hkind
      exact ⟨trivial, trivial⟩
  | whole _ hread hs => exact wellFormed_of_read hread hs
  | cut _ _ _ hcut hs _ => exact wellFormed_of_read hcut hs

end Stmt

/-- The statement of a sound line is well formed, and of the kind of the line. -/
theorem Line.Sound.wellFormed {line : Line} {stmt : Stmt} (hline : line.Sound)
    (h : line.content = .ok stmt) : stmt.WellFormed ∧ line.kind.Covers stmt := by
  have hparse := hline.parse_eq
  rw [h, Stmt.parse, hline.trimmed, ← hline.kind_eq] at hparse
  exact Stmt.wellFormed_of_parseAs hparse

end LineBasic
