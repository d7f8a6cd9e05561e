/-
  LineBasic.Proofs.Reader.Outlook

  Wherever the reader stands, the sentence can still be completed (`completable`): no state is a
  dead end, so what has been read without being refused is the front of a sentence.

  An operand that is missing is given, the brackets are closed from the inside to the outside, and
  then the purpose of the expression says what is still to come.
-/
import LineBasic.Proofs.Grammar.Spelling

namespace LineBasic.Grammar

/-- Wherever the text stands, it can go on from the state to the end of a sentence. -/
def Completable (σ : ReadState) : Prop :=
  ∀ place, ∃ more ys s, Spells place more ys ∧ Accepts σ ys s

namespace Completable

variable {σ : ReadState} {p : Purpose} {u : Unfinished} {e : Phrase}

/-! ## One lexeme more -/

theorem of_finish {s : Sentence} (h : σ.finish? = some s) : Completable σ := by
  intro place
  exact ⟨[], [], s, .nil rfl, σ, .nil, h⟩

/-- A lexeme is written behind the text, and leads on. -/
theorem lexeme (t : Terminal) {chars : List Char} (hchars : chars ∈ t.pattern)
    (h : ∀ x : Lexeme, x.terminal = t → ∃ σ', Advances σ x σ' ∧ Completable σ') :
    Completable σ := by
  intro place
  obtain ⟨σ', hx, hσ'⟩ := h ⟨t, chars, place⟩ rfl
  obtain ⟨more, ys, s, hspells, hs⟩ := hσ' (place + chars.length)
  have hone : Spells place chars [⟨t, chars, place⟩] :=
    @Spells.one place [] ⟨t, chars, place⟩ rfl rfl hchars
  exact ⟨chars ++ more, _ :: ys, s, hone.append hspells, .cons hx hs⟩

theorem symbol (chars : String)
    (h : ∀ x : Lexeme, x.terminal = .symbol chars → ∃ σ', Advances σ x σ' ∧ Completable σ') :
    Completable σ :=
  lexeme (.symbol chars) (Set.mem_singleton chars.toList) h

theorem word (letters : String)
    (h : ∀ x : Lexeme, x.terminal = .word letters → ∃ σ', Advances σ x σ' ∧ Completable σ') :
    Completable σ :=
  lexeme (.word letters) (mem_pattern_word letters) h

theorem name (h : ∀ x : Lexeme, x.terminal = .NAME → ∃ σ', Advances σ x σ' ∧ Completable σ') :
    Completable σ :=
  lexeme .NAME (mem_namePattern.mpr ⟨'A', rfl, Or.inl rfl⟩) h

theorem numeral (h : ∀ x : Lexeme, x.terminal = .NUMBER → ∃ σ', Advances σ x σ' ∧ Completable σ') :
    Completable σ :=
  lexeme .NUMBER (take_numeralLength (s := ['1']) (by decide)) h

/-! ## Expressions -/

/-- An expression with which the sentence ends. -/
theorem lastExpr (h : ∀ e, ∃ s, p.finish? e = some s) : Completable (.operand p {}) := by
  refine numeral fun x hx => ⟨_, ⟨_, .numeral hx, rfl⟩, ?_⟩
  obtain ⟨s, hs⟩ := h (.numeral x.chars)
  exact of_finish hs

theorem value (r : Recipient) : Completable (.operand (.value r) {}) :=
  lastExpr fun e => ⟨.assign r e, rfl⟩

theorem recipientName (m : Mention) : Completable (.recipientName m) :=
  symbol "=" fun _ hx => ⟨_, ⟨_, .becomes hx, rfl⟩, value _⟩

theorem recipientDone (r : Recipient) : Completable (.recipientDone r) :=
  symbol "=" fun _ hx => ⟨_, ⟨_, .becomes hx, rfl⟩, value r⟩

theorem behindExpr (hσ : BehindExpr p e σ) : Completable σ := by
  cases p with
  | recipientIndex m =>
      refine symbol ")" fun x hx => ⟨_, hσ.advances (.close hx) (by simp) (by simp) rfl, ?_⟩
      exact recipientDone _
  | bound items m =>
      refine symbol ")" fun x hx => ⟨_, hσ.advances (.close hx) (by simp) (by simp) rfl, ?_⟩
      exact of_finish rfl
  | start m =>
      refine word "TO" fun x hx =>
        ⟨_, hσ.advances (readAs_joint .to hx rfl) (by simp) (by simp) rfl, ?_⟩
      exact lastExpr fun limit => ⟨.forTo m e limit none, rfl⟩
  -- With any other purpose the sentence may end here.
  | _ => exact of_finish (hσ.finish?.trans rfl)

/-- The brackets are closed one after the other. -/
theorem behind (hσ : Behind p u e σ) : Completable σ := by
  obtain ⟨l, outer⟩ := u
  -- Over the brackets that are open; what is in the innermost becomes an operand of the next.
  induction outer generalizing l e σ with
  | nil => exact behindExpr ⟨l, e, hσ, rfl⟩
  | cons opened outer ih =>
      obtain ⟨level, bracket⟩ := opened
      refine symbol ")" fun x hx => ?_
      cases bracket with
      | group => exact ⟨_, hσ.advances (.close hx) (by simp) rfl, ih level .operator⟩
      | subscript m => exact ⟨_, hσ.advances (.close hx) (by simp) rfl, ih level .operator⟩

theorem operand : Completable (.operand p u) :=
  numeral fun _ hx => ⟨_, ⟨_, .numeral hx, rfl⟩, behind .operator⟩

/-! ## Statements -/

theorem recipient : Completable .recipient :=
  name fun _ hx => ⟨_, ⟨_, .name hx, rfl⟩, recipientName _⟩

theorem dimBracket (items : List (Mention × Phrase)) (m : Mention) :
    Completable (.dimBracket items m) :=
  symbol "(" fun _ hx => ⟨_, ⟨_, .openBinding hx, rfl⟩, operand⟩

theorem dimName (items : List (Mention × Phrase)) : Completable (.dimName items) :=
  name fun _ hx => ⟨_, ⟨_, .name hx, rfl⟩, dimBracket items _⟩

theorem forBecomes (m : Mention) : Completable (.forBecomes m) :=
  symbol "=" fun _ hx => ⟨_, ⟨_, .becomes hx, rfl⟩, operand⟩

theorem forName : Completable .forName :=
  name fun _ hx => ⟨_, ⟨_, .name hx, rfl⟩, forBecomes _⟩

theorem lineNumber (clause : Option Clause) : Completable (.lineNumber clause) := by
  have hdigits : ['1'] ∈ digits :=
    mem_digits.mpr ⟨List.cons_ne_nil _ _, List.forall_mem_singleton.mpr rfl⟩
  refine lexeme .INT hdigits fun x hx => ?_
  cases clause with
  | none => exact ⟨_, ⟨_, .lineNumber hx, rfl⟩, of_finish rfl⟩
  | some c => exact ⟨_, ⟨_, .lineNumber hx, rfl⟩, of_finish rfl⟩

theorem keyword {kind : Kind} (hkind : kind ≠ .ASSIGN)
    (h : ReadState.afterKeyword? kind = some σ) (hσ : Completable σ) :
    Completable (.opening kind) :=
  word kind.name fun _ hx => ⟨σ, ⟨_, .opening hkind hx, h⟩, hσ⟩

theorem opening {kind : Kind} (hassign : kind ≠ .ASSIGN) (hend : kind ≠ .END) :
    Completable (.opening kind) := by
  cases kind with
  | LET => exact keyword hassign rfl recipient
  | DIM => exact keyword hassign rfl (dimName [])
  | FOR => exact keyword hassign rfl forName
  | PRINT => exact keyword hassign rfl (of_finish rfl)
  | GOTO => exact keyword hassign rfl (lineNumber none)
  | IF => exact keyword hassign rfl operand
  | NEXT => exact keyword hassign rfl (of_finish rfl)
  | END => exact absurd rfl hend
  | ASSIGN => exact absurd rfl hassign

end Completable

/-- Every state leads to the end of a sentence, except before a keyword that no rule has. -/
theorem completable {σ : ReadState} (hassign : σ ≠ .opening .ASSIGN) (hend : σ ≠ .opening .END) :
    Completable σ := by
  cases σ with
  | opening kind => exact .opening (by simpa using hassign) (by simpa using hend)
  | recipient => exact .recipient
  | recipientName m => exact .recipientName m
  | recipientDone r => exact .recipientDone r
  | dimName items => exact .dimName items
  | dimBracket items m => exact .dimBracket items m
  | forName => exact .forName
  | forBecomes m => exact .forBecomes m
  | lineNumber clause => exact .lineNumber clause
  | operand p u => exact .operand
  | named p u m => exact .behind .named
  | operator p u e => exact .behind .operator
  | _ => exact .of_finish rfl

end LineBasic.Grammar
