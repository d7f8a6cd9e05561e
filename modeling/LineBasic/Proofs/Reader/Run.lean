/-
  LineBasic.Proofs.Reader.Run

  The reader as a machine on lexemes. A lexeme takes a state to the next when the token that it is
  there is accepted; `Runs` follows a list of lexemes. Texts and scanning are left out here.
-/
import LineBasic.Proofs.Grammar.Scan

namespace LineBasic.Grammar

/-! ## Steps of one shape -/

theorem step?_named {p : Purpose} {u : Unfinished} {m : Mention} {place : Nat} {t : Token}
    (ht : t ≠ .openBracket) :
    (ReadState.named p u m).step? place t = ReadState.stepOperator? p u (.name m) t := by
  cases t with
  | openBracket => exact absurd rfl ht
  | _ => rfl

theorem step?_printOperand {place : Nat} {t : Token} (ht : ∀ content, t ≠ .text content) :
    ReadState.printOperand.step? place t = ReadState.stepOperand? .print {} place t := by
  cases t with
  | text content => exact absurd rfl (ht content)
  | _ => rfl

/-- Behind an operand outside all brackets the purpose of the expression decides. -/
theorem stepOperator?_outside {p : Purpose} {l : Level} {e : Phrase} {t : Token}
    (ht : ∀ op, t ≠ .operator op) :
    ReadState.stepOperator? p ⟨l, []⟩ e t = p.follow? (l.total e) t := by
  cases t with
  | operator op => exact absurd rfl (ht op)
  | _ => rfl

/-! ## Runs -/

/-- The lexeme, as the token that it is in the state, leads to the next state. -/
def Advances (σ : ReadState) (x : Lexeme) (σ' : ReadState) : Prop :=
  ∃ t, x.ReadAs σ.expecting t ∧ σ.step? x.place t = some σ'

/-- The lexemes lead from a state to a state. -/
inductive Runs : ReadState → List Lexeme → ReadState → Prop
  | nil {σ : ReadState} : Runs σ [] σ
  | cons {σ σ' σ'' : ReadState} {x : Lexeme} {xs : List Lexeme} (hx : Advances σ x σ')
      (hxs : Runs σ' xs σ'') : Runs σ (x :: xs) σ''

namespace Runs

theorem append {σ σ' σ'' : ReadState} {xs ys : List Lexeme} (hxs : Runs σ xs σ')
    (hys : Runs σ' ys σ'') : Runs σ (xs ++ ys) σ'' := by
  induction hxs with
  | nil => exact hys
  | cons hx _ ih => exact cons hx (ih hys)

theorem one {σ σ' : ReadState} {x : Lexeme} (hx : Advances σ x σ') : Runs σ [x] σ' :=
  cons hx nil

/-- A run over two lists of lexemes passes a state between them. -/
theorem exists_between {σ σ'' : ReadState} {xs ys : List Lexeme} (h : Runs σ (xs ++ ys) σ'') :
    ∃ σ', Runs σ xs σ' ∧ Runs σ' ys σ'' := by
  induction xs generalizing σ with
  | nil => exact ⟨σ, nil, h⟩
  | cons x xs ih =>
      cases h with
      | cons hx hrest =>
          obtain ⟨σ', hxs, hys⟩ := ih hrest
          exact ⟨σ', cons hx hxs, hys⟩

end Runs

/-- The lexemes lead from a state to one in which the text may end with the sentence. -/
def Accepts (σ : ReadState) (xs : List Lexeme) (s : Sentence) : Prop :=
  ∃ σ', Runs σ xs σ' ∧ σ'.finish? = some s

end LineBasic.Grammar
