/-
  LineBasic.Proofs.Reader.Completion

  The reader accepts every sentence that the grammar derives (`accepts_of_derives`).

  The induction over derivations is carried by what the reader holds while it reads an expression of
  a rank. A sum is read from an empty level; a product is read behind the operator of a sum, which
  the level keeps; a factor is read behind anything. `Rank.Settled` says how the level and the
  operand at the end of the expression stand for the level at its start and the expression as one
  operand.
-/
import LineBasic.Proofs.Grammar.Derivation
import LineBasic.Proofs.Reader.Run

namespace LineBasic.Grammar

/-! ## Behind an operand -/

/-- The state stands behind an operand; a bare name is an operand too. -/
inductive Behind (p : Purpose) (u : Unfinished) : Phrase → ReadState → Prop
  | operator {e : Phrase} : Behind p u e (.operator p u e)
  | named {m : Mention} : Behind p u (.name m) (.named p u m)

theorem Behind.advances {p : Purpose} {u : Unfinished} {e : Phrase} {σ σ' : ReadState}
    {x : Lexeme} {t : Token} (hσ : Behind p u e σ) (hx : x.ReadAs .operator t)
    (ht : t ≠ .openBracket) (hstep : ReadState.stepOperator? p u e t = some σ') :
    Advances σ x σ' := by
  cases hσ with
  | operator => exact ⟨t, hx, hstep⟩
  | named => exact ⟨t, hx, by rw [step?_named ht]; exact hstep⟩

/-! ## Expressions -/

/-- The levels at which an expression of the rank may begin. -/
def Rank.Begins : Rank → Level → Prop
  | .sum, l => l = {}
  | .product, l => l.product = none ∧ l.signs = []
  | .factor, _ => True

/-- The level `l'` with the operand `e'` amounts to the level `l` with the operand `e`, as far as an
    expression of the rank can change the level. -/
def Rank.Settled : Rank → Level → Phrase → Level → Phrase → Prop
  | .sum, l, e, l', e' => l'.total e' = l.total e
  | .product, l, e, l', e' => l'.sum = l.sum ∧ l'.term e' = l.term e
  | .factor, l, e, l', e' =>
    l'.sum = l.sum ∧ l'.product = l.product ∧ l'.factor e' = l.factor e

/-- Where a product begins, an operand is the whole product so far. -/
theorem Rank.Begins.term_eq {l : Level} (hl : Rank.Begins .product l) (e : Phrase) :
    l.term e = e := by
  simp only [Level.term, Level.factor, hl.1, hl.2, List.foldl_nil]

theorem Rank.Settled.toProduct {l l' : Level} {e e' : Phrase}
    (h : Rank.Settled .factor l e l' e') : Rank.Settled .product l e l' e' := by
  obtain ⟨hsum, hproduct, hfactor⟩ := h
  refine ⟨hsum, ?_⟩
  simp only [Level.term, hproduct, hfactor]

theorem Rank.Settled.toSum {l l' : Level} {e e' : Phrase}
    (h : Rank.Settled .product l e l' e') : Rank.Settled .sum l e l' e' := by
  obtain ⟨hsum, hterm⟩ := h
  simp only [Rank.Settled, Level.total, hsum, hterm]

/-- Reading an expression from a level at which it may begin. -/
theorem runs_phrase {rank : Rank} {xs : List Lexeme} {e : Phrase}
    (he : DerivesPhrase rank xs e) (p : Purpose) (outer : List (Level × Bracket)) {l : Level}
    (hl : rank.Begins l) :
    ∃ σ l' e', Runs (.operand p ⟨l, outer⟩) xs σ ∧ Behind p ⟨l', outer⟩ e' σ ∧
      rank.Settled l e l' e' := by
  -- Over the derivation; the brackets outside and the level vary, for the parts of an expression
  -- are read behind what stands before them.
  induction he generalizing outer l with
  | ofProduct _ ih =>
      obtain rfl : l = {} := hl
      obtain ⟨σ, l', e', hrun, hσ, hsettled⟩ := ih outer (l := {}) ⟨rfl, rfl⟩
      exact ⟨σ, l', e', hrun, hσ, hsettled.toSum⟩
  | @sum xs ys x a b op hop _ hx _ iha ihb =>
      obtain rfl : l = {} := hl
      obtain ⟨σ, l₁, e₁, hrun₁, hσ₁, htotal⟩ := iha outer (l := {}) rfl
      have htotal : l₁.total e₁ = a := htotal
      -- The operator turns all of the left side into one waiting operand.
      have hjoin : l₁.join e₁ op = { sum := some (a, op) } := by
        rcases hop with rfl | rfl <;> simp only [Level.join, htotal]
      have hadv : Advances σ x (.operand p ⟨{ sum := some (a, op) }, outer⟩) :=
        hσ₁.advances (.operator hx) (by simp) (by rw [← hjoin]; rfl)
      obtain ⟨σ', l₂, e₂, hrun₂, hσ₂, hsum, hterm⟩ :=
        ihb outer (l := { sum := some (a, op) }) ⟨rfl, rfl⟩
      refine ⟨σ', l₂, e₂, hrun₁.append (.cons hadv hrun₂), hσ₂, ?_⟩
      simp only [Rank.Settled, Level.total, hsum, hterm]
      rfl
  | ofFactor _ ih =>
      obtain ⟨σ, l', e', hrun, hσ, hsettled⟩ := ih outer (l := l) trivial
      exact ⟨σ, l', e', hrun, hσ, hsettled.toProduct⟩
  | @product xs ys x a b op hop _ hx _ iha ihb =>
      obtain ⟨σ, l₁, e₁, hrun₁, hσ₁, hsum₁, hterm₁⟩ := iha outer (l := l) hl
      have hterm : l₁.term e₁ = a := by rw [hterm₁, Rank.Begins.term_eq hl]
      -- The operator leaves the sum that waits outside the product as it is.
      have hjoin : l₁.join e₁ op = { sum := l.sum, product := some (a, op) } := by
        rcases hop with rfl | rfl <;> simp only [Level.join, hsum₁, hterm]
      have hadv : Advances σ x (.operand p ⟨{ sum := l.sum, product := some (a, op) }, outer⟩) :=
        hσ₁.advances (.operator hx) (by simp) (by rw [← hjoin]; rfl)
      obtain ⟨σ', l₂, e₂, hrun₂, hσ₂, hsum₂, hproduct₂, hfactor₂⟩ :=
        ihb outer (l := { sum := l.sum, product := some (a, op) }) trivial
      refine ⟨σ', l₂, e₂, hrun₁.append (.cons hadv hrun₂), hσ₂, hsum₂, ?_⟩
      rw [Rank.Begins.term_eq hl]
      simp only [Level.term, hproduct₂, hfactor₂]
      rfl
  | @signed xs x e sign hx _ ih =>
      obtain ⟨σ, l', e', hrun, hσ, hsum, hproduct, hfactor⟩ :=
        ih outer (l := { l with signs := sign :: l.signs }) trivial
      have hadv : Advances (.operand p ⟨l, outer⟩) x
          (.operand p ⟨{ l with signs := sign :: l.signs }, outer⟩) := by
        cases sign with
        | plus => exact ⟨_, .plus hx, rfl⟩
        | minus => exact ⟨_, .minus hx, rfl⟩
      exact ⟨σ, l', e', .cons hadv hrun, hσ, hsum, hproduct, hfactor⟩
  | @group xs x y e hx _ hy ih =>
      -- Inside the bracket reading starts from an empty level, and the old one is kept outside.
      obtain ⟨σ, l', e', hrun, hσ, htotal⟩ := ih ((l, .group) :: outer) (l := {}) rfl
      have htotal : l'.total e' = e := htotal
      have hopen : Advances (.operand p ⟨l, outer⟩) x (.operand p ⟨{}, (l, .group) :: outer⟩) :=
        ⟨_, .openOperand hx, rfl⟩
      have hclose : Advances σ y (.operator p ⟨l, outer⟩ e) :=
        hσ.advances (.close hy) (by simp) (by rw [← htotal]; rfl)
      exact ⟨_, l, e, .cons hopen (hrun.append (.one hclose)), .operator, rfl, rfl, rfl⟩
  | @element xs name x y e hname hx _ hy ih =>
      obtain ⟨σ, l', e', hrun, hσ, htotal⟩ :=
        ih ((l, .subscript name.mention) :: outer) (l := {}) rfl
      have htotal : l'.total e' = e := htotal
      have hmention : Advances (.operand p ⟨l, outer⟩) name
          (.named p ⟨l, outer⟩ name.mention) := ⟨_, .name hname, rfl⟩
      have hopen : Advances (.named p ⟨l, outer⟩ name.mention) x
          (.operand p ⟨{}, (l, .subscript name.mention) :: outer⟩) := ⟨_, .openOperator hx, rfl⟩
      have hclose : Advances σ y (.operator p ⟨l, outer⟩ (.element name.mention e)) :=
        hσ.advances (.close hy) (by simp) (by rw [← htotal]; rfl)
      exact ⟨_, l, _, .cons hmention (.cons hopen (hrun.append (.one hclose))), .operator,
        rfl, rfl, rfl⟩
  | @name name hname =>
      exact ⟨_, l, _, .one ⟨_, .name hname, rfl⟩, .named, rfl, rfl, rfl⟩
  | @numeral x hx =>
      exact ⟨_, l, _, .one ⟨_, .numeral hx, rfl⟩, .operator, rfl, rfl, rfl⟩

/-! ## Statements -/

theorem readAs_joint {x : Lexeme} {letters : String} (joint : Joint)
    (hx : x.terminal = .word letters) (hletters : letters.toList = joint.word) :
    x.ReadAs .operator (.joint joint) :=
  .joint hletters hx

/-- The state stands behind an expression, outside all brackets. -/
def BehindExpr (p : Purpose) (e : Phrase) (σ : ReadState) : Prop :=
  ∃ l e', Behind p ⟨l, []⟩ e' σ ∧ l.total e' = e

theorem runs_expr {xs : List Lexeme} {e : Phrase} (he : DerivesPhrase .sum xs e) (p : Purpose) :
    ∃ σ, Runs (.operand p {}) xs σ ∧ BehindExpr p e σ := by
  obtain ⟨σ, l', e', hrun, hσ, htotal⟩ := runs_phrase he p [] (l := {}) rfl
  exact ⟨σ, hrun, l', e', hσ, htotal⟩

theorem BehindExpr.advances {p : Purpose} {e : Phrase} {σ σ' : ReadState} {x : Lexeme} {t : Token}
    (hσ : BehindExpr p e σ) (hx : x.ReadAs .operator t) (hopen : t ≠ .openBracket)
    (hop : ∀ op, t ≠ .operator op) (hstep : p.follow? e t = some σ') : Advances σ x σ' := by
  obtain ⟨l, e', hbehind, rfl⟩ := hσ
  exact hbehind.advances hx hopen (by rw [stepOperator?_outside hop]; exact hstep)

theorem BehindExpr.finish? {p : Purpose} {e : Phrase} {σ : ReadState} (hσ : BehindExpr p e σ) :
    σ.finish? = p.finish? e := by
  obtain ⟨l, e', hbehind, rfl⟩ := hσ
  cases hbehind <;> rfl

theorem BehindExpr.accepts {p : Purpose} {e : Phrase} {xs : List Lexeme} {s : Sentence}
    (he : DerivesPhrase .sum xs e) (hs : p.finish? e = some s) :
    Accepts (.operand p {}) xs s := by
  obtain ⟨σ, hrun, hσ⟩ := runs_expr he p
  exact ⟨σ, hrun, by rw [hσ.finish?, hs]⟩

theorem Accepts.cons {σ σ' : ReadState} {x : Lexeme} {xs : List Lexeme} {s : Sentence}
    (hx : Advances σ x σ') (hxs : Accepts σ' xs s) : Accepts σ (x :: xs) s := by
  obtain ⟨σ'', hrun, hs⟩ := hxs
  exact ⟨σ'', .cons hx hrun, hs⟩

theorem Accepts.append {σ σ' : ReadState} {xs ys : List Lexeme} {s : Sentence}
    (hxs : Runs σ xs σ') (hys : Accepts σ' ys s) : Accepts σ (xs ++ ys) s := by
  obtain ⟨σ'', hrun, hs⟩ := hys
  exact ⟨σ'', hxs.append hrun, hs⟩

/-- An expression, the token behind it, and the rest of the sentence. -/
theorem accepts_expr_then {p : Purpose} {e : Phrase} {σ : ReadState} {xs ys : List Lexeme}
    {x : Lexeme} {t : Token} {s : Sentence} (he : DerivesPhrase .sum xs e)
    (hx : x.ReadAs .operator t) (hopen : t ≠ .openBracket) (hop : ∀ op, t ≠ .operator op)
    (hstep : p.follow? e t = some σ) (hys : Accepts σ ys s) :
    Accepts (.operand p {}) (xs ++ x :: ys) s := by
  obtain ⟨σ', hrun, hσ⟩ := runs_expr he p
  exact .append hrun (.cons (hσ.advances hx hopen hop hstep) hys)

theorem accepts_assignment {xs ys : List Lexeme} {x : Lexeme} {r : Recipient} {e : Phrase}
    (hr : DerivesRecipient xs r) (hx : x.terminal = .symbol "=") (he : DerivesPhrase .sum ys e) :
    Accepts .recipient (xs ++ x :: ys) (.assign r e) := by
  have hvalue : Accepts (.operand (.value r) {}) ys (.assign r e) := BehindExpr.accepts he rfl
  cases hr with
  | scalar hname =>
      exact .cons ⟨_, .name hname, rfl⟩ (.cons ⟨_, .becomes hx, rfl⟩ hvalue)
  | @element xs name _ _ index hname hopen hindex hclose =>
      have hdone : Accepts (.recipientDone _) (x :: ys) _ := .cons ⟨_, .becomes hx, rfl⟩ hvalue
      have hrest : Accepts (.operand (.recipientIndex name.mention) {}) _ _ :=
        accepts_expr_then hindex (.close hclose) (by simp) (by simp) rfl hdone
      simpa using Accepts.cons ⟨_, .name hname, rfl⟩ (.cons ⟨_, .openBinding hopen, rfl⟩ hrest)

theorem runs_item {xs : List Lexeme} {item : Mention × Phrase} (hitem : DerivesItem xs item)
    (items : List (Mention × Phrase)) :
    Runs (.dimName items) xs (.dimMore (items ++ [item])) := by
  obtain ⟨hname, hopen, he, hclose⟩ := hitem
  rename_i name x y e
  obtain ⟨σ, hrun, hσ⟩ := runs_expr he (.bound items name.mention)
  have hdone := hσ.advances (.close hclose) (by simp) (by simp) rfl
  exact .cons ⟨_, .name hname, rfl⟩ (.cons ⟨_, .openBinding hopen, rfl⟩ (hrun.append (.one hdone)))

theorem runs_items {xs : List Lexeme} {items : List (Mention × Phrase)}
    (hitems : DerivesItems xs items) : Runs (.dimName []) xs (.dimMore items) := by
  induction hitems with
  | one hitem => exact runs_item hitem []
  | @more xs ys x items item _ hx hitem ih =>
      exact ih.append (.cons ⟨_, .comma hx, rfl⟩ (runs_item hitem items))

/-- Behind a condition the sentence may end, or go on with `THEN`. -/
theorem runs_clause {xs : List Lexeme} {c : Clause} (hc : DerivesClause xs c) :
    ∃ σ p e, Runs (.operand .condition {}) xs σ ∧ BehindExpr p e σ ∧
      p.finish? e = some (.ifThen c none) ∧
      p.follow? e (.joint .then) = some (.lineNumber (some c)) := by
  cases hc with
  | nonzero he =>
      obtain ⟨σ, hrun, hσ⟩ := runs_expr he .condition
      exact ⟨σ, _, _, hrun, hσ, rfl, rfl⟩
  | @compare xs ys x a b relation ha hx hb =>
      obtain ⟨σ₁, hrun₁, hσ₁⟩ := runs_expr ha .condition
      obtain ⟨σ₂, hrun₂, hσ₂⟩ := runs_expr hb (.comparand relation a)
      have hadv := hσ₁.advances (.relation hx) (by simp) (by simp) rfl
      exact ⟨σ₂, _, _, hrun₁.append (.cons hadv hrun₂), hσ₂, rfl, rfl⟩

/-- Where `PRINT` may print quoted text, an expression is read as where it may not. -/
theorem accepts_printOperand {xs : List Lexeme} {s : Sentence} (hne : xs ≠ [])
    (h : Accepts (.operand .print {}) xs s) : Accepts .printOperand xs s := by
  obtain ⟨σ, hrun, hs⟩ := h
  -- The two states differ in the first lexeme only, and only for quoted text.
  cases hrun with
  | nil => exact absurd rfl hne
  | cons hx hxs =>
      obtain ⟨t, ht, hstep⟩ := hx
      have htext : ∀ content, t ≠ .text content := by
        rintro content rfl
        simp [ReadState.step?, ReadState.stepOperand?] at hstep
      exact ⟨σ, .cons ⟨t, ht, by rw [step?_printOperand htext]; exact hstep⟩ hxs, hs⟩

theorem DerivesPhrase.ne_nil {rank : Rank} {xs : List Lexeme} {e : Phrase}
    (he : DerivesPhrase rank xs e) : xs ≠ [] := by
  induction he <;> simp_all

/-- What the grammar derives, the reader accepts. -/
theorem accepts_of_derives {kind : Kind} {xs : List Lexeme} {s : Sentence}
    (h : Derives kind xs s) : Accepts (ReadState.start kind) xs s := by
  cases h with
  | letAssign hw hr hx he =>
      exact .cons ⟨_, .opening (by simp) hw, rfl⟩ (accepts_assignment hr hx he)
  | assign hr hx he => exact accepts_assignment hr hx he
  | dim hw hitems =>
      exact .cons ⟨_, .opening (by simp) hw, rfl⟩ ⟨_, runs_items hitems, rfl⟩
  | forTo hw hname hx ha hy hb =>
      refine .cons ⟨_, .opening (by simp) hw, rfl⟩ (.cons ⟨_, .name hname, rfl⟩
        (.cons ⟨_, .becomes hx, rfl⟩ ?_))
      exact accepts_expr_then ha (readAs_joint .to hy rfl) (by simp) (by simp) rfl
        (BehindExpr.accepts hb rfl)
  | forStep hw hname hx ha hy hb hz hc =>
      refine .cons ⟨_, .opening (by simp) hw, rfl⟩ (.cons ⟨_, .name hname, rfl⟩
        (.cons ⟨_, .becomes hx, rfl⟩ ?_))
      refine accepts_expr_then ha (readAs_joint .to hy rfl) (by simp) (by simp) rfl ?_
      exact accepts_expr_then hb (readAs_joint .step hz rfl) (by simp) (by simp) rfl
        (BehindExpr.accepts hc rfl)
  | next hw => exact ⟨_, .one ⟨_, .opening (by simp) hw, rfl⟩, rfl⟩
  | nextName hw hname =>
      exact .cons ⟨_, .opening (by simp) hw, rfl⟩ ⟨_, .one ⟨_, .name hname, rfl⟩, rfl⟩
  | printText hw hx =>
      exact .cons ⟨_, .opening (by simp) hw, rfl⟩ ⟨_, .one ⟨_, .text hx, rfl⟩, rfl⟩
  | printNothing hw => exact ⟨_, .one ⟨_, .opening (by simp) hw, rfl⟩, rfl⟩
  | print hw he =>
      refine .cons ⟨_, .opening (by simp) hw, rfl⟩ (accepts_printOperand he.ne_nil ?_)
      exact BehindExpr.accepts he rfl
  | goto hw hx =>
      exact .cons ⟨_, .opening (by simp) hw, rfl⟩ ⟨_, .one ⟨_, .lineNumber hx, rfl⟩, rfl⟩
  | ifTest hw hc =>
      obtain ⟨σ, p, e, hrun, hσ, hfinish, -⟩ := runs_clause hc
      exact .cons ⟨_, .opening (by simp) hw, rfl⟩ ⟨σ, hrun, by rw [hσ.finish?, hfinish]⟩
  | ifThen hw hc hx hy =>
      obtain ⟨σ, p, e, hrun, hσ, -, hfollow⟩ := runs_clause hc
      have hthen := hσ.advances (readAs_joint .then hx rfl) (by simp) (by simp) hfollow
      exact .cons ⟨_, .opening (by simp) hw, rfl⟩
        (.append hrun (.cons hthen ⟨_, .one ⟨_, .lineNumber hy, rfl⟩, rfl⟩))

end LineBasic.Grammar
