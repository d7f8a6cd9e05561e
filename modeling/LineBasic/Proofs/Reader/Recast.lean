/-
  LineBasic.Proofs.Reader.Recast

  The same sentence in another text. A recast replaces the characters of a text one by one and lets
  the text start further on. Where tokens stay what they are, the reader goes through the same
  states: `read_recast` says that it reads the recast sentence, or stops at the recast place. What
  the sentence stands for is the same (`Sentence.resolve_recast`), and where it is refused only the
  column moves.

  Proven state by state: a step of the recast state is the recast of the step.
-/
import LineBasic.Sentence.Reader
import LineBasic.Sentence.Resolve

namespace LineBasic

/-- A change to the text that a sentence is read from: what becomes of each character, and how much
    further on the text starts. -/
structure Recast where
  char : Char → Char
  shift : Nat

/-! ## Recast sentences -/

def Mention.recast (r : Recast) (m : Mention) : Mention :=
  { m with place := m.place + r.shift }

def Phrase.recast (r : Recast) : Phrase → Phrase
  | .numeral digits => .numeral (digits.map r.char)
  | .name mention => .name (mention.recast r)
  | .element mention index => .element (mention.recast r) (index.recast r)
  | .signed sign operand => .signed sign (operand.recast r)
  | .binary op left right => .binary op (left.recast r) (right.recast r)

def Clause.recast (r : Recast) : Clause → Clause
  | .nonzero operand => .nonzero (operand.recast r)
  | .compare relation left right => .compare relation (left.recast r) (right.recast r)

def Recipient.recast (r : Recast) : Recipient → Recipient
  | .scalar mention => .scalar (mention.recast r)
  | .element mention index => .element (mention.recast r) (index.recast r)

def recastItem (r : Recast) (item : Mention × Phrase) : Mention × Phrase :=
  (item.1.recast r, item.2.recast r)

/-- The digits of a line number stay: they are no letters. -/
def Sentence.recast (r : Recast) : Sentence → Sentence
  | .assign recipient value => .assign (recipient.recast r) (value.recast r)
  | .dim items => .dim (items.map (recastItem r))
  | .forTo mention start limit step =>
    .forTo (mention.recast r) (start.recast r) (limit.recast r) (step.map (Phrase.recast r))
  | .next mention => .next (mention.map (Mention.recast r))
  | .printText text => .printText (text.map r.char)
  | .print value => .print (value.map (Phrase.recast r))
  | .goto digits => .goto digits
  | .ifThen clause digits => .ifThen (clause.recast r) digits

def Token.recast (r : Recast) : Token → Token
  | .numeral digits => .numeral (digits.map r.char)
  | .text content => .text (content.map r.char)
  | token => token

/-! ## Recast states -/

def recastPending (r : Recast) (pending : Phrase × Operator) : Phrase × Operator :=
  (pending.1.recast r, pending.2)

def Level.recast (r : Recast) (l : Level) : Level where
  sum := l.sum.map (recastPending r)
  product := l.product.map (recastPending r)
  signs := l.signs

def Bracket.recast (r : Recast) : Bracket → Bracket
  | .group => .group
  | .subscript mention => .subscript (mention.recast r)

def recastOuter (r : Recast) (outer : Level × Bracket) : Level × Bracket :=
  (outer.1.recast r, outer.2.recast r)

def Unfinished.recast (r : Recast) (u : Unfinished) : Unfinished where
  level := u.level.recast r
  outer := u.outer.map (recastOuter r)

def Purpose.recast (r : Recast) : Purpose → Purpose
  | .recipientIndex mention => .recipientIndex (mention.recast r)
  | .value recipient => .value (recipient.recast r)
  | .bound items mention => .bound (items.map (recastItem r)) (mention.recast r)
  | .start mention => .start (mention.recast r)
  | .limit mention first => .limit (mention.recast r) (first.recast r)
  | .step mention first last => .step (mention.recast r) (first.recast r) (last.recast r)
  | .print => .print
  | .condition => .condition
  | .comparand relation left => .comparand relation (left.recast r)

def ReadState.recast (r : Recast) : ReadState → ReadState
  | .opening kind => .opening kind
  | .recipient => .recipient
  | .recipientName mention => .recipientName (mention.recast r)
  | .recipientDone left => .recipientDone (left.recast r)
  | .dimName items => .dimName (items.map (recastItem r))
  | .dimBracket items mention => .dimBracket (items.map (recastItem r)) (mention.recast r)
  | .dimMore items => .dimMore (items.map (recastItem r))
  | .forName => .forName
  | .forBecomes mention => .forBecomes (mention.recast r)
  | .nextName => .nextName
  | .printOperand => .printOperand
  | .lineNumber clause => .lineNumber (clause.map (Clause.recast r))
  | .operand purpose expr => .operand (purpose.recast r) (expr.recast r)
  | .named purpose expr mention => .named (purpose.recast r) (expr.recast r) (mention.recast r)
  | .operator purpose expr last => .operator (purpose.recast r) (expr.recast r) (last.recast r)
  | .complete sentence => .complete (sentence.recast r)

/-! ## Steps -/

variable (r : Recast)

namespace Level

variable (l : Level) (e : Phrase)

theorem factor_recast : (l.recast r).factor (e.recast r) = (l.factor e).recast r := by
  obtain ⟨sum, product, signs⟩ := l
  show signs.foldl (fun e sign => .signed sign e) (e.recast r) =
    (signs.foldl (fun e sign => Phrase.signed sign e) e).recast r
  -- Over the signs, each one put before the operand so far.
  induction signs generalizing e with
  | nil => rfl
  | cons sign signs ih => exact ih (.signed sign e)

theorem term_recast : (l.recast r).term (e.recast r) = (l.term e).recast r := by
  have hfactor := l.factor_recast r e
  obtain ⟨sum, _ | ⟨left, op⟩, signs⟩ := l
  · exact hfactor
  · exact congrArg (Phrase.binary op (left.recast r)) hfactor

theorem total_recast : (l.recast r).total (e.recast r) = (l.total e).recast r := by
  have hterm := l.term_recast r e
  obtain ⟨_ | ⟨left, op⟩, product, signs⟩ := l
  · exact hterm
  · exact congrArg (Phrase.binary op (left.recast r)) hterm

theorem join_recast (op : Operator) :
    (l.recast r).join (e.recast r) op = (l.join e op).recast r := by
  cases op <;> simp [join, recast, recastPending, ← total_recast, ← term_recast]

end Level

namespace Purpose

variable (p : Purpose) (e : Phrase)

theorem finish?_recast :
    (p.recast r).finish? (e.recast r) = (p.finish? e).map (Sentence.recast r) := by
  cases p <;> rfl

theorem follow?_recast (t : Token) :
    (p.recast r).follow? (e.recast r) (t.recast r) = (p.follow? e t).map (ReadState.recast r) := by
  cases t with
  | joint word => cases word <;> cases p <;> rfl
  | closeBracket =>
      cases p with
      | bound items mention =>
          show some (ReadState.dimMore (items.map (recastItem r) ++ _)) =
            some (.dimMore ((items ++ _).map (recastItem r)))
          rw [List.map_append]
          rfl
      | _ => rfl
  | _ => cases p <;> rfl

end Purpose

namespace ReadState

variable (p : Purpose) (u : Unfinished) (σ : ReadState) (place : Nat) (t : Token)

@[simp] theorem expecting_recast : (σ.recast r).expecting = σ.expecting := by
  cases σ <;> rfl

theorem stepOperand?_recast :
    stepOperand? (p.recast r) (u.recast r) (place + r.shift) (t.recast r) =
      (stepOperand? p u place t).map (recast r) := by
  cases t with
  | operator op => cases op <;> rfl
  | _ => rfl

theorem stepOperator?_recast (e : Phrase) :
    stepOperator? (p.recast r) (u.recast r) (e.recast r) (t.recast r) =
      (stepOperator? p u e t).map (recast r) := by
  obtain ⟨l, outer⟩ := u
  have htotal := l.total_recast r e
  have hfollow : (p.recast r).follow? ((l.recast r).total (e.recast r)) (t.recast r) =
      (p.follow? (l.total e) t).map (recast r) := by
    rw [htotal, p.follow?_recast r]
  cases t with
  | operator op =>
      exact congrArg (fun l => some (ReadState.operand _ ⟨l, _⟩)) (l.join_recast r e op)
  | closeBracket =>
      obtain _ | ⟨⟨l', _ | mention⟩, outer⟩ := outer
      · exact hfollow
      · exact congrArg (fun e => some (ReadState.operator _ _ e)) htotal
      · exact congrArg (fun e => some (ReadState.operator _ _ (.element _ e))) htotal
  | _ =>
      cases outer with
      | nil => exact hfollow
      | cons _ _ => rfl

theorem step?_recast :
    (σ.recast r).step? (place + r.shift) (t.recast r) = (σ.step? place t).map (recast r) := by
  -- One case for each state. Inside an expression the token is one of two sorts, seen to above;
  -- what else is read is put into the state as it is.
  cases σ with
  | opening kind =>
      cases t with
      | opening kind => cases kind <;> rfl
      | _ => rfl
  | printOperand =>
      have hprint := stepOperand?_recast r .print {} place t
      cases t with
      | text content => rfl
      | _ => exact hprint
  | lineNumber clause => cases clause <;> cases t <;> rfl
  | operand p u => exact stepOperand?_recast r p u place t
  | named p u mention =>
      have hname := stepOperator?_recast r p u t (.name mention)
      cases t with
      | openBracket => rfl
      | _ => exact hname
  | operator p u last => exact stepOperator?_recast r p u t last
  | _ => cases t <;> rfl

theorem finish?_recast : (σ.recast r).finish? = σ.finish?.map (Sentence.recast r) := by
  have hfinish (p : Purpose) (l : Level) (e : Phrase) :
      (p.recast r).finish? ((l.recast r).total (e.recast r)) =
        (p.finish? (l.total e)).map (Sentence.recast r) := by
    rw [l.total_recast r e, p.finish?_recast r]
  cases σ with
  | named p u mention =>
      obtain ⟨l, _ | _⟩ := u
      · exact hfinish p l (.name mention)
      · rfl
  | operator p u last =>
      obtain ⟨l, _ | _⟩ := u
      · exact hfinish p l last
      · rfl
  | _ => rfl

end ReadState

/-! ## Reading -/

def Stop.recast (r : Recast) : Stop → Stop
  | .refused place => .refused (place + r.shift)
  | .ended lastToken => .ended (lastToken + r.shift)

/-- What reading a recast text comes to. -/
def recastReading (r : Recast) : Except Stop Sentence → Except Stop Sentence
  | .ok s => .ok (s.recast r)
  | .error halt => .error (halt.recast r)

/-- The characters of a text are replaced by characters that are read alike. -/
structure Recast.Faithful (r : Recast) : Prop where
  gap (c : Char) : isGap (r.char c) = isGap c
  scan (e : Expecting) (s : List Char) :
    Token.scan? e (s.map r.char) = (Token.scan? e s).map fun (t, size) => (t.recast r, size)
  numeral (digits : List Char) :
    Number.numeralValue (digits.map r.char) = Number.numeralValue digits

variable {r : Recast}

/-- Of a recast text the recast sentence is read, or reading stops at the recast place. -/
theorem ReadState.read_recast (hr : r.Faithful) (σ : ReadState) (skip lastToken place : Nat)
    (text : List Char) :
    (σ.recast r).read skip (lastToken + r.shift) (place + r.shift) (text.map r.char) =
      recastReading r (σ.read skip lastToken place text) := by
  -- Over the text, state and offsets being those of the text that is left.
  induction text generalizing σ skip lastToken place with
  | nil =>
      simp only [List.map_nil, read, finish?_recast]
      cases σ.finish? <;> rfl
  | cons c rest ih =>
      have hplace : place + r.shift + 1 = place + 1 + r.shift := by omega
      cases skip with
      | succ skip => simp only [List.map_cons, read, hplace, ih]
      | zero =>
          have hscan := hr.scan σ.expecting (c :: rest)
          simp only [List.map_cons] at hscan
          simp only [List.map_cons, read, hplace, hr.gap, expecting_recast, hscan]
          split
          · exact ih ..
          · cases Token.scan? σ.expecting (c :: rest) with
            | none => rfl
            | some front =>
                obtain ⟨t, size⟩ := front
                simp only [Option.map_some, step?_recast]
                cases σ.step? place t with
                | none => rfl
                | some σ' => exact ih σ' (size - 1) place (place + 1)

/-! ## What a recast sentence stands for -/

/-- The rejection, with its column further on. -/
def Rejection.moved (n : Nat) : Rejection → Rejection
  | .misread m => .misread { m with column := m.column.map (· + n) }
  | .target kind flaw => .target kind flaw

/-- The outcome, with the column of a rejection further on. -/
def moved {α : Type} (n : Nat) : Except Rejection α → Except Rejection α :=
  Except.mapError (Rejection.moved n)

theorem moved_zero {α : Type} (outcome : Except Rejection α) : moved 0 outcome = outcome := by
  match outcome with
  | .ok _ => rfl
  | .error (.misread ⟨_, none⟩) => rfl
  | .error (.misread ⟨_, some _⟩) => rfl
  | .error (.target _ _) => rfl

@[simp] theorem moved_pure {α : Type} (n : Nat) (a : α) : moved n (pure a) = pure a := rfl

@[simp] theorem moved_bind {α β : Type} (n : Nat) (x : Except Rejection α)
    (f : α → Except Rejection β) : moved n (x >>= f) = moved n x >>= fun a => moved n (f a) := by
  cases x <;> rfl

theorem moved_mapM {α β : Type} (n : Nat) (f : α → Except Rejection β) (xs : List α) :
    moved n (xs.mapM f) = xs.mapM fun a => moved n (f a) := by
  induction xs with
  | nil => rfl
  | cons a rest ih => simp only [List.mapM_cons, moved_bind, moved_pure, ih]

theorem moved_resolveOption {α β : Type} (n : Nat) (f : α → Except Rejection β) (a? : Option α) :
    moved n (resolveOption f a?) = resolveOption (fun a => moved n (f a)) a? := by
  cases a? with
  | none => rfl
  | some a => simp only [resolveOption, moved_bind, moved_pure]

theorem moved_descend (n room : Nat) : moved n (descend room) = descend room := by
  cases room <;> rfl

theorem moved_resolveLine (n : Nat) (kind : Kind) (digits : List Char) :
    moved n (resolveLine kind digits) = resolveLine kind digits := by
  unfold resolveLine
  split <;> rfl

theorem resolveOption_map {α β γ : Type} (f : β → Except Rejection γ) (g : α → β)
    (a? : Option α) : resolveOption f (a?.map g) = resolveOption (fun a => f (g a)) a? := by
  cases a? <;> rfl

theorem Mention.letter_recast (m : Mention) : (m.recast r).letter = moved r.shift m.letter := by
  have hcolumn : m.place + r.shift + 1 = m.place + 1 + r.shift := by omega
  simp only [letter, recast, hcolumn]
  split <;> rfl

theorem Phrase.resolveWithin_recast (hr : r.Faithful) (room : Nat) (e : Phrase) :
    (e.recast r).resolveWithin room = moved r.shift (e.resolveWithin room) := by
  induction e generalizing room with
  | numeral digits => exact congrArg (fun x => Except.ok (Expr.num x)) (hr.numeral digits)
  | name mention => rfl
  | element mention index ih =>
      simp only [recast, resolveWithin, moved_bind, moved_descend, ih, mention.letter_recast,
        moved_pure]
  | signed sign operand ih =>
      simp only [recast, resolveWithin, moved_bind, moved_descend, ih, moved_pure]
  | binary op left right ihl ihr =>
      simp only [recast, resolveWithin, moved_bind, moved_descend, ihl, ihr, moved_pure]

theorem Phrase.resolve_recast (hr : r.Faithful) (e : Phrase) :
    (e.recast r).resolve = moved r.shift e.resolve :=
  resolveWithin_recast hr maxNesting e

theorem Clause.resolve_recast (hr : r.Faithful) (c : Clause) :
    (c.recast r).resolve = moved r.shift c.resolve := by
  cases c <;> simp only [recast, resolve, Phrase.resolve_recast hr, moved_bind, moved_pure]

theorem Recipient.resolve_recast (hr : r.Faithful) (left : Recipient) :
    (left.recast r).resolve = moved r.shift left.resolve := by
  cases left with
  | scalar mention => rfl
  | element mention index =>
      simp only [recast, resolve, Phrase.resolve_recast hr, mention.letter_recast, moved_bind,
        moved_pure]

theorem resolveItem_recast (hr : r.Faithful) (item : Mention × Phrase) :
    resolveItem (recastItem r item) = moved r.shift (resolveItem item) := by
  simp only [resolveItem, recastItem, Phrase.resolve_recast hr, Mention.letter_recast, moved_bind,
    moved_pure]

/-- A sentence without quoted text stands for the same when it is recast. -/
theorem Sentence.resolve_recast (hr : r.Faithful) (s : Sentence)
    (hs : ∀ text, s ≠ .printText text) :
    (s.recast r).resolve = moved r.shift s.resolve := by
  cases s with
  | assign left value =>
      simp only [recast, resolve, Recipient.resolve_recast hr, Phrase.resolve_recast hr, moved_bind,
        moved_pure]
  | dim items =>
      simp only [recast, resolve, List.mapM_map, Function.comp_def, resolveItem_recast hr,
        moved_bind, moved_mapM, moved_pure]
  | forTo mention first last step =>
      simp only [recast, resolve, Mention.recast, resolveOption_map, Phrase.resolve_recast hr,
        moved_bind, moved_resolveOption, moved_pure]
  | next mention => cases mention <;> rfl
  | printText text => exact absurd rfl (hs text)
  | print value =>
      simp only [recast, resolve, resolveOption_map, Phrase.resolve_recast hr, moved_bind,
        moved_resolveOption, moved_pure]
  | goto digits => simp only [recast, resolve, moved_bind, moved_resolveLine, moved_pure]
  | ifThen clause digits =>
      simp only [recast, resolve, Clause.resolve_recast hr, moved_bind, moved_resolveOption,
        moved_resolveLine, moved_pure]

end LineBasic
