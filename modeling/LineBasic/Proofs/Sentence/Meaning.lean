/-
  LineBasic.Proofs.Sentence.Meaning

  What a sentence stands for, apart from what makes it refused. The meaning of a sentence is a
  statement, always; whether the sentence resolves is for three conditions to say, on its names, on
  the depth of its expressions and on its line numbers. `Sentence.resolve_eq_ok_iff` says that
  resolving is these two together.
-/
import LineBasic.Sentence.Resolve
import Mathlib.Data.List.TakeWhile

namespace LineBasic

/-! ## Expressions -/

namespace Phrase

/-- How many levels an expression has below it. -/
def depth : Phrase → Nat
  | .numeral _ => 0
  | .name _ => 0
  | .element _ index => index.depth + 1
  | .signed _ operand => operand.depth + 1
  | .binary _ left right => max left.depth right.depth + 1

/-- The names that are subscripted. -/
def arrays : Phrase → List Mention
  | .numeral _ => []
  | .name _ => []
  | .element mention index => mention :: index.arrays
  | .signed _ operand => operand.arrays
  | .binary _ left right => left.arrays ++ right.arrays

/-- The expression that is written. -/
def meaning : Phrase → Expr
  | .numeral digits => .num (Number.numeralValue digits)
  | .name mention => .var mention.slot
  | .element mention index => .element mention.slot index.meaning
  | .signed sign operand => .signed sign operand.meaning
  | .binary op left right => .binary op left.meaning right.meaning

/-- The depth is allowed, and only bare letters are subscripted. -/
def Resolvable (e : Phrase) : Prop :=
  e.depth ≤ maxNesting ∧ ∀ m ∈ e.arrays, m.slot < letterCount

end Phrase

/-! ## Sentences -/

/-- A word of decimal digits that is short enough to be read as a number. -/
def Text.Readable (word : List Char) : Prop :=
  (∀ c ∈ word, isDecimal c = true) ∧ word.length ≤ maxDigits

namespace Clause

/-- The expressions that a condition compares. -/
def phrases : Clause → List Phrase
  | .nonzero operand => [operand]
  | .compare _ left right => [left, right]

def meaning : Clause → Cond
  | .nonzero operand => .nonzero operand.meaning
  | .compare relation left right => .compare relation left.meaning right.meaning

end Clause

namespace Recipient

def phrases : Recipient → List Phrase
  | .scalar _ => []
  | .element _ index => [index]

/-- The array that is assigned to. -/
def arrays : Recipient → List Mention
  | .scalar _ => []
  | .element mention _ => [mention]

def meaning : Recipient → Target
  | .scalar mention => .scalar mention.slot
  | .element mention index => .element mention.slot index.meaning

end Recipient

namespace Sentence

/-- The outermost expressions of a sentence. -/
def phrases : Sentence → List Phrase
  | .assign recipient value => recipient.phrases ++ [value]
  | .dim items => items.map (·.2)
  | .forTo _ start limit step => start :: limit :: step.toList
  | .next _ => []
  | .printText _ => []
  | .print value => value.toList
  | .goto _ => []
  | .ifThen clause _ => clause.phrases

/-- The names that the statement itself subscripts or dimensions. -/
def ownArrays : Sentence → List Mention
  | .assign recipient _ => recipient.arrays
  | .dim items => items.map (·.1)
  | _ => []

/-- The names that are subscripted or dimensioned anywhere in the sentence. -/
def arrays (s : Sentence) : List Mention :=
  s.ownArrays ++ s.phrases.flatMap Phrase.arrays

/-- The line numbers, as written. -/
def lineNumbers : Sentence → List (List Char)
  | .goto digits => [digits]
  | .ifThen _ digits => digits.toList
  | _ => []

/-- The statement that is written. -/
def meaning : Sentence → Stmt
  | .assign recipient value => .assign recipient.meaning value.meaning
  | .dim items => .dim (items.map fun item => (item.1.slot, item.2.meaning))
  | .forTo mention start limit step =>
    .forTo mention.slot start.meaning limit.meaning (step.map Phrase.meaning)
  | .next mention => .next (mention.map (·.slot))
  | .printText text => .printText (String.ofList text)
  | .print value => .print (value.map Phrase.meaning)
  | .goto digits => .goto (Text.decimalValue digits)
  | .ifThen clause digits =>
    .ifThen clause.meaning (digits.map fun ds => (Text.decimalValue ds : Int))

/-- What a sentence must have to be a statement. -/
structure Resolvable (s : Sentence) : Prop where
  /-- Only bare letters are subscripted or dimensioned. -/
  bare : ∀ m ∈ s.arrays, m.slot < letterCount
  /-- No expression is too deep. -/
  shallow : ∀ e ∈ s.phrases, e.depth ≤ maxNesting
  /-- Every line number is a number, and short enough to be read. -/
  readable : ∀ digits ∈ s.lineNumbers, Text.Readable digits

end Sentence

/-! ## Parts that may be refused -/

section Except

variable {ε α β : Type}

/-- A computation succeeds when its two parts do, one after the other. -/
theorem bind_eq_ok_iff {x : Except ε α} {f : α → Except ε β} {b : β} :
    x >>= f = .ok b ↔ ∃ a, x = .ok a ∧ f a = .ok b := by
  cases x with
  | error e => simp [bind, Except.bind]
  | ok a => simp [bind, Except.bind]

theorem pure_eq_ok_iff {a b : α} : (pure a : Except ε α) = .ok b ↔ a = b :=
  Except.ok.injEq a b ▸ Iff.rfl

/-- When each element succeeds under a condition with a known value, so do all of them. -/
theorem mapM_eq_ok_iff {f : α → Except ε β} {p : α → Prop} {g : α → β}
    (hf : ∀ a b, f a = .ok b ↔ p a ∧ g a = b) {xs : List α} {ys : List β} :
    xs.mapM f = .ok ys ↔ (∀ a ∈ xs, p a) ∧ xs.map g = ys := by
  induction xs generalizing ys with
  | nil => simp [pure_eq_ok_iff]
  | cons a rest ih =>
      simp only [List.mapM_cons, bind_eq_ok_iff, pure_eq_ok_iff, hf, ih, List.mem_cons,
        forall_eq_or_imp, List.map_cons]
      refine ⟨?_, ?_⟩
      · rintro ⟨_, ⟨ha, rfl⟩, _, ⟨hrest, rfl⟩, rfl⟩
        exact ⟨⟨ha, hrest⟩, rfl⟩
      · rintro ⟨⟨ha, hrest⟩, rfl⟩
        exact ⟨_, ⟨ha, rfl⟩, _, ⟨hrest, rfl⟩, rfl⟩

end Except

theorem resolveOption_eq_ok_iff {α β : Type} {f : α → Except Rejection β} {p : α → Prop} {g : α → β}
    (hf : ∀ a b, f a = .ok b ↔ p a ∧ g a = b) {x : Option α} {y : Option β} :
    resolveOption f x = .ok y ↔ (∀ a ∈ x.toList, p a) ∧ x.map g = y := by
  cases x with
  | none => simp [resolveOption]
  | some a =>
      simp only [resolveOption, bind_eq_ok_iff, pure_eq_ok_iff, hf, Option.toList_some,
        List.mem_singleton, forall_eq, Option.map_some]
      refine ⟨?_, ?_⟩
      · rintro ⟨_, ⟨ha, rfl⟩, rfl⟩
        exact ⟨ha, rfl⟩
      · rintro ⟨ha, rfl⟩
        exact ⟨_, ⟨ha, rfl⟩, rfl⟩

theorem Mention.letter_eq_ok_iff {m : Mention} {letter : Nat} :
    m.letter = .ok letter ↔ m.slot < letterCount ∧ m.slot = letter := by
  unfold Mention.letter
  split
  · rename_i hlt
    simp [hlt]
  · rename_i hge
    simp [hge]

theorem descend_eq_ok_iff {room below : Nat} : descend room = .ok below ↔ room = below + 1 := by
  cases room with
  | zero => simp [descend]
  | succ n => simp [descend]

namespace Text

/-- A word that is not too long, of decimal digits, is read. -/
theorem readNatural_of_readable {word : List Char} (h : Readable word) :
    readNatural word = .ok (decimalValue word) := by
  unfold readNatural
  rw [List.takeWhile_eq_self_iff.mpr h.1]
  simp [Nat.not_lt.mpr h.2]

/-- No other word is. -/
theorem readable_of_readNatural {word : List Char} {n : Nat} (h : readNatural word = .ok n) :
    Readable word := by
  simp only [readNatural] at h
  split at h
  · simp at h
  · rename_i hlen
    split at h
    · simp at h
    · rename_i hword
      have hall : word.takeWhile isDecimal = word :=
        (List.takeWhile_prefix isDecimal).eq_of_length_le (Nat.not_lt.mp hword)
      rw [hall] at hlen
      exact ⟨List.takeWhile_eq_self_iff.mp hall, Nat.not_lt.mp hlen⟩

theorem readNatural_eq_ok_iff {word : List Char} {n : Nat} :
    readNatural word = .ok n ↔ Readable word ∧ decimalValue word = n := by
  refine ⟨?_, ?_⟩
  · intro h
    have hword := readable_of_readNatural h
    rw [readNatural_of_readable hword] at h
    exact ⟨hword, Except.ok.inj h⟩
  · rintro ⟨hword, rfl⟩
    exact readNatural_of_readable hword

end Text

theorem resolveLine_eq_ok_iff {kind : Kind} {digits : List Char} {n : Int} :
    resolveLine kind digits = .ok n ↔
      Text.Readable digits ∧ (Text.decimalValue digits : Int) = n := by
  unfold resolveLine
  refine ⟨?_, ?_⟩
  · intro h
    split at h
    · rename_i m hm
      obtain ⟨hdigits, rfl⟩ := Text.readNatural_eq_ok_iff.mp hm
      exact ⟨hdigits, Except.ok.inj h⟩
    · simp at h
  · rintro ⟨hdigits, rfl⟩
    rw [Text.readNatural_of_readable hdigits]

/-! ## Resolving -/

/-- An expression resolves when there is room for its depth and its arrays are bare letters. -/
theorem Phrase.resolveWithin_eq_ok_iff {room : Nat} {e : Phrase} {x : Expr} :
    e.resolveWithin room = .ok x ↔
      (e.depth ≤ room ∧ ∀ m ∈ e.arrays, m.slot < letterCount) ∧ e.meaning = x := by
  -- Over the expression; each level below has one less room.
  induction e generalizing room x with
  | numeral digits => simp [resolveWithin, depth, arrays, meaning]
  | name mention => simp [resolveWithin, depth, arrays, meaning]
  | element mention index ih =>
      simp only [resolveWithin, bind_eq_ok_iff, pure_eq_ok_iff, descend_eq_ok_iff, ih,
        Mention.letter_eq_ok_iff, depth, arrays, meaning, List.mem_cons, forall_eq_or_imp]
      refine ⟨?_, ?_⟩
      · rintro ⟨below, rfl, _, ⟨⟨hdepth, hindex⟩, rfl⟩, _, ⟨hbare, rfl⟩, rfl⟩
        exact ⟨⟨by omega, hbare, hindex⟩, rfl⟩
      · rintro ⟨⟨hdepth, hbare, hindex⟩, rfl⟩
        obtain ⟨below, rfl⟩ := Nat.exists_eq_add_of_lt hdepth
        exact ⟨_, rfl, _, ⟨⟨by omega, hindex⟩, rfl⟩, _, ⟨hbare, rfl⟩, rfl⟩
  | signed sign operand ih =>
      simp only [resolveWithin, bind_eq_ok_iff, pure_eq_ok_iff, descend_eq_ok_iff, ih, depth,
        arrays, meaning]
      refine ⟨?_, ?_⟩
      · rintro ⟨below, rfl, _, ⟨⟨hdepth, hoperand⟩, rfl⟩, rfl⟩
        exact ⟨⟨by omega, hoperand⟩, rfl⟩
      · rintro ⟨⟨hdepth, hoperand⟩, rfl⟩
        obtain ⟨below, rfl⟩ := Nat.exists_eq_add_of_lt hdepth
        exact ⟨_, rfl, _, ⟨⟨by omega, hoperand⟩, rfl⟩, rfl⟩
  | binary op left right ihl ihr =>
      simp only [resolveWithin, bind_eq_ok_iff, pure_eq_ok_iff, descend_eq_ok_iff, ihl, ihr, depth,
        arrays, meaning, List.mem_append, or_imp, forall_and]
      refine ⟨?_, ?_⟩
      · rintro ⟨below, rfl, _, ⟨⟨hdl, hl⟩, rfl⟩, _, ⟨⟨hdr, hr⟩, rfl⟩, rfl⟩
        exact ⟨⟨by omega, hl, hr⟩, rfl⟩
      · rintro ⟨⟨hdepth, hl, hr⟩, rfl⟩
        obtain ⟨below, rfl⟩ := Nat.exists_eq_add_of_lt hdepth
        exact ⟨_, rfl, _, ⟨⟨by omega, hl⟩, rfl⟩, _, ⟨⟨by omega, hr⟩, rfl⟩, rfl⟩

theorem Phrase.resolve_eq_ok_iff {e : Phrase} {x : Expr} :
    e.resolve = .ok x ↔ e.Resolvable ∧ e.meaning = x :=
  resolveWithin_eq_ok_iff

theorem Clause.resolve_eq_ok_iff {clause : Clause} {x : Cond} :
    clause.resolve = .ok x ↔ (∀ e ∈ clause.phrases, e.Resolvable) ∧ clause.meaning = x := by
  cases clause with
  | nonzero operand =>
      simp only [resolve, phrases, meaning, bind_eq_ok_iff, pure_eq_ok_iff,
        Phrase.resolve_eq_ok_iff, List.mem_singleton, forall_eq]
      refine ⟨?_, ?_⟩
      · rintro ⟨_, ⟨hoperand, rfl⟩, rfl⟩
        exact ⟨hoperand, rfl⟩
      · rintro ⟨hoperand, rfl⟩
        exact ⟨_, ⟨hoperand, rfl⟩, rfl⟩
  | compare relation left right =>
      simp only [resolve, phrases, meaning, bind_eq_ok_iff, pure_eq_ok_iff,
        Phrase.resolve_eq_ok_iff, List.mem_cons, forall_eq_or_imp, List.not_mem_nil, false_imp_iff,
        implies_true]
      refine ⟨?_, ?_⟩
      · rintro ⟨_, ⟨hleft, rfl⟩, _, ⟨hright, rfl⟩, rfl⟩
        exact ⟨⟨hleft, hright, trivial⟩, rfl⟩
      · rintro ⟨⟨hleft, hright, -⟩, rfl⟩
        exact ⟨_, ⟨hleft, rfl⟩, _, ⟨hright, rfl⟩, rfl⟩

theorem Recipient.resolve_eq_ok_iff {recipient : Recipient} {x : Target} :
    recipient.resolve = .ok x ↔
      ((∀ m ∈ recipient.arrays, m.slot < letterCount) ∧ ∀ e ∈ recipient.phrases, e.Resolvable) ∧
        recipient.meaning = x := by
  cases recipient with
  | scalar mention => simp [resolve, phrases, arrays, meaning]
  | element mention index =>
      simp only [resolve, phrases, arrays, meaning, bind_eq_ok_iff, pure_eq_ok_iff,
        Phrase.resolve_eq_ok_iff, Mention.letter_eq_ok_iff, List.mem_singleton, forall_eq]
      refine ⟨?_, ?_⟩
      · rintro ⟨_, ⟨hindex, rfl⟩, _, ⟨hbare, rfl⟩, rfl⟩
        exact ⟨⟨hbare, hindex⟩, rfl⟩
      · rintro ⟨⟨hbare, hindex⟩, rfl⟩
        exact ⟨_, ⟨hindex, rfl⟩, _, ⟨hbare, rfl⟩, rfl⟩

theorem resolveItem_eq_ok_iff (item : Mention × Phrase) (x : Nat × Expr) :
    resolveItem item = .ok x ↔
      (item.1.slot < letterCount ∧ item.2.Resolvable) ∧ (item.1.slot, item.2.meaning) = x := by
  simp only [resolveItem, bind_eq_ok_iff, pure_eq_ok_iff, Phrase.resolve_eq_ok_iff,
    Mention.letter_eq_ok_iff]
  refine ⟨?_, ?_⟩
  · rintro ⟨_, ⟨hbound, rfl⟩, _, ⟨hbare, rfl⟩, rfl⟩
    exact ⟨⟨hbare, hbound⟩, rfl⟩
  · rintro ⟨⟨hbare, hbound⟩, rfl⟩
    exact ⟨_, ⟨hbound, rfl⟩, _, ⟨hbare, rfl⟩, rfl⟩

/-- The conditions on a sentence, gathered part by part as resolving meets them. -/
theorem Sentence.resolvable_iff {s : Sentence} :
    s.Resolvable ↔
      (∀ m ∈ s.ownArrays, m.slot < letterCount) ∧ (∀ e ∈ s.phrases, e.Resolvable) ∧
        ∀ digits ∈ s.lineNumbers, Text.Readable digits := by
  refine ⟨?_, ?_⟩
  · rintro ⟨hbare, hshallow, hreadable⟩
    simp only [arrays, List.mem_append, List.mem_flatMap] at hbare
    refine ⟨fun m hm => hbare m (Or.inl hm), fun e he => ?_, hreadable⟩
    exact ⟨hshallow e he, fun m hm => hbare m (Or.inr ⟨e, he, hm⟩)⟩
  · rintro ⟨hown, hphrases, hreadable⟩
    refine ⟨fun m hm => ?_, fun e he => (hphrases e he).1, hreadable⟩
    simp only [arrays, List.mem_append, List.mem_flatMap] at hm
    rcases hm with hm | ⟨e, he, hm⟩
    · exact hown m hm
    · exact (hphrases e he).2 m hm

/-- A sentence resolves exactly when it meets the conditions, and then to its meaning. -/
theorem Sentence.resolve_eq_ok_iff {s : Sentence} {stmt : Stmt} :
    s.resolve = .ok stmt ↔ s.Resolvable ∧ s.meaning = stmt := by
  rw [resolvable_iff]
  cases s with
  | assign recipient value =>
      simp only [resolve, bind_eq_ok_iff, pure_eq_ok_iff, Recipient.resolve_eq_ok_iff,
        Phrase.resolve_eq_ok_iff, ownArrays, phrases, lineNumbers, meaning, List.mem_append,
        List.mem_singleton, or_imp, forall_and, forall_eq, List.not_mem_nil, false_imp_iff,
        implies_true]
      refine ⟨?_, ?_⟩
      · rintro ⟨_, ⟨⟨hbare, hindex⟩, rfl⟩, _, ⟨hvalue, rfl⟩, rfl⟩
        exact ⟨⟨hbare, ⟨hindex, hvalue⟩, trivial⟩, rfl⟩
      · rintro ⟨⟨hbare, ⟨hindex, hvalue⟩, -⟩, rfl⟩
        exact ⟨_, ⟨⟨hbare, hindex⟩, rfl⟩, _, ⟨hvalue, rfl⟩, rfl⟩
  | dim items =>
      simp only [resolve, bind_eq_ok_iff, pure_eq_ok_iff, mapM_eq_ok_iff resolveItem_eq_ok_iff,
        ownArrays, phrases, lineNumbers, meaning, List.forall_mem_map, List.not_mem_nil,
        false_imp_iff, implies_true]
      refine ⟨?_, ?_⟩
      · rintro ⟨_, ⟨hitems, rfl⟩, rfl⟩
        exact ⟨⟨fun i hi => (hitems i hi).1, fun i hi => (hitems i hi).2, trivial⟩, rfl⟩
      · rintro ⟨⟨hbare, hbound, -⟩, rfl⟩
        exact ⟨_, ⟨fun i hi => ⟨hbare i hi, hbound i hi⟩, rfl⟩, rfl⟩
  | forTo mention start limit step =>
      simp only [resolve, bind_eq_ok_iff, pure_eq_ok_iff, Phrase.resolve_eq_ok_iff,
        resolveOption_eq_ok_iff fun _ _ => Phrase.resolve_eq_ok_iff, ownArrays, phrases,
        lineNumbers, meaning, List.mem_cons, forall_eq_or_imp, List.not_mem_nil, false_imp_iff,
        implies_true]
      refine ⟨?_, ?_⟩
      · rintro ⟨_, ⟨hstart, rfl⟩, _, ⟨hlimit, rfl⟩, _, ⟨hstep, rfl⟩, rfl⟩
        exact ⟨⟨trivial, ⟨hstart, hlimit, hstep⟩, trivial⟩, rfl⟩
      · rintro ⟨⟨-, ⟨hstart, hlimit, hstep⟩, -⟩, rfl⟩
        exact ⟨_, ⟨hstart, rfl⟩, _, ⟨hlimit, rfl⟩, _, ⟨hstep, rfl⟩, rfl⟩
  | next mention => simp [resolve, ownArrays, phrases, lineNumbers, meaning]
  | printText text => simp [resolve, ownArrays, phrases, lineNumbers, meaning]
  | print value =>
      simp only [resolve, bind_eq_ok_iff, pure_eq_ok_iff,
        resolveOption_eq_ok_iff fun _ _ => Phrase.resolve_eq_ok_iff, ownArrays, phrases,
        lineNumbers, meaning, List.not_mem_nil, false_imp_iff, implies_true]
      refine ⟨?_, ?_⟩
      · rintro ⟨_, ⟨hvalue, rfl⟩, rfl⟩
        exact ⟨⟨trivial, hvalue, trivial⟩, rfl⟩
      · rintro ⟨⟨-, hvalue, -⟩, rfl⟩
        exact ⟨_, ⟨hvalue, rfl⟩, rfl⟩
  | goto digits =>
      simp only [resolve, bind_eq_ok_iff, pure_eq_ok_iff, resolveLine_eq_ok_iff, ownArrays, phrases,
        lineNumbers, meaning, List.mem_singleton, forall_eq, List.not_mem_nil, false_imp_iff,
        implies_true]
      refine ⟨?_, ?_⟩
      · rintro ⟨_, ⟨hdigits, rfl⟩, rfl⟩
        exact ⟨⟨trivial, trivial, hdigits⟩, rfl⟩
      · rintro ⟨⟨-, -, hdigits⟩, rfl⟩
        exact ⟨_, ⟨hdigits, rfl⟩, rfl⟩
  | ifThen clause digits =>
      simp only [resolve, bind_eq_ok_iff, pure_eq_ok_iff, Clause.resolve_eq_ok_iff,
        resolveOption_eq_ok_iff fun _ _ => resolveLine_eq_ok_iff, ownArrays, phrases, lineNumbers,
        meaning, List.not_mem_nil, false_imp_iff, implies_true]
      refine ⟨?_, ?_⟩
      · rintro ⟨_, ⟨hclause, rfl⟩, _, ⟨hdigits, rfl⟩, rfl⟩
        exact ⟨⟨trivial, hclause, hdigits⟩, rfl⟩
      · rintro ⟨⟨-, hclause, hdigits⟩, rfl⟩
        exact ⟨_, ⟨hclause, rfl⟩, _, ⟨hdigits, rfl⟩, rfl⟩

end LineBasic
