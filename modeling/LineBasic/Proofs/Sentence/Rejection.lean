/-
  LineBasic.Proofs.Sentence.Rejection

  What a sentence is refused for when it does not resolve: an expression that is too deep, a name
  with a digit that is subscripted or dimensioned, or a line number that cannot be read. Each
  rejection blames a part that is there, and a line number is looked at last.
-/
import LineBasic.Proofs.Sentence.Meaning

namespace LineBasic

/-! ## Parts that are refused -/

theorem bind_eq_error_iff {ε α β : Type} {x : Except ε α} {f : α → Except ε β} {e : ε} :
    x >>= f = .error e ↔ x = .error e ∨ ∃ a, x = .ok a ∧ f a = .error e := by
  cases x with
  | error e' => simp [bind, Except.bind]
  | ok a => simp [bind, Except.bind]

/-- Whenever the computation is refused, the rejection has the property. -/
def RefusedWith {α : Type} (P : Rejection → Prop) (x : Except Rejection α) : Prop :=
  ∀ r, x = .error r → P r

namespace RefusedWith

variable {α β : Type} {P Q : Rejection → Prop} {x : Except Rejection α}

theorem pure (a : α) : RefusedWith P (pure a) := by
  intro r h
  cases h

theorem bind {f : α → Except Rejection β} (hx : RefusedWith P x)
    (hf : ∀ a, x = .ok a → RefusedWith P (f a)) : RefusedWith P (x >>= f) := by
  intro r h
  rcases bind_eq_error_iff.mp h with h | ⟨a, ha, h⟩
  · exact hx r h
  · exact hf a ha r h

theorem imp (hx : RefusedWith P x) (h : ∀ r, P r → Q r) : RefusedWith Q x :=
  fun r hr => h r (hx r hr)

theorem mapM {f : α → Except Rejection β} {xs : List α} (hf : ∀ a ∈ xs, RefusedWith P (f a)) :
    RefusedWith P (xs.mapM f) := by
  induction xs with
  | nil => exact .pure []
  | cons a rest ih =>
      simp only [List.mem_cons, forall_eq_or_imp] at hf
      rw [List.mapM_cons]
      exact .bind hf.1 fun b _ => .bind (ih hf.2) fun bs _ => .pure (b :: bs)

theorem option {f : α → Except Rejection β} {a? : Option α}
    (hf : ∀ a ∈ a?.toList, RefusedWith P (f a)) : RefusedWith P (resolveOption f a?) := by
  cases a? with
  | none => exact .pure none
  | some a => exact .bind (hf a (List.mem_singleton_self a)) fun b _ => .pure (some b)

end RefusedWith

/-! ## What is blamed -/

/-- The rejection of a subscript or a dimension on the name. -/
def Mention.suffixed (m : Mention) : Rejection :=
  .misread ⟨.suffixedArray m.slot, some (m.place + 1)⟩

/-- The rejection is of an expression for which there is too little room, or of an array. -/
inductive Blames (room : Nat) (phrases : List Phrase) (arrays : List Mention) : Rejection → Prop
  | depth {e : Phrase} (he : e ∈ phrases) (hdeep : room < e.depth) :
      Blames room phrases arrays (.misread ⟨.tooDeep, none⟩)
  | array {m : Mention} (hm : m ∈ arrays) (hslot : letterCount ≤ m.slot) :
      Blames room phrases arrays m.suffixed

namespace Blames

variable {room : Nat} {phrases phrases' : List Phrase} {arrays arrays' : List Mention}
  {r : Rejection}

theorem mono (h : Blames room phrases arrays r) (hphrases : phrases ⊆ phrases')
    (harrays : arrays ⊆ arrays') : Blames room phrases' arrays' r := by
  cases h with
  | depth he hdeep => exact .depth (hphrases he) hdeep
  | array hm hslot => exact .array (harrays hm) hslot

/-- A part is blamed with the room that is left for it, the whole with the room there was. -/
theorem whole {part e : Phrase} (h : Blames room [part] part.arrays r)
    (hdepth : part.depth < e.depth) (harrays : part.arrays ⊆ e.arrays) :
    Blames (room + 1) [e] e.arrays r := by
  cases h with
  | depth he hdeep =>
      obtain rfl := List.mem_singleton.mp he
      exact .depth (List.mem_singleton_self e) (by omega)
  | array hm hslot => exact .array (harrays hm) hslot

theorem letter {m : Mention} (hm : m ∈ arrays) :
    RefusedWith (Blames room phrases arrays) m.letter := by
  intro r h
  unfold Mention.letter at h
  split at h
  · simp at h
  · rename_i hslot
    obtain rfl := Except.error.inj h
    exact .array hm (Nat.not_lt.mp hslot)

theorem descend {e : Phrase} (he : 0 < e.depth) :
    RefusedWith (Blames room [e] e.arrays) (descend room) := by
  intro r h
  cases room with
  | zero =>
      obtain rfl := Except.error.inj h
      exact .depth (List.mem_singleton_self e) he
  | succ room => simp [LineBasic.descend] at h

theorem resolveWithin (room : Nat) (e : Phrase) :
    RefusedWith (Blames room [e] e.arrays) (e.resolveWithin room) := by
  -- Over the expression; each level below has one less room.
  induction e generalizing room with
  | numeral digits => exact .pure _
  | name mention => exact .pure _
  | element mention index ih =>
      refine .bind (descend (by simp [Phrase.depth])) fun below hbelow => ?_
      obtain rfl := descend_eq_ok_iff.mp hbelow
      have hindex := (ih below).imp fun r h =>
        h.whole (e := .element mention index) (by simp [Phrase.depth]) (by simp [Phrase.arrays])
      exact .bind hindex fun _ _ => .bind (letter (by simp [Phrase.arrays])) fun _ _ => .pure _
  | signed sign operand ih =>
      refine .bind (descend (by simp [Phrase.depth])) fun below hbelow => ?_
      obtain rfl := descend_eq_ok_iff.mp hbelow
      have hoperand := (ih below).imp fun r h =>
        h.whole (e := .signed sign operand) (by simp [Phrase.depth]) (by simp [Phrase.arrays])
      exact .bind hoperand fun _ _ => .pure _
  | binary op left right ihl ihr =>
      refine .bind (descend (by simp [Phrase.depth])) fun below hbelow => ?_
      obtain rfl := descend_eq_ok_iff.mp hbelow
      have hleft := (ihl below).imp fun r h =>
        h.whole (e := .binary op left right) (by simp only [Phrase.depth]; omega)
          (by simp [Phrase.arrays])
      have hright := (ihr below).imp fun r h =>
        h.whole (e := .binary op left right) (by simp only [Phrase.depth]; omega)
          (by simp [Phrase.arrays])
      exact .bind hleft fun _ _ => .bind hright fun _ _ => .pure _

/-- An expression of several is refused as one of them. -/
theorem phrase {e : Phrase} (he : e ∈ phrases) (harrays : e.arrays ⊆ arrays) :
    RefusedWith (Blames maxNesting phrases arrays) e.resolve :=
  (resolveWithin maxNesting e).imp fun _ h => h.mono (by simpa using he) harrays

theorem clause {c : Clause} (hphrases : c.phrases ⊆ phrases)
    (harrays : ∀ e ∈ c.phrases, e.arrays ⊆ arrays) :
    RefusedWith (Blames maxNesting phrases arrays) c.resolve := by
  cases c with
  | nonzero operand =>
      simp only [Clause.phrases, List.cons_subset, List.mem_singleton, forall_eq]
        at hphrases harrays
      exact .bind (phrase hphrases.1 harrays) fun _ _ => .pure _
  | compare relation left right =>
      simp only [Clause.phrases, List.cons_subset, List.mem_cons, List.not_mem_nil, or_false,
        forall_eq_or_imp, forall_eq] at hphrases harrays
      exact .bind (phrase hphrases.1 harrays.1) fun _ _ =>
        .bind (phrase hphrases.2.1 harrays.2) fun _ _ => .pure _

theorem recipient {target : Recipient} (hphrases : target.phrases ⊆ phrases)
    (hown : target.arrays ⊆ arrays) (harrays : ∀ e ∈ target.phrases, e.arrays ⊆ arrays) :
    RefusedWith (Blames maxNesting phrases arrays) target.resolve := by
  cases target with
  | scalar mention => exact .pure _
  | element mention index =>
      simp only [Recipient.phrases, Recipient.arrays, List.cons_subset, List.mem_singleton,
        forall_eq] at hphrases hown harrays
      exact .bind (phrase hphrases.1 harrays) fun _ _ => .bind (letter hown.1) fun _ _ => .pure _

end Blames

/-! ## Sentences -/

/-- The arrays of each expression of a sentence are arrays of the sentence. -/
theorem Sentence.phrase_arrays_subset {s : Sentence} {e : Phrase} (he : e ∈ s.phrases) :
    e.arrays ⊆ s.arrays := by
  intro m hm
  simp only [arrays, List.mem_append, List.mem_flatMap]
  exact Or.inr ⟨e, he, hm⟩

theorem Sentence.ownArrays_subset (s : Sentence) : s.ownArrays ⊆ s.arrays :=
  List.subset_append_left _ _

/-- The rejection is of a line number that cannot be read. -/
def BlamesLine (lineNumbers : List (List Char)) (r : Rejection) : Prop :=
  ∃ kind flaw, r = .target kind flaw ∧ ∃ digits ∈ lineNumbers, Text.readNatural digits = .error flaw

theorem BlamesLine.resolveLine {lineNumbers : List (List Char)} {digits : List Char} (kind : Kind)
    (hdigits : digits ∈ lineNumbers) :
    RefusedWith (BlamesLine lineNumbers) (resolveLine kind digits) := by
  intro r h
  unfold LineBasic.resolveLine at h
  split at h
  · simp at h
  · rename_i flaw hread
    exact ⟨kind, flaw, (Except.error.inj h).symm, digits, hdigits, hread⟩

/-- A sentence that does not resolve is refused for an expression that is too deep or for a name
    with a digit that is an array; or else there is none of either, and a line number cannot be
    read. -/
theorem Sentence.refused_resolve (s : Sentence) :
    RefusedWith (fun r => Blames maxNesting s.phrases s.arrays r ∨
      (∀ m ∈ s.arrays, m.slot < letterCount) ∧ BlamesLine s.lineNumbers r) s.resolve := by
  have hparts : ∀ {α : Type} {x : Except Rejection α},
      RefusedWith (Blames maxNesting s.phrases s.arrays) x →
        RefusedWith (fun r => Blames maxNesting s.phrases s.arrays r ∨
          (∀ m ∈ s.arrays, m.slot < letterCount) ∧ BlamesLine s.lineNumbers r) x :=
    fun h => h.imp fun _ => Or.inl
  have hphrase : ∀ e ∈ s.phrases, RefusedWith (Blames maxNesting s.phrases s.arrays) e.resolve :=
    fun e he => .phrase he (phrase_arrays_subset he)
  cases s with
  | assign target value =>
      have htarget : target.phrases ⊆ (Sentence.assign target value).phrases := by simp [phrases]
      have hown : target.arrays ⊆ (Sentence.assign target value).arrays :=
        ownArrays_subset (Sentence.assign target value)
      exact hparts (.bind (.recipient htarget hown fun e he => phrase_arrays_subset (htarget he))
        fun _ _ => .bind (hphrase value (by simp [phrases])) fun _ _ => .pure _)
  | dim items =>
      refine hparts (.bind (.mapM fun item hitem => ?_) fun _ _ => .pure _)
      have hbound : item.2 ∈ (Sentence.dim items).phrases := List.mem_map_of_mem hitem
      have hletter : item.1 ∈ (Sentence.dim items).arrays :=
        ownArrays_subset _ (List.mem_map_of_mem hitem)
      exact .bind (hphrase _ hbound) fun _ _ => .bind (.letter hletter) fun _ _ => .pure _
  | forTo mention start limit step =>
      refine hparts (.bind (hphrase start (by simp [phrases])) fun _ _ =>
        .bind (hphrase limit (by simp [phrases])) fun _ _ => .bind (.option fun e he => ?_)
          fun _ _ => .pure _)
      exact hphrase e (by simp only [phrases, List.mem_cons]; exact Or.inr (Or.inr he))
  | next mention => exact .pure _
  | printText text => exact .pure _
  | print value => exact hparts (.bind (.option hphrase) fun _ _ => .pure _)
  | goto digits =>
      have hline := BlamesLine.resolveLine .GOTO (List.mem_singleton_self digits)
      exact .bind (hline.imp fun r h => Or.inr ⟨by simp [arrays, ownArrays, phrases], h⟩)
        fun _ _ => .pure _
  | ifThen clause digits =>
      refine .bind (hparts (.clause (List.Subset.refl _) fun e he => phrase_arrays_subset he))
        fun cond hcond => .bind (.option fun line hline => ?_) fun _ _ => .pure _
      -- The line number is only looked at when the condition has been resolved.
      have hbare : ∀ m ∈ (Sentence.ifThen clause digits).arrays, m.slot < letterCount := by
        obtain ⟨hresolvable, -⟩ := Clause.resolve_eq_ok_iff.mp hcond
        simp only [arrays, ownArrays, phrases, List.nil_append, List.mem_flatMap]
        rintro m ⟨e, he, hm⟩
        exact (hresolvable e he).2 m hm
      exact (BlamesLine.resolveLine .IF hline).imp fun r h => Or.inr ⟨hbare, h⟩

/-- A sentence that does not resolve is reported for its depth or for an array, if not for a line
    number. -/
theorem Sentence.cause_of_resolve (s : Sentence) {cause : Misreading} {column : Option Nat}
    (h : s.resolve = .error (.misread ⟨cause, column⟩)) :
    cause = .tooDeep ∨ ∃ slot, cause = .suffixedArray slot := by
  rcases s.refused_resolve _ h with hblames | ⟨-, kind, flaw, htarget, -⟩
  · generalize hr : Rejection.misread ⟨cause, column⟩ = r at hblames
    cases hblames with
    | depth he hdeep =>
        obtain ⟨rfl, -⟩ := Misread.mk.inj (Rejection.misread.inj hr)
        exact Or.inl rfl
    | @array m hm hslot =>
        obtain ⟨rfl, -⟩ := Misread.mk.inj (Rejection.misread.inj hr)
        exact Or.inr ⟨m.slot, rfl⟩
  · cases htarget

end LineBasic
