/-
  LineBasic.Proofs.Reader.Reading

  From texts to lexemes and back. A text that is read is cut into lexemes that the reader runs over
  (`spells_of_read`); and however a text can be cut into lexemes that the reader runs over, reading
  the text cuts it in that very way (`read_of_spells`). The second holds because what may follow a
  token never starts with a character that the token could have taken as well: no name is followed
  by a digit, no numeral by a digit, a point or an `e`, no relation by another.

  Together with the two theorems on runs this gives the main result: reading a text yields a
  sentence exactly when the grammar derives the sentence from some cut of the text.
-/
import LineBasic.Proofs.Reader.Completion
import LineBasic.Proofs.Reader.Viable

namespace LineBasic.Grammar

/-! ## How lexemes begin -/

/-- The characters with which an operator, a bracket, a comma or a word inside a sentence begins. -/
def operatorHeads : List Char :=
  ['<', '>', '=', '+', '-', '*', '/', '(', ')', ',', 'T', 't', 'S', 's', 'ſ']

/-- None of them is a gap, or could go on a name or a numeral. -/
theorem operatorHeads_stop {c : Char} (hc : c ∈ operatorHeads) :
    isGap c = false ∧ c.isDigit = false ∧ Text.isDecimal c = false ∧ c ≠ '.' ∧ c ≠ 'e' ∧
      c ≠ 'E' := by
  have hall : operatorHeads.all (fun c => !isGap c && !c.isDigit && !Text.isDecimal c &&
      c != '.' && c != 'e' && c != 'E') = true := by
    decide
  have hstop := List.all_eq_true.mp hall c hc
  simp only [Bool.and_eq_true, Bool.not_eq_true', bne_iff_ne] at hstop
  obtain ⟨⟨⟨⟨⟨hgap, hdigit⟩, hdecimal⟩, hpoint⟩, hlower⟩, hupper⟩ := hstop
  exact ⟨hgap, hdigit, hdecimal, hpoint, hlower, hupper⟩

theorem isGap_iff {c : Char} : isGap c = true ↔ c = ' ' ∨ c = '\t' := by
  simp only [isGap, Bool.or_eq_true, beq_iff_eq]

theorem isGap_of_isDecimal {c : Char} (hc : Text.isDecimal c = true) : isGap c = false := by
  by_contra h
  rcases isGap_iff.mp (by simpa using h) with rfl | rfl <;> exact absurd hc (by decide)

theorem isGap_of_isKeywordLetter {letter c : Char} (hc : isKeywordLetter letter c = true)
    (hletter : isKeywordLetter letter ' ' = false ∧ isKeywordLetter letter '\t' = false) :
    isGap c = false := by
  by_contra h
  rcases isGap_iff.mp (by simpa using h) with rfl | rfl
  · exact absurd hc (by simp [hletter.1])
  · exact absurd hc (by simp [hletter.2])

section Heads

variable {x : Lexeme} {t : Token} (hx : x.Matches)
include hx

theorem head_of_operator (ht : x.ReadAs .operator t) :
    ∃ c more, x.chars = c :: more ∧ c ∈ operatorHeads := by
  cases ht with
  | @operator op hsymbol =>
      rw [chars_of_symbol hx hsymbol]
      cases op <;> exact ⟨_, _, rfl, by decide⟩
  | @relation relation hsymbol =>
      rw [chars_of_symbol hx hsymbol]
      cases relation <;> exact ⟨_, _, rfl, by decide⟩
  | joint hletters hword =>
      have hforall := chars_of_word hx hword
      rw [hletters] at hforall
      obtain ⟨c, more, hmore, hc⟩ := joint_head hforall
      exact ⟨c, more, hmore, by simp only [operatorHeads, List.mem_cons] at hc ⊢; tauto⟩
  | openOperator hsymbol => exact ⟨'(', [], chars_of_symbol hx hsymbol, by decide⟩
  | close hsymbol => exact ⟨')', [], chars_of_symbol hx hsymbol, by decide⟩
  | comma hsymbol => exact ⟨',', [], chars_of_symbol hx hsymbol, by decide⟩

theorem head_of_binding (ht : x.ReadAs .binding t) :
    ∃ c more, x.chars = c :: more ∧ c ∈ operatorHeads := by
  cases ht with
  | becomes hsymbol => exact ⟨'=', [], chars_of_symbol hx hsymbol, by decide⟩
  | openBinding hsymbol => exact ⟨'(', [], chars_of_symbol hx hsymbol, by decide⟩

theorem head_of_operand (ht : x.ReadAs .operand t) :
    ∃ c more, x.chars = c :: more ∧ isGap c = false ∧ c ≠ '=' ∧ c ≠ '>' := by
  cases ht with
  | name hname =>
      rw [Lexeme.Matches, hname] at hx
      obtain ⟨c, hc, hshape⟩ := mem_namePattern.mp hx
      have hc' : isGap c = false ∧ c ≠ '=' ∧ c ≠ '>' := by
        refine ⟨?_, ?_, ?_⟩
        · by_contra h
          rcases isGap_iff.mp (by simpa using h) with rfl | rfl <;> simp at hc
        · rintro rfl
          simp at hc
        · rintro rfl
          simp at hc
      rcases hshape with h | ⟨d, -, h⟩
      · exact ⟨c, [], h, hc'⟩
      · exact ⟨c, [d], h, hc'⟩
  | numeral hnumber =>
      rw [Lexeme.Matches, hnumber] at hx
      obtain ⟨c, more, hmore, hc⟩ := number_head hx
      refine ⟨c, more, hmore, ?_⟩
      rcases hc with hc | rfl
      · refine ⟨isGap_of_isDecimal hc, ?_, ?_⟩
        · rintro rfl
          exact absurd hc (by decide)
        · rintro rfl
          exact absurd hc (by decide)
      · decide
  | text hstring =>
      obtain ⟨mark, more, hmark, hmore⟩ := mark_of_string hx hstring
      rcases hmark with rfl | rfl <;> exact ⟨_, _, hmore, by decide⟩
  | plus hsymbol => exact ⟨'+', [], chars_of_symbol hx hsymbol, by decide⟩
  | minus hsymbol => exact ⟨'-', [], chars_of_symbol hx hsymbol, by decide⟩
  | openOperand hsymbol => exact ⟨'(', [], chars_of_symbol hx hsymbol, by decide⟩

/-- No lexeme begins with a space or a tab. -/
theorem head_not_gap {e : Expecting} (ht : x.ReadAs e t) :
    ∃ c more, x.chars = c :: more ∧ isGap c = false := by
  cases e with
  | keyword kind =>
      cases ht with
      | opening hkind hword =>
          have hforall := chars_of_word hx hword
          cases kind with
          | ASSIGN => exact absurd rfl hkind
          | _ =>
              obtain ⟨c, more, hc, -, hmore⟩ := List.forall₂_cons_left_iff.mp hforall
              exact ⟨c, more, hmore, isGap_of_isKeywordLetter hc (by decide)⟩
  | operand =>
      obtain ⟨c, more, hmore, hc, -⟩ := head_of_operand hx ht
      exact ⟨c, more, hmore, hc⟩
  | operator =>
      obtain ⟨c, more, hmore, hc⟩ := head_of_operator hx ht
      exact ⟨c, more, hmore, (operatorHeads_stop hc).1⟩
  | binding =>
      obtain ⟨c, more, hmore, hc⟩ := head_of_binding hx ht
      exact ⟨c, more, hmore, (operatorHeads_stop hc).1⟩
  | lineNumber =>
      cases ht with
      | lineNumber hint =>
          rw [Lexeme.Matches, hint] at hx
          obtain ⟨hne, hall⟩ := mem_digits.mp hx
          obtain ⟨c, more, hmore⟩ := List.exists_cons_of_ne_nil hne
          exact ⟨c, more, hmore, isGap_of_isDecimal (hall c (by simp [hmore]))⟩

end Heads

/-! ## What follows a token -/

theorem not_advances_complete {s : Sentence} {x : Lexeme} {σ : ReadState} :
    ¬ Advances (.complete s) x σ := by
  rintro ⟨t, ht, hstep⟩
  cases ht <;> simp [ReadState.step?] at hstep

section Following

variable {σ σ' : ReadState} {place : Nat}

theorem expecting_after_name {slot : Nat} (he : σ.expecting = .operand)
    (h : σ.step? place (.name slot) = some σ') :
    σ'.expecting = .operator ∨ σ'.expecting = .binding := by
  cases σ <;> simp only [ReadState.expecting, reduceCtorEq] at he
  all_goals
    obtain rfl := Option.some.inj h
    simp [ReadState.expecting]

theorem expecting_after_numeral {digits : List Char} (he : σ.expecting = .operand)
    (h : σ.step? place (.numeral digits) = some σ') : σ'.expecting = .operator := by
  cases σ with
  | printOperand => obtain rfl := Option.some.inj h; rfl
  | operand p u => obtain rfl := Option.some.inj h; rfl
  | _ => simp [ReadState.expecting, ReadState.step?] at he h

theorem expecting_after_relation {relation : Relation} (he : σ.expecting = .operator)
    (h : σ.step? place (.relation relation) = some σ') : σ'.expecting = .operand := by
  have hoperator : ∀ {p u e}, ReadState.stepOperator? p u e (.relation relation) = some σ' →
      σ'.expecting = .operand := by
    intro p u e hstep
    obtain ⟨l, outer⟩ := u
    cases outer with
    | nil =>
        cases p with
        | condition => obtain rfl := Option.some.inj hstep; rfl
        | _ => simp [ReadState.stepOperator?, Purpose.follow?] at hstep
    | cons bracket outer => simp [ReadState.stepOperator?] at hstep
  cases σ with
  | named p u m => exact hoperator h
  | operator p u e => exact hoperator h
  | _ => simp [ReadState.expecting, ReadState.step?] at he h

theorem complete_after_text {content : List Char} (he : σ.expecting = .operand)
    (h : σ.step? place (.text content) = some σ') : ∃ s, σ' = .complete s := by
  cases σ with
  | printOperand => exact ⟨_, (Option.some.inj h).symm⟩
  | _ => simp [ReadState.expecting, ReadState.step?, ReadState.stepOperand?] at he h

theorem complete_after_lineNumber {digits : List Char} (he : σ.expecting = .lineNumber)
    (h : σ.step? place (.lineNumber digits) = some σ') : ∃ s, σ' = .complete s := by
  cases σ with
  | lineNumber clause => cases clause <;> exact ⟨_, (Option.some.inj h).symm⟩
  | _ => simp [ReadState.expecting] at he

end Following

/-- The text goes on as the state expects: it ends, or a gap comes, or a character with which a
    lexeme begins that is looked for. -/
def Follows (σ : ReadState) (rest : List Char) : Prop :=
  ∀ c ∈ rest.head?, isGap c = true ∨
    ∃ (x : Lexeme) (t : Token) (more : List Char),
      x.Matches ∧ x.ReadAs σ.expecting t ∧ x.chars = c :: more

theorem Follows.nil (σ : ReadState) : Follows σ [] := by
  intro c hc
  cases hc

/-- A lexeme that is looked for may follow, whatever stands behind it. -/
theorem Follows.lexeme {σ : ReadState} {x : Lexeme} {t : Token} (hx : x.Matches)
    (ht : x.ReadAs σ.expecting t) (rest : List Char) : Follows σ (x.chars ++ rest) := by
  intro c hc
  obtain ⟨d, more, hmore, -⟩ := head_not_gap hx ht
  obtain rfl : d = c := by simpa [hmore] using hc
  exact Or.inr ⟨x, t, more, hx, ht, hmore⟩

theorem Follows.gap {σ : ReadState} {gap rest : List Char} (hgap : gap.all isGap = true)
    (hrest : Follows σ rest) : Follows σ (gap ++ rest) := by
  cases gap with
  | nil => exact hrest
  | cons d gap =>
      intro c hc
      obtain rfl : d = c := by simpa using hc
      exact Or.inl (List.all_eq_true.mp hgap d (by simp))

/-- Lexemes that the reader runs over may follow, with what may follow the last of them. -/
theorem Follows.spells {place : Nat} {text rest : List Char} {xs : List Lexeme} {σ σ' : ReadState}
    (hspells : Spells place text xs) (hruns : Runs σ xs σ') (hrest : Follows σ' rest) :
    Follows σ (text ++ rest) := by
  cases hspells with
  | nil hgap =>
      cases hruns
      exact hrest.gap hgap
  | cons hgap _ hx _ =>
      cases hruns with
      | cons hadv _ =>
          obtain ⟨t, ht, -⟩ := hadv
          rw [List.append_assoc, List.append_assoc]
          exact (Follows.lexeme hx ht _).gap hgap

section Ends

variable {rest : List Char} {σ : ReadState} (hrest : Follows σ rest)
include hrest

theorem Follows.head_operator (hσ : σ.expecting = .operator ∨ σ.expecting = .binding) {c : Char}
    (hc : c ∈ rest.head?) : isGap c = true ∨ c ∈ operatorHeads := by
  rcases hrest c hc with hgap | ⟨x, t, more, hx, ht, hmore⟩
  · exact Or.inl hgap
  · right
    have hhead : ∃ d more, x.chars = d :: more ∧ d ∈ operatorHeads := by
      rcases hσ with hσ | hσ <;> rw [hσ] at ht
      · exact head_of_operator hx ht
      · exact head_of_binding hx ht
    obtain ⟨d, more', hmore', hd⟩ := hhead
    obtain rfl : c = d := by
      rw [hmore] at hmore'
      exact (List.cons.inj hmore').1
    exact hd

theorem Follows.head_operand (hσ : σ.expecting = .operand) {c : Char} (hc : c ∈ rest.head?) :
    isGap c = true ∨ c ≠ '=' ∧ c ≠ '>' := by
  rcases hrest c hc with hgap | ⟨x, t, more, hx, ht, hmore⟩
  · exact Or.inl hgap
  · rw [hσ] at ht
    obtain ⟨d, more', hmore', -, hd⟩ := head_of_operand hx ht
    obtain rfl : c = d := by
      rw [hmore] at hmore'
      exact (List.cons.inj hmore').1
    exact Or.inr hd

end Ends

/-- What follows an accepted lexeme does not make its token longer, unless it is quoted text. -/
theorem endsBefore_of_step {σ σ' : ReadState} {x : Lexeme} {t : Token} {rest : List Char}
    (ht : x.ReadAs σ.expecting t) (hstep : σ.step? x.place t = some σ') (hrest : Follows σ' rest)
    (htext : x.terminal ≠ .STRING) : EndsBefore t rest := by
  generalize he : σ.expecting = e at ht
  -- Only tokens that could run on matter: names, numerals, relations, line numbers.
  cases ht with
  | name hx =>
      intro c hc
      rcases hrest.head_operator (expecting_after_name he hstep) hc with h | h
      · rcases isGap_iff.mp h with rfl | rfl <;> rfl
      · exact (operatorHeads_stop h).2.1
  | numeral hx =>
      intro c hc
      rcases hrest.head_operator (Or.inl (expecting_after_numeral he hstep)) hc with h | h
      · rcases isGap_iff.mp h with rfl | rfl <;> decide
      · exact (operatorHeads_stop h).2.2
  | relation hx =>
      intro c hc
      rcases hrest.head_operand (expecting_after_relation he hstep) hc with h | h
      · rcases isGap_iff.mp h with rfl | rfl <;> decide
      · exact h
  | text hx => exact absurd hx htext
  | lineNumber hx =>
      obtain ⟨s, rfl⟩ := complete_after_lineNumber he hstep
      intro c hc
      rcases hrest.head_operator (Or.inl rfl) hc with h | h
      · rcases isGap_iff.mp h with rfl | rfl <;> decide
      · exact (operatorHeads_stop h).2.2.1
  | _ => trivial

/-- An accepted lexeme is scanned off whole, with what may follow it behind it. Quoted text that is
    not closed takes in whatever follows. -/
theorem scan?_of_step {σ σ' : ReadState} {x : Lexeme} {t : Token} {rest : List Char}
    (hx : x.Matches) (ht : x.ReadAs σ.expecting t) (hstep : σ.step? x.place t = some σ')
    (hrest : Follows σ' rest) (hclosed : x.Closed ∨ rest = []) :
    Token.scan? σ.expecting (x.chars ++ rest) = some (t, x.chars.length) := by
  by_cases hstring : x.terminal = .STRING
  · obtain ⟨he, rfl⟩ := ht.of_string hstring
    rcases hclosed with hclosed | rfl
    · rw [he]
      exact scan?_closed hstring hclosed rest
    · exact scan?_append hx ht rfl
  · exact scan?_append hx ht (endsBefore_of_step ht hstep hrest hstring)

/-! ## Reading -/

theorem read_gap (σ : ReadState) (lastToken place : Nat) {gap : List Char}
    (hgap : gap.all isGap = true) (text : List Char) :
    σ.read 0 lastToken place (gap ++ text) = σ.read 0 lastToken (place + gap.length) text := by
  induction gap generalizing place with
  | nil => rfl
  | cons c gap ih =>
      simp only [List.all_cons, Bool.and_eq_true] at hgap
      rw [List.cons_append, ReadState.read, if_pos hgap.1, ih (place + 1) hgap.2, List.length_cons]
      congr 1
      omega

theorem read_skip (σ : ReadState) (lastToken place : Nat) (piece text : List Char) :
    σ.read piece.length lastToken place (piece ++ text) =
      σ.read 0 lastToken (place + piece.length) text := by
  induction piece generalizing place with
  | nil => rfl
  | cons c piece ih =>
      rw [List.cons_append, List.length_cons, ReadState.read, ih]
      congr 1
      omega

/-- Reading takes a lexeme that is scanned whole and accepted, and goes on behind it. -/
theorem read_lexeme {σ σ' : ReadState} {x : Lexeme} {t : Token} {rest : List Char}
    (lastToken : Nat) (hx : x.Matches) (ht : x.ReadAs σ.expecting t)
    (hstep : σ.step? x.place t = some σ')
    (hscan : Token.scan? σ.expecting (x.chars ++ rest) = some (t, x.chars.length)) :
    σ.read 0 lastToken x.place (x.chars ++ rest) =
      σ'.read 0 x.place (x.place + x.chars.length) rest := by
  obtain ⟨c, more, hmore, hc⟩ := head_not_gap hx ht
  rw [hmore, List.cons_append, List.length_cons] at hscan
  rw [hmore, List.cons_append, ReadState.read, if_neg (by simp [hc])]
  simp only [hscan, hstep, Nat.add_sub_cancel, read_skip]
  congr 1
  rw [List.length_cons]
  omega

/-- The offset of the last lexeme, or the given offset where there is none. -/
def lastPlace (lastToken : Nat) (xs : List Lexeme) : Nat :=
  (xs.getLast?.map (·.place)).getD lastToken

@[simp] theorem lastPlace_nil (lastToken : Nat) : lastPlace lastToken [] = lastToken := rfl

@[simp] theorem lastPlace_cons (lastToken : Nat) (x : Lexeme) (xs : List Lexeme) :
    lastPlace lastToken (x :: xs) = lastPlace x.place xs := by
  cases xs with
  | nil => rfl
  | cons y ys => simp [lastPlace, List.getLast?_eq_some_getLast]

/-- Quoted text ends the sentence. -/
theorem complete_after_string {σ σ' : ReadState} {x : Lexeme} (hx : Advances σ x σ')
    (hstring : x.terminal = .STRING) : ∃ s, σ' = .complete s := by
  obtain ⟨t, ht, hstep⟩ := hx
  obtain ⟨he, rfl⟩ := ht.of_string hstring
  exact complete_after_text he hstep

theorem Runs.of_complete {s : Sentence} {xs : List Lexeme} {σ : ReadState}
    (h : Runs (.complete s) xs σ) : xs = [] ∧ σ = .complete s := by
  cases h with
  | nil => exact ⟨rfl, rfl⟩
  | cons hx _ => exact absurd hx not_advances_complete

/-- Behind quoted text there is at most a gap. -/
theorem gap_behind_string {σ σ' σ'' : ReadState} {x : Lexeme} {xs : List Lexeme} {place : Nat}
    {text : List Char} (hx : Advances σ x σ') (hstring : x.terminal = .STRING)
    (hruns : Runs σ' xs σ'') (hspells : Spells place text xs) : text.all isGap = true := by
  obtain ⟨s, rfl⟩ := complete_after_string hx hstring
  obtain ⟨rfl, -⟩ := hruns.of_complete
  cases hspells with
  | nil hgap => exact hgap

/-- A text that is nothing but gap, and does not end in one, is empty. -/
theorem eq_nil_of_gap {text : List Char} (hgap : text.all isGap = true)
    (hlast : ∀ c ∈ text.getLast?, isGap c = false) : text = [] := by
  by_contra hne
  have hlast' := hlast _ (List.getLast?_eq_some_getLast hne)
  rw [List.all_eq_true.mp hgap _ (List.getLast_mem hne)] at hlast'
  cases hlast'

/-- Over lexemes that it accepts, the reader goes from state to state as they lead it, and reads on
    behind them. Only the last of them can be quoted text; if that is not closed, nothing may follow
    that it would take in as well. -/
theorem read_of_runs {place : Nat} {text rest : List Char} {xs : List Lexeme} {σ σ' : ReadState}
    (lastToken : Nat) (hspells : Spells place text xs) (hruns : Runs σ xs σ')
    (hrest : Follows σ' rest)
    (hends : (∀ x ∈ xs, x.Closed) ∨ rest = [] ∧ ∀ c ∈ text.getLast?, isGap c = false) :
    σ.read 0 lastToken place (text ++ rest) =
      σ'.read 0 (lastPlace lastToken xs) (place + text.length) rest := by
  -- Over the cut of the text: each lexeme is read off as it was cut, whatever the state is.
  induction hspells generalizing σ lastToken with
  | @nil place gap hgap =>
      cases hruns
      exact read_gap _ lastToken place hgap rest
  | @cons place gap tail x xs hgap hplace hx htail ih =>
      cases hruns with
      | @cons _ σ₁ _ _ _ hadv hruns =>
          have hboth : (x.Closed ∨ tail ++ rest = []) ∧
              ((∀ y ∈ xs, y.Closed) ∨ rest = [] ∧ ∀ c ∈ tail.getLast?, isGap c = false) := by
            rcases hends with h | ⟨rfl, hlast⟩
            · refine ⟨Or.inl (h x List.mem_cons_self), Or.inl fun y hy => ?_⟩
              exact h y (List.mem_cons_of_mem _ hy)
            · have hlast' : ∀ c ∈ tail.getLast?, isGap c = false := by
                intro c hc
                apply hlast c
                rw [List.getLast?_append, Option.mem_def.mp hc]
                rfl
              refine ⟨?_, Or.inr ⟨rfl, hlast'⟩⟩
              by_cases hstring : x.terminal = .STRING
              · right
                rw [List.append_nil]
                exact eq_nil_of_gap (gap_behind_string hadv hstring hruns htail) hlast'
              · exact Or.inl fun h => absurd h hstring
          obtain ⟨hclosed, hends'⟩ := hboth
          obtain ⟨t, ht, hstep⟩ := hadv
          have hscan := scan?_of_step hx ht hstep (Follows.spells htail hruns hrest) hclosed
          rw [List.append_assoc, List.append_assoc, read_gap σ lastToken place hgap, ← hplace,
            read_lexeme lastToken hx ht hstep hscan, ih x.place hruns hends', lastPlace_cons]
          congr 1
          simp only [hplace, List.length_append]
          omega

/-- A text that can be cut into lexemes which the reader accepts is read. -/
theorem read_of_spells {place : Nat} {text : List Char} {xs : List Lexeme} {σ : ReadState}
    {s : Sentence} (lastToken : Nat) (hspells : Spells place text xs) (hs : Accepts σ xs s)
    (hlast : ∀ c ∈ text.getLast?, isGap c = false) : σ.read 0 lastToken place text = .ok s := by
  obtain ⟨σ', hruns, hfinish⟩ := hs
  have hread := read_of_runs lastToken hspells hruns (.nil σ') (Or.inr ⟨rfl, hlast⟩)
  rw [List.append_nil] at hread
  rw [hread, ReadState.read, hfinish]

theorem Spells.one {place : Nat} {gap : List Char} {x : Lexeme} (hgap : gap.all isGap = true)
    (hplace : x.place = place + gap.length) (hx : x.Matches) :
    Spells place (gap ++ x.chars) [x] := by
  have h : Spells place (gap ++ x.chars ++ []) [x] := .cons hgap hplace hx (.nil rfl)
  rwa [List.append_nil] at h

theorem Spells.gap_cons {place : Nat} {c : Char} {text : List Char} {xs : List Lexeme}
    (hc : isGap c = true) (h : Spells (place + 1) text xs) : Spells place (c :: text) xs := by
  cases h with
  | nil hgap => exact .nil (by simp [hc, hgap])
  | @cons _ gap rest x xs hgap hplace hx hrest =>
      have hplace' : x.place = place + (c :: gap).length := by
        rw [hplace, List.length_cons]
        omega
      have hgap' : (c :: gap).all isGap = true := by simp [hc, hgap]
      simpa using Spells.cons hgap' hplace' hx hrest

section Opening

variable {σ σ' : ReadState} {place : Nat} {t : Token} {kind : Kind} {p : Purpose} {u : Unfinished}
  {e : Phrase}

theorem follow?_ne_opening : p.follow? e t ≠ some (.opening kind) := by
  unfold Purpose.follow?
  split <;> simp

theorem stepOperand?_ne_opening : ReadState.stepOperand? p u place t ≠ some (.opening kind) := by
  unfold ReadState.stepOperand?
  split <;> simp

theorem stepOperator?_ne_opening : ReadState.stepOperator? p u e t ≠ some (.opening kind) := by
  unfold ReadState.stepOperator?
  split <;> simp [follow?_ne_opening]

theorem afterKeyword?_ne_opening {k : Kind} :
    ReadState.afterKeyword? k ≠ some (.opening kind) := by
  cases k <;> simp [ReadState.afterKeyword?]

/-- No token leads back to the start of a sentence. -/
theorem step?_ne_opening : σ.step? place t ≠ some (.opening kind) := by
  unfold ReadState.step?
  split <;>
    simp [afterKeyword?_ne_opening, stepOperand?_ne_opening, stepOperator?_ne_opening]

end Opening

/-- How reading a text comes out: the reader runs over lexemes, to the end of the text or to a place
    where no gap and no lexeme is that it takes. -/
inductive Outcome (σ : ReadState) (lastToken place : Nat) (text : List Char) :
    Except Stop Sentence → Prop
  | read {xs : List Lexeme} {s : Sentence} (hspells : Spells place text xs) (hs : Accepts σ xs s) :
      Outcome σ lastToken place text (.ok s)
  | ended {xs : List Lexeme} {σ' : ReadState} (hspells : Spells place text xs)
      (hruns : Runs σ xs σ') (hfinish : σ'.finish? = none) :
      Outcome σ lastToken place text (.error (.ended (lastPlace lastToken xs)))
  | refused {front rest : List Char} {c : Char} {xs : List Lexeme} {σ' : ReadState}
      (htext : text = front ++ c :: rest) (hspells : Spells place front xs)
      (hruns : Runs σ xs σ') (hc : isGap c = false) :
      Outcome σ lastToken place text (.error (.refused (place + front.length)))

namespace Outcome

variable {σ σ' : ReadState} {lastToken place : Nat} {o : Except Stop Sentence}

/-- The reader stops where it stands. -/
theorem here {c : Char} {text : List Char} (hc : isGap c = false) :
    Outcome σ lastToken place (c :: text) (.error (.refused place)) :=
  @refused σ lastToken place _ [] text c [] σ rfl (.nil rfl) .nil hc

theorem gap {c : Char} {text : List Char} (hc : isGap c = true)
    (h : Outcome σ lastToken (place + 1) text o) : Outcome σ lastToken place (c :: text) o := by
  cases h with
  | read hspells hs => exact .read (hspells.gap_cons hc) hs
  | ended hspells hruns hfinish => exact .ended (hspells.gap_cons hc) hruns hfinish
  | @refused front rest d xs σ' htext hspells hruns hd =>
      have hplace : place + 1 + front.length = place + (c :: front).length := by
        rw [List.length_cons]
        omega
      rw [hplace]
      exact .refused (by rw [htext]; rfl) (hspells.gap_cons hc) hruns hd

theorem lexeme {x : Lexeme} {rest : List Char} (hx : x.Matches) (hadv : Advances σ x σ')
    (h : Outcome σ' x.place (x.place + x.chars.length) rest o) :
    Outcome σ lastToken x.place (x.chars ++ rest) o := by
  have hcons : ∀ {front : List Char} {xs : List Lexeme},
      Spells (x.place + x.chars.length) front xs →
        Spells x.place (x.chars ++ front) (x :: xs) :=
    fun hspells => @Spells.cons x.place [] _ x _ rfl rfl hx hspells
  cases h with
  | read hspells hs => exact .read (hcons hspells) (.cons hadv hs)
  | @ended xs _ hspells hruns hfinish =>
      rw [← lastPlace_cons lastToken x xs]
      exact .ended (hcons hspells) (.cons hadv hruns) hfinish
  | @refused front behind c xs _ htext hspells hruns hc =>
      rw [Nat.add_assoc, ← List.length_append]
      exact .refused (by rw [htext, List.append_assoc]) (hcons hspells) (.cons hadv hruns) hc

end Outcome

theorem read_outcome {σ : ReadState} (hσ : σ ≠ .opening .ASSIGN) (lastToken place : Nat)
    (text : List Char) : Outcome σ lastToken place text (σ.read 0 lastToken place text) := by
  -- Over the length of the text, for a token may be longer than one character.
  induction hn : text.length using Nat.strong_induction_on generalizing place lastToken text σ with
  | _ n ih =>
    cases text with
    | nil =>
        rw [ReadState.read]
        cases hfinish : σ.finish? with
        | none => exact .ended (.nil rfl) .nil hfinish
        | some s => exact .read (.nil rfl) ⟨σ, .nil, hfinish⟩
    | cons c text =>
        by_cases hgap : isGap c = true
        · rw [ReadState.read, if_pos hgap]
          exact (ih text.length (by simp [← hn]) hσ lastToken (place + 1) text rfl).gap hgap
        · have hrefused : Outcome σ lastToken place (c :: text) (.error (.refused place)) :=
            .here (by simpa using hgap)
          rw [ReadState.read, if_neg hgap]
          cases hscan : Token.scan? σ.expecting (c :: text) with
          | none => exact hrefused
          | some found =>
              obtain ⟨t, size⟩ := found
              dsimp only
              cases hstep : σ.step? place t with
              | none => exact hrefused
              | some σ' =>
                  have he : σ.expecting ≠ .keyword .ASSIGN := by
                    intro he
                    apply hσ
                    cases σ <;> simp_all [ReadState.expecting]
                  have hσ' : σ' ≠ .opening .ASSIGN := by
                    rintro rfl
                    exact step?_ne_opening hstep
                  -- The piece is the token that was scanned, and the text goes on behind it.
                  obtain ⟨hpos, hle, terminal, hterminal⟩ := frontIs_of_scan? he hscan
                  obtain ⟨hx, ht⟩ := hterminal place
                  obtain ⟨k, rfl⟩ : ∃ k, size = k + 1 := ⟨size - 1, by omega⟩
                  have hlen : (text.take k).length = k := by
                    rw [List.length_cons] at hle
                    rw [List.length_take]
                    omega
                  have hread := read_skip σ' place (place + 1) (text.take k) (text.drop k)
                  rw [List.take_append_drop, hlen] at hread
                  have hshort : (text.drop k).length < n := by
                    rw [← hn, List.length_drop, List.length_cons]
                    omega
                  have hbehind := ih _ hshort hσ' place (place + 1 + k) (text.drop k) rfl
                  rw [← hread] at hbehind
                  have hplace : place + 1 + k = place + ((c :: text).take (k + 1)).length := by
                    rw [List.take_succ_cons, List.length_cons, hlen]
                    omega
                  rw [hplace] at hbehind
                  have hwhole : Outcome σ lastToken place _ _ := .lexeme hx ⟨t, ht, hstep⟩ hbehind
                  rwa [List.take_succ_cons, List.cons_append, List.take_append_drop] at hwhole

/-- A text that is read can be cut into lexemes which the reader accepts. -/
theorem spells_of_read {place lastToken : Nat} {text : List Char} {σ : ReadState} {s : Sentence}
    (hσ : σ ≠ .opening .ASSIGN) (h : σ.read 0 lastToken place text = .ok s) :
    ∃ xs, Spells place text xs ∧ Accepts σ xs s := by
  have houtcome := read_outcome hσ lastToken place text
  rw [h] at houtcome
  cases houtcome with
  | read hspells hs => exact ⟨_, hspells, hs⟩

theorem start_ne_opening (kind : Kind) : ReadState.start kind ≠ .opening .ASSIGN := by
  cases kind <;> simp [ReadState.start]

/-- What is read is a sentence of the grammar. -/
theorem derives_of_read {kind : Kind} {text : List Char} {s : Sentence}
    (h : Sentence.read kind text = .ok s) : ∃ xs, Spells 0 text xs ∧ Derives kind xs s := by
  obtain ⟨xs, hspells, hacc⟩ := spells_of_read (start_ne_opening kind) h
  exact ⟨xs, hspells, derives_of_accepts hacc⟩

/-- Reading a text that does not end in a gap yields a sentence exactly when the grammar derives it
    from some cut of the text. -/
theorem read_eq_ok_iff {kind : Kind} {text : List Char} {s : Sentence}
    (hlast : ∀ c ∈ text.getLast?, isGap c = false) :
    Sentence.read kind text = .ok s ↔ ∃ xs, Spells 0 text xs ∧ Derives kind xs s := by
  refine ⟨?_, ?_⟩
  · exact derives_of_read
  · rintro ⟨xs, hspells, hs⟩
    exact read_of_spells 0 hspells (accepts_of_derives hs) hlast

end LineBasic.Grammar
