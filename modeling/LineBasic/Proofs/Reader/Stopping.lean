/-
  LineBasic.Proofs.Reader.Stopping

  Where reading stops, said without the reader. A place at which reading is refused is one at which
  no lexeme stands that a run over the text before it could go on with: what is scanned where such a
  lexeme stands may be longer than the lexeme, but it is a token of the same form, and no state
  tells such tokens apart.

  A run over a longer text is a run over its front, if a blank comes behind the front. The cut that
  the run follows may have the blank inside quoted text; then the front ends in quoted text without
  its closing mark.
-/
import LineBasic.Proofs.Grammar.Solid
import LineBasic.Proofs.Reader.Reading

namespace LineBasic.Grammar

/-! ## Tokens of one form -/

/-- The tokens are of one form: they differ in what they say, not in where they may stand. -/
inductive Alike : Token → Token → Prop
  | refl (t : Token) : Alike t t
  | name (slot slot' : Nat) : Alike (.name slot) (.name slot')
  | numeral (digits digits' : List Char) : Alike (.numeral digits) (.numeral digits')
  | lineNumber (digits digits' : List Char) : Alike (.lineNumber digits) (.lineNumber digits')
  | text (content content' : List Char) : Alike (.text content) (.text content')
  | relation (r r' : Relation) : Alike (.relation r) (.relation r')

namespace Alike

variable {t t' : Token} (h : Alike t t')
include h

theorem follow? (p : Purpose) (e : Phrase) :
    (p.follow? e t').isSome = (p.follow? e t).isSome := by
  cases h <;> cases p <;> rfl

theorem stepOperand? (p : Purpose) (u : Unfinished) (place : Nat) :
    (ReadState.stepOperand? p u place t').isSome = (ReadState.stepOperand? p u place t).isSome := by
  cases h <;> rfl

theorem stepOperator? (p : Purpose) (u : Unfinished) (e : Phrase) :
    (ReadState.stepOperator? p u e t').isSome = (ReadState.stepOperator? p u e t).isSome := by
  obtain ⟨l, outer⟩ := u
  cases outer with
  | nil =>
      have hfollow := h.follow? p (l.total e)
      cases h <;> first | rfl | exact hfollow
  | cons bracket outer => cases h <;> rfl

/-- A state takes either of the tokens or none of them. -/
theorem step? (σ : ReadState) (place : Nat) :
    (σ.step? place t').isSome = (σ.step? place t).isSome := by
  cases σ with
  | operand p u => exact h.stepOperand? p u place
  | named p u m =>
      have hbehind := h.stepOperator? p u (.name m)
      cases h <;> first | rfl | exact hbehind
  | operator p u e => exact h.stepOperator? p u e
  | lineNumber clause => cases h <;> cases clause <;> rfl
  | _ => cases h <;> rfl

theorem exists_step? {σ σ' : ReadState} {place : Nat} (hstep : σ.step? place t = some σ') :
    ∃ σ'', σ.step? place t' = some σ'' := by
  rw [← Option.isSome_iff_exists, h.step?, hstep]
  rfl

end Alike

/-- Where a name stands, one at least as long is scanned. -/
theorem exists_scan?_name {s : List Char} (hs : s ∈ namePattern) (rest : List Char) :
    ∃ slot size, Name.scan? (s ++ rest) = some (slot, size) ∧ s.length ≤ size := by
  obtain ⟨c, hc, hshape⟩ := mem_namePattern.mp hs
  obtain ⟨letter, hletter⟩ := Option.isSome_iff_exists.mp (letter?_isSome_iff.mpr hc)
  rcases hshape with rfl | ⟨d, hd, rfl⟩
  · simp only [List.singleton_append, Name.scan?, hletter]
    split
    · exact ⟨_, 2, rfl, by simp⟩
    · exact ⟨_, 1, rfl, by simp⟩
  · obtain ⟨digit, hdigit⟩ := Option.isSome_iff_exists.mp (digit?_isSome_iff.mpr hd)
    exact ⟨Name.suffixedSlot letter digit, 2, by simp [Name.scan?, hletter, hdigit], by simp⟩

/-- Where quoted text stands, quoted text at least as long is scanned. -/
theorem exists_scan?_string {x : Lexeme} (hx : x.Matches) (hstring : x.terminal = .STRING)
    (rest : List Char) :
    ∃ content size, Token.scan? .operand (x.chars ++ rest) = some (.text content, size) ∧
      x.chars.length ≤ size := by
  rw [Lexeme.Matches, hstring] at hx
  have hquoted : ∀ {mark : Char}, x.chars ∈ quotedPattern mark →
      ∃ more content size, x.chars = mark :: more ∧
        Token.scanText mark (more ++ rest) = (.text content, size) ∧ x.chars.length ≤ size := by
    intro mark hmark
    obtain ⟨content, hcontent, h | h⟩ := mem_quotedPattern.mp hmark
    · have hle : content.length ≤ ((content ++ rest).takeWhile (· != mark)).length :=
        le_takeWhile_append (fun c hc => bne_iff_ne.mpr (hcontent c hc)) rest
      refine ⟨content, _, _, h, rfl, ?_⟩
      rw [h, List.length_cons]
      omega
    · have hscan := scanText_closed hcontent rest
      rw [← h, List.append_cons] at hscan
      exact ⟨content ++ [mark], content, _, h, hscan, le_rfl⟩
  rcases hx with hx | hx
  · obtain ⟨more, content, size, hmore, hscan, hsize⟩ := hquoted hx
    refine ⟨content, size, ?_, hsize⟩
    rw [hmore, ← hscan]
    rfl
  · obtain ⟨more, content, size, hmore, hscan, hsize⟩ := hquoted hx
    refine ⟨content, size, ?_, hsize⟩
    rw [hmore, ← hscan]
    rfl

/-- A relation with one of the two characters behind it that could make it longer: it is scanned, or
    a longer one is. -/
theorem exists_scan?_relation {r : Relation} {rest : List Char}
    (hrest : ¬ EndsBefore (.relation r) rest) :
    ∃ r' size, Token.scanOperator? (r.symbol.toList ++ rest) = some (.relation r', size) ∧
      r.symbol.toList.length ≤ size := by
  cases rest with
  | nil => simp [EndsBefore] at hrest
  | cons c rest =>
      obtain rfl | rfl : c = '=' ∨ c = '>' := by
        by_contra hother
        exact hrest (by simpa [EndsBefore] using hother)
      · cases r <;> exact ⟨_, _, rfl, by decide⟩
      · cases r <;> exact ⟨_, _, rfl, by decide⟩

/-- Where a lexeme stands, a token of its form is scanned that is at least as long, however the text
    goes on. -/
theorem scan?_alike {x : Lexeme} {e : Expecting} {t : Token} (hx : x.Matches) (ht : x.ReadAs e t)
    (rest : List Char) :
    ∃ t' size, Token.scan? e (x.chars ++ rest) = some (t', size) ∧ Alike t t' ∧
      x.chars.length ≤ size := by
  have hwhole : EndsBefore t rest →
      ∃ t' size, Token.scan? e (x.chars ++ rest) = some (t', size) ∧ Alike t t' ∧
        x.chars.length ≤ size :=
    fun hend => ⟨t, _, scan?_append hx ht hend, .refl t, le_rfl⟩
  -- Only tokens that could run on matter: names, numerals, relations, line numbers, quoted text.
  cases ht with
  | name hterminal =>
      rw [Lexeme.Matches, hterminal] at hx
      obtain ⟨slot, size, hscan, hsize⟩ := exists_scan?_name hx rest
      exact ⟨_, size, scanOperand?_eq_name hx hscan, .name _ slot, hsize⟩
  | numeral hterminal =>
      rw [Lexeme.Matches, hterminal] at hx
      obtain ⟨hpos, hle⟩ := le_numeralLength hx rest
      have hscan : ∃ digits, Token.scan? .operand (x.chars ++ rest) =
          some (.numeral digits, Number.numeralLength (x.chars ++ rest)) := by
        rw [Token.scan?, scanOperand?_eq_numeral hx, Token.scanNumeral?, if_neg (by omega)]
        exact ⟨_, rfl⟩
      obtain ⟨digits, hscan⟩ := hscan
      exact ⟨_, _, hscan, .numeral _ digits, hle⟩
  | text hterminal =>
      obtain ⟨content, size, hscan, hsize⟩ := exists_scan?_string hx hterminal rest
      exact ⟨_, size, hscan, .text _ content, hsize⟩
  | @relation r hterminal =>
      by_cases hend : EndsBefore (.relation r) rest
      · exact hwhole hend
      · obtain ⟨r', size, hscan, hsize⟩ := exists_scan?_relation hend
        rw [chars_of_symbol hx hterminal]
        exact ⟨_, size, hscan, .relation r r', hsize⟩
  | lineNumber hterminal =>
      rw [Lexeme.Matches, hterminal] at hx
      obtain ⟨hne, hall⟩ := mem_digits.mp hx
      have hle := le_takeWhile_append hall rest
      have hpos := List.length_pos_iff.mpr hne
      have hscan : ∃ digits, Token.scan? .lineNumber (x.chars ++ rest) =
          some (.lineNumber digits, ((x.chars ++ rest).takeWhile Text.isDecimal).length) := by
        rw [Token.scan?, Token.scanLineNumber?, if_neg]
        · exact ⟨_, rfl⟩
        · rw [List.isEmpty_iff_length_eq_zero]
          omega
      obtain ⟨digits, hscan⟩ := hscan
      exact ⟨_, _, hscan, .lineNumber _ digits, hle⟩
  | _ => exact hwhole trivial

/-! ## Where reading is refused -/

/-- Reading is refused at no place that it has passed. -/
theorem le_of_refused {σ : ReadState} {skip lastToken place p : Nat} {text : List Char}
    (h : σ.read skip lastToken place text = .error (.refused p)) : place + skip ≤ p := by
  -- Over the text, which is read character by character; those of a token are skipped.
  induction text generalizing σ skip lastToken place with
  | nil =>
      rw [ReadState.read] at h
      split at h <;> simp at h
  | cons c text ih =>
      cases skip with
      | succ skip =>
          have hbehind := ih h
          omega
      | zero =>
          rw [ReadState.read] at h
          split at h
          · have hbehind := ih h
            omega
          · split at h
            · obtain rfl := Stop.refused.inj (Except.error.inj h)
              exact le_rfl
            · split at h
              · obtain rfl := Stop.refused.inj (Except.error.inj h)
                exact le_rfl
              · have hbehind := ih h
                omega

/-- Reading is refused at no place in a lexeme that the state takes. -/
theorem le_of_refused_of_advances {σ σ' : ReadState} {x : Lexeme} {rest : List Char}
    {lastToken p : Nat} (hx : x.Matches) (hadv : Advances σ x σ')
    (h : σ.read 0 lastToken x.place (x.chars ++ rest) = .error (.refused p)) :
    x.place + x.chars.length ≤ p := by
  obtain ⟨t, ht, hstep⟩ := hadv
  obtain ⟨c, more, hmore, hc⟩ := head_not_gap hx ht
  obtain ⟨t', size, hscan, halike, hsize⟩ := scan?_alike hx ht rest
  obtain ⟨σ'', hstep'⟩ := halike.exists_step? hstep
  rw [hmore, List.cons_append] at h hscan
  rw [hmore, List.length_cons] at hsize
  rw [ReadState.read, if_neg (by simp [hc])] at h
  simp only [hscan, hstep'] at h
  have hbehind := le_of_refused h
  rw [hmore, List.length_cons]
  omega

/-- Where the run goes on, it is over no quoted text. -/
theorem Runs.closed_of_advances {σ σ' σ'' : ReadState} {x : Lexeme} {xs : List Lexeme}
    (h : Runs σ xs σ') (hadv : Advances σ' x σ'') : ∀ y ∈ xs, y.Closed := by
  induction h with
  | nil => simp
  | cons hy hys ih =>
      simp only [List.mem_cons, forall_eq_or_imp]
      refine ⟨fun hstring => ?_, ih hadv⟩
      obtain ⟨s, rfl⟩ := complete_after_string hy hstring
      obtain ⟨-, rfl⟩ := hys.of_complete
      exact absurd hadv not_advances_complete

/-- Reading goes past every lexeme that a run over the text before it goes on with. -/
theorem le_of_refused_of_runs {σ σ' σ'' : ReadState} {x : Lexeme} {xs : List Lexeme}
    {front rest : List Char} {lastToken place p : Nat} (hspells : Spells place front xs)
    (hruns : Runs σ xs σ') (hx : x.Matches) (hplace : x.place = place + front.length)
    (hadv : Advances σ' x σ'')
    (h : σ.read 0 lastToken place (front ++ (x.chars ++ rest)) = .error (.refused p)) :
    x.place + x.chars.length ≤ p := by
  have hclosed := hruns.closed_of_advances hadv
  have hfollows : Follows σ' (x.chars ++ rest) := by
    obtain ⟨t, ht, -⟩ := hadv
    exact .lexeme hx ht rest
  rw [read_of_runs lastToken hspells hruns hfollows (Or.inl hclosed), ← hplace] at h
  exact le_of_refused_of_advances hx hadv h

/-- What is no gap in a text that is cut into lexemes belongs to one of them. -/
theorem Spells.exists_covering {place : Nat} {front rest : List Char} {c : Char} {xs : List Lexeme}
    (h : Spells place (front ++ c :: rest) xs) (hc : isGap c = false) :
    ∃ ys x zs before behind, xs = ys ++ x :: zs ∧ Spells place before ys ∧ x.Matches ∧
      x.place = place + before.length ∧ front ++ c :: rest = before ++ (x.chars ++ behind) ∧
      front.length < before.length + x.chars.length := by
  generalize hwhole : front ++ c :: rest = whole at h
  induction h generalizing front with
  | @nil place gap hgap =>
      have hc' := List.all_eq_true.mp hgap c (by simp [← hwhole])
      simp [hc] at hc'
  | @cons place gap tail x xs hgap hplace hx htail ih =>
      -- The character is not in the gap, so it is in the lexeme or in what comes behind it.
      obtain ⟨inner, rfl, hinner⟩ : ∃ inner, front = gap ++ inner ∧
          x.chars ++ tail = inner ++ c :: rest := by
        rw [List.append_assoc, List.append_eq_append_iff] at hwhole
        rcases hwhole with ⟨behind, rfl, hbehind⟩ | h
        · cases behind with
          | nil => exact ⟨[], by simp, hbehind.symm⟩
          | cons d behind =>
              obtain ⟨rfl, -⟩ := List.cons.inj hbehind
              have hc' := List.all_eq_true.mp hgap c (by simp)
              simp [hc] at hc'
        · exact h
      by_cases hpast : ∃ front', inner = x.chars ++ front' ∧ tail = front' ++ c :: rest
      · obtain ⟨front', rfl, htail'⟩ := hpast
        obtain ⟨ys, y, zs, before, behind, rfl, hys, hy, hplace', htext, hlt⟩ := ih htail'.symm
        refine ⟨x :: ys, y, zs, gap ++ x.chars ++ before, behind, rfl, .cons hgap hplace hx hys, hy,
          ?_, ?_, ?_⟩
        · simp only [hplace', hplace, List.length_append]
          omega
        · rw [htext, List.append_assoc _ before]
        · simp only [List.length_append]
          omega
      · rcases List.append_eq_append_iff.mp hinner with h | ⟨behind, hchars, hbehind⟩
        · exact absurd h hpast
        · have hne : behind ≠ [] := by
            rintro rfl
            exact hpast ⟨[], by simpa using hchars.symm, hbehind.symm⟩
          have hpos := List.length_pos_iff.mpr hne
          refine ⟨[], x, xs, gap, tail, rfl, .nil hgap, hx, hplace, List.append_assoc .., ?_⟩
          rw [hchars, List.length_append, List.length_append]
          omega

/-- Reading is not refused in a text that can be cut into lexemes which the reader runs over. -/
theorem read_ne_refused {σ τ : ReadState} {xs : List Lexeme} {front behind : List Char} {c : Char}
    {place : Nat} (lastToken : Nat) (hspells : Spells place (front ++ c :: behind) xs)
    (hruns : Runs σ xs τ) (hc : isGap c = false) (rest : List Char) :
    σ.read 0 lastToken place (front ++ c :: behind ++ rest) ≠
      .error (.refused (place + front.length)) := by
  intro h
  obtain ⟨ys, x, zs, before, tail, rfl, hys, hx, hplace, htext, hlt⟩ := hspells.exists_covering hc
  obtain ⟨σ', hruns', hzs⟩ := hruns.exists_between
  cases hzs with
  | cons hadv _ =>
      rw [htext, List.append_assoc, List.append_assoc] at h
      have hle := le_of_refused_of_runs hys hruns' hx hplace hadv h
      omega

/-! ## Quoted text before a refusal -/

theorem open_of_not_closed {x : Lexeme} (hx : x.Matches) (h : ¬ x.Closed) :
    x.terminal = .STRING ∧ ∃ mark content, (mark = '"' ∨ mark = '\'') ∧
      (∀ c ∈ content, c ≠ mark) ∧ x.chars = mark :: content := by
  rw [Lexeme.Closed, Classical.not_imp] at h
  obtain ⟨hstring, hopen⟩ := h
  refine ⟨hstring, ?_⟩
  rw [Lexeme.Matches, hstring] at hx
  have hquoted : ∀ {mark : Char}, mark = '"' ∨ mark = '\'' → x.chars ∈ quotedPattern mark →
      ∃ mark content, (mark = '"' ∨ mark = '\'') ∧ (∀ c ∈ content, c ≠ mark) ∧
        x.chars = mark :: content := by
    intro mark hmark hchars
    obtain ⟨content, hcontent, h | h⟩ := mem_quotedPattern.mp hchars
    · exact ⟨mark, content, hmark, hcontent, h⟩
    · exact absurd ⟨mark, content, hmark, hcontent, h⟩ hopen
  exact hx.elim (hquoted (Or.inl rfl)) (hquoted (Or.inr rfl))

/-- Where quoted text is taken, any other is. -/
theorem exists_advances_string {σ σ' : ReadState} {x : Lexeme} (hadv : Advances σ x σ')
    (hstring : x.terminal = .STRING) (chars : List Char) :
    ∃ σ'', Advances σ ⟨.STRING, chars, x.place⟩ σ'' := by
  obtain ⟨t, ht, hstep⟩ := hadv
  obtain ⟨he, rfl⟩ := ht.of_string hstring
  have halike := Alike.text x.content (Lexeme.content ⟨.STRING, chars, x.place⟩)
  obtain ⟨σ'', hstep'⟩ := halike.exists_step? hstep
  refine ⟨σ'', _, ?_, hstep'⟩
  rw [he]
  exact .text rfl

/-- Quoted text without its closing mark takes in a gap and whatever character comes behind it. -/
theorem string_append {x : Lexeme} {gap : List Char} (hx : x.Matches) (h : ¬ x.Closed)
    (hgap : gap.all isGap = true) (c : Char) (place : Nat) :
    Lexeme.Matches ⟨.STRING, x.chars ++ (gap ++ [c]), place⟩ := by
  obtain ⟨-, mark, content, hmark, hcontent, hchars⟩ := open_of_not_closed hx h
  have hfree : ∀ d ∈ content ++ gap, d ≠ mark := by
    intro d hd
    rcases List.mem_append.mp hd with hd | hd
    · exact hcontent d hd
    · have hd' := List.all_eq_true.mp hgap d hd
      rintro rfl
      rcases hmark with rfl | rfl <;> exact absurd hd' (by decide)
  have hquoted : x.chars ++ (gap ++ [c]) ∈ quotedPattern mark := by
    rw [hchars, mem_quotedPattern]
    by_cases hc : c = mark
    · exact ⟨content ++ gap, hfree, Or.inr (by simp [hc])⟩
    · refine ⟨content ++ gap ++ [c], fun d hd => ?_, Or.inl (by simp)⟩
      rcases List.mem_append.mp hd with hd | hd
      · exact hfree d hd
      · rwa [List.mem_singleton.mp hd]
  rcases hmark with rfl | rfl
  · exact Or.inl hquoted
  · exact Or.inr hquoted

/-- If a run over a text cannot be taken one character further, however the longer text is cut, the
    quoted text in it is closed. -/
theorem closed_of_not_longer {place : Nat} {text : List Char} {xs : List Lexeme}
    {σ τ : ReadState} {c : Char} (hspells : Spells place text xs) (hruns : Runs σ xs τ)
    (hno : ∀ ys τ', Spells place (text ++ [c]) ys → ¬ Runs σ ys τ') : ∀ x ∈ xs, x.Closed := by
  induction hspells generalizing σ with
  | nil hgap => simp
  | @cons place gap tail x xs hgap hplace hx htail ih =>
      cases hruns with
      | cons hadv hruns =>
          simp only [List.mem_cons, forall_eq_or_imp]
          refine ⟨?_, ih hruns fun ys τ' hys hruns' => ?_⟩
          · by_contra hopen
            -- Open quoted text is the last lexeme, and it would take in the character as well.
            obtain ⟨hstring, -⟩ := open_of_not_closed hx hopen
            have htail' := gap_behind_string hadv hstring hruns htail
            obtain ⟨τ', hadv'⟩ := exists_advances_string hadv hstring (x.chars ++ (tail ++ [c]))
            have hone := Spells.one (x := ⟨.STRING, x.chars ++ (tail ++ [c]), x.place⟩) hgap hplace
              (string_append hx hopen htail' c x.place)
            refine hno _ τ' ?_ (.one hadv')
            simpa using hone
          · refine hno (x :: ys) τ' ?_ (.cons hadv hruns')
            rw [List.append_assoc]
            exact .cons hgap hplace hx hys

/-- The quoted text before a place at which reading is refused is closed. -/
theorem closed_of_refused {place lastToken : Nat} {front rest : List Char} {xs : List Lexeme}
    {σ τ : ReadState} {c : Char} (hspells : Spells place front xs) (hruns : Runs σ xs τ)
    (hc : isGap c = false)
    (h : σ.read 0 lastToken place (front ++ c :: rest) = .error (.refused (place + front.length))) :
    ∀ x ∈ xs, x.Closed := by
  refine closed_of_not_longer (c := c) hspells hruns fun ys τ' hys hruns' => ?_
  apply read_ne_refused lastToken hys hruns' hc rest
  rwa [List.append_assoc]

/-! ## Runs over the front of a text -/

/-- The front of quoted text is quoted text without its closing mark. -/
theorem front_of_string {x : Lexeme} {front behind : List Char} (hx : x.Matches)
    (hstring : x.terminal = .STRING) (hchars : x.chars = front ++ behind) (hfront : front ≠ [])
    (hbehind : behind ≠ []) (place : Nat) : Lexeme.Matches ⟨.STRING, front, place⟩ := by
  rw [Lexeme.Matches, hstring, hchars] at hx
  have hquoted : ∀ {mark : Char}, front ++ behind ∈ quotedPattern mark →
      front ∈ quotedPattern mark := by
    intro mark hmark
    obtain ⟨c, inner, rfl⟩ := List.exists_cons_of_ne_nil hfront
    obtain ⟨content, hcontent, hshape⟩ := mem_quotedPattern.mp hmark
    have hinner : c = mark ∧ ∀ d ∈ inner, d ∈ content := by
      rcases hshape with h | h
      · obtain ⟨rfl, rfl⟩ := List.cons.inj h
        exact ⟨rfl, fun d hd => List.mem_append_left _ hd⟩
      · obtain ⟨rfl, h⟩ := List.cons.inj h
        refine ⟨rfl, fun d hd => ?_⟩
        obtain ⟨init, last, rfl⟩ := (List.eq_nil_or_concat' behind).resolve_left hbehind
        have hall : inner ++ init ++ [last] = content ++ [c] := by
          rw [List.append_assoc]
          exact h
        rw [← List.append_inj_left' hall rfl]
        exact List.mem_append_left _ hd
    obtain ⟨rfl, hsub⟩ := hinner
    exact mem_quotedPattern.mpr ⟨inner, fun d hd => hcontent d (hsub d hd), Or.inl rfl⟩
  exact hx.imp hquoted hquoted

/-- A run over a text with a blank in it is a run over the text before the blank, as far as it
    goes. -/
theorem exists_run_before_blank {place : Nat} {text more : List Char} {c : Char} {xs : List Lexeme}
    {σ τ : ReadState} (hc : Text.isBlank c = true) (hspells : Spells place (text ++ c :: more) xs)
    (hruns : Runs σ xs τ) : ∃ ys σ', Spells place text ys ∧ Runs σ ys σ' := by
  generalize hwhole : text ++ c :: more = whole at hspells
  induction hspells generalizing text σ with
  | @nil place gap hgap =>
      subst hwhole
      refine ⟨[], σ, .nil ?_, .nil⟩
      rw [List.all_append, Bool.and_eq_true] at hgap
      exact hgap.1
  | @cons place gap rest x xs hgap hplace hx hrest ih =>
      have hnone : ∀ {front : List Char}, front.all isGap = true →
          ∃ ys σ', Spells place front ys ∧ Runs σ ys σ' := fun h => ⟨[], σ, .nil h, .nil⟩
      cases hruns with
      | @cons _ σ₁ _ _ _ hadv hruns =>
          -- The blank that cuts the text stands before the lexeme, behind it, or inside it.
          rw [List.append_assoc, List.append_eq_append_iff] at hwhole
          rcases hwhole with ⟨behind, rfl, -⟩ | ⟨front, rfl, hwhole⟩
          · rw [List.all_append, Bool.and_eq_true] at hgap
            exact hnone hgap.1
          rw [List.append_eq_append_iff] at hwhole
          rcases hwhole with ⟨front, rfl, hwhole⟩ | ⟨behind, hchars, hwhole⟩
          · obtain ⟨ys, σ', hys, hruns'⟩ := ih hruns hwhole.symm
            rw [← List.append_assoc]
            exact ⟨x :: ys, σ', .cons hgap hplace hx hys, .cons hadv hruns'⟩
          cases behind with
          | nil =>
              rw [List.append_nil] at hchars
              rw [← hchars]
              exact ⟨[x], σ₁, .one hgap hplace hx, .one hadv⟩
          | cons d behind =>
              obtain ⟨rfl, -⟩ := List.cons.inj hwhole
              by_cases hfront : front = []
              · rw [hfront, List.append_nil]
                exact hnone hgap
              -- Only quoted text has a blank inside, and its front is quoted text that is open.
              have hstring : x.terminal = .STRING := by
                by_contra hstring
                obtain ⟨t, ht, -⟩ := hadv
                have hsolid := Lexeme.isBlank_of_mem hx ht hstring c (by simp [hchars])
                rw [hc] at hsolid
                cases hsolid
              have hy := front_of_string hx hstring hchars hfront (by simp) x.place
              obtain ⟨σ', hadv'⟩ := exists_advances_string hadv hstring front
              exact ⟨_, σ', Spells.one (x := ⟨.STRING, front, x.place⟩) hgap hplace hy, .one hadv'⟩

/-! ## Blanks at the end -/

/-- A lexeme ends in no blank, if its closing mark is there where it is quoted text. -/
theorem Lexeme.endsSolid {x : Lexeme} {e : Expecting} {t : Token} (hx : x.Matches)
    (ht : x.ReadAs e t) (hclosed : x.Closed) : Text.EndsSolid x.chars := by
  by_cases hstring : x.terminal = .STRING
  · obtain ⟨mark, content, hmark, -, hchars⟩ := hclosed hstring
    refine ⟨mark, by rw [hchars, ← List.cons_append, List.getLast?_concat], ?_⟩
    rcases hmark with rfl | rfl <;> rfl
  · obtain ⟨c, more, hmore, -⟩ := head_not_gap hx ht
    exact .of_forall (by simp [hmore]) (isBlank_of_mem hx ht hstring)

/-- The text without the blanks at its end is cut in the same way. -/
theorem Spells.trimEnd {place : Nat} {text : List Char} {xs : List Lexeme} {σ σ' : ReadState}
    (hspells : Spells place text xs) (hruns : Runs σ xs σ') (hclosed : ∀ x ∈ xs, x.Closed) :
    Spells place (Text.trimEnd text) xs := by
  induction hspells generalizing σ with
  | @nil place gap hgap =>
      have hnil : Text.trimEnd gap = [] := by
        rw [Text.trimEnd_eq_rdropWhile, List.rdropWhile_eq_nil_iff]
        exact fun c hc => isBlank_of_isGap (List.all_eq_true.mp hgap c hc)
      rw [hnil]
      exact .nil rfl
  | @cons place gap rest x xs hgap hplace hx hrest ih =>
      cases hruns with
      | cons hadv hruns =>
          obtain ⟨t, ht, -⟩ := hadv
          have hsolid := Lexeme.endsSolid hx ht (hclosed x List.mem_cons_self)
          rw [hsolid.append.trimEnd_append]
          exact .cons hgap hplace hx (ih hruns fun y hy => hclosed y (List.mem_cons_of_mem _ hy))

end LineBasic.Grammar
