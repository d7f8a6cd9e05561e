/-
  LineBasic.Proofs.Stmt.Writing

  The text of a draft is a sentence of the grammar, and the sentence means the drafted statement.

  Each part of a draft is followed to the lexemes of its text: an expression gives lexemes that
  derive a phrase of its rank, and in a place that its rank does not fit it stands in brackets,
  which make it a factor. Nothing here knows how a text is read.
-/
import LineBasic.Proofs.Grammar.Spelling
import LineBasic.Proofs.Sentence.Meaning
import LineBasic.Proofs.Stmt.Draft
import LineBasic.Proofs.Text.Integer

namespace LineBasic

open Grammar

/-! ## Names -/

namespace Name

theorem letter?_ofLetter {letter : Nat} (h : letter < letterCount) :
    letter? (Char.ofNat (0x41 + letter)) = some letter := by
  have hall : ∀ letter < letterCount, letter? (Char.ofNat (0x41 + letter)) = some letter := by
    decide
  exact hall letter h

theorem digit?_digitChar {digit : Nat} (h : digit < 10) :
    digit? (Nat.digitChar digit) = some digit := by
  have hall : ∀ digit < 10, digit? (Nat.digitChar digit) = some digit := by decide
  exact hall digit h

/-- The characters of the name with a slot: a letter, or a letter and a digit. -/
theorem toList_ofSlot {slot : Nat} :
    (ofSlot slot).toList =
      if slot < letterCount then [Char.ofNat (0x41 + slot)]
      else [Char.ofNat (0x41 + (slot - letterCount) / 10),
        Nat.digitChar ((slot - letterCount) % 10)] := by
  unfold ofSlot
  split
  · simp [ofLetter]
  · have hdigit : (slot - letterCount) % 10 < 10 := Nat.mod_lt _ (by decide)
    simp [ofLetter, Nat.toDigits_of_lt_base hdigit]

theorem scan?_ofSlot {slot : Nat} (h : slot < slotCount) :
    scan? (ofSlot slot).toList = some (slot, (ofSlot slot).toList.length) := by
  rw [toList_ofSlot]
  split
  · rename_i hletter
    simp [scan?, letter?_ofLetter hletter]
  · rename_i hsuffixed
    simp only [slotCount, letterCount] at h hsuffixed ⊢
    have hletter : (slot - 26) / 10 < letterCount := by
      simp only [letterCount]
      omega
    have hdigit : (slot - 26) % 10 < 10 := Nat.mod_lt _ (by decide)
    have hslot : 26 + (slot - 26) / 10 * 10 + (slot - 26) % 10 = slot := by omega
    simp [scan?, letter?_ofLetter hletter, digit?_digitChar hdigit, suffixedSlot, letterCount,
      hslot]

theorem ofSlot_mem_namePattern {slot : Nat} (h : slot < slotCount) :
    (ofSlot slot).toList ∈ namePattern := by
  obtain ⟨hmem, -⟩ := take_scan?_name (scan?_ofSlot h)
  rwa [List.take_length] at hmem

end Name

/-- The name with a slot is a lexeme that mentions the slot. -/
theorem spelled_name {slot : Nat} (h : slot < slotCount) :
    SpelledAs (Name.ofSlot slot).toList fun xs =>
      ∃ x, xs = [x] ∧ x.terminal = .NAME ∧ x.mention.slot = slot := by
  have hone : SpelledAs (Name.ofSlot slot).toList (IsOne .NAME (Name.ofSlot slot).toList) :=
    .one (Name.ofSlot_mem_namePattern h)
  apply hone.imp
  rintro _ ⟨x, rfl, hterminal, hchars⟩
  refine ⟨x, rfl, hterminal, ?_⟩
  apply mention_slot
  rw [hchars, Name.scan?_ofSlot h]

/-! ## Expressions -/

/-- The lexemes derive a phrase of the rank that means the expression. -/
def Grammar.Means (rank : Rank) (e : Expr) (xs : List Lexeme) : Prop :=
  ∃ p, DerivesPhrase rank xs p ∧ p.meaning = e

/-- The lexemes are an expression in brackets. -/
def Grammar.InBrackets (e : Expr) (xs : List Lexeme) : Prop :=
  ∃ x ys y, xs = x :: (ys ++ [y]) ∧ x.terminal = .symbol "(" ∧ y.terminal = .symbol ")" ∧
    Means .sum e ys

/-- The lexemes are a name with an expression in brackets. -/
def Grammar.Subscripted (letter : Nat) (e : Expr) (xs : List Lexeme) : Prop :=
  ∃ x ys, xs = x :: ys ∧ x.terminal = .NAME ∧ x.mention.slot = letter ∧ InBrackets e ys

/-- A phrase fits a place in which its rank needs no brackets. -/
theorem Grammar.Means.fits {place rank : Rank} {e : Expr} {xs : List Lexeme}
    (h : Means rank e xs) (hfits : place.needsBrackets rank = false) : Means place e xs := by
  obtain ⟨p, hp, hmeaning⟩ := h
  refine ⟨p, ?_, hmeaning⟩
  cases place with
  | sum =>
      cases rank with
      | sum => exact hp
      | product => exact .ofProduct hp
      | factor => exact .ofProduct (.ofFactor hp)
  | product =>
      cases rank with
      | sum => simp [Rank.needsBrackets] at hfits
      | product => exact hp
      | factor => exact .ofFactor hp
  | factor =>
      cases rank with
      | sum => simp [Rank.needsBrackets] at hfits
      | product => simp [Rank.needsBrackets] at hfits
      | factor => exact hp

theorem Grammar.InBrackets.means {e : Expr} {xs : List Lexeme} (h : InBrackets e xs) :
    Means .factor e xs := by
  obtain ⟨x, ys, y, rfl, hx, hy, p, hp, hmeaning⟩ := h
  exact ⟨p, .group hx hp hy, hmeaning⟩

theorem Grammar.Subscripted.means {letter : Nat} {e : Expr} {xs : List Lexeme}
    (h : Subscripted letter e xs) : Means .factor (.element letter e) xs := by
  obtain ⟨name, _, rfl, hname, rfl, x, ys, y, rfl, hx, hy, p, hp, rfl⟩ := h
  exact ⟨_, .element hname hx hp hy, rfl⟩

section Expressions

variable {gap text : List Char} (hgap : gap.all isGap = true) {rank : Rank} {e : Expr}
include hgap

theorem spelled_inBrackets (h : SpelledAs text (Means rank e)) :
    SpelledAs (inBrackets gap text) (InBrackets e) := by
  have hparts := (spelled_symbol "(").cons hgap (h.cons hgap (spelled_symbol ")").last)
  apply hparts.imp
  rintro _ ⟨_, _, rfl, ⟨x, rfl, hx, -⟩, ys, _, rfl, hys, y, rfl, hy, -⟩
  exact ⟨x, ys, y, rfl, hx, hy, hys.fits (by cases rank <;> rfl)⟩

/-- An operand is written so that it fits its place. -/
theorem spelled_inPlace (place : Rank) (h : SpelledAs text (Means rank e)) :
    SpelledAs (inPlace gap place rank text) (Means place e) := by
  unfold inPlace
  split
  · apply (spelled_inBrackets hgap h).imp
    intro xs hxs
    exact hxs.means.fits (by cases place <;> rfl)
  · rename_i hfits
    exact h.imp fun xs hxs => hxs.fits (Bool.eq_false_iff.mpr hfits)

theorem spelled_subscripted {letter : Nat} (hletter : letter < letterCount)
    (h : SpelledAs text (Means rank e)) :
    SpelledAs (subscripted gap letter text) (Subscripted letter e) := by
  have hslot : letter < slotCount := Nat.lt_of_lt_of_le hletter (by decide)
  have hparts := (spelled_name hslot).cons hgap (spelled_inBrackets hgap h).last
  apply hparts.imp
  rintro _ ⟨_, ys, rfl, ⟨x, rfl, hx, hmention⟩, hys⟩
  exact ⟨x, ys, rfl, hx, hmention, hys⟩

/-- A binary operation, its operands fit for their places. -/
theorem spelled_binary {left right : List Char} {a b : Expr} (op : Operator)
    (hleft : SpelledAs left (Means op.rank a)) (hright : SpelledAs right (Means op.rightRank b)) :
    SpelledAs (gap.intercalate [left, op.symbol.toList, right])
      (Means op.rank (.binary op a b)) := by
  have hparts := hleft.cons hgap ((spelled_symbol op.symbol).cons hgap hright.last)
  apply hparts.imp
  rintro _ ⟨xs, _, rfl, ⟨p, hp, rfl⟩, _, ys, rfl, ⟨x, rfl, hx, -⟩, q, hq, rfl⟩
  refine ⟨.binary op p q, ?_, rfl⟩
  cases op with
  | add => exact .sum (Or.inl rfl) hp hx hq
  | sub => exact .sum (Or.inr rfl) hp hx hq
  | mul => exact .product (Or.inl rfl) hp hx hq
  | div => exact .product (Or.inr rfl) hp hx hq

/-- The text of an expression means the expression, at its rank. -/
theorem spelled_expr (d : ExprDraft) (hproper : d.Proper) (hwf : d.expr.WellFormed) :
    SpelledAs (d.text gap) (Means d.rank d.expr) := by
  -- Over the draft: each operand means its expression at its own rank, and fits where it is put.
  induction d with
  | numeral digits =>
      have hone : SpelledAs digits (IsOne .NUMBER digits) := .one hproper
      apply hone.imp
      rintro _ ⟨x, rfl, hterminal, rfl⟩
      exact ⟨_, .numeral hterminal, rfl⟩
  | name slot =>
      apply (spelled_name hwf).imp
      rintro _ ⟨x, rfl, hterminal, rfl⟩
      exact ⟨_, .name hterminal, rfl⟩
  | element letter index ih =>
      obtain ⟨hletter, hindex⟩ := hwf
      exact (spelled_subscripted hgap hletter (ih hproper hindex)).imp fun xs hxs => hxs.means
  | signed sign operand ih =>
      have hoperand := spelled_inPlace hgap .factor (ih hproper hwf)
      have hparts := (spelled_symbol sign.symbol).cons hgap hoperand.last
      apply hparts.imp
      rintro _ ⟨_, ys, rfl, ⟨x, rfl, hx, -⟩, p, hp, hmeaning⟩
      refine ⟨.signed sign p, .signed hx hp, ?_⟩
      rw [Phrase.meaning, hmeaning, ExprDraft.expr]
  | binary op left right ihl ihr =>
      obtain ⟨hl, hr⟩ := hproper
      obtain ⟨hwl, hwr⟩ := hwf
      exact spelled_binary hgap op (spelled_inPlace hgap op.rank (ihl hl hwl))
        (spelled_inPlace hgap op.rightRank (ihr hr hwr))
  | bracketed operand ih =>
      exact (spelled_inBrackets hgap (ih hproper hwf)).imp fun xs hxs => hxs.means

/-- The text of an expression is an expression, whatever its rank. -/
theorem spelled_sum (d : ExprDraft) (hproper : d.Proper) (hwf : d.expr.WellFormed) :
    SpelledAs (d.text gap) (Means .sum d.expr) :=
  (spelled_expr hgap d hproper hwf).imp fun _ hxs => hxs.fits (by cases d.rank <;> rfl)

/-! ## Conditions and targets -/

theorem spelled_cond (d : CondDraft) (hproper : d.Proper) (hwf : d.cond.WellFormed) :
    SpelledAs (d.text gap) fun xs => ∃ c, DerivesClause xs c ∧ c.meaning = d.cond := by
  cases d with
  | nonzero operand =>
      apply (spelled_sum hgap operand hproper hwf).imp
      rintro xs ⟨p, hp, hmeaning⟩
      refine ⟨_, .nonzero hp, ?_⟩
      rw [Clause.meaning, hmeaning, CondDraft.cond]
  | compare relation left right =>
      have hleft := spelled_sum hgap left hproper.1 hwf.1
      have hright := spelled_sum hgap right hproper.2 hwf.2
      have hparts := hleft.cons hgap ((spelled_symbol relation.symbol).cons hgap hright.last)
      apply hparts.imp
      rintro _ ⟨xs, _, rfl, ⟨p, hp, hpm⟩, _, ys, rfl, ⟨x, rfl, hx, -⟩, q, hq, hqm⟩
      refine ⟨_, .compare hp hx hq, ?_⟩
      rw [Clause.meaning, hpm, hqm, CondDraft.cond]

theorem spelled_target (d : TargetDraft) (hproper : d.Proper) (hwf : d.target.WellFormed) :
    SpelledAs (d.text gap) fun xs => ∃ r, DerivesRecipient xs r ∧ r.meaning = d.target := by
  cases d with
  | scalar slot =>
      apply (spelled_name hwf).imp
      rintro _ ⟨x, rfl, hx, rfl⟩
      exact ⟨_, .scalar hx, rfl⟩
  | element letter index =>
      have hindex := spelled_sum hgap index hproper hwf.2
      apply (spelled_subscripted hgap hwf.1 hindex).imp
      rintro _ ⟨name, _, rfl, hname, rfl, x, ys, y, rfl, hx, hy, p, hp, hmeaning⟩
      refine ⟨_, .element hname hx hp hy, ?_⟩
      rw [Recipient.meaning, hmeaning, TargetDraft.target]

end Expressions

/-! ## Items -/

/-- Items are also added at the front. -/
theorem Grammar.DerivesItems.cons {xs ys : List Lexeme} {x : Lexeme} {item : Mention × Phrase}
    {items : List (Mention × Phrase)} (hitem : DerivesItem xs item)
    (hx : x.terminal = .symbol ",") (hitems : DerivesItems ys items) :
    DerivesItems (xs ++ x :: ys) (item :: items) := by
  induction hitems with
  | one hlast => exact .more (.one hitem) hx hlast
  | @more ys zs y items last hitems hy hlast ih =>
      have hlonger := DerivesItems.more ih hy hlast
      simpa using hlonger

/-- The lexemes are items of a `DIM` statement that mean the drafted ones. -/
def Grammar.MeansItems (items : List (Nat × ExprDraft)) (xs : List Lexeme) : Prop :=
  ∃ is, DerivesItems xs is ∧
    is.map (fun i => (i.1.slot, i.2.meaning)) = items.map fun i => (i.1, i.2.expr)

theorem Grammar.Subscripted.item {letter : Nat} {e : Expr} {xs : List Lexeme}
    (h : Subscripted letter e xs) :
    ∃ i, DerivesItem xs i ∧ (i.1.slot, i.2.meaning) = (letter, e) := by
  obtain ⟨name, _, rfl, hname, rfl, x, ys, y, rfl, hx, hy, p, hp, rfl⟩ := h
  exact ⟨_, .item hname hx hp hy, rfl⟩

/-- Items are taken off one by one, each with the comma behind it. -/
theorem itemsText_cons_cons (gap : List Char) (item next : Nat × ExprDraft)
    (rest : List (Nat × ExprDraft)) :
    itemsText gap (item :: next :: rest) =
      gap.intercalate [subscripted gap item.1 (item.2.text gap), ",".toList,
        itemsText gap (next :: rest)] := by
  cases rest with
  | nil => simp [itemsText, List.intercalate_cons_cons]
  | cons _ _ => simp [itemsText, List.intercalate_cons_cons]

theorem spelled_items {gap : List Char} (hgap : gap.all isGap = true)
    {items : List (Nat × ExprDraft)} (hne : items ≠ []) (hproper : ∀ item ∈ items, item.2.Proper)
    (hwf : ∀ item ∈ items, item.1 < letterCount ∧ item.2.expr.WellFormed) :
    SpelledAs (itemsText gap items) (MeansItems items) := by
  induction items with
  | nil => exact absurd rfl hne
  | cons item rest ih =>
      simp only [List.mem_cons, forall_eq_or_imp] at hproper hwf
      have hitem := spelled_subscripted hgap hwf.1.1 (spelled_sum hgap item.2 hproper.1 hwf.1.2)
      cases rest with
      | nil =>
          have hone : SpelledAs (itemsText gap [item]) (Subscripted item.1 item.2.expr) :=
            hitem.last
          apply hone.imp
          intro xs hxs
          obtain ⟨i, hi, hmeaning⟩ := hxs.item
          exact ⟨[i], .one hi, by simp [hmeaning]⟩
      | cons next more =>
          have hrest := ih (by simp) hproper.2 hwf.2
          have hparts := hitem.cons hgap ((spelled_symbol ",").cons hgap hrest.last)
          rw [itemsText_cons_cons]
          apply hparts.imp
          rintro _ ⟨xs, _, rfl, hxs, _, ys, rfl, ⟨x, rfl, hx, -⟩, is, his, hmeanings⟩
          obtain ⟨i, hi, hmeaning⟩ := hxs.item
          refine ⟨i :: is, .cons hi hx his, ?_⟩
          simp only [List.map_cons, hmeaning, hmeanings]

/-! ## Statements -/

/-- The line numbers that a statement refers to. -/
def Stmt.targets : Stmt → List Int
  | .goto line => [line]
  | .ifThen _ line => line.toList
  | _ => []

/-- The lexemes derive a sentence of the kind that means the statement and has the line numbers of
    the statement in decimal. -/
def Grammar.MeansStmt (kind : Kind) (stmt : Stmt) (xs : List Lexeme) : Prop :=
  ∃ s, Derives kind xs s ∧ s.meaning = stmt ∧
    s.lineNumbers = stmt.targets.map fun n => Nat.toDigits 10 n.toNat

/-- With the keyword of the kind before them, the lexemes mean the statement. -/
def Grammar.Completes (kind : Kind) (stmt : Stmt) (xs : List Lexeme) : Prop :=
  ∀ w : Lexeme, w.terminal = .word kind.name → MeansStmt kind stmt (w :: xs)

/-- A line number in decimal is an `INT`. -/
theorem spelled_lineNumber {n : Int} (h : 0 ≤ n) :
    SpelledAs (toString n).toList (IsOne .INT (Nat.toDigits 10 n.toNat)) := by
  rw [Text.toList_toString_int h]
  apply SpelledAs.one
  rw [Terminal.pattern, mem_digits]
  refine ⟨Nat.toDigits_ne_nil, fun c hc => ?_⟩
  exact Text.isDecimal_ascii (Text.isDigit_of_mem_toDigits hc)

theorem spelled_quoted {mark : Char} {content : List Char} (hmark : mark = '"' ∨ mark = '\'')
    (hcontent : mark ∉ content) :
    SpelledAs (mark :: (content ++ [mark])) fun xs =>
      ∃ x, xs = [x] ∧ x.terminal = .STRING ∧ x.content = content := by
  have hapart : ∀ c ∈ content, c ≠ mark := fun c hc heq => hcontent (heq ▸ hc)
  have hquoted : mark :: (content ++ [mark]) ∈ quotedPattern mark :=
    mem_quotedPattern.mpr ⟨content, hapart, Or.inr rfl⟩
  have hstring : mark :: (content ++ [mark]) ∈ Terminal.STRING.pattern := by
    rcases hmark with rfl | rfl
    · exact Or.inl hquoted
    · exact Or.inr hquoted
  apply (SpelledAs.one hstring).imp
  rintro _ ⟨x, rfl, hx, hchars⟩
  exact ⟨x, rfl, hx, content_eq hapart (Or.inr hchars)⟩

section Statements

variable {gap : List Char} (hgap : gap.all isGap = true)
include hgap

theorem spelled_assign {target : TargetDraft} {value : ExprDraft} (hproper : target.Proper)
    (hproper' : value.Proper) (hwf : target.target.WellFormed) (hwf' : value.expr.WellFormed) :
    SpelledAs (gap.intercalate [target.text gap, "=".toList, value.text gap])
      (Completes .LET (.assign target.target value.expr)) := by
  have htarget := spelled_target hgap target hproper hwf
  have hvalue := spelled_sum hgap value hproper' hwf'
  have hparts := htarget.cons hgap ((spelled_symbol "=").cons hgap hvalue.last)
  apply hparts.imp
  rintro _ ⟨xs, _, rfl, ⟨r, hr, hrm⟩, _, ys, rfl, ⟨x, rfl, hx, -⟩, p, hp, hpm⟩ w hw
  refine ⟨_, .letAssign hw hr hx hp, ?_, rfl⟩
  rw [Sentence.meaning, hrm, hpm]

theorem spelled_forTo {slot : Nat} {start limit : ExprDraft} {step : Option ExprDraft}
    (hproper : (StmtDraft.forTo slot start limit step).Proper)
    (hwf : (StmtDraft.forTo slot start limit step).stmt.WellFormed) {rest : List Char}
    (hrest : (StmtDraft.forTo slot start limit step).operands? gap = some rest) :
    SpelledAs rest (Completes .FOR (StmtDraft.forTo slot start limit step).stmt) := by
  obtain ⟨hps, hpl, hpt⟩ := hproper
  obtain ⟨hslot, hws, hwl, hwt⟩ := hwf
  have hname := spelled_name hslot
  have hstart := spelled_sum hgap start hps hws
  have hlimit := spelled_sum hgap limit hpl hwl
  cases step with
  | none =>
      obtain rfl := Option.some.inj hrest
      have hparts := hname.cons hgap ((spelled_symbol "=").cons hgap
        (hstart.cons hgap ((spelled_word "TO").cons hgap hlimit.last)))
      apply hparts.imp
      rintro _ ⟨_, _, rfl, ⟨n, rfl, hn, hnm⟩, _, _, rfl, ⟨x, rfl, hx, -⟩, xs, _, rfl, ⟨p, hp, hpm⟩,
        _, ys, rfl, ⟨y, rfl, hy, -⟩, q, hq, hqm⟩ w hw
      refine ⟨_, .forTo hw hn hx hp hy hq, ?_, rfl⟩
      rw [Sentence.meaning, hnm, hpm, hqm, Option.map_none]
      rfl
  | some step =>
      obtain rfl := Option.some.inj hrest
      have hstep := spelled_sum hgap step (hpt step rfl) (hwt step.expr rfl)
      have hparts := hname.cons hgap ((spelled_symbol "=").cons hgap
        (hstart.cons hgap ((spelled_word "TO").cons hgap
          (hlimit.cons hgap ((spelled_word "STEP").cons hgap hstep.last)))))
      apply hparts.imp
      rintro _ ⟨_, _, rfl, ⟨n, rfl, hn, hnm⟩, _, _, rfl, ⟨x, rfl, hx, -⟩, xs, _, rfl, ⟨p, hp, hpm⟩,
        _, _, rfl, ⟨y, rfl, hy, -⟩, ys, _, rfl, ⟨q, hq, hqm⟩, _, zs, rfl, ⟨z, rfl, hz, -⟩,
        r, hr, hrm⟩ w hw
      refine ⟨_, .forStep hw hn hx hp hy hq hz hr, ?_, rfl⟩
      rw [Sentence.meaning, hnm, hpm, hqm, Option.map_some, hrm]
      rfl

theorem spelled_ifThen {cond : CondDraft} {line : Option Int}
    (hproper : cond.Proper) (hwf : (StmtDraft.ifThen cond line).stmt.WellFormed) {rest : List Char}
    (hrest : (StmtDraft.ifThen cond line).operands? gap = some rest) :
    SpelledAs rest (Completes .IF (.ifThen cond.cond line)) := by
  obtain ⟨hwc, hwl⟩ := hwf
  have hcond := spelled_cond hgap cond hproper hwc
  cases line with
  | none =>
      obtain rfl := Option.some.inj hrest
      apply hcond.imp
      rintro xs ⟨c, hc, hcm⟩ w hw
      refine ⟨_, .ifTest hw hc, ?_, rfl⟩
      rw [Sentence.meaning, hcm, Option.map_none]
  | some line =>
      obtain rfl := Option.some.inj hrest
      have hline : 0 ≤ line := hwl line rfl
      have hparts := hcond.cons hgap
        ((spelled_word "THEN").cons hgap (spelled_lineNumber hline).last)
      apply hparts.imp
      rintro _ ⟨xs, _, rfl, ⟨c, hc, hcm⟩, _, _, rfl, ⟨x, rfl, hx, -⟩, y, rfl, hy, hchars⟩ w hw
      refine ⟨_, .ifThen hw hc hx hy, ?_, ?_⟩
      · rw [Sentence.meaning, hcm, hchars, Option.map_some, Text.decimalValue_toDigits,
          Int.toNat_of_nonneg hline]
      · rw [Sentence.lineNumbers, hchars]
        rfl

/-- What follows the keyword makes up the statement. -/
theorem spelled_operands (d : StmtDraft) (hproper : d.Proper) (hwf : d.stmt.WellFormed)
    {rest : List Char} (hrest : d.operands? gap = some rest) :
    SpelledAs rest (Completes d.kind d.stmt) := by
  cases d with
  | assign target value =>
      obtain rfl := Option.some.inj hrest
      exact spelled_assign hgap hproper.1 hproper.2 hwf.1 hwf.2
  | dim items =>
      obtain rfl := Option.some.inj hrest
      obtain ⟨hne, hwf⟩ := hwf
      have hitems := spelled_items hgap (by simpa using hne) hproper (List.forall_mem_map.mp hwf)
      apply hitems.imp
      rintro xs ⟨is, his, hmeaning⟩ w hw
      refine ⟨_, .dim hw his, ?_, rfl⟩
      rw [Sentence.meaning, hmeaning]
      rfl
  | forTo slot start limit step => exact spelled_forTo hgap hproper hwf hrest
  | next slot =>
      obtain ⟨slot, rfl, rfl⟩ := Option.map_eq_some_iff.mp hrest
      apply (spelled_name (hwf slot rfl)).imp
      rintro _ ⟨x, rfl, hx, rfl⟩ w hw
      exact ⟨_, .nextName hw hx, rfl, rfl⟩
  | printText mark content =>
      obtain rfl := Option.some.inj hrest
      apply (spelled_quoted hproper.1 hproper.2).imp
      rintro _ ⟨x, rfl, hx, rfl⟩ w hw
      exact ⟨_, .printText hw hx, rfl, rfl⟩
  | print value =>
      obtain ⟨value, rfl, rfl⟩ := Option.map_eq_some_iff.mp hrest
      apply (spelled_sum hgap value (hproper value rfl) (hwf value.expr rfl)).imp
      rintro xs ⟨p, hp, hpm⟩ w hw
      refine ⟨_, .print hw hp, ?_, rfl⟩
      rw [Sentence.meaning, Option.map_some, hpm]
      rfl
  | goto line =>
      obtain rfl := Option.some.inj hrest
      apply (spelled_lineNumber hwf).imp
      rintro _ ⟨x, rfl, hx, hchars⟩ w hw
      refine ⟨_, .goto hw hx, ?_, ?_⟩
      · rw [Sentence.meaning, hchars, Text.decimalValue_toDigits, Int.toNat_of_nonneg hwf]
        rfl
      · rw [Sentence.lineNumbers, hchars]
        rfl
  | ifThen cond line => exact spelled_ifThen hgap hproper hwf hrest
  | stop => simp [StmtDraft.operands?] at hrest

/-- The text of a statement means the statement. `END` has no rule. -/
theorem spelled_stmt (d : StmtDraft) (hstop : d ≠ .stop) (hproper : d.Proper)
    (hwf : d.stmt.WellFormed) : SpelledAs (d.text gap) (MeansStmt d.kind d.stmt) := by
  have hkind : d.kind ≠ .ASSIGN := by cases d <;> simp [StmtDraft.kind]
  have hkeyword : SpelledAs d.kind.keyword (IsOne (.word d.kind.name) d.kind.keyword) := by
    rw [keyword_eq hkind]
    exact spelled_word d.kind.name
  unfold StmtDraft.text
  split
  · -- Nothing follows: the statement is a bare `NEXT` or `PRINT`.
    rename_i hnone
    apply hkeyword.imp
    rintro _ ⟨w, rfl, hw, -⟩
    cases d with
    | next slot =>
        obtain rfl := Option.map_eq_none_iff.mp hnone
        exact ⟨_, .next hw, rfl, rfl⟩
    | print value =>
        obtain rfl := Option.map_eq_none_iff.mp hnone
        exact ⟨_, .printNothing hw, rfl, rfl⟩
    | forTo _ _ _ step => cases step <;> simp [StmtDraft.operands?] at hnone
    | ifThen _ line => cases line <;> simp [StmtDraft.operands?] at hnone
    | stop => exact absurd rfl hstop
    | _ => simp [StmtDraft.operands?] at hnone
  · rename_i rest hrest
    have hspace : (' ' :: gap).all isGap = true := by
      rw [List.all_cons, hgap]
      rfl
    have hoperands := (spelled_operands hgap d hproper hwf hrest).gap_append hspace
    apply (hkeyword.append hoperands).imp
    rintro _ ⟨_, ys, rfl, ⟨w, rfl, hw, -⟩, hcompletes⟩
    exact hcompletes w hw

end Statements

end LineBasic
