/-
  LineBasic.Proofs.Stmt.RoundTrip

  The text of a drafted statement parses as the statement, unless one of its line numbers is too
  long to be read.

  The text opens with its own keyword and no other, it has no blank at its ends, and the grammar
  derives from it a sentence that means the statement; the reader finds this sentence. What is left
  is resolving it: the names are bare letters where they have to be because the statement is well
  formed, the depth is that of the statement since brackets leave no trace, and the line numbers are
  read when they are short enough.
-/
import LineBasic.Proofs.Grammar.Solid
import LineBasic.Proofs.Stmt.Acceptance
import LineBasic.Proofs.Stmt.Parsing
import LineBasic.Proofs.Stmt.Writing
import Mathlib.Algebra.Ring.Int.Defs

namespace LineBasic

open Grammar Text

/-! ## Depth -/

/-- How many levels an expression has below it. -/
def Expr.depth : Expr → Nat
  | .num _ => 0
  | .var _ => 0
  | .element _ index => index.depth + 1
  | .signed _ operand => operand.depth + 1
  | .binary _ left right => max left.depth right.depth + 1
  | .unknownBinary left right => max left.depth right.depth + 1
  | .unknown => 0

/-- The expressions that a condition compares. -/
def Cond.exprs : Cond → List Expr
  | .nonzero operand => [operand]
  | .compare _ left right => [left, right]
  | .unknown _ left right => [left, right]

def Target.exprs : Target → List Expr
  | .scalar _ => []
  | .element _ index => [index]

/-- The outermost expressions of a statement. -/
def Stmt.exprs : Stmt → List Expr
  | .assign target value => target.exprs ++ [value]
  | .dim items => items.map (·.2)
  | .forTo _ start limit step => start :: limit :: step.toList
  | .print value => value.toList
  | .ifThen cond _ => cond.exprs
  | _ => []

@[simp] theorem Phrase.depth_meaning (p : Phrase) : p.meaning.depth = p.depth := by
  induction p with
  | numeral _ => rfl
  | name _ => rfl
  | element _ _ ih => rw [meaning, Expr.depth, depth, ih]
  | signed _ _ ih => rw [meaning, Expr.depth, depth, ih]
  | binary _ _ _ ihl ihr => rw [meaning, Expr.depth, depth, ihl, ihr]

theorem Sentence.exprs_meaning (s : Sentence) : s.meaning.exprs = s.phrases.map Phrase.meaning := by
  cases s with
  | assign recipient value => cases recipient <;> rfl
  | dim items => simp [meaning, Stmt.exprs, phrases]
  | forTo mention start limit step => cases step <;> rfl
  | print value => cases value <;> rfl
  | ifThen clause digits => cases clause <;> rfl
  | _ => rfl

/-! ## Resolving what means a well-formed statement -/

theorem Phrase.bare_of_wellFormed {p : Phrase} (h : p.meaning.WellFormed) :
    ∀ m ∈ p.arrays, m.slot < letterCount := by
  induction p with
  | numeral _ => simp [arrays]
  | name _ => simp [arrays]
  | element mention index ih => simpa [arrays] using ⟨h.1, ih h.2⟩
  | signed sign operand ih => exact ih h
  | binary op left right ihl ihr =>
      simp only [arrays, List.mem_append, or_imp, forall_and]
      exact ⟨ihl h.1, ihr h.2⟩

/-- The expressions of a well-formed statement are well formed. -/
theorem Stmt.WellFormed.exprs {stmt : Stmt} (h : stmt.WellFormed) :
    ∀ e ∈ stmt.exprs, e.WellFormed := by
  cases stmt with
  | assign target value =>
      cases target with
      | scalar _ => simpa [Stmt.exprs, Target.exprs] using h.2
      | element _ _ => simpa [Stmt.exprs, Target.exprs] using ⟨h.1.2, h.2⟩
  | dim items =>
      rw [Stmt.exprs, List.forall_mem_map]
      exact fun item hitem => (h.2 item hitem).2
  | forTo slot start limit step =>
      simpa [Stmt.exprs] using ⟨h.2.1, h.2.2.1, h.2.2.2⟩
  | print value => simpa [Stmt.exprs, Stmt.WellFormed] using h
  | ifThen cond line =>
      cases cond with
      | nonzero _ => simpa [Stmt.exprs, Cond.exprs, Cond.WellFormed] using h.1
      | compare _ _ _ => simpa [Stmt.exprs, Cond.exprs, Cond.WellFormed] using h.1
      | unknown _ _ _ => exact absurd h.1 id
  | _ => simp [Stmt.exprs]

theorem Stmt.WellFormed.targets_nonneg {stmt : Stmt} (h : stmt.WellFormed) :
    ∀ n ∈ stmt.targets, 0 ≤ n := by
  cases stmt with
  | goto line => simpa [targets, Stmt.WellFormed] using h
  | ifThen cond line => simpa [targets] using h.2
  | _ => simp [targets]

/-- The arrays that a sentence itself names are letters of the statement that it means. -/
theorem Sentence.ownArrays_of_wellFormed {s : Sentence} (h : s.meaning.WellFormed) :
    ∀ m ∈ s.ownArrays, m.slot < letterCount := by
  cases s with
  | assign recipient value =>
      cases recipient with
      | scalar _ => simp [ownArrays, Recipient.arrays]
      | element _ _ => simpa [ownArrays, Recipient.arrays] using h.1.1
  | dim items =>
      rw [ownArrays, List.forall_mem_map]
      exact fun item hitem => (h.2 _ (List.mem_map_of_mem hitem)).1
  | _ => simp [ownArrays]

/-- A sentence that means a well-formed statement resolves when the statement is not too deep and
    the line numbers can be read. -/
theorem Sentence.resolvable_iff_of_wellFormed {s : Sentence} (h : s.meaning.WellFormed) :
    s.Resolvable ↔
      (∀ e ∈ s.meaning.exprs, e.depth ≤ maxNesting) ∧
        ∀ digits ∈ s.lineNumbers, Readable digits := by
  have hwf := h.exprs
  rw [exprs_meaning, List.forall_mem_map] at hwf ⊢
  simp only [Phrase.depth_meaning]
  rw [resolvable_iff]
  refine ⟨?_, ?_⟩
  · rintro ⟨-, hphrases, hreadable⟩
    exact ⟨fun p hp => (hphrases p hp).1, hreadable⟩
  · rintro ⟨hdepth, hreadable⟩
    refine ⟨ownArrays_of_wellFormed h, fun p hp => ?_, hreadable⟩
    exact ⟨hdepth p hp, Phrase.bare_of_wellFormed (hwf p hp)⟩

/-! ## The ends of the text -/

namespace Text.EndsSolid

variable {text gap : List Char}

theorem last (h : EndsSolid text) : EndsSolid (gap.intercalate [text]) := by
  rwa [List.intercalate_singleton]

theorem cons {next : List Char} {parts : List (List Char)}
    (h : EndsSolid (gap.intercalate (next :: parts))) :
    EndsSolid (gap.intercalate (text :: next :: parts)) := by
  rw [List.intercalate_cons_cons]
  exact h.append

end Text.EndsSolid

theorem Name.endsSolid_ofSlot {slot : Nat} (h : slot < slotCount) :
    EndsSolid (ofSlot slot).toList := by
  have hname := ofSlot_mem_namePattern h
  obtain ⟨c, -, hs | ⟨d, -, hs⟩⟩ := mem_namePattern.mp hname
  · exact .of_forall (by simp [hs]) (isBlank_of_mem_name hname)
  · exact .of_forall (by simp [hs]) (isBlank_of_mem_name hname)

namespace Text.EndsSolid

theorem inBrackets (gap text : List Char) : EndsSolid (inBrackets gap text) :=
  .cons (.cons (.last ⟨')', rfl, rfl⟩))

theorem subscripted (gap : List Char) (letter : Nat) (text : List Char) :
    EndsSolid (subscripted gap letter text) :=
  .cons (.last (.inBrackets gap text))

theorem inPlace {gap text : List Char} (place rank : Rank) (h : EndsSolid text) :
    EndsSolid (inPlace gap place rank text) := by
  unfold LineBasic.inPlace
  split
  · exact .inBrackets gap text
  · exact h

theorem expr (gap : List Char) {d : ExprDraft} (hproper : d.Proper) (hwf : d.expr.WellFormed) :
    EndsSolid (d.text gap) := by
  induction d with
  | numeral digits =>
      exact .of_forall (ne_nil_of_mem_number hproper) (isBlank_of_mem_number hproper)
  | name slot => exact Name.endsSolid_ofSlot hwf
  | element letter index _ => exact .subscripted gap letter _
  | signed sign operand ih => exact .cons (.last ((ih hproper hwf).inPlace _ _))
  | binary op left right _ ihr => exact .cons (.cons (.last ((ihr hproper.2 hwf.2).inPlace _ _)))
  | bracketed operand _ => exact .inBrackets gap _

theorem cond (gap : List Char) {d : CondDraft} (hproper : d.Proper) (hwf : d.cond.WellFormed) :
    EndsSolid (d.text gap) := by
  cases d with
  | nonzero operand => exact .expr gap hproper hwf
  | compare relation left right => exact .cons (.cons (.last (.expr gap hproper.2 hwf.2)))

theorem items (gap : List Char) {items : List (Nat × ExprDraft)} (hne : items ≠ []) :
    EndsSolid (itemsText gap items) := by
  induction items with
  | nil => exact absurd rfl hne
  | cons item rest ih =>
      cases rest with
      | nil => exact .last (.subscripted gap item.1 _)
      | cons next more =>
          rw [itemsText_cons_cons]
          exact .cons (.cons (.last (ih (by simp))))

theorem lineNumber {n : Int} (h : 0 ≤ n) : EndsSolid (toString n).toList := by
  rw [toList_toString_int h]
  exact .of_forall Nat.toDigits_ne_nil fun c => isBlank_of_mem_toDigits

end Text.EndsSolid

/-- No character of a keyword is a blank. -/
theorem Kind.isBlank_of_mem_keyword {kind : Kind} {c : Char} (h : c ∈ kind.keyword) :
    isBlank c = false := by
  have hall : kind.keyword.all (!isBlank ·) = true := by cases kind <;> decide
  simpa using List.all_eq_true.mp hall c h

/-- A text that opens with a keyword is of its kind: keywords differ in their first letter. -/
theorem Kind.ofText_keyword_append {kind : Kind} (hkind : kind ≠ .ASSIGN) {rest : List Char}
    (hrest : kind.mayFollow rest = true) : ofText (kind.keyword ++ rest) = kind := by
  have hopens : kind.opens (kind.keyword ++ rest) = true := by
    have hword := mem_wordPattern.mp (mem_pattern_word kind.name)
    rw [← keyword_eq hkind] at hword
    rw [opens, afterWord?_append rest hword, Option.any_some, hrest]
  have hother : ∀ other ∈ opened, other ≠ kind → other.opens (kind.keyword ++ rest) = false := by
    intro other hother hne
    cases kind <;> cases other <;> first | contradiction | rfl
  have hmem : kind ∈ opened := by cases kind <;> first | contradiction | decide
  unfold ofText
  cases hfind : opened.find? (·.opens (kind.keyword ++ rest)) with
  | none => exact absurd hopens (List.find?_eq_none.mp hfind kind hmem)
  | some found =>
      by_contra hne
      have hfalse := hother found (List.mem_of_find?_eq_some hfind) hne
      exact absurd (List.find?_some hfind) (Bool.eq_false_iff.mp hfalse)

namespace StmtDraft

theorem kind_ne_assign (d : StmtDraft) : d.kind ≠ .ASSIGN := by
  cases d <;> simp [kind]

theorem keyword_ne_nil (d : StmtDraft) : d.kind.keyword ≠ [] := by
  cases d <;> simp [kind, Kind.keyword, Kind.name]

/-- The text is the keyword with something behind it that lets the keyword stand. -/
theorem exists_text_eq (gap : List Char) (d : StmtDraft) :
    ∃ rest, d.text gap = d.kind.keyword ++ rest ∧ d.kind.mayFollow rest = true := by
  unfold text
  split
  · rename_i hnone
    refine ⟨[], (List.append_nil _).symm, ?_⟩
    -- Of the statements only `NEXT`, `PRINT` and `END` can be a bare keyword.
    cases d with
    | next _ => rfl
    | print _ => rfl
    | stop => rfl
    | forTo _ _ _ step => cases step <;> simp [operands?] at hnone
    | ifThen _ line => cases line <;> simp [operands?] at hnone
    | _ => simp [operands?] at hnone
  · refine ⟨_, rfl, ?_⟩
    cases d <;> rfl

/-- The text opens with its keyword, and with no other. -/
theorem ofText_text (gap : List Char) (d : StmtDraft) : Kind.ofText (d.text gap) = d.kind := by
  obtain ⟨rest, htext, hrest⟩ := exists_text_eq gap d
  rw [htext]
  exact Kind.ofText_keyword_append d.kind_ne_assign hrest

section Trimmed

variable {gap : List Char} {d : StmtDraft} (hproper : d.Proper) (hwf : d.stmt.WellFormed)
include hproper hwf

theorem endsSolid_operands {rest : List Char} (hrest : d.operands? gap = some rest) :
    EndsSolid rest := by
  cases d with
  | assign target value =>
      obtain rfl := Option.some.inj hrest
      exact .cons (.cons (.last (.expr gap hproper.2 hwf.2)))
  | dim items =>
      obtain rfl := Option.some.inj hrest
      exact .items gap (by simpa using hwf.1)
  | forTo slot start limit step =>
      cases step with
      | none =>
          obtain rfl := Option.some.inj hrest
          exact .cons (.cons (.cons (.cons (.last (.expr gap hproper.2.1 hwf.2.2.1)))))
      | some step =>
          obtain rfl := Option.some.inj hrest
          have hstep : EndsSolid (step.text gap) :=
            .expr gap (hproper.2.2 step rfl) (hwf.2.2.2 step.expr rfl)
          exact .cons (.cons (.cons (.cons (.cons (.cons (.last hstep))))))
  | next slot =>
      obtain ⟨slot, rfl, rfl⟩ := Option.map_eq_some_iff.mp hrest
      exact Name.endsSolid_ofSlot (hwf slot rfl)
  | printText mark content =>
      obtain rfl := Option.some.inj hrest
      have hmark : isBlank mark = false := by rcases hproper.1 with rfl | rfl <;> rfl
      rw [← List.cons_append]
      exact .append ⟨mark, rfl, hmark⟩
  | print value =>
      obtain ⟨value, rfl, rfl⟩ := Option.map_eq_some_iff.mp hrest
      exact .expr gap (hproper value rfl) (hwf value.expr rfl)
  | goto line =>
      obtain rfl := Option.some.inj hrest
      exact .lineNumber hwf
  | ifThen cond line =>
      cases line with
      | none =>
          obtain rfl := Option.some.inj hrest
          exact .cond gap hproper hwf.1
      | some line =>
          obtain rfl := Option.some.inj hrest
          exact .cons (.cons (.last (.lineNumber (hwf.2 line rfl))))
  | stop => simp [operands?] at hrest

theorem endsSolid_text : EndsSolid (d.text gap) := by
  unfold text
  split
  · exact .of_forall (keyword_ne_nil d) fun c => Kind.isBlank_of_mem_keyword
  · rename_i rest hrest
    have hspaced : EndsSolid (' ' :: (gap ++ rest)) := by
      rw [← List.cons_append]
      exact (endsSolid_operands hproper hwf hrest).append
    exact hspaced.append

theorem trim_text : trim (d.text gap) = d.text gap := by
  have hends : EndsSolid (d.text gap) := endsSolid_text hproper hwf
  apply hends.trim_eq_self
  intro c hc
  obtain ⟨rest, htext, -⟩ := exists_text_eq gap d
  rw [htext, List.head?_append_of_ne_nil _ d.keyword_ne_nil] at hc
  exact Kind.isBlank_of_mem_keyword (List.mem_of_mem_head? hc)

end Trimmed

/-! ## Parsing the text -/

/-- Parsing the text of a statement resolves a sentence that means the statement. -/
theorem exists_parse_text {gap : List Char} (hgap : gap.all isGap = true) {d : StmtDraft}
    (hstop : d ≠ .stop) (hproper : d.Proper) (hwf : d.stmt.WellFormed) :
    ∃ s : Sentence, Stmt.parse (d.text gap) = s.resolve ∧ s.meaning = d.stmt ∧
      s.lineNumbers = d.stmt.targets.map fun n => Nat.toDigits 10 n.toNat := by
  obtain ⟨xs, hspells, s, hderives, hmeaning, hlines⟩ := spelled_stmt hgap d hstop hproper hwf 0
  have htrim : trim (d.text gap) = d.text gap := trim_text hproper hwf
  have hlast : ∀ c ∈ (d.text gap).getLast?, isGap c = false := by
    rw [← htrim]
    exact isGap_getLast?_trim
  have hread := (read_eq_ok_iff hlast).mpr ⟨xs, hspells, hderives⟩
  refine ⟨s, ?_, hmeaning, hlines⟩
  have hend : d.kind ≠ .END := by cases d <;> simp_all [kind]
  rw [Stmt.parse, htrim, ofText_text]
  exact Stmt.parseAs_of_read hend (by rwa [htrim])

theorem text_goto (n : Nat) : (goto n).text [] = "GOTO ".toList ++ Nat.toDigits 10 n := by
  have hnumber : (toString (n : Int)).toList = Nat.toDigits 10 n :=
    toList_toString_int (Int.natCast_nonneg n)
  rw [text, operands?]
  simp only [hnumber, List.nil_append]
  simp [kind, Kind.keyword, Kind.name]

/-- A jump to a line number that is too long is refused for it. -/
theorem parse_goto_of_le {n : Nat} (hn : 10 ^ maxDigits ≤ n) :
    Stmt.parse ((goto n).text []) =
      .error (.target .GOTO (.tooLong (Nat.toDigits 10 n).length)) := by
  have hproper : (goto n).Proper := trivial
  have hwf : (goto n).stmt.WellFormed := Int.natCast_nonneg n
  have hgap : ([] : List Char).all isGap = true := rfl
  obtain ⟨s, hparse, hmeaning, hlines⟩ := exists_parse_text hgap (by simp) hproper hwf
  rw [hparse]
  cases s with
  | goto digits =>
      obtain rfl : digits = Nat.toDigits 10 n := by
        simpa [Sentence.lineNumbers, stmt, Stmt.targets] using hlines
      rw [Sentence.resolve, resolveLine, readNatural_toDigits_of_le hn]
      rfl
  | _ => simp [Sentence.meaning, stmt] at hmeaning

/-- The text of a well-formed statement of allowed depth parses as the statement exactly when the
    line numbers that it refers to are short enough to be read. -/
theorem parse_text_iff (gap : List Char) (hgap : gap.all isGap = true) (d : StmtDraft)
    (hproper : d.Proper) (hwf : d.stmt.WellFormed)
    (hdepth : ∀ e ∈ d.stmt.exprs, e.depth ≤ maxNesting) :
    Stmt.parse (d.text gap) = .ok d.stmt ↔ ∀ n ∈ d.stmt.targets, n < 10 ^ maxDigits := by
  by_cases hstop : d = .stop
  · -- `END` is a statement whatever follows, without being read.
    subst hstop
    simp only [stmt, Stmt.targets, List.not_mem_nil, false_imp_iff, implies_true, iff_true]
    rfl
  · obtain ⟨s, hparse, hmeaning, hlines⟩ := exists_parse_text hgap hstop hproper hwf
    have hreadable : (∀ digits ∈ s.lineNumbers, Readable digits) ↔
        ∀ n ∈ d.stmt.targets, n < 10 ^ maxDigits := by
      rw [hlines, List.forall_mem_map]
      refine forall₂_congr fun n hn => ?_
      rw [readable_toDigits_iff, Int.toNat_lt (hwf.targets_nonneg n hn), Int.natCast_pow]
      rfl
    rw [← hmeaning] at hwf hdepth
    rw [hparse, Sentence.resolve_eq_ok_iff, Sentence.resolvable_iff_of_wellFormed hwf, hreadable]
    exact ⟨fun h => h.1.2, fun h => ⟨⟨hdepth, h⟩, hmeaning⟩⟩

theorem parse_text_iff_brackets :
    Stmt.parse "IF (A)*(2-B(B1))<=-(A+B)THEN70".toList =
      .ok (.ifThen (.compare .le
        (.binary .mul (.var 0)
          (.binary .sub (.num (Number.numeralValue ['2'])) (.element 1 (.var 37))))
        (.signed .minus (.binary .add (.var 0) (.var 1)))) (some 70)) := by
  have hdigit : ['2'] ∈ digits :=
    mem_digits.mpr ⟨List.cons_ne_nil _ _, List.forall_mem_singleton.mpr (by decide)⟩
  have htwo : ['2'] ∈ numberPattern :=
    Language.mem_mul.mpr ⟨['2'], mem_mantissaPattern.mpr (Or.inl hdigit), [],
      mem_optional.mpr (Or.inl rfl), rfl⟩
  have hshort : (70 : Int) < 10 ^ maxDigits :=
    calc (70 : Int) < 10 ^ 2 := by decide
      _ < 10 ^ maxDigits := Int.pow_lt_pow_of_lt (by decide) (by decide)
  refine (parse_text_iff [] rfl (.ifThen (.compare .le
    (.binary .mul (.bracketed (.name 0)) (.binary .sub (.numeral ['2']) (.element 1 (.name 37))))
    (.signed .minus (.binary .add (.name 0) (.name 1)))) (some 70)) ?_ ?_ ?_).mpr ?_
  · exact ⟨⟨trivial, htwo, trivial⟩, trivial, trivial⟩
  · decide
  · decide
  · simpa [stmt, Stmt.targets] using hshort

/-- The least line number that is too long. -/
theorem parse_goto_too_long :
    (goto (10 ^ maxDigits : Nat)).Proper ∧ (goto (10 ^ maxDigits : Nat)).stmt.WellFormed ∧
      (goto (10 ^ maxDigits : Nat)).stmt.exprs = [] ∧
      Stmt.parse ((goto (10 ^ maxDigits : Nat)).text []) ≠
        .ok (goto (10 ^ maxDigits : Nat)).stmt := by
  have hrefused : ∀ {n : Nat}, 10 ^ maxDigits ≤ n →
      Stmt.parse ((goto n).text []) ≠ .ok (goto n).stmt := by
    intro n hn
    rw [parse_goto_of_le hn]
    simp
  exact ⟨trivial, Int.natCast_nonneg _, rfl, hrefused (Nat.le_refl _)⟩

end StmtDraft

end LineBasic
