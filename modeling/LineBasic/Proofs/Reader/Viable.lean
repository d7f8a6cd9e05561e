/-
  LineBasic.Proofs.Reader.Viable

  What a reader state knows about the lexemes before it. `Viable kind xs σ` says that the lexemes
  `xs` begin a sentence of the kind, and that the state holds exactly the parts of the derivation
  that are complete: the operands of sums and products that wait for the other side, the signs, the
  brackets that are open, and the part of the statement before the expression.

  Each step keeps this (`Viable.step`), so a run keeps it, and where a run may end the lexemes are a
  sentence (`derives_of_accepts`): the reader accepts nothing that the grammar does not derive.
-/
import LineBasic.Proofs.Grammar.Derivation
import LineBasic.Proofs.Reader.Run

namespace LineBasic.Grammar

/-! ## Unfinished expressions -/

/-- The lexemes are the signs, the last one first in the list of signs. -/
inductive ViableSigns : List Lexeme → List Sign → Prop
  | nil : ViableSigns [] []
  | snoc {xs : List Lexeme} {x : Lexeme} {sign : Sign} {signs : List Sign}
      (hxs : ViableSigns xs signs) (hx : x.terminal = .symbol sign.symbol) :
      ViableSigns (xs ++ [x]) (sign :: signs)

/-- The lexemes are a left operand of the rank and the operator behind it, or nothing. -/
inductive ViablePending (rank : Rank) (ops : List Operator) :
    List Lexeme → Option (Phrase × Operator) → Prop
  | none : ViablePending rank ops [] none
  | some {xs : List Lexeme} {x : Lexeme} {e : Phrase} {op : Operator}
      (he : DerivesPhrase rank xs e) (hop : op ∈ ops) (hx : x.terminal = .symbol op.symbol) :
      ViablePending rank ops (xs ++ [x]) (some (e, op))

/-- The lexemes are what one level of brackets holds so far. -/
inductive ViableLevel : List Lexeme → Level → Prop
  | level {xs ys zs : List Lexeme} {l : Level}
      (hsum : ViablePending .sum [.add, .sub] xs l.sum)
      (hproduct : ViablePending .product [.mul, .div] ys l.product)
      (hsigns : ViableSigns zs l.signs) : ViableLevel (xs ++ ys ++ zs) l

/-- The lexemes lead to the innermost open bracket. -/
inductive ViableOuter : List Lexeme → List (Level × Bracket) → Prop
  | nil : ViableOuter [] []
  | group {xs ys : List Lexeme} {x : Lexeme} {l : Level} {outer : List (Level × Bracket)}
      (hxs : ViableOuter xs outer) (hys : ViableLevel ys l) (hx : x.terminal = .symbol "(") :
      ViableOuter (xs ++ ys ++ [x]) ((l, .group) :: outer)
  | subscript {xs ys : List Lexeme} {name x : Lexeme} {l : Level}
      {outer : List (Level × Bracket)} (hxs : ViableOuter xs outer) (hys : ViableLevel ys l)
      (hname : name.terminal = .NAME) (hx : x.terminal = .symbol "(") :
      ViableOuter (xs ++ ys ++ [name, x]) ((l, .subscript name.mention) :: outer)

/-- The lexemes are what is read of an unfinished expression. -/
inductive ViableUnfinished : List Lexeme → Unfinished → Prop
  | unfinished {xs ys : List Lexeme} {u : Unfinished} (houter : ViableOuter xs u.outer)
      (hlevel : ViableLevel ys u.level) : ViableUnfinished (xs ++ ys) u

theorem ViableSigns.factor {xs ys : List Lexeme} {signs : List Sign} {e : Phrase}
    (hxs : ViableSigns xs signs) (hys : DerivesPhrase .factor ys e) :
    DerivesPhrase .factor (xs ++ ys) (signs.foldl (fun e sign => .signed sign e) e) := by
  induction hxs generalizing ys e with
  | nil => exact hys
  | snoc _ hx ih =>
      -- The last sign stands next to the operand, so it is the first to be applied.
      rw [List.append_assoc, List.foldl_cons]
      exact ih (.signed hx hys)

/-- The operator of a sum waits for a product, and the operator of a product for a factor. -/
theorem ViableLevel.term {xs : List Lexeme} {l : Level} (hxs : ViableLevel xs l) :
    ∃ as bs, xs = as ++ bs ∧ ViablePending .sum [.add, .sub] as l.sum ∧
      ∀ {ys e}, DerivesPhrase .factor ys e → DerivesPhrase .product (bs ++ ys) (l.term e) := by
  obtain ⟨hsum, hproduct, hsigns⟩ := hxs
  rename_i as bs cs
  refine ⟨as, bs ++ cs, by simp, hsum, ?_⟩
  intro ys e he
  have hfactor := hsigns.factor he
  -- What is left is whether a product waits for this factor.
  obtain ⟨sum, product, signs⟩ := l
  cases hproduct with
  | none => exact .ofFactor hfactor
  | some ha hop hx =>
      have h := DerivesPhrase.product (by simpa using hop) ha hx hfactor
      simpa [Level.term, Level.factor] using h

theorem ViableLevel.total {xs ys : List Lexeme} {l : Level} {e : Phrase}
    (hxs : ViableLevel xs l) (hys : DerivesPhrase .factor ys e) :
    DerivesPhrase .sum (xs ++ ys) (l.total e) := by
  obtain ⟨as, bs, rfl, hsum, hterm⟩ := hxs.term
  have hproduct := hterm hys
  obtain ⟨sum, product, signs⟩ := l
  cases hsum with
  | none => exact .ofProduct hproduct
  | some ha hop hx =>
      have h := DerivesPhrase.sum (by simpa using hop) ha hx hproduct
      simpa [Level.total] using h

theorem ViableLevel.empty : ViableLevel [] {} := by
  simpa using ViableLevel.level (l := {}) .none .none .nil

theorem ViableLevel.sign {xs : List Lexeme} {l : Level} {x : Lexeme} {sign : Sign}
    (hxs : ViableLevel xs l) (hx : x.terminal = .symbol sign.symbol) :
    ViableLevel (xs ++ [x]) { l with signs := sign :: l.signs } := by
  obtain ⟨hsum, hproduct, hsigns⟩ := hxs
  rw [List.append_assoc]
  exact ViableLevel.level (l := { l with signs := sign :: l.signs }) hsum hproduct
    (hsigns.snoc hx)

theorem ViableLevel.join {xs ys : List Lexeme} {l : Level} {e : Phrase} {x : Lexeme}
    {op : Operator} (hxs : ViableLevel xs l) (hys : DerivesPhrase .factor ys e)
    (hx : x.terminal = .symbol op.symbol) : ViableLevel (xs ++ ys ++ [x]) (l.join e op) := by
  have htotal := hxs.total hys
  obtain ⟨as, bs, rfl, hsum, hterm⟩ := hxs.term
  have hproduct := hterm hys
  have hadd : op = .add ∨ op = .sub ∨ op = .mul ∨ op = .div := by cases op <;> simp
  -- A plus or minus completes all that waits on the level, a times or divide only the product.
  rcases hadd with rfl | rfl | rfl | rfl
  · simpa using ViableLevel.level (l := l.join e .add) (.some htotal (by simp) hx) .none .nil
  · simpa using ViableLevel.level (l := l.join e .sub) (.some htotal (by simp) hx) .none .nil
  · simpa using ViableLevel.level (l := l.join e .mul) hsum (.some hproduct (by simp) hx) .nil
  · simpa using ViableLevel.level (l := l.join e .div) hsum (.some hproduct (by simp) hx) .nil

/-! ## Statements -/

/-- The lexemes stand before the left side of an assignment: `LET`, or nothing. -/
inductive ViableAssignment : Kind → List Lexeme → Prop
  | letAssign {w : Lexeme} (hw : w.terminal = .word "LET") : ViableAssignment .LET [w]
  | assign : ViableAssignment .ASSIGN []

/-- The lexemes lead to the next item of a `DIM` statement. -/
inductive ViableItems : List Lexeme → List (Mention × Phrase) → Prop
  | first {w : Lexeme} (hw : w.terminal = .word "DIM") : ViableItems [w] []
  | next {w x : Lexeme} {xs : List Lexeme} {items : List (Mention × Phrase)}
      (hw : w.terminal = .word "DIM") (hitems : DerivesItems xs items)
      (hx : x.terminal = .symbol ",") : ViableItems (w :: (xs ++ [x])) items

/-- The lexemes stand before the expression that is read for the purpose. -/
inductive ViablePurpose : Kind → List Lexeme → Purpose → Prop
  | recipientIndex {kind : Kind} {xs : List Lexeme} {name x : Lexeme}
      (hxs : ViableAssignment kind xs) (hname : name.terminal = .NAME)
      (hx : x.terminal = .symbol "(") :
      ViablePurpose kind (xs ++ [name, x]) (.recipientIndex name.mention)
  | value {kind : Kind} {xs ys : List Lexeme} {x : Lexeme} {r : Recipient}
      (hxs : ViableAssignment kind xs) (hr : DerivesRecipient ys r)
      (hx : x.terminal = .symbol "=") : ViablePurpose kind (xs ++ ys ++ [x]) (.value r)
  | bound {xs : List Lexeme} {items : List (Mention × Phrase)} {name x : Lexeme}
      (hxs : ViableItems xs items) (hname : name.terminal = .NAME)
      (hx : x.terminal = .symbol "(") :
      ViablePurpose .DIM (xs ++ [name, x]) (.bound items name.mention)
  | start {w name x : Lexeme} (hw : w.terminal = .word "FOR") (hname : name.terminal = .NAME)
      (hx : x.terminal = .symbol "=") : ViablePurpose .FOR [w, name, x] (.start name.mention)
  | limit {xs ys : List Lexeme} {y : Lexeme} {m : Mention} {a : Phrase}
      (hxs : ViablePurpose .FOR xs (.start m)) (ha : DerivesPhrase .sum ys a)
      (hy : y.terminal = .word "TO") : ViablePurpose .FOR (xs ++ ys ++ [y]) (.limit m a)
  | step {xs ys : List Lexeme} {y : Lexeme} {m : Mention} {a b : Phrase}
      (hxs : ViablePurpose .FOR xs (.limit m a)) (hb : DerivesPhrase .sum ys b)
      (hy : y.terminal = .word "STEP") : ViablePurpose .FOR (xs ++ ys ++ [y]) (.step m a b)
  | print {w : Lexeme} (hw : w.terminal = .word "PRINT") : ViablePurpose .PRINT [w] .print
  | condition {w : Lexeme} (hw : w.terminal = .word "IF") : ViablePurpose .IF [w] .condition
  | comparand {xs ys : List Lexeme} {x : Lexeme} {a : Phrase} {relation : Relation}
      (hxs : ViablePurpose .IF xs .condition) (ha : DerivesPhrase .sum ys a)
      (hx : x.terminal = .symbol relation.symbol) :
      ViablePurpose .IF (xs ++ ys ++ [x]) (.comparand relation a)

/-- The lexemes lead from the start of a sentence of the kind to the state. -/
inductive Viable : Kind → List Lexeme → ReadState → Prop
  | opening {kind : Kind} (hkind : kind ≠ .ASSIGN) : Viable kind [] (.opening kind)
  | recipient {kind : Kind} {xs : List Lexeme} (hxs : ViableAssignment kind xs) :
      Viable kind xs .recipient
  | recipientName {kind : Kind} {xs : List Lexeme} {name : Lexeme}
      (hxs : ViableAssignment kind xs) (hname : name.terminal = .NAME) :
      Viable kind (xs ++ [name]) (.recipientName name.mention)
  | recipientDone {kind : Kind} {xs ys : List Lexeme} {r : Recipient}
      (hxs : ViableAssignment kind xs) (hr : DerivesRecipient ys r) :
      Viable kind (xs ++ ys) (.recipientDone r)
  | dimName {xs : List Lexeme} {items : List (Mention × Phrase)} (hxs : ViableItems xs items) :
      Viable .DIM xs (.dimName items)
  | dimBracket {xs : List Lexeme} {items : List (Mention × Phrase)} {name : Lexeme}
      (hxs : ViableItems xs items) (hname : name.terminal = .NAME) :
      Viable .DIM (xs ++ [name]) (.dimBracket items name.mention)
  | dimMore {w : Lexeme} {xs : List Lexeme} {items : List (Mention × Phrase)}
      (hw : w.terminal = .word "DIM") (hitems : DerivesItems xs items) :
      Viable .DIM (w :: xs) (.dimMore items)
  | forName {w : Lexeme} (hw : w.terminal = .word "FOR") : Viable .FOR [w] .forName
  | forBecomes {w name : Lexeme} (hw : w.terminal = .word "FOR")
      (hname : name.terminal = .NAME) : Viable .FOR [w, name] (.forBecomes name.mention)
  | nextName {w : Lexeme} (hw : w.terminal = .word "NEXT") : Viable .NEXT [w] .nextName
  | printOperand {w : Lexeme} (hw : w.terminal = .word "PRINT") : Viable .PRINT [w] .printOperand
  | gotoLine {w : Lexeme} (hw : w.terminal = .word "GOTO") : Viable .GOTO [w] (.lineNumber none)
  | thenLine {w x : Lexeme} {xs : List Lexeme} {c : Clause} (hw : w.terminal = .word "IF")
      (hc : DerivesClause xs c) (hx : x.terminal = .word "THEN") :
      Viable .IF (w :: (xs ++ [x])) (.lineNumber (some c))
  | operand {kind : Kind} {xs ys : List Lexeme} {p : Purpose} {u : Unfinished}
      (hxs : ViablePurpose kind xs p) (hys : ViableUnfinished ys u) :
      Viable kind (xs ++ ys) (.operand p u)
  | named {kind : Kind} {xs ys : List Lexeme} {name : Lexeme} {p : Purpose} {u : Unfinished}
      (hxs : ViablePurpose kind xs p) (hys : ViableUnfinished ys u)
      (hname : name.terminal = .NAME) :
      Viable kind (xs ++ ys ++ [name]) (.named p u name.mention)
  | operator {kind : Kind} {xs ys zs : List Lexeme} {p : Purpose} {u : Unfinished} {e : Phrase}
      (hxs : ViablePurpose kind xs p) (hys : ViableUnfinished ys u)
      (he : DerivesPhrase .factor zs e) : Viable kind (xs ++ ys ++ zs) (.operator p u e)
  | complete {kind : Kind} {xs : List Lexeme} {s : Sentence} (hs : Derives kind xs s) :
      Viable kind xs (.complete s)

/-! ## Steps -/

theorem ViableUnfinished.empty : ViableUnfinished [] {} := by
  simpa using ViableUnfinished.unfinished (u := {}) .nil .empty

/-- A complete operand outside all brackets completes the expression. -/
theorem ViableUnfinished.total {xs ys : List Lexeme} {l : Level} {e : Phrase}
    (hxs : ViableUnfinished xs ⟨l, []⟩) (hys : DerivesPhrase .factor ys e) :
    DerivesPhrase .sum (xs ++ ys) (l.total e) := by
  obtain ⟨houter, hlevel⟩ := hxs
  cases houter
  simpa using hlevel.total hys

/-- A bracket that closes makes a factor of what it holds. -/
theorem ViableUnfinished.close {xs ys : List Lexeme} {l level : Level} {b : Bracket}
    {outer : List (Level × Bracket)} {e : Phrase} {x : Lexeme}
    (hxs : ViableUnfinished xs ⟨l, (level, b) :: outer⟩) (hys : DerivesPhrase .factor ys e)
    (hx : x.terminal = .symbol ")") :
    ∃ as bs, xs ++ ys ++ [x] = as ++ bs ∧ ViableUnfinished as ⟨level, outer⟩ ∧
      DerivesPhrase .factor bs
        (match b with
          | .group => l.total e
          | .subscript mention => .element mention (l.total e)) := by
  obtain ⟨houter, hlevel⟩ := hxs
  have htotal := hlevel.total hys
  -- The bracket that was opened last decides what the closing one makes.
  cases houter with
  | group has hbs hopen =>
      refine ⟨_, _, ?_, ViableUnfinished.unfinished (u := ⟨level, outer⟩) has hbs,
        .group hopen htotal hx⟩
      simp
  | subscript has hbs hname hopen =>
      refine ⟨_, _, ?_, ViableUnfinished.unfinished (u := ⟨level, outer⟩) has hbs,
        .element hname hopen htotal hx⟩
      simp

theorem ViableUnfinished.openGroup {xs : List Lexeme} {u : Unfinished} {x : Lexeme}
    (hxs : ViableUnfinished xs u) (hx : x.terminal = .symbol "(") :
    ViableUnfinished (xs ++ [x]) { level := {}, outer := (u.level, .group) :: u.outer } := by
  obtain ⟨houter, hlevel⟩ := hxs
  have h := ViableUnfinished.unfinished
    (u := { level := {}, outer := (u.level, .group) :: u.outer }) (.group houter hlevel hx) .empty
  simpa using h

theorem ViableUnfinished.openSubscript {xs : List Lexeme} {u : Unfinished} {name x : Lexeme}
    (hxs : ViableUnfinished xs u) (hname : name.terminal = .NAME)
    (hx : x.terminal = .symbol "(") :
    ViableUnfinished (xs ++ [name, x])
      { level := {}, outer := (u.level, .subscript name.mention) :: u.outer } := by
  obtain ⟨houter, hlevel⟩ := hxs
  have h := ViableUnfinished.unfinished
    (u := { level := {}, outer := (u.level, .subscript name.mention) :: u.outer })
    (.subscript houter hlevel hname hx) .empty
  simpa using h

theorem ViableUnfinished.sign {xs : List Lexeme} {u : Unfinished} {x : Lexeme} {sign : Sign}
    (hxs : ViableUnfinished xs u) (hx : x.terminal = .symbol sign.symbol) :
    ViableUnfinished (xs ++ [x])
      { u with level := { u.level with signs := sign :: u.level.signs } } := by
  obtain ⟨houter, hlevel⟩ := hxs
  have h := ViableUnfinished.unfinished
    (u := { u with level := { u.level with signs := sign :: u.level.signs } }) houter
    (hlevel.sign hx)
  simpa using h

theorem ViableUnfinished.join {xs ys : List Lexeme} {u : Unfinished} {e : Phrase} {x : Lexeme}
    {op : Operator} (hxs : ViableUnfinished xs u) (hys : DerivesPhrase .factor ys e)
    (hx : x.terminal = .symbol op.symbol) :
    ViableUnfinished (xs ++ ys ++ [x]) { u with level := u.level.join e op } := by
  obtain ⟨houter, hlevel⟩ := hxs
  have h := ViableUnfinished.unfinished (u := { u with level := u.level.join e op }) houter
    (hlevel.join hys hx)
  simpa using h

theorem terminal_of_word {x : Lexeme} {letters : String} (word : String)
    (hletters : letters.toList = word.toList) (hx : x.terminal = .word letters) :
    x.terminal = .word word := by
  rw [hx, String.toList_injective hletters]

section Step

variable {kind : Kind} {xs ys zs : List Lexeme} {p : Purpose} {u : Unfinished} {e : Phrase}
  {x : Lexeme} {t : Token} {σ : ReadState}

theorem Viable.stepOperand (hp : ViablePurpose kind xs p) (hu : ViableUnfinished ys u)
    (ht : x.ReadAs .operand t) (hstep : ReadState.stepOperand? p u x.place t = some σ) :
    Viable kind (xs ++ ys ++ [x]) σ := by
  cases ht with
  | name hx =>
      obtain rfl := Option.some.inj hstep
      exact .named hp hu hx
  | numeral hx =>
      obtain rfl := Option.some.inj hstep
      exact .operator hp hu (.numeral hx)
  | text hx => simp [ReadState.stepOperand?] at hstep
  | plus hx =>
      obtain rfl := Option.some.inj hstep
      rw [List.append_assoc]
      exact .operand hp (hu.sign hx)
  | minus hx =>
      obtain rfl := Option.some.inj hstep
      rw [List.append_assoc]
      exact .operand hp (hu.sign hx)
  | openOperand hx =>
      obtain rfl := Option.some.inj hstep
      rw [List.append_assoc]
      exact .operand hp (hu.openGroup hx)

theorem Viable.clause (hp : ViablePurpose kind xs p) (he : DerivesPhrase .sum ys e) {c : Clause}
    (hc : p.clause? e = some c) :
    kind = .IF ∧ ∃ w zs, w.terminal = .word "IF" ∧ xs ++ ys = w :: zs ∧ DerivesClause zs c := by
  cases hp with
  | condition hw =>
      obtain rfl := Option.some.inj hc
      exact ⟨rfl, _, ys, hw, rfl, .nonzero he⟩
  | comparand hxs ha hx =>
      obtain rfl := Option.some.inj hc
      cases hxs with
      | condition hw => exact ⟨rfl, _, _, hw, by simp, .compare ha hx he⟩
  | _ => simp [Purpose.clause?] at hc

/-- A closing bracket behind a complete expression, outside the brackets of the expression. -/
theorem Viable.followClose (hp : ViablePurpose kind xs p) (he : DerivesPhrase .sum ys e)
    (hx : x.terminal = .symbol ")") (hstep : p.follow? e .closeBracket = some σ) :
    Viable kind (xs ++ ys ++ [x]) σ := by
  cases hp with
  | recipientIndex hxs hname hopen =>
      obtain rfl := Option.some.inj hstep
      simpa using Viable.recipientDone hxs (.element hname hopen he hx)
  | bound hxs hname hopen =>
      obtain rfl := Option.some.inj hstep
      have hitem := DerivesItem.item hname hopen he hx
      cases hxs with
      | first hw => simpa using Viable.dimMore hw (.one hitem)
      | next hw hitems hcomma => simpa using Viable.dimMore hw (.more hitems hcomma hitem)
  | _ => simp [Purpose.follow?] at hstep

/-- A word behind a complete expression. -/
theorem Viable.followJoint (hp : ViablePurpose kind xs p) (he : DerivesPhrase .sum ys e)
    {joint : Joint} {letters : String} (hletters : letters.toList = joint.word)
    (hx : x.terminal = .word letters) (hstep : p.follow? e (.joint joint) = some σ) :
    Viable kind (xs ++ ys ++ [x]) σ := by
  cases joint with
  | «to» =>
      have hx := terminal_of_word "TO" hletters hx
      cases hp with
      | start hw hname hbecomes =>
          obtain rfl := Option.some.inj hstep
          simpa using Viable.operand (.limit (.start hw hname hbecomes) he hx) .empty
      | _ => simp [Purpose.follow?] at hstep
  | step =>
      have hx := terminal_of_word "STEP" hletters hx
      cases hp with
      | limit hxs ha hto =>
          obtain rfl := Option.some.inj hstep
          simpa using Viable.operand (.step (.limit hxs ha hto) he hx) .empty
      | _ => simp [Purpose.follow?] at hstep
  | «then» =>
      have hx := terminal_of_word "THEN" hletters hx
      have hclause : (p.clause? e).map (fun c => ReadState.lineNumber (some c)) = some σ := by
        cases hp <;> exact hstep
      obtain ⟨c, hc, rfl⟩ := Option.map_eq_some_iff.mp hclause
      obtain ⟨rfl, w, zs, hw, heq, hclause⟩ := Viable.clause hp he hc
      rw [heq]
      exact .thenLine hw hclause hx

/-- The token behind a complete expression, outside all brackets. -/
theorem Viable.follow (hp : ViablePurpose kind xs p) (he : DerivesPhrase .sum ys e)
    (ht : x.ReadAs .operator t) (hstep : p.follow? e t = some σ) :
    Viable kind (xs ++ ys ++ [x]) σ := by
  cases ht with
  | close hx => exact Viable.followClose hp he hx hstep
  | joint hletters hx => exact Viable.followJoint hp he hletters hx hstep
  | relation hx =>
      cases hp with
      | condition hw =>
          obtain rfl := Option.some.inj hstep
          simpa using Viable.operand (.comparand (.condition hw) he hx) .empty
      | _ => simp [Purpose.follow?] at hstep
  | operator hx => cases hp <;> simp [Purpose.follow?] at hstep
  | openOperator hx => cases hp <;> simp [Purpose.follow?] at hstep
  | comma hx => cases hp <;> simp [Purpose.follow?] at hstep

theorem Viable.stepOperator (hp : ViablePurpose kind xs p) (hu : ViableUnfinished ys u)
    (he : DerivesPhrase .factor zs e) (ht : x.ReadAs .operator t)
    (hstep : ReadState.stepOperator? p u e t = some σ) :
    Viable kind (xs ++ ys ++ zs ++ [x]) σ := by
  -- An operator is the same inside and outside of brackets; all else depends on where it stands.
  by_cases hop : ∃ op, t = .operator op
  · obtain ⟨op, rfl⟩ := hop
    cases ht with
    | operator hx =>
        obtain rfl := Option.some.inj hstep
        simpa using Viable.operand hp (hu.join he hx)
  · obtain ⟨l, outer⟩ := u
    cases outer with
    | nil =>
        rw [stepOperator?_outside fun op h => hop ⟨op, h⟩] at hstep
        simpa using Viable.follow hp (hu.total he) ht hstep
    | cons bracket outer =>
        obtain ⟨level, b⟩ := bracket
        -- Inside brackets nothing but the closing one is accepted.
        cases ht with
        | close hx =>
            obtain ⟨as, bs, heq, has, hbs⟩ := hu.close he hx
            have hlist : xs ++ ys ++ zs ++ [x] = xs ++ as ++ bs := by
              simp only [List.append_assoc] at heq ⊢
              rw [heq]
            rw [hlist]
            cases b with
            | group =>
                obtain rfl := Option.some.inj hstep
                exact .operator hp has hbs
            | subscript mention =>
                obtain rfl := Option.some.inj hstep
                exact .operator hp has hbs
        | operator hx => exact absurd ⟨_, rfl⟩ hop
        | _ => simp [ReadState.stepOperator?] at hstep

/-- The keyword that opens a sentence leads to the state behind it. -/
theorem Viable.keyword (hkind : kind ≠ .ASSIGN) (hx : x.terminal = .word kind.name)
    (hstep : ReadState.afterKeyword? kind = some σ) : Viable kind [x] σ := by
  cases kind with
  | LET => obtain rfl := Option.some.inj hstep; exact .recipient (.letAssign hx)
  | DIM => obtain rfl := Option.some.inj hstep; exact .dimName (.first hx)
  | FOR => obtain rfl := Option.some.inj hstep; exact .forName hx
  | PRINT => obtain rfl := Option.some.inj hstep; exact .printOperand hx
  | GOTO => obtain rfl := Option.some.inj hstep; exact .gotoLine hx
  | IF =>
      obtain rfl := Option.some.inj hstep
      simpa using Viable.operand (.condition hx) .empty
  | NEXT => obtain rfl := Option.some.inj hstep; exact .nextName hx
  | END => simp [ReadState.afterKeyword?] at hstep
  | ASSIGN => exact absurd rfl hkind

/-- A step keeps what the state knows. -/
theorem Viable.step {σ' : ReadState} (hσ : Viable kind xs σ) (hx : Advances σ x σ') :
    Viable kind (xs ++ [x]) σ' := by
  obtain ⟨t, ht, hstep⟩ := hx
  cases hσ with
  | opening hkind =>
      cases ht with
      | opening _ hx => exact Viable.keyword hkind hx hstep
  | recipient hxs =>
      -- Of the operands only a name is accepted here.
      cases ht <;> simp only [ReadState.step?, reduceCtorEq, Option.some.injEq] at hstep
      rename_i hx
      subst hstep
      exact .recipientName hxs hx
  | recipientName hxs hname =>
      cases ht with
      | becomes hx =>
          obtain rfl := Option.some.inj hstep
          simpa using Viable.operand (.value hxs (.scalar hname) hx) .empty
      | openBinding hx =>
          obtain rfl := Option.some.inj hstep
          simpa using Viable.operand (.recipientIndex hxs hname hx) .empty
  | recipientDone hxs hr =>
      cases ht with
      | becomes hx =>
          obtain rfl := Option.some.inj hstep
          simpa using Viable.operand (.value hxs hr hx) .empty
      | openBinding hx => simp [ReadState.step?] at hstep
  | dimName hxs =>
      cases ht <;> simp only [ReadState.step?, reduceCtorEq, Option.some.injEq] at hstep
      rename_i hx
      subst hstep
      exact .dimBracket hxs hx
  | dimBracket hxs hname =>
      cases ht with
      | becomes hx => simp [ReadState.step?] at hstep
      | openBinding hx =>
          obtain rfl := Option.some.inj hstep
          simpa using Viable.operand (.bound hxs hname hx) .empty
  | dimMore hw hitems =>
      cases ht with
      | comma hx =>
          obtain rfl := Option.some.inj hstep
          exact .dimName (.next hw hitems hx)
      | _ => simp [ReadState.step?] at hstep
  | forName hw =>
      cases ht <;> simp only [ReadState.step?, reduceCtorEq, Option.some.injEq] at hstep
      rename_i hx
      subst hstep
      exact .forBecomes hw hx
  | forBecomes hw hname =>
      cases ht with
      | becomes hx =>
          obtain rfl := Option.some.inj hstep
          simpa using Viable.operand (.start hw hname hx) .empty
      | openBinding hx => simp [ReadState.step?] at hstep
  | nextName hw =>
      cases ht <;> simp only [ReadState.step?, reduceCtorEq, Option.some.injEq] at hstep
      rename_i hx
      subst hstep
      exact .complete (.nextName hw hx)
  | printOperand hw =>
      -- Quoted text ends the sentence; anything else begins an expression.
      by_cases htext : ∃ content, t = .text content
      · obtain ⟨content, rfl⟩ := htext
        cases ht with
        | text hx =>
            obtain rfl := Option.some.inj hstep
            exact .complete (.printText hw hx)
      · rw [step?_printOperand fun content h => htext ⟨content, h⟩] at hstep
        simpa using Viable.stepOperand (.print hw) .empty ht hstep
  | gotoLine hw =>
      cases ht with
      | lineNumber hx =>
          obtain rfl := Option.some.inj hstep
          exact .complete (.goto hw hx)
  | thenLine hw hc hthen =>
      cases ht with
      | lineNumber hx =>
          obtain rfl := Option.some.inj hstep
          simpa using Viable.complete (.ifThen hw hc hthen hx)
  | operand hp hu => exact Viable.stepOperand hp hu ht hstep
  | named hp hu hname =>
      -- A bracket makes the name an array; anything else makes it an operand of its own.
      by_cases hopen : t = .openBracket
      · subst hopen
        cases ht with
        | openOperator hx =>
            obtain rfl := Option.some.inj hstep
            simpa using Viable.operand hp (hu.openSubscript hname hx)
      · rw [step?_named hopen] at hstep
        exact Viable.stepOperator hp hu (.name hname) ht hstep
  | operator hp hu he => exact Viable.stepOperator hp hu he ht hstep
  | complete hs => cases ht <;> simp [ReadState.step?] at hstep

end Step

theorem Viable.run {kind : Kind} {xs ys : List Lexeme} {σ σ' : ReadState}
    (hσ : Viable kind xs σ) (hys : Runs σ ys σ') : Viable kind (xs ++ ys) σ' := by
  induction hys generalizing xs with
  | nil => simpa using hσ
  | cons hx _ ih => simpa using ih (hσ.step hx)

theorem Viable.start (kind : Kind) : Viable kind [] (ReadState.start kind) := by
  by_cases hkind : kind = .ASSIGN
  · subst hkind
    exact .recipient .assign
  · have hstart : ReadState.start kind = .opening kind := by
      cases kind with
      | ASSIGN => exact absurd rfl hkind
      | _ => rfl
    rw [hstart]
    exact .opening hkind

/-! ## The end of a sentence -/

/-- An expression that may end a sentence ends one. -/
theorem ViablePurpose.finish {kind : Kind} {xs ys : List Lexeme} {p : Purpose} {e : Phrase}
    {s : Sentence} (hp : ViablePurpose kind xs p) (he : DerivesPhrase .sum ys e)
    (hs : p.finish? e = some s) : Derives kind (xs ++ ys) s := by
  cases hp with
  | value hxs hr hx =>
      obtain rfl := Option.some.inj hs
      cases hxs with
      | letAssign hw => simpa using Derives.letAssign hw hr hx he
      | assign => simpa using Derives.assign hr hx he
  | limit hxs ha hy =>
      obtain rfl := Option.some.inj hs
      cases hxs with
      | start hw hname hx => simpa using Derives.forTo hw hname hx ha hy he
  | step hxs hb hz =>
      obtain rfl := Option.some.inj hs
      cases hxs with
      | limit hxs ha hy =>
          cases hxs with
          | start hw hname hx => simpa using Derives.forStep hw hname hx ha hy hb hz he
  | print hw =>
      obtain rfl := Option.some.inj hs
      exact .print hw he
  | condition hw =>
      obtain rfl := Option.some.inj hs
      exact .ifTest hw (.nonzero he)
  | comparand hxs ha hx =>
      obtain rfl := Option.some.inj hs
      cases hxs with
      | condition hw => simpa using Derives.ifTest hw (.compare ha hx he)
  | _ => simp [Purpose.finish?] at hs

theorem Viable.finish {kind : Kind} {xs : List Lexeme} {σ : ReadState} {s : Sentence}
    (hσ : Viable kind xs σ) (hs : σ.finish? = some s) : Derives kind xs s := by
  cases hσ with
  | dimMore hw hitems =>
      obtain rfl := Option.some.inj hs
      exact .dim hw hitems
  | nextName hw =>
      obtain rfl := Option.some.inj hs
      exact .next hw
  | printOperand hw =>
      obtain rfl := Option.some.inj hs
      exact .printNothing hw
  | @named kind xs ys name p u hp hu hname =>
      obtain ⟨l, outer⟩ := u
      -- No sentence ends inside brackets.
      cases outer with
      | nil => simpa using hp.finish (hu.total (.name hname)) hs
      | cons bracket outer => simp [ReadState.finish?] at hs
  | @operator kind xs ys zs p u e hp hu he =>
      obtain ⟨l, outer⟩ := u
      cases outer with
      | nil => simpa using hp.finish (hu.total he) hs
      | cons bracket outer => simp [ReadState.finish?] at hs
  | complete hs' =>
      obtain rfl := Option.some.inj hs
      exact hs'
  | _ => simp [ReadState.finish?] at hs

/-- What the reader accepts is derived. -/
theorem derives_of_accepts {kind : Kind} {xs : List Lexeme} {s : Sentence}
    (h : Accepts (ReadState.start kind) xs s) : Derives kind xs s := by
  obtain ⟨σ, hrun, hs⟩ := h
  exact ((Viable.start kind).run hrun).finish hs

end LineBasic.Grammar
