/-
  LineBasic.Proofs.Machine.Reads

  Which array elements a statement reads, in which order, and what is reported of them.

  `reads` lists the reads of an expression, a condition or a statement in the order in which they
  are made, each with the memory that it sees. It is computed from `value`, which evaluates without
  keeping any report: a subscript has to be worth something before its element can be read.

  A reading and its reports fall apart into these two: the value is the one without reports, and
  there is one report for each read that fails (`Expr.eval_eq`, by induction on the expression).
  From there `exec_tells` goes through the statements. `DIM` is the one among them that changes
  the memory between two of its own reads.
-/
import LineBasic.Proofs.Machine.Control
import LineBasic.Proofs.Stmt.RoundTrip

namespace LineBasic

/-! ## Reads -/

/-- A read of an array element: the memory in which it is made, the array and the subscript. -/
structure ElementRead where
  memory : Memory
  letter : Nat
  subscript : Float

namespace ElementRead

/-- The complaint that a read is reported with, if it fails. -/
def complaint? (r : ElementRead) : Option Complaint :=
  match r.memory.readElement r.letter r.subscript with
  | .error (.complaint c) => some c
  | _ => none

/-- The value of a read; one that fails is worth zero. -/
def value (r : ElementRead) : Float :=
  match r.memory.readElement r.letter r.subscript with
  | .ok x => x
  | .error _ => 0.0

/-- What a read can come to: the value of a cell and no report, or zero and one report, for want of
    the array or of the cell. -/
inductive Gives (r : ElementRead) : Option Complaint → Float → Prop
  | found {cells : Array Float} {i : Nat} {x : Float}
      (hcells : r.memory.cells? r.letter = .ok (some cells))
      (hcell : Memory.cell? cells.size r.subscript = some i) (hvalue : cells[i]? = some x) :
      Gives r none x
  | undeclared (hcells : r.memory.cells? r.letter = .ok none) :
      Gives r (some (.undeclared r.letter)) 0.0
  | outOfBounds {cells : Array Float} (hcells : r.memory.cells? r.letter = .ok (some cells))
      (hcell : Memory.cell? cells.size r.subscript = none) :
      Gives r (some (.outOfBounds r.letter (.ofFloat r.subscript))) 0.0

end ElementRead

/-- The reports of some reads: one for each that fails, in order. -/
def reported (reads : List ElementRead) : List Complaint :=
  reads.filterMap ElementRead.complaint?

/-! ## Expressions and conditions -/

namespace Expr

/-- The value of an expression to one who hears of no report. -/
def value (m : Memory) : Expr → Float
  | .num x => x
  | .var slot => (m.read slot).toOption.getD 0.0
  | .element letter index => ElementRead.value ⟨m, letter, index.value m⟩
  | .signed sign operand => sign.apply (operand.value m)
  | .binary op left right => op.apply (left.value m) (right.value m)
  | .unknownBinary _ _ | .unknown => 0.0

/-- The reads of an expression: those of a subscript before the read it belongs to, and those of a
    left operand before those of the right one. -/
def reads (m : Memory) : Expr → List ElementRead
  | .num _ | .var _ | .unknown => []
  | .element letter index => index.reads m ++ [⟨m, letter, index.value m⟩]
  | .signed _ operand => operand.reads m
  | .binary _ left right | .unknownBinary left right => left.reads m ++ right.reads m

end Expr

namespace Cond

/-- The truth of a condition to one who hears of no report. -/
def value (m : Memory) : Cond → Bool
  | .nonzero operand => !(operand.value m == 0.0)
  | .compare relation left right => relation.holds (left.value m) (right.value m)
  | .unknown _ _ _ => false

/-- The reads of a condition: those of the left side before those of the right one. -/
def reads (m : Memory) (c : Cond) : List ElementRead :=
  c.exprs.flatMap (·.reads m)

end Cond

/-! ## Statements -/

/-- The reads of the items of a `DIM`: a bound is read when the items before it have been declared,
    and nothing is read behind an item that cannot be. -/
def itemReads (m : Memory) : List (Nat × Expr) → List ElementRead
  | [] => []
  | (letter, bound) :: rest =>
    bound.reads m ++
      match m.declare letter (bound.value m) with
      | .ok m' => itemReads m' rest
      | .error _ => []

/-- The reads of a statement that is executed in the memory. Its expressions are evaluated in the
    order in which they stand: a subscript on the left before the value, and the start of a loop
    before its limit and its step. -/
def Stmt.reads (m : Memory) : Stmt → List ElementRead
  | .dim items => itemReads m items
  | stmt => stmt.exprs.flatMap (·.reads m)

/-! ## What a read comes to -/

/-- An element of an array that has a letter is read from a cell, or there is no array, or no such
    cell in it. -/
theorem Memory.readElement_cases {m : Memory} {letter : Nat} (h : letter < letterCount)
    (x : Float) :
    (∃ cells i, m.cells? letter = .ok (some cells) ∧ cell? cells.size x = some i ∧
      m.readElement letter x = .ok (cells.getD i 0.0)) ∨
    (m.cells? letter = .ok none ∧
      m.readElement letter x = .error (.complaint (.undeclared letter))) ∨
    ∃ cells, m.cells? letter = .ok (some cells) ∧ cell? cells.size x = none ∧
      m.readElement letter x = .error (.complaint (.outOfBounds letter (.ofFloat x))) := by
  have hcells : m.cells? letter = .ok m.arrays[letter] := by
    rw [cells?, dif_pos h]
  cases hdeclared : m.arrays[letter] with
  | none =>
      rw [hdeclared] at hcells
      refine Or.inr (Or.inl ⟨hcells, ?_⟩)
      simp only [readElement, locate, hcells]
      rfl
  | some cells =>
      rw [hdeclared] at hcells
      cases hcell : cell? cells.size x with
      | none =>
          refine Or.inr (Or.inr ⟨cells, hcells, hcell, ?_⟩)
          simp only [readElement, locate, hcells, hcell]
          rfl
      | some i =>
          refine Or.inl ⟨cells, i, hcells, hcell, ?_⟩
          simp only [readElement, locate, hcells, hcell]
          rfl

namespace ElementRead

variable {r : ElementRead} (h : r.letter < letterCount)
include h

theorem gives : r.Gives r.complaint? r.value := by
  unfold complaint? value
  rcases Memory.readElement_cases (m := r.memory) h r.subscript with
    ⟨cells, i, hcells, hcell, hread⟩ | ⟨hcells, hread⟩ | ⟨cells, hcells, hcell, hread⟩
  · have hi : i < cells.size := Memory.lt_of_cell? hcell
    rw [hread]
    exact .found hcells hcell (by simp [hi])
  · rw [hread]
    exact .undeclared hcells
  · rw [hread]
    exact .outOfBounds hcells hcell

/-- A soft read is its value together with its report. -/
theorem readSoft_eq : r.memory.readSoft r.letter r.subscript = ⟨reported [r], .ok r.value⟩ := by
  unfold Memory.readSoft reported value
  rcases Memory.readElement_cases (m := r.memory) h r.subscript with
    ⟨cells, i, -, -, hread⟩ | ⟨-, hread⟩ | ⟨cells, -, -, hread⟩
  · simp only [List.filterMap_cons, List.filterMap_nil, complaint?, hread]
    rfl
  · simp only [List.filterMap_cons, List.filterMap_nil, complaint?, hread]
  · simp only [List.filterMap_cons, List.filterMap_nil, complaint?, hread]

end ElementRead

/-! ## What an evaluation comes to -/

@[simp] theorem reported_nil : reported [] = [] := rfl

@[simp] theorem reported_append (reads reads' : List ElementRead) :
    reported (reads ++ reads') = reported reads ++ reported reads' :=
  List.filterMap_append

/-- An evaluation with reports has the value of the one without, and its reports are those of its
    reads. -/
theorem Expr.eval_eq {e : Expr} (h : e.WellFormed) (m : Memory) :
    e.eval m = ⟨reported (e.reads m), .ok (e.value m)⟩ := by
  induction e with
  | num x => rfl
  | var slot =>
      obtain ⟨x, hx⟩ := Memory.read_eq_ok (m := m) h
      simp only [eval, reads, value, hx]
      rfl
  | element letter index ih =>
      -- The subscript is worth its silent value, so this is the read that is listed last.
      have hsoft := ElementRead.readSoft_eq (r := ⟨m, letter, index.value m⟩) h.1
      rw [eval, ih h.2, Reading.bind_of_ok rfl, hsoft, reads, reported_append]
      rfl
  | signed sign operand ih =>
      rw [eval, ih h, Reading.bind_of_ok rfl]
      simp [reads, value]
  | binary op left right ihl ihr =>
      rw [eval, ihl h.1, ihr h.2, Reading.bind_of_ok rfl, Reading.bind_of_ok rfl]
      simp [reads, value]
  | unknownBinary left right => exact h.elim
  | unknown => exact h.elim

theorem Cond.eval_eq {c : Cond} (h : c.WellFormed) (m : Memory) :
    c.eval m = ⟨reported (c.reads m), .ok (c.value m)⟩ := by
  cases c with
  | nonzero operand =>
      rw [eval, Expr.eval_eq h, Reading.bind_of_ok rfl]
      simp [reads, exprs, value]
  | compare relation left right =>
      rw [eval, Expr.eval_eq h.1, Expr.eval_eq h.2, Reading.bind_of_ok rfl, Reading.bind_of_ok rfl]
      simp [reads, exprs, value]
  | unknown symbol left right => exact h.elim

/-- A reading that is known has the reports and the value that the reads say. -/
theorem Expr.eq_of_eval {e : Expr} {m : Memory} {reports : List Complaint} {x : Float}
    (h : e.WellFormed) (hread : e.eval m = ⟨reports, .ok x⟩) :
    reports = reported (e.reads m) ∧ x = e.value m := by
  rw [Expr.eval_eq h] at hread
  obtain ⟨hreports, hvalue⟩ := Reading.mk.inj hread
  exact ⟨hreports.symm, (Except.ok.inj hvalue).symm⟩

theorem Cond.reports_of_eval {c : Cond} {m : Memory} {reports : List Complaint} {holds : Bool}
    (h : c.WellFormed) (hread : c.eval m = ⟨reports, .ok holds⟩) :
    reports = reported (c.reads m) := by
  rw [Cond.eval_eq h] at hread
  exact (Reading.mk.inj hread).1.symm

/-! ## Letters of the arrays -/

theorem Expr.letter_lt {e : Expr} (h : e.WellFormed) {m : Memory} :
    ∀ r ∈ e.reads m, r.letter < letterCount := by
  induction e with
  | num x => simp [reads]
  | var slot => simp [reads]
  | element letter index ih =>
      intro r hr
      rcases List.mem_append.mp hr with hr | hr
      · exact ih h.2 r hr
      · obtain rfl := List.mem_singleton.mp hr
        exact h.1
  | signed sign operand ih => exact ih h
  | binary op left right ihl ihr =>
      intro r hr
      rcases List.mem_append.mp hr with hr | hr
      · exact ihl h.1 r hr
      · exact ihr h.2 r hr
  | unknownBinary left right => exact h.elim
  | unknown => exact h.elim

theorem letter_lt_itemReads {items : List (Nat × Expr)} {m : Memory}
    (h : ∀ item ∈ items, item.2.WellFormed) : ∀ r ∈ itemReads m items, r.letter < letterCount := by
  induction items generalizing m with
  | nil => simp [itemReads]
  | cons item rest ih =>
      obtain ⟨letter, bound⟩ := item
      simp only [List.mem_cons, forall_eq_or_imp] at h
      intro r hr
      rcases List.mem_append.mp hr with hr | hr
      · exact Expr.letter_lt h.1 r hr
      · cases hdeclare : m.declare letter (bound.value m) with
        | ok m' =>
            rw [hdeclare] at hr
            exact ih h.2 r hr
        | error fault =>
            rw [hdeclare] at hr
            cases hr

theorem Stmt.letter_lt {stmt : Stmt} (h : stmt.WellFormed) {m : Memory} :
    ∀ r ∈ stmt.reads m, r.letter < letterCount := by
  have hexprs : ∀ r ∈ stmt.exprs.flatMap (·.reads m), r.letter < letterCount := by
    intro r hr
    obtain ⟨e, he, hr⟩ := List.mem_flatMap.mp hr
    exact Expr.letter_lt (h.exprs e he) r hr
  cases stmt with
  | dim items => exact letter_lt_itemReads fun item hitem => (h.2 item hitem).2
  | _ => exact hexprs

/-! ## What a statement makes known -/

/-- From the first machine to the second, the reports of the reads became known in order, and behind
    them nothing but printed texts. -/
def Machine.Tells (m : Machine) (reads : List ElementRead) (m' : Machine) : Prop :=
  ∃ texts : List String, m'.log.toList =
    m.log.toList ++ (reported reads).map Event.softRead ++ texts.map Event.printed

namespace Machine.Tells

variable {m m' : Machine} {reads reads' : List ElementRead} {memory : Memory}

theorem refl (m : Machine) : m.Tells [] m := by
  refine ⟨[], ?_⟩
  simp

theorem after {reports : List Complaint} (h : reports = reported reads) :
    m.Tells reads (m.after reports memory) := by
  refine ⟨[], ?_⟩
  simp [Machine.after, h]

/-- Reads that were made known first come first. -/
theorem behind (h : (m.after (reported reads) memory).Tells reads' m') :
    m.Tells (reads ++ reads') m' := by
  obtain ⟨texts, htexts⟩ := h
  refine ⟨texts, ?_⟩
  rw [htexts]
  simp [Machine.after]

theorem print (h : m.Tells reads m') (text : String) :
    m.Tells reads (m'.note (.printed text)) := by
  obtain ⟨texts, htexts⟩ := h
  refine ⟨texts ++ [text], ?_⟩
  simp [Machine.note, htexts]

end Machine.Tells

section Statements

variable {m : Machine}

/-- The items of a `DIM` make their reads known one after the other, each in the memory that the
    items before it left. -/
theorem Declares.tells {items : List (Nat × Expr)} {r : EStateM.Result Failure Machine Unit}
    (h : Declares m items r) (hitems : ∀ item ∈ items, item.2.WellFormed) :
    m.Tells (itemReads m.memory items) (machineAfter r) := by
  induction h with
  | nil => exact .refl _
  | cons hbound hdeclare hrest ih =>
      simp only [List.mem_cons, forall_eq_or_imp] at hitems
      obtain ⟨rfl, rfl⟩ := Expr.eq_of_eval hitems.1 hbound
      simp only [itemReads, hdeclare]
      exact .behind (ih hitems.2)
  | fail hbound hdeclare =>
      simp only [List.mem_cons, forall_eq_or_imp] at hitems
      obtain ⟨rfl, rfl⟩ := Expr.eq_of_eval hitems.1 hbound
      simp only [itemReads, hdeclare, List.append_nil]
      exact .after rfl

theorem reports_of_readStep {step : Option Expr} {memory : Memory} {reports : List Complaint}
    {stride : Float} (hstep : ∀ s ∈ step, s.WellFormed)
    (h : readStep memory step = ⟨reports, .ok stride⟩) :
    reports = reported (step.toList.flatMap (·.reads memory)) := by
  cases step with
  | none => exact (Reading.mk.inj h).1.symm
  | some e =>
      rw [readStep, Expr.eval_eq (hstep e rfl), Reading.bind_of_ok rfl] at h
      simpa using (Reading.mk.inj h).1.symm

/-- A loop makes the reads of its start, its limit and its step known, in this order. -/
theorem EntersLoop.tells {m' : Machine} {slot : Nat} {start limit : Expr} {step : Option Expr}
    {first last stride : Float} (h : EntersLoop m slot start limit step first last stride m')
    (hstmt : (Stmt.forTo slot start limit step).WellFormed) :
    m.Tells ((Stmt.forTo slot start limit step).reads m.memory) m' := by
  obtain ⟨-, hstart, hlimit, hstep⟩ := hstmt
  cases h with
  | intro hfirst hlast hstride hwrite =>
      have hreports := (Expr.eq_of_eval hstart hfirst).1
      have hreports' := (Expr.eq_of_eval hlimit hlast).1
      have hreports'' := reports_of_readStep hstep hstride
      refine .after ?_
      simp [Stmt.reads, Stmt.exprs, hreports, hreports', hreports'']

theorem CountsLoop.tells {m' : Machine} {f : Frame} {value : Float}
    (h : CountsLoop m f value m') : m.Tells [] m' := by
  cases h with
  | intro hread hwrite => exact .after rfl

/-- A rule makes the reads of its statement known, whatever the statement comes to. -/
theorem Effect.tells {stmt : Stmt} {r : EStateM.Result Failure Machine Flow} (h : Effect m stmt r)
    (hstmt : stmt.WellFormed) : m.Tells (stmt.reads m.memory) (machineAfter r) := by
  cases h with
  | assign hvalue =>
      have hreports := (Expr.eq_of_eval hstmt.2 hvalue).1
      exact .after (by simp [Stmt.reads, Stmt.exprs, Target.exprs, hreports])
  | assignElement hindex hvalue =>
      have hreports := (Expr.eq_of_eval hstmt.1.2 hindex).1
      have hreports' := (Expr.eq_of_eval hstmt.2 hvalue).1
      exact .after (by simp [Stmt.reads, Stmt.exprs, Target.exprs, hreports, hreports'])
  | assignFails hindex hvalue =>
      -- The write comes last, so both sides have been read when it fails.
      have hreports := (Expr.eq_of_eval hstmt.1.2 hindex).1
      have hreports' := (Expr.eq_of_eval hstmt.2 hvalue).1
      exact .after (by simp [Stmt.reads, Stmt.exprs, Target.exprs, hreports, hreports'])
  | dim hd => exact hd.tells fun item hitem => (hstmt.2 item hitem).2
  | dimFails hd => exact hd.tells fun item hitem => (hstmt.2 item hitem).2
  | openLoop henter => exact henter.tells hstmt
  | loopTooDeep henter => exact henter.tells hstmt
  | skipLoop henter => exact henter.tells hstmt
  | skipFails henter => exact henter.tells hstmt
  | repeatLoop hframes hslot hcount => exact hcount.tells
  | closeLoop hframes hslot hcount => exact hcount.tells
  | noLoop => exact .refl m
  | otherLoop => exact .refl m
  | printText => exact (Machine.Tells.refl m).print _
  | printNothing => exact (Machine.Tells.refl m).print _
  | print hvalue =>
      have hreports := (Expr.eq_of_eval (hstmt _ rfl) hvalue).1
      exact (Machine.Tells.after (by simp [Stmt.reads, Stmt.exprs, hreports])).print _
  | goto => exact .refl m
  | gotoFails => exact .refl m
  | ifGoesOn hcond => exact .after (Cond.reports_of_eval hstmt.1 hcond)
  | thenJumps hcond =>
      -- Only the line to execute differs from the machine after the readings.
      have htells : m.Tells _ (m.after _ m.memory) := .after (Cond.reports_of_eval hstmt.1 hcond)
      exact htells
  | thenFails hcond => exact .after (Cond.reports_of_eval hstmt.1 hcond)
  | stop => exact .refl m

/-- `NEXT` reads no array, whatever loops are open. -/
theorem closeLoop_tells (slot : Option Nat) :
    m.Tells [] (machineAfter (Action.closeLoop slot m)) := by
  rw [Action.closeLoop, Action.bind_of_ok Action.get_eq_ok]
  -- A rule would ask for a loop whose variable exists; here the machine may be any.
  cases m.frames with
  | nil => exact .refl m
  | cons f outer =>
      by_cases hother : slot.any (· ≠ f.slot) = true
      · simp only [if_pos hother]
        exact .refl m
      · simp only [if_neg hother]
        cases hread : m.memory.read f.slot with
        | error fault =>
            have htake : Reading.ofExcept (m.memory.read f.slot) = ⟨[], .error fault⟩ := by
              rw [hread, Reading.ofExcept]
            rw [Action.bind_of_error (Action.take_of_error htake)]
            exact .after rfl
        | ok old =>
            have htake : Reading.ofExcept (m.memory.read f.slot) = ⟨[], .ok old⟩ := by
              rw [hread, Reading.ofExcept]
            rw [Action.bind_of_ok (Action.take_of_ok htake), Machine.after_nil_self]
            cases hwrite : m.memory.write f.slot (old + f.step) with
            | error fault =>
                rw [Action.bind_of_error (Action.changeOrFail_of_error hwrite)]
                exact .refl m
            | ok memory =>
                rw [Action.bind_of_ok (Action.changeOrFail_of_ok hwrite)]
                have htells := (CountsLoop.intro hread hwrite).tells
                split
                · exact htells
                · exact htells

/-- Executing a well-formed statement makes its reads known. -/
theorem exec_tells {stmt : Stmt} (hstmt : stmt.WellFormed) (m : Machine) :
    m.Tells (stmt.reads m.memory) (machineAfter (Action.exec stmt m)) := by
  cases stmt with
  | assign target value => exact (assign_effect hstmt.1 hstmt.2).tells hstmt
  | dim items => exact (dim_effect fun item hitem => (hstmt.2 item hitem).2).tells hstmt
  | forTo slot start limit step =>
      exact (forTo_effect hstmt.1 hstmt.2.1 hstmt.2.2.1 hstmt.2.2.2).tells hstmt
  | next slot => exact closeLoop_tells slot
  | printText text => exact Effect.printText.tells hstmt
  | print value => exact (print_effect hstmt).tells hstmt
  | goto line => exact (goto_effect line).tells hstmt
  | ifThen cond line => exact (ifThen_effect line hstmt.1).tells hstmt
  | stop => exact Effect.stop.tells hstmt
  | unknown => exact hstmt.elim

end Statements

/-- Whatever a well-formed statement comes to, it makes known one report for each array read of it
    that fails, in the order of its reads, and nothing else but what it prints behind them. Such a
    read is worth zero, and complains of an array that is not declared or of a subscript that names
    no cell; every other read is worth a cell. And no report changes a value: evaluations come to
    the same value, or truth, as without any, and their reports are those of their own reads. -/
theorem failed_reads_reported_in_order {stmt : Stmt} (hstmt : stmt.WellFormed) (m : Machine) :
    m.Tells (stmt.reads m.memory) (machineAfter (Action.exec stmt m)) ∧
    (∀ r ∈ stmt.reads m.memory, r.Gives r.complaint? r.value) ∧
    (∀ (e : Expr) (memory : Memory), e.WellFormed →
      e.eval memory = ⟨reported (e.reads memory), .ok (e.value memory)⟩) ∧
    ∀ (c : Cond) (memory : Memory), c.WellFormed →
      c.eval memory = ⟨reported (c.reads memory), .ok (c.value memory)⟩ := by
  refine ⟨exec_tells hstmt m, ?_, ?_, ?_⟩
  · intro r hr
    exact ElementRead.gives (Stmt.letter_lt hstmt r hr)
  · intro e memory he
    exact Expr.eval_eq he memory
  · intro c memory hc
    exact Cond.eval_eq hc memory

/-- `DIM A(B(0)), B(2), C(B(B(2))+B(9))`: the array `B` is not there for the first bound, and is
    there for the third. -/
theorem failed_reads_reported_in_order_dim :
    ∃ (stmt : Stmt) (texts : List String), stmt.WellFormed ∧
      (stmt.reads .empty).map (fun r => (r.letter, r.subscript)) =
        [(1, 0.0), (1, 2.0), (1, 0.0), (1, 9.0)] ∧
      (machineAfter (Action.exec stmt {})).log.toList =
        [.softRead (.undeclared 1), .softRead (.outOfBounds 1 (.integer 9))] ++
          texts.map Event.printed := by
  let third : Expr :=
    .binary .add (.element 1 (.element 1 (.num 2.0))) (.element 1 (.num 9.0))
  let stmt : Stmt := .dim [(0, .element 1 (.num 0.0)), (1, .num 2.0), (2, third)]
  have hstmt : stmt.WellFormed := by decide +kernel
  have hreports : reported (stmt.reads .empty) =
      [.undeclared 1, .outOfBounds 1 (.integer 9)] := by decide +kernel
  obtain ⟨⟨texts, htexts⟩, -⟩ := failed_reads_reported_in_order hstmt {}
  refine ⟨stmt, texts, hstmt, by decide +kernel, ?_⟩
  rw [htexts]
  show [] ++ (reported (stmt.reads .empty)).map Event.softRead ++ texts.map Event.printed = _
  rw [hreports]
  rfl

end LineBasic
