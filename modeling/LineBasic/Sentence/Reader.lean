/-
  LineBasic.Sentence.Reader

  Reading a sentence from left to right, one token at a time.

  A reader state says what has been read and so what may come next: `ReadState.expecting` gives the
  tokens to look for, `ReadState.step?` the state after a token, and `ReadState.finish?` the
  sentence if the text ends here. Reading stops at the first token that `step?` refuses or that is
  no token at all, or when the text ends where no sentence does.
-/
import LineBasic.Sentence.Token

namespace LineBasic

/-! ## Unfinished expressions -/

/-- An expression that is being read inside one pair of brackets: a sum and a product that wait for
    their right operands, and the signs before the operand, the last one first. -/
structure Level where
  sum : Option (Phrase × Operator) := none
  product : Option (Phrase × Operator) := none
  signs : List Sign := []
  deriving Repr, DecidableEq

/-- Why a bracket was opened. -/
inductive Bracket where
  | group
  | subscript (mention : Mention)
  deriving Repr, DecidableEq

/-- An unfinished expression: the innermost level, and the levels outside its brackets, the nearest
    first. -/
structure Unfinished where
  level : Level := {}
  outer : List (Level × Bracket) := []
  deriving Repr, DecidableEq

namespace Level

/-- The operand under the signs before it. -/
def factor (l : Level) (operand : Phrase) : Phrase :=
  l.signs.foldl (fun e sign => .signed sign e) operand

/-- The product that ends with the operand. -/
def term (l : Level) (operand : Phrase) : Phrase :=
  match l.product with
  | none => l.factor operand
  | some (left, op) => .binary op left (l.factor operand)

/-- The sum that ends with the operand. -/
def total (l : Level) (operand : Phrase) : Phrase :=
  match l.sum with
  | none => l.term operand
  | some (left, op) => .binary op left (l.term operand)

/-- The level after an operand and an operator. Products bind tighter than sums, and operators of
    one rank group to the left. -/
def join (l : Level) (operand : Phrase) (op : Operator) : Level :=
  match op with
  | .add | .sub => { sum := some (l.total operand, op) }
  | .mul | .div => { sum := l.sum, product := some (l.term operand, op) }

end Level

/-! ## States -/

/-- What an expression is read for. -/
inductive Purpose where
  /-- The subscript on the left of an assignment. -/
  | recipientIndex (mention : Mention)
  | value (recipient : Recipient)
  | bound (items : List (Mention × Phrase)) (mention : Mention)
  | start (mention : Mention)
  | limit (mention : Mention) (start : Phrase)
  | step (mention : Mention) (start limit : Phrase)
  | print
  | condition
  | comparand (relation : Relation) (left : Phrase)
  deriving Repr, DecidableEq

inductive ReadState where
  | opening (kind : Kind)
  | recipient
  | recipientName (mention : Mention)
  | recipientDone (recipient : Recipient)
  | dimName (items : List (Mention × Phrase))
  | dimBracket (items : List (Mention × Phrase)) (mention : Mention)
  | dimMore (items : List (Mention × Phrase))
  | forName
  | forBecomes (mention : Mention)
  | nextName
  | printOperand
  /-- A line number comes: after `GOTO`, or after `THEN` and the condition read before it. -/
  | lineNumber (clause : Option Clause)
  | operand (purpose : Purpose) (expr : Unfinished)
  /-- A name was read that a bracket may still turn into an array element. -/
  | named (purpose : Purpose) (expr : Unfinished) (mention : Mention)
  | operator (purpose : Purpose) (expr : Unfinished) (operand : Phrase)
  /-- The sentence is complete and nothing may follow. -/
  | complete (sentence : Sentence)
  deriving Repr, DecidableEq

namespace ReadState

/-- The state in which a sentence of a kind begins. -/
def start : Kind → ReadState
  | .ASSIGN => .recipient
  | kind => .opening kind

/-- The state after the keyword of a kind. -/
def afterKeyword? : Kind → Option ReadState
  | .LET | .ASSIGN => some .recipient
  | .DIM => some (.dimName [])
  | .FOR => some .forName
  | .PRINT => some .printOperand
  | .GOTO => some (.lineNumber none)
  | .IF => some (.operand .condition {})
  | .NEXT => some .nextName
  | .END => none

def expecting : ReadState → Expecting
  | .opening kind => .keyword kind
  | .recipient | .dimName _ | .forName | .nextName | .printOperand | .operand .. => .operand
  | .recipientName _ | .recipientDone _ | .dimBracket .. | .forBecomes _ => .binding
  | .lineNumber _ => .lineNumber
  | .dimMore _ | .named .. | .operator .. | .complete _ => .operator

end ReadState

/-- The condition that an expression completes. -/
def Purpose.clause? (purpose : Purpose) (expr : Phrase) : Option Clause :=
  match purpose with
  | .condition => some (.nonzero expr)
  | .comparand relation left => some (.compare relation left expr)
  | _ => none

/-- The sentence that ends with a complete expression. -/
def Purpose.finish? (purpose : Purpose) (expr : Phrase) : Option Sentence :=
  match purpose with
  | .value recipient => some (.assign recipient expr)
  | .limit mention first => some (.forTo mention first expr none)
  | .step mention first last => some (.forTo mention first last (some expr))
  | .print => some (.print (some expr))
  | .condition | .comparand .. => (purpose.clause? expr).map (.ifThen · none)
  | .recipientIndex _ | .bound .. | .start _ => none

/-- The state after a complete expression, outside all brackets, and the token behind it. -/
def Purpose.follow? (purpose : Purpose) (expr : Phrase) (token : Token) : Option ReadState :=
  match purpose, token with
  | .recipientIndex mention, .closeBracket => some (.recipientDone (.element mention expr))
  | .bound items mention, .closeBracket => some (.dimMore (items ++ [(mention, expr)]))
  | .start mention, .joint .to => some (.operand (.limit mention expr) {})
  | .limit mention first, .joint .step => some (.operand (.step mention first expr) {})
  | .condition, .relation relation => some (.operand (.comparand relation expr) {})
  | purpose, .joint .then => (purpose.clause? expr).map fun clause => .lineNumber (some clause)
  | _, _ => none

namespace ReadState

/-- The state after a token where an operand is expected. -/
def stepOperand? (purpose : Purpose) (u : Unfinished) (place : Nat) : Token → Option ReadState
  | .name slot => some (.named purpose u ⟨slot, place⟩)
  | .numeral digits => some (.operator purpose u (.numeral digits))
  | .operator .add =>
    some (.operand purpose { u with level := { u.level with signs := .plus :: u.level.signs } })
  | .operator .sub =>
    some (.operand purpose { u with level := { u.level with signs := .minus :: u.level.signs } })
  | .openBracket => some (.operand purpose { level := {}, outer := (u.level, .group) :: u.outer })
  | _ => none

/-- The state after a token behind an operand. -/
def stepOperator? (purpose : Purpose) (u : Unfinished) (last : Phrase) (token : Token) :
    Option ReadState :=
  match token, u.outer with
  | .operator op, _ => some (.operand purpose { u with level := u.level.join last op })
  | .closeBracket, (level, .group) :: outer =>
    some (.operator purpose { level, outer } (u.level.total last))
  | .closeBracket, (level, .subscript mention) :: outer =>
    some (.operator purpose { level, outer } (.element mention (u.level.total last)))
  | token, [] => purpose.follow? (u.level.total last) token
  | _, _ :: _ => none

/-- The state after a token that stands at offset `place`. -/
def step? (state : ReadState) (place : Nat) (token : Token) : Option ReadState :=
  match state, token with
  | .opening _, .opening kind => afterKeyword? kind
  | .recipient, .name slot => some (.recipientName ⟨slot, place⟩)
  | .recipientName mention, .becomes => some (.operand (.value (.scalar mention)) {})
  | .recipientName mention, .openBracket => some (.operand (.recipientIndex mention) {})
  | .recipientDone left, .becomes => some (.operand (.value left) {})
  | .dimName items, .name slot => some (.dimBracket items ⟨slot, place⟩)
  | .dimBracket items mention, .openBracket => some (.operand (.bound items mention) {})
  | .dimMore items, .comma => some (.dimName items)
  | .forName, .name slot => some (.forBecomes ⟨slot, place⟩)
  | .forBecomes mention, .becomes => some (.operand (.start mention) {})
  | .nextName, .name slot => some (.complete (.next (some ⟨slot, place⟩)))
  | .printOperand, .text content => some (.complete (.printText content))
  | .printOperand, token => stepOperand? .print {} place token
  | .lineNumber none, .lineNumber digits => some (.complete (.goto digits))
  | .lineNumber (some clause), .lineNumber digits => some (.complete (.ifThen clause (some digits)))
  | .operand purpose u, token => stepOperand? purpose u place token
  | .named purpose u mention, .openBracket =>
    some (.operand purpose { level := {}, outer := (u.level, .subscript mention) :: u.outer })
  | .named purpose u mention, token => stepOperator? purpose u (.name mention) token
  | .operator purpose u last, token => stepOperator? purpose u last token
  | _, _ => none

/-- The sentence, if the text may end here. -/
def finish? : ReadState → Option Sentence
  | .dimMore items => some (.dim items)
  | .nextName => some (.next none)
  | .printOperand => some (.print none)
  | .named purpose ⟨level, []⟩ mention => purpose.finish? (level.total (.name mention))
  | .operator purpose ⟨level, []⟩ last => purpose.finish? (level.total last)
  | .complete sentence => some sentence
  | _ => none

end ReadState

/-! ## Reading -/

/-- Why reading a sentence came to a stop. -/
inductive Stop where
  /-- No sentence goes on with what stands at this offset. -/
  | refused (place : Nat)
  /-- The text ended too early; its last token starts at this offset. -/
  | ended (lastToken : Nat)
  deriving Repr, DecidableEq

/-- Reads on from a state. `skip` characters of the text belong to the token before, which starts at
    `lastToken`; the text starts at offset `place`. -/
def ReadState.read (state : ReadState) (skip lastToken place : Nat) :
    List Char → Except Stop Sentence
  | [] =>
    match state.finish? with
    | some sentence => .ok sentence
    | none => .error (.ended lastToken)
  | c :: rest =>
    match skip with
    | skip + 1 => state.read skip lastToken (place + 1) rest
    | 0 =>
      if isGap c then state.read 0 lastToken (place + 1) rest
      else
        match Token.scan? state.expecting (c :: rest) with
        | none => .error (.refused place)
        | some (token, size) =>
          match state.step? place token with
          | none => .error (.refused place)
          | some state => state.read (size - 1) place (place + 1) rest

/-- Reads a sentence of the given kind. -/
def Sentence.read (kind : Kind) (text : List Char) : Except Stop Sentence :=
  (ReadState.start kind).read 0 0 0 text

end LineBasic
