/-
  LineBasic.Stmt.Parse

  From the text of a statement to the statement.

  The text is trimmed and read as a sentence of its kind. Two kinds ignore text behind the sentence:
  a `PRINT` of quoted text, and an `IF` without `THEN`. For them the text is cut where reading was
  refused, and what stands before the cut has to be such a statement on its own. A text that merely
  ends too early is never cut.
-/
import LineBasic.Sentence.Reader
import LineBasic.Sentence.Resolve
import LineBasic.Text.Blank

namespace LineBasic

/-- Whether text behind the statement is ignored. -/
def Stmt.ignoresRest : Stmt → Bool
  | .printText _ => true
  | .ifThen _ none => true
  | _ => false

/-- The place up to which a text of a kind may be read again. -/
def Stop.cut? (kind : Kind) : Stop → Option Nat
  | .refused place => if (kind = .PRINT ∨ kind = .IF) ∧ 0 < place then some place else none
  | .ended _ => none

/-- The column of a stop, counted from one. -/
def Stop.column : Stop → Nat
  | .refused place => place + 1
  | .ended lastToken => lastToken + 1

namespace Stmt

/-- Reads the whole of a trimmed text as a sentence of the given kind, and resolves it. -/
def parseWhole (kind : Kind) (text : List Char) : Except Stop (Except Rejection Stmt) :=
  (Sentence.read kind text).map Sentence.resolve

/-- The statement before the refused part of a text, if the rest may be ignored. A mistake inside
    it that is not one of reading is reported as such. -/
def beforeCut? (kind : Kind) (text : List Char) (halt : Stop) : Option (Except Rejection Stmt) :=
  match halt.cut? kind with
  | none => none
  | some place =>
    match parseWhole kind (text.take place) with
    | .error _ => none
    | .ok (.error rejection) => some (.error rejection)
    | .ok (.ok stmt) => if stmt.ignoresRest then some (.ok stmt) else none

/-- The report of a text that is no statement of its kind. -/
def misread (kind : Kind) (text : List Char) (halt : Stop) : Misread where
  cause :=
    if kind = .ASSIGN then .unknownStatement (String.ofList text)
    else .malformed kind (String.ofList text)
  column := some halt.column

/-- Parses a trimmed text as a statement of the given kind. -/
def parseTrimmed (kind : Kind) (text : List Char) : Except Rejection Stmt :=
  match kind with
  | .END => .ok .stop
  | kind =>
    match parseWhole kind text with
    | .ok outcome => outcome
    | .error halt =>
      (beforeCut? kind text halt).getD (.error (.misread (misread kind text halt)))

/-- Parses a text as a statement of the given kind. -/
def parseAs (kind : Kind) (text : List Char) : Except Rejection Stmt :=
  parseTrimmed kind (Text.trim text)

/-- Parses a text as a statement of the kind that its keyword says. -/
def parse (text : List Char) : Except Rejection Stmt :=
  parseAs (Kind.ofText (Text.trim text)) text

end Stmt

end LineBasic
