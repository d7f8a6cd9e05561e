/-
  LineBasic.CommandLine.Options

  The options of the command line.

  Arguments are first classified one by one (`Piece`), which finds ambiguous abbreviations, and then
  consumed from left to right. A long option may be abbreviated and may carry its value behind an
  equals sign; short options may be written together, with or without an equals sign behind the
  first; an argument that looks like a negative number is a value; behind `--` every argument is a
  value. The first value is the program, and what is left over is refused at the end.
-/
import LineBasic.Text.Integer

namespace LineBasic

/-- What the arguments ask for. A limit is missing when its option was given without a number. -/
structure Options where
  program : Option String := none
  maxLines : Option Int := some 1000
  maxForDepth : Option Int := some 256
  verbose : Bool := false
  deriving Repr, DecidableEq

namespace Options

/-! ## Options and their spellings -/

inductive Flag where
  | help
  | maxLines
  | maxForDepth
  | verbose
  deriving Repr, DecidableEq

/-- Every spelling of every option, in the order in which they are tried. -/
def spellings : List (String × Flag) :=
  [("-h", .help), ("--help", .help), ("--max-lines", .maxLines),
   ("--max-for-depth", .maxForDepth), ("-v", .verbose), ("--verbose", .verbose)]

def Flag.takesValue : Flag → Bool
  | .maxLines | .maxForDepth => true
  | .help | .verbose => false

/-- The name of an option in messages: its spellings. -/
def Flag.title (flag : Flag) : String :=
  "/".intercalate ((spellings.filter (·.2 = flag)).map (·.1))

/-! ## Outcomes other than options -/

inductive UsageError where
  | ambiguous (argument : String) (matching : List String)
  | valueMissing (flag : Flag)
  | badInteger (flag : Flag) (text : String)
  | valueIgnored (flag : Flag) (text : String)
  | unrecognized (arguments : List String)
  deriving Repr, DecidableEq

def UsageError.message : UsageError → String
  | .ambiguous argument matching =>
    s!"ambiguous option: {argument} could match " ++ ", ".intercalate matching
  | .valueMissing flag => s!"argument {flag.title}: expected one argument"
  | .badInteger flag text => s!"argument {flag.title}: invalid int value: {Text.quoted text}"
  | .valueIgnored flag text =>
    s!"argument {flag.title}: ignored explicit argument {Text.quoted text}"
  | .unrecognized arguments => "unrecognized arguments: " ++ " ".intercalate arguments

/-- Why the command line starts no session. -/
inductive Refusal where
  | help
  | usage (error : UsageError)
  deriving Repr, DecidableEq

/-! ## Classification -/

/-- What an argument is. Text is attached to an option behind an equals sign, or glued to a short
    option. -/
inductive Piece where
  | value (text : String)
  | separator
  | option (flag : Flag) (short : Bool) (attached : Option (List Char))
  | unknownOption (text : String)
  deriving Repr, DecidableEq

def isLong (spelling : String) : Bool :=
  spelling.startsWith "--"

/-- Whether the text is a minus sign and digits, with a point before some of them at most. A line
    feed may follow. -/
def looksNegative (argument : List Char) : Bool :=
  let body := if argument.getLast? = some '\n' then argument.dropLast else argument
  match body with
  | '-' :: number =>
    let whole := number.takeWhile Text.isDecimal
    match number.drop whole.length with
    | [] => !whole.isEmpty
    | '.' :: fraction => !fraction.isEmpty && fraction.all Text.isDecimal
    | _ => false
  | _ => false

/-- The text before the first equals sign, and the text after it when there is one. -/
def splitAtEquals (argument : List Char) : List Char × Option (List Char) :=
  let name := argument.takeWhile (· != '=')
  match argument.drop name.length with
  | _ :: value => (name, some value)
  | [] => (name, none)

/-- The options that an argument may stand for. -/
def candidates (argument : List Char) : List (String × Piece) :=
  match argument with
  | '-' :: '-' :: _ =>
    let (name, value) := splitAtEquals argument
    spellings.filterMap fun (spelling, flag) =>
      if name.isPrefixOf spelling.toList then
        some (spelling, .option flag false value)
      else none
  | '-' :: c :: rest =>
    spellings.filterMap fun (spelling, flag) =>
      if spelling.toList = ['-', c] then some (spelling, .option flag true (some rest))
      else if argument.isPrefixOf spelling.toList then some (spelling, .option flag false none)
      else none
  | _ => []

/-- The option that the argument spells out, with or without an attached value. -/
def spelledOut? (argument : List Char) : Option Piece :=
  match spellings.lookup (String.ofList argument) with
  | some flag => some (.option flag (!isLong (String.ofList argument)) none)
  | none =>
    match splitAtEquals argument with
    | (name, some text) =>
      (spellings.lookup (String.ofList name)).map fun flag =>
        .option flag (!isLong (String.ofList name)) (some text)
    | (_, none) => none

def classify (argument : String) : Except UsageError Piece :=
  let text := argument.toList
  if text.length < 2 || text.head? != some '-' then .ok (.value argument)
  else
    match spelledOut? text with
    | some piece => .ok piece
    | none =>
      match candidates text with
      | [(_, piece)] => .ok piece
      | [] =>
        if looksNegative text || text.contains ' ' then .ok (.value argument)
        else .ok (.unknownOption argument)
      | several => .error (.ambiguous argument (several.map (·.1)))

/-- Classifies the arguments; those behind a separator are values. -/
def classifyAll : List String → Except UsageError (List Piece)
  | [] => .ok []
  | argument :: rest =>
    if argument = "--" then .ok (.separator :: rest.map .value)
    else do
      let piece ← classify argument
      return piece :: (← classifyAll rest)

/-! ## Consumption -/

/-- The options that a short option asks for with the text attached to it, of which every character
    is a short option. -/
def expandShort (flag : Flag) : List Char → Except UsageError (List Flag)
  | [] => .ok [flag]
  | c :: rest =>
    match spellings.lookup (String.ofList ['-', c]) with
    | some next => do return flag :: (← expandShort next rest)
    | none => .error (.valueIgnored flag (String.ofList (c :: rest)))

/-- The options after an option without a value. -/
def takeFlag (o : Options) : Flag → Except Refusal Options
  | .help => .error .help
  | .verbose => .ok { o with verbose := true }
  | .maxLines | .maxForDepth => .ok o

def takeFlags (o : Options) (flags : List Flag) : Except Refusal Options :=
  flags.foldlM takeFlag o

/-- The options after an option with a limit, or without one. -/
def takeLimit (o : Options) (flag : Flag) (limit : Option Int) : Options :=
  match flag with
  | .maxLines => { o with maxLines := limit }
  | .maxForDepth => { o with maxForDepth := limit }
  | .help | .verbose => o

/-- The options after an option with its value. The separator as a value is no value at all. -/
def takeValue (o : Options) (flag : Flag) (text : String) : Except Refusal Options :=
  if text = "--" then .ok (o.takeLimit flag none)
  else
    match Text.readInteger? text.toList with
    | none => .error (.usage (.badInteger flag text))
    | some n => .ok (o.takeLimit flag (some n))

/-- Consumes classified arguments. `free` says that the program is still to come; `left` holds what
    is left over, the last first. -/
def consume (o : Options) (free : Bool) (left : List String) :
    List Piece → Except Refusal (Options × List String)
  | [] => .ok (o, left.reverse)
  | .option flag _ none :: rest =>
    if flag.takesValue then
      match rest with
      | .value text :: rest => do (← o.takeValue flag text).consume free left rest
      | _ => .error (.usage (.valueMissing flag))
    else do (← o.takeFlag flag).consume free left rest
  | .option flag short (some text) :: rest =>
    if flag.takesValue then do (← o.takeValue flag (String.ofList text)).consume free left rest
    else if short && !text.isEmpty then
      match expandShort flag text with
      | .error e => .error (.usage e)
      | .ok flags => do (← o.takeFlags flags).consume free left rest
    else .error (.usage (.valueIgnored flag (String.ofList text)))
  | .unknownOption text :: rest => o.consume free (text :: left) rest
  | .value text :: rest =>
    if free then
      match rest with
      | .separator :: rest => { o with program := some text }.consume false left rest
      | rest => { o with program := some text }.consume false left rest
    else o.consume false (text :: left) rest
  | .separator :: rest =>
    if free then
      match rest with
      | .value text :: rest => { o with program := some text }.consume false left rest
      | rest => o.consume false left rest
    else o.consume false ("--" :: left) rest

/-- The options that the arguments ask for. -/
def ofArguments (arguments : List String) : Except Refusal Options :=
  match classifyAll arguments with
  | .error e => .error (.usage e)
  | .ok pieces =>
    match consume {} true [] pieces with
    | .error refusal => .error refusal
    | .ok (o, []) => .ok o
    | .ok (_, left) => .error (.usage (.unrecognized left))

end Options

end LineBasic
