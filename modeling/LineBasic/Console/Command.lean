/-
  LineBasic.Console.Command

  What a line typed at the console asks for. A line that starts with a digit is a program line; any
  other line is a command word, case ignored, and what follows the first space.
-/
import LineBasic.Event
import LineBasic.Text.Blank
import LineBasic.Text.Digit
import LineBasic.Text.Upper

namespace LineBasic

inductive Command where
  | nothing
  | programLine (text : List Char)
  | load (path : String)
  | save (path : String)
  | fileNameMissing (command : FileCommand)
  | list
  | run
  | new
  | quit
  | unknown (word : String)
  deriving Repr, DecidableEq

namespace Command

/-- The command with a word, in capitals, and an argument. -/
def ofWord (word : String) (argument : List Char) : Command :=
  match word with
  | "LOAD" => if argument.isEmpty then .fileNameMissing .LOAD else .load (String.ofList argument)
  | "SAVE" => if argument.isEmpty then .fileNameMissing .SAVE else .save (String.ofList argument)
  | "LIST" => .list
  | "RUN" => .run
  | "NEW" => .new
  | "QUIT" => .quit
  | "EXIT" => .quit
  | word => .unknown word

def ofLine (line : List Char) : Command :=
  match Text.trim line with
  | [] => .nothing
  | c :: rest =>
    if Text.isDigit c then .programLine (c :: rest)
    else
      let (word, argument) := Text.splitAtSpace (c :: rest)
      ofWord (String.ofList (Text.upper word)) (Text.trim argument)

end Command

end LineBasic
