import LineBasic.CommandLine.Run
import LineBasic.Main
import LineBasic.Proofs.Machine.FailedStatement
import LineBasic.Proofs.Machine.Nesting
import LineBasic.Proofs.Machine.LoopStack
import LineBasic.Proofs.Machine.Renumbering
import LineBasic.Proofs.Machine.Unreached
import LineBasic.Proofs.Text.Integer
import LineBasic.Proofs.Text.LineBreak
import LineBasic.Proofs.Listing.Entry
import LineBasic.Proofs.Listing.RoundTrip
import LineBasic.Proofs.Grammar.Spelling
import LineBasic.Proofs.Stmt.Draft
import LineBasic.Proofs.Stmt.Writing
import LineBasic.Proofs.Stmt.RoundTrip
import LineBasic.Proofs.Machine.Editing
import LineBasic.Proofs.Console.SaveLoad
import LineBasic.Proofs.Console.TypedLine
import LineBasic.Proofs.Console.LoadAsTyped
import LineBasic.Proofs.Listing.OrderedMap
import LineBasic.Proofs.Machine.RunsAlike
import LineBasic.Proofs.Machine.LoopPasses
import LineBasic.Proofs.Stmt.Column
import LineBasic.Proofs.Stmt.Trailing
import LineBasic.Proofs.Stmt.Parsed
import LineBasic.Proofs.Machine.Reads
import LineBasic.Proofs.Machine.NamedVariables
import LineBasic.Proofs.Machine.Unwritten
import LineBasic.Proofs.Machine.Ending
import LineBasic.Proofs.Memory.Cells
import LineBasic.Proofs.Machine.Forward
import LineBasic.Proofs.Stmt.LetAssign
import LineBasic.Proofs.Stmt.LetterCase
import LineBasic.Proofs.Listing.ClosingNext
import LineBasic.Proofs.Memory.Bounds
