import Multiparse.Arith.Evaluation
import Multiparse.Decimal.Shortest
import Multiparse.Text.Blank

/-!
# The calculator's console

Arguments are expressions, except for a switch that asks for the printed form instead of the value.
With expressions among the arguments the first that fails ends the work; without any, the lines of
the standard input are expressions, blank ones are passed over, and failures are only reported.
-/

namespace Multiparse.Arith.Console

/-- What is shown for an expression. -/
inductive Mode where
  | evaluate
  | print

/-- The result line of an expression, or why there is none. -/
def answer (mode : Mode) (source : String) : Except String String :=
  let shown : Except Failure String :=
    match mode with
    | .evaluate => (Arith.evaluate evaluator source).1.map Decimal.floatText
    | .print => (Arith.evaluate printer source).1
  shown.mapError (Failure.message .plain)

/-- Everything that a run of the calculator shows. -/
structure Transcript where
  status : Nat
  output : String
  errors : String
  deriving DecidableEq

namespace Transcript

/-- Nothing shown and no failure. -/
def empty : Transcript := ⟨0, "", ""⟩

/-- The end of a run that stops with a failure. -/
def stopped (message : String) : Transcript := ⟨1, "", "Error: " ++ message ++ "\n"⟩

/-- Shows a result before everything else. -/
def withOutput (line : String) (rest : Transcript) : Transcript :=
  { rest with output := line ++ "\n" ++ rest.output }

/-- Reports a failure before everything else. -/
def withError (line : String) (rest : Transcript) : Transcript :=
  { rest with errors := line ++ "\n" ++ rest.errors }

end Transcript

/-- Answers expressions until one fails. -/
def answerAll (mode : Mode) : List String → Transcript
  | [] => .empty
  | source :: sources =>
    match answer mode source with
    | .ok line => (answerAll mode sources).withOutput line
    | .error message => .stopped message

/-- Answers the lines of an input; a line that is no text ends the work. -/
def answerLines (mode : Mode) : List (List UInt8) → Transcript
  | [] => .empty
  | bytes :: lines =>
    match String.fromUTF8? ⟨bytes.toArray⟩ with
    | none => .stopped "stream did not contain valid UTF-8"
    | some line =>
      if Text.isBlank line then answerLines mode lines
      else
        match answer mode line with
        | .ok shown => (answerLines mode lines).withOutput shown
        | .error message => (answerLines mode lines).withError message

/-- Whether an argument is the switch for the printed form. -/
def isPrintSwitch (argument : String) : Bool := argument == "--print" || argument == "-p"

/-- Whether the expressions come from the standard input. -/
def readsInput (arguments : List String) : Bool := arguments.all isPrintSwitch

/-- The whole run of the calculator. -/
def run (arguments : List String) (input : ByteArray) : Transcript :=
  let mode := if arguments.any isPrintSwitch then Mode.print else Mode.evaluate
  if readsInput arguments then answerLines mode (Text.linesOf 0x0a 0x0d input.toList)
  else answerAll mode (arguments.filter fun argument => !isPrintSwitch argument)

end Multiparse.Arith.Console
