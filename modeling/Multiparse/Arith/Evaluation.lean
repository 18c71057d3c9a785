import Multiparse.Arith.Calculator
import Multiparse.Event
import Multiparse.Text.Lines
import Multiparse.Text.Quoted

/-!
# Evaluating a source

A source is cut into lexemes, read as one expression, and given its value. A failure is reported
against the source: the line it is on, the line before, and a mark under the lexeme.
-/

namespace Multiparse.Arith

/-- Why a source has no value. -/
inductive Failure where
  /-- Something in the source begins no lexeme. -/
  | unreadable (source : String) (reason : Unreadable)
  /-- The lexemes are no expression. -/
  | rejected (source : String) (lexemes : List Lexeme) (error : Diagnostic)
  /-- The grammar cannot be run. -/
  | faulty (fault : Fault)

/-- How a marked part of a source line is shown. -/
inductive Highlight where
  | plain
  | red

/-- Shows a marked part. -/
def Highlight.show : Highlight → String → String
  | plain, part => part
  | red, part => "\x1b[31m" ++ part ++ "\x1b[0m"

/-- So many spaces. -/
def spaces (count : Nat) : String := "".pushn ' ' count

/-- A line with the part from one column to another marked. -/
def markLine (highlight : Highlight) (line : String) (column endColumn : Nat) : String :=
  let characters := line.toList
  String.ofList (characters.take column) ++
    highlight.show (String.ofList ((characters.take endColumn).drop column)) ++
    String.ofList (characters.drop endColumn)

/-- Points at a span of a source with a message. -/
def point (highlight : Highlight) (source : String) (span : Span) (message : String) : String :=
  let lines := Text.lines source
  let margin := spaces (toString span.line).length ++ " |"
  let before := if span.line = 0 then "" else lines.getD (span.line - 1) ""
  "\n".intercalate
    [margin,
      margin ++ before ++ " ",
      toString (span.line + 1) ++ " |" ++
        markLine highlight (lines.getD span.line "") span.column span.endColumn,
      toString (span.line + 2) ++ " |" ++ spaces (span.endColumn - 1) ++ "^--- " ++ message,
      margin]

/-- A diagnostic in words, with a pointer into the source if it is about a lexeme. -/
def report (highlight : Highlight) (source : String) (lexemes : List Lexeme) (error : Diagnostic) :
    String :=
  match error.position with
  | .token offset =>
    match lexemes[offset]? with
    | some lexeme => point highlight source lexeme.span error.text
    | none => error.text ++ " at " ++ error.position.text
  | .eof => error.text ++ " at end of input"
  | .unknown => error.text

namespace Failure

/-- What the user is told. -/
def message (highlight : Highlight) : Failure → String
  | unreadable source reason =>
    "failed to lex input: Failed to lex '" ++ source ++ "' at position " ++
      toString reason.offset ++ "; remaining '" ++ String.ofList reason.remaining ++ "'"
  | rejected source lexemes error => report highlight source lexemes error
  | faulty fault => fault.message

/-- The diagnostic behind a failure. -/
def diagnostic? : Failure → Option Diagnostic
  | rejected _ _ error => some error
  | _ => none

end Failure

/-- What happened while a source was evaluated. -/
inductive Progress where
  | lexed (count : Nat) (source : String)
  | parsed (source : String)
  deriving DecidableEq

/-- The record of a piece of progress. -/
def Progress.toRecord : Progress → Record
  | lexed count source =>
    ⟨.debug, "lexed " ++ toString count ++ " token(s) from " ++ Text.quoted source⟩
  | parsed source => ⟨.debug, "parsed " ++ Text.quoted source⟩

variable {α : Type}

/-- The value of lexemes that make one expression. -/
def value (semantics : Semantics α) (source : String) (lexemes : List Lexeme) :
    Except Failure α :=
  match parse (rules semantics) .expr lexemes with
  | .error fault => .error (.faulty fault)
  | .ok outcome => outcome.whole.mapError (.rejected source lexemes)

/-- The value of a source and the progress made. -/
def evaluate (semantics : Semantics α) (source : String) : Except Failure α × List Progress :=
  match lex source with
  | .error reason => (.error (.unreadable source reason), [])
  | .ok lexemes =>
    match value semantics source lexemes with
    | .error failure => (.error failure, [.lexed lexemes.length source])
    | .ok result => (.ok result, [.lexed lexemes.length source, .parsed source])

end Multiparse.Arith
