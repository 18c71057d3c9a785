/-!
# Lines

A line ends with a line feed, and a carriage return right before it belongs to the line end. What
follows the last line feed is a line too unless it is empty.
-/

namespace Multiparse.Text

variable {α : Type} [DecidableEq α]

/-- Cuts after each end mark and drops the marks; the last piece is kept only if something stands
in it. -/
def pieces (endMark : α) : List α → List (List α × Bool)
  | [] => []
  | c :: rest =>
    if c = endMark then ([], true) :: pieces endMark rest
    else
      match pieces endMark rest with
      | [] => [([c], false)]
      | (piece, ended) :: others => (c :: piece, ended) :: others

/-- Drops one mark at the end. -/
def dropMark (mark : α) (piece : List α) : List α :=
  if piece.getLast? = some mark then piece.dropLast else piece

/-- The lines of a sequence, given its line feed and its carriage return. -/
def linesOf (lineFeed carriageReturn : α) (text : List α) : List (List α) :=
  (pieces lineFeed text).map fun piece =>
    if piece.2 then dropMark carriageReturn piece.1 else piece.1

/-- The lines of a text. -/
def lines (text : String) : List String :=
  (linesOf '\n' '\r' text.toList).map String.ofList

end Multiparse.Text
