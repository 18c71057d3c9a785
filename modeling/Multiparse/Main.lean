import Multiparse.Arith.Console

/-!
# Command line

Reads the standard input only when no argument is an expression, and shows the transcript.
-/

namespace Multiparse

/-- Reads a stream to its end. -/
partial def readAll (stream : IO.FS.Stream) (read : ByteArray) : IO ByteArray := do
  let chunk ← stream.read 65536
  if chunk.isEmpty then return read else readAll stream (read ++ chunk)

end Multiparse

open Multiparse in
/-- The calculator. -/
def main (arguments : List String) : IO UInt32 := do
  let input ←
    if Arith.Console.readsInput arguments then readAll (← IO.getStdin) .empty
    else pure .empty
  let transcript := Arith.Console.run arguments input
  (← IO.getStdout).putStr transcript.output
  (← IO.getStderr).putStr transcript.errors
  return transcript.status.toUInt32
