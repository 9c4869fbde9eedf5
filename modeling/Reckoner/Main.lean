import Reckoner.Service.Session

/-! # The program

Reads request lines from standard input and writes one reply line for each that gets one. An
environment variable lists the functions to leave out.
-/

namespace Reckoner

/-- The environment variable with the names of the functions to leave out. -/
def disabledVariable : String := "MODULO_DISABLED_FUNCTIONS"

/-- Answers line after line until the input ends. -/
partial def converse (input output : IO.FS.Stream) (registry : Registry) : IO Unit := do
  let line ← input.getLine
  if line.isEmpty then return ()
  let (next, reply) := Service.answerLine .plain registry line.toList
  if let some reply := reply then
    output.putStrLn reply.toJson.render
    output.flush
  converse input output next

end Reckoner

/-- Serves standard input. -/
def main : IO Unit := do
  let disabled ← IO.getEnv Reckoner.disabledVariable
  Reckoner.converse (← IO.getStdin) (← IO.getStdout) (Reckoner.Service.start disabled)
