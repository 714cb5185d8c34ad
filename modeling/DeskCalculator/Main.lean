import DeskCalculator.CommandLine
import DeskCalculator.Numeric.Power

/-!
# The calculator as a program

Reads the arguments and, where they name no expression, the lines of a session as they are typed.
-/

namespace DeskCalculator
namespace Main

/-- Show the notices of a result, and give the result. -/
def showing {α : Type} (least : Level) (traced : Traced α) : IO α := do
  for line in Notice.lines least traced.notices do
    IO.eprintln line
  return traced.value

/-- Hold a session, answering every line before the next one is read. -/
partial def converse (least : Level) (history : History) : IO Unit := do
  let output ← IO.getStdout
  output.putStr Session.prompt
  output.flush
  let line ← (← IO.getStdin).getLine
  if line.isEmpty then
    output.putStrLn ""
  else
    match Command.ofLine line with
    | .quit => return
    | command =>
        let (answer, history) ← showing least (Session.respond history command)
        output.putStr answer
        converse least history

/-- Work under given settings. -/
def work (settings : Settings) (limit : Limit) : IO Nat := do
  let history := History.empty (some limit)
  if settings.expressions.isEmpty then
    showing settings.logLevel (Traced.note .interactive)
    IO.print Session.greeting
    converse settings.logLevel history
    return 0
  else
    let batch ← showing settings.logLevel (Batch.run history settings.expressions)
    IO.print batch.output
    return batch.status

end Main
end DeskCalculator

open DeskCalculator in
/-- Answer a command line. -/
def main (arguments : List String) : IO UInt32 := do
  match Request.ofTexts arguments with
  | .help =>
      IO.print CommandLine.help
      return 0
  | .reject misuse =>
      IO.eprint (CommandLine.complaint misuse)
      return 2
  | .work settings =>
      match Limit.ofInt settings.historyLimit with
      | .error refusal =>
          IO.eprintln refusal.message
          return 1
      | .ok limit => return (← DeskCalculator.Main.work settings limit).toUInt32
