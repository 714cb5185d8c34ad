import DeskCalculator.Calculation

/-!
# Interactive sessions

A session reads lines.  A few words are commands about the history; every other line is an
expression to calculate.  `Session.respond` gives the answer to one command, and `Session.run` all
that a session prints until a line asks it to end or no line is left.
-/

namespace DeskCalculator

/-- What a line of a session asks for. -/
inductive Command where
  /-- Nothing. -/
  | blank
  /-- The end of the session. -/
  | quit
  /-- A list of the history. -/
  | history
  /-- The removal of the history. -/
  | clear
  /-- The expression of an entry, whose number is still to be read. -/
  | load (argument : String)
  /-- The result of an expression. -/
  | calculate (expression : String)
  deriving DecidableEq, Repr

/-- Read a command from a line.  Blanks at its ends do not count, and the argument of a command
begins after one space. -/
def Command.ofLine (line : String) : Command :=
  let text := Text.strip line
  if text = "" then
    .blank
  else if text = "quit" ∨ text = "exit" then
    .quit
  else if text = "history" then
    .history
  else if text = "clear" then
    .clear
  else if text = "load" then
    .load ""
  else
    match text.toList with
    | 'l' :: 'o' :: 'a' :: 'd' :: ' ' :: argument => .load (String.ofList argument)
    | _ => .calculate text

namespace Session

/-- The first line that a session prints. -/
def greeting : String := "Calculadora. Comandos: history, clear, load N, quit\n"

/-- What a session prints before it reads a line. -/
def prompt : String := "> "

/-- The answer to a command that cannot be read. -/
def usage : String := "Uso: load N\n"

/-- The entries of a history with their numbers, from one for the newest. -/
def listing (history : History) : String :=
  if history.entries.isEmpty then
    "(historial vacío)\n"
  else
    String.join (history.lines.mapIdx fun index line =>
      toString (index + 1) ++ ": " ++ line ++ "\n")

/-- The expression of the entry whose number is given.  Any refusal but that of a missing entry is
treated as a number that cannot be read. -/
def load (history : History) (argument : String) : String :=
  match Text.Integer.read? argument with
  | none => usage
  | some number =>
      match history.get (number - 1) with
      | .ok entry => entry.expression ++ "\n"
      | .error (.noEntry index) => (Refusal.noEntry index).message ++ "\n"
      | .error _ => usage

/-- What a session prints in answer to a command, and the history after it. -/
def respond [Arithmetic] (history : History) : Command → Traced (String × History)
  | .blank => return ("", history)
  | .quit => return ("", history)
  | .history => return (listing history, history)
  | .clear => return ("Historial borrado.\n", history.clear)
  | .load argument => return (load history argument, history)
  | .calculate expression => do
      let (outcome, history) ← Calculation.calculate history expression
      return (match outcome with
        | none => ""
        | some outcome => outcome.text ++ "\n", history)

/-- What a session prints from its first prompt on, and the history after it. -/
def converse [Arithmetic] (history : History) : List String → Traced (String × History)
  | [] => return (prompt ++ "\n", history)
  | line :: rest =>
      match Command.ofLine line with
      | .quit => return (prompt, history)
      | command => do
          let (answer, history) ← respond history command
          let (later, history) ← converse history rest
          return (prompt ++ answer ++ later, history)

/-- The lines of an input, each ended by a line feed, the last one perhaps not. -/
def linesOf : List Char → List (List Char)
  | [] => []
  | c :: rest =>
      if c = '\n' then
        [] :: linesOf rest
      else
        match linesOf rest with
        | [] => [[c]]
        | line :: later => (c :: line) :: later

/-- All that a session prints for an input, and the history after it. -/
def run [Arithmetic] (history : History) (input : String) : Traced (String × History) := do
  let (printed, history) ← converse history ((linesOf input.toList).map String.ofList)
  return (greeting ++ printed, history)

end Session
end DeskCalculator
