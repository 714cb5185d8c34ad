import DeskCalculator.Batch
import DeskCalculator.CommandLine.Request
import DeskCalculator.Session

/-!
# The command line

`CommandLine.run` gives all that one call of the calculator prints, and its exit status.  Results go
to one stream, notices and faults to the other.
-/

namespace DeskCalculator
namespace CommandLine

/-- Lines of text, each ended by a line feed. -/
def unlines (lines : List String) : String := String.join (lines.map (· ++ "\n"))

/-- The form of a command line. -/
def usage : String := unlines
  ["usage: calculadora [-h] [--history-limit HISTORY_LIMIT]",
    "                   [--log-level \x7bDEBUG,INFO,WARNING,ERROR\x7d]",
    "                   [expressions ...]"]

/-- An explanation of the command line. -/
def help : String := usage ++ unlines
  ["",
    "Evalúa expresiones aritméticas (+ - * / ^ % √ y paréntesis).",
    "",
    "positional arguments:",
    "  expressions           Expresiones a evaluar; sin ninguna se abre el modo",
    "                        interactivo",
    "",
    "options:",
    "  -h, --help            show this help message and exit",
    "  --history-limit HISTORY_LIMIT",
    "                        Entradas máximas del historial (default: 100)",
    "  --log-level \x7bDEBUG,INFO,WARNING,ERROR\x7d",
    "                        Nivel de log (default: WARNING)"]

/-- The report of a misuse. -/
def complaint (misuse : Misuse) : String :=
  usage ++ "calculadora: error: " ++ misuse.message ++ "\n"

/-- What a call of the calculator leaves behind. -/
structure Response where
  /-- The exit status. -/
  status : Nat
  /-- The results. -/
  output : String
  /-- The notices and faults. -/
  errors : String
  deriving DecidableEq, Repr

/-- Calculate the expressions of a command line, or hold a session where there are none: the exit
status and what is printed. -/
def work [Arithmetic] (history : History) (expressions : List String) (input : String) :
    Traced (Nat × String) :=
  if expressions.isEmpty then do
    Traced.note .interactive
    let (printed, _) ← Session.run history input
    return (0, printed)
  else do
    let batch ← Batch.run history expressions
    return (batch.status, batch.output)

/-- Answer a command line, given what can be read from the input. -/
def run [Arithmetic] (arguments : List String) (input : String) :
    Traced (Except Refusal Response) :=
  match Request.ofTexts arguments with
  | .help => return .ok ⟨0, help, ""⟩
  | .reject misuse => return .ok ⟨2, "", complaint misuse⟩
  | .work settings =>
      match Limit.ofInt settings.historyLimit with
      | .error refusal => return .error refusal
      | .ok limit =>
          let done := work (History.empty (some limit)) settings.expressions input
          let errors := unlines (Notice.lines settings.logLevel done.notices)
          ⟨.ok ⟨done.value.1, done.value.2, errors⟩, done.notices⟩

end CommandLine
end DeskCalculator
