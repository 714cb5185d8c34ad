import DeskCalculator.CommandLine.Argument
import DeskCalculator.Text.Integer

/-!
# What a command line asks for

Arguments are read from left to right.  The first request for help and the first fault end the
reading.  The words of the first unbroken run of words are the expressions; later words, and unknown
options, are reported all together at the end.
-/

namespace DeskCalculator

/-- What the calculator is to do. -/
structure Settings where
  /-- The greatest number of entries in the history. -/
  historyLimit : Int
  /-- The least level of the notices to show. -/
  logLevel : Level
  /-- The expressions to calculate; without any, a session begins. -/
  expressions : List String
  deriving DecidableEq, Repr

/-- What a command line asks for. -/
inductive Request where
  /-- An explanation of the command line. -/
  | help
  /-- A report of what is wrong with it. -/
  | reject (misuse : Misuse)
  /-- Work under given settings. -/
  | work (settings : Settings)
  deriving DecidableEq, Repr

namespace Request

/-- Whether words are still taken as expressions. -/
inductive Words where
  /-- No word has been seen. -/
  | awaited
  /-- The run of expressions has begun. -/
  | taking
  /-- An option has ended the run of expressions. -/
  | ended
  deriving DecidableEq, Repr

/-- What has been read of a command line. -/
structure State where
  /-- The settings so far. -/
  settings : Settings
  /-- Whether the next word is an expression. -/
  words : Words
  /-- The arguments that nothing is known about, in order. -/
  unrecognized : List String

/-- Nothing has been read: a history of a hundred entries, and warnings are shown. -/
def State.initial : State := ⟨⟨100, .warning, []⟩, .awaited, []⟩

namespace State

/-- Read an argument that nothing is known about. -/
def reject (state : State) (text : String) : State :=
  { state with unrecognized := state.unrecognized ++ [text] }

/-- An option ends the run of expressions, if it has begun. -/
def endWords (state : State) : State :=
  { state with words := if state.words = .awaited then .awaited else .ended }

/-- Read a word. -/
def word (state : State) (text : String) : State :=
  if state.words = .ended then
    state.reject text
  else
    { state with
      words := .taking
      settings := { state.settings with expressions := state.settings.expressions ++ [text] } }

/-- Read the double hyphen, which counts as a word but is no expression. -/
def separator (state : State) : State :=
  if state.words = .ended then state.reject "--" else { state with words := .taking }

/-- Change a setting. -/
def set (state : State) (setting : Setting) (value : String) : Except Misuse State :=
  match setting with
  | .historyLimit =>
      match Text.Integer.read? value with
      | some limit => .ok { state with settings := { state.settings with historyLimit := limit } }
      | none => .error (.notInteger value)
  | .logLevel =>
      match Level.ofName? value with
      | some level => .ok { state with settings := { state.settings with logLevel := level } }
      | none => .error (.notLevel value)

end State

/-- Read on from a state. -/
def readFrom (state : State) : List Argument → Request
  | [] =>
      if state.unrecognized.isEmpty then
        .work state.settings
      else
        .reject (.unrecognized state.unrecognized)
  | .word text :: rest => readFrom (state.word text) rest
  | .separator :: rest => readFrom state.separator rest
  | .unknown text :: rest => readFrom (state.endWords.reject text) rest
  | .help :: _ => .help
  | .helpWith value :: _ => .reject (.helpValue value)
  | .set setting (some value) :: rest =>
      match state.endWords.set setting value with
      | .ok state => readFrom state rest
      | .error misuse => .reject misuse
  | .set setting none :: .word value :: rest =>
      match state.endWords.set setting value with
      | .ok state => readFrom state rest
      | .error misuse => .reject misuse
  | .set setting none :: _ => .reject (.missingValue setting)

/-- Read a command line.  An ambiguous argument counts before anything that stands in front of
it. -/
def ofTexts (texts : List String) : Request :=
  match Argument.ofTexts texts with
  | .ok arguments => readFrom .initial arguments
  | .error misuse => .reject misuse

end Request
end DeskCalculator
