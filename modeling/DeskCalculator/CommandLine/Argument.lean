import DeskCalculator.Notice
import DeskCalculator.Text.DecimalDigit

/-!
# Arguments of the command line

An argument that begins with a hyphen is an option, known or not, unless it is a lone hyphen, a
negative number or holds a space.  An option may be cut short as long as only one is meant.  After
the first double hyphen every argument is a word.
-/

namespace DeskCalculator

/-- A setting that an option with a value changes. -/
inductive Setting where
  | historyLimit
  | logLevel
  deriving DecidableEq, Repr

/-- The option that changes a setting. -/
def Setting.name : Setting → String
  | historyLimit => "--history-limit"
  | logLevel => "--log-level"

/-- What is wrong with a command line. -/
inductive Misuse where
  /-- An option is cut so short that it could be any of several ones. -/
  | ambiguous (text : String) (options : List String)
  /-- An option lacks its value. -/
  | missingValue (setting : Setting)
  /-- The history limit is no integer. -/
  | notInteger (value : String)
  /-- The log level is none. -/
  | notLevel (value : String)
  /-- The option for help has a value. -/
  | helpValue (value : String)
  /-- Arguments that nothing is known about. -/
  | unrecognized (arguments : List String)
  deriving DecidableEq, Repr

/-- The wording of a misuse. -/
def Misuse.message : Misuse → String
  | ambiguous text options =>
      "ambiguous option: " ++ text ++ " could match " ++ ", ".intercalate options
  | missingValue setting => "argument " ++ setting.name ++ ": expected one argument"
  | notInteger value => "argument --history-limit: invalid int value: " ++ Text.quoted value
  | notLevel value =>
      "argument --log-level: invalid choice: " ++ Text.quoted value ++ " (choose from " ++
        ", ".intercalate (Level.all.map fun level => Text.quoted level.name) ++ ")"
  | helpValue value => "argument -h/--help: ignored explicit argument " ++ Text.quoted value
  | unrecognized arguments => "unrecognized arguments: " ++ " ".intercalate arguments

/-- An argument of the command line. -/
inductive Argument where
  /-- A word. -/
  | word (text : String)
  /-- The double hyphen before words of any form. -/
  | separator
  /-- An option that changes a setting, with the value if it is joined by an equals sign. -/
  | set (setting : Setting) (value : Option String)
  /-- The option that asks for help. -/
  | help
  /-- The option that asks for help, with a value that it cannot use. -/
  | helpWith (value : String)
  /-- An option that is not known. -/
  | unknown (text : String)
  deriving DecidableEq, Repr

namespace Argument

/-- Whether characters write digits, or digits around a point with one of them behind it. -/
def isUnsignedNumber (text : List Char) : Bool :=
  let whole := text.takeWhile Text.isDecimalDigit
  match text.dropWhile Text.isDecimalDigit with
  | [] => !whole.isEmpty
  | c :: places => c == '.' && !places.isEmpty && places.all Text.isDecimalDigit

/-- Whether the characters after a hyphen make a negative number of it; a line feed may follow. -/
def isNegated (rest : List Char) : Bool :=
  isUnsignedNumber (if rest.getLast? = some '\n' then rest.dropLast else rest)

/-- Read what follows the short option for help.  The option may be repeated letter by letter;
anything else is a value. -/
def afterShortHelp : List Char → Argument
  | [] => help
  | 'h' :: rest => afterShortHelp rest
  | value => helpWith (String.ofList value)

/-- The option for help with a value joined to its short name by an equals sign.  The value may
repeat the option, but not be empty. -/
def shortHelpWith (value : String) : Argument :=
  if value = "" then helpWith value else afterShortHelp value.toList

/-- The options by name, with a value that may be joined to the name by an equals sign. -/
def options (value : Option String) : List (String × Argument) :=
  [("-h", value.elim help shortHelpWith),
    ("--help", value.elim help helpWith),
    (Setting.historyLimit.name, set .historyLimit value),
    (Setting.logLevel.name, set .logLevel value)]

/-- The options that a name cut short may stand for; only names with two hyphens are cut. -/
def completions (name : List Char) (value : Option String) : List (String × Argument) :=
  if ['-', '-'].isPrefixOf name then
    (options value).filter (name.isPrefixOf ·.1.toList)
  else
    []

/-- Split an option at its first equals sign. -/
def splitValue (text : List Char) : List Char × Option String :=
  (text.takeWhile (· != '='),
    match text.dropWhile (· != '=') with
    | [] => none
    | _ :: value => some (String.ofList value))

/-- Read an argument that begins with a hyphen and names no option in full. -/
def ofHyphenated (text : String) : List Char → Argument
  | 'h' :: more => afterShortHelp more
  | rest => if isNegated rest || rest.contains ' ' then word text else unknown text

/-- Read an argument in front of the double hyphen. -/
def ofText (text : String) : Except Misuse Argument :=
  match text.toList with
  | ['-'] => return word text
  | '-' :: rest =>
      let (name, value) := splitValue ('-' :: rest)
      match (options value).find? (·.1.toList == name) with
      | some option => return option.2
      | none =>
          match completions name value with
          | [] => return ofHyphenated text rest
          | [option] => return option.2
          | several => throw (.ambiguous text (several.map (·.1)))
  | _ => return word text

/-- Read the arguments of a command line.  The first ambiguous one is reported. -/
def ofTexts : List String → Except Misuse (List Argument)
  | [] => return []
  | text :: rest =>
      if text = "--" then
        return separator :: rest.map word
      else do
        let argument ← ofText text
        return argument :: (← ofTexts rest)

end Argument
end DeskCalculator
