import ClassAtlas.Text.Pieces
import ClassAtlas.Text.Classes

/-! Command-line arguments: options, which have a value each, and the rest. -/

namespace ClassAtlas.Command

structure OptionSpec where
  /-- The name after two dashes. -/
  long : String
  /-- The letter after one dash. -/
  short : Option Char

inductive Argument where
  | plain (text : String)
  /-- An option by its long name, with the value that is attached to it. -/
  | option (name : String) (value : Option String)
  | unknown
deriving DecidableEq

/-- What stands before and after the first equals sign. -/
def cutAtEquals (text : List Char) : List Char × Option String :=
  match text.dropWhile (· != '=') with
  | [] => (text, none)
  | _ :: value => (text.takeWhile (· != '='), some (String.ofList value))

/-- An option whose name is written in full, or a unique beginning of a long name. -/
def longOption (specs : List OptionSpec) (text : List Char) : Argument :=
  let (name, value) := cutAtEquals text
  match specs.find? (·.long.toList == name) with
  | some spec => .option spec.long value
  | none =>
    match specs.filter fun spec => !name.isEmpty && name.isPrefixOf spec.long.toList with
    | [spec] => .option spec.long value
    | _ => .unknown

/-- An option by its letter, whose value may follow at once or after an equals sign. -/
def shortOption (specs : List OptionSpec) (letter : Char) (rest : List Char) : Argument :=
  match specs.find? (·.short == some letter) with
  | none => .unknown
  | some spec =>
    match rest with
    | [] => .option spec.long none
    | '=' :: value => .option spec.long (some (String.ofList value))
    | value => .option spec.long (some (String.ofList value))

def isDigits (text : List Char) : Bool :=
  !text.isEmpty && text.all fun c => (Text.digitValue? c).isSome

/-- Digits, or a point between digits that may be missing before it. -/
def isNumeral (text : List Char) : Bool :=
  isDigits text ||
    match text.dropWhile fun c => (Text.digitValue? c).isSome with
    | '.' :: rest => isDigits rest
    | _ => false

/-- What an unknown option turns out to be: a negative number and a text with a space in it are
plain arguments. -/
def orPlain (arg : String) (numeral : List Char) : Argument → Argument
  | .unknown => if isNumeral numeral || arg.contains ' ' then .plain arg else .unknown
  | argument => argument

def classify (specs : List OptionSpec) (arg : String) : Argument :=
  match arg.toList with
  | '-' :: '-' :: name => orPlain arg ('-' :: name) (longOption specs name)
  | '-' :: letter :: rest => orPlain arg (letter :: rest) (shortOption specs letter rest)
  | _ => .plain arg

/-- Whether an argument can be the value of an option before it. -/
def isValue (specs : List OptionSpec) (arg : String) : Bool :=
  arg != "--" && classify specs arg == .plain arg

/-- Options with their values, and the other arguments. -/
abbrev Parsed := List (String × String) × List String

def Parsed.addOption (name value : String) (parsed : Parsed) : Parsed :=
  ((name, value) :: parsed.1, parsed.2)

def Parsed.addPlain (text : String) (parsed : Parsed) : Parsed := (parsed.1, text :: parsed.2)

/-- The options at the front, and the arguments after them. The first parameter is an option that
waits for its value. A lone pair of dashes ends the options. There is no result when an option is
unknown or lacks its value. -/
def leadingOptions (specs : List OptionSpec) : Option String → List String → Option Parsed
  | none, [] => some ([], [])
  | some _, [] => none
  | some name, arg :: rest =>
    if isValue specs arg then (leadingOptions specs none rest).map (.addOption name arg) else none
  | none, arg :: rest =>
    if arg == "--" then some ([], rest)
    else
      match classify specs arg with
      | .plain _ => some ([], arg :: rest)
      | .unknown => none
      | .option name (some value) =>
        (leadingOptions specs none rest).map (.addOption name value)
      | .option name none => leadingOptions specs (some name) rest

/-- How far the one run of plain arguments has been read. -/
inductive Run where
  | ahead
  | open
  | closed
deriving DecidableEq

/-- An option ends a run that has started. -/
def Run.interrupt : Run → Run
  | .ahead => .ahead
  | _ => .closed

/-- Options mixed with one run of plain arguments. The second parameter is an option that waits for
its value. After a lone pair of dashes all arguments are plain. -/
def mixedArguments (specs : List OptionSpec) :
    Run → Option String → List String → Option Parsed
  | _, none, [] => some ([], [])
  | _, some _, [] => none
  | run, some name, arg :: rest =>
    if isValue specs arg then (mixedArguments specs run none rest).map (.addOption name arg)
    else none
  | run, none, arg :: rest =>
    if arg == "--" then if run = .closed then none else some ([], rest)
    else
      match classify specs arg with
      | .plain _ =>
        if run = .closed then none
        else (mixedArguments specs .open none rest).map (.addPlain arg)
      | .unknown => none
      | .option name (some value) =>
        (mixedArguments specs run.interrupt none rest).map (.addOption name value)
      | .option name none => mixedArguments specs run.interrupt (some name) rest

/-- The last value of an option. -/
def lastValue? (options : List (String × String)) (name : String) : Option String :=
  options.reverse.lookup name

end ClassAtlas.Command
