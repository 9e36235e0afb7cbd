/-
This file reads the arguments of the command line. There are two options, each given at
most once: one names the file of the settings, the other asks for a single tick.
-/

namespace EpochRollup

/-- What an argument stands for. -/
inductive Argument where
  /-- The file of the settings, with the value that is written in the same argument. -/
  | settings (value : Option String)
  /-- A single tick, with the value that is written in the same argument. -/
  | once (value : Option String)
  /-- The mark after which there are no options. -/
  | divider
  /-- An option of another name. -/
  | unknown (name : String)
  /-- No option. -/
  | bare (text : String)
deriving DecidableEq, Repr

/-- Why a command line is refused. -/
inductive ArgumentFault where
  /-- An argument has no meaning. -/
  | unexpected (argument : String)
  /-- The option for the settings has no file. -/
  | noValue
  /-- The option for a single tick has a value. -/
  | unexpectedValue (value : String)
  /-- An option is given twice. -/
  | repeated (option : String)
deriving DecidableEq, Repr

/-- The text of a fault. -/
def ArgumentFault.message : ArgumentFault → String
  | .unexpected argument => "unexpected argument '" ++ argument ++ "' found"
  | .noValue => "a value is required for '--config <CONFIG>' but none was supplied"
  | .unexpectedValue value =>
    "unexpected value '" ++ value ++ "' for '--once' found; no more were expected"
  | .repeated option => "the argument '" ++ option ++ "' cannot be used multiple times"

/-- What an argument stands for. A long option has its value after an equals sign; a short one
has it at once. -/
def Argument.ofText (text : String) : Argument :=
  match text.toList with
  | ['-'] => .bare text
  | ['-', '-'] => .divider
  | '-' :: '-' :: rest =>
    let value :=
      match rest.dropWhile (· ≠ '=') with
      | _ :: value => some (String.ofList value)
      | [] => none
    match String.ofList (rest.takeWhile (· ≠ '=')) with
    | "config" => .settings value
    | "once" => .once value
    | name => .unknown ("--" ++ name)
  | ['-', 'c'] => .settings none
  | '-' :: 'c' :: '=' :: value | '-' :: 'c' :: value => .settings (some (String.ofList value))
  | '-' :: letter :: _ => .unknown (String.ofList ['-', letter])
  | _ => .bare text

/-- What the command line asks for. -/
structure Arguments where
  /-- The file of the settings, when it is given. -/
  settingsPath : Option String
  /-- A single tick is asked for. -/
  once : Bool
deriving DecidableEq, Repr

/-- An option for the settings that is written apart from its value. -/
inductive PendingOption where
  /-- There is none. -/
  | none
  /-- Its value has yet to come. -/
  | awaiting
  /-- Its value has come. -/
  | given (path : String)
deriving DecidableEq, Repr

namespace Arguments

/-- The settings are in a file. -/
def withSettings (arguments : Arguments) (path : String) : Except ArgumentFault Arguments :=
  if arguments.settingsPath.isSome then
    .error (.repeated "--config <CONFIG>")
  else
    .ok { arguments with settingsPath := some path }

/-- A single tick is asked for. -/
def withOnce (arguments : Arguments) : Except ArgumentFault Arguments :=
  if arguments.once then .error (.repeated "--once") else .ok { arguments with once := true }

/-- What becomes of an option for the settings that has been read. -/
def settle (arguments : Arguments) : PendingOption → Except ArgumentFault Arguments
  | .none => .ok arguments
  | .awaiting => .error .noValue
  | .given path => arguments.withSettings path

/-- What is asked for with further arguments. An option for the settings is only settled at the
next option or at the end, so that an argument without meaning is reported before it. -/
def withTexts (arguments : Arguments) (pending : PendingOption) :
    List String → Except ArgumentFault Arguments
  | [] => arguments.settle pending
  | text :: rest =>
    match Argument.ofText text with
    | .settings none => do (← arguments.settle pending).withTexts .awaiting rest
    | .settings (some path) => do
      (← (← arguments.settle pending).withSettings path).withTexts .none rest
    | .once none => do (← (← arguments.settle pending).withOnce).withTexts .none rest
    | .once (some value) => .error (.unexpectedValue value)
    | .unknown name => .error (.unexpected name)
    | .divider =>
      match rest with
      | [] => arguments.settle pending
      | extra :: _ => .error (.unexpected extra)
    | .bare text =>
      if pending = .awaiting then arguments.withTexts (.given text) rest
      else .error (.unexpected text)

/-- What the arguments ask for. -/
def ofTexts (texts : List String) : Except ArgumentFault Arguments :=
  withTexts ⟨none, false⟩ .none texts

end Arguments

end EpochRollup
