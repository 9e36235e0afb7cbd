/-
This file is the program: it carries out the operations of a run on the files of the
machine, prints the report of a single tick, and otherwise ticks until it is stopped.
-/

import EpochRollup.Command.Run
import EpochRollup.Document.Json
import EpochRollup.Monitor.Report

namespace EpochRollup

/-- The outcome of an operation on the files of the machine. -/
def attempt {Result : Type} (work : IO Result) : IO (Except String Result) := do
  match ← work.toBaseIO with
  | .ok result => return .ok result
  | .error fault => return .error (toString fault)

/-- The answer of the machine to an operation on files. -/
def machineAnswer : (call : FileCall) → IO call.Reply
  | .read path => do
    match ← (IO.FS.readFile path).toBaseIO with
    | .ok text => return .ok (some text)
    | .error (.noFileOrDirectory _ _ _) => return .ok none
    | .error fault => return .error (toString fault)
  | .makeDirectories path => attempt (IO.FS.createDirAll path)
  | .write path text => attempt (IO.FS.writeFile path text)

/-- Carries out a dialogue on the files of the machine. -/
def onMachine {Result : Type} : Dialogue FileCall FileCall.Reply Result → IO Result
  | .done result => return result
  | .ask call resume => do
    let reply ← machineAnswer call
    onMachine (resume reply)

/-- The environment variables, which the system shows as a file of texts that end in a zero
character. -/
def machineEnvironment : IO (List (String × String)) := do
  match ← attempt (IO.FS.readFile "/proc/self/environ") with
  | .ok text =>
    return (pieces '\x00' text.toList).map fun entry =>
      (String.ofList (entry.takeWhile (· ≠ '=')),
        String.ofList ((entry.dropWhile (· ≠ '=')).drop 1))
  | .error _ => return []

/-- Reports what stopped a run. -/
def stop (error : RunError) : IO UInt32 := do
  IO.eprintln error.message
  return error.exitCode.toUInt32

/-- Ticks until a tick is aborted. A tick that fails is reported and the next one follows. -/
partial def tickForever (engine : Engine) : IO UInt32 := do
  let (result, after) ← onMachine engine.tickAndKeep
  match result with
  | .error (.aborted cause) => stop (.aborted cause)
  | .error error =>
    IO.eprintln error.message
    rest after
  | .ok _ => rest after
where
  /-- Waits for the next tick. -/
  rest (engine : Engine) : IO UInt32 := do
    IO.sleep (min (engine.scheduler.intervalSeconds * 1000) (UInt32.size - 1)).toUInt32
    tickForever engine

/-- Runs the program. -/
def runProgram (texts : List String) : IO UInt32 := do
  match Arguments.ofTexts texts with
  | .error fault => stop (.arguments fault)
  | .ok arguments =>
    let environment ← machineEnvironment
    if arguments.once then
      match ← onMachine (runOnce arguments environment).run with
      | .ok report =>
        IO.println report.document.pretty
        return 0
      | .error error => stop error
    else
      match ← onMachine (Engine.start arguments environment).run with
      | .ok engine => tickForever engine
      | .error error => stop error

end EpochRollup

/-- The entry of the program. -/
def main (texts : List String) : IO UInt32 := EpochRollup.runProgram texts
