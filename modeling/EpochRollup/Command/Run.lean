/-
This file composes a run of the program: the settings are read from a file and from
variables, the store is opened, and the engine is set up over it and ticks. What stops
a run is one of few causes, each with its text and its exit code.
-/

import EpochRollup.Command.Arguments
import EpochRollup.Config.Environment
import EpochRollup.Config.Written
import EpochRollup.Document.Toml
import EpochRollup.Monitor.Tick
import EpochRollup.Store.Kept

namespace EpochRollup

/-! ### What stops a run -/

/-- What stops a run. -/
inductive RunError where
  /-- The command line is refused. -/
  | arguments (fault : ArgumentFault)
  /-- The settings cannot be read. -/
  | unreadableSettings
  /-- The settings are refused. -/
  | refusedSettings (reason : String)
  /-- The store cannot be opened or kept. -/
  | store (cause : StoreError)
  /-- The settings give no layout. -/
  | layout (cause : RollupError)
  /-- The pass of a tick fails. -/
  | pass (cause : RollupError)
  /-- A tick is aborted. -/
  | aborted (cause : Abort)
deriving DecidableEq, Repr

namespace RunError

/-- What is said of it. What aborts a tick is reported after an empty line. -/
def message : RunError → String
  | .arguments fault => "error: " ++ fault.message
  | .unreadableSettings => "Error: failed to load configuration"
  | .refusedSettings reason => "Error: invalid configuration: " ++ reason
  | .store _ => "Error: failed to initialize rollup store"
  | .layout _ => "Error: invalid rollup layout"
  | .pass cause => "Error: " ++ cause.message
  | .aborted cause => "\naborted: " ++ cause.message

/-- The exit code. -/
def exitCode : RunError → Nat
  | .arguments _ => 2
  | .aborted _ => 101
  | _ => 1

end RunError

/-- A stage of a run. -/
abbrev Stage := ExceptT RunError (Dialogue FileCall FileCall.Reply)

namespace Stage

/-- A stage that stops the run on an error. -/
def settle {Error Result : Type} (cause : Error → RunError) :
    Except Error Result → Stage Result
  | .ok result => return result
  | .error error => throw (cause error)

end Stage

/-! ### Settings -/

/-- The variable that names the file of the settings. -/
def settingsVariable : String := "VALDASH_CONFIG"

/-- The file of the settings when none is named. -/
def defaultSettingsPath : String := "config/exporter.toml"

/-- The file of the settings. -/
def settingsPath (arguments : Arguments) (environment : List (String × String)) : String :=
  (arguments.settingsPath <|> (environment.find? (·.1 = settingsVariable)).map (·.2)).getD
    defaultSettingsPath

/-- The document in a file. A file that is not there says nothing. -/
def readSettings (path : String) : Stage Document := do
  let found ← ExceptT.lift (Dialogue.call (FileCall.read path))
  match found with
  | .ok (some text) =>
    match Toml.read? text with
    | some document => return document
    | none => throw .unreadableSettings
  | .ok none | .error _ => return .table []

/-- The settings of a run: variables count more than the file. -/
def loadSettings (path : String) (environment : List (String × String)) : Stage Settings := do
  let document ← readSettings path
  match Settings.ofDocument? .ignored (document.overlay (.ofEnvironment environment)) with
  | none => throw .unreadableSettings
  | some settings =>
    match settings.refusal with
    | some reason => throw (.refusedSettings reason)
    | none => return settings

/-! ### The engine over a kept store -/

/-- The engine over a store that is kept. -/
structure Engine where
  /-- When it runs. -/
  scheduler : SchedulerSettings
  /-- The coordinator. -/
  coordinator : Coordinator
  /-- The store. -/
  kept : KeptStore

namespace Engine

/-- Sets up the engine that the arguments and the variables ask for. -/
def start (arguments : Arguments) (environment : List (String × String)) : Stage Engine := do
  let settings ← loadSettings (settingsPath arguments environment) environment
  let opened ← ExceptT.lift (KeptStore.ofSettings settings.database).run
  let kept ← Stage.settle .store opened
  let clock ← Stage.settle (fun cause => .layout (.layout cause)) settings.chain.clock
  let coordinator ← Stage.settle .layout (settings.rollup.coordinator clock)
  return ⟨settings.scheduler, coordinator, kept⟩

/-- The outcome of a tick and the engine after it. -/
def tick (engine : Engine) : Except RunError PassReport × Engine :=
  let (outcome, kept) := engine.coordinator.tick.run KeptStore.answer engine.kept
  let result :=
    match outcome with
    | .ok ⟨_, .ok report⟩ => .ok report
    | .ok ⟨_, .error cause⟩ => .error (.pass cause)
    | .error cause => .error (.aborted cause)
  (result, { engine with kept })

/-- Ticks once and keeps the store, also after a tick that fails. -/
def tickAndKeep (engine : Engine) :
    Dialogue FileCall FileCall.Reply (Except RunError PassReport × Engine) := do
  let (result, after) := engine.tick
  match ← after.kept.save.run with
  | .ok () => return (result, after)
  | .error cause => return (.error (.store cause), after)

end Engine

/-- A run with a single tick. -/
def runOnce (arguments : Arguments) (environment : List (String × String)) : Stage PassReport := do
  let engine ← Engine.start arguments environment
  let (result, _) ← ExceptT.lift engine.tickAndKeep
  Stage.settle id result

end EpochRollup
