/-
This file opens the store on a database server. The settings are made into a plan of
the connection, and the plan is carried out: the server is reached, the connection is
encrypted when that is wanted and possible, a session is started, the password is sent
when it is asked for, and the tables are created.
-/

import EpochRollup.Config.Settings
import EpochRollup.Store.Server
import EpochRollup.Text.Natural
import EpochRollup.Text.Quoted
import EpochRollup.Text.Url

namespace EpochRollup

/-- When a connection is encrypted. -/
inductive Encryption where
  /-- Never. -/
  | never
  /-- When the server can. -/
  | whenPossible
  /-- Always. -/
  | always
deriving DecidableEq, Repr

/-- When a connection of a mode is encrypted. -/
def SslMode.encryption : SslMode → Encryption
  | .disable => .never
  | .prefer => .whenPossible
  | .require => .always

/-- The words for encryption in a URL. -/
def Encryption.ofWord? (word : String) : Option Encryption :=
  match word.toLower with
  | "disable" | "allow" => some .never
  | "prefer" => some .whenPossible
  | "require" | "verify-ca" | "verify-full" => some .always
  | _ => none

/-- How to connect to a database server. -/
structure ConnectionPlan where
  /-- The host, or the directory of a socket. -/
  host : String
  /-- The directory of a socket, which counts more than the host. -/
  socket : Option String
  /-- The port, of the host or of the socket. -/
  port : Nat
  /-- The user. -/
  user : String
  /-- The password. -/
  password : Option String
  /-- The database, or none for the default of the user. -/
  database : Option String
  /-- When the connection is encrypted. -/
  encryption : Encryption
  /-- Settings of the session. -/
  options : Option String
deriving DecidableEq, Repr

namespace ConnectionPlan

/-- The plan that nothing is known of but the user. -/
def initial (user : String) : ConnectionPlan :=
  ⟨"localhost", none, ServerSettings.defaultPort, user, none, none, .whenPossible, none⟩

/-! ### Settings of the session -/

/-- A plan with a session setting of a name. -/
def withSetting (plan : ConnectionPlan) (name value : String) : ConnectionPlan :=
  let before := plan.options.getD ""
  let separator := if before = "" then "" else " "
  { plan with options := some (before ++ separator ++ "-c " ++ name ++ "=" ++ value) }

/-- A plan with more settings of the session, as they are written. -/
def withOptions (plan : ConnectionPlan) (text : String) : ConnectionPlan :=
  { plan with
    options := some (match plan.options with
      | some options => options ++ " " ++ text
      | none => text) }

/-- The name inside the brackets of a parameter that sets something of the session. -/
def settingName? (parameter : String) : Option String :=
  let characters := parameter.toList
  if "options[".toList.isPrefixOf characters ∧ characters.getLast? = some ']' then
    some (String.ofList ((characters.drop 8).dropLast))
  else
    none

/-! ### URLs -/

/-- A text in which bytes are written after percent signs. -/
def decoded (text : List Char) : Except DatabaseError String :=
  (percentDecode text).mapError fun fault => .badSettings fault.message

/-- A natural number below a limit. -/
def natural (limit : Nat) (text : String) : Except DatabaseError Nat :=
  (naturalOfText limit text).mapError fun fault => .badSettings fault.message

/-- A plan with a parameter of the URL. A parameter of another name is passed over. -/
def withParameter (plan : ConnectionPlan) (parameter : String × String) :
    Except DatabaseError ConnectionPlan :=
  let (name, value) := parameter
  match name with
  | "host" =>
    .ok (if value.toList.head? = some '/' then { plan with socket := some value }
      else { plan with host := value })
  | "hostaddr" =>
    if Address.isAddress value.toList then .ok { plan with host := value }
    else .error (.badSettings "invalid IP address syntax")
  | "port" => do return { plan with port := ← natural UInt16.size value }
  | "statement-cache-capacity" => do
    let _ ← natural wordLimit value
    return plan
  | "dbname" => .ok { plan with database := some value }
  | "user" => .ok { plan with user := value }
  | "password" => .ok { plan with password := some value }
  | "sslmode" | "ssl-mode" =>
    match Encryption.ofWord? value with
    | some encryption => .ok { plan with encryption }
    | none =>
      .error (.badSettings ("error with configuration: unknown value " ++ quotedText value ++
        " for \x60ssl_mode\x60"))
  | "options" => .ok (plan.withOptions value)
  | name =>
    match settingName? name with
    | some setting => .ok (plan.withSetting setting value)
    | none => .ok plan

/-- A plan with the host of a URL. One that begins with a slash is the directory of a socket. -/
def withHost (plan : ConnectionPlan) : Option String → Except DatabaseError ConnectionPlan
  | none => .ok plan
  | some host =>
    if (percentBytes host.toList).head? = some 0x2f then do
      return { plan with socket := some (← decoded host.toList) }
    else
      .ok { plan with host }

/-- The plan of a URL. Its parameters count more than its parts, and a later one more than an
earlier one. -/
def ofUrl (user : String) (url : Url) : Except DatabaseError ConnectionPlan := do
  let plan ← (initial user).withHost url.host
  let plan := { plan with port := url.port.getD plan.port }
  let user ← if url.username = [] then pure plan.user else decoded url.username
  let password ← url.password.mapM decoded
  let path := url.path.dropWhile (· = '/')
  let database ← if path = [] then pure none else some <$> decoded path
  url.parameters.foldlM withParameter { plan with user, password, database }

/-! ### Settings -/

/-- A plan with the time after which the server gives up a statement. -/
def withTimeout (plan : ConnectionPlan) : Option Nat → ConnectionPlan
  | some milliseconds => plan.withSetting "statement_timeout" (toString milliseconds ++ "ms")
  | none => plan

/-- The plan of the single fields of the settings. -/
def ofFields (user host database : String) (settings : ServerSettings) : ConnectionPlan :=
  let plan := initial user
  { plan with
    host
    port := settings.port.getD ServerSettings.defaultPort
    user := settings.username.getD user
    password := settings.password
    database := some database
    encryption := (settings.sslMode.map SslMode.encryption).getD plan.encryption }

/-- The plan of the settings, for the user of the system. -/
def ofSettings (user : String) (settings : ServerSettings) :
    Except StoreError ConnectionPlan :=
  match settings.url, settings.host, settings.database with
  | some text, _, _ =>
    match Url.ofText text with
    | .error fault => .error (.database (.badSettings fault.reason))
    | .ok url =>
      match ofUrl user url with
      | .error cause => .error (.database cause)
      | .ok plan => .ok (plan.withTimeout settings.statementTimeout)
  | none, some host, some database =>
    .ok ((ofFields user host database settings).withTimeout settings.statementTimeout)
  | none, _, _ => .error (.configuration ServerSettings.noServer)

/-- Where the plan reaches the server. -/
def address (plan : ConnectionPlan) : ServerAddress :=
  match plan.socket with
  | some directory => .socket directory plan.port
  | none =>
    if plan.host.toList.head? = some '/' then .socket plan.host plan.port
    else .host plan.host plan.port

/-- Reaches the server. -/
def reach (plan : ConnectionPlan) : Exchange Unit := do
  match ← ExceptT.lift (Dialogue.call (ServerCall.connect plan.address)) with
  | .ok () => return ()
  | .error text => throw (.database (.unreachable text))

/-- Encrypts the connection as the plan wants it. -/
def encrypt (plan : ConnectionPlan) : Exchange Unit :=
  match plan.encryption with
  | .never => return ()
  | .whenPossible => do
    let _ ← ExceptT.lift (Dialogue.call ServerCall.requestEncryption)
  | .always => do
    let accepted : Bool ← ExceptT.lift (Dialogue.call ServerCall.requestEncryption)
    if accepted then return () else throw (.database .encryptionUnsupported)

/-- Starts a session. -/
def startSession (plan : ConnectionPlan) : Exchange Unit := do
  let asked : Bool ←
    ExceptT.lift (Dialogue.call (ServerCall.startUp ⟨plan.user, plan.database, plan.options⟩))
  if asked then
    ExceptT.lift (Dialogue.call (ServerCall.sendPassword (plan.password.getD "")))
  else
    return ()

/-- Carries out a plan. -/
def connect (plan : ConnectionPlan) : Exchange Unit := do
  plan.reach
  plan.encrypt
  plan.startSession
  ServerStore.exchange .migrate

end ConnectionPlan

/-- Opens the store of the settings, for the user of the system. -/
def openServerStore (user : String) (settings : ServerSettings) : Exchange Unit := do
  match ConnectionPlan.ofSettings user settings with
  | .ok plan => plan.connect
  | .error error => throw error

end EpochRollup
