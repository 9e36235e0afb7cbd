/-
This file answers requests for metrics and health. Both are read: any other method is
refused, and any other path is unknown. A path may be asked for alone or after a scheme
and a host, and it is taken without what follows a question mark. A request for the head
alone has the head of the full answer and no body.
-/

import EpochRollup.Document
import EpochRollup.Store.Call
import EpochRollup.Text.Url.Scheme

namespace EpochRollup

/-- The version of the program. -/
def programVersion : String := "0.1.0"

/-- A database engine. -/
inductive Backend where
  /-- Tables in a file. -/
  | sqlite
  /-- Tables on a server. -/
  | postgres
deriving DecidableEq, Repr

/-- The word for a database engine. -/
def Backend.name : Backend → String
  | .sqlite => "sqlite"
  | .postgres => "postgres"

/-- What a request is answered with. -/
structure HttpResponse where
  /-- The status code. -/
  status : Nat
  /-- What the body is, if there can be one. -/
  contentType : Option String
  /-- A body that is a document. The body of the metrics is not modelled. -/
  body : Option Document
deriving Repr

namespace HttpResponse

/-- No path like this. -/
def notFound : HttpResponse := ⟨404, none, none⟩

/-- No such method on this path. -/
def methodNotAllowed : HttpResponse := ⟨405, none, none⟩

/-- The metrics. -/
def metrics : HttpResponse := ⟨200, some "text/plain; version=0.0.4; charset=utf-8", none⟩

/-- The health of the database. -/
def health (backend : Backend) (isHealthy : Bool) : HttpResponse where
  status := if isHealthy then 200 else 503
  contentType := some "application/json"
  body := some (.table
    [("status", .text (if isHealthy then "ok" else "unavailable")),
      ("backend", .text backend.name),
      ("version", .text programVersion)])

/-- The head of a response. -/
def head (response : HttpResponse) : HttpResponse := { response with body := none }

end HttpResponse

/-- A path of the service. -/
inductive Route where
  /-- The metrics. -/
  | metrics
  /-- The health of the database. -/
  | health
deriving DecidableEq, Repr

/-- What stands after the host of a request target, which begins with a scheme and a host or with
the path itself. -/
def afterHost (target : List Char) : List Char :=
  match target.dropWhile isSchemeCharacter with
  | ':' :: '/' :: '/' :: rest =>
    rest.dropWhile fun character => character ≠ '/' ∧ character ≠ '?' ∧ character ≠ '#'
  | _ => target

/-- The route of a request target. -/
def Route.ofTarget? (target : String) : Option Route :=
  match String.ofList ((afterHost target.toList).takeWhile fun character =>
    character ≠ '?' ∧ character ≠ '#') with
  | "/metrics" => some .metrics
  | "/health" => some .health
  | _ => none

/-- Answers a request on a route. The health is that of the store at the moment. -/
def Route.answer (backend : Backend) :
    Route → Dialogue StoreCall StoreCall.Reply HttpResponse
  | .metrics => return .metrics
  | .health => do
    match ← Dialogue.call StoreCall.health with
    | .ok _ => return .health backend true
    | .error _ => return .health backend false

/-- Answers a request. -/
def answerRequest (backend : Backend) (method target : String) :
    Dialogue StoreCall StoreCall.Reply HttpResponse :=
  match Route.ofTarget? target with
  | none => return .notFound
  | some route =>
    if method = "GET" then
      route.answer backend
    else if method = "HEAD" then
      return (← route.answer backend).head
    else
      return .methodNotAllowed

end EpochRollup
