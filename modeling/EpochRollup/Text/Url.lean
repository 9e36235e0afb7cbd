/-
This file reads a URL: a scheme, perhaps a user and a password, a host and a port, a
path, and parameters. User, password and path are kept as they are written, with bytes
in hexadecimal after percent signs.
-/

import EpochRollup.Text.Url.Host
import EpochRollup.Text.Url.Path

namespace EpochRollup

/-- The parts of a URL. -/
structure Url where
  /-- The user, empty when there is none, as it is written. -/
  username : List Char
  /-- The password, as it is written. -/
  password : Option (List Char)
  /-- The host. -/
  host : Option String
  /-- The port, unless it goes without saying. -/
  port : Option Nat
  /-- The resolved path, as it is written. -/
  path : List Char
  /-- The parameters, in the order in which they stand. -/
  parameters : List (String × String)
deriving DecidableEq, Repr

namespace Url

/-- What stands before the first mark, and what stands after it when there is one. -/
def cut (mark : Char) (text : List Char) : List Char × Option (List Char) :=
  match text.dropWhile (· ≠ mark) with
  | [] => (text, none)
  | _ :: rest => (text.takeWhile (· ≠ mark), some rest)

/-! ### Parameters -/

/-- The parameter of a name and a value between which an equals sign stands. -/
def parameterOf (pair : List Char) : String × String :=
  let (name, value) := cut '=' pair
  (formDecode name, formDecode (value.getD []))

/-- The parameters of a query: the texts between ampersands, unless they are empty. -/
def parametersOf (query : List Char) : List (String × String) :=
  ((pieces '&' query).filter (· ≠ [])).map parameterOf

/-! ### Paths -/

/-- The resolved path that a text writes, whether or not it begins with a slash. -/
def pathOf (kind : SchemeKind) (text : List Char) : List Char :=
  UrlPath.ofText kind (if text.head?.any kind.isSlash then text.tail else text)

/-- A URL of a path alone. -/
def ofPath (path : List Char) (parameters : List (String × String)) : Url :=
  ⟨[], none, none, none, path, parameters⟩

/-! ### Authorities -/

/-- The host before the colon of a port. Colons inside brackets are of the host. -/
def splitAtPort : Bool → List Char → List Char × List Char
  | _, [] => ([], [])
  | isInside, character :: rest =>
    if character = ':' ∧ !isInside then
      ([], character :: rest)
    else
      let (host, after) :=
        splitAtPort (character = '[' || (isInside && character ≠ ']')) rest
      (character :: host, after)

/-- The port that digits write, unless it goes without saying, and what stands after it. A port
ends at a backslash. -/
def portOf (kind : SchemeKind) (text : List Char) :
    Except UrlFault (Option Nat × List Char) :=
  let digits := text.takeWhile Char.isDigit
  let rest := text.dropWhile Char.isDigit
  let number := numberOfDigits digits
  if UInt16.size ≤ number ∨ rest.head?.any (· ≠ '\\') then .error .badPort
  else if digits = [] ∨ kind = .network number then .ok (none, rest)
  else .ok (some number, rest)

/-- The user before the last at sign of an authority, and the rest. -/
def userAndRest (authority : List Char) : Option (List Char) × List Char :=
  match cut '@' authority.reverse with
  | (rest, some user) => (some user.reverse, rest.reverse)
  | (rest, none) => (none, rest.reverse)

/-- The URL of what stands after two slashes. The path begins in the authority when the port
ends there. A user needs a host, and so does an at sign before a path or a query. -/
def ofAuthority (kind : SchemeKind) (text : List Char) (hasMore : Bool)
    (parameters : List (String × String)) : Except UrlFault Url := do
  let authority := text.takeWhile (!kind.isSlash ·)
  let located := text.dropWhile (!kind.isSlash ·)
  let (user, rest) := userAndRest authority
  if user = some [] ∧ rest = [] ∧ (located ≠ [] ∨ hasMore) then
    .error .emptyHost
  else
    let (hostText, portText) := splitAtPort false rest
    let host ← UrlHost.ofText kind hostText
    if host = "" ∧ portText ≠ [] then
      .error .emptyHost
    else
      let (port, afterPort) ← portOf kind (portText.drop 1)
      let (username, password) := cut ':' (user.getD [])
      let password := password.filter (· ≠ [])
      if host = "" ∧ (username ≠ [] ∨ password.isSome) then
        .error .emptyHost
      else
        let rest := afterPort ++ located
        let path := if rest = [] ∧ !kind.isSpecial then [] else pathOf kind rest
        return ⟨username, password, if host = "" then none else some host, port, path, parameters⟩

/-! ### Texts -/

/-- The URL of a file. After two slashes a host may stand, which is not meant when it is this
machine or the letter of a drive. -/
def ofFile (text : List Char) (parameters : List (String × String)) : Except UrlFault Url :=
  match text with
  | first :: second :: rest =>
    if SchemeKind.file.isSlash first ∧ SchemeKind.file.isSlash second then
      let hostText := rest.takeWhile (!SchemeKind.file.isSlash ·)
      if hostText = [] ∨ UrlPath.isDrive hostText then
        .ok (ofPath (pathOf .file rest) parameters)
      else do
        let host ← UrlHost.ofText .file hostText
        let path := pathOf .file (rest.drop hostText.length)
        let hasDrive := UrlPath.isDrive ((path.drop 1).takeWhile (· ≠ '/'))
        return { ofPath path parameters with
          host := if host = "localhost" ∨ hasDrive then none else some host }
    else
      .ok (ofPath (pathOf .file text) parameters)
  | _ => .ok (ofPath (pathOf .file text) parameters)

/-- The URL a text is. Blanks around it do not count, and neither do line ends and tabs in
it. -/
def ofText (text : String) : Except UrlFault Url :=
  let isControl := fun (character : Char) => character ≤ ' '
  let trimmed := ((text.toList.dropWhile isControl).reverse.dropWhile isControl).reverse
  let characters := trimmed.filter fun character =>
    character ≠ '\t' ∧ character ≠ '\n' ∧ character ≠ '\r'
  match schemeOfText? characters with
  | none => .error .noScheme
  | some (kind, rest) =>
    let (unmarked, fragment) := cut '#' rest
    let (located, query) := cut '?' unmarked
    let parameters := parametersOf (query.getD [])
    let hasMore := query.isSome || fragment.isSome
    match kind with
    | .network _ => ofAuthority kind (located.dropWhile kind.isSlash) hasMore parameters
    | .file => ofFile located parameters
    | .plain =>
      match located with
      | '/' :: '/' :: rest => ofAuthority kind rest hasMore parameters
      | '/' :: rest => .ok (ofPath (UrlPath.ofText kind rest) parameters)
      | path => .ok (ofPath path parameters)

end Url

end EpochRollup
