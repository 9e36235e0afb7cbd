/-
This file reads the scheme of a URL. A few schemes are special: what they locate always
has a path, and a backslash is as good as a slash in it.
-/

namespace EpochRollup

/-- Why a text is no URL. -/
inductive UrlFault where
  /-- No scheme stands before it. -/
  | noScheme
  /-- There is a user, a port or a special scheme, and no host. -/
  | emptyHost
  /-- The port is not a number of 16 bits. -/
  | badPort
  /-- A host in brackets is no address. -/
  | badGroups
  /-- A host that ends in a number is no address. -/
  | badBytes
  /-- A character cannot stand in a host. -/
  | badHostCharacter
  /-- A special scheme has a host that is no name. -/
  | badHostName
deriving DecidableEq, Repr

/-- The reason a fault gives. -/
def UrlFault.reason : UrlFault → String
  | .noScheme => "relative URL without a base"
  | .emptyHost => "empty host"
  | .badPort => "invalid port number"
  | .badGroups => "invalid IPv6 address"
  | .badBytes => "invalid IPv4 address"
  | .badHostCharacter => "invalid domain character"
  | .badHostName => "invalid international domain name"

/-- What is asked of the parts of a URL. -/
inductive SchemeKind where
  /-- Nothing. -/
  | plain
  /-- There is a host, and perhaps a port that goes without saying. -/
  | network (port : Nat)
  /-- There is a path, which may begin with the letter of a drive. -/
  | file
deriving DecidableEq, Repr

namespace SchemeKind

/-- The kind of a scheme in small letters. -/
def ofName : String → SchemeKind
  | "http" | "ws" => .network 80
  | "https" | "wss" => .network 443
  | "ftp" => .network 21
  | "file" => .file
  | _ => .plain

/-- The scheme is special. -/
def isSpecial (kind : SchemeKind) : Bool := kind ≠ .plain

/-- A character that divides a path. -/
def isSlash (kind : SchemeKind) (character : Char) : Bool :=
  character = '/' || (character = '\\' && kind.isSpecial)

end SchemeKind

/-- A character of a scheme after its first letter. -/
def isSchemeCharacter (character : Char) : Bool :=
  character.isAlphanum || character = '+' || character = '-' || character = '.'

/-- The kind of the scheme before a text, and what stands after its colon. A scheme begins with
a letter. -/
def schemeOfText? (text : List Char) : Option (SchemeKind × List Char) :=
  match text.takeWhile isSchemeCharacter, text.dropWhile isSchemeCharacter with
  | first :: name, ':' :: rest =>
    if first.isAlpha then
      some (.ofName (String.ofList ((first :: name).map Char.toLower)), rest)
    else
      none
  | _, _ => none

end EpochRollup
