/-
Addresses.

`Url.parse` reads an address, alone or relative to another one.  A path is a list of
segments in which the dot segments have been resolved; the path of an address like
`mailto:x` is one opaque text and cannot be extended.  All parts are kept as they are
written, percent signs included.
-/
import ParameterManager.Url.Host
import ParameterManager.Url.Form

namespace ParameterManager

/-- A path: segments after slashes, or one text that is no path of segments. -/
inductive UrlPath
  | segments (list : List String)
  | opaqueText (text : String)
  deriving DecidableEq, Repr

/-- An address. -/
structure Url where
  scheme : String
  username : String := ""
  password : Option String := none
  host : Option Host := none
  port : Option Nat := none
  path : UrlPath := .segments []
  query : Option String := none
  fragment : Option String := none
  deriving DecidableEq, Repr

namespace UrlPath

def text : UrlPath → String
  | segments list => String.ofList (list.flatMap fun s => '/' :: s.toList)
  | opaqueText text => text

end UrlPath

namespace Url

/-! ### Writing -/

/-- The path of an address as text. -/
def pathText (u : Url) : String := u.path.text

/-- What a request for an address asks for: the path and the query. -/
def target (u : Url) : String :=
  match u.query with
  | some q => u.pathText ++ "?" ++ q
  | none => u.pathText

/-- The user, a host and the port of an address as text. -/
def authority (u : Url) (host : Host) : String :=
  let user := match u.username, u.password with
    | "", none => ""
    | name, none => name ++ "@"
    | name, some p => name ++ ":" ++ p ++ "@"
  let port := match u.port with
    | some p => ":" ++ toString p
    | none => ""
  user ++ host.text ++ port

/-- An address as text. -/
def text (u : Url) : String :=
  let authority := match u.host with
    | some h => "//" ++ u.authority h
    | none => ""
  let fragment := match u.fragment with
    | some f => "#" ++ f
    | none => ""
  u.scheme ++ ":" ++ authority ++ u.target ++ fragment

/-! ### Schemes -/

/-- The usual port of a scheme that has one. -/
def defaultPort? (scheme : String) : Option Nat :=
  if scheme = "http" ∨ scheme = "ws" then some 80
  else if scheme = "https" ∨ scheme = "wss" then some 443
  else if scheme = "ftp" then some 21
  else none

/-- Whether addresses of a scheme always have a host and a path, and treat backslashes as
slashes. -/
def isSpecial (scheme : String) : Bool := (defaultPort? scheme).isSome || scheme == "file"

/-- Whether an address can be asked over HTTP. -/
def isWeb (u : Url) : Bool := u.scheme == "http" || u.scheme == "https"

/-- The port that is asked. -/
def effectivePort (u : Url) : Option Nat := u.port <|> defaultPort? u.scheme

/-! ### Paths -/

/-- Whether a raw segment stands for the segment before. -/
def isDoubleDot (s : List Char) : Bool :=
  [".", "%2e", "%2E"].any fun a => [".", "%2e", "%2E"].any fun b => s == (a ++ b).toList

/-- Whether a raw segment stands for itself. -/
def isSingleDot (s : List Char) : Bool := [".", "%2e", "%2E"].any fun a => s == a.toList

/-- The segments of a path, the last one first, after some more raw ones.  Where a path
ends in a dot segment, it ends in a slash. -/
def pushRaw : List String → List (List Char) → List String
  | stack, [] => stack
  | stack, raw :: rest =>
    let slash : List String := if rest.isEmpty then [""] else []
    if isDoubleDot raw then pushRaw (slash ++ stack.drop 1) rest
    else if isSingleDot raw then pushRaw (slash ++ stack) rest
    else pushRaw (String.ofList raw :: stack) rest

/-- The segments of a path with some more raw ones, already encoded. -/
def addSegments (segments : List String) (raws : List (List Char)) : List String :=
  (pushRaw segments.reverse raws).reverse

/-- Characters split at the separators of a path. -/
def splitPath (special : Bool) (cs : List Char) : List (List Char) :=
  (if special then cs.map fun c => if c = '\\' then '/' else c else cs).splitOn '/'

/-- The path that starts with some segments and goes on with raw text. -/
def resolvePath (special : Bool) (segments : List String) (raw : List Char) : List String :=
  addSegments segments ((splitPath special raw).map (Percent.encodeChars Percent.inPath))

/-! ### Parsing -/

/-- Whether a character is left out of an address wherever it stands. -/
def isLeftOut (c : Char) : Bool := c == '\t' || c == '\n' || c == '\r'

/-- Whether a character is left out at the ends of an address. -/
def isPadding (c : Char) : Bool := c.toNat ≤ 0x20

/-- The text of an address without what is left out. -/
def clean (s : String) : List Char :=
  ((s.toList.dropWhile isPadding).reverse.dropWhile isPadding).reverse.filter (!isLeftOut ·)

/-- The scheme at the start of a text, and what follows its colon. -/
def splitScheme? (cs : List Char) : Option (String × List Char) :=
  let isPart (c : Char) : Bool := c.isAlphanum || c == '+' || c == '-' || c == '.'
  match cs.takeWhile isPart, cs.dropWhile isPart with
  | c :: name, ':' :: rest =>
    if c.isAlpha then some (String.ofList ((c :: name).map Char.toLower), rest) else none
  | _, _ => none

/-- Whether a character ends the authority of an address. -/
def endsAuthority (special : Bool) (c : Char) : Bool :=
  c == '/' || c == '?' || c == '#' || (special && c == '\\')

/-- The query and the fragment at the end of an address. -/
def splitTail (special : Bool) (cs : List Char) : Option String × Option String :=
  let beforeFragment := cs.takeWhile (· ≠ '#')
  let fragment := match cs.dropWhile (· ≠ '#') with
    | '#' :: rest => some (String.ofList (Percent.encodeChars Percent.inFragment rest))
    | _ => none
  let query := match beforeFragment.dropWhile (· ≠ '?') with
    | '?' :: rest =>
      let set := if special then Percent.inWebQuery else Percent.inQuery
      some (String.ofList (Percent.encodeChars set rest))
    | _ => none
  (query, fragment)

/-- The raw path before the query and the fragment. -/
def rawPath (cs : List Char) : List Char := cs.takeWhile fun c => c ≠ '?' ∧ c ≠ '#'

/-- The name and the password of the user before the last at sign, and what follows it. -/
def splitUser (special : Bool) (cs : List Char) :
    Except UrlError (String × Option String × List Char) :=
  let authority := cs.takeWhile (!endsAuthority special ·)
  let after := cs.dropWhile (!endsAuthority special ·)
  if authority.contains '@' then
    let host := (authority.reverse.takeWhile (· ≠ '@')).reverse
    let user := ((authority.reverse.dropWhile (· ≠ '@')).drop 1).reverse
    if user.isEmpty ∧ host.isEmpty ∧ !after.isEmpty then .error .emptyHost
    else
      let encode (cs : List Char) : String :=
        String.ofList (Percent.encodeChars Percent.inUserinfo cs)
      let password := match user.dropWhile (· ≠ ':') with
        | ':' :: c :: rest => some (encode (c :: rest))
        | _ => none
      .ok (encode (user.takeWhile (· ≠ ':')), password, host ++ after)
  else .ok ("", none, cs)

/-- The characters of a host: colons end it, except in brackets. -/
def hostChars (special : Bool) : Bool → List Char → List Char
  | _, [] => []
  | bracket, c :: cs =>
    if (c = ':' ∧ !bracket) ∨ endsAuthority special c then []
    else c :: hostChars special ((bracket ∨ c = '[') ∧ c ≠ ']') cs

/-- The number of a port, if it is small enough and digits are all there is before the path. -/
def parsePort (special : Bool) (cs : List Char) : Except UrlError (Option Nat × List Char) :=
  let ds := cs.takeWhile Char.isDigit
  let rest := cs.dropWhile Char.isDigit
  let value := Host.valueOf 10 ds
  let ended := match rest with
    | [] => true
    | c :: _ => endsAuthority special c || c == '\\'
  if 65535 < value ∨ !ended then .error .invalidPort
  else .ok (if ds.isEmpty then none else some value, rest)

/-- The host and the port at the start of a text, and what follows them. -/
def parseHostPort (scheme : String) (cs : List Char) :
    Except UrlError (Host × Option Nat × List Char) := do
  let special := isSpecial scheme
  let name := hostChars special false cs
  let rest := cs.drop name.length
  if special ∧ name.isEmpty then .error .emptyHost
  let host ← if special then Host.parse name else Host.parseOpaque name
  match rest with
  | ':' :: after =>
    if name.isEmpty then .error .emptyHost
    let (port, rest) ← parsePort special after
    .ok (host, if port = defaultPort? scheme then none else port, rest)
  | _ => .ok (host, none, rest)

/-- The path at the start of what follows an authority. -/
def parsePath (special : Bool) (cs : List Char) : List String :=
  match rawPath cs with
  | [] => if special then [""] else []
  | c :: raw =>
    if c = '/' ∨ (special ∧ c = '\\') then resolvePath special [] raw
    else resolvePath special [] (c :: raw)

/-- An address from its authority on. -/
def parseAuthority (scheme : String) (cs : List Char) : Except UrlError Url := do
  let special := isSpecial scheme
  let (username, password, cs) ← splitUser special cs
  let (host, port, cs) ← parseHostPort scheme cs
  if host = .domain "" ∧ (username ≠ "" ∨ password.isSome) then .error .emptyHost
  let (query, fragment) := splitTail special cs
  .ok { scheme, username, password, host := some host, port
        path := .segments (parsePath special cs), query, fragment }

/-- Whether a text is the letter of a drive. -/
def isDriveLetter : List Char → Bool
  | [c, d] => c.isAlpha && (d == ':' || d == '|')
  | _ => false

/-- Whether a character is a slash of either kind. -/
def isSlash (c : Char) : Bool := c == '/' || c == '\\'

/-- An address of a file, from what follows the colon on. -/
def parseFile (cs : List Char) : Except UrlError Url := do
  let (query, fragment) := splitTail true cs
  match cs with
  | a :: b :: rest =>
    if isSlash a ∧ isSlash b then
      let name := rest.takeWhile (!endsAuthority true ·)
      let after := rest.dropWhile (!endsAuthority true ·)
      if name.isEmpty ∨ isDriveLetter name then
        .ok { scheme := "file", path := .segments (parsePath true rest), query, fragment }
      else do
        let host ← Host.parse name
        .ok { scheme := "file", host := some host, path := .segments (parsePath true after), query,
              fragment }
    else .ok { scheme := "file", path := .segments (parsePath true cs), query, fragment }
  | _ => .ok { scheme := "file", path := .segments (parsePath true cs), query, fragment }

/-- An address relative to one of the web. -/
def parseRelative (base : Url) (segments : List String) (cs : List Char) : Except UrlError Url :=
  let (query, fragment) := splitTail true cs
  match cs with
  | [] => .ok { base with fragment := none }
  | c :: rest =>
    if c = '#' then .ok { base with fragment }
    else if c = '?' then .ok { base with query, fragment }
    else if isSlash c then
      match rest with
      | d :: rest' =>
        if isSlash d then
          -- two plain slashes are followed by the host at once, others by any number more
          parseAuthority base.scheme
            (if c = '/' ∧ d = '/' then rest' else rest'.dropWhile isSlash)
        else .ok { base with path := .segments (resolvePath true [] (rawPath rest)), query, fragment }
      | [] => .ok { base with path := .segments [""], query, fragment }
    else
      .ok { base with
        path := .segments (resolvePath true segments.dropLast (rawPath cs)), query, fragment }

/-- An address after its scheme, if it is not relative. -/
def parseScheme (scheme : String) (rest : List Char) : Except UrlError Url :=
  if scheme = "file" then parseFile rest
  else if isSpecial scheme then parseAuthority scheme (rest.dropWhile isSlash)
  else
    match rest with
    | '/' :: '/' :: rest => parseAuthority scheme rest
    | '/' :: after =>
      let (query, fragment) := splitTail false after
      .ok { scheme, path := .segments (resolvePath false [] (rawPath after)), query, fragment }
    | _ =>
      let (query, fragment) := splitTail false rest
      .ok { scheme, path := .opaqueText (String.ofList (Percent.encodeChars Percent.isControl (rawPath rest))),
            query, fragment }

/-- The address that a text stands for. -/
def parse (s : String) : Except UrlError Url :=
  match splitScheme? (clean s) with
  | some (scheme, rest) => parseScheme scheme rest
  | none => .error .relativeWithoutBase

/-- The address that a text stands for where another address stands. -/
def join (base : Url) (s : String) : Except UrlError Url :=
  let cs := clean s
  match splitScheme? cs, base.path with
  | some (scheme, rest), .segments segments =>
    -- the scheme of the base, without an authority, is relative to it
    if scheme = base.scheme ∧ isSpecial scheme ∧ scheme ≠ "file" ∧ (rest.takeWhile isSlash).length < 2 then
      parseRelative base segments rest
    else parseScheme scheme rest
  | some (scheme, rest), .opaqueText _ => parseScheme scheme rest
  | none, .segments segments => parseRelative base segments cs
  | none, .opaqueText _ =>
    if cs.head? = some '#' then .ok { base with fragment := (splitTail false cs).2 }
    else .error .relativeWithOpaqueBase

/-! ### Extending -/

/-- A path with a text put after it as one segment.  A dot segment is left out; tabs and
line ends are dropped from the text, and what is a dot segment only then is resolved. -/
def pushSegment (segments : List String) (s : String) : List String :=
  if s = "." ∨ s = ".." then segments
  else
    let raw := Percent.encodeChars Percent.inSegment (s.toList.filter (!isLeftOut ·))
    let segments := if segments = [""] then [] else segments
    match addSegments segments [raw] with
    | [] => [""]
    | list => list

/-- An address with texts put after its path as one segment each; none if its path cannot
be extended. -/
def extend? (u : Url) (parts : List String) : Option Url :=
  match u.path with
  | .segments list => some { u with path := .segments (parts.foldl pushSegment list) }
  | .opaqueText _ => none

/-- An address with a pair put after its query. -/
def appendPair (u : Url) (name value : String) : Url :=
  let pair := Form.encode [(name, value)]
  { u with query := some (match u.query with
    | some "" => pair
    | some q => q ++ "&" ++ pair
    | none => pair) }

end Url

end ParameterManager
