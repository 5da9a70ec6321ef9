import FishCheck.Url.Host

/-!
# URLs

Editors name documents by URL. Reading one follows the URL standard: the scheme is
lower-cased, dot segments are resolved, characters that a part may not hold are
percent-encoded and escapes already there are kept. Two URLs are the same document
exactly when their parts are the same after reading.
-/

namespace FishCheck

/-- The authority of a URL, each part as it is written. -/
structure Authority where
  /-- User name and password with the `@` after them, or nothing. -/
  userInfo : Text
  host : Text
  /-- The port with the colon before it, or nothing. -/
  port : Text
deriving DecidableEq, Repr

/-- The text between the slashes that start an authority and the path. -/
def Authority.toText (a : Authority) : Text := a.userInfo ++ a.host ++ a.port

/-- A URL in its parts, each as it is written. -/
structure Url where
  scheme : Text
  authority : Option Authority
  path : Text
  query : Option Text
  fragment : Option Text
deriving DecidableEq, Repr

namespace Url

/-- A part of the URL after the character that introduces it. -/
def introduced (c : Char) : Option Text → Text
  | none => []
  | some t => c :: t

/-- The URL as text. A path that starts with two slashes is kept apart from an absent
authority by a dot segment. -/
def toText (u : Url) : Text :=
  u.scheme ++ ":" ++
    (match u.authority with
      | some a => "//" ++ a.toText
      | none => if u.path.take 2 = "//" then "/." else []) ++
    u.path ++ introduced '?' u.query ++ introduced '#' u.fragment

/-! ## Schemes -/

/-- Whether a character may stand in a scheme after its first letter. -/
def isSchemeChar (c : Char) : Bool := c.isAlphanum || c == '+' || c == '-' || c == '.'

/-- Cuts off the scheme, in lower case, and the colon after it. -/
def takeScheme? (t : Text) : Option (Text × Text) :=
  if t.head?.any Char.isAlpha then
    match t.dropWhile isSchemeChar with
    | ':' :: rest => some ((t.takeWhile isSchemeChar).map Char.toLower, rest)
    | _ => none
  else none

/-- The port that a special scheme implies. -/
def defaultPort? (scheme : Text) : Option Nat :=
  if scheme = "http" ∨ scheme = "ws" then some 80
  else if scheme = "https" ∨ scheme = "wss" then some 443
  else if scheme = "ftp" then some 21
  else none

/-- Whether the scheme names files. -/
def isFileScheme (scheme : Text) : Bool := scheme == "file"

/-- Whether the standard gives the scheme its own rules. -/
def isSpecial (scheme : Text) : Bool := isFileScheme scheme || (defaultPort? scheme).isSome

/-! ## Paths -/

/-- Whether a character ends a segment: the slash, and in special schemes the backslash. -/
def isSeparator (special : Bool) (c : Char) : Bool := c == '/' || special && c == '\\'

/-- Cuts a path at its separators. -/
def segmentsOf (special : Bool) : Text → List Text
  | [] => [[]]
  | c :: cs =>
    if isSeparator special c then [] :: segmentsOf special cs
    else Text.consPiece c (segmentsOf special cs)

/-- The segment `.`, its dot possibly escaped. -/
def isSingleDot (s : Text) : Bool :=
  let s := s.map Char.toLower
  s == "." || s == "%2e"

/-- The segment `..`, its dots possibly escaped. -/
def isDoubleDot (s : Text) : Bool :=
  let s := s.map Char.toLower
  s == ".." || s == ".%2e" || s == "%2e." || s == "%2e%2e"

/-- A letter and a colon, or a bar for the colon: the name of a drive. -/
def isDriveLetter : Text → Bool
  | [a, b] => a.isAlpha && (b == ':' || b == '|')
  | _ => false

/-- A letter and a colon. -/
def isWrittenDriveLetter : Text → Bool
  | [a, b] => a.isAlpha && b == ':'
  | _ => false

/-- Removes the last segment; a drive letter that is the only one stays. -/
def shorten (file : Bool) (segments : List Text) : List Text :=
  match segments.filter (!·.isEmpty) with
  | [only] => if file && isWrittenDriveLetter only then segments else segments.dropLast
  | _ => segments.dropLast

/-- Adds one segment of the text to the segments read so far: dots are resolved, the
drive letter that leads a file path gets its colon. -/
def pushSegment (file : Bool) (segments : List Text) (raw : Text) (last : Bool) : List Text :=
  let s := Percent.encodeText Percent.path raw
  if isDoubleDot s then shorten file segments ++ (if last then [[]] else [])
  else if isSingleDot s then segments ++ (if last then [[]] else [])
  else if file && segments.isEmpty && isDriveLetter s then [s.take 1 ++ ":"]
  else segments ++ [s]

/-- Adds the segments of the text in order. -/
def pushSegments (file : Bool) (segments : List Text) : List Text → List Text
  | [] => segments
  | [raw] => pushSegment file segments raw true
  | raw :: raws => pushSegments file (pushSegment file segments raw false) raws

/-- Segments as a path: each after a slash. -/
def writePath (segments : List Text) : Text := segments.flatMap ('/' :: ·)

/-- Drops the empty segments that lead a file path, but not the last one. -/
def dropLeadingEmpty : List Text → List Text
  | [] => [[]]
  | [] :: rest => dropLeadingEmpty rest
  | segments => segments

/-- Removes the separator at the front of a path. -/
def dropSeparator (special : Bool) (t : Text) : Text :=
  match t with
  | c :: rest => if isSeparator special c then rest else t
  | [] => []

/-- The path that a text after the authority spells. -/
def readPath (scheme : Text) (t : Text) : Text :=
  let special := isSpecial scheme
  let file := isFileScheme scheme
  let segments := pushSegments file [] (segmentsOf special (dropSeparator special t))
  writePath (if file then dropLeadingEmpty segments else segments)

/-! ## Authorities -/

/-- Cuts a text before its first separator. -/
def untilSeparator (special : Bool) (t : Text) : Text × Text :=
  (t.takeWhile (!isSeparator special ·), t.dropWhile (!isSeparator special ·))

/-- Cuts a text at the last occurrence of a character, if there is one. -/
def splitLast? (c : Char) (t : Text) : Option (Text × Text) :=
  let after := (t.reverse.takeWhile (· != c)).reverse
  if after.length < t.length then some (t.take (t.length - after.length - 1), after) else none

/-- User name and password, escaped, with the `@` after them if there is anything. -/
def readUserInfo (t : Text) : Text :=
  let encode := Percent.encodeText Percent.userInfo
  let user := t.takeWhile (· != ':')
  let password := (t.dropWhile (· != ':')).drop 1
  if user.isEmpty && password.isEmpty then []
  else encode user ++ (if password.isEmpty then [] else ':' :: encode password) ++ "@"

/-- The port after its colon; the one that the scheme implies is left out. -/
def readPort? (scheme : Text) (t : Text) : Option Text :=
  if t.isEmpty then some []
  else (Text.natural? t).bind fun port =>
    if 65535 < port then none
    else if defaultPort? scheme = some port then some []
    else some (':' :: Text.decimal port)

/-- Cuts a host from the colon of a port; colons inside brackets belong to the host. -/
def splitPort (bracketed : Bool) : Text → Text × Option Text
  | [] => ([], none)
  | c :: cs =>
    if c = ':' ∧ bracketed = false then ([], some cs)
    else
      let inside := if c = '[' then true else if c = ']' then false else bracketed
      let (host, port) := splitPort inside cs
      (c :: host, port)

/-- The authority that a text spells, given whether a path follows. -/
def readAuthority? (scheme : Text) (t : Text) (followed : Bool) : Option Authority :=
  let (userInfo, rest) := match splitLast? '@' t with
    | some (info, rest) => (readUserInfo info, rest)
    | none => ([], t)
  let (host, port) := splitPort false rest
  if host.isEmpty then
    if isSpecial scheme || !userInfo.isEmpty || port.isSome || t == "@" && followed then none
    else some ⟨[], [], []⟩
  else do
    let host ← if isSpecial scheme then UrlHost.domain? host else UrlHost.uninterpreted? host
    let port ← readPort? scheme (port.getD [])
    pure ⟨userInfo, host, port⟩

/-! ## Reading a URL -/

/-- The authority and path of a file URL. -/
def readFile? (t : Text) : Option (Authority × Text) :=
  let scheme : Text := "file"
  match t with
  | a :: b :: rest =>
    if isSeparator true a && isSeparator true b then
      let (host, path) := untilSeparator true rest
      if isDriveLetter host then some (⟨[], [], []⟩, readPath scheme rest)
      else if host.isEmpty then some (⟨[], [], []⟩, readPath scheme path)
      else (UrlHost.domain? host).map fun (host : Text) =>
        let first := (segmentsOf true (dropSeparator true path)).headD []
        if host = "localhost" ∨ isDriveLetter first = true then (⟨[], [], []⟩, readPath scheme path)
        else (⟨[], host, []⟩, readPath scheme path)
    else some (⟨[], [], []⟩, readPath scheme t)
  | _ => some (⟨[], [], []⟩, readPath scheme t)

/-- The authority and path of a URL of any scheme. -/
def readHierarchy? (scheme : Text) (t : Text) : Option (Option Authority × Text) :=
  if isFileScheme scheme then (readFile? t).map fun (a, path) => (some a, path)
  else if isSpecial scheme then
    let (authority, path) := untilSeparator true (t.dropWhile (isSeparator true))
    (readAuthority? scheme authority true).map fun a => (some a, readPath scheme path)
  else match t with
    | '/' :: '/' :: rest =>
      let (authority, path) := untilSeparator false rest
      (readAuthority? scheme authority !path.isEmpty).map fun a =>
        (some a, if path.isEmpty then [] else readPath scheme path)
    | '/' :: rest => some (none, readPath scheme rest)
    | _ => some (none, Percent.encodeText Percent.controls t)

/-- Removes what surrounds a URL and what it may be broken with: controls and spaces at
both ends, tabs and line ends anywhere. -/
def clean (t : Text) : Text :=
  let blank : Char → Bool := fun c => c.toNat ≤ 0x20
  ((t.dropWhile blank).reverse.dropWhile blank).reverse.filter
    fun c => c != '\t' && c != '\n' && c != '\r'

/-- Reads an absolute URL. -/
def parse? (t : Text) : Option Url := do
  let (scheme, rest) ← takeScheme? (clean t)
  let main := rest.takeWhile fun c => c != '?' && c != '#'
  let tail := rest.dropWhile fun c => c != '?' && c != '#'
  let (authority, path) ← readHierarchy? scheme main
  let querySet := if isSpecial scheme then Percent.specialQuery else Percent.query
  let query := match tail with
    | '?' :: q => some (Percent.encodeText querySet (q.takeWhile (· != '#')))
    | _ => none
  let fragment := match tail.dropWhile (· != '#') with
    | '#' :: f => some (Percent.encodeText Percent.fragment f)
    | _ => none
  pure ⟨scheme, authority, path, query, fragment⟩

end Url

end FishCheck
