/-
# DbInventory.Url.Parser -- reading addresses

Blanks and controls around an address do not count, and neither do tabs and line breaks inside
it. The scheme ends at the first colon. The web schemes and `ftp` take slashes of either kind,
always have a host, and have at least a slash for a path. Segments of one and two dots are
resolved, and characters that may not stand for themselves are written behind percent signs;
which those are hangs on the part of the address.
-/

import DbInventory.Url.Basic

namespace DbInventory.Url

/-! ## Schemes -/

/-- Web addresses and the like, addresses of files, and all others. -/
inductive SchemeKind where
  | web
  | file
  | other
  deriving DecidableEq

def schemeKind (scheme : String) : SchemeKind :=
  if scheme ∈ ["http", "https", "ws", "wss", "ftp"] then .web
  else if scheme = "file" then .file
  else .other

def usualPort? (scheme : String) : Option Nat :=
  if scheme = "http" ∨ scheme = "ws" then some 80
  else if scheme = "https" ∨ scheme = "wss" then some 443
  else if scheme = "ftp" then some 21
  else none

def isSchemeChar (c : Char) : Bool :=
  c.isAlphanum || c == '+' || c == '-' || c == '.'

/-- The scheme, in lower case, and what stands behind its colon. -/
def splitScheme? (s : List Char) : Option (String × List Char) :=
  match s.span isSchemeChar with
  | (c :: scheme, ':' :: rest) =>
    if c.isAlpha then some (String.ofList ((c :: scheme).map Char.toLower), rest) else none
  | _ => none

/-! ## Which characters stand for themselves -/

def plainIn (others : List Char) (c : Char) : Bool :=
  ' ' ≤ c && c ≤ '~' && !others.contains c

def plainInFragment : Char → Bool := plainIn [' ', '"', '<', '>', '`']

def plainInPath : Char → Bool := plainIn [' ', '"', '<', '>', '`', '#', '?', '{', '}']

def plainInUser : Char → Bool :=
  plainIn [' ', '"', '<', '>', '`', '#', '?', '{', '}', '/', ':', ';', '=', '@', '[', '\\', ']',
    '^', '|']

/-- The query of a web address also encodes apostrophes. -/
def plainInQuery (kind : SchemeKind) : Char → Bool :=
  if kind = .other then plainIn [' ', '"', '#', '<', '>']
  else plainIn [' ', '"', '#', '<', '>', '\'']

def encodedText (plain : Char → Bool) (s : List Char) : String :=
  String.ofList (Text.percentEncode plain s)

/-! ## Paths -/

/-- A dot may be written behind a percent sign. -/
def dotCount (segment : List Char) : Option Nat :=
  match segment with
  | [] => some 0
  | '.' :: rest => (dotCount rest).map (· + 1)
  | '%' :: '2' :: c :: rest =>
    if c = 'e' ∨ c = 'E' then (dotCount rest).map (· + 1) else none
  | _ => none

/-- The segments with those of dots resolved; a last one of dots leaves an empty one. The
segments so far are in reverse order. -/
def resolveDots : (kept : List (List Char)) → List (List Char) → List (List Char)
  | kept, [] => kept.reverse
  | kept, [segment] =>
    if dotCount segment = some 2 then ([] :: kept.drop 1).reverse
    else if dotCount segment = some 1 then ([] :: kept).reverse
    else (segment :: kept).reverse
  | kept, segment :: rest =>
    if dotCount segment = some 2 then resolveDots (kept.drop 1) rest
    else if dotCount segment = some 1 then resolveDots kept rest
    else resolveDots (segment :: kept) rest

def slashed (s : List Char) : List Char := s.map fun c => if c = '\\' then '/' else c

/-- The segments of a path. -/
def segments (kind : SchemeKind) (s : List Char) : List (List Char) :=
  let s := if kind = .other then s else slashed s
  let s := if s.head? = some '/' then s.drop 1 else s
  resolveDots [] ((Text.parts '/' s).map (Text.percentEncode plainInPath))

/-- A path behind a host. -/
def pathText (kind : SchemeKind) (s : List Char) : String :=
  if s.isEmpty ∧ kind = .other then ""
  else
    let all := segments kind s
    let all := if kind = .file then all.dropWhile List.isEmpty else all
    String.ofList ('/' :: Text.joinParts '/' all)

/-- A letter and a colon or bar. -/
def isDriveLetter (segment : List Char) : Bool :=
  match segment with
  | [c, d] => c.isAlpha && (d == ':' || d == '|')
  | _ => false

/-! ## Authorities -/

/-- The port of an authority, from behind its colon. -/
def readPort (scheme : String) (s : List Char) : Except UrlFault (Option Nat) :=
  if s.all Char.isDigit then
    match Host.numberToBase? 10 s with
    | none => .error .invalidPort
    | some port =>
      if 65535 < port then .error .invalidPort
      else if s.isEmpty ∨ usualPort? scheme = some port then .ok none
      else .ok (some port)
  else .error .invalidPort

/-- The host part of an authority: a colon ends it, unless it stands in brackets. -/
def hostLength : (inBrackets : Bool) → List Char → Nat
  | _, [] => 0
  | inBrackets, c :: s =>
    if c = ':' ∧ !inBrackets then 0
    else if c = '[' then hostLength true s + 1
    else if c = ']' then hostLength false s + 1
    else hostLength inBrackets s + 1

/-- User and password of an authority: the text up to its last at sign, and the rest. -/
def splitUser (authority : List Char) : Option (List Char) × List Char :=
  let behind := (authority.reverse.takeWhile (· ≠ '@')).reverse
  if behind.length < authority.length then
    (some (authority.take (authority.length - behind.length - 1)), behind)
  else (none, authority)

/-- User and password; an empty password does not count. -/
def readUser (s : List Char) : String × Option String :=
  let (user, rest) := s.span (· ≠ ':')
  let password := rest.drop 1
  (encodedText plainInUser user,
    if password.isEmpty then none else some (encodedText plainInUser password))

/-- Where an authority ends. -/
def endsAuthority (kind : SchemeKind) (c : Char) : Bool :=
  c == '/' || c == '?' || c == '#' || (kind != .other && c == '\\')

/-- The query and the fragment behind a path. -/
def readEnds (kind : SchemeKind) (s : List Char) : Option String × Option String :=
  let (front, rest) := s.span (· ≠ '#')
  let query := match front with
    | '?' :: query => some (encodedText (plainInQuery kind) query)
    | _ => none
  let fragment := match rest with
    | '#' :: fragment => some (encodedText plainInFragment fragment)
    | _ => none
  (query, fragment)

def endsPath (c : Char) : Bool := c == '?' || c == '#'

/-- The address of an authority and a path. -/
def withAuthority (scheme : String) (kind : SchemeKind) (s : List Char) : Except UrlFault Url := do
  let (authority, rest) := s.span (!endsAuthority kind ·)
  let (user, hostPort) := splitUser authority
  let (username, password) := readUser (user.getD [])
  let hostText := hostPort.take (hostLength false hostPort)
  let portText := hostPort.drop (hostLength false hostPort)
  let hasUser := username ≠ "" ∨ password ≠ none
  let host ←
    if hostText.isEmpty then
      if kind = .web ∨ portText ≠ [] ∨ hasUser ∨ (user = some [] ∧ rest ≠ []) then
        .error .emptyHost
      else .ok none
    else
      (if kind = .web then Host.ofWebText hostText else Host.ofOpaqueText hostText).map some
  let port ← readPort scheme (portText.drop 1)
  let (path, ends) := rest.span (!endsPath ·)
  let (query, fragment) := readEnds kind ends
  .ok { scheme, username, password, host, port, path := pathText kind path, query, fragment }

/-- The address of a file on a host; `localhost` and drive letters are no hosts. -/
def fileOnHost (s : List Char) : Except UrlFault Url := do
  let (hostText, rest) := s.span (!endsAuthority .file ·)
  let (path, ends) := rest.span (!endsPath ·)
  let isDrive := ((segments .file path).head?.map isDriveLetter).getD false
  let host ←
    if hostText.isEmpty ∨ isDriveLetter hostText then .ok none
    else (Host.ofWebText hostText).map some
  let host := if host = some (.domain "localhost") ∨ isDrive then none else host
  let (query, fragment) := readEnds .file ends
  .ok { scheme := "file", username := "", password := none, host, port := none,
        path := pathText .file path, query, fragment }

/-- An address without a host. -/
def withoutHost (scheme : String) (kind : SchemeKind) (s : List Char) : Url :=
  let (path, ends) := s.span (!endsPath ·)
  let (query, fragment) := readEnds kind ends
  { scheme, username := "", password := none, host := none, port := none,
    path := encodedText (fun c => ' ' ≤ c && c ≤ '~') path, query, fragment }

/-! ## Texts -/

/-- Tabs and line breaks are passed over everywhere. -/
def isSkipped (c : Char) : Bool := c == '\t' || c == '\n' || c == '\r'

/-- The text of an address without what does not count. -/
def trimmed (s : List Char) : List Char :=
  let s := s.dropWhile (· ≤ ' ')
  let s := (s.reverse.dropWhile (· ≤ ' ')).reverse
  s.filter (!isSkipped ·)

def isSlash (c : Char) : Bool := c == '/' || c == '\\'

/-- The address of a text. -/
def ofText (text : String) : Except UrlFault Url :=
  match splitScheme? (trimmed text.toList) with
  | none => .error .noScheme
  | some (scheme, rest) =>
    match schemeKind scheme with
    | .web => withAuthority scheme .web (rest.dropWhile isSlash)
    | .file =>
      match rest with
      | a :: b :: rest =>
        if isSlash a && isSlash b then fileOnHost rest
        else .ok (withoutHost scheme .file (a :: b :: rest))
      | rest => .ok (withoutHost scheme .file rest)
    | .other =>
      match rest with
      | '/' :: '/' :: rest => withAuthority scheme .other rest
      | rest => .ok (withoutHost scheme .other rest)

end DbInventory.Url
