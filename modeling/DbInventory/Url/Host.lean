/-
# DbInventory.Url.Host -- hosts of addresses

A host is a domain name, an IPv4 address or an IPv6 address. Names of web addresses are read
with percent signs resolved and in ASCII form; a name whose last label is a number is an IPv4
address, and text in brackets is an IPv6 address. Other schemes keep their host as it is
written.
-/

import DbInventory.Text.Parts
import DbInventory.Text.Percent
import DbInventory.Url.DomainName

namespace DbInventory

/-- Why a text is not an address. -/
inductive UrlFault where
  | noScheme
  | emptyHost
  | invalidPort
  | invalidIpv4
  | invalidIpv6
  | invalidDomain
  | invalidDomainCharacter
  deriving DecidableEq

def UrlFault.message : UrlFault → String
  | .noScheme => "relative URL without a base"
  | .emptyHost => "empty host"
  | .invalidPort => "invalid port number"
  | .invalidIpv4 => "invalid IPv4 address"
  | .invalidIpv6 => "invalid IPv6 address"
  | .invalidDomain => "invalid international domain name"
  | .invalidDomainCharacter => "invalid domain character"

/-- A host; an IPv6 address has eight pieces of 16 bits. -/
inductive Host where
  | domain (name : String)
  | ipv4 (address : Nat)
  | ipv6 (pieces : List Nat)
  deriving DecidableEq

namespace Host

/-! ## IPv4 -/

/-- A number to a base. -/
def numberToBase? (base : Nat) (s : List Char) : Option Nat :=
  s.foldl (fun n c => do
    let n ← n
    let d ← Text.hexValue c
    if d < base then some (base * n + d) else none) (some 0)

/-- A part of an IPv4 address: hexadecimal behind `0x`, octal behind a zero, else decimal. -/
def ipv4Part? (s : List Char) : Option Nat :=
  match s with
  | [] => none
  | '0' :: 'x' :: rest | '0' :: 'X' :: rest => numberToBase? 16 rest
  | '0' :: c :: rest => numberToBase? 8 (c :: rest)
  | s => numberToBase? 10 s

/-- The labels of a name, without an empty last one. -/
def labels (name : List Char) : List (List Char) :=
  let all := Text.parts '.' name
  if 1 < all.length ∧ all.getLast? = some [] then all.dropLast else all

/-- The last label is a number. -/
def endsInNumber (name : List Char) : Bool :=
  match (labels name).getLast? with
  | none => false
  | some [] => false
  | some label => label.all Char.isDigit || (ipv4Part? label).isSome

/-- Parts of eight bits each, and a last one that fills what is left. -/
def ipv4OfParts? : (left : Nat) → List Nat → Option Nat
  | _, [] => none
  | left, [n] => if n < Nat.pow 256 left then some n else none
  | left, n :: parts => do
    let rest ← ipv4OfParts? (left - 1) parts
    if n < 256 then some (n * Nat.pow 256 (left - 1) + rest) else none

/-- The IPv4 address of a name that ends in a number. -/
def ipv4OfName (name : List Char) : Except UrlFault Nat :=
  let parts := labels name
  if 4 < parts.length then .error .invalidIpv4
  else
    match (parts.mapM ipv4Part?).bind (ipv4OfParts? 4) with
    | some address => .ok address
    | none => .error .invalidIpv4

def ipv4Text (address : Nat) : String :=
  String.intercalate "." ([3, 2, 1, 0].map fun i => toString (address >>> (8 * i) % 256))

/-! ## IPv6 -/

/-- A decimal number below 256 without zeros in front. -/
def byteOfDecimal? (s : List Char) : Option Nat := do
  let n ← numberToBase? 10 s
  if s.isEmpty || 255 < n || (1 < s.length && s.head? == some '0') then none else some n

/-- A group of an IPv6 address: hexadecimal digits, or, in the last place, an IPv4 address
that makes two pieces. -/
def ipv6Group? (isLast : Bool) (s : List Char) : Option (List Nat) :=
  if '.' ∈ s then
    if isLast then
      match (Text.parts '.' s).mapM byteOfDecimal? with
      | some [a, b, c, d] => some [256 * a + b, 256 * c + d]
      | _ => none
    else none
  else if s.isEmpty || 4 < s.length then none
  else (numberToBase? 16 s).map ([·])

/-- The pieces of groups. -/
def ipv6Groups? : List (List Char) → Option (List Nat)
  | [] => some []
  | [s] => ipv6Group? true s
  | s :: rest => do
    let first ← ipv6Group? false s
    let others ← ipv6Groups? rest
    some (first ++ others)

/-- The groups in front of a gap and those behind it, if there is one. A gap is written as
two colons, which leave an empty group, and one more at an end of the text. -/
def gap? (groups : List (List Char)) : Option (List (List Char) × Option (List (List Char))) :=
  let groups :=
    match groups with
    | [] :: [] :: rest => some ([] :: rest)
    | [] :: _ => none
    | groups => some groups
  let groups := groups.bind fun groups =>
    match groups.reverse with
    | [] :: [] :: rest => some ([] :: rest).reverse
    | [[]] => some groups
    | [] :: _ => if groups.length = 1 then some groups else none
    | _ => some groups
  groups.map fun groups =>
    if [] ∈ groups then
      (groups.takeWhile (· ≠ []), some ((groups.dropWhile (· ≠ [])).drop 1))
    else (groups, none)

/-- The groups in front of a gap end in no IPv4 address. -/
def ipv6Pieces? (groups : List (List Char)) : Option (List Nat) := do
  match ← gap? groups with
  | (groups, none) =>
    let pieces ← ipv6Groups? groups
    if pieces.length = 8 then some pieces else none
  | (front, some back) =>
    let front ← (front.mapM (ipv6Group? false)).map List.flatten
    let back ← ipv6Groups? back
    let length := front.length + back.length
    if length ≤ 7 then some (front ++ List.replicate (8 - length) 0 ++ back) else none

def ipv6OfText (s : List Char) : Except UrlFault (List Nat) :=
  if s.length < 2 then .error .invalidIpv6
  else
    match ipv6Pieces? (Text.parts ':' s) with
    | some pieces => .ok pieces
    | none => .error .invalidIpv6

/-- The length of the run of zeros that starts at each place. -/
def zeroRuns : List Nat → List Nat
  | [] => []
  | n :: rest =>
    let runs := zeroRuns rest
    (if n = 0 then runs.headD 0 + 1 else 0) :: runs

def hexText (n : Nat) : List Char := Nat.toDigits 16 n

/-- The pieces, with a gap for the first of the longest runs of at least two zeros. -/
def ipv6Text (pieces : List Nat) : String :=
  let runs := zeroRuns pieces
  let longest := runs.foldl max 0
  let joined (pieces : List Nat) : List Char := Text.joinParts ':' (pieces.map hexText)
  let body :=
    if longest < 2 then joined pieces
    else
      let start := runs.findIdx (· = longest)
      joined (pieces.take start) ++ [':', ':'] ++ joined (pieces.drop (start + longest))
  String.ofList ('[' :: body ++ [']'])

/-! ## Hosts -/

/-- The host of a web address. -/
def ofWebText (s : List Char) : Except UrlFault Host :=
  match s with
  | '[' :: rest =>
    if rest.getLast? = some ']' then (ipv6OfText rest.dropLast).map .ipv6
    else .error .invalidIpv6
  | s =>
    let bytes := Text.percentDecode s
    let decoded := (Text.decodeUtf8 bytes).toList
    if Text.utf8Chars decoded ≠ bytes then .error .invalidDomain
    else
      match DomainName.ascii? decoded with
      | none => .error .invalidDomain
      | some name =>
        if name.isEmpty then .error .emptyHost
        else if endsInNumber name then (ipv4OfName name).map .ipv4
        else .ok (.domain (String.ofList name))

/-- The characters that no name of any other address has. -/
def isForbiddenOpaque (c : Char) : Bool :=
  ['\x00', '\t', '\n', '\r', ' ', '#', '/', ':', '<', '>', '?', '@', '[', '\\', ']', '^',
    '|'].contains c

/-- The host of another address. -/
def ofOpaqueText (s : List Char) : Except UrlFault Host :=
  match s with
  | '[' :: rest =>
    if rest.getLast? = some ']' then (ipv6OfText rest.dropLast).map .ipv6
    else .error .invalidIpv6
  | s =>
    if s.any isForbiddenOpaque then .error .invalidDomainCharacter
    else
      .ok (.domain (String.ofList (Text.percentEncode (fun c => ' ' ≤ c && c ≤ '~') s)))

def text : Host → String
  | .domain name => name
  | .ipv4 address => ipv4Text address
  | .ipv6 pieces => ipv6Text pieces

end Host

end DbInventory
