/-
# DbInventory.Json.Token -- blanks, words, strings and numbers

A reader takes something off the front of a text and leaves the rest, or reports a fault.
This module reads the parts of JSON that hold no other values. Strings are read from behind
their opening quote: an escape tells its character and how many characters it takes up, and
reading goes on behind them, so that a string is read in one pass over the text.

Numbers keep their digits while they fit an unsigned word. Digits that no longer fit are
counted in front of the point and ignored behind it, and the number is then a binary64
number, as is any number with a point or an exponent and the negative zero.
-/

import DbInventory.Json.Fault

namespace DbInventory.Json

/-- Takes something off the front of a text. -/
abbrev Reader (α : Type) := List Char → Except Fault (α × List Char)

/-! ## Blanks and words -/

def isBlank (c : Char) : Bool :=
  c == ' ' || c == '\n' || c == '\t' || c == '\r'

def skipBlanks (s : List Char) : List Char := s.dropWhile isBlank

/-- Takes the given letters off the text. -/
def readLetters : (letters s : List Char) → Except Fault (List Char)
  | [], s => .ok s
  | _ :: _, [] => .error (.here .eofInValue [])
  | e :: letters, c :: s =>
    if c = e then readLetters letters s else .error (.next .expectedIdent (c :: s))

/-! ## Strings -/

/-- The four digits behind `\u`. They are counted in bytes: a text that has four bytes left
holds a wrong digit, a shorter one ends too early. -/
def hexEscape (s : List Char) : Except Fault Nat :=
  match s with
  | a :: b :: c :: d :: _ =>
    match Text.hexValue a, Text.hexValue b, Text.hexValue c, Text.hexValue d with
    | some a, some b, some c, some d => .ok (4096 * a + 256 * b + 16 * c + d)
    | _, _, _, _ => .error ⟨.invalidEscape, s, 4⟩
  | _ =>
    if byteLength s < 4 then .error (.here .eofInString []) else .error ⟨.invalidEscape, s, 4⟩

def isHighSurrogate (n : Nat) : Bool := 0xD800 ≤ n && n ≤ 0xDBFF

def isLowSurrogate (n : Nat) : Bool := 0xDC00 ≤ n && n ≤ 0xDFFF

/-- The second half of a surrogate pair, from behind the digits of the first. -/
def lowSurrogate : List Char → Except Fault Nat
  | [] => .error (.here .eofInString [])
  | c :: s =>
    if c = '\\' then
      match s with
      | [] => .error (.here .eofInString [])
      | d :: s =>
        if d = 'u' then do
          let low ← hexEscape s
          if isLowSurrogate low then .ok low else .error (.here .loneSurrogate (s.drop 4))
        else .error (.next .unexpectedEndOfHexEscape (d :: s))
    else .error (.next .unexpectedEndOfHexEscape (c :: s))

/-- The escapes of one letter. -/
def letterEscape (c : Char) : Option Char :=
  if c = '"' ∨ c = '\\' ∨ c = '/' then some c
  else if c = 'b' then some '\x08'
  else if c = 'f' then some '\x0c'
  else if c = 'n' then some '\n'
  else if c = 'r' then some '\r'
  else if c = 't' then some '\t'
  else none

/-- The character of an escape, and how many characters behind the backslash it takes. -/
def readEscape : List Char → Except Fault (Char × Nat)
  | [] => .error (.here .eofInString [])
  | c :: s =>
    if c = 'u' then do
      let n ← hexEscape s
      if isLowSurrogate n then .error (.here .loneSurrogate (s.drop 4))
      else if isHighSurrogate n then do
        let low ← lowSurrogate (s.drop 4)
        .ok (Char.ofNat (0x10000 + 0x400 * (n - 0xD800) + (low - 0xDC00)), 11)
      else .ok (Char.ofNat n, 5)
    else
      match letterEscape c with
      | some e => .ok (e, 1)
      | none => .error (.next .invalidEscape (c :: s))

/-- The characters of a string, from behind its opening quote to behind its closing one;
the first `skip` characters belong to an escape that has been read. -/
def readChars : (skip : Nat) → Reader (List Char)
  | _, [] => .error (.here .eofInString [])
  | n + 1, _ :: s => readChars n s
  | 0, c :: s =>
    if c = '"' then .ok ([], s)
    else if c = '\\' then do
      let (e, n) ← readEscape s
      let (chars, rest) ← readChars n s
      .ok (e :: chars, rest)
    else if c < ' ' then .error (.next .controlCharacter (c :: s))
    else do
      let (chars, rest) ← readChars 0 s
      .ok (c :: chars, rest)

/-- A string from behind its opening quote. -/
def readString : Reader String := fun s => do
  let (chars, rest) ← readChars 0 s
  .ok (String.ofList chars, rest)

/-! ## Numbers -/

def isDigit (c : Char) : Bool := '0' ≤ c && c ≤ '9'

def digitValue (c : Char) : Nat := c.toNat - '0'.toNat

/-- Appends digits while the number fits an unsigned word; the digits that no longer do are
left. -/
def absorb : (significand : Nat) → List Char → Nat × List Char
  | n, [] => (n, [])
  | n, c :: digits =>
    if UInt64.size ≤ 10 * n + digitValue c then (n, c :: digits)
    else absorb (10 * n + digitValue c) digits

/-- The digits in front of the point: a lone zero, or digits that do not start with one. -/
def readIntegerDigits : Reader (List Char)
  | [] => .error (.here .eofInValue [])
  | c :: s =>
    if c = '0' then
      match s with
      | d :: _ => if isDigit d then .error (.next .invalidNumber s) else .ok ([c], s)
      | [] => .ok ([c], s)
    else if isDigit c then .ok (c :: s.takeWhile isDigit, s.dropWhile isDigit)
    else .error (.next .invalidNumber (c :: s))

/-- The digits behind the point; at least one. -/
def readFractionDigits : Reader (List Char) := fun s =>
  match s.takeWhile isDigit, s with
  | [], [] => .error (.here .eofInValue [])
  | [], s => .error (.next .invalidNumber s)
  | digits, s => .ok (digits, s.dropWhile isDigit)

/-- The largest exponent that is still counted. -/
def maxExponentDigits : Nat := 2147483647

/-- The rest of an exponent. A larger exponent than is counted is out of range, unless the
number is zero or gets ever smaller (`vanishes`), and then there is no exponent. -/
def readExponentTail (vanishes : Bool) : (exponent : Nat) → Reader (Option Nat)
  | n, [] => .ok (some n, [])
  | n, c :: s =>
    if isDigit c then
      if maxExponentDigits < 10 * n + digitValue c then
        if vanishes then .ok (none, s.dropWhile isDigit)
        else .error (.here .numberOutOfRange s)
      else readExponentTail vanishes (10 * n + digitValue c) s
    else .ok (some n, c :: s)

/-- An exponent from behind its letter, with its sign. -/
def readExponent (isZero : Bool) : Reader (Option Int) := fun s => do
  let (negative, s) := match s with
    | '-' :: s => (true, s)
    | '+' :: s => (false, s)
    | s => (false, s)
  match s with
  | [] => .error (.here .eofInValue [])
  | c :: s =>
    if isDigit c then
      let (n, s) ← readExponentTail (isZero || negative) (digitValue c) s
      .ok (n.map fun n => if negative then -(n : Int) else n, s)
    else .error (.next .invalidNumber (c :: s))

/-- The binary64 number of a significand and an exponent; the text behind it is known for
the place of a fault. -/
def finishFloat (negative : Bool) (significand : Nat) (exponent : Int) : Reader Number :=
  fun s =>
    match Binary64.ofDecimal negative significand exponent with
    | some x => .ok (.float x, s)
    | none => .error (.here .numberOutOfRange s)

/-- A number without point and exponent: whole if it fits a word. A negative zero does not,
since words have only one zero. -/
def finishWhole (negative : Bool) (significand : Nat) : Reader Number := fun s =>
  if negative && significand == 0 then finishFloat true 0 0 s
  else
    match WordInt.ofInt? (if negative then -(significand : Int) else significand) with
    | some n => .ok (.whole n, s)
    | none => finishFloat negative significand 0 s

/-- The rest of a number whose next character may start an exponent. -/
def finishScaled (negative : Bool) (significand : Nat) (exponent : Int) : Reader Number :=
  fun s =>
    match s with
    | [] => finishFloat negative significand exponent []
    | c :: t =>
      if c = 'e' ∨ c = 'E' then do
        let (shift, rest) ← readExponent (significand == 0) t
        match shift with
        | some shift => finishFloat negative significand (exponent + shift) rest
        | none => finishFloat negative 0 0 rest
      else finishFloat negative significand exponent s

/-- A number from behind its sign. -/
def readNumber (negative : Bool) : Reader Number := fun s => do
  let (digits, s) ← readIntegerDigits s
  let (significand, left) := absorb 0 digits
  match s with
  | '.' :: t => do
    let (fraction, t) ← readFractionDigits t
    let (all, ignored) := absorb significand fraction
    let places := fraction.length - ignored.length
    finishScaled negative all ((left.length : Int) - places) t
  | s =>
    if left.isEmpty && !(s.head? == some 'e' || s.head? == some 'E') then
      finishWhole negative significand s
    else finishScaled negative significand left.length s

end DbInventory.Json
