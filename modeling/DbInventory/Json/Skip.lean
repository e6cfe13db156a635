/-
# DbInventory.Json.Skip -- passing over a value

The value of a member nobody asks for is passed over: its grammar is checked, but its
numbers may be of any size, its escapes need not pair surrogates, and it may be nested to
any depth. The brackets that are open are kept as a list of frames, innermost first.
-/

import DbInventory.Json.Token

namespace DbInventory.Json

/-! ## Strings and numbers -/

/-- How many characters behind the backslash an escape takes. -/
def skipEscape : List Char → Except Fault Nat
  | [] => .error (.here .eofInString [])
  | c :: s =>
    if c = 'u' then do
      let _ ← hexEscape s
      .ok 5
    else if (letterEscape c).isSome then .ok 1
    else .error (.next .invalidEscape (c :: s))

/-- The text behind a string that is entered behind its opening quote. -/
def skipChars : (skip : Nat) → List Char → Except Fault (List Char)
  | _, [] => .error (.here .eofInString [])
  | n + 1, _ :: s => skipChars n s
  | 0, c :: s =>
    if c = '"' then .ok s
    else if c = '\\' then do
      let n ← skipEscape s
      skipChars n s
    else if c < ' ' then .error (.here .controlCharacter (c :: s))
    else skipChars 0 s

/-- The text behind an exponent that is entered behind its letter. -/
def skipExponent (s : List Char) : Except Fault (List Char) :=
  let s := match s with
    | '-' :: s => s
    | '+' :: s => s
    | s => s
  match s with
  | [] => .error (.here .invalidNumber [])
  | c :: s =>
    if isDigit c then .ok (s.dropWhile isDigit) else .error (.next .invalidNumber (c :: s))

/-- The text behind an exponent, if there is one. -/
def skipScale : List Char → Except Fault (List Char)
  | [] => .ok []
  | c :: s => if c = 'e' ∨ c = 'E' then skipExponent s else .ok (c :: s)

/-- The text behind a number that is entered behind its sign. -/
def skipNumber (s : List Char) : Except Fault (List Char) := do
  let s ← match s with
    | [] => .error (.here .invalidNumber [])
    | _ :: _ => do
      let (_, s) ← readIntegerDigits s
      .ok s
  match s with
  | '.' :: t =>
    if (t.takeWhile isDigit).isEmpty then .error (.next .invalidNumber t)
    else skipScale (t.dropWhile isDigit)
  | s => skipScale s

/-! ## Brackets -/

/-- A bracket that is open. -/
inductive Frame where
  | list
  | object
  deriving DecidableEq

def Frame.closer : Frame → Char
  | .list => ']'
  | .object => '}'

def Frame.eof : Frame → Cause
  | .list => .eofInList
  | .object => .eofInObject

def Frame.commaOrEnd : Frame → Cause
  | .list => .expectedListCommaOrEnd
  | .object => .expectedObjectCommaOrEnd

/-- The text behind a colon. -/
def readColon (s : List Char) : Except Fault (List Char) :=
  match skipBlanks s with
  | [] => .error (.here .eofInObject [])
  | c :: s => if c = ':' then .ok s else .error (.next .expectedColon (c :: s))

/-- The text in front of the next element: an element of an object is entered behind its
name and colon. -/
def skipToElement (frame : Frame) (s : List Char) : Except Fault (List Char) :=
  match frame with
  | .list => .ok s
  | .object =>
    match skipBlanks s with
    | [] => .error (.here .eofInObject [])
    | c :: s =>
      if c = '"' then do
        let s ← skipChars 0 s
        readColon s
      else .error (.next .keyMustBeString (c :: s))

/-- Where passing over goes on: nowhere, or at the next element of the open brackets. -/
abbrev Onward := Option (List Frame) × List Char

/-- What follows a value inside the open brackets. -/
def afterValue : List Frame → List Char → Except Fault Onward
  | [], s => .ok (none, s)
  | frame :: frames, s =>
    match skipBlanks s with
    | [] => .error (.here frame.eof [])
    | c :: t =>
      if c = ',' then do
        let t ← skipToElement frame t
        .ok (some (frame :: frames), t)
      else if c = frame.closer then afterValue frames t
      else .error (.next frame.commaOrEnd (c :: t))

/-- What follows an opening bracket. -/
def afterOpening (frame : Frame) (frames : List Frame) (s : List Char) : Except Fault Onward :=
  match skipBlanks s with
  | [] => .error (.here frame.eof [])
  | c :: t =>
    if c = frame.closer then afterValue frames t
    else do
      let t ← skipToElement frame (c :: t)
      .ok (some (frame :: frames), t)

/-- Passes over a scalar value or an opening bracket. -/
def skipStep (frames : List Frame) (s : List Char) : Except Fault Onward :=
  match skipBlanks s with
  | [] => .error (.here .eofInValue [])
  | c :: t =>
    if c = '[' then afterOpening .list frames t
    else if c = '{' then afterOpening .object frames t
    else do
      let t ←
        if c = 'n' then readLetters ['u', 'l', 'l'] t
        else if c = 't' then readLetters ['r', 'u', 'e'] t
        else if c = 'f' then readLetters ['a', 'l', 's', 'e'] t
        else if c = '"' then skipChars 0 t
        else if c = '-' then skipNumber t
        else if isDigit c then skipNumber (c :: t)
        else .error (.next .expectedValue (c :: t))
      afterValue frames t

/-- Passes over elements until all brackets are closed. Every step takes a character, so
the length of the text bounds their number. -/
def skipLoop : (steps : Nat) → List Frame → List Char → Except Fault (List Char)
  | 0, _, s => .error (.here .eofInValue s)
  | n + 1, frames, s => do
    match ← skipStep frames s with
    | (none, s) => .ok s
    | (some frames, s) => skipLoop n frames s

/-- The text behind a value. -/
def skipValue (s : List Char) : Except Fault (List Char) :=
  skipLoop (s.length + 1) [] s

end DbInventory.Json
