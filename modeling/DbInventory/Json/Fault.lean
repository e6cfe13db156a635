/-
# DbInventory.Json.Fault -- what is wrong with a text, and where

A reader reports a fault by its cause and by the text that was left when it was found. The
place is `ahead` bytes into that rest, but never behind the end of the text. Only a message
needs a line and a column: lines are counted from 1, columns are the bytes of the line up to
the place, so that a fault at a character is reported at the column of its first byte and a
fault at the end of the text at the length of the last line.
-/

import DbInventory.Json.Printer
import DbInventory.Text.Quoted

namespace DbInventory.Json

/-! ## Causes -/

/-- What stands in a text where something else is wanted. -/
inductive Found where
  | null
  | bool (b : Bool)
  | integer (n : Int)
  | float (x : Binary64)
  | string (s : String)
  | sequence
  | map
  deriving DecidableEq

/-- Text between backquotes. -/
def backquoted (s : String) : String := "`" ++ s ++ "`"

def Found.text : Found → String
  | .null => "null"
  | .bool b => "boolean " ++ backquoted (if b then "true" else "false")
  | .integer n => "integer " ++ backquoted (String.ofList (intText n))
  | .float x => "floating point " ++ backquoted (x.text floatLayout)
  | .string s => "string " ++ Text.quoted s
  | .sequence => "sequence"
  | .map => "map"

/-- Why a text cannot be read. -/
inductive Cause where
  | eofInValue
  | eofInList
  | eofInObject
  | eofInString
  | expectedColon
  | expectedListCommaOrEnd
  | expectedObjectCommaOrEnd
  | expectedIdent
  | expectedValue
  | invalidEscape
  | invalidNumber
  | numberOutOfRange
  | unexpectedEndOfHexEscape
  | loneSurrogate
  | controlCharacter
  | keyMustBeString
  | trailingComma
  | trailingCharacters
  | recursionLimit
  | invalidType (found : Found) (expected : String)
  | invalidInteger (n : Int) (expected : String)
  | invalidLength (length : Nat) (expected : String)
  | missingField (name : String)
  | duplicateField (name : String)
  deriving DecidableEq

def Cause.message : Cause → String
  | .eofInValue => "EOF while parsing a value"
  | .eofInList => "EOF while parsing a list"
  | .eofInObject => "EOF while parsing an object"
  | .eofInString => "EOF while parsing a string"
  | .expectedColon => "expected " ++ backquoted ":"
  | .expectedListCommaOrEnd => "expected " ++ backquoted "," ++ " or " ++ backquoted "]"
  | .expectedObjectCommaOrEnd => "expected " ++ backquoted "," ++ " or " ++ backquoted "\x7d"
  | .expectedIdent => "expected ident"
  | .expectedValue => "expected value"
  | .invalidEscape => "invalid escape"
  | .invalidNumber => "invalid number"
  | .numberOutOfRange => "number out of range"
  | .unexpectedEndOfHexEscape => "unexpected end of hex escape"
  | .loneSurrogate => "lone leading surrogate in hex escape"
  | .controlCharacter => "control character (\\u0000-\\u001F) found while parsing a string"
  | .keyMustBeString => "key must be a string"
  | .trailingComma => "trailing comma"
  | .trailingCharacters => "trailing characters"
  | .recursionLimit => "recursion limit exceeded"
  | .invalidType found expected => "invalid type: " ++ found.text ++ ", expected " ++ expected
  | .invalidInteger n expected =>
    "invalid value: " ++ (Found.integer n).text ++ ", expected " ++ expected
  | .invalidLength n expected =>
    "invalid length " ++ toString n ++ ", expected " ++ expected
  | .missingField name => "missing field " ++ backquoted name
  | .duplicateField name => "duplicate field " ++ backquoted name

/-! ## Places -/

/-- A cause, and the place `ahead` bytes into the text that is left. -/
structure Fault where
  cause : Cause
  rest : List Char
  ahead : Nat
  deriving DecidableEq

namespace Fault

/-- A fault in front of what is left. -/
def here (cause : Cause) (rest : List Char) : Fault := ⟨cause, rest, 0⟩

/-- A fault at the next byte. -/
def next (cause : Cause) (rest : List Char) : Fault := ⟨cause, rest, 1⟩

end Fault

/-- The number of bytes of a text. -/
def byteLength (s : List Char) : Nat :=
  s.foldl (fun n c => n + c.utf8Size) 0

/-- The line and the column of a byte offset, from the line and the column reached so far. -/
def locate : List Char → (offset line column : Nat) → Nat × Nat
  | [], offset, line, column => (line, column + offset)
  | c :: rest, offset, line, column =>
    if offset < c.utf8Size then (line, column + offset)
    else if c = '\n' then locate rest (offset - 1) (line + 1) 0
    else locate rest (offset - c.utf8Size) line (column + c.utf8Size)

/-- The message of a fault that was found in a text. -/
def Fault.message (fault : Fault) (source : String) : String :=
  let left := byteLength fault.rest
  let offset := byteLength source.toList - left + min fault.ahead left
  let (line, column) := locate source.toList offset 1 0
  fault.cause.message ++ " at line " ++ toString line ++ " column " ++ toString column

end DbInventory.Json
