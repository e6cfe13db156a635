/-
# DbInventory.Text.Quoted -- texts quoted for a reader of messages

Messages show a text between double quotes, with every character that could not be seen
there written as an escape: quotes and backslashes, the usual controls by their letter, and
characters that have no visible form or attach to their neighbour by their code point.
-/

import DbInventory.Text.Hex
import DbInventory.Unicode.Unprintable
import DbInventory.Unicode.Extending

namespace DbInventory.Text

/-- The code point in braces, `\u` first, without leading zeros. -/
def codeEscape (c : Char) : List Char :=
  ['\\', 'u', '\x7b'] ++ Nat.toDigits 16 c.toNat ++ ['\x7d']

/-- One character inside quotes. -/
def quotedChar (c : Char) : List Char :=
  if c = '\x00' then ['\\', '0']
  else if c = '\t' then ['\\', 't']
  else if c = '\r' then ['\\', 'r']
  else if c = '\n' then ['\\', 'n']
  else if c = '"' ∨ c = '\\' then ['\\', c]
  else if ' ' ≤ c ∧ c ≤ '~' then [c]
  else if Unicode.isExtending c || Unicode.isUnprintable c then codeEscape c
  else [c]

/-- A text between double quotes. -/
def quoted (s : String) : String :=
  String.ofList ('"' :: s.toList.flatMap quotedChar ++ ['"'])

end DbInventory.Text
