/-
# DbInventory.Url.DomainName -- names of web addresses

A name is a list of labels between full stops. Capitals become small letters, wide forms
common ones, and a label that is not in ASCII is written in Punycode behind `xn--`. A label that
is in that form already has to be the form of what it stands for.

Not all that may become of a character is here. The letters with a fixed distance between
capital and small letter are those of Latin, Greek and Cyrillic; all other characters stand for
themselves, also ligatures and the accented capitals of Greek, and a letter is not composed with
the marks behind it.
-/

import DbInventory.Text.Parts
import DbInventory.Unicode.Extending
import DbInventory.Unicode.Unprintable
import DbInventory.Url.Punycode

namespace DbInventory.DomainName

/-! ## Characters -/

/-- The capitals of extended Latin whose small letters follow them: the even codes of some
ranges, and the odd codes of others. -/
def isExtendedCapital (n : Nat) : Bool :=
  (n % 2 == 0 && Unicode.inRanges [(0x100, 0x12F), (0x132, 0x137), (0x14A, 0x177),
    (0x1E00, 0x1E95), (0x1EA0, 0x1EFF)] n) ||
  (n % 2 == 1 && Unicode.inRanges [(0x139, 0x148), (0x179, 0x17E)] n)

/-- What a character is written as: capitals as small letters, wide forms as common ones, and
marks that a name does without as nothing. -/
def mapped (c : Char) : List Char :=
  let n := c.toNat
  if 0x41 ≤ n ∧ n ≤ 0x5A then [Char.ofNat (n + 32)]
  else if n < 0x80 then [c]
  else if n = 0xA0 ∨ n = 0x3000 then [' ']
  else if n = 0xAD ∨ n = 0x34F ∨ n = 0x200B ∨ n = 0x2060 ∨ n = 0xFEFF then []
  else if 0xFE00 ≤ n ∧ n ≤ 0xFE0F then []
  else if 0xC0 ≤ n ∧ n ≤ 0xDE ∧ n ≠ 0xD7 then [Char.ofNat (n + 32)]
  else if n = 0x130 then ['i', '\u0307']
  else if n = 0x178 then ['ÿ']
  else if n = 0x17F then ['s']
  else if n = 0x1E9E then ['ß']
  else if n = 0x212A then ['k']
  else if n = 0x212B then ['å']
  else if isExtendedCapital n then [Char.ofNat (n + 1)]
  else if 0x391 ≤ n ∧ n ≤ 0x3A9 then [Char.ofNat (n + 32)]
  else if 0x410 ≤ n ∧ n ≤ 0x42F then [Char.ofNat (n + 32)]
  else if 0x400 ≤ n ∧ n ≤ 0x40F then [Char.ofNat (n + 80)]
  else if 0xFF21 ≤ n ∧ n ≤ 0xFF3A then [Char.ofNat (n - 0xFEC0)]
  else if 0xFF01 ≤ n ∧ n ≤ 0xFF5E then [Char.ofNat (n - 0xFEE0)]
  else if n = 0x3002 ∨ n = 0xFF61 then ['.']
  else [c]

/-- The characters that no name has. -/
def isForbidden (c : Char) : Bool :=
  c ≤ ' ' || c == '\x7f' ||
    ['%', '#', '/', ':', '<', '>', '?', '@', '[', '\\', ']', '^', '|'].contains c

/-- The marks that silence the vowel of a consonant. -/
def isVirama (c : Char) : Bool :=
  [0x94D, 0x9CD, 0xA4D, 0xACD, 0xB4D, 0xBCD, 0xC4D, 0xCCD, 0xD4D, 0xDCA, 0xE3A, 0xF84, 0x1039,
    0x17D2].contains c.toNat

def isJoiner (c : Char) : Bool := c == '\u200c' || c == '\u200d'

/-! ## Labels -/

/-- Joiners stand behind viramas only. -/
def joinersFit : (before : Char) → List Char → Bool
  | _, [] => true
  | before, c :: s => (!(isJoiner c) || isVirama before) && joinersFit c s

/-- A label does not start with a mark, its joiners fit, and all other characters can be
shown. -/
def isLabel (s : List Char) : Bool :=
  (match s with
    | [] => true
    | c :: _ => !(Unicode.isExtending c)) && joinersFit ' ' s &&
  s.all fun c => isJoiner c || !(Unicode.isUnprintable c)

/-- What stands in front of a label in Punycode. -/
def punycodeMark : List Char := ['x', 'n', '-', '-']

/-- A label in Punycode says something that needs it, and says it in the one form. -/
def isPunycode (digits : List Char) : Bool :=
  match Punycode.decode digits with
  | none => false
  | some s =>
    !(s.all Punycode.isBasic) && isLabel s && s.flatMap mapped == s && Punycode.encode s == digits

/-- The ASCII form of a label whose characters are mapped. -/
def asciiLabel? (s : List Char) : Option (List Char) :=
  if s.all Punycode.isBasic then
    if punycodeMark.isPrefixOf s && !(isPunycode (s.drop punycodeMark.length)) then none
    else some s
  else if isLabel s then some (punycodeMark ++ Punycode.encode s)
  else none

/-- The ASCII form of a name. -/
def ascii? (s : List Char) : Option (List Char) :=
  let mappedName := s.flatMap mapped
  if mappedName.any isForbidden then none
  else ((Text.parts '.' mappedName).mapM asciiLabel?).map (Text.joinParts '.')

end DbInventory.DomainName
