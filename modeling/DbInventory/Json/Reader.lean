/-
# DbInventory.Json.Reader -- reading JSON text

`readTree` reads one value off a text. Its first argument says how many brackets may still
be opened, so nesting is bounded by the limit that the format has anyway (`maxDepth`), and
the reader is defined by recursion on it. Lists and objects are read by loops that take the
reader of their elements as an argument (`readItems`, `readMembers`); records are read by the
same loops. A loop takes at least one character a round, so the length of the text bounds its
rounds.
-/

import DbInventory.Json.Skip

namespace DbInventory.Json

/-! ## Lists -/

/-- The elements from behind the first one to behind the closing bracket. -/
def readItemsTail (element : Reader α) : (rounds : Nat) → Reader (List α)
  | 0, s => .error (.here .eofInList s)
  | n + 1, s =>
    match skipBlanks s with
    | [] => .error (.here .eofInList [])
    | c :: t =>
      if c = ']' then .ok ([], t)
      else if c = ',' then
        match skipBlanks t with
        | [] => .error (.here .eofInValue [])
        | d :: t =>
          if d = ']' then .error (.next .trailingComma (d :: t))
          else do
            let (x, s) ← element (d :: t)
            let (xs, s) ← readItemsTail element n s
            .ok (x :: xs, s)
      else .error (.next .expectedListCommaOrEnd (c :: t))

/-- The elements from behind the opening bracket to behind the closing one. -/
def readItems (element : Reader α) : Reader (List α) := fun s =>
  match skipBlanks s with
  | [] => .error (.here .eofInList [])
  | c :: t =>
    if c = ']' then .ok ([], t)
    else do
      let (x, s) ← element (c :: t)
      let (xs, s) ← readItemsTail element s.length s
      .ok (x :: xs, s)

/-! ## Objects -/

/-- What a record does with a member: pass over its value, refuse the name, or read the
value into its state. -/
inductive Slot (σ : Type) where
  | ignore
  | refuse (cause : Cause)
  | take (value : Reader σ)

/-- The text behind the closing brace of an object whose members have been read. -/
def closeObject (s : List Char) : Except Fault (List Char) :=
  match skipBlanks s with
  | [] => .error (.here .eofInObject [])
  | c :: t =>
    if c = '}' then .ok t
    else if c = ',' then .error (.next .trailingComma (c :: t))
    else .error (.next .trailingCharacters (c :: t))

/-- The place of a refusal: behind the closing brace if it is next, and otherwise in front
of what is next. -/
def refusalRest (s : List Char) : List Char :=
  match skipBlanks s with
  | [] => []
  | c :: t => if c = '}' then t else c :: t

/-- The text in front of the quote of the next name, or in front of the closing brace. -/
def toName (first : Bool) (s : List Char) : Except Fault (List Char) :=
  match skipBlanks s with
  | [] => .error (.here .eofInObject [])
  | c :: t =>
    if c = '}' ∨ first then .ok (c :: t)
    else if c = ',' then
      match skipBlanks t with
      | [] => .error (.here .eofInValue [])
      | d :: t =>
        if d = '}' then .error (.next .trailingComma (d :: t)) else .ok (d :: t)
    else .error (.next .expectedObjectCommaOrEnd (c :: t))

/-- The members up to the closing brace, which is left. -/
def readMembers (slot : σ → String → Slot σ) : (rounds : Nat) → (first : Bool) → σ → Reader σ
  | 0, _, _, s => .error (.here .eofInObject s)
  | n + 1, first, st, s => do
    match ← toName first s with
    | [] => .error (.here .eofInObject [])
    | c :: t =>
      if c = '}' then .ok (st, c :: t)
      else if c = '"' then do
        let (name, t) ← readString t
        match slot st name with
        | .refuse cause => .error (.here cause (refusalRest t))
        | .ignore => do
          let t ← readColon t
          let t ← skipValue t
          readMembers slot n false st t
        | .take value => do
          let t ← readColon t
          let (st, t) ← value t
          readMembers slot n false st t
      else .error (.next .keyMustBeString (c :: t))

/-! ## Trees -/

/-- How many brackets may be open at once. -/
def maxDepth : Nat := 127

/-- The members of a tree are collected in reverse order. -/
def collectMember (value : Reader Json) (members : List (String × Json)) (name : String) :
    Slot (List (String × Json)) :=
  .take fun s => do
    let (v, s) ← value s
    .ok ((name, v) :: members, s)

/-- An object from behind its opening brace. -/
def readObject (value : Reader Json) : Reader Json := fun s => do
  let (members, s) ← readMembers (collectMember value) (s.length + 1) true [] s
  let s ← closeObject s
  .ok (.object members.reverse, s)

/-- A value whose elements are read by `inner`, if another bracket may be opened. -/
def readValueWith (inner : Option (Reader Json)) : Reader Json := fun s =>
  match skipBlanks s with
  | [] => .error (.here .eofInValue [])
  | c :: t =>
    if c = 'n' then do
      let s ← readLetters ['u', 'l', 'l'] t
      .ok (.null, s)
    else if c = 't' then do
      let s ← readLetters ['r', 'u', 'e'] t
      .ok (.bool true, s)
    else if c = 'f' then do
      let s ← readLetters ['a', 'l', 's', 'e'] t
      .ok (.bool false, s)
    else if c = '"' then do
      let (x, s) ← readString t
      .ok (.string x, s)
    else if c = '-' then do
      let (n, s) ← readNumber true t
      .ok (.number n, s)
    else if isDigit c then do
      let (n, s) ← readNumber false (c :: t)
      .ok (.number n, s)
    else if c = '[' then
      match inner with
      | none => .error (.next .recursionLimit (c :: t))
      | some element => do
        let (items, s) ← readItems element t
        .ok (.array items, s)
    else if c = '{' then
      match inner with
      | none => .error (.next .recursionLimit (c :: t))
      | some element => readObject element t
    else .error (.next .expectedValue (c :: t))

/-- A tree in which at most the given number of brackets are open at once. -/
def readTree : (depth : Nat) → Reader Json
  | 0 => readValueWith none
  | depth + 1 => readValueWith (some (readTree depth))

/-! ## Whole texts -/

/-- Nothing but blanks is left. -/
def atEnd (s : List Char) : Except Fault Unit :=
  match skipBlanks s with
  | [] => .ok ()
  | c :: t => .error (.next .trailingCharacters (c :: t))

/-- Reads a whole text. -/
def readAll (reader : Reader α) (source : String) : Except Fault α := do
  let (x, s) ← reader source.toList
  atEnd s
  .ok x

/-- The value of a text in which at most the given number of brackets are open at once. -/
def readWithin (depth : Nat) (source : String) : Except Fault Json :=
  (readAll (readTree depth) source).map normal

/-- The value of a text. -/
def read (source : String) : Except Fault Json := readWithin maxDepth source

end DbInventory.Json
