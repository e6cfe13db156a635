/-
# DbInventory.Unicode.Width -- how many columns a text takes

On a screen of equal columns a character takes none, one or two. What a character takes may
hang on its neighbours: a skin tone and a joined pictograph are drawn into the pictograph in
front of them, a selector behind a pictograph makes it wide or narrow, and the letters lam and
alef are drawn as one. `widthAfter` reads a text from left to right and keeps what it needs of
the characters in front (`Before`); a blank forgets them, so blanks cut a text into parts whose
widths add up (`textWidth_blank`).

Lam and alef are the only ligature here. Those of other scripts (Hebrew, Khmer, Lisu, Tifinagh,
Buginese, Old Turkic) are left out: their characters take the columns that each takes alone.
-/

import DbInventory.Unicode.Emoji
import DbInventory.Unicode.Extending
import DbInventory.Unicode.Wide

namespace DbInventory.Unicode

/-! ## Single characters -/

/-- Vowels and finals of decomposed Hangul syllables, which are drawn into the initial. -/
def isHangulPart (c : Char) : Bool :=
  inRanges [(0x1160, 0x11FF), (0xD7B0, 0xD7C6), (0xD7CB, 0xD7FB)] c.toNat

/-- Marks that are drawn into the letters in front of or behind them. -/
def isEnclosingMark (c : Char) : Bool :=
  inRanges [(0x605, 0x605), (0x70F, 0x70F), (0x890, 0x891), (0x8E2, 0x8E2), (0xA8FA, 0xA8FA)]
    c.toNat

/-- The columns of a character that stands alone. -/
def charWidth (c : Char) : Nat :=
  if c = '\u115F' ∨ c = '\u17A4' then 2
  else if c = '\u17D8' then 3
  else if c = '\u2D7F' then 1
  else if isExtending c || isIgnorable c || isHangulPart c || isEnclosingMark c then 0
  else if isWide c then 2
  else 1

/-! ## Neighbours -/

/-- The selectors that follow a pictograph to show it as text or as a picture. -/
def textSelector : Char := '\uFE0E'

def pictureSelector : Char := '\uFE0F'

/-- Joins the pictographs on its two sides. -/
def joiner : Char := '\u200D'

def isSkinTone (c : Char) : Bool := inRanges [(0x1F3FB, 0x1F3FF)] c.toNat

/-- The letters of the group of lam. -/
def isLam (c : Char) : Bool :=
  inRanges [(0x644, 0x644), (0x6B5, 0x6B8), (0x76A, 0x76A), (0x8A6, 0x8A6), (0x8C7, 0x8C7)]
    c.toNat

/-- The letters of the group of alef. -/
def isAlef (c : Char) : Bool :=
  inRanges [(0x622, 0x623), (0x625, 0x625), (0x627, 0x627), (0x671, 0x673), (0x675, 0x675),
    (0x773, 0x774)] c.toNat

/-- What the characters in front come to. -/
inductive Before where
  | other
  | picture (takesTone : Bool)
  | joined
  | lam
  deriving DecidableEq

/-- The character is shown as a picture, given the text behind it. -/
def isPicture (c : Char) (rest : List Char) : Bool :=
  isEmoji c &&
    match rest.head? with
    | none => isWide c
    | some d =>
      d = pictureSelector || (isModifierBase c && isSkinTone d) || (isWide c && d ≠ textSelector)

/-- The columns of a character between its neighbours. -/
def widthBetween (before : Before) (c : Char) (rest : List Char) : Nat :=
  match before with
  | .picture true => if isSkinTone c then 0 else alone
  | .joined => if isPicture c rest then 0 else alone
  | .lam => if isAlef c then 0 else alone
  | _ => alone
where
  alone : Nat :=
    if isPicture c rest then 2
    else if isEmoji c && isWide c && !inRanges [(0x1F200, 0x1F2FF)] c.toNat then 1
    else charWidth c

/-- What a character leaves in front of the next one. -/
def Before.next (before : Before) (c : Char) (rest : List Char) : Before :=
  if c = joiner then
    match before with
    | .picture _ => .joined
    | .joined => .joined
    | .lam => .lam
    | .other => .other
  else if isLam c then .lam
  else if isSkinTone c then .picture false
  else if isPicture c rest then .picture (isModifierBase c)
  else if charWidth c = 0 then before
  else .other

/-! ## Texts -/

/-- The columns of a text behind others. -/
def widthAfter : Before → List Char → Nat
  | _, [] => 0
  | before, c :: rest => widthBetween before c rest + widthAfter (before.next c rest) rest

/-- The columns of a text. -/
def textWidth (s : List Char) : Nat := widthAfter .other s

theorem charWidth_blank : charWidth ' ' = 1 := by decide +kernel

theorem isPicture_blank (rest : List Char) : isPicture ' ' rest = false := by
  have h : isEmoji ' ' = false := by decide +kernel
  simp [isPicture, h]

theorem widthBetween_blank (before : Before) (rest : List Char) :
    widthBetween before ' ' rest = 1 := by
  have hemoji : isEmoji ' ' = false := by decide +kernel
  have htone : isSkinTone ' ' = false := by decide +kernel
  have halef : isAlef ' ' = false := by decide +kernel
  have halone : widthBetween.alone ' ' rest = 1 := by
    simp [widthBetween.alone, isPicture_blank, hemoji, charWidth_blank]
  cases before with
  | other => simp [widthBetween, halone]
  | picture takesTone => cases takesTone <;> simp [widthBetween, halone, htone]
  | joined => simp [widthBetween, halone, isPicture_blank]
  | lam => simp [widthBetween, halone, halef]

theorem next_blank (before : Before) (rest : List Char) : before.next ' ' rest = .other := by
  have hlam : isLam ' ' = false := by decide +kernel
  have htone : isSkinTone ' ' = false := by decide +kernel
  simp [Before.next, isPicture_blank, hlam, htone, charWidth_blank, joiner]

/-- A blank behind a character is no different from the end of the text. -/
theorem isPicture_append_blank (c : Char) (rest t : List Char) :
    isPicture c (rest ++ ' ' :: t) = isPicture c rest := by
  have htone : isSkinTone ' ' = false := by decide +kernel
  cases rest with
  | nil => simp [isPicture, htone, pictureSelector, textSelector]
  | cons d rest => simp [isPicture]

theorem widthAfter_append_blank (before : Before) (s t : List Char) :
    widthAfter before (s ++ ' ' :: t) = widthAfter before s + 1 + textWidth t := by
  induction s generalizing before with
  | nil => simp [widthAfter, widthBetween_blank, next_blank, textWidth]
  | cons c rest ih =>
    have hwidth : widthBetween before c (rest ++ ' ' :: t) = widthBetween before c rest := by
      cases before with
      | other => simp [widthBetween, widthBetween.alone, isPicture_append_blank]
      | picture takesTone =>
        cases takesTone <;> simp [widthBetween, widthBetween.alone, isPicture_append_blank]
      | joined => simp [widthBetween, widthBetween.alone, isPicture_append_blank]
      | lam => simp [widthBetween, widthBetween.alone, isPicture_append_blank]
    have hnext : before.next c (rest ++ ' ' :: t) = before.next c rest := by
      simp [Before.next, isPicture_append_blank]
    rw [List.cons_append, widthAfter, widthAfter, hwidth, hnext, ih]
    omega

/-- Blanks cut a text into parts whose widths add up. -/
theorem textWidth_blank (s t : List Char) :
    textWidth (s ++ ' ' :: t) = textWidth s + 1 + textWidth t :=
  widthAfter_append_blank .other s t

/-- Blanks take one column each. -/
theorem textWidth_replicate_blank (n : Nat) : textWidth (List.replicate n ' ') = n := by
  induction n with
  | zero => rfl
  | succ n ih =>
    have := textWidth_blank [] (List.replicate n ' ')
    rw [ih] at this
    simpa [List.replicate_succ, textWidth, widthAfter, Nat.add_comm] using this

end DbInventory.Unicode
