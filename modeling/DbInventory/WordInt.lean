/-
# DbInventory.WordInt -- whole numbers that fit a 64-bit word

A `WordInt` fits a signed or an unsigned word of 64 bits; which of the two is asked when it is
read as a word. Every word gives a `WordInt`, and reading that as the same kind of word gives
the word back.
-/

namespace DbInventory

/-- The least signed word, `-2 ^ 63`. -/
abbrev minSigned : Int := -9223372036854775808

/-- The first number above the signed words, `2 ^ 63`. -/
abbrev signedLimit : Int := 9223372036854775808

/-- The first number above the unsigned words, `2 ^ 64`. -/
abbrev unsignedLimit : Int := 18446744073709551616

/-- A whole number that fits a 64-bit word, signed or unsigned. -/
structure WordInt where
  val : Int
  lower : minSigned ≤ val
  upper : val < unsignedLimit
  deriving DecidableEq

namespace WordInt

def ofInt? (n : Int) : Option WordInt :=
  if h : minSigned ≤ n ∧ n < unsignedLimit then some ⟨n, h.1, h.2⟩ else none

def ofInt64 (n : Int64) : WordInt :=
  ⟨n.toInt, Int64.le_toInt n, Int.lt_trans (Int64.toInt_lt n) (by decide)⟩

def ofUInt64 (n : UInt64) : WordInt :=
  ⟨n.toNat, Int.le_trans (by decide) (Int.natCast_nonneg _), Int.ofNat_lt.2 n.toNat_lt⟩

/-- The signed word of the number, if it fits one. -/
def toInt64? (n : WordInt) : Option Int64 :=
  if n.val < signedLimit then some (Int64.ofInt n.val) else none

/-- The unsigned word of the number, if it fits one. -/
def toUInt64? (n : WordInt) : Option UInt64 :=
  if 0 ≤ n.val then some (UInt64.ofNat n.val.toNat) else none

instance : Inhabited WordInt := ⟨⟨0, by decide, by decide⟩⟩

@[simp]
theorem ofInt?_val (n : WordInt) : ofInt? n.val = some n :=
  dif_pos ⟨n.lower, n.upper⟩

theorem toInt64?_ofInt64 (n : Int64) : (ofInt64 n).toInt64? = some n := by
  have h : n.toInt < signedLimit := Int64.toInt_lt n
  rw [toInt64?, ofInt64, if_pos h, Int64.ofInt_toInt]

theorem toUInt64?_ofUInt64 (n : UInt64) : (ofUInt64 n).toUInt64? = some n := by
  simp [toUInt64?, ofUInt64]

end WordInt

end DbInventory
