/-!
# Binary64 words

A floating-point number is kept as its 64 bits, so that equality of numbers is equality
of words: two zeros of different sign differ, and a NaN equals itself.

The word without its sign counts the representable magnitudes from zero on. A finite
magnitude `word` stands for `significand word * 2 ^ shift word` units, where a unit is
the least positive number, `2 ^ -1074`.
-/
namespace CanonicalSql

/-- An IEEE 754 binary64 number, given by its bits. -/
structure Binary64 where
  bits : UInt64
deriving DecidableEq, Repr, Inhabited

namespace Binary64

/-- `2 ^ 52`, the part of a significand that a word does not spell out. -/
def hiddenBit : Nat := 0x10000000000000

/-- `2 ^ 63`, the bit that holds the sign. -/
def signBit : Nat := 0x8000000000000000

/-- The magnitude word of infinity. Finite magnitudes lie below it, NaNs above. -/
def infinityWord : Nat := 2047 * hiddenBit

/-- The bits without the sign. -/
def magnitude (x : Binary64) : Nat := x.bits.toNat % signBit

/-- Whether the sign bit is set. -/
def isNegative (x : Binary64) : Bool := signBit ≤ x.bits.toNat

/-- Whether the word stands for a number, neither infinite nor a NaN. -/
def isFinite (x : Binary64) : Bool := x.magnitude < infinityWord

/-- Whether the word is a NaN. -/
def isNaN (x : Binary64) : Bool := infinityWord < x.magnitude

/-- The number with the given sign and magnitude word. -/
def ofMagnitude (negative : Bool) (word : Nat) : Binary64 :=
  ⟨UInt64.ofNat (if negative then signBit + word else word)⟩

/-- The power of two by which the significand of a magnitude word is scaled. -/
def shift (word : Nat) : Nat := word / hiddenBit - 1

/-- The integer that a magnitude word holds, before scaling. -/
def significand (word : Nat) : Nat := word - shift word * hiddenBit

/-- The magnitude in units of the least positive number. -/
def units (word : Nat) : Nat := significand word <<< shift word

end Binary64

end CanonicalSql
