import CanonicalSql.Binary64.Decimal

/-!
# Shortest digits

The digits that a number is printed with: the fewest that read back as the same number,
and of those the ones nearest to it. For one digit, two digits and so on the two
neighbours of the number on the decimal grid are read back, and the first grid with a hit
wins. Should no grid up to 17 digits have one, the exact expansion stands in, so that what
is printed always reads back.
-/
namespace CanonicalSql.Binary64

/-- A decimal numeral: `digits * 10 ^ exponent`. -/
structure Decimal where
  digits : Nat
  exponent : Int
deriving DecidableEq, Repr, Inhabited

/-- Where a number halfway between two candidates goes. -/
inductive Tie
  | up
  | toEven
deriving DecidableEq, Repr

/-- The decimal places of the least positive number, `2 ^ -1074`. -/
def unitPlaces : Nat := 1074

/-- The exact decimal expansion of a magnitude word. -/
def exactDecimal (word : Nat) : Decimal :=
  ⟨units word * Nat.pow 5 unitPlaces, -unitPlaces⟩

/-- How the magnitude compares with `digits * 10 ^ exponent / 2`. -/
def compareHalf (word : Nat) (digits : Nat) (exponent : Int) : Ordering :=
  compare (2 * units word * Nat.pow 10 (-exponent).toNat)
    ((digits * Nat.pow 10 exponent.toNat) <<< 1074)

/-- Whether the lower of the two neighbours `low` and `low + 1` is to be preferred. -/
def prefersLower (tie : Tie) (word low : Nat) (exponent : Int) : Bool :=
  match compareHalf word (2 * low + 1) exponent with
  | .lt => true
  | .gt => false
  | .eq => match tie with
    | .up => false
    | .toEven => low % 2 == 0

/-- The neighbour of the magnitude on the grid of multiples of `10 ^ exponent` that reads
back, if there is one; `low` is the lower neighbour. -/
def readsBack? (tie : Tie) (word low : Nat) (exponent : Int) : Option Decimal :=
  let lowHit := nearestDecimal low exponent == word
  let highHit := nearestDecimal (low + 1) exponent == word
  if lowHit && (!highHit || prefersLower tie word low exponent) then some ⟨low, exponent⟩
  else if highHit then some ⟨low + 1, exponent⟩
  else none

/-- The power of ten of the leading digit of a positive magnitude. The magnitude is
enlarged by `10 ^ 400` first, so that its digits can be counted. -/
def decimalOrder (word : Nat) : Int :=
  (Nat.toDigits 10 ((units word * Nat.pow 10 400) >>> 1074)).length - 401

/-- The multiples of `10 ^ exponent` in a magnitude, rounded down. -/
def multiples (word : Nat) (exponent : Int) : Nat :=
  units word * Nat.pow 10 (-exponent).toNat / (Nat.pow 10 exponent.toNat <<< 1074)

/-- The hit on the grid of `count` digits, if there is one. -/
def gridHit? (tie : Tie) (word count : Nat) : Option Decimal :=
  let exponent := decimalOrder word - count + 1
  readsBack? tie word (multiples word exponent) exponent

/-- The fewest digits that read back as the magnitude word: the first hit on the grids of 1
to 17 digits. -/
def shortest (tie : Tie) (word : Nat) : Decimal :=
  if word = 0 then ⟨0, 0⟩
  else ((List.range' 1 17).findSome? (gridHit? tie word)).getD (exactDecimal word)

/-- The hit on a grid reads back as the word it was looked for. -/
theorem nearestDecimal_of_readsBack? {tie : Tie} {word low : Nat} {exponent : Int}
    {found : Decimal} (hit : readsBack? tie word low exponent = some found) :
    nearestDecimal found.digits found.exponent = word := by
  simp only [readsBack?] at hit
  split at hit
  · next lower =>
    simp only [Option.some.injEq] at hit
    subst hit
    simp only [Bool.and_eq_true, beq_iff_eq] at lower
    exact lower.1
  · split at hit
    · next upper =>
      simp only [Option.some.injEq] at hit
      subst hit
      exact beq_iff_eq.mp upper
    · simp at hit

end CanonicalSql.Binary64
