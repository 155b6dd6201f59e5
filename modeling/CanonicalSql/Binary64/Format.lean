import CanonicalSql.Binary64.Shortest

/-!
# Writing numbers

The layout of shortest digits as text. A format says which orders of magnitude are
written out with a decimal point, whether a whole number keeps a fraction of zero, whether
an exponent shows a plus sign, and where ties between digits go; the rest of the orders
are written with an exponent.
-/
namespace CanonicalSql.Binary64

/-- What a format decides about the text of a number. -/
structure Format where
  /-- Whether a number whose leading digit has this power of ten is written without an
  exponent. -/
  positional : Int → Bool
  /-- What follows a whole number that is written without an exponent. -/
  wholeEnding : String
  /-- What stands in front of an exponent that is not negative. -/
  exponentSign : String
  tie : Tie

/-- In SQL the orders from -4 to 15 are written out, and a number without a fraction is
given one, so that it stays distinct from an integer. -/
def sqlFormat : Format where
  positional order := -4 ≤ order && order ≤ 15
  wholeEnding := ".0"
  exponentSign := ""
  tie := .up

/-- Messages never use an exponent. -/
def plainFormat : Format where
  positional _ := true
  wholeEnding := ""
  exponentSign := ""
  tie := .up

/-- In records the orders from -5 to 15 are written out, and every exponent has its sign. -/
def recordFormat : Format where
  positional order := -5 ≤ order && order ≤ 15
  wholeEnding := ".0"
  exponentSign := "+"
  tie := .toEven

/-- `count` zeros. -/
def zeros (count : Nat) : String := String.ofList (List.replicate count '0')

/-- Digits without the zeros at their end. -/
def significantDigits (digits : List Char) : List Char :=
  (digits.reverse.dropWhile (· == '0')).reverse

/-- Digits with a decimal point after the first `point` of them. -/
def Format.positionalText (format : Format) (digits : List Char) (point : Int) : String :=
  let whole := point.toNat
  if point ≤ 0 then "0." ++ zeros (-point).toNat ++ String.ofList digits
  else if whole < digits.length then
    String.ofList (digits.take whole) ++ "." ++ String.ofList (digits.drop whole)
  else String.ofList digits ++ zeros (whole - digits.length) ++ format.wholeEnding

/-- Digits with the point after the first of them, and the power of ten. -/
def Format.exponentText (format : Format) (digits : List Char) (order : Int) : String :=
  let fraction := digits.drop 1
  String.ofList (digits.take 1) ++
    (if fraction.isEmpty then "" else "." ++ String.ofList fraction) ++
    "e" ++ (if 0 ≤ order then format.exponentSign else "") ++ toString order

/-- The text of a finite magnitude. -/
def Format.magnitudeText (format : Format) (word : Nat) : String :=
  let decimal := shortest format.tie word
  if decimal.digits = 0 then "0" ++ format.wholeEnding
  else
    let written := Nat.toDigits 10 decimal.digits
    let point : Int := written.length + decimal.exponent
    let digits := significantDigits written
    if format.positional (point - 1) then format.positionalText digits point
    else format.exponentText digits (point - 1)

/-- The text of a number. -/
def Format.text (format : Format) (x : Binary64) : String :=
  if x.isNaN then "NaN"
  else
    (if x.isNegative then "-" else "") ++
      (if x.isFinite then format.magnitudeText x.magnitude else "inf")

end CanonicalSql.Binary64
