import CanonicalSql.Binary64.Basic

/-!
# Reading decimal numerals

A decimal numeral denotes an exact fraction, and the binary64 number it stands for is the
nearest one, a tie going to the even word. The rounding is done on natural numbers: the
fraction is measured in units of the least positive number, and the magnitude word is the
rounded significand plus `2 ^ 52` for each power of two it is scaled by.
-/
namespace CanonicalSql.Binary64

/-- The number that a row of decimal digits writes, most significant digit first. -/
def digitsValue (digits : List Char) : Nat :=
  digits.foldl (fun value d => 10 * value + (d.toNat - 48)) 0

/-- The integer nearest to `num / den`, a half going to the even neighbour. -/
def roundHalfEven (num den : Nat) : Nat :=
  let whole := num / den
  let rest := 2 * (num % den)
  if rest < den then whole
  else if den < rest then whole + 1
  else whole + whole % 2

/-- How far the significand of a magnitude of `count` whole units is scaled: not at all
below `2 ^ 53`, and beyond so far that 53 binary digits are left. -/
def scaleOf (count : Nat) : Nat :=
  if count < 2 * hiddenBit then 0 else count.log2 - 52

/-- The magnitude word nearest to `num / den` units. It is not less than `infinityWord`
if the fraction is out of range. -/
def nearestUnits (num den : Nat) : Nat :=
  let scale := scaleOf (num / den)
  -- a significand that is rounded up to 54 digits carries over into the next scale
  scale * hiddenBit + roundHalfEven num (den <<< scale)

/-- The magnitude word nearest to `digits * 10 ^ exponent`. Numerals beyond 10 ^ 310 and
below 10 ^ -330 are decided by their order alone, which keeps the powers small. -/
def nearestDecimal (digits : Nat) (exponent : Int) : Nat :=
  let order : Int := (Nat.toDigits 10 digits).length + exponent
  if digits = 0 ∨ order < -330 then 0
  else if 310 < order then infinityWord
  else if 0 ≤ exponent then nearestUnits ((digits * Nat.pow 10 exponent.toNat) <<< 1074) 1
  else nearestUnits (digits <<< 1074) (Nat.pow 10 (-exponent).toNat)

/-- The number nearest to `± digits * 10 ^ exponent`, infinite if out of range. -/
def ofDecimal (negative : Bool) (digits : Nat) (exponent : Int) : Binary64 :=
  ofMagnitude negative (min (nearestDecimal digits exponent) infinityWord)

/-- The exponent written after the letter `e`: digits with an optional sign. -/
def exponent? (text : List Char) : Option Int :=
  let unsigned (digits : List Char) : Option Nat :=
    if !digits.isEmpty && digits.all Char.isDigit then some (digitsValue digits) else none
  match text with
  | '+' :: digits => (unsigned digits).map Int.ofNat
  | '-' :: digits => (unsigned digits).map fun n => -Int.ofNat n
  | digits => (unsigned digits).map Int.ofNat

/-- The number written as an unsigned numeral: digits, a fraction and an exponent, where
the digits before or after the point may be left out but not both. -/
def ofNumeral? (negative : Bool) (text : List Char) : Option Binary64 :=
  let whole := text.takeWhile Char.isDigit
  let afterWhole := text.dropWhile Char.isDigit
  let (fraction, afterFraction) :=
    match afterWhole with
    | '.' :: rest => (rest.takeWhile Char.isDigit, rest.dropWhile Char.isDigit)
    | rest => ([], rest)
  let read (exponent : Int) : Binary64 :=
    ofDecimal negative (digitsValue (whole ++ fraction)) (exponent - fraction.length)
  if whole.isEmpty && fraction.isEmpty then none
  else match afterFraction with
    | [] => some (read 0)
    | c :: rest => if c = 'e' ∨ c = 'E' then (exponent? rest).map read else none

/-- The number that a text writes: a numeral, `inf`, `infinity` or `nan` in letters of
either case, after an optional sign. -/
def ofText? (text : String) : Option Binary64 :=
  let (negative, rest) :=
    match text.toList with
    | '-' :: rest => (true, rest)
    | '+' :: rest => (false, rest)
    | rest => (false, rest)
  let word := String.ofList (rest.map Char.toLower)
  if word = "inf" ∨ word = "infinity" then some (ofMagnitude negative infinityWord)
  else if word = "nan" then some (ofMagnitude negative (infinityWord + hiddenBit / 2))
  else ofNumeral? negative rest

end CanonicalSql.Binary64
