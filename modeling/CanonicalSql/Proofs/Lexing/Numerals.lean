import CanonicalSql.Proofs.Lexing.Shortest
import CanonicalSql.Proofs.Lexing.Splits

/-!
# Numerals read back

A numeral is a row of digits with a fraction, an exponent, both or neither. Before a
text that does not go on with it, such a text is scanned as a whole (`Scan.number_numeral`), and the
text that SQL writes for a number is scanned as the number (`Scan.number_sqlFormat`).
-/
namespace CanonicalSql

namespace Scan

/-! ## What ends a token -/

/-- Whether the character ends every token before it: it goes on with no word or numeral,
doubles no quote and makes no longer sign or comment. -/
def isStop (c : Char) : Bool :=
  !isWordRest c && c != '.' && c != '\'' && c != '"' && c != '=' && c != '>' && c != '|' &&
    c != '-' && c != '*'

/-- The text is empty or begins with a character that ends the token before it. -/
def Stopped (rest : List Char) : Prop := ∀ c ∈ rest.head?, isStop c = true

theorem takeWhile_append {p : Char → Bool} {first rest : List Char}
    (all : ∀ c ∈ first, p c = true) (stops : ∀ c ∈ rest.head?, p c = false) :
    (first ++ rest).takeWhile p = first := by
  rw [List.takeWhile_append_of_pos all]
  cases rest with
  | nil => simp
  | cons c rest => simp [stops c (by simp)]

theorem dropWhile_append {p : Char → Bool} {first rest : List Char}
    (all : ∀ c ∈ first, p c = true) (stops : ∀ c ∈ rest.head?, p c = false) :
    (first ++ rest).dropWhile p = rest := by
  rw [List.dropWhile_append_of_pos all]
  cases rest with
  | nil => rfl
  | cons c rest => simp [stops c (by simp)]

theorem isWordRest_of_isDigit {c : Char} (digit : c.isDigit = true) : isWordRest c = true := by
  simp only [Char.isDigit, Bool.and_eq_true, decide_eq_true_eq] at digit
  have lower : 48 ≤ c.toNat := digit.1
  have upper : c.toNat ≤ 57 := digit.2
  have numeric : Unicode.isNumeric c = true := by
    unfold Unicode.isNumeric Unicode.numericRanges
    rw [Unicode.Ranges.has, if_neg (by omega), if_pos upper]
  simp [isWordRest, numeric]

section

variable {c : Char}

theorem noWord_of_isStop (stop : isStop c = true) : isWordRest c = false := by
  simp only [isStop, Bool.and_eq_true, Bool.not_eq_true'] at stop
  exact stop.1.1.1.1.1.1.1.1

theorem noDigit_of_isStop (stop : isStop c = true) : c.isDigit = false := by
  cases digit : c.isDigit with
  | false => rfl
  | true =>
    have goesOn := isWordRest_of_isDigit digit
    rw [noWord_of_isStop stop] at goesOn
    cases goesOn

theorem ne_of_isStop (stop : isStop c = true) {other : Char} (goesOn : isStop other = false) :
    c ≠ other := by
  rintro rfl
  rw [stop] at goesOn
  cases goesOn

end

theorem Stopped.noDigit {rest : List Char} (stopped : Stopped rest) :
    ∀ c ∈ rest.head?, c.isDigit = false := fun c member => noDigit_of_isStop (stopped c member)

theorem Stopped.noWord {rest : List Char} (stopped : Stopped rest) :
    ∀ c ∈ rest.head?, isWordRest c = false := fun c member => noWord_of_isStop (stopped c member)

/-! ## Parts of a numeral -/

/-- A row of digits, which may be empty. -/
def AreDigits (text : List Char) : Prop := ∀ c ∈ text, c.isDigit = true

/-- A fraction, or nothing. -/
inductive IsFraction : List Char → Prop
  | none : IsFraction []
  | point {digits : List Char} (nonempty : digits ≠ []) (all : AreDigits digits) :
    IsFraction ('.' :: digits)

/-- An exponent, or nothing. -/
inductive IsExponent : List Char → Prop
  | none : IsExponent []
  | letter {e : Char} {sign digits : List Char} (isE : e = 'e' ∨ e = 'E')
    (isSign : sign = [] ∨ sign = ['+'] ∨ sign = ['-']) (nonempty : digits ≠ [])
    (all : AreDigits digits) : IsExponent (e :: (sign ++ digits))

section

variable {whole fraction exponent rest : List Char}

/-- What stands behind a numeral of these parts does not go on with it. -/
structure EndsNumeral (fraction exponent rest : List Char) : Prop where
  noDigit : ∀ c ∈ rest.head?, c.isDigit = false
  noFraction : fraction = [] → exponent = [] → fractionPart rest = []
  noExponent : exponent = [] → exponentPart rest = []

theorem fractionPart_none (noPoint : ∀ c ∈ rest.head?, c ≠ '.') : fractionPart rest = [] := by
  unfold fractionPart
  split
  · next rest => exact absurd rfl (noPoint '.' rfl)
  · rfl

theorem fractionPart_append (isFraction : IsFraction fraction)
    (noDigit : ∀ c ∈ rest.head?, c.isDigit = false)
    (noFraction : fraction = [] → fractionPart rest = []) :
    fractionPart (fraction ++ rest) = fraction := by
  cases isFraction with
  | none => exact noFraction rfl
  | point nonempty all => simp [fractionPart, takeWhile_append all noDigit, nonempty]

theorem exponentPart_none (stopped : Stopped rest) : exponentPart rest = [] := by
  cases rest with
  | nil => rfl
  | cons c rest =>
    have stop := stopped c rfl
    have small : c ≠ 'e' := ne_of_isStop stop (by decide)
    have capital : c ≠ 'E' := ne_of_isStop stop (by decide)
    simp [exponentPart, small, capital]

/-- A character that ends every token ends a numeral. -/
theorem Stopped.endsNumeral (stopped : Stopped rest) : EndsNumeral fraction exponent rest where
  noDigit := stopped.noDigit
  noFraction _ _ := fractionPart_none fun c member => ne_of_isStop (stopped c member) (by decide)
  noExponent _ := exponentPart_none stopped

/-- A sign is told from the digits after it. -/
theorem takeSign_append {sign digits : List Char}
    (isSign : sign = [] ∨ sign = ['+'] ∨ sign = ['-']) (nonempty : digits ≠ [])
    (all : AreDigits digits) (rest : List Char) :
    ((sign ++ (digits ++ rest)).takeWhile fun c => c == '+' || c == '-').take 1 = sign := by
  obtain ⟨d, digits, rfl⟩ := List.exists_cons_of_ne_nil nonempty
  have noSign : (d == '+' || d == '-') = false := by
    have digit := all d List.mem_cons_self
    simp only [Bool.or_eq_false_iff, beq_eq_false_iff_ne]
    constructor <;>
    · rintro rfl
      cases digit
  rcases isSign with rfl | rfl | rfl <;> simp [noSign]

theorem exponentPart_append (isExponent : IsExponent exponent)
    (ends : EndsNumeral fraction exponent rest) : exponentPart (exponent ++ rest) = exponent := by
  cases isExponent with
  | none => exact ends.noExponent rfl
  | letter isE isSign nonempty all =>
    simp [exponentPart, isE, takeSign_append isSign nonempty all,
      takeWhile_append all ends.noDigit, nonempty]

/-- What follows a fraction is no digit, and no fraction. -/
theorem head_exponent (isExponent : IsExponent exponent)
    (ends : EndsNumeral fraction exponent rest) :
    (∀ c ∈ (exponent ++ rest).head?, c.isDigit = false) ∧
      (fraction = [] → fractionPart (exponent ++ rest) = []) := by
  cases isExponent with
  | none => exact ⟨ends.noDigit, fun noFraction => ends.noFraction noFraction rfl⟩
  | letter isE isSign nonempty all =>
    constructor
    · rintro c ⟨⟩
      rcases isE with rfl | rfl <;> decide
    · refine fun _ => fractionPart_none ?_
      rintro c ⟨⟩
      rcases isE with rfl | rfl <;> decide

/-- What follows the first digits is no digit. -/
theorem head_fraction (isFraction : IsFraction fraction) (isExponent : IsExponent exponent)
    (ends : EndsNumeral fraction exponent rest) :
    ∀ c ∈ (fraction ++ (exponent ++ rest)).head?, c.isDigit = false := by
  cases isFraction with
  | none => exact (head_exponent isExponent ends).1
  | point nonempty all =>
    rintro c ⟨⟩
    decide

/-- A numeral is scanned up to where it ends. -/
theorem number_numeral (all : AreDigits whole) (isFraction : IsFraction fraction)
    (isExponent : IsExponent exponent) (ends : EndsNumeral fraction exponent rest) :
    number (whole ++ (fraction ++ (exponent ++ rest))) =
      ⟨if fraction.isEmpty && exponent.isEmpty then integerKind whole
        else floatKind (whole ++ fraction ++ exponent), rest⟩ := by
  have isWhole := takeWhile_append all (head_fraction isFraction isExponent ends)
  obtain ⟨noDigit, noFraction⟩ := head_exponent isExponent ends
  have isPoint := fractionPart_append isFraction noDigit noFraction
  simp only [number, isWhole, List.drop_left, isPoint, exponentPart_append isExponent ends]
  split <;> rfl

/-! ## The value of a numeral -/

theorem takeWhile_digits {digits : List Char} (all : AreDigits digits) :
    digits.takeWhile Char.isDigit = digits := by
  have whole : (digits ++ []).takeWhile Char.isDigit = digits := takeWhile_append all nofun
  rwa [List.append_nil] at whole

theorem dropWhile_digits {digits : List Char} (all : AreDigits digits) :
    digits.dropWhile Char.isDigit = [] := by
  have whole : (digits ++ []).dropWhile Char.isDigit = [] := dropWhile_append all nofun
  rwa [List.append_nil] at whole

/-- A numeral with a fraction and no exponent stands for its digits with the point moved. -/
theorem ofNumeral?_fraction {digits : List Char} (some : whole ≠ []) (all : AreDigits whole)
    (allFraction : AreDigits digits) :
    Binary64.ofNumeral? false (whole ++ '.' :: digits) =
      .some (Binary64.ofDecimal false (Binary64.digitsValue (whole ++ digits))
        (0 - digits.length)) := by
  have noDigit : ∀ c ∈ ('.' :: digits).head?, c.isDigit = false := by
    rintro c ⟨⟩
    decide
  simp [Binary64.ofNumeral?, takeWhile_append all noDigit, dropWhile_append all noDigit,
    takeWhile_digits allFraction, dropWhile_digits allFraction, some]

/-- The letter of an exponent may be a capital or a small one. -/
theorem ofNumeral?_letter {e : Char} (isE : e = 'e' ∨ e = 'E') (all : AreDigits whole)
    (isFraction : IsFraction fraction) (power : List Char) :
    Binary64.ofNumeral? false (whole ++ (fraction ++ e :: power)) =
      Binary64.ofNumeral? false (whole ++ (fraction ++ 'e' :: power)) := by
  rcases isE with rfl | rfl
  · rfl
  have isLetter (e : Char) (noDigit : e.isDigit = false) :
      ∀ c ∈ (e :: power).head?, c.isDigit = false := by
    rintro c ⟨⟩
    exact noDigit
  have small := isLetter 'e' (by decide)
  have capital := isLetter 'E' (by decide)
  cases isFraction with
  | none =>
    simp [Binary64.ofNumeral?, takeWhile_append all small, takeWhile_append all capital,
      dropWhile_append all small, dropWhile_append all capital]
  | @point digits nonempty allFraction =>
    have isPoint (e : Char) : ∀ c ∈ ('.' :: (digits ++ e :: power)).head?, c.isDigit = false := by
      rintro c ⟨⟩
      decide
    simp [Binary64.ofNumeral?, takeWhile_append all (isPoint _), dropWhile_append all (isPoint _),
      takeWhile_append allFraction small, takeWhile_append allFraction capital,
      dropWhile_append allFraction small, dropWhile_append allFraction capital]

/-- An exponent moves the point once more. -/
theorem ofNumeral?_exponent {power : List Char} (some : whole ≠ []) (all : AreDigits whole)
    (isFraction : IsFraction fraction) :
    Binary64.ofNumeral? false (whole ++ (fraction ++ 'e' :: power)) =
      (Binary64.exponent? power).map fun exponent =>
        Binary64.ofDecimal false (Binary64.digitsValue (whole ++ fraction.drop 1))
          (exponent - (fraction.drop 1).length) := by
  have isLetter : ∀ c ∈ ('e' :: power).head?, c.isDigit = false := by
    rintro c ⟨⟩
    decide
  cases isFraction with
  | none =>
    simp [Binary64.ofNumeral?, takeWhile_append all isLetter, dropWhile_append all isLetter, some]
  | @point digits nonempty allFraction =>
    have isPoint : ∀ c ∈ ('.' :: (digits ++ 'e' :: power)).head?, c.isDigit = false := by
      rintro c ⟨⟩
      decide
    simp [Binary64.ofNumeral?, takeWhile_append all isPoint, dropWhile_append all isPoint,
      takeWhile_append allFraction isLetter, dropWhile_append allFraction isLetter, some]

end

end Scan

namespace Binary64

open Scan (AreDigits IsFraction IsExponent)

/-! ## Values of rows of digits -/

theorem digitsValue_append (first second : List Char) :
    digitsValue (first ++ second) = digitsValue first * 10 ^ second.length + digitsValue second := by
  show Nat.ofDigitChars 10 (first ++ second) 0 = _
  rw [Nat.ofDigitChars_append, Nat.ofDigitChars_eq_ofDigitChars_zero, Nat.mul_comm]
  rfl

theorem digitsValue_zeros (count : Nat) : digitsValue (List.replicate count '0') = 0 := by
  induction count with
  | zero => rfl
  | succ count ih =>
    rw [List.replicate_succ', digitsValue_append, ih]
    simp [digitsValue]

theorem digitsValue_toDigits (value : Nat) : digitsValue (Nat.toDigits 10 value) = value :=
  Nat.ofDigitChars_toDigits (by decide) (by decide)

theorem toDigits_digits (value : Nat) : AreDigits (Nat.toDigits 10 value) :=
  fun _ member => Nat.isDigit_of_mem_toDigits (by decide) (by decide) member

theorem zeros_digits (count : Nat) : AreDigits (List.replicate count '0') := by
  intro c member
  rw [(List.mem_replicate.mp member).2]
  decide

/-- The zeros at the end of a row of digits are all that is left out. -/
theorem significantDigits_zeros (digits : List Char) :
    ∃ count, digits = significantDigits digits ++ List.replicate count '0' := by
  have zeros : ∀ c ∈ digits.reverse.takeWhile (· == '0'), c = '0' := fun c member => by
    simpa using List.all_eq_true.mp (@List.all_takeWhile _ (· == '0') digits.reverse) c member
  refine ⟨(digits.reverse.takeWhile (· == '0')).length, ?_⟩
  rw [significantDigits, ← List.reverse_replicate, ← List.eq_replicate_of_mem zeros,
    ← List.reverse_append, List.takeWhile_append_dropWhile, List.reverse_reverse]

/-- The digits of a positive number without the zeros at their end. -/
structure Significant (digits : List Char) (value : Nat) : Prop where
  nonempty : digits ≠ []
  all : AreDigits digits
  value : ∃ count, Nat.toDigits 10 value = digits ++ List.replicate count '0' ∧
    value = digitsValue digits * 10 ^ count

theorem significant_toDigits {value : Nat} (positive : 0 < value) :
    Significant (significantDigits (Nat.toDigits 10 value)) value := by
  obtain ⟨count, isRow⟩ := significantDigits_zeros (Nat.toDigits 10 value)
  have isValue : value =
      digitsValue (significantDigits (Nat.toDigits 10 value)) * 10 ^ count := by
    have whole := congrArg digitsValue isRow
    rwa [digitsValue_toDigits, digitsValue_append, digitsValue_zeros, List.length_replicate,
      Nat.add_zero] at whole
  refine ⟨?_, fun c member => ?_, count, isRow, isValue⟩
  · intro none
    rw [none] at isValue
    simp [digitsValue] at isValue
    omega
  · refine toDigits_digits value c ?_
    rw [isRow]
    exact List.mem_append_left _ member

/-! ## Numerals in SQL -/

theorem ofMagnitude_magnitude {x : Binary64} (unsigned : x.isNegative = false) :
    ofMagnitude false x.magnitude = x := by
  obtain ⟨bits⟩ := x
  have small : bits.toNat < signBit := by simpa [isNegative] using unsigned
  simp [ofMagnitude, magnitude, Nat.mod_eq_of_lt small]

/-- A text that is scanned as a numeral and stands for a number. -/
structure Writes (text : List Char) (x : Binary64) : Prop where
  parts : ∃ whole fraction exponent, whole ≠ [] ∧ AreDigits whole ∧ IsFraction fraction ∧
    IsExponent exponent ∧ (fraction.isEmpty && exponent.isEmpty) = false ∧
    text = whole ++ (fraction ++ exponent)
  value : ofNumeral? false text = some x

/-- A number and the digits that it is written with, `point` of them before the point. -/
structure ShownBy (x : Binary64) (digits : List Char) (point : Int) : Prop where
  finite : x.isFinite = true
  unsigned : x.isNegative = false
  nonempty : digits ≠ []
  all : AreDigits digits
  positive : 0 < digitsValue digits
  reads : nearestDecimal (digitsValue digits) (point - digits.length) = x.magnitude

namespace ShownBy

variable {x : Binary64} {digits : List Char} {point : Int}

/-- Zeros after the digits change nothing if the power of ten makes up for them. -/
theorem ofDecimal_zeros (shown : ShownBy x digits point) (count : Nat) :
    ofDecimal false (digitsValue digits * 10 ^ count) (point - digits.length - count) = x := by
  have small : x.magnitude ≤ infinityWord := by
    have below : x.magnitude < infinityWord := by simpa [isFinite] using shown.finite
    omega
  rw [ofDecimal, nearestDecimal_scale shown.positive, shown.reads, Nat.min_eq_left small,
    ofMagnitude_magnitude shown.unsigned]

theorem ofDecimal_eq (shown : ShownBy x digits point) {exponent : Int}
    (same : exponent = point - digits.length) :
    ofDecimal false (digitsValue digits) exponent = x := by
  have moved := shown.ofDecimal_zeros 0
  rwa [Nat.pow_zero, Nat.mul_one, Int.natCast_zero, Int.sub_zero, ← same] at moved

/-- A fraction after digits makes a numeral. -/
theorem writes_fraction {whole fraction : List Char} (some : whole ≠ []) (all : AreDigits whole)
    (someFraction : fraction ≠ []) (allFraction : AreDigits fraction)
    (value : ofDecimal false (digitsValue (whole ++ fraction)) (0 - fraction.length) = x) :
    Writes (whole ++ '.' :: fraction) x where
  parts := ⟨whole, '.' :: fraction, [], some, all, .point someFraction allFraction, .none, rfl,
    by simp⟩
  value := by rw [Scan.ofNumeral?_fraction some all allFraction, value]

/-- All digits stand after the point, behind zeros. -/
theorem writes_leadingZeros (shown : ShownBy x digits point) (before : point ≤ 0) :
    Writes ("0." ++ zeros (-point).toNat ++ String.ofList digits).toList x := by
  have text : ("0." ++ zeros (-point).toNat ++ String.ofList digits).toList =
      ['0'] ++ '.' :: (List.replicate (-point).toNat '0' ++ digits) := by
    simp [zeros]
  rw [text]
  refine writes_fraction (by simp) (zeros_digits 1) (by simp [shown.nonempty]) ?_ ?_
  · intro c member
    rcases List.mem_append.mp member with isZero | isDigit
    · exact zeros_digits _ c isZero
    · exact shown.all c isDigit
  · have value : digitsValue (['0'] ++ (List.replicate (-point).toNat '0' ++ digits)) =
        digitsValue digits := by
      have zero : digitsValue ['0'] = 0 := rfl
      rw [digitsValue_append, digitsValue_append, digitsValue_zeros, zero]
      omega
    rw [value]
    refine shown.ofDecimal_eq ?_
    rw [List.length_append, List.length_replicate]
    omega

/-- The point stands among the digits. -/
theorem writes_inside (shown : ShownBy x digits point) (positive : 0 < point)
    (inside : point < digits.length) :
    Writes (String.ofList (digits.take point.toNat) ++ "." ++
      String.ofList (digits.drop point.toNat)).toList x := by
  have text : (String.ofList (digits.take point.toNat) ++ "." ++
      String.ofList (digits.drop point.toNat)).toList =
      digits.take point.toNat ++ '.' :: digits.drop point.toNat := by
    simp
  rw [text]
  refine writes_fraction ?_ (fun c member => shown.all c (List.mem_of_mem_take member)) ?_
    (fun c member => shown.all c (List.mem_of_mem_drop member)) ?_
  · intro none
    have length := congrArg List.length none
    simp only [List.length_take, List.length_nil] at length
    omega
  · intro none
    have length := congrArg List.length none
    simp only [List.length_drop, List.length_nil] at length
    omega
  · rw [List.take_append_drop]
    refine shown.ofDecimal_eq ?_
    rw [List.length_drop]
    omega

/-- Zeros stand between the digits and the point. -/
theorem writes_trailingZeros (shown : ShownBy x digits point)
    (outside : (digits.length : Int) ≤ point) :
    Writes (String.ofList digits ++ zeros (point.toNat - digits.length) ++
      sqlFormat.wholeEnding).toList x := by
  have text : (String.ofList digits ++ zeros (point.toNat - digits.length) ++
      sqlFormat.wholeEnding).toList =
      (digits ++ List.replicate (point.toNat - digits.length) '0') ++ '.' :: ['0'] := by
    simp [zeros, sqlFormat]
  rw [text]
  refine writes_fraction (by simp [shown.nonempty]) ?_ (by simp) (zeros_digits 1) ?_
  · intro c member
    rcases List.mem_append.mp member with isDigit | isZero
    · exact shown.all c isDigit
    · exact zeros_digits _ c isZero
  · have zeros : List.replicate (point.toNat - digits.length) '0' ++ ['0'] =
        List.replicate (point.toNat - digits.length + 1) '0' :=
      List.replicate_succ'.symm
    rw [List.append_assoc, zeros, digitsValue_append, digitsValue_zeros,
      List.length_replicate, Nat.add_zero]
    have moved := shown.ofDecimal_zeros (point.toNat - digits.length + 1)
    rwa [show point - digits.length - ((point.toNat - digits.length + 1 : Nat) : Int) =
      0 - (['0'].length : Int) by rw [List.length_singleton]; omega] at moved

theorem writes_positional (shown : ShownBy x digits point) :
    Writes (sqlFormat.positionalText digits point).toList x := by
  simp only [Format.positionalText]
  split
  · next before => exact shown.writes_leadingZeros before
  · next positive =>
    split
    · next inside => exact shown.writes_inside (by omega) (by omega)
    · next outside => exact shown.writes_trailingZeros (by omega)

/-- An exponent is written with a minus sign or none. -/
theorem exponent_toString (order : Int) :
    ∃ sign power, (sign = [] ∨ sign = ['+'] ∨ sign = ['-']) ∧ power ≠ [] ∧ AreDigits power ∧
      order.repr.toList = sign ++ power ∧ exponent? (sign ++ power) = some order := by
  have some (value : Nat) : (Nat.toDigits 10 value).isEmpty = false := by
    simp [Nat.toDigits_ne_nil]
  have all (value : Nat) : (Nat.toDigits 10 value).all Char.isDigit = true :=
    List.all_eq_true.mpr (toDigits_digits value)
  rw [Int.repr_eq_if]
  split
  · next nonnegative =>
    refine ⟨[], Nat.toDigits 10 order.toNat, .inl rfl, Nat.toDigits_ne_nil,
      toDigits_digits _, by simp [Nat.repr_eq_ofList_toDigits], ?_⟩
    have value : Int.ofNat order.toNat = order := Int.toNat_of_nonneg nonnegative
    have digits := toDigits_digits order.toNat
    rw [List.nil_append]
    unfold exponent?
    split
    · next isPlus =>
      rw [isPlus] at digits
      exact absurd (digits '+' List.mem_cons_self) (by decide)
    · next isMinus =>
      rw [isMinus] at digits
      exact absurd (digits '-' List.mem_cons_self) (by decide)
    · simp only [some, all, digitsValue_toDigits, Bool.not_false, Bool.and_self, ↓reduceIte,
        Option.map_some, value]
  · next negative =>
    refine ⟨['-'], Nat.toDigits 10 (-order).toNat, .inr (.inr rfl), Nat.toDigits_ne_nil,
      toDigits_digits _, by simp [Nat.repr_eq_ofList_toDigits], ?_⟩
    have value : -Int.ofNat (-order).toNat = order := by
      rw [Int.ofNat_eq_natCast]
      omega
    simp only [exponent?, List.cons_append, List.nil_append, some, all, digitsValue_toDigits,
      Bool.not_false, Bool.and_self, ↓reduceIte, Option.map_some, value]

theorem writes_exponent (shown : ShownBy x digits point) :
    Writes (sqlFormat.exponentText digits (point - 1)).toList x := by
  have some := List.length_pos_iff.mpr shown.nonempty
  obtain ⟨sign, power, isSign, somePower, allPower, isText, isExponent⟩ :=
    exponent_toString (point - 1)
  obtain ⟨d, rest, rfl⟩ := List.exists_cons_of_ne_nil shown.nonempty
  have allFirst : AreDigits [d] := by simpa [AreDigits] using shown.all d List.mem_cons_self
  have allRest : AreDigits rest := fun c member => shown.all c (List.mem_cons_of_mem _ member)
  have isFraction : IsFraction (if rest.isEmpty then [] else '.' :: rest) := by
    cases rest with
    | nil => exact .none
    | cons c rest => exact .point (by simp) allRest
  have text : (sqlFormat.exponentText (d :: rest) (point - 1)).toList =
      [d] ++ ((if rest.isEmpty then [] else '.' :: rest) ++ 'e' :: (sign ++ power)) := by
    cases rest <;> simp [Format.exponentText, sqlFormat, isText]
  have fraction : (if rest.isEmpty then [] else '.' :: rest).drop 1 = rest := by
    cases rest <;> rfl
  rw [text]
  refine ⟨⟨[d], _, 'e' :: (sign ++ power), by simp, allFirst, isFraction,
    .letter (.inl rfl) isSign somePower allPower, by simp, rfl⟩, ?_⟩
  rw [Scan.ofNumeral?_exponent (by simp) allFirst isFraction, isExponent, fraction]
  refine congrArg Option.some (shown.ofDecimal_eq ?_)
  rw [List.length_cons]
  omega

end ShownBy

/-- The text that SQL writes for a number stands for the number. -/
theorem sqlFormat_writes {x : Binary64} (finite : x.isFinite = true)
    (unsigned : x.isNegative = false) : Writes (sqlFormat.text x).toList x := by
  have below : x.magnitude < infinityWord := by simpa [isFinite] using finite
  have number : x.isNaN = false := by
    simp only [isNaN, decide_eq_false_iff_not]
    omega
  have text : sqlFormat.text x = sqlFormat.magnitudeText x.magnitude := by
    simp [Format.text, number, unsigned, finite]
  rw [text, Format.magnitudeText]
  -- zero has no significant digits, and is written in a way of its own
  by_cases zero : x.magnitude = 0
  · have none : shortest sqlFormat.tie x.magnitude = ⟨0, 0⟩ := by rw [shortest, if_pos zero]
    rw [none]
    have parts : ("0" ++ sqlFormat.wholeEnding).toList = ['0'] ++ '.' :: ['0'] := rfl
    show Writes ("0" ++ sqlFormat.wholeEnding).toList x
    rw [parts]
    refine ShownBy.writes_fraction (by simp) (zeros_digits 1) (by simp) (zeros_digits 1) ?_
    rw [← ofMagnitude_magnitude unsigned, zero]
    rfl
  · have positive : 0 < x.magnitude := Nat.pos_of_ne_zero zero
    have reads := nearestDecimal_shortest sqlFormat.tie positive below
    generalize shortest sqlFormat.tie x.magnitude = decimal at reads
    obtain ⟨value, exponent⟩ := decimal
    have some : 0 < value := by
      refine Nat.pos_of_ne_zero ?_
      rintro rfl
      have none : nearestDecimal 0 exponent = 0 := by simp [nearestDecimal_eq]
      exact zero (reads.symm.trans none)
    obtain ⟨nonempty, all, count, isRow, isValue⟩ := significant_toDigits some
    have someDigits : 0 < digitsValue (significantDigits (Nat.toDigits 10 value)) := by
      refine Nat.pos_of_ne_zero fun none => ?_
      rw [none, Nat.zero_mul] at isValue
      omega
    have length := congrArg List.length isRow
    rw [List.length_append, List.length_replicate] at length
    have shown : ShownBy x (significantDigits (Nat.toDigits 10 value))
        ((Nat.toDigits 10 value).length + exponent) := by
      refine ⟨finite, unsigned, nonempty, all, someDigits, ?_⟩
      have moved := nearestDecimal_scale someDigits count (exponent + count)
      rw [← isValue, Int.add_sub_cancel, reads] at moved
      rw [moved]
      congr 1
      omega
    show Writes (if value = 0 then _ else _ : String).toList x
    rw [if_neg (Nat.ne_of_gt some)]
    dsimp only
    split
    · exact shown.writes_positional
    · exact shown.writes_exponent

end Binary64

namespace Scan

/-- The text that SQL writes for a number is scanned as the number. -/
theorem number_sqlFormat {x : Binary64} (finite : x.isFinite = true)
    (unsigned : x.isNegative = false) {rest : List Char} (stopped : Stopped rest) :
    number ((Binary64.sqlFormat.text x).toList ++ rest) = ⟨.ok (.float x), rest⟩ := by
  obtain ⟨⟨whole, fraction, exponent, some, all, isFraction, isExponent, notWhole, isText⟩,
    value⟩ := Binary64.sqlFormat_writes finite unsigned
  rw [isText] at value
  rw [isText, List.append_assoc, List.append_assoc,
    number_numeral all isFraction isExponent stopped.endsNumeral, notWhole]
  simp [floatKind, value, finite]

/-- An integer without a sign is written by its digits. -/
theorem toString_natCast (count : Nat) :
    (toString (count : Int)).toList = Nat.toDigits 10 count := by
  rw [Int.toString_eq_repr, Int.repr_eq_if, if_pos (Int.natCast_nonneg count)]
  simp [Nat.repr_eq_ofList_toDigits]

/-- The digits of an integer within the range of literals are scanned as the integer. -/
theorem number_toString {count : Nat} (bounded : (count : Int) ≤ maxInteger)
    {rest : List Char} (stopped : Stopped rest) :
    number ((toString (count : Int)).toList ++ rest) = ⟨.ok (.integer count), rest⟩ := by
  have small : count ≤ maxInteger := by omega
  have whole := number_numeral (Binary64.toDigits_digits count) .none .none stopped.endsNumeral
  rw [List.nil_append, List.nil_append] at whole
  rw [toString_natCast, whole]
  simp [integerKind, Binary64.digitsValue_toDigits, small]

end Scan

end CanonicalSql
