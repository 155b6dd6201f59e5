import CanonicalSql.Binary64.Shortest
import CanonicalSql.Proofs.Lexical

/-!
# Shortest digits read back

The number that a numeral denotes hangs on its value alone, not on where the point is
(`nearestDecimal_scale`). The digits that the search for shortest digits ends with read back
as the magnitude that they were looked for, also where no grid has a hit and the exact
expansion stands in (`nearestDecimal_shortest`).
-/
namespace CanonicalSql.Binary64

/-! ## Scaling fractions -/

theorem roundHalfEven_scale {factor : Nat} (positive : 0 < factor) (num den : Nat) :
    roundHalfEven (num * factor) (den * factor) = roundHalfEven num den := by
  have rest : 2 * (num % den * factor) < den * factor ↔ 2 * (num % den) < den := by
    rw [← Nat.mul_assoc, Nat.mul_lt_mul_right positive]
  have above : den * factor < 2 * (num % den * factor) ↔ den < 2 * (num % den) := by
    rw [← Nat.mul_assoc, Nat.mul_lt_mul_right positive]
  simp only [roundHalfEven, Nat.mul_div_mul_right _ _ positive, Nat.mul_mod_mul_right, rest, above]

theorem nearestUnits_scale {factor : Nat} (positive : 0 < factor) (num den : Nat) :
    nearestUnits (num * factor) (den * factor) = nearestUnits num den := by
  simp only [nearestUnits, Nat.mul_div_mul_right _ _ positive]
  rw [Nat.shiftLeft_eq, Nat.mul_right_comm, ← Nat.shiftLeft_eq, roundHalfEven_scale positive]

theorem shiftLeft_mul (value factor places : Nat) :
    (value * factor) <<< places = (value <<< places) * factor := by
  rw [Nat.shiftLeft_eq, Nat.shiftLeft_eq, Nat.mul_right_comm]

/-- The magnitude word of a decimal numeral that is neither too great nor too small to be
looked at closely. -/
def nearestScaled (digits : Nat) (exponent : Int) : Nat :=
  if 0 ≤ exponent then nearestUnits ((digits * Nat.pow 10 exponent.toNat) <<< 1074) 1
  else nearestUnits (digits <<< 1074) (Nat.pow 10 (-exponent).toNat)

/-- The power of ten may be split between numerator and denominator in any way. -/
theorem nearestScaled_eq (digits up down : Nat) :
    nearestScaled digits (up - down) = nearestUnits ((digits * 10 ^ up) <<< 1074) (10 ^ down) := by
  unfold nearestScaled
  split
  · next nonnegative =>
    have split : up = ((up : Int) - down).toNat + down := by omega
    have power : 10 ^ up = 10 ^ ((up : Int) - down).toNat * 10 ^ down := by
      rw [← Nat.pow_add, ← split]
    have scaled := nearestUnits_scale (Nat.pow_pos (n := down) (by decide : 0 < 10))
      ((digits * 10 ^ ((up : Int) - down).toNat) <<< 1074) 1
    rw [Nat.one_mul] at scaled
    rw [power, Nat.pow_eq, ← Nat.mul_assoc, shiftLeft_mul (_ * _), scaled]
  · next negative =>
    have split : down = (-((up : Int) - down)).toNat + up := by omega
    have power : 10 ^ down = 10 ^ (-((up : Int) - down)).toNat * 10 ^ up := by
      rw [← Nat.pow_add, ← split]
    rw [power, Nat.pow_eq, shiftLeft_mul]
    exact (nearestUnits_scale (Nat.pow_pos (by decide)) _ _).symm

/-- A power of ten adds zeros at the end. -/
theorem toDigits_scale {digits : Nat} (positive : 0 < digits) (count : Nat) :
    Nat.toDigits 10 (digits * 10 ^ count) =
      Nat.toDigits 10 digits ++ List.replicate count '0' := by
  induction count with
  | zero => simp
  | succ count ih =>
    have more : digits * 10 ^ (count + 1) = 10 * (digits * 10 ^ count) + 0 := by
      rw [Nat.pow_succ, ← Nat.mul_assoc, Nat.mul_comm, Nat.add_zero]
    have some : 0 < digits * 10 ^ count := Nat.mul_pos positive (Nat.pow_pos (by decide))
    have zero : Nat.toDigits 10 0 = ['0'] := rfl
    rw [more, ← Nat.toDigits_append_toDigits (by decide) some (by decide), ih, zero,
      List.append_assoc, List.replicate_succ']

/-- The power of ten of the first digit of a numeral, more by one. -/
def orderOf (digits : Nat) (exponent : Int) : Int := (Nat.toDigits 10 digits).length + exponent

theorem nearestDecimal_eq (digits : Nat) (exponent : Int) :
    nearestDecimal digits exponent =
      if digits = 0 ∨ orderOf digits exponent < -330 then 0
      else if 310 < orderOf digits exponent then infinityWord
      else nearestScaled digits exponent := rfl

/-- The point of a numeral may stand anywhere if the power of ten makes up for it. -/
theorem nearestDecimal_scale {digits : Nat} (positive : 0 < digits) (count : Nat)
    (exponent : Int) :
    nearestDecimal (digits * 10 ^ count) (exponent - count) = nearestDecimal digits exponent := by
  have nonzero : digits * 10 ^ count ≠ 0 :=
    Nat.ne_of_gt (Nat.mul_pos positive (Nat.pow_pos (by decide)))
  have order : orderOf (digits * 10 ^ count) (exponent - count) = orderOf digits exponent := by
    rw [orderOf, orderOf, toDigits_scale positive, List.length_append, List.length_replicate]
    omega
  -- both numerals are the same fraction, split in two ways
  have same : nearestScaled (digits * 10 ^ count) (exponent - count) =
      nearestScaled digits exponent := by
    have left := nearestScaled_eq (digits * 10 ^ count) exponent.toNat ((-exponent).toNat + count)
    have right := nearestScaled_eq digits exponent.toNat (-exponent).toNat
    have leftExponent : (exponent.toNat : Int) - ((-exponent).toNat + count : Nat) =
        exponent - count := by omega
    have rightExponent : (exponent.toNat : Int) - ((-exponent).toNat : Nat) = exponent := by omega
    rw [leftExponent] at left
    rw [rightExponent] at right
    rw [left, right, Nat.pow_add, Nat.mul_right_comm, shiftLeft_mul]
    exact nearestUnits_scale (Nat.pow_pos (by decide)) _ _
  rw [nearestDecimal_eq, nearestDecimal_eq, order, same]
  simp only [nonzero, Nat.ne_of_gt positive]

/-! ## The exact expansion -/

theorem hiddenBit_eq : hiddenBit = 2 ^ 52 := rfl

theorem roundHalfEven_mul {factor : Nat} (positive : 0 < factor) (value : Nat) :
    roundHalfEven (value * factor) factor = value := by
  simp [roundHalfEven, Nat.mul_div_cancel _ positive, positive]

/-- A significand has 53 binary digits at most, of which a word does not spell out the first. -/
theorem significand_lt (word : Nat) : significand word < 2 ^ 53 := by
  unfold significand shift
  rw [hiddenBit_eq]
  omega

section

variable {word : Nat}

theorem shift_of_small (small : word < 2 * hiddenBit) : shift word = 0 := by
  unfold shift
  rw [hiddenBit_eq] at small ⊢
  omega

/-- A word beyond the grid of the units has all 53 digits. -/
theorem significand_ge (large : ¬ word < 2 * hiddenBit) : 2 ^ 52 ≤ significand word := by
  unfold significand shift
  rw [hiddenBit_eq] at large ⊢
  omega

theorem shift_pos (large : ¬ word < 2 * hiddenBit) : 1 ≤ shift word := by
  unfold shift
  rw [hiddenBit_eq] at large ⊢
  omega

/-- The digits of the significand and the places by which it is scaled. -/
theorem log2_units (large : ¬ word < 2 * hiddenBit) : (units word).log2 = 52 + shift word := by
  have whole : units word = significand word * 2 ^ shift word := Nat.shiftLeft_eq _ _
  have lower : 2 ^ (52 + shift word) ≤ units word := by
    rw [whole, Nat.pow_add]
    exact Nat.mul_le_mul_right _ (significand_ge large)
  have upper : units word < 2 ^ (52 + shift word + 1) := by
    rw [whole, Nat.add_right_comm, Nat.pow_add]
    exact Nat.mul_lt_mul_of_pos_right (significand_lt word) (Nat.two_pow_pos _)
  have nonzero : units word ≠ 0 := Nat.ne_of_gt (Nat.lt_of_lt_of_le (Nat.two_pow_pos _) lower)
  exact (Nat.log2_eq_iff nonzero).mpr ⟨lower, upper⟩

/-- As many units as a word stands for are scaled as far as the word. -/
theorem scaleOf_units (large : ¬ word < 2 * hiddenBit) : scaleOf (units word) = shift word := by
  have log := log2_units large
  have positive := shift_pos large
  have beyond : ¬ units word < 2 * hiddenBit := by
    have bound : 2 * hiddenBit = 2 ^ 53 := rfl
    have nonzero : units word ≠ 0 := by
      intro none
      rw [none, Nat.log2_zero] at log
      omega
    rw [bound, ← Nat.log2_lt nonzero, log]
    omega
  simp only [scaleOf, beyond, ↓reduceIte, log]
  omega

end

/-- A whole number of units that a word stands for is rounded to the word. -/
theorem nearestUnits_units (word : Nat) : nearestUnits (units word) 1 = word := by
  unfold nearestUnits
  rw [Nat.div_one]
  by_cases small : word < 2 * hiddenBit
  · have noShift := shift_of_small small
    have whole : units word = word := by simp [units, significand, noShift]
    have noScale : scaleOf word = 0 := by simp [scaleOf, small]
    have rounded := roundHalfEven_mul (by decide : 0 < 1) word
    simpa [whole, noScale] using rounded
  · have whole : units word = significand word * 2 ^ shift word := Nat.shiftLeft_eq _ _
    have rounded := roundHalfEven_mul (Nat.two_pow_pos (shift word)) (significand word)
    rw [scaleOf_units small, whole]
    simp only [Nat.shiftLeft_eq, Nat.one_mul, rounded]
    unfold significand shift
    rw [hiddenBit_eq] at small ⊢
    omega

theorem units_lt {word : Nat} (finite : word < infinityWord) : units word < 2 ^ (53 + 2045) := by
  have infinite : infinityWord = 2047 * 2 ^ 52 := rfl
  have shifted : shift word ≤ 2045 := by
    unfold shift
    rw [hiddenBit_eq]
    omega
  have powers (fewer many : Nat) (less : fewer ≤ many) :
      significand word * 2 ^ fewer < 2 ^ (53 + many) :=
    calc significand word * 2 ^ fewer
      _ ≤ significand word * 2 ^ many :=
        Nat.mul_le_mul_left _ (Nat.pow_le_pow_right (by decide) less)
      _ < 2 ^ 53 * 2 ^ many := (Nat.mul_lt_mul_right (Nat.two_pow_pos many)).mpr (significand_lt word)
      _ = 2 ^ (53 + many) := (Nat.pow_add 2 53 many).symm
  rw [units, Nat.shiftLeft_eq]
  exact powers _ 2045 shifted

theorem units_pos {word : Nat} (positive : 0 < word) : 0 < units word := by
  have rounded := nearestUnits_units word
  by_cases none : units word = 0
  · rw [none] at rounded
    have zero : nearestUnits 0 1 = 0 := by decide
    omega
  · omega

/-- The fraction of the exact expansion, whatever the number of its places. -/
theorem nearestUnits_expansion (count places : Nat) :
    nearestUnits ((count * 5 ^ places) <<< places) (10 ^ places) = nearestUnits count 1 := by
  have power : 5 ^ places * 2 ^ places = 10 ^ places := (Nat.mul_pow 5 2 places).symm
  rw [Nat.shiftLeft_eq, Nat.mul_assoc, power]
  have scaled := nearestUnits_scale (Nat.pow_pos (n := places) (by decide : 0 < 10)) count 1
  rwa [Nat.one_mul] at scaled

/-- A number of units that is written with all its decimal places is read as the nearest
word. -/
theorem nearestDecimal_expansion {count places : Nat} (some : 0 < count)
    (low : 10 ^ (places - 331) ≤ count * 5 ^ places)
    (high : count * 5 ^ places < 10 ^ (places + 310)) (isPlaces : places = unitPlaces) :
    nearestDecimal (count * 5 ^ places) (-places) = nearestUnits count 1 := by
  have many : places = 1074 := isPlaces
  have fraction : nearestScaled (count * 5 ^ places) (-places) = nearestUnits count 1 := by
    have scaled := nearestScaled_eq (count * 5 ^ places) 0 places
    rw [← many, Nat.pow_zero, Nat.mul_one, nearestUnits_expansion] at scaled
    rw [← scaled]
    congr 1
    omega
  have digits : 0 < count * 5 ^ places := Nat.mul_pos some (Nat.pow_pos (by decide))
  generalize count * 5 ^ places = value at low high fraction digits
  have long : ¬ (Nat.toDigits 10 value).length ≤ places - 331 := by
    rw [Nat.length_toDigits_le_iff (by decide) (by omega), Nat.not_lt]
    exact low
  have short : (Nat.toDigits 10 value).length ≤ places + 310 := by
    rw [Nat.length_toDigits_le_iff (by decide) (by omega)]
    exact high
  have notLow : ¬ (value = 0 ∨ orderOf value (-places) < -330) := by
    unfold orderOf
    omega
  have notHigh : ¬ 310 < orderOf value (-places) := by
    unfold orderOf
    omega
  rw [nearestDecimal_eq, if_neg notLow, if_neg notHigh, fraction]

/-- The exact expansion of a finite magnitude reads back. -/
theorem nearestDecimal_exact {word : Nat} (positive : 0 < word) (finite : word < infinityWord) :
    nearestDecimal (exactDecimal word).digits (exactDecimal word).exponent = word := by
  have some := units_pos positive
  have low : 10 ^ (unitPlaces - 331) ≤ units word * 5 ^ unitPlaces :=
    Nat.le_trans (by decide +kernel : 10 ^ (unitPlaces - 331) ≤ 1 * 5 ^ unitPlaces)
      (Nat.mul_le_mul_right _ some)
  have high : units word * 5 ^ unitPlaces < 10 ^ (unitPlaces + 310) := by
    refine Nat.lt_trans (Nat.mul_lt_mul_of_pos_right (units_lt finite) ?_) ?_
    · exact Nat.pow_pos (by decide)
    · decide +kernel
  have expansion := nearestDecimal_expansion some low high rfl
  rw [nearestUnits_units] at expansion
  simpa only [exactDecimal, Nat.pow_eq] using expansion

/-- The shortest digits of a finite magnitude read back. -/
theorem nearestDecimal_shortest (tie : Tie) {word : Nat} (positive : 0 < word)
    (finite : word < infinityWord) :
    nearestDecimal (shortest tie word).digits (shortest tie word).exponent = word := by
  rw [shortest, if_neg (Nat.ne_of_gt positive)]
  cases search : (List.range' 1 17).findSome? (gridHit? tie word) with
  | none => exact nearestDecimal_exact positive finite
  | some found =>
    obtain ⟨count, -, hit⟩ := List.exists_of_findSome?_eq_some search
    exact nearestDecimal_of_readsBack? hit

end CanonicalSql.Binary64
