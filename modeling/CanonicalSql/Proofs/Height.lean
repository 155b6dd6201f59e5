import CanonicalSql.Proofs.Columns

/-!
# Heights of data types

The cap on recursion bounds the levels that are entered at the same time. The suffixes of a type
are counted after the levels of its rows have been left, and so a row with suffixes gets a type
that is higher than the cap: each row on the way down may have suffixes of its own, as many as the
cap leaves room for there. What the cap bounds is the sum (`DataType.two_mul_height_le`). If no row
has a suffix, the height is one more than the cap at most (`DataType.height_le_of_rowsBare`).
-/
namespace CanonicalSql

namespace DataType

mutual

/-- The number of types on the longest way from a type down through elements and fields. -/
def height : DataType → Nat
  | .row fields => fieldHeight fields + 1
  | .array element _ | .multiset element => element.height + 1
  | _ => 1

/-- The greatest height of the fields of a row. -/
def fieldHeight : List (Name × DataType) → Nat
  | [] => 0
  | (_, type) :: rest => max type.height (fieldHeight rest)

end

/-- Whether the type is a row. -/
def isRow : DataType → Bool
  | .row _ => true
  | _ => false

mutual

/-- Whether no row in the type is the element of an array or of a multiset. -/
def rowsBare : DataType → Bool
  | .row fields => fieldsBare fields
  | .array element _ | .multiset element => !element.isRow && element.rowsBare
  | _ => true

/-- Whether no row in the types of the fields is an element. -/
def fieldsBare : List (Name × DataType) → Bool
  | [] => true
  | (_, type) :: rest => type.rowsBare && fieldsBare rest

end

/-- Suffixes are counted among the levels. -/
theorem suffixes_le_levels (type : DataType) : type.suffixes ≤ type.levels := by
  cases type <;> simp only [suffixes, levels] <;> omega

mutual

/-- The height of a type without its suffixes leaves room for as many suffixes as it has levels:
that is how many it can get where it stands. The induction is on the type. A row goes one level
down, and a suffix makes the levels more only when they are all in use. -/
theorem two_mul_height_add_le (type : DataType) :
    2 * type.height + 2 * type.levels ≤ type.levels * (type.levels + 3) + 2 * type.suffixes := by
  match type with
  | .row fields =>
    have inner := two_mul_fieldHeight_le fields
    simp only [height, levels, suffixes]
    nlinarith only [inner]
  | .array element _ | .multiset element =>
    have inner := two_mul_height_add_le element
    have counted := element.suffixes_le_levels
    simp only [height, levels, suffixes]
    -- a suffix within the levels of the element costs no level; one beyond them adds to both
    -- sides
    rcases Nat.lt_or_ge element.suffixes element.levels with spare | full
    · rw [Nat.max_eq_left spare]
      omega
    · have same : element.suffixes = element.levels := Nat.le_antisymm counted full
      rw [Nat.max_eq_right (by omega), same]
      rw [same] at inner
      nlinarith only [inner]
  | .numeric .. | .decimal .. | .smallInt | .integer | .bigInt | .float _ | .real
  | .doublePrecision | .binary _ | .varBinary _ | .blob _ | .char _ | .varChar _ | .clob _
  | .nationalChar _ | .nationalVarChar _ | .nationalClob _ | .boolean | .date | .time ..
  | .timestamp .. | .named _ | .reference .. => simp [height, levels, suffixes]

theorem two_mul_fieldHeight_le (fields : List (Name × DataType)) :
    2 * fieldHeight fields ≤ fieldLevels fields * (fieldLevels fields + 3) := by
  match fields with
  | [] => simp [fieldHeight]
  | (_, type) :: rest =>
    have first := two_mul_height_add_le type
    have others := two_mul_fieldHeight_le rest
    have counted := type.suffixes_le_levels
    have grows {a b : Nat} (less : a ≤ b) : a * (a + 3) ≤ b * (b + 3) :=
      Nat.mul_le_mul less (by omega)
    have left := grows (Nat.le_max_left type.levels (fieldLevels rest))
    have right := grows (Nat.le_max_right type.levels (fieldLevels rest))
    simp only [fieldHeight, fieldLevels]
    omega

end

/-- On each level there may be a row with as many suffixes as there are levels left. -/
theorem two_mul_height_le (type : DataType) :
    2 * type.height ≤ type.levels * (type.levels + 3) := by
  have sum := type.two_mul_height_add_le
  have counted := type.suffixes_le_levels
  omega

mutual

/-- Where no row has suffixes, the levels of the rows and of the suffixes behind them are in use at
the same time. -/
theorem height_le_of_rowsBare (type : DataType) (bare : type.rowsBare = true) :
    type.height ≤ type.levels + 1 ∧ (type.isRow = false → type.height = type.suffixes + 1) := by
  match type with
  | .row fields =>
    have inner := fieldHeight_le_of_fieldsBare fields bare
    simp only [height, levels, isRow]
    exact ⟨by omega, nofun⟩
  | .array element _ | .multiset element =>
    simp only [rowsBare, Bool.and_eq_true, Bool.not_eq_true'] at bare
    have inner := (height_le_of_rowsBare element bare.2).2 bare.1
    simp only [height, levels, suffixes]
    omega
  | .numeric .. | .decimal .. | .smallInt | .integer | .bigInt | .float _ | .real
  | .doublePrecision | .binary _ | .varBinary _ | .blob _ | .char _ | .varChar _ | .clob _
  | .nationalChar _ | .nationalVarChar _ | .nationalClob _ | .boolean | .date | .time ..
  | .timestamp .. | .named _ | .reference .. => simp [height, levels, suffixes]

theorem fieldHeight_le_of_fieldsBare (fields : List (Name × DataType))
    (bare : fieldsBare fields = true) : fieldHeight fields ≤ fieldLevels fields + 1 := by
  match fields with
  | [] => exact Nat.zero_le _
  | (_, type) :: rest =>
    simp only [fieldsBare, Bool.and_eq_true] at bare
    have first := (height_le_of_rowsBare type bare.1).1
    have others := fieldHeight_le_of_fieldsBare rest bare.2
    simp only [fieldHeight, fieldLevels]
    omega

end

end DataType

namespace Statement

/-- The types of a table that has been read: no way down through elements and fields is longer than
the sum of the levels that the cap leaves to each row, and if no row has suffixes, none is longer
than the cap and one more. -/
theorem height_le_of_parse {limit : Nat} {text : String} {definition : Create}
    (parsed : parse limit text = .ok (.create definition)) :
    ∀ column ∈ definition.columns,
      column.dataType.height ≤ limit * (2 * limit + 3) ∧
        (column.dataType.rowsBare = true → column.dataType.height ≤ 2 * limit + 1) := by
  intro column member
  have fits : column.dataType.levels ≤ capOf limit := (accepted_of_parse parsed).types column member
  have twice : column.dataType.levels ≤ 2 * limit := fits.trans (Nat.min_le_left _ _)
  refine ⟨?_, fun bare => ?_⟩
  · have sum := column.dataType.two_mul_height_le
    have grows := Nat.mul_le_mul twice (Nat.add_le_add_right twice 3)
    nlinarith only [sum, grows]
  · exact (column.dataType.height_le_of_rowsBare bare).1.trans (Nat.add_le_add_right twice 1)

/-- A row in a row, behind which there is a suffix, at the limit of two. -/
theorem height_le_of_parse_fields :
    ∃ definition column,
      parse 2 "CREATE TABLE t (c ROW(a ROW(b INT ARRAY)))" = .ok (.create definition) ∧
        definition.columns = [column] ∧ column.dataType.rowsBare = true ∧
        column.dataType.height ≤ 2 * 2 + 1 := by
  obtain ⟨definition, column, parsed, columns, bare⟩ := exists_column
    (fun column => column.dataType.rowsBare) (by decide +kernel :
      (column? (parse 2 "CREATE TABLE t (c ROW(a ROW(b INT ARRAY)))")).any _ = true)
  exact ⟨definition, column, parsed, columns, bare,
    (height_le_of_parse parsed column (by simp [columns])).2 bare⟩

/-- At the limit of one, where the cap is two, a row with suffixes makes a type of the height
five. -/
theorem parse_suffixed_row :
    ∃ definition column,
      parse 1 "CREATE TABLE t (c ROW(a INT ARRAY) ARRAY ARRAY)" = .ok (.create definition) ∧
        definition.columns = [column] ∧ ¬ column.dataType.height ≤ 2 * 1 + 1 := by
  obtain ⟨definition, column, parsed, columns, isFive⟩ := exists_column
    (fun column => decide (column.dataType.height = 5)) (by decide +kernel :
      (column? (parse 1 "CREATE TABLE t (c ROW(a INT ARRAY) ARRAY ARRAY)")).any _ = true)
  rw [decide_eq_true_eq] at isFive
  exact ⟨definition, column, parsed, columns, by omega⟩

end Statement

end CanonicalSql
