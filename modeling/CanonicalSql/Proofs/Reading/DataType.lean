import CanonicalSql.Canonical.DataType
import CanonicalSql.Proofs.Formed
import CanonicalSql.Proofs.Image.Levels
import CanonicalSql.Proofs.Reading.Names

/-!
# Reading data types

Each type is read back from its canonical words, up to what follows it: no parenthesis, no
bracket, and none of the words that a type may go on with. A type with suffixes is read as
its base, to which the suffixes are added one by one, so that the innermost comes first.
-/
namespace CanonicalSql

/-- Whether a type may go on with the token. -/
def Kind.extendsType : Kind → Bool
  | .symbol .leftParen | .symbol .leftBracket | .symbol .dot | .keyword .VARYING
  | .keyword .LARGE | .keyword .WITH | .keyword .WITHOUT | .keyword .SCOPE => true
  | _ => false

/-- Whether a type may get a suffix that begins with the token. -/
def Kind.isSuffix : Kind → Bool
  | .keyword .ARRAY | .keyword .MULTISET => true
  | _ => false

theorem Kind.ne_of_extendsType {kind other : Kind} (ends : kind.extendsType = false)
    (extending : other.extendsType = true) : kind ≠ other := by
  rintro rfl
  rw [ends] at extending
  cases extending

theorem Kind.ne_of_isSuffix {kind other : Kind} (ends : kind.isSuffix = false)
    (suffix : other.isSuffix = true) : kind ≠ other := by
  rintro rfl
  rw [ends] at suffix
  cases suffix

theorem Canonical.ofFields_eq_map (fields : List (Name × DataType)) :
    ofFields fields =
      fields.map fun field => Piece.name field.1 :: Piece.after (ofDataType field.2) := by
  induction fields with
  | nil => rfl
  | cons field rest ih => simp [ofFields, ih]

namespace DataType

/-- The tokens of a type. -/
abbrev tokens (type : DataType) : List Kind := Piece.kinds (Canonical.ofDataType type)

/-- A type without its suffixes. -/
def base : DataType → DataType
  | .array element _ | .multiset element => element.base
  | type => type

/-- The tokens of the suffixes of a type, the innermost first. -/
def suffixTokens : DataType → List Kind
  | .array element maxCardinality =>
    element.suffixTokens ++ .keyword .ARRAY :: Piece.kinds (Canonical.ofCardinality maxCardinality)
  | .multiset element => element.suffixTokens ++ [.keyword .MULTISET]
  | _ => []

theorem tokens_eq (type : DataType) : type.tokens = type.base.tokens ++ type.suffixTokens := by
  fun_induction DataType.suffixTokens type with
  | case1 element maxCardinality ih => simp [tokens, base, Canonical.ofDataType, ih]
  | case2 element ih => simp [tokens, base, Canonical.ofDataType, ih]
  | case3 type noArray noMultiset => simp [base]

theorem suffixes_base (type : DataType) : type.base.suffixes = 0 := by
  fun_induction DataType.base type with
  | case1 element maxCardinality ih => exact ih
  | case2 element ih => exact ih
  | case3 type noArray noMultiset => simp [suffixes]

theorem formed_base {type : DataType} (formed : type.Formed) : type.base.Formed := by
  fun_induction DataType.base type with
  | case1 element maxCardinality ih => exact ih formed.1
  | case2 element ih => exact ih formed
  | case3 type noArray noMultiset => exact formed

theorem levels_base_le (type : DataType) : type.base.levels ≤ type.levels := by
  fun_induction DataType.base type with
  | case1 element maxCardinality ih => exact Nat.le_trans ih (Nat.le_max_left _ _)
  | case2 element ih => exact Nat.le_trans ih (Nat.le_max_left _ _)
  | case3 type noArray noMultiset => exact Nat.le_refl _

theorem levels_pos (type : DataType) : 1 ≤ type.levels := by
  cases type <;> simp only [levels] <;> omega

end DataType

namespace Parse

variable {limit depth : Nat} {rest : List Kind}

/-! ## Numbers in parentheses -/

theorem unsigned_reads (value : Nat) :
    Reads limit True unsigned depth (.integer value :: rest) (· = value) depth rest := by
  refine kind_reads.step ?_
  simp only [lead_cons, Int.natCast_nonneg, ↓reduceIte]
  exact advance_reads.after fun _ _ => .pure trivial (Int.toNat_natCast value)

theorem optionalLength_reads (length : Option Nat) (stops : lead rest ≠ .symbol .leftParen) :
    Reads limit True optionalLength depth (Piece.kinds (Canonical.ofLength length) ++ rest)
      (· = length) depth rest := by
  cases length with
  | none => exact (atSign_no stops).step (.pure trivial rfl)
  | some length =>
    have text : Piece.kinds (Canonical.ofLength (some length)) ++ rest =
        .symbol .leftParen :: .integer length :: .symbol .rightParen :: rest := by
      simp [Canonical.ofLength]
    rw [text]
    exact (atSign_yes rfl).step ((unsigned_reads length).parenthesized.step (.pure trivial rfl))

theorem charUnit_reads (unit : Option CharUnit) :
    Reads limit True charUnit depth
      (unit.toList.map (fun it => .keyword it.word) ++ .symbol .rightParen :: rest) (· = unit) depth
      (.symbol .rightParen :: rest) := by
  cases unit with
  | none => exact (takeWord_no (by simp)).step ((takeWord_no (by simp)).step (.pure trivial rfl))
  | some unit =>
    cases unit with
    | characters => exact (takeWord_yes .CHARACTERS).step (.pure trivial rfl)
    | octets =>
      exact (takeWord_no (by simp [CharUnit.word])).step
        ((takeWord_yes .OCTETS).step (.pure trivial rfl))

theorem charLength_reads (length : Option CharLength)
    (stops : lead rest ≠ .symbol .leftParen) :
    Reads limit True charLength depth (Piece.kinds (Canonical.ofCharLength length) ++ rest)
      (· = length) depth rest := by
  rcases length with _ | ⟨length, unit⟩
  · exact (atSign_no stops).step (.pure trivial rfl)
  · have text : Piece.kinds (Canonical.ofCharLength (some ⟨length, unit⟩)) ++ rest =
        .symbol .leftParen :: .integer length ::
          (unit.toList.map (fun it => .keyword it.word) ++ .symbol .rightParen :: rest) := by
      cases unit <;> simp [Canonical.ofCharLength]
    rw [text]
    refine (atSign_yes rfl).step (Reads.parenthesized ?_)
    exact (unsigned_reads length).step ((charUnit_reads unit).step (.pure trivial rfl))

theorem precisionScale_reads {precision scale : Option Nat}
    (proper : DataType.ProperScale precision scale)
    (stops : lead rest ≠ .symbol .leftParen) :
    Reads limit True precisionScale depth
      (Piece.kinds (Canonical.ofPrecisionScale precision scale) ++ rest)
      (· = (precision, scale)) depth rest := by
  cases precision with
  | none =>
    cases scale with
    | none => exact (atSign_no stops).step (.pure trivial rfl)
    | some scale => exact absurd (proper.2.2 rfl) nofun
  | some precision =>
    have reads : Reads limit True Parse.scale depth
        (scale.toList.flatMap (fun it => [.symbol .comma, .integer it]) ++
          .symbol .rightParen :: rest) (· = scale) depth (.symbol .rightParen :: rest) := by
      cases scale with
      | none => exact (takeSign_no (by simp)).step (.pure trivial rfl)
      | some scale =>
        exact (takeSign_yes .comma).step ((unsigned_reads scale).step (.pure trivial rfl))
    have text : Piece.kinds (Canonical.ofPrecisionScale (some precision) scale) ++ rest =
        .symbol .leftParen :: .integer precision ::
          (scale.toList.flatMap (fun it => [.symbol .comma, .integer it]) ++
            .symbol .rightParen :: rest) := by
      cases scale <;> simp [Canonical.ofPrecisionScale, commaRows]
    rw [text]
    refine (atSign_yes rfl).step (Reads.parenthesized ?_)
    exact (unsigned_reads precision).step (reads.step (.pure trivial rfl))

theorem maxCardinality_reads (count : Option Nat) (stops : lead rest ≠ .symbol .leftBracket) :
    Reads limit True maxCardinality depth
      (Piece.kinds (Canonical.ofCardinality count) ++ rest) (· = count) depth rest := by
  cases count with
  | none => exact (takeSign_no stops).step (.pure trivial rfl)
  | some count =>
    refine (takeSign_yes .leftBracket).step ((unsigned_reads count).step ?_)
    exact (expectSign_reads .rightBracket).step (.pure trivial rfl)

/-! ## Words of types -/

theorem timeZone_reads (zone : Option Bool) (stops : (lead rest).extendsType = false) :
    Reads limit True timeZone depth (Piece.kinds (Canonical.ofTimeZone zone) ++ rest)
      (· = zone) depth rest := by
  have ends (zone : Bool) : Reads limit True (zoneWords zone) depth
      (.keyword .TIME :: .keyword .ZONE :: rest) (· = some zone) depth rest :=
    (expectWord_reads .TIME).step ((expectWord_reads .ZONE).step (.pure trivial rfl))
  rcases zone with _ | _ | _
  · exact (takeWord_no (Kind.ne_of_extendsType stops rfl)).step
      ((takeWord_no (Kind.ne_of_extendsType stops rfl)).step (.pure trivial rfl))
  · show Reads limit True timeZone depth
      (.keyword .WITHOUT :: .keyword .TIME :: .keyword .ZONE :: rest) (· = some false) depth rest
    exact (takeWord_no (by simp)).step ((takeWord_yes .WITHOUT).step (ends false))
  · exact (takeWord_yes .WITH).step (ends true)

theorem largeObject_reads :
    Reads limit True takeLargeObject depth (.keyword .LARGE :: .keyword .OBJECT :: rest)
      (· = true) depth rest :=
  (takeWord_yes .LARGE).step ((expectWord_reads .OBJECT).step (.pure trivial rfl))

theorem expectCharacter_reads :
    Reads limit True expectCharacter depth (.keyword .CHARACTER :: rest) (· = ()) depth rest :=
  (takeWord_no (by simp)).step (expectWord_reads .CHARACTER)

theorem noLargeObject_reads (stops : lead rest ≠ .keyword .LARGE) :
    Reads limit True takeLargeObject depth rest (· = false) depth rest :=
  (takeWord_no stops).step (.pure trivial rfl)

/-! ## Base types -/

section

variable {type : Parse DataType} {good : DataType → Prop} {kinds : List Kind}

/-- A type that begins with a keyword is read by what the keyword begins. -/
theorem baseType_of_word {word : Keyword} {after : Parse DataType}
    (begins : typeAfter? type word = some after)
    (reads : Reads limit True after depth kinds good depth rest) :
    Reads limit True (baseType type) depth (.keyword word :: kinds) good depth rest := by
  refine word?_looks.reads.step ?_
  simp only [lead_cons, Kind.word?, begins]
  exact advance_reads.after fun _ _ => reads

/-- A length does not begin with a word. -/
theorem lead_ofCharLength_ne {length : Option CharLength} {word : Keyword}
    (stops : lead rest ≠ .keyword word) :
    lead (Piece.kinds (Canonical.ofCharLength length) ++ rest) ≠ .keyword word := by
  rcases length with _ | ⟨length, unit⟩
  · exact stops
  · simp [Canonical.ofCharLength]

theorem lead_ofLength_ne {length : Option Nat} {word : Keyword}
    (stops : lead rest ≠ .keyword word) :
    lead (Piece.kinds (Canonical.ofLength length) ++ rest) ≠ .keyword word := by
  cases length with
  | none => exact stops
  | some length => simp [Canonical.ofLength]

theorem lead_ofTimeZone_ne (zone : Option Bool) {symbol : Symbol}
    (stops : lead rest ≠ .symbol symbol) :
    lead (Piece.kinds (Canonical.ofTimeZone zone) ++ rest) ≠ .symbol symbol := by
  rcases zone with _ | _ | _
  · exact stops
  · simp [Canonical.ofTimeZone]
  · simp [Canonical.ofTimeZone]

section

variable (nationalSet : Bool) (length : Option CharLength)
  (stops : (lead rest).extendsType = false)

include stops

theorem fixedCharacters_reads :
    Reads limit True (characterType nationalSet) depth
      (Piece.kinds (Canonical.ofCharLength length) ++ rest)
      (· = if nationalSet then .nationalChar length else .char length) depth rest := by
  refine (takeWord_no (lead_ofCharLength_ne (Kind.ne_of_extendsType stops rfl))).step ?_
  refine (noLargeObject_reads (lead_ofCharLength_ne (Kind.ne_of_extendsType stops rfl))).step ?_
  refine (charLength_reads length (Kind.ne_of_extendsType stops rfl)).step ?_
  cases nationalSet <;> exact .pure trivial rfl

theorem varyingCharacters_reads :
    Reads limit True (characterType nationalSet) depth
      (.keyword .VARYING :: (Piece.kinds (Canonical.ofCharLength length) ++ rest))
      (· = if nationalSet then .nationalVarChar length else .varChar length) depth rest := by
  refine (takeWord_yes .VARYING).step ((charLength_reads length (Kind.ne_of_extendsType stops rfl)).step ?_)
  cases nationalSet <;> exact .pure trivial rfl

theorem largeCharacters_reads :
    Reads limit True (characterType nationalSet) depth
      (.keyword .LARGE :: .keyword .OBJECT ::
        (Piece.kinds (Canonical.ofCharLength length) ++ rest))
      (· = if nationalSet then .nationalClob length else .clob length) depth rest := by
  refine (takeWord_no (by simp)).step (largeObject_reads.step ?_)
  refine (charLength_reads length (Kind.ne_of_extendsType stops rfl)).step ?_
  cases nationalSet <;> exact .pure trivial rfl

end

theorem referenceType_reads (target : QualifiedName) (scope : Option QualifiedName)
    (stops : (lead rest).extendsType = false) :
    Reads limit True referenceType depth
      (.symbol .leftParen :: (Piece.kinds (Piece.qualified target) ++ .symbol .rightParen ::
        (Piece.kinds (Canonical.ofScope scope) ++ rest)))
      (· = .reference target scope) depth rest := by
  refine (qualifiedName_reads target (by simp)).parenthesized.step ?_
  cases scope with
  | none => exact (takeWord_no (Kind.ne_of_extendsType stops rfl)).step (.pure trivial rfl)
  | some scope =>
    refine (takeWord_yes .SCOPE).step ?_
    exact (qualifiedName_reads scope (Kind.ne_of_extendsType stops rfl)).step (.pure trivial rfl)

/-- The precision of a time and its zone, behind `TIME` or `TIMESTAMP`. -/
theorem timeType_reads {make : Option Nat → Option Bool → DataType} (precision : Option Nat)
    (zone : Option Bool) (stops : (lead rest).extendsType = false) :
    Reads limit True (do return make (← optionalLength) (← timeZone)) depth
      (Piece.kinds (Canonical.ofLength precision) ++
        (Piece.kinds (Canonical.ofTimeZone zone) ++ rest))
      (· = make precision zone) depth rest := by
  have noLength : lead (Piece.kinds (Canonical.ofTimeZone zone) ++ rest) ≠ .symbol .leftParen :=
    lead_ofTimeZone_ne zone (Kind.ne_of_extendsType stops rfl)
  exact (optionalLength_reads precision noLength).step
    ((timeZone_reads zone stops).step (.pure trivial rfl))

/-- The fields of a row type, if the type of each is read back where a field may end. -/
theorem rowType_reads {members : List (Name × DataType)} (nonempty : members ≠ [])
    (fields : ∀ {rest}, ∀ field ∈ members, (lead rest).extendsType = false →
      (lead rest).isSuffix = false →
        Reads limit True type depth (field.2.tokens ++ rest) (· = field.2) depth rest) :
    Reads limit True (do return DataType.row (← parenthesized (commaSeparated (rowField type)))) depth
      (.symbol .leftParen :: (Piece.kinds (Piece.commaSeparated (members.map fun field =>
        Piece.name field.1 :: Piece.after (Canonical.ofDataType field.2))) ++
        .symbol .rightParen :: rest))
      (· = DataType.row members) depth rest := by
  have items : Reads limit (∀ field ∈ members, True) (commaSeparated (rowField type)) depth
      (Piece.kinds (Piece.commaSeparated (members.map fun field =>
        Piece.name field.1 :: Piece.after (Canonical.ofDataType field.2))) ++
        .symbol .rightParen :: rest) (fun them => them.map id = members.map id) depth
      (.symbol .rightParen :: rest) := by
    refine Reads.list nonempty (by simp) fun field member more after => ?_
    have read := fields field member (test_after_item after rfl rfl) (test_after_item after rfl rfl)
    exact (identifier_reads field.1).step (read.step (.pure trivial rfl))
  refine items.parenthesized.bind (fun _ _ _ => trivial) fun _ them same => .pure trivial ?_
  rw [List.map_id, List.map_id] at same
  rw [same]

/-- A type without suffixes is read back if the fields of rows are. -/
theorem baseType_reads {base : DataType} (formed : base.Formed) (isBase : base.suffixes = 0)
    (fields : ∀ {fields rest}, base = .row fields → ∀ field ∈ fields,
      (lead rest).extendsType = false → (lead rest).isSuffix = false →
        Reads limit True type depth (field.2.tokens ++ rest) (· = field.2) depth rest)
    (stops : (lead rest).extendsType = false) :
    Reads limit True (baseType type) depth (base.tokens ++ rest) (· = base) depth rest := by
  cases base with
  | numeric precision scale | decimal precision scale =>
    exact baseType_of_word rfl ((precisionScale_reads formed (Kind.ne_of_extendsType stops rfl)).step (.pure trivial rfl))
  | smallInt | integer | bigInt | real | boolean | date =>
    exact baseType_of_word rfl (.pure trivial rfl)
  | doublePrecision =>
    exact baseType_of_word rfl ((expectWord_reads .PRECISION).step (.pure trivial rfl))
  | float length =>
    exact baseType_of_word rfl ((optionalLength_reads length (Kind.ne_of_extendsType stops rfl)).step (.pure trivial rfl))
  | binary length =>
    refine baseType_of_word rfl ?_
    refine (takeWord_no (lead_ofLength_ne (Kind.ne_of_extendsType stops rfl))).step ?_
    refine (noLargeObject_reads (lead_ofLength_ne (Kind.ne_of_extendsType stops rfl))).step ?_
    exact (optionalLength_reads length (Kind.ne_of_extendsType stops rfl)).step (.pure trivial rfl)
  | varBinary length =>
    refine baseType_of_word rfl ((takeWord_yes .VARYING).step ?_)
    exact (optionalLength_reads length (Kind.ne_of_extendsType stops rfl)).step (.pure trivial rfl)
  | blob length =>
    have large : Reads limit True binaryType depth (.keyword .LARGE :: .keyword .OBJECT ::
        (Piece.kinds (Canonical.ofLength length) ++ rest)) (· = .blob length) depth rest := by
      refine (takeWord_no (by simp)).step (largeObject_reads.step ?_)
      exact (optionalLength_reads length (Kind.ne_of_extendsType stops rfl)).step
        (.pure trivial rfl)
    exact baseType_of_word rfl large
  | char length => exact baseType_of_word rfl (fixedCharacters_reads false length stops)
  | varChar length => exact baseType_of_word rfl (varyingCharacters_reads false length stops)
  | clob length => exact baseType_of_word rfl (largeCharacters_reads false length stops)
  | nationalChar length =>
    exact baseType_of_word rfl (expectCharacter_reads.step
      (fixedCharacters_reads true length stops))
  | nationalVarChar length =>
    exact baseType_of_word rfl (expectCharacter_reads.step
      (varyingCharacters_reads true length stops))
  | nationalClob length =>
    exact baseType_of_word rfl (expectCharacter_reads.step
      (largeCharacters_reads true length stops))
  | time precision zone =>
    have text : (DataType.time precision zone).tokens ++ rest = .keyword .TIME ::
        (Piece.kinds (Canonical.ofLength precision) ++
          (Piece.kinds (Canonical.ofTimeZone zone) ++ rest)) := by
      simp [DataType.tokens, Canonical.ofDataType]
    rw [text]
    exact baseType_of_word rfl (timeType_reads precision zone stops)
  | timestamp precision zone =>
    have text : (DataType.timestamp precision zone).tokens ++ rest = .keyword .TIMESTAMP ::
        (Piece.kinds (Canonical.ofLength precision) ++
          (Piece.kinds (Canonical.ofTimeZone zone) ++ rest)) := by
      simp [DataType.tokens, Canonical.ofDataType]
    rw [text]
    exact baseType_of_word rfl (timeType_reads precision zone stops)
  | named name =>
    obtain ⟨part, more, text⟩ := Piece.lead_qualified name rest
    have noWord : (lead ((DataType.named name).tokens ++ rest)).word? = none := by
      simp only [DataType.tokens, Canonical.ofDataType, text]
      rfl
    refine word?_looks.reads.step ?_
    simp only [noWord]
    exact (qualifiedName_reads name (Kind.ne_of_extendsType stops rfl)).step (.pure trivial rfl)
  | row members =>
    have text : (DataType.row members).tokens ++ rest = .keyword .ROW :: .symbol .leftParen ::
        (Piece.kinds (Piece.commaSeparated (members.map fun field =>
          Piece.name field.1 :: Piece.after (Canonical.ofDataType field.2))) ++
          .symbol .rightParen :: rest) := by
      simp [DataType.tokens, Canonical.ofDataType, Canonical.ofFields_eq_map]
    rw [text]
    exact baseType_of_word rfl (rowType_reads formed.1 (fields rfl))
  | reference target scope =>
    have text : (DataType.reference target scope).tokens ++ rest = .keyword .REF ::
        .symbol .leftParen :: (Piece.kinds (Piece.qualified target) ++ .symbol .rightParen ::
          (Piece.kinds (Canonical.ofScope scope) ++ rest)) := by
      simp [DataType.tokens, Canonical.ofDataType]
    rw [text]
    exact baseType_of_word rfl (referenceType_reads target scope stops)
  | array element maxCardinality => cases isBase
  | multiset element => cases isBase

end

/-! ## Suffixes -/

/-- What suffixes begin with does not go on with a base type. -/
theorem extendsType_suffixTokens (type : DataType) (stops : (lead rest).extendsType = false) :
    (lead (type.suffixTokens ++ rest)).extendsType = false := by
  fun_induction DataType.suffixTokens type generalizing rest with
  | case1 element maxCardinality ih =>
    rw [List.append_assoc]
    exact ih rfl
  | case2 element ih =>
    rw [List.append_assoc]
    exact ih rfl
  | case3 type noArray noMultiset => exact stops

/-- The suffixes of a type are added to its base one by one. The induction is on the type,
whose last suffix is the last one that is read; what follows the type is read from there. -/
theorem suffixes_loop {base : DataType} {good : DataType × Nat → Prop} {after : Nat}
    {more : List Kind} (type : DataType) (same : type.base = base)
    (room : depth + type.levels ≤ capOf limit) (stops : (lead rest).extendsType = false)
    (next : Loops limit True typeSuffix (type, type.suffixes) (depth + type.suffixes) rest good
      after more) :
    Loops limit True typeSuffix (base, 0) depth (type.suffixTokens ++ rest) good after more := by
  fun_induction DataType.suffixTokens type generalizing rest with
  | case1 element maxCardinality ih =>
    rw [List.append_assoc]
    simp only [DataType.levels] at room
    have round : Reads limit True (typeSuffix (element, element.suffixes))
        (depth + element.suffixes)
        (.keyword .ARRAY :: (Piece.kinds (Canonical.ofCardinality maxCardinality) ++ rest))
        (fun next => ∃ v, next = some v ∧ v = (.array element maxCardinality,
          element.suffixes + 1))
        (depth + element.suffixes + 1) rest := by
      refine (takeWord_yes .ARRAY).step ?_
      refine (maxCardinality_reads _ (Kind.ne_of_extendsType stops rfl)).step ?_
      exact (enter_reads (by omega)).step (.pure trivial ⟨_, rfl, rfl⟩)
    -- the suffixes of the element are read first, and this one in the round behind them
    refine ih same (by omega) rfl (.next round id ?_ ?_)
    · simp only [List.length_cons, List.length_append]
      omega
    · rintro - v rfl
      exact next
  | case2 element ih =>
    rw [List.append_assoc]
    simp only [DataType.levels] at room
    have round : Reads limit True (typeSuffix (element, element.suffixes))
        (depth + element.suffixes) (.keyword .MULTISET :: rest)
        (fun next => ∃ v, next = some v ∧ v = (.multiset element, element.suffixes + 1))
        (depth + element.suffixes + 1) rest := by
      refine (takeWord_no (by simp)).step ((takeWord_yes .MULTISET).step ?_)
      exact (enter_reads (by omega)).step (.pure trivial ⟨_, rfl, rfl⟩)
    refine ih same (by omega) rfl (.next round id ?_ ?_)
    · simp
    · rintro - v rfl
      exact next
  | case3 type noArray noMultiset =>
    have isBase : type.base = type := by simp [DataType.base]
    have noSuffix := type.suffixes_base
    rw [isBase] at same noSuffix
    rw [noSuffix, same] at next
    exact next

/-! ## Whole types -/

/-- A type is read back within a bound that its text fits into. -/
theorem dataTypeWithin_reads (bound : Nat) {type : DataType} {depth : Nat} {rest : List Kind}
    (formed : type.Formed) (fits : type.tokens.length < bound)
    (room : depth + type.levels ≤ capOf limit) (stops : (lead rest).extendsType = false)
    (noSuffix : (lead rest).isSuffix = false) :
    Reads limit True (dataTypeWithin bound) depth (type.tokens ++ rest) (· = type) depth rest := by
  induction bound generalizing type depth rest with
  | zero => omega
  | succ bound ih =>
    have text := type.tokens_eq
    have higher := type.levels_base_le
    have some := type.levels_pos
    have shorter := congrArg List.length text
    rw [List.length_append] at shorter
    rw [text, List.append_assoc]
    have base : Reads limit True (baseType (dataTypeWithin bound)) (depth + 1)
        (type.base.tokens ++ (type.suffixTokens ++ rest)) (· = type.base) (depth + 1)
        (type.suffixTokens ++ rest) := by
      refine baseType_reads (DataType.formed_base formed) type.suffixes_base ?_
        (extendsType_suffixTokens type stops)
      -- a field is shorter than its row and one level below it at least
      intro fields more isRow field member fieldStops fieldNoSuffix
      have fieldsFormed : (DataType.row fields).Formed := isRow ▸ DataType.formed_base formed
      have inner : field.2.tokens.length + 2 ≤ type.base.tokens.length := by
        rw [isRow]
        have least := Piece.length_item_le (fun field : Name × DataType =>
          Piece.name field.1 :: Piece.after (Canonical.ofDataType field.2)) member
        simp [DataType.tokens, Canonical.ofDataType, Canonical.ofFields_eq_map] at least ⊢
        omega
      have lower : field.2.levels + 1 ≤ type.base.levels := by
        rw [isRow]
        have least := DataType.levels_le_fieldLevels member
        simp only [DataType.levels]
        omega
      exact ih (DataType.fieldsFormed_iff.mp fieldsFormed.2 field member).2 (by omega) (by omega)
        fieldStops fieldNoSuffix
    refine (Reads.nested (by omega) base).step ?_
    refine (suffixes_loop type rfl room stops (.stop ?_ trivial rfl) :
      Loops limit True typeSuffix (type.base, 0) depth (type.suffixTokens ++ rest)
        (· = (type, type.suffixes)) (depth + type.suffixes) rest).loop.step ?_
    · refine (takeWord_no (Kind.ne_of_isSuffix noSuffix rfl)).step ?_
      exact (takeWord_no (Kind.ne_of_isSuffix noSuffix rfl)).step (.pure trivial rfl)
    · exact (leave_reads _).step (.pure trivial rfl)

/-- Each data type is read back from its canonical text. -/
theorem dataType_reads {type : DataType} (formed : type.Formed)
    (room : depth + type.levels ≤ capOf limit) (stops : (lead rest).extendsType = false)
    (noSuffix : (lead rest).isSuffix = false) :
    Reads limit True dataType depth (type.tokens ++ rest) (· = type) depth rest := by
  have within (s : State) (shows : s.Shows limit depth (type.tokens ++ rest)) :
      Reads limit True (dataTypeWithin (s.ahead.length + 2)) depth (type.tokens ++ rest)
        (· = type) depth rest := by
    refine dataTypeWithin_reads _ formed ?_ room stops noSuffix
    rw [shows.ahead_length, List.length_append]
    omega
  exact ⟨fun s a s' shows run => (within s shows).ok s a s' shows run,
    fun s failure s' shows run => (within s shows).error s failure s' shows run⟩

end Parse

end CanonicalSql
