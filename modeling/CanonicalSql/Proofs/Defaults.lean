import CanonicalSql.Proofs.Columns

/-!
# Expressions as default values

A default value is the expression that its text is alone, and `NULL` alone is the null default.
`NULL` and an operator behind it begin an expression, but for the predicates, which are not looked
for: behind them the null default ends, and no column goes on (`Statement.parse_default`).
-/
namespace CanonicalSql

namespace Parse

variable {row : List Kind} {expr : Expr}

theorem leading_user {limit depth : Nat} {phrases : Phrases} {word : Keyword} {user : UserKind}
    (isUser : userKind? word = some user) (kinds : List Kind) :
    Reads limit False (leading phrases) depth (.keyword word :: kinds) (fun _ => False) depth
      (.keyword word :: kinds) := by
  refine .still here_still fun start => kind_reads.step ?_
  unfold userKind? at isUser
  split at isUser
  case h_4 => cases isUser
  all_goals
    exact .still here_still fun _ => kind_reads.step (.still here_still fun _ =>
      unexpected_reads id _)

/-- No expression begins with a user. -/
theorem Takes.noUser (takes : Takes wholeExpression row expr) :
    (lead row).word?.bind userKind? = none := by
  cases isUser : (lead row).word?.bind userKind? with
  | none => rfl
  | some user =>
    obtain ⟨word, isWord, isKind⟩ := Option.bind_eq_some_iff.mp isUser
    obtain ⟨left, rfl⟩ := eq_cons_of_lead (Kind.eq_of_word? isWord) (by simp)
    obtain ⟨start, operand⟩ := takes.within.nested.still here_still
    obtain ⟨s, t, ⟨limit, depth, shows⟩, -, run⟩ := operand
    exact (((leading_user isKind left).refused id : Reads limit False _ depth _ (fun _ => False)
      depth (.keyword word :: left)).ok s _ t shows run).1.elim

/-- What stands behind `NULL` in an expression is an operator. -/
theorem Takes.afterNull {left : List Kind}
    (takes : Takes wholeExpression (.keyword .NULL :: left) expr) :
    left = [] ∨ (Power.ahead left).isSome = true := by
  obtain ⟨start, operand⟩ := takes.within.nested.still here_still
  have first {phrases : Phrases} (limit depth : Nat) :
      Reads limit True (leading phrases) depth (.keyword .NULL :: left) (fun _ => True) depth left :=
    .still here_still fun _ => kind_reads.step <| .still here_still fun _ => kind_reads.step <|
      .still here_still fun _ => advance_reads.after fun _ _ => .pure trivial trivial
  obtain ⟨found, -, others⟩ := operand.after first
  cases isAhead : Power.ahead left with
  | some power => exact .inr rfl
  | none =>
    have weak (power : Power) (isPower : Power.ahead left = some power) : power.left < 0 := by
      rw [isAhead] at isPower
      cases isPower
    exact .inl (others.of_reads fun limit depth => operators_none weak found start).2

/-- Whether the tokens begin with `NULL` and a predicate, which no default value goes on with. -/
def beginsNullPredicate : List Kind → Bool
  | .keyword .NULL :: .keyword .NOT :: _ | .keyword .NULL :: .keyword .BETWEEN :: _
  | .keyword .NULL :: .keyword .IN :: _ | .keyword .NULL :: .keyword .LIKE :: _ => true
  | _ => false

theorem eq_of_beginsNullPredicate (begins : beginsNullPredicate row = true) :
    ∃ word left, row = .keyword .NULL :: .keyword word :: left ∧
      (word = .NOT ∨ word = .BETWEEN ∨ word = .IN ∨ word = .LIKE) := by
  unfold beginsNullPredicate at begins
  split at begins
  case h_5 => cases begins
  all_goals exact ⟨_, _, rfl, by simp⟩

/-- Any other operator behind `NULL` makes it the beginning of a longer default value. -/
theorem continuesDefault_of_ahead {left : List Kind} (isAhead : (Power.ahead left).isSome = true)
    (noPredicate : beginsNullPredicate (.keyword .NULL :: left) = false)
    (noCollate : lead left ≠ .keyword .COLLATE) : continuesDefault (lead left) = true := by
  cases left with
  | nil => cases isAhead
  | cons kind left =>
    rw [lead_cons] at noCollate ⊢
    unfold Power.ahead at isAhead
    rw [lead_cons] at isAhead
    split at isAhead
    · next isNot =>
      subst isNot
      cases noPredicate
    · unfold Power.ofKind? at isAhead
      split at isAhead
      all_goals first | rfl | exact absurd rfl noCollate | cases noPredicate | cases isAhead

/-- A text that is read alone as an expression is read alone as a default value, but for the
predicates on `NULL`. -/
theorem Alone.columnDefault {text : String} (alone : Alone wholeExpression text expr)
    (noPredicate : beginsNullPredicate (Lexer.kindsOf text) = false)
    (noCollate : ∀ more, Lexer.kindsOf text ≠ .keyword .NULL :: .keyword .COLLATE :: more)
    (holds : text.utf8ByteSize < 2 ^ 63) :
    ∃ value, Alone columnDefault text value ∧ value.erase =
      if Lexer.kindsOf text = [.keyword .NULL] then .null else .expr expr.erase := by
  have splits := alone.spaced_kindsOf.splits
  have takes := alone.takes [] wholeExpression_again
  have room := room_of_length splits holds ((Lexer.kindsOf text).length + 1) (by omega)
  suffices reads : Reads ((Lexer.kindsOf text).length + 1) True Parse.columnDefault 0
      (Lexer.kindsOf text) (fun value => value.erase =
        if Lexer.kindsOf text = [.keyword .NULL] then .null else .expr expr.erase) 0 [] by
    obtain ⟨value, same, isDefault⟩ := alone.of_reads reads
    exact ⟨value, isDefault, same⟩
  generalize Lexer.kindsOf text = row at noPredicate noCollate takes room ⊢
  -- the rule takes `NULL` for a default of its own unless something follows that can go on with
  -- it
  rcases Classical.em (row = [.keyword .NULL]) with rfl | longer
  · refine word?_looks.reads.step ((atWordBefore_yes rfl).step ?_)
    exact advance_reads.after fun _ _ => .pure trivial rfl
  · rw [if_neg longer]
    suffices goesOn : lead row = .keyword .NULL → continuesDefault (lead (row.drop 1)) = true by
      have few : 0 + (2 * row.length + 1) ≤ capOf (row.length + 1) := by omega
      have closes : Closes 0 [] := ⟨.of_quiet rfl, by simp⟩
      have reads := columnDefault_expr takes takes.noUser goesOn closes rfl few
      rwa [List.append_nil] at reads
    intro isNull
    obtain ⟨left, rfl⟩ := eq_cons_of_lead isNull (by simp)
    have goesOn := takes.afterNull.resolve_left fun none => longer (by rw [none])
    refine continuesDefault_of_ahead goesOn noPredicate fun isCollate => ?_
    obtain ⟨more, rfl⟩ := eq_cons_of_lead isCollate (by simp)
    exact noCollate more rfl

/-- The column `c` with a null default, behind which other clauses are looked for. -/
theorem columnDef_null {limit : Nat} {accepts : Prop} {word : Keyword} {left rest : List Kind}
    (ends : continuesDefault (.keyword word) = false) (room : 3 ≤ capOf limit)
    (others : ∀ column : ColumnDef, Loops limit accepts columnClause column 0 (.keyword word :: left)
      (fun _ => True) 0 rest) :
    Reads limit accepts columnDef 0 (.identifier "c" :: .keyword .INT :: .keyword .DEFAULT ::
      .keyword .NULL :: .keyword word :: left) (fun _ => True) 0 rest := by
  have begins : BeginsClause (.keyword .DEFAULT :: .keyword .NULL :: .keyword word :: left) := .inl rfl
  have isType : Takes dataType [.keyword .INT] .integer := by
    obtain ⟨type, alone, isInteger⟩ := exists_alone dataType 1 "INT" DataType.integer.same
      (by decide +kernel)
    obtain rfl := (DataType.same_iff _ _).mp isInteger
    have takes := alone.takes [] (dataType_repeats _)
    have splits : Scan.Splits "INT".toList [.keyword .INT] :=
      (Scan.spaced_of_spaced? 4 (by decide +kernel)).splits
    rwa [Lexer.kindsOf_eq splits] at takes
  have typed : Reads limit True dataType 0 (.keyword .INT :: .keyword .DEFAULT :: .keyword .NULL ::
      .keyword word :: left) (.integer = ·) 0 (.keyword .DEFAULT :: .keyword .NULL ::
      .keyword word :: left) :=
    (dataType_repeats _).reads isType begins.endsType begins.apart (by simpa using room)
  have null : Reads limit True columnDefault 0 (.keyword .NULL :: .keyword word :: left) (· = .null) 0
      (.keyword word :: left) :=
    word?_looks.reads.step <| (atWordBefore_yes (by simp [ends])).step <|
      advance_reads.after fun _ _ => .pure trivial rfl
  refine .still here_still fun start => (identifier_reads _).step ?_
  refine typed.after fun type _ => ?_
  suffices loops : Loops limit accepts columnClause { name := "c", dataType := type } 0
      (.keyword .DEFAULT :: .keyword .NULL :: .keyword word :: left) (fun _ => True) 0 rest from
    loops.loop.bind id fun holds _ _ => .still (spanFrom_still _) fun _ => .pure holds trivial
  have round : Reads limit True (columnClause { name := "c", dataType := type }) 0
      (.keyword .DEFAULT :: .keyword .NULL :: .keyword word :: left)
      (fun next => ∃ column, next = some column ∧ True) 0 (.keyword word :: left) :=
    word?_looks.reads.step <| advance_reads.after fun _ _ => null.after fun _ _ =>
      .pure trivial ⟨_, rfl, trivial⟩
  exact .next round (fun _ => trivial) (by simp) fun _ column _ => others column

/-- A null default ends before a predicate, with which no column goes on. -/
theorem nullPredicate_refuses {limit : Nat} {left : List Kind} {word : Keyword} (isPredicate : word = .NOT ∧ isNegatable (lead left) = true ∨
      word = .BETWEEN ∨ word = .IN ∨ word = .LIKE) (room : 3 ≤ capOf limit) :
    Reads limit False (parenthesized (commaSeparated tableElement)) 0
      (.symbol .leftParen :: .identifier "c" :: .keyword .INT :: .keyword .DEFAULT ::
        .keyword .NULL :: .keyword word :: left) (fun _ => False) 0 [] := by
  refine (expectSign_reads _).step ?_
  rcases isPredicate with ⟨rfl, negatable⟩ | others
  · -- `NOT` is taken for the beginning of `NOT NULL`.
    have noNull : lead left ≠ .keyword .NULL := by
      intro isNull
      rw [isNull] at negatable
      cases negatable
    have refused (column : ColumnDef) : Loops limit False columnClause column 0
        (.keyword .NOT :: left) (fun _ => True) 0 (.keyword .NOT :: left) := by
      refine .refused (word?_looks.reads.step (Reads.refused ?_ id)) id
      refine .still here_still fun start => (constraintName_none (by simp)).step ?_
      refine .refused (word?_looks.reads.step ?_) id
      exact advance_reads.after fun _ _ => .refused (expectWord_refuses id noNull) id
    have column := tableElement_column rfl (columnDef_null rfl room refused)
    exact .refused (column.bind id fun holds => holds.elim) id
  · have stops (column : ColumnDef) : Loops limit True columnClause column 0
        (.keyword word :: left) (fun _ => True) 0 (.keyword word :: left) := by
      refine .stop (word?_looks.reads.step ?_) trivial trivial
      rcases others with rfl | rfl | rfl <;> exact .pure trivial rfl
    have ends : continuesDefault (.keyword word) = false := by
      rcases others with rfl | rfl | rfl <;> rfl
    have column := tableElement_column rfl (columnDef_null ends room stops)
    exact (column.single (by simp)).after fun _ _ => .refused (expectSign_refuses id (by simp)) id

end Parse

namespace Statement

/-- The text of a table with a default value. -/
def defaultText (text : String) : String := "CREATE TABLE t (c INT DEFAULT " ++ text ++ ")"

theorem defaultText_eq (text : String) (value : ColumnDefault) :
    columnText "c" "INT" [.default text value] = defaultText text := by
  rw [← String.toList_inj]
  unfold columnText defaultText ColumnClause.texts ColumnClause.text
  simp

/-- The column with a default value. -/
def defaultColumn (value : ColumnDefault) : ColumnDef where
  name := "c"
  dataType := .integer
  default := some value

theorem size_le_defaultText (text : String) :
    text.utf8ByteSize ≤ (defaultText text).utf8ByteSize := by
  unfold defaultText
  rw [String.utf8ByteSize_append, String.utf8ByteSize_append]
  exact (Nat.le_add_left _ _).trans (Nat.le_add_right _ _)

theorem splits_defaultText {text : String} {kinds : List Kind}
    (spaced : Scan.Spaced text.toList kinds) :
    Scan.Splits (defaultText text).toList ([.keyword .CREATE, .keyword .TABLE, .identifier "t",
      .symbol .leftParen, .identifier "c", .keyword .INT, .keyword .DEFAULT] ++
        (kinds ++ [.symbol .rightParen])) := by
  have opening : Scan.Spaced "CREATE TABLE t (c INT DEFAULT".toList [.keyword .CREATE,
      .keyword .TABLE, .identifier "t", .symbol .leftParen, .identifier "c", .keyword .INT,
      .keyword .DEFAULT] := Scan.spaced_of_spaced? 30 (by decide +kernel)
  have nothing : Scan.Splits [] [] := .done rfl
  have whole := opening.before (spaced.closed nothing)
  have isText : (defaultText text).toList =
      "CREATE TABLE t (c INT DEFAULT".toList ++ ' ' :: (text.toList ++ [')']) := by
    unfold defaultText
    simp only [String.toList_append, String.reduceToList, List.cons_append, List.nil_append]
  rwa [isText]

/-- A predicate on `NULL` is refused as a default value. -/
theorem parse_default_nullPredicate {text : String} {expr : Expr}
    (alone : Parse.Alone Parse.wholeExpression text expr)
    (predicate : Parse.beginsNullPredicate (Lexer.kindsOf text) = true)
    (holds : (defaultText text).utf8ByteSize < 2 ^ 63) :
    ∃ least, ∀ limit ≥ least, ∃ failure, parse limit (defaultText text) = .error failure := by
  have splits := splits_defaultText alone.spaced_kindsOf
  have takes := alone.takes [] Parse.wholeExpression_again
  obtain ⟨word, left, isRow, isWord⟩ := Parse.eq_of_beginsNullPredicate predicate
  rw [isRow] at splits takes
  have isPredicate :
      word = .NOT ∧ Parse.isNegatable (lead (left ++ [Kind.symbol .rightParen])) = true ∨
      word = .BETWEEN ∨ word = .IN ∨ word = .LIKE := by
    refine isWord.imp_left fun isNot => ⟨isNot, ?_⟩
    subst isNot
    have negatable : Parse.isNegatable (lead left) = true := by
      simpa [Power.ahead] using takes.afterNull.resolve_left (by simp)
    have opens : left ≠ [] := by
      rintro rfl
      cases negatable
    rwa [lead_append_of_ne_nil opens]
  refine ⟨(Lexer.kindsOf (defaultText text)).length + 1, fun limit enough => ?_⟩
  rw [Lexer.kindsOf_eq splits] at enough
  have room := room_of_length splits holds limit (by omega)
  have few : 3 ≤ capOf limit := by
    simp only [List.length_append, List.length_cons] at room
    omega
  have bare := Parse.bareStatement_elements (Parse.nullPredicate_refuses isPredicate few)
  obtain ⟨failure, refused, -⟩ := parse_of_refused splits bare
  exact ⟨failure, refused⟩

/-- A default value is the expression that its text is alone, and `NULL` alone is the null default.
A predicate on `NULL` is refused. -/
theorem parse_default {text : String} {expr : Expr}
    (alone : Parse.Alone Parse.wholeExpression text expr)
    (noCollate : ∀ more, Lexer.kindsOf text ≠ .keyword .NULL :: .keyword .COLLATE :: more)
    (holds : (defaultText text).utf8ByteSize < 2 ^ 63) :
    ∃ least, ∀ limit ≥ least,
      if Parse.beginsNullPredicate (Lexer.kindsOf text) then
        ∃ failure, parse limit (defaultText text) = .error failure
      else
        ∃ definition column, parse limit (defaultText text) = .ok (.create definition) ∧
          definition.columns = [column] ∧
          column.alike (defaultColumn
            (if Lexer.kindsOf text = [.keyword .NULL] then .null else .expr expr)) = true := by
  split
  · next predicate => exact parse_default_nullPredicate alone predicate holds
  · next noPredicate =>
    obtain ⟨type, isType, isInteger⟩ := Parse.exists_alone Parse.dataType 1 "INT"
      DataType.integer.same (by decide +kernel)
    obtain rfl := (DataType.same_iff _ _).mp isInteger
    obtain ⟨value, isDefault, same⟩ := alone.columnDefault (by simpa using noPredicate) noCollate
      (Nat.lt_of_le_of_lt (size_le_defaultText text) holds)
    rw [← defaultText_eq text value] at holds ⊢
    have read : ∀ clause ∈ [ColumnClause.default text value], clause.IsRead :=
      List.forall_mem_singleton.mpr isDefault
    obtain ⟨least, reads⟩ := parse_column isName_c isType read
      ⟨Nat.le_refl 1, Nat.zero_le 1, .singleton _⟩ holds
    refine ⟨least, fun limit enough => ?_⟩
    obtain ⟨definition, column, parsed, columns, alike⟩ := reads limit enough
    refine ⟨definition, column, parsed, columns, ?_⟩
    rw [ColumnDef.alike_iff] at alike ⊢
    rw [alike]
    simp only [ColumnDef.erase, ColumnDef.ofClauses, defaultColumn, List.filterMap_cons,
      List.filterMap_nil, ColumnClause.default?, ColumnClause.collation?, ColumnClause.constraint?,
      List.head?_cons, List.head?_nil, Option.map_some, same]
    split <;> rfl

/-- A sum with `NULL` is an expression. -/
theorem parse_default_sum :
    ∃ expr, Parse.Alone Parse.wholeExpression "NULL + 1" expr ∧
      ∃ least, ∀ limit ≥ least, ∃ definition column,
        parse limit "CREATE TABLE t (c INT DEFAULT NULL + 1)" = .ok (.create definition) ∧
          definition.columns = [column] ∧ column.alike (defaultColumn (.expr expr)) = true := by
  obtain ⟨expr, alone, -⟩ := Parse.exists_alone Parse.wholeExpression 4 "NULL + 1" (fun _ => true)
    (by decide +kernel)
  have splits : Scan.Splits "NULL + 1".toList
      [.keyword .NULL, .symbol .plus, .integer 1] :=
    (Scan.spaced_of_spaced? 9 (by decide +kernel)).splits
  have read := parse_default alone (by simp [Lexer.kindsOf_eq splits]) (by decide +kernel)
  have isText : defaultText "NULL + 1" = "CREATE TABLE t (c INT DEFAULT NULL + 1)" := by
    decide +kernel
  rw [Lexer.kindsOf_eq splits, isText] at read
  exact ⟨expr, alone, read⟩

/-- `NULL BETWEEN 1 AND 2` is an expression but no default value. -/
theorem parse_default_null_between :
    ∃ expr, Parse.Alone Parse.wholeExpression "NULL BETWEEN 1 AND 2" expr ∧
      ∃ least, ∀ limit ≥ least, ∃ failure,
        parse limit "CREATE TABLE t (c INT DEFAULT NULL BETWEEN 1 AND 2)" = .error failure := by
  obtain ⟨expr, alone, -⟩ := Parse.exists_alone Parse.wholeExpression 4 "NULL BETWEEN 1 AND 2"
    (fun _ => true) (by decide +kernel)
  have splits : Scan.Splits "NULL BETWEEN 1 AND 2".toList [.keyword .NULL, .keyword .BETWEEN,
      .integer 1, .keyword .AND, .integer 2] :=
    (Scan.spaced_of_spaced? 21 (by decide +kernel)).splits
  have refused := parse_default_nullPredicate alone (by rw [Lexer.kindsOf_eq splits]; rfl)
    (by decide +kernel)
  have isText : defaultText "NULL BETWEEN 1 AND 2" =
      "CREATE TABLE t (c INT DEFAULT NULL BETWEEN 1 AND 2)" := by decide +kernel
  rw [isText] at refused
  exact ⟨expr, alone, refused⟩

end Statement

end CanonicalSql
