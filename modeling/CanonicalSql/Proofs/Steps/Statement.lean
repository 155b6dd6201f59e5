import CanonicalSql.Grammar.Statement
import CanonicalSql.Proofs.Steps.Query

/-!
# How statements are read

Data types, table definitions and statements are built of basic steps too. Here the tokens that are
left settle how often rules may recur, and nothing else hangs on their number.
-/
namespace CanonicalSql.Parse

/-! ## Data types -/

theorem unsigned_balanced : Balanced unsigned unsigned := by
  apply kind_balanced.bind
  intro kind
  split
  · exact .ite (advance_balanced.andThen (.pure _)) (unexpected_balanced _)
  · exact unexpected_balanced _

theorem optionalLength_balanced : Balanced optionalLength optionalLength :=
  .ifs (atSign_balanced _) ((parenthesized_balanced unsigned_balanced).map _) (.pure _)

theorem charUnit_balanced : Balanced charUnit charUnit :=
  .ifs (takeWord_balanced _) (.pure _) (.ifs (takeWord_balanced _) (.pure _) (.pure _))

theorem charLength_balanced : Balanced charLength charLength := by
  apply Balanced.ifs (atSign_balanced _) _ (.pure _)
  apply parenthesized_balanced
  apply unsigned_balanced.bind
  intro length
  exact charUnit_balanced.map _

theorem scale_balanced : Balanced scale scale :=
  .ifs (takeSign_balanced _) (unsigned_balanced.map _) (.pure _)

theorem precisionScale_balanced : Balanced precisionScale precisionScale := by
  apply Balanced.ifs (atSign_balanced _) _ (.pure _)
  apply parenthesized_balanced
  apply unsigned_balanced.bind
  intro precision
  exact scale_balanced.map _

theorem zoneWords_balanced (zone : Bool) : Balanced (zoneWords zone) (zoneWords zone) :=
  (expectWord_balanced _).andThen ((expectWord_balanced _).andThen (.pure _))

theorem timeZone_balanced : Balanced timeZone timeZone := by
  apply Balanced.ifs (takeWord_balanced _) (zoneWords_balanced true)
  exact .ifs (takeWord_balanced _) (zoneWords_balanced false) (.pure _)

theorem takeLargeObject_balanced : Balanced takeLargeObject takeLargeObject :=
  .ifs (takeWord_balanced _) ((expectWord_balanced _).andThen (.pure _)) (.pure _)

theorem characterType_balanced (nationalSet : Bool) :
    Balanced (characterType nationalSet) (characterType nationalSet) := by
  apply Balanced.ifs (takeWord_balanced _) (charLength_balanced.map _)
  exact .ifs takeLargeObject_balanced (charLength_balanced.map _) (charLength_balanced.map _)

theorem binaryType_balanced : Balanced binaryType binaryType := by
  apply Balanced.ifs (takeWord_balanced _) (optionalLength_balanced.map _)
  exact .ifs takeLargeObject_balanced (optionalLength_balanced.map _)
    (optionalLength_balanced.map _)

theorem expectCharacter_balanced : Balanced expectCharacter expectCharacter :=
  .ifs (takeWord_balanced _) (.pure _) (expectWord_balanced _)

theorem referenceType_balanced : Balanced referenceType referenceType := by
  apply (parenthesized_balanced qualifiedName_balanced).bind
  intro target
  exact .ifs (takeWord_balanced _) (qualifiedName_balanced.map _) (.pure _)

theorem maxCardinality_balanced : Balanced maxCardinality maxCardinality := by
  apply Balanced.ifs (takeSign_balanced _) _ (.pure _)
  apply unsigned_balanced.bind
  intro count
  exact (expectSign_balanced _).andThen (.pure _)

section

variable {type type' : Parse DataType} (fields : Balanced type type')
include fields

theorem rowField_balanced : Balanced (rowField type) (rowField type') := by
  apply identifier_balanced.bind
  intro name
  exact fields.map _

/-- The same keywords begin a type, whatever reads the fields of rows. -/
theorem typeAfter?_balanced (word : Keyword) :
    typeAfter? type word = none ∧ typeAfter? type' word = none ∨
    ∃ rest rest', typeAfter? type word = some rest ∧ typeAfter? type' word = some rest' ∧
      Balanced rest rest' := by
  have zoned (make : Option Nat → Option Bool → DataType) :
      Balanced (do return make (← optionalLength) (← timeZone))
        (do return make (← optionalLength) (← timeZone)) :=
    optionalLength_balanced.bind fun _ => timeZone_balanced.map _
  have row : Balanced (do return DataType.row (← parenthesized (commaSeparated (rowField type))))
      (do return DataType.row (← parenthesized (commaSeparated (rowField type')))) :=
    (parenthesized_balanced (commaSeparated_balanced (rowField_balanced fields))).map _
  unfold typeAfter?
  split
  case h_27 => exact .inl ⟨rfl, rfl⟩
  all_goals
    refine .inr ⟨_, _, rfl, rfl, ?_⟩
    first
    | exact .pure _
    | exact row
    | exact zoned _
    | exact characterType_balanced _
    | exact binaryType_balanced
    | exact referenceType_balanced
    | exact precisionScale_balanced.map _
    | exact optionalLength_balanced.map _
    | exact charLength_balanced.map _
    | exact (expectWord_balanced _).andThen (.pure _)
    | exact expectCharacter_balanced.andThen (characterType_balanced true)

theorem baseType_balanced : Balanced (baseType type) (baseType type') := by
  have named : Balanced (do return DataType.named (← qualifiedName))
      (do return DataType.named (← qualifiedName)) := qualifiedName_balanced.map _
  apply word?_balanced.bind
  intro word
  cases word with
  | none => exact named
  | some word =>
    rcases typeAfter?_balanced fields word with ⟨none, none'⟩ | ⟨rest, rest', some, some', same⟩
    · simp only [none, none']
      exact .ite (unexpected_balanced _) named
    · simp only [some, some']
      exact advance_balanced.andThen same

omit fields in
/-- A suffix enters one level, which is counted. -/
theorem typeSuffix_built (up : Nat) (done : DataType × Nat) :
    Built (up + done.2) (Built.afterRound (fun next => up + next.2) done)
      (typeSuffix done) (typeSuffix done) := by
  obtain ⟨element, levels⟩ := done
  apply Built.next (takeWord_balanced _)
  intro array
  apply Built.ite
  · apply Built.next maxCardinality_balanced
    intro cardinality
    apply Built.bind (.enter _)
    intro _
    exact .pure rfl
  apply Built.next (takeWord_balanced _)
  intro multiset
  refine .ite ?_ (.pure rfl)
  apply Built.bind (.enter _)
  intro _
  exact .pure rfl

theorem dataTypeWith_balanced : Balanced (dataTypeWith type) (dataTypeWith type') := by
  apply (nested_balanced (baseType_balanced fields)).bind
  intro base
  exact levels_balanced (v := (base, 0)) typeSuffix_built rfl

end

/-- The induction is on the levels of the first reading. -/
theorem dataTypeWithin_balanced (bound bound' : Nat) :
    Balanced (dataTypeWithin bound) (dataTypeWithin bound') := by
  induction bound generalizing bound' with
  | zero => exact fun _ => .halted _
  | succ bound ih =>
    cases bound' with
    | zero => exact fun up => .outlasted (dataTypeWith_balanced (ih bound) up)
    | succ bound' => exact dataTypeWith_balanced (ih bound')

theorem dataType_balanced : Balanced dataType dataType := by
  have read : dataType = sized fun count => dataTypeWithin (count + 2) := rfl
  rw [read]
  intro up
  apply Built.sized
  intro count count'
  exact dataTypeWithin_balanced _ _ up

/-! ## Whole expressions and queries -/

/-- Whatever is read with the recursive rules is built alike if it is at all their levels. -/
theorem forState_balanced {α : Type} {p : Phrases → Parse α}
    (each : ∀ {phrases phrases'}, phrases.Balanced phrases' → Balanced (p phrases) (p phrases')) :
    Balanced (Phrases.forState >>= p) (Phrases.forState >>= p) := by
  have read : Phrases.forState >>= p = sized fun count => p (.within (8 * (count + 2))) := rfl
  rw [read]
  intro up
  apply Built.sized
  intro count count'
  exact each (Phrases.within_balanced _ _) up

theorem wholeExpression_balanced : Balanced wholeExpression wholeExpression :=
  forState_balanced Phrases.Balanced.expression

theorem wholeQuery_balanced : Balanced wholeQuery wholeQuery :=
  forState_balanced Phrases.Balanced.query

/-! ## Definitions of tables -/

theorem referentialAction_balanced : Balanced referentialAction referentialAction := by
  apply word?_balanced.bind
  intro word
  split
  · exact advance_balanced.andThen (.pure _)
  · exact advance_balanced.andThen (.pure _)
  · apply advance_balanced.andThen
    apply word?_balanced.bind
    intro word
    split
    · exact advance_balanced.andThen (.pure _)
    · exact advance_balanced.andThen (.pure _)
    · exact unexpected_balanced _
  · exact advance_balanced.andThen ((expectWord_balanced _).andThen (.pure _))
  · exact unexpected_balanced _

theorem triggerStep_balanced (triggers : Triggers) :
    Balanced (triggerStep triggers) (triggerStep triggers) := by
  have action (make : ReferentialAction → Option Triggers) : Balanced (do
      advance
      return make (← referentialAction)) (do
      advance
      return make (← referentialAction)) :=
    advance_balanced.andThen (referentialAction_balanced.map _)
  have asked (change : Option ReferentialAction) (word : Keyword) :
      Balanced (do return change.isNone && (← atWord word))
        (do return change.isNone && (← atWord word)) :=
    (atWord_balanced word).map _
  apply Balanced.ifs (takeWord_balanced _) _ (.pure _)
  apply Balanced.ifs (asked triggers.onDelete .DELETE) (action _)
  exact .ifs (asked triggers.onUpdate .UPDATE) (action _) (unexpected_balanced _)

theorem matchOption_balanced : Balanced matchOption matchOption := by
  apply Balanced.ifs (takeWord_balanced _) _ (.pure _)
  apply word?_balanced.bind
  intro word
  split
  · exact advance_balanced.andThen (.pure _)
  · exact advance_balanced.andThen (.pure _)
  · exact advance_balanced.andThen (.pure _)
  · exact unexpected_balanced _

theorem references_balanced : Balanced references references := by
  apply here_balanced.bind
  intro start
  apply (expectWord_balanced _).andThen
  apply qualifiedName_balanced.bind
  intro table
  apply optionalNames_balanced.bind
  intro columns
  apply matchOption_balanced.bind
  intro option
  apply (Balanced.loop triggerStep_balanced _).bind
  intro triggers
  exact .spanned start

theorem constraintName_balanced : Balanced constraintName constraintName :=
  .ifs (takeWord_balanced _) (qualifiedName_balanced.map _) (.pure _)

theorem columnConstraintKind_balanced : Balanced columnConstraintKind columnConstraintKind := by
  apply word?_balanced.bind
  intro word
  split
  · exact advance_balanced.andThen ((expectWord_balanced _).andThen (.pure _))
  · exact advance_balanced.andThen (.pure _)
  · exact advance_balanced.andThen ((expectWord_balanced _).andThen (.pure _))
  · exact references_balanced.map _
  · exact unexpected_balanced _

theorem columnConstraint_balanced : Balanced columnConstraint columnConstraint := by
  apply here_balanced.bind
  intro start
  apply constraintName_balanced.bind
  intro name
  apply columnConstraintKind_balanced.bind
  intro kind
  exact .spanned start

theorem tableConstraintKind_balanced : Balanced tableConstraintKind tableConstraintKind := by
  apply word?_balanced.bind
  intro word
  split
  · exact advance_balanced.andThen (names_balanced.map _)
  · exact advance_balanced.andThen ((expectWord_balanced _).andThen (names_balanced.map _))
  · apply advance_balanced.andThen
    apply (expectWord_balanced _).andThen
    apply names_balanced.bind
    intro columns
    exact references_balanced.map _
  · exact unexpected_balanced _

theorem tableConstraint_balanced : Balanced tableConstraint tableConstraint := by
  apply here_balanced.bind
  intro start
  apply constraintName_balanced.bind
  intro name
  apply tableConstraintKind_balanced.bind
  intro kind
  exact .spanned start

theorem columnDefault_balanced : Balanced columnDefault columnDefault := by
  apply word?_balanced.bind
  intro word
  split
  · exact advance_balanced.andThen (.pure _)
  · exact .ifs (atWordBefore_balanced _ _) (advance_balanced.andThen (.pure _))
      (wholeExpression_balanced.map _)

theorem columnClause_balanced (column : ColumnDef) :
    Balanced (columnClause column) (columnClause column) := by
  have constraint : Balanced
      (do return some { column with constraints := column.constraints ++ [← columnConstraint] })
      (do return some { column with constraints := column.constraints ++ [← columnConstraint] }) :=
    columnConstraint_balanced.map _
  apply word?_balanced.bind
  intro word
  split
  · apply Balanced.ite (unexpected_balanced _)
    exact advance_balanced.andThen (columnDefault_balanced.map _)
  · apply Balanced.ite (unexpected_balanced _)
    exact advance_balanced.andThen (qualifiedName_balanced.map _)
  · exact constraint
  · exact constraint
  · exact constraint
  · exact constraint
  · exact constraint
  · exact .pure _

theorem columnDef_balanced : Balanced columnDef columnDef := by
  apply here_balanced.bind
  intro start
  apply identifier_balanced.bind
  intro name
  apply dataType_balanced.bind
  intro type
  apply (Balanced.loop columnClause_balanced _).bind
  intro column
  exact .spanned start

theorem tableElement_balanced : Balanced tableElement tableElement := by
  have constraint : Balanced (do return TableElement.constraint (← tableConstraint))
      (do return TableElement.constraint (← tableConstraint)) :=
    tableConstraint_balanced.map _
  apply word?_balanced.bind
  intro word
  split
  · exact constraint
  · exact constraint
  · exact constraint
  · exact constraint
  · exact columnDef_balanced.map _

theorem temporaryScope_balanced : Balanced temporaryScope temporaryScope :=
  .ifs (takeWord_balanced _) (.pure _) (.ifs (takeWord_balanced _) (.pure _) (.pure _))

theorem takeTemporary_balanced : Balanced takeTemporary takeTemporary :=
  .ifs (takeWord_balanced _) (.pure _) (takeWord_balanced _)

theorem temporary_balanced : Balanced temporary temporary := by
  apply temporaryScope_balanced.bind
  intro scope
  apply Balanced.ifs takeTemporary_balanced (.pure _)
  exact .ite (unexpected_balanced _) (.pure _)

theorem commitPolicy_balanced : Balanced commitPolicy commitPolicy := by
  apply Balanced.ifs (takeWord_balanced _) (.pure _)
  exact .ifs (takeWord_balanced _) (.pure _) (unexpected_balanced _)

theorem onCommit_balanced : Balanced onCommit onCommit := by
  apply Balanced.ifs (takeWord_balanced _) _ (.pure _)
  apply (expectWord_balanced _).andThen
  apply commitPolicy_balanced.bind
  intro policy
  exact (expectWord_balanced _).andThen (.pure _)

theorem create_balanced : Balanced create create := by
  apply here_balanced.bind
  intro start
  apply (expectWord_balanced _).andThen
  apply temporary_balanced.bind
  intro temporary
  apply (expectWord_balanced _).andThen
  apply qualifiedName_balanced.bind
  intro name
  apply (parenthesized_balanced (commaSeparated_balanced tableElement_balanced)).bind
  intro elements
  apply onCommit_balanced.bind
  intro policy
  exact .spanned start

/-! ## Statements -/

theorem overriding_balanced : Balanced overriding overriding := by
  apply Balanced.ifs (takeWord_balanced _) _ (.pure _)
  apply Balanced.ifs (takeWord_balanced _)
  · exact (expectWord_balanced _).andThen (.pure _)
  · exact (expectWord_balanced _).andThen ((expectWord_balanced _).andThen (.pure _))

theorem insertColumns_balanced : Balanced insertColumns insertColumns := by
  apply Balanced.ifs (atSign_balanced _) _ (.pure _)
  apply peek_balanced.bind
  intro next
  exact .ite names_balanced (.pure _)

theorem insertSource_balanced : Balanced insertSource insertSource := by
  have query : Balanced (do return InsertSource.query (← wholeQuery))
      (do return InsertSource.query (← wholeQuery)) := wholeQuery_balanced.map _
  apply Balanced.ifs (takeWord_balanced _) ((expectWord_balanced _).andThen (.pure _))
  apply Balanced.ifs startsQuery_balanced query
  exact .ifs (atSign_balanced _) query (unexpected_balanced _)

theorem insert_balanced : Balanced insert insert := by
  apply here_balanced.bind
  intro start
  apply (expectWord_balanced _).andThen
  apply (expectWord_balanced _).andThen
  apply qualifiedName_balanced.bind
  intro table
  apply insertColumns_balanced.bind
  intro columns
  apply overriding_balanced.bind
  intro overriding
  apply insertSource_balanced.bind
  intro source
  exact .spanned start

theorem deleteCondition_balanced : Balanced deleteCondition deleteCondition :=
  .ifs (takeWord_balanced _) (wholeExpression_balanced.map _) (.pure _)

theorem delete_balanced : Balanced delete delete := by
  apply here_balanced.bind
  intro start
  apply (expectWord_balanced _).andThen
  apply (expectWord_balanced _).andThen
  apply (takeWord_balanced _).bind
  intro only
  apply qualifiedName_balanced.bind
  intro table
  apply deleteCondition_balanced.bind
  intro selection
  exact .spanned start

theorem selectStatement_balanced : Balanced selectStatement selectStatement := by
  apply here_balanced.bind
  intro start
  apply wholeQuery_balanced.bind
  intro query
  exact .spanned start

theorem bareStatement_balanced : Balanced bareStatement bareStatement := by
  apply kind_balanced.bind
  intro kind
  split
  · exact create_balanced.map _
  · exact insert_balanced.map _
  · exact delete_balanced.map _
  · exact selectStatement_balanced
  · exact selectStatement_balanced
  · exact selectStatement_balanced
  · exact selectStatement_balanced
  · exact selectStatement_balanced
  · exact unexpected_balanced _

theorem endOfText_balanced : Balanced endOfText endOfText := by
  apply (takeSign_balanced _).bind
  intro _
  apply kind_balanced.bind
  intro kind
  exact .ite (.pure _) (unexpected_balanced _)

/-- What is asked of a tree hangs on the limit alone, and the state is left as it is. -/
theorem checkDepth_looks (statement : Statement) : checkDepth statement =
    looking fun _ _ limit => ((Outline.ofStatement statement).firstBeyond limit).elim (.ok ())
      fun span => .error (.grammatical ⟨.tooDeep limit, span⟩) := by
  funext s
  unfold checkDepth looking
  rw [bind_ok (show (get : Parse State) s = .ok s s from rfl)]
  dsimp only
  cases (Outline.ofStatement statement).firstBeyond s.limit <;> rfl

theorem checkDepth_balanced (statement : Statement) :
    Balanced (checkDepth statement) (checkDepth statement) := by
  rw [checkDepth_looks]
  intro up
  apply Built.look
  · intro current previous limit failure isError
    cases beyond : (Outline.ofStatement statement).firstBeyond limit with
    | none =>
      rw [beyond] at isError
      cases isError
    | some span =>
      rw [beyond] at isError
      cases isError
      trivial
  · intro current previous limit a _
    rfl

theorem statement_balanced : Balanced statement statement := by
  apply bareStatement_balanced.bind
  intro result
  apply endOfText_balanced.andThen
  apply (checkDepth_balanced result).bind
  intro _
  exact .pure result

end CanonicalSql.Parse
