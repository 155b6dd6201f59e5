import CanonicalSql.Grammar.Statement
import CanonicalSql.Proofs.Lockstep.Query

/-!
# Statements side by side

Data types, table definitions and the other statements. The depth of the tree is looked at when
the whole text has been read: a tree that the first reading lets through is let through by the
second one, which has at least as high a limit, and a tree that it refuses is too deep.
-/
namespace CanonicalSql

variable {m : Move}

namespace Parse

/-! ## Data types -/

theorem unsigned_moves : Moves m id unsigned unsigned := by
  refine kind_moves.next fun kind => ?_
  split
  · exact .ite (fun _ => advance_moves.next fun _ => .pure rfl) fun _ => unexpected_moves _ _
  · exact unexpected_moves _ _

theorem optionalLength_moves : Moves m id optionalLength optionalLength :=
  (atSign_moves _).next fun _ => .ite
    (fun _ => (parenthesized_moves unsigned_moves).next fun _ => .pure rfl) fun _ => .pure rfl

theorem charUnit_moves : Moves m id charUnit charUnit :=
  (takeWord_moves _).next fun _ => .ite (fun _ => .pure rfl) fun _ =>
    (takeWord_moves _).next fun _ => .ite (fun _ => .pure rfl) fun _ => .pure rfl

theorem charLength_moves : Moves m id charLength charLength := by
  refine (atSign_moves _).next fun _ => .ite (fun _ => ?_) fun _ => .pure rfl
  exact parenthesized_moves (unsigned_moves.next fun _ => charUnit_moves.next fun _ => .pure rfl)

theorem precisionScale_moves : Moves m id precisionScale precisionScale := by
  have scale : Moves m id scale scale :=
    (takeSign_moves _).next fun _ => .ite (fun _ => unsigned_moves.next fun _ => .pure rfl)
      fun _ => .pure rfl
  refine (atSign_moves _).next fun _ => .ite (fun _ => ?_) fun _ => .pure rfl
  exact parenthesized_moves (unsigned_moves.next fun _ => scale.next fun _ => .pure rfl)

theorem timeZone_moves : Moves m id timeZone timeZone := by
  have words (zone : Bool) : Moves m id (zoneWords zone) (zoneWords zone) :=
    (expectWord_moves _).next fun _ => (expectWord_moves _).next fun _ => .pure rfl
  exact (takeWord_moves _).next fun _ => .ite (fun _ => words _) fun _ =>
    (takeWord_moves _).next fun _ => .ite (fun _ => words _) fun _ => .pure rfl

theorem takeLargeObject_moves : Moves m id takeLargeObject takeLargeObject :=
  (takeWord_moves _).next fun _ => .ite (fun _ => (expectWord_moves _).next fun _ => .pure rfl)
    fun _ => .pure rfl

theorem characterType_moves (nationalSet : Bool) :
    Moves m id (characterType nationalSet) (characterType nationalSet) := by
  refine (takeWord_moves _).next fun _ => .ite (fun _ => ?_) fun _ => ?_
  · exact charLength_moves.next fun _ => .pure rfl
  · exact takeLargeObject_moves.next fun _ => .ite
      (fun _ => charLength_moves.next fun _ => .pure rfl)
      fun _ => charLength_moves.next fun _ => .pure rfl

theorem binaryType_moves : Moves m id binaryType binaryType := by
  refine (takeWord_moves _).next fun _ => .ite (fun _ => ?_) fun _ => ?_
  · exact optionalLength_moves.next fun _ => .pure rfl
  · exact takeLargeObject_moves.next fun _ => .ite
      (fun _ => optionalLength_moves.next fun _ => .pure rfl)
      fun _ => optionalLength_moves.next fun _ => .pure rfl

theorem expectCharacter_moves : Moves m id expectCharacter expectCharacter :=
  (takeWord_moves _).next fun _ => .ite (fun _ => .pure rfl) fun _ => expectWord_moves _

theorem referenceType_moves : Moves m id referenceType referenceType :=
  (parenthesized_moves qualifiedName_moves).next fun _ => (takeWord_moves _).next fun _ =>
    .ite (fun _ => qualifiedName_moves.next fun _ => .pure rfl) fun _ => .pure rfl

theorem zoned_moves (type : Option Nat → Option Bool → DataType) :
    Moves m id (do return type (← optionalLength) (← timeZone))
      (do return type (← optionalLength) (← timeZone)) :=
  optionalLength_moves.next fun _ => timeZone_moves.next fun _ => .pure rfl

theorem scaled_moves (type : Option Nat → Option Nat → DataType) :
    Moves m id (do
        let (precision, scale) ← precisionScale
        return type precision scale)
      (do
        let (precision, scale) ← precisionScale
        return type precision scale) :=
  precisionScale_moves.next fun _ => .pure rfl

section

variable {type : Parse DataType} (moves : Moves m id type type)
include moves

theorem rowType_moves : Moves m id
    (do return DataType.row (← parenthesized (commaSeparated (rowField type))))
    (do return DataType.row (← parenthesized (commaSeparated (rowField type)))) := by
  have field : Moves m id (rowField type) (rowField type) :=
    identifier_moves.next fun _ => moves.next fun _ => .pure rfl
  have fields := parenthesized_moves (commaSeparated_moves field)
  rw [List.map_id_fun] at fields
  exact fields.next fun _ => .pure rfl

theorem typeAfter?_moves {word : Keyword} {rest : Parse DataType}
    (begins : typeAfter? type word = some rest) : Moves m id rest rest := by
  unfold typeAfter? at begins
  split at begins
  all_goals cases begins
  all_goals first
    | exact .pure rfl
    | exact scaled_moves _
    | exact zoned_moves _
    | exact optionalLength_moves.next fun _ => .pure rfl
    | exact charLength_moves.next fun _ => .pure rfl
    | exact characterType_moves _
    | exact binaryType_moves
    | exact referenceType_moves
    | exact rowType_moves moves
    | exact (expectWord_moves _).next fun _ => .pure rfl
    | exact expectCharacter_moves.next fun _ => characterType_moves _

theorem baseType_moves : Moves m id (baseType type) (baseType type) := by
  have named : Moves m id (do return DataType.named (← qualifiedName))
      (do return DataType.named (← qualifiedName)) :=
    qualifiedName_moves.next fun _ => .pure rfl
  refine word?_moves.next fun word => ?_
  split
  · exact named
  split
  · next begins => exact advance_moves.next fun _ => typeAfter?_moves moves begins
  · exact .ite (fun _ => unexpected_moves _ _) fun _ => named

theorem dataTypeWith_moves : Moves m id (dataTypeWith type) (dataTypeWith type) := by
  have cardinality : Moves m id maxCardinality maxCardinality :=
    (takeSign_moves _).next fun _ => .ite
      (fun _ => unsigned_moves.next fun _ => (expectSign_moves _).next fun _ => .pure rfl)
      fun _ => .pure rfl
  have suffix (done : DataType × Nat) : Moves m id (typeSuffix done) (typeSuffix done) :=
    (takeWord_moves _).next fun _ => .ite
      (fun _ => cardinality.next fun _ => enter_moves.next fun _ => .pure rfl) fun _ =>
        (takeWord_moves _).next fun _ => .ite (fun _ => enter_moves.next fun _ => .pure rfl)
          fun _ => .pure rfl
  exact (nested_moves (baseType_moves moves)).next fun base => (loop_moves_id suffix _).next
    fun (_, levels) => (leave_moves levels).next fun _ => .pure rfl

end

theorem dataType_moves : Moves m id dataType dataType := by
  have within (bound : Nat) : Moves m id (dataTypeWithin bound) (dataTypeWithin bound) := by
    induction bound with
    | zero => exact throw_moves _ _
    | succ bound ih => exact dataTypeWith_moves ih
  refine get_moves.bind fun s => ?_
  rw [show (m.state s).ahead.length = s.ahead.length from List.length_map _]
  exact within _

/-! ## Whole expressions and queries -/

/-- Whatever is read with the recursive rules moves if it moves at all their levels. -/
theorem forState_moves {α β : Type} {conv : α → β} {p : Phrases → Parse α} {q : Phrases → Parse β}
    (moves : ∀ phrases : Phrases, phrases.Moves m → Moves m conv (p phrases) (q phrases)) :
    Moves m conv (Phrases.forState >>= p) (Phrases.forState >>= q) := by
  change Moves m conv (get >>= fun s => p (Phrases.within (Phrases.boundFor s)))
    (get >>= fun s => q (Phrases.within (Phrases.boundFor s)))
  refine get_moves.bind fun s => ?_
  have same : Phrases.boundFor (m.state s) = Phrases.boundFor s := by
    simp [Phrases.boundFor, Move.state]
  rw [same]
  exact moves _ (Phrases.within_moves _)

theorem wholeExpression_moves : Moves m (m.on Expr.erase) wholeExpression wholeExpression :=
  forState_moves fun _ all => all.expression

theorem wholeQuery_moves : Moves m (m.on Query.erase) wholeQuery wholeQuery :=
  forState_moves fun _ all => all.query

/-! ## References and constraints -/

theorem referentialAction_moves : Moves m id referentialAction referentialAction := by
  refine word?_moves.next fun word => ?_
  split
  · exact advance_moves.next fun _ => .pure rfl
  · exact advance_moves.next fun _ => .pure rfl
  · refine advance_moves.next fun _ => word?_moves.next fun word => ?_
    split
    · exact advance_moves.next fun _ => .pure rfl
    · exact advance_moves.next fun _ => .pure rfl
    · exact unexpected_moves _ _
  · exact advance_moves.next fun _ => (expectWord_moves _).next fun _ => .pure rfl
  · exact unexpected_moves _ _

theorem triggerStep_moves (triggers : Triggers) :
    Moves m id (triggerStep triggers) (triggerStep triggers) := by
  have update : Moves m id
      (do
        if triggers.onUpdate.isNone && (← atWord .UPDATE) then
          advance
          return some { triggers with onUpdate := some (← referentialAction) }
        else unexpected "DELETE or UPDATE")
      (do
        if triggers.onUpdate.isNone && (← atWord .UPDATE) then
          advance
          return some { triggers with onUpdate := some (← referentialAction) }
        else unexpected "DELETE or UPDATE") :=
    (atWord_moves _).next fun _ => .ite
      (fun _ => advance_moves.next fun _ => referentialAction_moves.next fun _ => .pure rfl)
      fun _ => unexpected_moves _ _
  refine (takeWord_moves _).next fun _ => .ite (fun _ => ?_) fun _ => .pure rfl
  exact (atWord_moves _).next fun _ => .ite
    (fun _ => advance_moves.next fun _ => referentialAction_moves.next fun _ => .pure rfl)
    fun _ => update

theorem matchOption_moves : Moves m id matchOption matchOption := by
  refine (takeWord_moves _).next fun _ => .ite (fun _ => ?_) fun _ => .pure rfl
  refine word?_moves.next fun word => ?_
  split
  all_goals first
    | exact advance_moves.next fun _ => .pure rfl
    | exact unexpected_moves _ _

theorem references_moves : Moves m (m.on References.erase) references references := by
  refine here_moves.bind fun start => (expectWord_moves _).next fun _ => ?_
  refine qualifiedName_moves.next fun table => optionalNames_moves.next fun columns => ?_
  refine matchOption_moves.next fun option => (loop_moves_id triggerStep_moves _).next fun _ => ?_
  exact (spanFrom_moves start).bind fun span => .pure (by obtain ⟨_ | _⟩ := m <;> rfl)

theorem constraintName_moves : Moves m id constraintName constraintName :=
  (takeWord_moves _).next fun _ => .ite (fun _ => qualifiedName_moves.next fun _ => .pure rfl)
    fun _ => .pure rfl

theorem columnConstraint_moves :
    Moves m (m.on ColumnConstraint.erase) columnConstraint columnConstraint := by
  have demand : Moves m (m.on ColumnConstraintKind.erase) columnConstraintKind
      columnConstraintKind := by
    refine word?_moves.next fun word => ?_
    split
    · exact advance_moves.next fun _ => (expectWord_moves _).next fun _ =>
        .pure (by obtain ⟨_ | _⟩ := m <;> rfl)
    · exact advance_moves.next fun _ => .pure (by obtain ⟨_ | _⟩ := m <;> rfl)
    · exact advance_moves.next fun _ => (expectWord_moves _).next fun _ =>
        .pure (by obtain ⟨_ | _⟩ := m <;> rfl)
    · exact references_moves.bind fun _ => .pure (by obtain ⟨_ | _⟩ := m <;> rfl)
    · exact unexpected_moves _ _
  refine here_moves.bind fun start => constraintName_moves.next fun name => demand.bind fun kind => ?_
  exact (spanFrom_moves start).bind fun span => .pure (by obtain ⟨_ | _⟩ := m <;> rfl)

theorem tableConstraint_moves :
    Moves m (m.on TableConstraint.erase) tableConstraint tableConstraint := by
  have demand : Moves m (m.on TableConstraintKind.erase) tableConstraintKind
      tableConstraintKind := by
    refine word?_moves.next fun word => ?_
    split
    · exact advance_moves.next fun _ => names_moves.next fun _ =>
        .pure (by obtain ⟨_ | _⟩ := m <;> rfl)
    · exact advance_moves.next fun _ => (expectWord_moves _).next fun _ =>
        names_moves.next fun _ => .pure (by obtain ⟨_ | _⟩ := m <;> rfl)
    · refine advance_moves.next fun _ => (expectWord_moves _).next fun _ => ?_
      exact names_moves.next fun _ => references_moves.bind fun _ =>
        .pure (by obtain ⟨_ | _⟩ := m <;> rfl)
    · exact unexpected_moves _ _
  refine here_moves.bind fun start => constraintName_moves.next fun name => demand.bind fun kind => ?_
  exact (spanFrom_moves start).bind fun span => .pure (by obtain ⟨_ | _⟩ := m <;> rfl)

/-! ## Columns and tables -/

theorem columnDefault_moves :
    Moves m (m.on ColumnDefault.erase) columnDefault columnDefault := by
  refine word?_moves.next fun word => ?_
  split
  · exact advance_moves.next fun _ => .pure (by obtain ⟨_ | _⟩ := m <;> rfl)
  refine (atWordBefore_moves _ _).next fun _ => .ite (fun _ => ?_) fun _ => ?_
  · exact advance_moves.next fun _ => .pure (by obtain ⟨_ | _⟩ := m <;> rfl)
  · exact wholeExpression_moves.bind fun _ => .pure (by obtain ⟨_ | _⟩ := m <;> rfl)

/-- A default and a collation are given or not, wherever they were read. -/
theorem columnClause_moves (column : ColumnDef) :
    Moves m (Option.map (m.on ColumnDef.erase)) (columnClause column)
      (columnClause (m.on ColumnDef.erase column)) := by
  have default : (m.on ColumnDef.erase column).default.isSome = column.default.isSome := by
    obtain ⟨_ | _⟩ := m
    · exact Option.isSome_map
    · rfl
  have collation : (m.on ColumnDef.erase column).collation = column.collation := by
    obtain ⟨_ | _⟩ := m <;> rfl
  refine word?_moves.next fun word => ?_
  rw [default, collation]
  split
  · refine .ite (fun _ => unexpected_moves _ _) fun _ => advance_moves.next fun _ => ?_
    exact columnDefault_moves.bind fun value => .pure (by obtain ⟨_ | _⟩ := m <;> rfl)
  · refine .ite (fun _ => unexpected_moves _ _) fun _ => advance_moves.next fun _ => ?_
    exact qualifiedName_moves.next fun name => .pure (by obtain ⟨_ | _⟩ := m <;> rfl)
  all_goals first
    | exact .pure rfl
    | refine columnConstraint_moves.bind fun constraint => .pure ?_
      obtain ⟨_ | _⟩ := m
      · exact congrArg some (by simp [Move.on, ColumnDef.erase])
      · rfl

theorem columnDef_moves : Moves m (m.on ColumnDef.erase) columnDef columnDef := by
  refine here_moves.bind fun start => identifier_moves.next fun name => ?_
  refine dataType_moves.next fun type => ?_
  have clauses := loop_moves (m.on ColumnDef.erase) columnClause_moves { name, dataType := type }
  have begins : m.on ColumnDef.erase { name, dataType := type } = { name, dataType := type } := by
    obtain ⟨_ | _⟩ := m <;> rfl
  rw [begins] at clauses
  refine clauses.bind fun column => (spanFrom_moves start).bind fun span => .pure ?_
  obtain ⟨_ | _⟩ := m <;> rfl

end Parse

/-- The depth of a tree stays the same. -/
theorem Move.depth_on (m : Move) (statement : Statement) :
    (Outline.ofStatement (m.on Statement.erase statement)).depth =
      (Outline.ofStatement statement).depth := by
  obtain ⟨_ | _⟩ := m
  · exact Outline.ofStatement_erase statement
  · rfl

/-- An insertion without its places. -/
def Insert.erase (insertion : Insert) : Insert :=
  { insertion with source := insertion.source.erase, span := default }

/-- A deletion without its places. -/
def Delete.erase (deletion : Delete) : Delete :=
  { deletion with selection := Expr.eraseOption deletion.selection, span := default }

namespace Parse

theorem tableElement_moves : Moves m (m.on TableElement.erase) tableElement tableElement := by
  refine word?_moves.next fun word => ?_
  split
  all_goals first
    | exact tableConstraint_moves.bind fun _ => .pure (by obtain ⟨_ | _⟩ := m <;> rfl)
    | exact columnDef_moves.bind fun _ => .pure (by obtain ⟨_ | _⟩ := m <;> rfl)

theorem temporary_moves : Moves m id temporary temporary := by
  have scope : Moves m id temporaryScope temporaryScope :=
    (takeWord_moves _).next fun _ => .ite (fun _ => .pure rfl) fun _ =>
      (takeWord_moves _).next fun _ => .ite (fun _ => .pure rfl) fun _ => .pure rfl
  have word : Moves m id takeTemporary takeTemporary :=
    (takeWord_moves _).next fun _ => .ite (fun _ => .pure rfl) fun _ => takeWord_moves _
  exact scope.next fun _ => word.next fun _ => .ite (fun _ => .pure rfl) fun _ =>
    .ite (fun _ => unexpected_moves _ _) fun _ => .pure rfl

theorem onCommit_moves : Moves m id onCommit onCommit := by
  have policy : Moves m id commitPolicy commitPolicy :=
    (takeWord_moves _).next fun _ => .ite (fun _ => .pure rfl) fun _ =>
      (takeWord_moves _).next fun _ => .ite (fun _ => .pure rfl) fun _ => unexpected_moves _ _
  refine (takeWord_moves _).next fun _ => .ite (fun _ => ?_) fun _ => .pure rfl
  exact (expectWord_moves _).next fun _ => policy.next fun _ => (expectWord_moves _).next fun _ =>
    .pure rfl

theorem create_moves : Moves m (m.on Create.erase) create create := by
  refine here_moves.bind fun start => (expectWord_moves _).next fun _ => ?_
  refine temporary_moves.next fun temporary => (expectWord_moves _).next fun _ => ?_
  refine qualifiedName_moves.next fun name => ?_
  refine (parenthesized_moves (commaSeparated_moves tableElement_moves)).bind fun elements => ?_
  refine onCommit_moves.next fun policy => (spanFrom_moves start).bind fun span => .pure ?_
  rw [← m.on_map]
  obtain ⟨_ | _⟩ := m
  · exact Create.ofElements_erase name temporary policy elements span
  · rfl

/-! ## Statements -/

theorem overriding_moves : Moves m id overriding overriding := by
  refine (takeWord_moves _).next fun _ => .ite (fun _ => ?_) fun _ => .pure rfl
  refine (takeWord_moves _).next fun _ => .ite (fun _ => ?_) fun _ => ?_
  · exact (expectWord_moves _).next fun _ => .pure rfl
  · exact (expectWord_moves _).next fun _ => (expectWord_moves _).next fun _ => .pure rfl

theorem insertColumns_moves : Moves m id insertColumns insertColumns := by
  refine (atSign_moves _).next fun _ => .ite (fun _ => ?_) fun _ => .pure rfl
  exact peek_moves.next fun _ => .ite (fun _ => names_moves) fun _ => .pure rfl

theorem insertSource_moves : Moves m (m.on InsertSource.erase) insertSource insertSource := by
  have rows : Moves m (m.on InsertSource.erase) (do return .query (← wholeQuery))
      (do return .query (← wholeQuery)) :=
    wholeQuery_moves.bind fun _ => .pure (by obtain ⟨_ | _⟩ := m <;> rfl)
  refine (takeWord_moves _).next fun _ => .ite (fun _ => ?_) fun _ => ?_
  · exact (expectWord_moves _).next fun _ => .pure (by obtain ⟨_ | _⟩ := m <;> rfl)
  refine startsQuery_moves.next fun _ => .ite (fun _ => rows) fun _ => ?_
  exact (atSign_moves _).next fun _ => .ite (fun _ => rows) fun _ => unexpected_moves _ _

theorem insert_moves : Moves m (m.on Insert.erase) insert insert := by
  refine here_moves.bind fun start => (expectWord_moves _).next fun _ => ?_
  refine (expectWord_moves _).next fun _ => qualifiedName_moves.next fun table => ?_
  refine insertColumns_moves.next fun columns => overriding_moves.next fun overriding => ?_
  refine insertSource_moves.bind fun source => (spanFrom_moves start).bind fun span => .pure ?_
  obtain ⟨_ | _⟩ := m <;> rfl

theorem delete_moves : Moves m (m.on Delete.erase) delete delete := by
  have condition : Moves m (m.on Expr.eraseOption) deleteCondition deleteCondition :=
    (takeWord_moves _).next fun _ => .ite
      (fun _ => wholeExpression_moves.bind fun expr => .pure (m.on_eraseOption (some expr)))
      fun _ => .pure (m.on_eraseOption none)
  refine here_moves.bind fun start => (expectWord_moves _).next fun _ => ?_
  refine (expectWord_moves _).next fun _ => (takeWord_moves _).next fun only => ?_
  refine qualifiedName_moves.next fun table => condition.bind fun selection => ?_
  exact (spanFrom_moves start).bind fun span => .pure (by obtain ⟨_ | _⟩ := m <;> rfl)

theorem selectStatement_moves :
    Moves m (m.on Statement.erase) selectStatement selectStatement :=
  here_moves.bind fun start => wholeQuery_moves.bind fun query =>
    (spanFrom_moves start).bind fun span => .pure (by obtain ⟨_ | _⟩ := m <;> rfl)

theorem bareStatement_moves : Moves m (m.on Statement.erase) bareStatement bareStatement := by
  refine kind_moves.next fun kind => ?_
  split
  · exact create_moves.bind fun _ => .pure (by obtain ⟨_ | _⟩ := m <;> rfl)
  · exact insert_moves.bind fun _ => .pure (by obtain ⟨_ | _⟩ := m <;> rfl)
  · exact delete_moves.bind fun _ => .pure (by obtain ⟨_ | _⟩ := m <;> rfl)
  all_goals first
    | exact selectStatement_moves
    | exact unexpected_moves _ _

theorem endOfText_moves : Moves m id endOfText endOfText :=
  (takeSign_moves _).next fun _ => kind_moves.next fun _ => .ite (fun _ => .pure rfl)
    fun _ => unexpected_moves _ _

theorem checkDepth_moves (statement : Statement) :
    Moves m id (checkDepth statement) (checkDepth (m.on Statement.erase statement)) where
  ok := by
    intro s a t isLow run
    rw [checkDepth_eq] at run ⊢
    split at run
    · cases run
    · next within =>
      cases run
      have depth := (Outline.firstBeyond_eq_none _ _).mp within
      rw [isLow, ← m.depth_on] at depth
      have none := (Outline.firstBeyond_eq_none _ (m.state s).limit).mpr
        (Nat.le_trans depth m.rises)
      exact ⟨isLow, by rw [none]⟩
  error := by
    intro s failure t isLow run
    rw [checkDepth_eq] at run ⊢
    split at run
    · next span beyond =>
      cases run
      rcases Nat.lt_or_eq_of_le m.rises with more | same
      · exact .inl ⟨more, span, by rw [isLow]⟩
      have isHigh : (m.state s).limit = s.limit := by rw [isLow, same]; rfl
      rw [isHigh]
      cases other : (Outline.ofStatement (m.on Statement.erase statement)).firstBeyond s.limit with
      | none =>
        have within := (Outline.firstBeyond_eq_none _ _).mp other
        rw [m.depth_on, ← Outline.firstBeyond_eq_none, beyond] at within
        cases within
      | some place =>
        refine .inr ⟨_, _, rfl, ?_⟩
        obtain ⟨_ | _⟩ := m
        · rfl
        · obtain rfl := Option.some.inj (beyond.symm.trans other)
          rfl
    · cases run

theorem statement_moves : Moves m (m.on Statement.erase) statement statement :=
  bareStatement_moves.bind fun result => endOfText_moves.next fun _ =>
    (checkDepth_moves result).next fun _ => .pure rfl

end Parse

end CanonicalSql
