import CanonicalSql.Grammar.Statement
import CanonicalSql.Proofs.Image.DataType
import CanonicalSql.Proofs.Image.Levels
import CanonicalSql.Proofs.Image.Query
import CanonicalSql.Proofs.Readable

/-!
# Statements that are read

Whatever statement is read from a text is well formed, whatever the text and the limit are
(`Statement.formed_of_parse`). Its tree is no deeper than the limit, and the types of its
columns are no higher than the cap (`Statement.accepted_of_parse`).
-/
namespace CanonicalSql

/-- What is known of a statement that has been read within a limit. -/
structure Statement.Accepted (limit : Nat) (statement : Statement) : Prop where
  formed : statement.Formed
  types : statement.TypesFit limit
  depth : (Outline.ofStatement statement).depth ≤ limit

namespace Parse

variable {limit : Nat}

theorem wholeExpression_yields : Yields limit wholeExpression (Expr.Formed .value) :=
  fun s sound a s' run =>
    expression_yields (Phrases.within_forms (Phrases.boundFor s)) s sound a s' run

theorem wholeQuery_yields : Yields limit wholeQuery Query.Formed :=
  fun s sound a s' run =>
    (Phrases.within_forms (Phrases.boundFor s)).query s sound a s' run

/-! ## References and constraints -/

theorem referentialAction_yields : Yields limit referentialAction fun _ => True := by
  refine word?_yields.bind fun word _ => ?_
  split
  · exact advance_yields.bind fun _ _ => .pure trivial
  · exact advance_yields.bind fun _ _ => .pure trivial
  · refine advance_yields.bind fun _ _ => word?_yields.bind fun word _ => ?_
    split
    · exact advance_yields.bind fun _ _ => .pure trivial
    · exact advance_yields.bind fun _ _ => .pure trivial
    · exact unexpected_yields _ _
  · exact advance_yields.bind fun _ _ => (expectWord_yields _).bind fun _ _ => .pure trivial
  · exact unexpected_yields _ _

theorem triggerStep_yields (triggers : Triggers) :
    Yields limit (triggerStep triggers) fun _ => True := by
  refine (takeWord_yields _).bind fun _ _ => .ite (fun _ => ?_) fun _ => .pure trivial
  refine (atWord_yields _).bind fun _ _ => .ite (fun _ => ?_) fun _ => ?_
  · exact advance_yields.bind fun _ _ => referentialAction_yields.bind fun _ _ => .pure trivial
  refine (atWord_yields _).bind fun _ _ => .ite (fun _ => ?_) fun _ => ?_
  · exact advance_yields.bind fun _ _ => referentialAction_yields.bind fun _ _ => .pure trivial
  · exact unexpected_yields _ _

theorem matchOption_yields : Yields limit matchOption fun _ => True := by
  refine (takeWord_yields _).bind fun _ _ => .ite (fun _ => ?_) fun _ => .pure trivial
  refine word?_yields.bind fun word _ => ?_
  split
  · exact advance_yields.bind fun _ _ => .pure trivial
  · exact advance_yields.bind fun _ _ => .pure trivial
  · exact advance_yields.bind fun _ _ => .pure trivial
  · exact unexpected_yields _ _

theorem references_yields : Yields limit references References.Formed := by
  refine here_yields.bind fun start _ => (expectWord_yields _).bind fun _ _ => ?_
  refine qualifiedName_yields.bind fun table proper => ?_
  refine optionalNames_yields.bind fun columns properColumns => ?_
  refine matchOption_yields.bind fun option _ => ?_
  have triggers : Yields limit (loop triggerStep {}) fun _ => True :=
    .loop
      (fun triggers _ => (triggerStep_yields triggers).mono fun _ _ _ _ => trivial) trivial
  refine triggers.bind fun triggers _ => (spanFrom_yields _).bind fun _ _ => ?_
  exact .pure ⟨proper, properColumns⟩

theorem constraintName_yields :
    Yields limit constraintName fun name => ∀ it ∈ name, QualifiedName.Proper it :=
  (takeWord_yields _).bind fun _ _ => .ite
    (fun _ => qualifiedName_yields.bind fun _ proper => .pure (by simpa using proper))
    fun _ => .pure (by simp)

theorem columnConstraint_yields : Yields limit columnConstraint ColumnConstraint.Formed := by
  refine here_yields.bind fun start _ => constraintName_yields.bind fun name proper => ?_
  have demanded : Yields limit columnConstraintKind
      fun kind => ∀ span, ColumnConstraint.Formed ⟨name, kind, span⟩ := by
    refine word?_yields.bind fun word _ => ?_
    split
    · exact advance_yields.bind fun _ _ => (expectWord_yields _).bind fun _ _ =>
        .pure fun _ => ⟨proper, trivial⟩
    · exact advance_yields.bind fun _ _ => .pure fun _ => ⟨proper, trivial⟩
    · exact advance_yields.bind fun _ _ => (expectWord_yields _).bind fun _ _ =>
        .pure fun _ => ⟨proper, trivial⟩
    · exact references_yields.bind fun _ formed => .pure fun _ => ⟨proper, formed⟩
    · exact unexpected_yields _ _
  refine demanded.bind fun kind formed => (spanFrom_yields _).bind fun span _ => ?_
  exact .pure (formed span)

theorem tableConstraint_yields : Yields limit tableConstraint TableConstraint.Formed := by
  refine here_yields.bind fun start _ => constraintName_yields.bind fun name proper => ?_
  have demanded : Yields limit tableConstraintKind
      fun kind => ∀ span, TableConstraint.Formed ⟨name, kind, span⟩ := by
    refine word?_yields.bind fun word _ => ?_
    split
    · exact advance_yields.bind fun _ _ => names_yields.bind fun _ columns =>
        .pure fun _ => ⟨proper, columns⟩
    · exact advance_yields.bind fun _ _ => (expectWord_yields _).bind fun _ _ =>
        names_yields.bind fun _ columns => .pure fun _ => ⟨proper, columns⟩
    · refine advance_yields.bind fun _ _ => (expectWord_yields _).bind fun _ _ => ?_
      exact names_yields.bind fun _ columns =>
        references_yields.bind fun _ formed => .pure fun _ => ⟨proper, columns, formed⟩
    · exact unexpected_yields _ _
  refine demanded.bind fun kind formed => (spanFrom_yields _).bind fun span _ => ?_
  exact .pure (formed span)

/-! ## Columns -/

theorem columnDefault_yields : Yields limit columnDefault ColumnDefault.Formed := by
  refine word?_yields.bind fun word _ => ?_
  split
  · exact advance_yields.bind fun _ _ => .pure trivial
  refine (atWordBefore_yields _ _).bind fun _ _ => .ite (fun _ => ?_) fun _ => ?_
  · exact advance_yields.bind fun _ _ => .pure trivial
  · exact wholeExpression_yields.bind fun _ formed => .pure formed

/-- A column is well formed, and its type is no higher than the cap allows. -/
def SoundColumn (limit : Nat) (column : ColumnDef) : Prop :=
  column.Formed ∧ column.dataType.levels ≤ capOf limit

/-- What an element of a table definition is known to be. -/
def SoundElement (limit : Nat) : TableElement → Prop
  | .column column => SoundColumn limit column
  | .constraint constraint => constraint.Formed

/-- A clause keeps a column well formed and its type as it is. -/
theorem columnClause_yields (column : ColumnDef) (sound : SoundColumn limit column) :
    Yields limit (columnClause column) fun next => ∀ it ∈ next, SoundColumn limit it := by
  obtain ⟨formed, fits⟩ := sound
  refine word?_yields.bind fun word _ => ?_
  have constrained : Yields limit
      (do return some { column with constraints := column.constraints ++ [← columnConstraint] })
      fun next => ∀ it ∈ next, SoundColumn limit it := by
    refine columnConstraint_yields.bind fun constraint formedConstraint => .pure ?_
    rintro it ⟨⟩
    refine ⟨{ formed with constraints := fun other member => ?_ }, fits⟩
    rcases List.mem_append.mp member with member | member
    · exact formed.constraints other member
    · rw [List.mem_singleton.mp member]
      exact formedConstraint
  split
  · refine .ite (fun _ => unexpected_yields _ _) fun _ => advance_yields.bind fun _ _ => ?_
    refine columnDefault_yields.bind fun value formedValue => .pure ?_
    rintro it ⟨⟩
    exact ⟨{ formed with default := by simpa using formedValue }, fits⟩
  · refine .ite (fun _ => unexpected_yields _ _) fun _ => advance_yields.bind fun _ _ => ?_
    refine qualifiedName_yields.bind fun collation proper => .pure ?_
    rintro it ⟨⟩
    exact ⟨{ formed with collation := by simpa using proper }, fits⟩
  all_goals first
    | exact constrained
    | exact .pure (by simp)

theorem columnDef_yields : Yields limit columnDef (SoundColumn limit) := by
  refine here_yields.bind fun start _ => identifier_yields.bind fun name proper => ?_
  have typed : Yields limit dataType fun type => type.Formed ∧ type.levels ≤ capOf limit := by
    intro s sound type s' run
    obtain ⟨sound', formed⟩ := dataType_yields s sound type s' run
    obtain ⟨-, -, fits⟩ := dataType_climbs s type s' sound.limit rfl run
    exact ⟨sound', formed, by omega⟩
  refine typed.bind fun type known => ?_
  have bare : SoundColumn limit { name, dataType := type } := by
    refine ⟨?_, known.2⟩
    exact {
      name := proper
      dataType := known.1
      default := by simp
      constraints := by simp
      collation := by simp }
  refine (Yields.loop columnClause_yields bare).bind fun column sound => ?_
  exact (spanFrom_yields _).bind fun _ _ => .pure ⟨{ sound.1 with }, sound.2⟩

theorem tableElement_yields : Yields limit tableElement (SoundElement limit) := by
  refine word?_yields.bind fun word _ => ?_
  have constraint : Yields limit (do return TableElement.constraint (← tableConstraint))
      (SoundElement limit) :=
    tableConstraint_yields.bind fun _ formed => .pure formed
  split
  · exact constraint
  · exact constraint
  · exact constraint
  · exact constraint
  · exact columnDef_yields.bind fun _ sound => .pure sound

/-! ## Tables -/

theorem temporaryScope_yields : Yields limit temporaryScope fun _ => True := by
  refine (takeWord_yields _).bind fun _ _ => .ite (fun _ => .pure trivial) fun _ => ?_
  exact (takeWord_yields _).bind fun _ _ =>
    .ite (fun _ => .pure trivial) fun _ => .pure trivial

theorem takeTemporary_yields : Yields limit takeTemporary fun _ => True :=
  (takeWord_yields _).bind fun _ _ =>
    .ite (fun _ => .pure trivial) fun _ => takeWord_yields _

theorem temporary_yields : Yields limit temporary fun _ => True := by
  refine temporaryScope_yields.bind fun scope _ => takeTemporary_yields.bind fun _ _ => ?_
  refine .ite (fun _ => .pure trivial) fun _ => .ite (fun _ => ?_) fun _ => .pure trivial
  exact unexpected_yields _ _

theorem commitPolicy_yields : Yields limit commitPolicy fun _ => True := by
  refine (takeWord_yields _).bind fun _ _ => .ite (fun _ => .pure trivial) fun _ => ?_
  refine (takeWord_yields _).bind fun _ _ => .ite (fun _ => .pure trivial) fun _ => ?_
  exact unexpected_yields _ _

theorem onCommit_yields : Yields limit onCommit fun _ => True := by
  refine (takeWord_yields _).bind fun _ _ => .ite (fun _ => ?_) fun _ => .pure trivial
  refine (expectWord_yields _).bind fun _ _ => commitPolicy_yields.bind fun _ _ => ?_
  exact (expectWord_yields _).bind fun _ _ => .pure trivial

section

variable {name : QualifiedName} {elements : List TableElement} {span : Span}
  {temporaryTable : Option Temporary} {policy : Option OnCommit}

theorem mem_elements_of_column {column : ColumnDef}
    (member : column ∈ (Create.ofElements name temporaryTable policy elements span).columns) :
    .column column ∈ elements := by
  obtain ⟨element, inElements, picked⟩ := List.mem_filterMap.mp member
  cases element with
  | column other =>
    obtain rfl := Option.some.inj picked
    exact inElements
  | constraint other => cases picked

theorem mem_elements_of_constraint {constraint : TableConstraint}
    (member :
      constraint ∈ (Create.ofElements name temporaryTable policy elements span).constraints) :
    .constraint constraint ∈ elements := by
  obtain ⟨element, inElements, picked⟩ := List.mem_filterMap.mp member
  cases element with
  | column other => cases picked
  | constraint other =>
    obtain rfl := Option.some.inj picked
    exact inElements

/-- A definition made of well-formed elements, of which there is one at least, is well
formed. -/
theorem ofElements_formed (proper : name.Proper) (nonempty : elements ≠ [])
    (sound : ∀ element ∈ elements, SoundElement limit element) :
    (Create.ofElements name temporaryTable policy elements span).Formed where
  name := proper
  columns _ member := (sound _ (mem_elements_of_column member)).1
  constraints _ member := sound _ (mem_elements_of_constraint member)
  nonempty := by
    cases elements with
    | nil => exact absurd rfl nonempty
    | cons element rest =>
      cases element with
      | column column => exact .inl (by simp [Create.ofElements])
      | constraint constraint => exact .inr (by simp [Create.ofElements])
  onCommit := by
    intro isTemporary
    have given : temporaryTable.isSome = true := isTemporary
    cases policy with
    | none => simp [Create.ofElements, given]
    | some policy => simp [Create.ofElements]

end

theorem create_yields :
    Yields limit create fun definition =>
      definition.Formed ∧ (Statement.create definition).TypesFit limit := by
  refine here_yields.bind fun start _ => (expectWord_yields _).bind fun _ _ => ?_
  refine temporary_yields.bind fun temporary _ => (expectWord_yields _).bind fun _ _ => ?_
  refine qualifiedName_yields.bind fun name proper => ?_
  refine tableElement_yields.commaSeparated.parenthesized.bind fun elements known => ?_
  refine onCommit_yields.bind fun policy _ => (spanFrom_yields _).bind fun _ _ => ?_
  refine .pure ⟨ofElements_formed proper known.1 known.2, fun column member => ?_⟩
  exact (known.2 _ (mem_elements_of_column member)).2

/-! ## Insertions, deletions and whole texts -/

theorem overriding_yields : Yields limit overriding fun _ => True := by
  refine (takeWord_yields _).bind fun _ _ => .ite (fun _ => ?_) fun _ => .pure trivial
  refine (takeWord_yields _).bind fun _ _ => .ite (fun _ => ?_) fun _ => ?_
  · exact (expectWord_yields _).bind fun _ _ => .pure trivial
  · exact (expectWord_yields _).bind fun _ _ => (expectWord_yields _).bind fun _ _ =>
      .pure trivial

theorem insertColumns_yields : Yields limit insertColumns fun names => ∀ name ∈ names, name.Proper := by
  refine (atSign_yields _).bind fun _ _ => .ite (fun _ => ?_) fun _ => .pure (by simp)
  refine peek_yields.bind fun _ _ => .ite (fun _ => ?_) fun _ => .pure (by simp)
  exact names_yields.mono fun _ proper => proper.2

theorem startsQuery_yields : Yields limit startsQuery fun _ => True :=
  kind_yields.bind fun _ _ => .pure trivial

theorem insertSource_yields :
    Yields limit insertSource fun source =>
      match source with
      | .defaultValues => True
      | .query rows => rows.Formed := by
  refine (takeWord_yields _).bind fun _ _ => .ite (fun _ => ?_) fun _ => ?_
  · exact (expectWord_yields _).bind fun _ _ => .pure trivial
  refine startsQuery_yields.bind fun _ _ => .ite (fun _ => ?_) fun _ => ?_
  · exact wholeQuery_yields.bind fun _ formed => .pure formed
  refine (atSign_yields _).bind fun _ _ => .ite (fun _ => ?_) fun _ => unexpected_yields _ _
  exact wholeQuery_yields.bind fun _ formed => .pure formed

theorem bareStatement_yields :
    Yields limit bareStatement fun result => result.Formed ∧ result.TypesFit limit := by
  have selected : Yields limit selectStatement fun result =>
      result.Formed ∧ result.TypesFit limit :=
    here_yields.bind fun _ _ => wholeQuery_yields.bind fun _ formed =>
      (spanFrom_yields _).bind fun _ _ => .pure ⟨formed, trivial⟩
  have inserted : Yields limit insert fun insertion => (Statement.insert insertion).Formed := by
    refine here_yields.bind fun start _ => (expectWord_yields _).bind fun _ _ => ?_
    refine (expectWord_yields _).bind fun _ _ => qualifiedName_yields.bind fun table proper => ?_
    refine insertColumns_yields.bind fun columns properColumns => ?_
    refine overriding_yields.bind fun _ _ => insertSource_yields.bind fun source formed => ?_
    exact (spanFrom_yields _).bind fun _ _ => .pure ⟨proper, properColumns, formed⟩
  have condition : Yields limit deleteCondition Expr.OptionFormed :=
    (takeWord_yields _).bind fun _ _ => .ite
      (fun _ => wholeExpression_yields.bind fun _ formed => .pure formed)
      fun _ => .pure trivial
  have deleted : Yields limit delete fun deletion => (Statement.delete deletion).Formed := by
    refine here_yields.bind fun start _ => (expectWord_yields _).bind fun _ _ => ?_
    refine (expectWord_yields _).bind fun _ _ => (takeWord_yields _).bind fun _ _ => ?_
    refine qualifiedName_yields.bind fun table proper => condition.bind fun _ formed => ?_
    exact (spanFrom_yields _).bind fun _ _ => .pure ⟨proper, formed⟩
  refine kind_yields.bind fun kind _ => ?_
  split
  · exact create_yields.bind fun _ formed => .pure formed
  · exact inserted.bind fun _ formed => .pure ⟨formed, trivial⟩
  · exact deleted.bind fun _ formed => .pure ⟨formed, trivial⟩
  all_goals first
    | exact selected
    | exact unexpected_yields _ _

theorem checkDepth_yields (statement : Statement) :
    Yields limit (checkDepth statement) fun _ =>
      (Outline.ofStatement statement).depth ≤ limit := by
  intro s sound a s' run
  rw [checkDepth_eq] at run
  cases beyond : (Outline.ofStatement statement).firstBeyond s.limit with
  | some span =>
    simp only [beyond] at run
    cases run
  | none =>
    simp only [beyond] at run
    cases run
    rw [sound.limit] at beyond
    exact ⟨sound, (Outline.firstBeyond_eq_none _ _).mp beyond⟩

theorem endOfText_yields : Yields limit endOfText fun _ => True := by
  refine (takeSign_yields _).bind fun _ _ => kind_yields.bind fun kind _ => ?_
  exact .ite (fun _ => .pure trivial) fun _ => unexpected_yields _ _

theorem statement_yields : Yields limit statement (Statement.Accepted limit) :=
  bareStatement_yields.bind fun result known => endOfText_yields.bind fun _ _ =>
    (checkDepth_yields result).bind fun _ depth => .pure ⟨known.1, known.2, depth⟩

end Parse

/-- The state in which the reading of a text begins is sound. -/
theorem State.ofStream_sound {limit : Nat} {text : String} {start : State}
    (begins : State.ofStream limit (Lexer.ofText text).stream = .ok start) :
    start.Sound limit := by
  have lexical := (Lexer.ofText text).stream_lexical
  unfold State.ofStream at begins
  split at begins
  · next first ahead tokens =>
    obtain rfl := Except.ok.inj begins
    rw [tokens] at lexical
    refine ⟨lexical first List.mem_cons_self, fun token member => ?_, rfl⟩
    exact lexical token (List.mem_cons_of_mem _ member)
  · cases begins
  · cases begins

/-- A statement that is read from a text is well formed and within the limit. -/
theorem Statement.accepted_of_parse {limit : Nat} {text : String} {statement : Statement}
    (parsed : Statement.parse limit text = .ok statement) : statement.Accepted limit := by
  unfold Statement.parse TokenStream.statement at parsed
  split at parsed
  · cases parsed
  · next start begins =>
    split at parsed
    · next read last run =>
      obtain rfl := Except.ok.inj parsed
      exact (Parse.statement_yields start (State.ofStream_sound begins) read last run).2
    · cases parsed

/-- Every statement that is read from a text is well formed: each of its nodes stands where
the grammar puts it, and each of its names, literals and lists can be written. -/
theorem Statement.formed_of_parse {limit : Nat} {text : String} {statement : Statement}
    (parsed : Statement.parse limit text = .ok statement) : statement.Formed :=
  (Statement.accepted_of_parse parsed).formed

/-- A subquery, a join without a condition, grouping sets and a percentage in one text. -/
theorem Statement.formed_of_parse_query :
    ∃ statement, Statement.parse 8 "SELECT a AS b FROM t NATURAL JOIN (SELECT 1) AS u
        GROUP BY ROLLUP (a) FETCH FIRST 5 PERCENT ROWS ONLY" = .ok statement ∧
      statement.Formed := by
  have accepted : (Statement.parse 8 "SELECT a AS b FROM t NATURAL JOIN (SELECT 1) AS u
        GROUP BY ROLLUP (a) FETCH FIRST 5 PERCENT ROWS ONLY").isOk = true := by decide +kernel
  cases parsed : Statement.parse 8 "SELECT a AS b FROM t NATURAL JOIN (SELECT 1) AS u
        GROUP BY ROLLUP (a) FETCH FIRST 5 PERCENT ROWS ONLY" with
  | ok statement => exact ⟨statement, rfl, Statement.formed_of_parse parsed⟩
  | error failure =>
    rw [parsed] at accepted
    cases accepted

end CanonicalSql
