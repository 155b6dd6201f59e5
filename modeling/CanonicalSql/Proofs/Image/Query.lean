import CanonicalSql.Grammar.Query
import CanonicalSql.Proofs.Image.Expr

/-!
# Queries that are read

The rules for sources, windows, projections and set operations give well-formed trees if
the phrases that they refer back to do. So each level of the recursive rules does if the
level below does, and all levels do (`Phrases.within_forms`).
-/
namespace CanonicalSql.Parse

variable {limit : Nat} {phrases : Phrases}

/-! ## Sources -/

theorem withAlias_yields {relation : Rel} (formed : relation.Formed .source) (start : Span) :
    Yields limit (withAlias relation start) (Rel.Formed .source) := by
  refine optionalAlias_yields.bind fun name proper => ?_
  cases name with
  | none => exact .pure formed
  | some name =>
    refine optionalNames_yields.bind fun columns properColumns => ?_
    exact (spanFrom_yields _).bind fun _ _ =>
      .pure ⟨rfl, proper name rfl, properColumns, formed⟩

/-- A relation in parentheses as an operand: a bare query is no more than its body. -/
theorem enclosedOperand_formed {first : Rel} (formed : first.Formed .source)
    (queryLike : first.isQueryLike = true) :
    (match first with
      | .query query => query.operand
      | relation => relation).Formed .operand := by
  cases first with
  | query query => exact operand_formed formed.1
  | select | values | setOp => exact absurd formed.1 (by simp)
  | join | table | named => simp [Rel.isQueryLike] at queryLike

/-- A source in parentheses that goes on as a query becomes a query with something of its
own. -/
theorem longerTableQuery_yieldsAt (forms : phrases.Forms limit) {first : Rel}
    (formed : first.Formed .source) (start : Span) :
    YieldsAt limit (isQueryNext · = true) (longerTableQuery phrases first start)
      (Rel.Formed .source) := by
  unfold longerTableQuery
  split
  · next queryLike =>
    have operand := enclosedOperand_formed formed queryLike
    have wrapped (query : Query) (holds : query.Formed ∧ ¬ query.Wraps) :
        Yields limit (pure (Rel.query query)) (Rel.Formed .source) := .pure holds
    have longer := (longer_yieldsAt forms operand start).bind wrapped
    rw [bind_assoc] at longer
    exact longer
  · exact (unexpected_yields _ _).at _

theorem enclosedTable_yields (forms : phrases.Forms limit) (start : Span) :
    Yields limit (enclosedTable phrases start) (Rel.Formed .source) := by
  refine startsQuery_looks.bind fun kind => ?_
  cases starts : isQueryStart kind with
  | true =>
    refine ((startedQuery_yieldsAt forms).here starts).bind ?_
    rintro query ⟨formed, proper⟩
    exact .pure ⟨formed, proper⟩
  | false =>
    refine Yields.at ?_ _
    refine (atSign_yields _).bind fun _ _ => .ite (fun _ => ?_) fun _ => ?_
    · refine forms.tablePrimary.bind fun first formed => continuesQuery_looks.bind fun kind => ?_
      cases continues : isQueryNext kind with
      | true =>
        rintro s sound rfl
        exact longerTableQuery_yieldsAt forms formed start s sound continues
      | false => exact (forms.joins first formed).at _
    · exact forms.tablePrimary.bind fun first formed => forms.joins first formed

theorem parenthesizedTable_yields (forms : phrases.Forms limit) :
    Yields limit (parenthesizedTable phrases) (Rel.Formed .source) := by
  refine here_yields.bind fun start _ => (expectSign_yields _).bind fun _ _ => ?_
  refine (enclosedTable_yields forms start).bind fun relation formed => ?_
  exact (expectSign_yields _).bind fun _ _ => .pure formed

theorem namedTable_yields {role : Rel.Role} (allowed : role ≠ .members) :
    Yields limit namedTable (Rel.Formed role) := by
  refine here_yields.bind fun start _ => qualifiedName_yields.bind fun name proper => ?_
  exact (spanFrom_yields _).bind fun _ _ => .pure ⟨allowed, proper⟩

theorem tableFactor_yields (forms : phrases.Forms limit) :
    Yields limit (tableFactor phrases) (Rel.Formed .source) :=
  (atSign_yields _).bind fun _ _ =>
    .ite (fun _ => (parenthesizedTable_yields forms).nested) fun _ => namedTable_yields nofun

theorem tablePrimary_yields (forms : phrases.Forms limit) :
    Yields limit (tablePrimary phrases) (Rel.Formed .source) :=
  here_yields.bind fun start _ => (tableFactor_yields forms).bind fun _ formed =>
    withAlias_yields formed start

theorem joinWords_yields : Yields limit joinWords fun _ => True := by
  refine word?_yields.bind fun word _ => ?_
  split
  · exact advance_yields.bind fun _ _ => .pure trivial
  · exact advance_yields.bind fun _ _ => (takeWord_yields _).bind fun _ _ => .pure trivial
  · exact advance_yields.bind fun _ _ => (takeWord_yields _).bind fun _ _ => .pure trivial
  · exact advance_yields.bind fun _ _ => (takeWord_yields _).bind fun _ _ => .pure trivial
  · exact .pure trivial

theorem joinKind_yields : Yields limit joinKind fun _ => True :=
  joinWords_yields.bind fun _ _ => (expectWord_yields _).bind fun _ _ => .pure trivial

/-- Where a condition is asked for there is one. -/
theorem joinCondition_yields (forms : phrases.Forms limit) :
    Yields limit (joinCondition phrases)
      fun condition => condition.Formed ∧ ∀ kind, condition.Suits kind false := by
  refine (takeWord_yields _).bind fun _ _ => .ite (fun _ => ?_) fun _ => ?_
  · exact (expression_yields forms).bind fun _ formed => .pure ⟨formed, fun _ => rfl⟩
  refine (takeWord_yields _).bind fun _ _ => .ite (fun _ => ?_) fun _ => unexpected_yields _ _
  exact names_yields.bind fun _ proper => .pure ⟨proper, fun _ => rfl⟩

theorem join_yields (forms : phrases.Forms limit) {left : Rel} (formed : left.Formed .source) :
    Yields limit (join phrases left) (Rel.Formed .source) := by
  refine (takeWord_yields _).bind fun _ _ => .ite (fun _ => ?_) fun _ => ?_
  · refine (expectWord_yields _).bind fun _ _ =>
      (tablePrimary_yields forms).bind fun right formedRight => ?_
    exact (spanFrom_yields _).bind fun _ _ =>
      .pure ⟨rfl, .inr rfl, trivial, formed, formedRight⟩
  refine (takeWord_yields _).bind fun natural _ => joinKind_yields.bind fun kind _ => ?_
  refine (tablePrimary_yields forms).bind fun right formedRight => ?_
  refine .ite (fun _ => ?_) fun _ => ?_
  · exact (spanFrom_yields _).bind fun _ _ =>
      .pure ⟨rfl, .inl rfl, trivial, formed, formedRight⟩
  · refine (forms.joins right formedRight).bind fun right formedRight => ?_
    refine (joinCondition_yields forms).bind fun condition holds => ?_
    exact (spanFrom_yields _).bind fun _ _ =>
      .pure ⟨rfl, holds.2 kind, holds.1, formed, formedRight⟩

theorem startsJoin_yields : Yields limit startsJoin fun _ => True :=
  kind_yields.bind fun _ _ => .pure trivial

/-- One more join keeps the source well formed. -/
theorem joinStep_yields (forms : phrases.Forms limit) (progress : Rel × Nat)
    (formed : progress.1.Formed .source) :
    Yields limit (joinStep phrases progress) fun next => ∀ it ∈ next, it.1.Formed .source := by
  refine startsJoin_yields.bind fun _ _ => .ite (fun _ => ?_) fun _ => .pure (by simp)
  refine enter_yields.bind fun _ _ => (join_yields forms formed).bind fun joined formed => ?_
  exact .pure (by simpa using formed)

theorem joins_yields (forms : phrases.Forms limit) {left : Rel} (formed : left.Formed .source) :
    Yields limit (joins phrases left) (Rel.Formed .source) := by
  have rounds : Yields limit (loop (joinStep phrases) (left, 0)) fun it => it.1.Formed .source :=
    .loop (joinStep_yields forms) formed
  exact rounds.bind fun joined holds => (leave_yields _).bind fun _ _ => .pure holds

theorem source_yields (forms : phrases.Forms limit) :
    Yields limit (source phrases) (Rel.Formed .source) :=
  (tablePrimary_yields forms).bind fun _ formed => joins_yields forms formed

/-! ## Windows -/

theorem boundDirection_yields :
    Yields limit boundDirection fun kind => kind ≠ .currentRow := by
  refine (takeWord_yields _).bind fun _ _ => .ite (fun _ => .pure nofun) fun _ => ?_
  refine (takeWord_yields _).bind fun _ _ => .ite (fun _ => .pure nofun) fun _ => ?_
  exact unexpected_yields _ _

theorem frameBound_yields (forms : phrases.Forms limit) :
    Yields limit (frameBound phrases) FrameBound.Formed := by
  refine here_yields.bind fun start _ => (takeWord_yields _).bind fun _ _ => ?_
  refine .ite (fun _ => ?_) fun _ => ?_
  · exact boundDirection_yields.bind fun kind directed => (spanFrom_yields _).bind fun _ _ =>
      .pure ⟨trivial, fun _ => rfl⟩
  refine (atWordBefore_yields _ _).bind fun _ _ => .ite (fun _ => ?_) fun _ => ?_
  · exact advance_yields.bind fun _ _ => advance_yields.bind fun _ _ =>
      (spanFrom_yields _).bind fun _ _ => .pure ⟨trivial, fun _ => rfl⟩
  · refine (expression_yields forms).bind fun value formed => ?_
    refine boundDirection_yields.bind fun kind directed => (spanFrom_yields _).bind fun _ _ => ?_
    exact .pure ⟨formed, fun current => absurd current directed⟩

theorem frameExclusion_yields : Yields limit frameExclusion fun _ => True := by
  refine word?_yields.bind fun word _ => ?_
  split
  · exact advance_yields.bind fun _ _ => (expectWord_yields _).bind fun _ _ => .pure trivial
  · exact advance_yields.bind fun _ _ => .pure trivial
  · exact advance_yields.bind fun _ _ => .pure trivial
  · exact advance_yields.bind fun _ _ => (expectWord_yields _).bind fun _ _ => .pure trivial
  · exact unexpected_yields _ _

theorem frameBounds_yields (forms : phrases.Forms limit) :
    Yields limit (frameBounds phrases)
      fun bounds => bounds.1.Formed ∧ FrameBound.OptionFormed bounds.2 := by
  refine (takeWord_yields _).bind fun _ _ => .ite (fun _ => ?_) fun _ => ?_
  · refine (frameBound_yields forms).bind fun first formed => ?_
    refine (expectWord_yields _).bind fun _ _ => ?_
    exact (frameBound_yields forms).bind fun last formedLast => .pure ⟨formed, formedLast⟩
  · exact (frameBound_yields forms).bind fun first formed => .pure ⟨formed, trivial⟩

theorem optionalExclusion_yields : Yields limit optionalExclusion fun _ => True :=
  (takeWord_yields _).bind fun _ _ =>
    .ite (fun _ => frameExclusion_yields.bind fun _ _ => .pure trivial) fun _ => .pure trivial

theorem frameUnit_yields : Yields limit frameUnit fun _ => True := by
  refine (takeWord_yields _).bind fun _ _ => .ite (fun _ => .pure trivial) fun _ => ?_
  refine (takeWord_yields _).bind fun _ _ => .ite (fun _ => .pure trivial) fun _ => ?_
  exact (takeWord_yields _).bind fun _ _ =>
    .ite (fun _ => .pure trivial) fun _ => .pure trivial

theorem frame_yields (forms : phrases.Forms limit) : Yields limit (frame phrases) Frame.OptionFormed := by
  refine here_yields.bind fun start _ => frameUnit_yields.bind fun unit _ => ?_
  cases unit with
  | none => exact .pure trivial
  | some unit =>
    refine (frameBounds_yields forms).bind fun bounds formed => ?_
    refine optionalExclusion_yields.bind fun _ _ => (spanFrom_yields _).bind fun _ _ => ?_
    exact .pure formed

theorem existingWindow_yields :
    Yields limit existingWindow fun name => ∀ it ∈ name, Name.Proper it :=
  kind_yields.bind fun _ _ => .ite
    (fun _ => identifier_yields.bind fun _ proper => .pure (by simpa using proper))
    fun _ => .pure (by simp)

theorem partitionBy_yields (forms : phrases.Forms limit) :
    Yields limit (partitionBy phrases) (Expr.AllFormed .value) :=
  (takeWord_yields _).bind fun _ _ => .ite
    (fun _ => (expectWord_yields _).bind fun _ _ =>
      (expressions_yields forms).mono fun _ all => all.2)
    fun _ => .pure trivial

theorem windowSpec_yields (forms : phrases.Forms limit) :
    Yields limit (windowSpec phrases) WindowSpec.Formed := by
  refine here_yields.bind fun start _ => (expectSign_yields _).bind fun _ _ => ?_
  refine existingWindow_yields.bind fun existing proper => ?_
  refine (partitionBy_yields forms).bind fun parts formedParts => ?_
  refine (orderBy_yields forms).bind fun keys formedKeys => ?_
  refine (frame_yields forms).bind fun frame formedFrame => ?_
  refine (expectSign_yields _).bind fun _ _ => (spanFrom_yields _).bind fun _ _ => ?_
  exact .pure ⟨proper, formedParts, formedKeys, formedFrame⟩

theorem windowDef_yields (forms : phrases.Forms limit) :
    Yields limit (windowDef phrases) fun window => window.name.Proper ∧ window.spec.Formed := by
  refine here_yields.bind fun start _ => identifier_yields.bind fun name proper => ?_
  refine (expectWord_yields _).bind fun _ _ => ?_
  refine (windowSpec_yields forms).bind fun spec formed => ?_
  exact (spanFrom_yields _).bind fun _ _ => .pure ⟨proper, formed⟩

theorem windows_yields (forms : phrases.Forms limit) :
    Yields limit (windows phrases) WindowDef.AllFormed :=
  (takeWord_yields _).bind fun _ _ => .ite
    (fun _ => (windowDef_yields forms).commaSeparated.mono fun _ all =>
      WindowDef.allFormed_iff.mpr all.2)
    fun _ => .pure trivial

/-! ## Projections and set operations -/

/-- A value may stand where a target is asked for. -/
theorem target_of_value {expr : Expr} (formed : expr.Formed .value) :
    expr.Formed .target := by
  cases expr <;> simp_all [Expr.Formed]

theorem target_yields (forms : phrases.Forms limit) :
    Yields limit (target phrases) (Expr.Formed .target) := by
  refine here_yields.bind fun start _ => (expression_yields forms).bind fun expr formed => ?_
  refine optionalAlias_yields.bind fun name proper => ?_
  cases name with
  | none => exact .pure (target_of_value formed)
  | some name =>
    exact (spanFrom_yields _).bind fun _ _ => .pure ⟨rfl, proper name rfl, formed⟩

theorem sources_yields (forms : phrases.Forms limit) : Yields limit (sources phrases) Rel.AllFormed :=
  (takeWord_yields _).bind fun _ _ => .ite
    (fun _ => (source_yields forms).commaSeparated.mono fun _ all =>
      Rel.allFormed_iff.mpr all.2)
    fun _ => .pure trivial

theorem select_yields (forms : phrases.Forms limit) : Yields limit (select phrases) Select.Formed := by
  refine here_yields.bind fun start _ => (expectWord_yields _).bind fun _ _ => ?_
  refine setQuantifier_yields.bind fun quantifier _ => ?_
  refine (target_yields forms).commaSeparated.bind fun targets formedTargets => ?_
  refine (sources_yields forms).bind fun sources formedSources => ?_
  refine (optionalClause_yields forms _).bind fun selection formedSelection => ?_
  refine (groupClause_yields forms).bind fun grouping formedGrouping => ?_
  refine (optionalClause_yields forms _).bind fun having formedHaving => ?_
  refine (windows_yields forms).bind fun windows formedWindows => ?_
  refine (spanFrom_yields _).bind fun _ _ => .pure ?_
  exact ⟨formedTargets.1, Expr.allFormed_iff.mpr formedTargets.2, formedSources,
    formedSelection, formedGrouping, formedHaving, formedWindows⟩

theorem values_yields (forms : phrases.Forms limit) :
    Yields limit (values phrases) (Rel.Formed .operand) := by
  refine here_yields.bind fun start _ => (expectWord_yields _).bind fun _ _ => ?_
  refine (expressions_yields forms).bind fun rows all => ?_
  exact (spanFrom_yields _).bind fun _ _ => .pure ⟨nofun, all.1, all.2⟩

theorem wholeTable_yields : Yields limit wholeTable (Rel.Formed .operand) := by
  refine here_yields.bind fun start _ => (expectWord_yields _).bind fun _ _ => ?_
  refine qualifiedName_yields.bind fun name proper => ?_
  exact (spanFrom_yields _).bind fun _ _ => .pure ⟨nofun, proper⟩

theorem queryPrimary_yields (forms : phrases.Forms limit) :
    Yields limit (queryPrimary phrases) (Rel.Formed .operand) := by
  refine kind_yields.bind fun kind _ => ?_
  split
  · exact (select_yields forms).bind fun _ formed => .pure ⟨rfl, formed⟩
  · exact values_yields forms
  · exact wholeTable_yields
  · exact forms.query.parenthesized.bind fun query formed => .pure (operand_formed formed)
  · exact unexpected_yields _ _

/-- Set operations keep the operand well formed. -/
theorem setOperationStep_yields (forms : phrases.Forms limit) (least : Nat) (progress : Rel × Nat)
    (formed : progress.1.Formed .operand) :
    Yields limit (setOperationStep phrases least progress)
      fun next => ∀ it ∈ next, it.1.Formed .operand := by
  refine kind_yields.bind fun kind _ => ?_
  split
  · exact .pure (by simp)
  refine .ite (fun _ => .pure (by simp)) fun _ => ?_
  refine enter_yields.bind fun _ _ => advance_yields.bind fun _ _ => ?_
  refine setQuantifier_yields.bind fun quantifier _ => ?_
  refine (queryPrimary_yields forms).bind fun first formedFirst => ?_
  refine (forms.setOperations _ _ formedFirst).bind fun right formedRight => ?_
  refine (spanFrom_yields _).bind fun _ _ => .pure ?_
  rintro it ⟨⟩
  exact ⟨rfl, formed, formedRight⟩

theorem setOperations_yields (forms : phrases.Forms limit) {left : Rel}
    (formed : left.Formed .operand) (least : Nat) :
    Yields limit (setOperations phrases left least) (Rel.Formed .operand) :=
  (Yields.loop (setOperationStep_yields forms least) formed).bind fun _ holds =>
    (leave_yields _).bind fun _ _ => .pure holds

/-! ### Bodies that are no queries -/

/-- A set operation after its operator gives a relation that is no query in parentheses. -/
theorem setOperationRest_yields (forms : phrases.Forms limit) (op : SetOperator) (power : Power)
    (left : Rel) (levels : Nat) :
    Yields limit (do
        enter
        advance
        let quantifier ← setQuantifier
        let first ← queryPrimary phrases
        let right ← phrases.setOperations first power.right
        return some (.setOp op quantifier left right (← spanFrom left.span), levels + 1))
      fun next => ∃ it : Rel × Nat, next = some it ∧ ∀ query, it.1 ≠ .query query := by
  refine enter_yields.bind fun _ _ => advance_yields.bind fun _ _ => ?_
  refine setQuantifier_yields.bind fun quantifier _ => ?_
  refine (queryPrimary_yields forms).bind fun first formedFirst => ?_
  refine (forms.setOperations _ _ formedFirst).bind fun right _ => ?_
  exact (spanFrom_yields _).bind fun _ _ => .pure ⟨_, rfl, nofun⟩

/-- A round of set operations gives no query in parentheses, whatever it is given. -/
theorem setOperationStep_applied (forms : phrases.Forms limit) (least : Nat)
    (progress : Rel × Nat) :
    Yields limit (setOperationStep phrases least progress)
      fun next => ∀ it ∈ next, ∀ query, it.1 ≠ .query query := by
  refine kind_yields.bind fun kind _ => ?_
  split
  · exact .pure (by simp)
  refine .ite (fun _ => .pure (by simp)) fun _ => ?_
  refine (setOperationRest_yields forms _ _ _ _).mono ?_
  rintro next ⟨it, rfl, notQuery⟩ it' ⟨⟩
  exact notQuery

/-- Where a set operator follows, the first round gives something. -/
theorem setOperationStep_yieldsAt (forms : phrases.Forms limit) (progress : Rel × Nat) :
    YieldsAt limit (fun kind => (SetOperator.ofKind? kind).isSome)
      (setOperationStep phrases 0 progress)
      fun next => ∃ it, next = some it ∧ ∀ query, it.1 ≠ .query query := by
  refine kind_looks.bindAt fun kind operator => ?_
  simp only [id]
  split
  · next none => simp [none] at operator
  · refine Yields.at (.ite (fun less => absurd less (Nat.not_lt_zero _)) fun _ => ?_) _
    exact setOperationRest_yields forms _ _ _ _

theorem setOperations_applied (forms : phrases.Forms limit) (left : Rel) :
    YieldsAt limit (fun kind => (SetOperator.ofKind? kind).isSome) (setOperations phrases left 0)
      fun body => ∀ query, body ≠ .query query := by
  have rounds := (setOperationStep_yieldsAt forms (left, 0)).loop
    fun progress _ => setOperationStep_applied forms 0 progress
  exact rounds.bind fun _ holds => (leave_yields _).bind fun _ _ => .pure holds

theorem setOperations_open (forms : phrases.Forms limit) {left : Rel}
    (notQuery : ∀ query, left ≠ .query query) :
    Yields limit (setOperations phrases left 0) fun body => ∀ query, body ≠ .query query := by
  have rounds : Yields limit (loop (setOperationStep phrases 0) (left, 0))
      fun it => ∀ query, it.1 ≠ .query query :=
    .loop (fun progress _ => setOperationStep_applied forms 0 progress) notQuery
  exact rounds.bind fun _ holds => (leave_yields _).bind fun _ _ => .pure holds

/-- Where no set operator follows, set operations read nothing. -/
theorem setOperations_idle (left : Rel) :
    Idle (fun kind => SetOperator.ofKind? kind = none) (setOperations phrases left 0) left := by
  have step (s : State) (none : SetOperator.ofKind? s.current.kind = none) :
      setOperationStep phrases 0 (left, 0) s = .ok Option.none s := by
    simp only [setOperationStep, bind, EStateM.bind, kind_looks s, id, none]
    rfl
  intro s none
  simp only [setOperations, bind, EStateM.bind, loop_stop (step s none)]
  rfl

/-! ## Queries -/

theorem cte_yields (forms : phrases.Forms limit) :
    Yields limit (cte phrases) fun cte => cte.name.Proper ∧
      (∀ column ∈ cte.columns, column.Proper) ∧ cte.query.Formed := by
  refine here_yields.bind fun start _ => identifier_yields.bind fun name proper => ?_
  refine optionalNames_yields.bind fun columns properColumns => ?_
  refine (expectWord_yields _).bind fun _ _ => ?_
  refine forms.query.parenthesized.bind fun query formed => ?_
  exact (spanFrom_yields _).bind fun _ _ => .pure ⟨proper, properColumns, formed⟩

/-- What follows `WITH`. -/
theorem ctes_yields (forms : phrases.Forms limit) (start : Span) :
    Yields limit (do
        let recursive ← takeWord .RECURSIVE
        let ctes ← commaSeparated (cte phrases)
        return some (WithClause.mk recursive ctes (← spanFrom start)))
      fun clause => WithClause.OptionFormed clause ∧ clause ≠ none := by
  refine (takeWord_yields _).bind fun recursive _ => ?_
  refine (cte_yields forms).commaSeparated.bind fun ctes all => ?_
  exact (spanFrom_yields _).bind fun _ _ =>
    .pure ⟨⟨all.1, Cte.allFormed_iff.mpr all.2⟩, nofun⟩

theorem withClause_yields (forms : phrases.Forms limit) :
    Yields limit (withClause phrases) WithClause.OptionFormed := by
  refine here_yields.bind fun start _ => (takeWord_yields _).bind fun _ _ => ?_
  exact .ite (fun _ => (ctes_yields forms start).mono fun _ holds => holds.1)
    fun _ => .pure trivial

theorem withClause_yieldsAt (forms : phrases.Forms limit) :
    YieldsAt limit (· = .keyword .WITH) (withClause phrases) (· ≠ none) := by
  refine here_still.bindAt fun start => (takeWord_yieldsAt .WITH).bind fun taken yes => ?_
  rw [yes]
  exact (ctes_yields forms start).mono fun _ holds => holds.2

theorem withClause_idle : Idle (· ≠ .keyword .WITH) (withClause phrases) none := by
  intro s other
  have rest (start : Span) : Idle (· ≠ .keyword .WITH)
      (do
        if ← takeWord .WITH then
          let recursive ← takeWord .RECURSIVE
          let ctes ← commaSeparated (cte phrases)
          return some (WithClause.mk recursive ctes (← spanFrom start))
        else return none) none :=
    (takeWord_idle .WITH).andThen Idle.pure
  exact rest s.current.span s other

theorem queryBody_yields (forms : phrases.Forms limit) :
    Yields limit (queryBody phrases) Query.Formed := by
  refine here_yields.bind fun start _ => ?_
  refine (withClause_yields forms).bind fun clause formedWith => ?_
  refine (queryPrimary_yields forms).bind fun first formedFirst => ?_
  refine (setOperations_yields forms formedFirst 0).bind fun body formedBody => ?_
  exact queryTail_yields forms start formedWith formedBody

/-- A projection, a list of values or a table is no query in parentheses. -/
theorem queryPrimary_yieldsAt (forms : phrases.Forms limit) :
    YieldsAt limit (fun kind => isQueryStart kind = true) (queryPrimary phrases)
      fun first => ∀ query, first ≠ .query query := by
  have listed : Yields limit (values phrases) fun first => ∀ query, first ≠ .query query := by
    refine here_yields.bind fun start _ => (expectWord_yields _).bind fun _ _ => ?_
    refine (expressions_yields forms).bind fun rows _ => ?_
    exact (spanFrom_yields _).bind fun _ _ => .pure nofun
  have named : Yields limit wholeTable fun first => ∀ query, first ≠ .query query := by
    refine here_yields.bind fun start _ => (expectWord_yields _).bind fun _ _ => ?_
    refine qualifiedName_yields.bind fun name _ => ?_
    exact (spanFrom_yields _).bind fun _ _ => .pure nofun
  refine kind_looks.bindAt fun kind starts => ?_
  refine Yields.at ?_ _
  simp only [id]
  split
  · exact (select_yields forms).bind fun _ _ => .pure nofun
  · exact listed
  · exact named
  · cases starts
  · exact unexpected_yields _ _

/-- A query that begins with a keyword is more than a query in parentheses. -/
theorem queryBody_yieldsAt (forms : phrases.Forms limit) :
    YieldsAt limit (fun kind => isQueryStart kind = true) (queryBody phrases)
      fun query => ¬ query.Wraps := by
  refine here_still.bindAt fun start => ?_
  have atWith : YieldsAt limit (· = .keyword .WITH)
      (do
        let clause ← withClause phrases
        let first ← queryPrimary phrases
        let body ← setOperations phrases first 0
        queryTail phrases clause body start) fun query => ¬ query.Wraps := by
    refine (withClause_yieldsAt forms).bind fun clause present => ?_
    refine (queryPrimary_yields forms).bind fun first formed => ?_
    refine (setOperations_yields forms formed 0).bind fun body _ => ?_
    refine (queryTail_keeps forms clause body start).mono ?_
    rintro query ⟨sameClause, -⟩ ⟨bare, -⟩
    simp [Query.isBare, sameClause, present] at bare
  have elsewhere : YieldsAt limit (fun kind => kind ≠ .keyword .WITH ∧ isQueryStart kind = true)
      (do
        let clause ← withClause phrases
        let first ← queryPrimary phrases
        let body ← setOperations phrases first 0
        queryTail phrases clause body start) fun query => ¬ query.Wraps := by
    refine Idle.bind (withClause_idle.mono fun kind here => here.1) ?_
    have first : YieldsAt limit (fun kind => kind ≠ .keyword .WITH ∧ isQueryStart kind = true)
        (queryPrimary phrases) fun first => first.Formed .operand ∧ ∀ query, first ≠ .query query :=
      ((queryPrimary_yields forms).at _).and fun s sound here =>
        queryPrimary_yieldsAt forms s sound here.2
    refine first.bind fun first holds => ?_
    refine (setOperations_open forms holds.2).bind fun body notQuery => ?_
    refine (queryTail_keeps forms none body start).mono ?_
    rintro query ⟨-, rfl⟩ ⟨-, inner, isQuery⟩
    exact notQuery inner isQuery
  intro s sound starts
  -- with a `WITH` clause the query is not bare; without one its first operand is no query in
  -- parentheses
  rcases Classical.em (s.current.kind = .keyword .WITH) with here | other
  · exact atWith s sound here
  · exact elsewhere s sound ⟨other, starts⟩

end CanonicalSql.Parse

namespace CanonicalSql.Phrases

open Parse

theorem exhausted_forms : exhausted.Forms limit where
  operand _ := .throw _ _
  query := .throw _ _
  startedQuery := (Yields.throw _ _).at _
  setOperations _ _ _ := .throw _ _
  setOperationsApplied _ := (Yields.throw _ _).at _
  setOperationsIdle _ _ _ _ _ run := by cases run
  tablePrimary := .throw _ _
  joins _ _ := .throw _ _
  groupingElement := .throw _ _

/-- What the phrases of one level give is well formed if what those of the level below give
is. -/
theorem Forms.above {phrases : Phrases} (forms : phrases.Forms limit) : phrases.above.Forms limit where
  operand least := operand_yields forms least
  query := (queryBody_yields forms).nested
  startedQuery := (queryBody_yieldsAt forms).nested
  setOperations _ least formed := setOperations_yields forms formed least
  setOperationsApplied left := setOperations_applied forms left
  setOperationsIdle left s body s' none run := by
    have idle : phrases.above.setOperations left 0 s = .ok left s := setOperations_idle left s none
    rw [idle] at run
    cases run
    rfl
  tablePrimary := tablePrimary_yields forms
  joins _ formed := joins_yields forms formed
  groupingElement := groupingElement_yields forms

/-- All levels of the recursive rules give well-formed trees. -/
theorem within_forms (bound : Nat) : (within bound).Forms limit := by
  induction bound with
  | zero => exact exhausted_forms
  | succ bound ih => exact ih.above

end CanonicalSql.Phrases
