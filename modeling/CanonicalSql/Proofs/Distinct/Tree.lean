import CanonicalSql.Proofs.Distinct.Query

/-!
# Trees told apart

Every part of a tree is told from all others of its sort, whatever role it plays where it stands
(`Expr.apart`, `Rel.apart`, `Query.distinct_of_formed`). The recursion is along the tree, and what
each form of node needs of its parts is a lemma of the form.
-/
namespace CanonicalSql

/-- The expression is told from all others in whichever role it can play. -/
structure Expr.Apart (expr : Expr) : Prop where
  value : expr.Formed .value → expr.Told
  target : expr.Formed .target → expr.DistinctTarget
  grouping : expr.Formed .grouping → expr.DistinctGrouping

/-- The relation is told from all others in whichever role it can play. -/
structure Rel.Apart (rel : Rel) : Prop where
  source : rel.Formed .source → rel.DistinctSource
  aliased : rel.Formed .source → rel.DistinctAliased
  operand : rel.Formed .operand → rel.DistinctOperand
  body : rel.Formed .operand → rel.DistinctBody
  members : rel.Formed .members → rel.DistinctMembers

namespace Expr.Apart

variable {expr : Expr} {exprs : List Expr}

theorem distinct (apart : expr.Apart) (formed : expr.Formed .value) : expr.Distinct :=
  (apart.value formed).distinct

/-- A value that is no operator and no predicate has no first operand to be told. -/
theorem of_distinct (unnamed : ∀ name inner span, expr ≠ .named name inner span)
    (noGrouping : ¬ expr.Formed .grouping)
    (noFirst : ∀ first more, ¬ expr.Follows first more)
    (distinct : expr.Formed .value → expr.Distinct) : expr.Apart where
  value formed := ⟨distinct formed, fun follows => absurd follows (noFirst _ _)⟩
  target formed := (distinct (value_of_target formed unnamed)).target
  grouping formed := absurd formed noGrouping

/-- An operator or a predicate, whose first operand is told from other values. -/
theorem of_first {first : Expr} (unnamed : ∀ name inner span, expr ≠ .named name inner span)
    (noGrouping : ¬ expr.Formed .grouping)
    (isFirst : ∀ other more, expr.Follows other more → other = first) (apart : first.Apart)
    (distinct : expr.Formed .value → expr.Distinct) : expr.Apart where
  value formed := by
    refine ⟨distinct formed, ?_⟩
    intro other more follows
    obtain rfl := isFirst other more follows
    exact apart.distinct (follows.first_formed formed)
  target formed := (distinct (value_of_target formed unnamed)).target
  grouping formed := absurd formed noGrouping

theorem of_grouping (noValue : ¬ expr.Formed .value) (noTarget : ¬ expr.Formed .target)
    (grouping : expr.Formed .grouping → expr.DistinctGrouping) : expr.Apart where
  value formed := absurd formed noValue
  target formed := absurd formed noTarget
  grouping := grouping

theorem all_distinct (apart : ∀ expr ∈ exprs, expr.Apart) (formed : Expr.AllFormed .value exprs) :
    ∀ expr ∈ exprs, expr.Distinct :=
  fun expr member => (apart expr member).distinct (allFormed_iff.mp formed expr member)

theorem all_told (apart : ∀ expr ∈ exprs, expr.Apart) (formed : Expr.AllFormed .value exprs) :
    ∀ expr ∈ exprs, expr.Told :=
  fun expr member => (apart expr member).value (allFormed_iff.mp formed expr member)

theorem option_distinct {expr : Option Expr} (apart : ∀ it ∈ expr, it.Apart)
    (formed : Expr.OptionFormed expr) : ∀ it ∈ expr, it.Distinct :=
  fun it member => (apart it member).distinct (optionFormed_iff.mp formed it member)

theorem keys_distinct {keys : List SortKey} (apart : ∀ key ∈ keys, key.expr.Apart)
    (formed : SortKey.AllFormed keys) : ∀ key ∈ keys, key.expr.Distinct := by
  intro key member
  have keyFormed := SortKey.allFormed_iff.mp formed key member
  cases key
  exact (apart _ member).distinct keyFormed

theorem named {name : Name} {span : Span} (apart : expr.Apart) :
    (Expr.named name expr span).Apart where
  value formed := by cases formed.1
  target formed := named_distinctTarget (apart.distinct formed.2.2)
  grouping formed := by cases formed.1

end Expr.Apart

namespace Rel.Apart

variable {rel : Rel}

theorem of_source (noOperand : ¬ rel.Formed .operand) (noMembers : ¬ rel.Formed .members)
    (aliased : rel.Formed .source → rel.DistinctAliased)
    (source : rel.Formed .source → rel.DistinctSource) : rel.Apart where
  source := source
  aliased := aliased
  operand formed := absurd formed noOperand
  body formed := absurd formed noOperand
  members formed := absurd formed noMembers

theorem of_operand (noSource : ¬ rel.Formed .source) (noMembers : ¬ rel.Formed .members)
    (operand : rel.Formed .operand → rel.DistinctOperand)
    (body : rel.Formed .operand → rel.DistinctBody) : rel.Apart where
  source formed := absurd formed noSource
  aliased formed := absurd formed noSource
  operand := operand
  body := body
  members formed := absurd formed noMembers

/-- A body that is no set operation is told as an operand is. -/
theorem body_of_operand (first : rel.firstOperand = rel) (noMore : rel.furtherTokens = [])
    (operand : rel.Formed .operand → rel.DistinctOperand) (formed : rel.Formed .operand) :
    rel.DistinctBody :=
  distinctBody_of_operand formed first noMore (operand formed)

theorem join {kind : JoinKind} {natural : Bool} {condition : JoinCondition} {left right : Rel}
    {span : Span} (leftApart : left.Apart) (rightApart : right.Apart)
    (conditionApart : ∀ expr, condition = .onExpr expr → expr.Apart) :
    (Rel.join kind natural condition left right span).Apart := by
  have aliased (formed : (Rel.join kind natural condition left right span).Formed .source) :
      (Rel.join kind natural condition left right span).DistinctAliased := by
    obtain ⟨-, -, conditionFormed, leftFormed, rightFormed⟩ := id formed
    refine join_distinctAliased formed (leftApart.source leftFormed)
      (rightApart.source rightFormed) ?_
    rintro expr rfl
    exact (conditionApart expr rfl).distinct conditionFormed
  refine .of_source (by simp [Formed]) (by simp [Formed]) aliased fun formed => ?_
  exact distinctSource_of_aliased formed rfl (aliased formed)

theorem table (name : QualifiedName) (span : Span) : (Rel.table name span).Apart where
  source formed := distinctSource_of_aliased formed rfl table_distinctAliased
  aliased _ := table_distinctAliased
  operand := table_distinctOperand
  body := body_of_operand rfl rfl table_distinctOperand
  members formed := absurd rfl formed.1

theorem named {name : Name} {columns : List Name} {relation : Rel} {span : Span}
    (apart : relation.Apart) : (Rel.named name columns relation span).Apart := by
  have source (formed : (Rel.named name columns relation span).Formed .source) :
      (Rel.named name columns relation span).DistinctSource :=
    named_distinctSource (apart.aliased formed.2.2.2)
  exact .of_source (by simp [Formed]) (by simp [Formed])
    (fun formed => named_distinctAliased formed (source formed)) source

theorem select {select : Select} (distinct : select.Formed → select.Distinct) :
    (Rel.select select).Apart := by
  have operand (formed : (Rel.select select).Formed .operand) :
      (Rel.select select).DistinctOperand :=
    select_distinctOperand formed (distinct formed.2)
  exact .of_operand (by simp [Formed]) (by simp [Formed]) operand (body_of_operand rfl rfl operand)

theorem values {rows : List Expr} {span : Span} (apart : ∀ row ∈ rows, row.Apart) :
    (Rel.values rows span).Apart := by
  have operand (formed : (Rel.values rows span).Formed .operand) :
      (Rel.values rows span).DistinctOperand :=
    values_distinctOperand formed (Expr.Apart.all_distinct apart formed.2.2)
  have members (formed : (Rel.values rows span).Formed .members) :
      (Rel.values rows span).DistinctMembers :=
    values_distinctMembers formed (Expr.Apart.all_distinct apart formed.2.2)
  exact ⟨fun formed => absurd rfl formed.1, fun formed => absurd rfl formed.1, operand,
    body_of_operand rfl rfl operand, members⟩

theorem setOp {op : SetOperator} {quantifier : Option SetQuantifier} {left right : Rel} {span : Span}
    (leftApart : left.Apart) (rightApart : right.Apart) :
    (Rel.setOp op quantifier left right span).Apart := by
  have body (formed : (Rel.setOp op quantifier left right span).Formed .operand) :
      (Rel.setOp op quantifier left right span).DistinctBody :=
    setOp_distinctBody formed (leftApart.operand formed.2.1) (rightApart.operand formed.2.2)
  -- as an operand the set operation is the body of a query without clauses
  have operand (formed : (Rel.setOp op quantifier left right span).Formed .operand) :
      (Rel.setOp op quantifier left right span).DistinctOperand := by
    refine enclosed_distinctOperand formed rfl ?_
    exact Query.distinct_of (enclosedQuery_formed formed)
      ⟨nofun, body formed, nofun, nofun, nofun⟩
  exact .of_operand (by simp [Formed]) (by simp [Formed]) operand body

theorem query {query : Query} (distinct : query.Formed → query.Distinct) :
    (Rel.query query).Apart := by
  have aliased (formed : (Rel.query query).Formed .source) : (Rel.query query).DistinctAliased :=
    query_distinctAliased formed (distinct formed.1)
  have operand (formed : (Rel.query query).Formed .operand) : (Rel.query query).DistinctOperand :=
    enclosed_distinctOperand formed rfl (distinct formed.1)
  exact ⟨fun formed => distinctSource_of_aliased formed rfl (aliased formed), aliased, operand,
    body_of_operand rfl rfl operand, fun formed => query_distinctMembers formed (distinct formed.1)⟩

end Rel.Apart

/-! ## The recursion -/

section

open CanonicalSql.Expr

mutual

theorem Expr.apart : ∀ expr : Expr, expr.Apart
  | .asterisk .. => .of_distinct (by simp) (fun formed => formed.1 rfl) nofun asterisk_distinct
  | .integer .. | .float .. | .string .. =>
    .of_distinct (by simp) (fun formed => formed.1 rfl) nofun fun formed =>
      distinct_of_literal formed rfl
  | .truth .. | .null _ =>
    .of_distinct (by simp) (fun formed => formed rfl) nofun fun formed =>
      distinct_of_literal formed rfl
  | .column .. => .of_distinct (by simp) (fun formed => formed.1 rfl) nofun column_distinct
  | .named _ expr _ => (Expr.apart expr).named
  | .unary _ operand _ =>
    .of_distinct (by simp) (fun formed => formed.1 rfl) nofun fun formed =>
      unary_distinct formed ((Expr.apart operand).distinct formed.2)
  | .binary left _ right _ =>
    .of_first (by simp) (fun formed => formed.1 rfl) (by rintro _ _ ⟨⟩; rfl) (Expr.apart left)
      fun formed => binary_distinct formed ((Expr.apart left).distinct formed.2.1)
        ((Expr.apart right).distinct formed.2.2)
  | .collate expr _ _ =>
    .of_first (by simp) (fun formed => formed.1 rfl) (by rintro _ _ ⟨⟩; rfl) (Expr.apart expr)
      fun formed => collate_distinct formed ((Expr.apart expr).distinct formed.2.1)
  | .isTruth expr _ _ =>
    .of_first (by simp) (fun formed => formed.1 rfl) (by rintro _ _ ⟨⟩; rfl) (Expr.apart expr)
      fun formed => isTruth_distinct formed ((Expr.apart expr).distinct formed.2)
  | .isNull expr _ =>
    .of_first (by simp) (fun formed => formed.1 rfl) (by rintro _ _ ⟨⟩; rfl) (Expr.apart expr)
      fun formed => isNull_distinct formed ((Expr.apart expr).distinct formed.2)
  | .between expr low high _ _ =>
    .of_first (by simp) (fun formed => formed.1 rfl) (by rintro _ _ ⟨⟩; rfl) (Expr.apart expr)
      fun formed => between_distinct formed ((Expr.apart expr).distinct formed.2.1)
        ((Expr.apart low).distinct formed.2.2.1) ((Expr.apart high).distinct formed.2.2.2)
  | .within expr rows _ =>
    .of_first (by simp) (fun formed => formed.1 rfl) (by rintro _ _ ⟨⟩; rfl) (Expr.apart expr)
      fun formed => within_distinct formed ((Expr.apart expr).distinct formed.2.1)
        ((Rel.apart rows).members formed.2.2)
  | .like expr pattern escape _ =>
    .of_first (by simp) (fun formed => formed.1 rfl) (by rintro _ _ ⟨⟩; rfl) (Expr.apart expr)
      fun formed => like_distinct formed ((Expr.apart expr).distinct formed.2.1)
        ((Expr.apart pattern).distinct formed.2.2.1)
        (Expr.Apart.option_distinct (Expr.apart_option escape) formed.2.2.2)
  | .existence query _ =>
    .of_distinct (by simp) (fun formed => formed.1 rfl) nofun fun formed =>
      existence_distinct formed (Query.distinct_of_formed query formed.2)
  | .uniqueness query _ =>
    .of_distinct (by simp) (fun formed => formed.1 rfl) nofun fun formed =>
      uniqueness_distinct formed (Query.distinct_of_formed query formed.2)
  | .row values _ =>
    .of_distinct (by simp) (fun formed => formed.1 rfl) nofun fun formed =>
      row_distinct formed (Expr.Apart.all_distinct (Expr.apart_all values) formed.2)
  | .subquery query _ =>
    .of_distinct (by simp) (fun formed => formed.1 rfl) nofun fun formed =>
      subquery_distinct formed (Query.distinct_of_formed query formed.2.1)
  | .sortKey _ => ⟨False.elim, False.elim, False.elim⟩
  | .groupingSet set =>
    .of_grouping (by simp [Formed]) (by simp [Formed]) fun formed =>
      groupingSet_distinct formed.2 (GroupingSet.told set formed.2)
  | .groupingSets sets _ => by
    refine .of_grouping (by simp [Formed]) (by simp [Formed]) fun formed => ?_
    refine groupingSets_distinct formed.2.1 fun set member => ?_
    exact (Expr.apart_all sets set member).grouping (allFormed_iff.mp formed.2.2 set member)
  | .rollup sets _ =>
    .of_grouping (by simp [Formed]) (by simp [Formed]) fun formed =>
      rollup_distinct formed.2.1 formed.2.2 (GroupingSet.all_told sets formed.2.2)
  | .cube sets _ =>
    .of_grouping (by simp [Formed]) (by simp [Formed]) fun formed =>
      cube_distinct formed.2.1 formed.2.2 (GroupingSet.all_told sets formed.2.2)
  | .aggregate _ _ argument filter _ =>
    .of_distinct (by simp) (fun formed => formed.1 rfl) nofun fun formed =>
      aggregate_distinct formed ((Expr.apart argument).distinct formed.2.1)
        (Expr.Apart.option_distinct (Expr.apart_option filter) formed.2.2)

theorem Expr.apart_all : ∀ exprs : List Expr, ∀ expr ∈ exprs, expr.Apart
  | [] => nofun
  | expr :: rest => List.forall_mem_cons.mpr ⟨Expr.apart expr, Expr.apart_all rest⟩

theorem Expr.apart_option : ∀ expr : Option Expr, ∀ it ∈ expr, it.Apart
  | none => nofun
  | some expr => by
    rintro it ⟨⟩
    exact Expr.apart expr

theorem SortKey.apart_all : ∀ keys : List SortKey, ∀ key ∈ keys, key.expr.Apart
  | [] => nofun
  | ⟨expr, _, _, _⟩ :: rest =>
    List.forall_mem_cons.mpr ⟨Expr.apart expr, SortKey.apart_all rest⟩

theorem GroupingSet.told : ∀ set : GroupingSet, set.Formed → ∀ column ∈ set.columns, column.Told
  | ⟨columns, _⟩, formed => Expr.Apart.all_told (Expr.apart_all columns) formed

theorem GroupingSet.all_told : ∀ sets : List GroupingSet, GroupingSet.AllFormed sets →
    ∀ set ∈ sets, ∀ column ∈ set.columns, column.Told
  | [], _ => nofun
  | set :: rest, formed =>
    List.forall_mem_cons.mpr ⟨GroupingSet.told set formed.1, GroupingSet.all_told rest formed.2⟩

theorem Rel.apart : ∀ rel : Rel, rel.Apart
  | .join _ _ condition left right _ =>
    .join (Rel.apart left) (Rel.apart right) (JoinCondition.apart condition)
  | .table name span => .table name span
  | .named _ _ relation _ => .named (Rel.apart relation)
  | .select select => .select (Select.distinct_of_formed select)
  | .values rows _ => .values (Expr.apart_all rows)
  | .setOp _ _ left right _ => .setOp (Rel.apart left) (Rel.apart right)
  | .query query => .query (Query.distinct_of_formed query)

theorem Rel.apart_all : ∀ rels : List Rel, ∀ rel ∈ rels, rel.Apart
  | [] => nofun
  | rel :: rest => List.forall_mem_cons.mpr ⟨Rel.apart rel, Rel.apart_all rest⟩

theorem JoinCondition.apart :
    ∀ condition : JoinCondition, ∀ expr, condition = .onExpr expr → expr.Apart
  | .onExpr expr => by
    rintro _ ⟨⟩
    exact Expr.apart expr
  | .absent | .usingColumns _ => nofun

theorem FrameBound.distinct :
    ∀ bound : FrameBound, bound.Formed → ∀ value ∈ bound.value, value.Distinct
  | ⟨_, value, _⟩, formed => Expr.Apart.option_distinct (Expr.apart_option value) formed.1

theorem FrameBound.distinct_option : ∀ bound : Option FrameBound, FrameBound.OptionFormed bound →
    ∀ it ∈ bound, ∀ value ∈ it.value, value.Distinct
  | none, _ => nofun
  | some bound, formed => by
    rintro it ⟨⟩
    exact FrameBound.distinct bound formed

theorem Frame.start_distinct : ∀ frame : Option Frame, Frame.OptionFormed frame →
    ∀ it ∈ frame, (∀ value ∈ it.start.value, value.Distinct) ∧
      ∀ bound ∈ it.stop, ∀ value ∈ bound.value, value.Distinct
  | none, _ => nofun
  | some ⟨_, start, stop, _, _⟩, formed => by
    rintro it ⟨⟩
    exact ⟨FrameBound.distinct start formed.1, FrameBound.distinct_option stop formed.2⟩

theorem WindowSpec.distinct_of_formed : ∀ spec : WindowSpec, spec.Formed → spec.Distinct
  | ⟨_, partitionBy, orderBy, frame, _⟩, formed => by
    have bounds := Frame.start_distinct frame formed.2.2.2
    exact WindowSpec.distinct_of formed
      (Expr.Apart.all_distinct (Expr.apart_all partitionBy) formed.2.1)
      (Expr.Apart.keys_distinct (SortKey.apart_all orderBy) formed.2.2.1)
      (fun it member => (bounds it member).1) fun it member => (bounds it member).2

theorem WindowDef.distinct_all : ∀ windows : List WindowDef, WindowDef.AllFormed windows →
    ∀ window ∈ windows, window.spec.Distinct
  | [], _ => nofun
  | ⟨_, spec, _⟩ :: rest, formed =>
    List.forall_mem_cons.mpr
      ⟨WindowSpec.distinct_of_formed spec formed.2.1, WindowDef.distinct_all rest formed.2.2⟩

theorem Select.distinct_of_formed : ∀ select : Select, select.Formed → select.Distinct
  | ⟨_, targets, sources, selection, groupBy, having, windows, _⟩, formed => by
    obtain ⟨-, targetsFormed, sourcesFormed, selectionFormed, groupFormed, havingFormed,
      windowsFormed⟩ := id formed
    refine Select.distinct_of formed ⟨?_, ?_, ?_, ?_, ?_, ?_⟩
    · intro target member
      exact (Expr.apart_all targets target member).target
        (Expr.allFormed_iff.mp targetsFormed target member)
    · intro rel member
      exact (Rel.apart_all sources rel member).source
        (Rel.allFormed_iff.mp sourcesFormed rel member)
    · exact Expr.Apart.option_distinct (Expr.apart_option selection) selectionFormed
    · exact GroupClause.distinct groupBy groupFormed
    · exact Expr.Apart.option_distinct (Expr.apart_option having) havingFormed
    · exact WindowDef.distinct_all windows windowsFormed

theorem GroupClause.distinct : ∀ clause : Option GroupClause, GroupClause.OptionFormed clause →
    ∀ it ∈ clause, ∀ grouping ∈ it.groupings, grouping.DistinctGrouping
  | none, _ => nofun
  | some ⟨_, groupings, _⟩, formed => by
    rintro it ⟨⟩ grouping member
    exact (Expr.apart_all groupings grouping member).grouping
      (Expr.allFormed_iff.mp formed.2 grouping member)

theorem Cte.distinct_all : ∀ ctes : List Cte, Cte.AllFormed ctes →
    ∀ cte ∈ ctes, cte.query.Distinct
  | [], _ => nofun
  | ⟨_, _, query, _⟩ :: rest, formed =>
    List.forall_mem_cons.mpr
      ⟨Query.distinct_of_formed query formed.2.2.1, Cte.distinct_all rest formed.2.2.2⟩

theorem WithClause.distinct : ∀ clause : Option WithClause, WithClause.OptionFormed clause →
    ∀ it ∈ clause, ∀ cte ∈ it.ctes, cte.query.Distinct
  | none, _ => nofun
  | some ⟨_, ctes, _⟩, formed => by
    rintro it ⟨⟩
    exact Cte.distinct_all ctes formed.2

theorem Fetch.distinct : ∀ fetch : Option Fetch, Fetch.OptionFormed fetch →
    ∀ it ∈ fetch, ∀ count ∈ it.count, count.Distinct
  | none, _ => nofun
  | some ⟨_, count, _, _, _⟩, formed => by
    rintro it ⟨⟩
    exact Expr.Apart.option_distinct (Expr.apart_option count) formed.1

theorem Query.distinct_of_formed : ∀ query : Query, query.Formed → query.Distinct
  | ⟨withClause, body, orderBy, offset, fetch, _⟩, formed => by
    obtain ⟨withFormed, bodyFormed, keysFormed, offsetFormed, fetchFormed⟩ := id formed
    exact Query.distinct_of formed
      ⟨WithClause.distinct withClause withFormed, (Rel.apart body).body bodyFormed,
        Expr.Apart.keys_distinct (SortKey.apart_all orderBy) keysFormed,
        Expr.Apart.option_distinct (Expr.apart_option offset) offsetFormed,
        Fetch.distinct fetch fetchFormed⟩

end

end

/-- No other value is written alike. -/
theorem Expr.distinct_of_formed {expr : Expr} (formed : expr.Formed .value) : expr.Distinct :=
  (Expr.apart expr).distinct formed

end CanonicalSql
