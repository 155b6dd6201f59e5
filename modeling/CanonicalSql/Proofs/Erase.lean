import CanonicalSql.Canonical.Statement
import CanonicalSql.Depth
import CanonicalSql.Tree.Alike

/-!
# Trees without their places

Erasing a tree puts the same span at every node. Two trees are alike if and only if nothing
is left to tell them apart once they are erased (`Statement.alike_iff_erase`), and neither
the canonical text of a tree nor its depth hangs on its spans.
-/
namespace CanonicalSql

mutual

/-- An expression without its places. -/
def Expr.erase : Expr → Expr
  | .asterisk qualifier _ => .asterisk qualifier default
  | .integer value _ => .integer value default
  | .float value _ => .float value default
  | .string value kind _ => .string value kind default
  | .truth value _ => .truth value default
  | .null _ => .null default
  | .column name _ => .column name default
  | .named name expr _ => .named name expr.erase default
  | .unary op operand _ => .unary op operand.erase default
  | .binary left op right _ => .binary left.erase op right.erase default
  | .collate expr collation _ => .collate expr.erase collation default
  | .isTruth expr value _ => .isTruth expr.erase value default
  | .isNull expr _ => .isNull expr.erase default
  | .between expr low high symmetric _ =>
    .between expr.erase low.erase high.erase symmetric default
  | .within expr rows _ => .within expr.erase rows.erase default
  | .like expr pattern escape _ =>
    .like expr.erase pattern.erase (Expr.eraseOption escape) default
  | .existence query _ => .existence query.erase default
  | .uniqueness query _ => .uniqueness query.erase default
  | .row values _ => .row (Expr.eraseAll values) default
  | .subquery query _ => .subquery query.erase default
  | .sortKey key => .sortKey key.erase
  | .groupingSet set => .groupingSet set.erase
  | .groupingSets sets _ => .groupingSets (Expr.eraseAll sets) default
  | .rollup sets _ => .rollup (GroupingSet.eraseAll sets) default
  | .cube sets _ => .cube (GroupingSet.eraseAll sets) default
  | .aggregate function quantifier argument filter _ =>
    .aggregate function quantifier argument.erase (Expr.eraseOption filter) default

/-- Expressions without their places. -/
def Expr.eraseAll : List Expr → List Expr
  | [] => []
  | expr :: rest => expr.erase :: Expr.eraseAll rest

/-- An expression without its places, if there is one. -/
def Expr.eraseOption : Option Expr → Option Expr
  | none => none
  | some expr => some expr.erase

/-- A sort key without its places. -/
def SortKey.erase : SortKey → SortKey
  | ⟨expr, order, nulls, _⟩ => ⟨expr.erase, order, nulls, default⟩

/-- Sort keys without their places. -/
def SortKey.eraseAll : List SortKey → List SortKey
  | [] => []
  | key :: rest => key.erase :: SortKey.eraseAll rest

/-- A grouping set without its places. -/
def GroupingSet.erase : GroupingSet → GroupingSet
  | ⟨columns, _⟩ => ⟨Expr.eraseAll columns, default⟩

/-- Grouping sets without their places. -/
def GroupingSet.eraseAll : List GroupingSet → List GroupingSet
  | [] => []
  | set :: rest => set.erase :: GroupingSet.eraseAll rest

/-- A join condition without its places. -/
def JoinCondition.erase : JoinCondition → JoinCondition
  | .absent => .absent
  | .onExpr condition => .onExpr condition.erase
  | .usingColumns columns => .usingColumns columns

/-- A relation without its places. -/
def Rel.erase : Rel → Rel
  | .join kind natural condition left right _ =>
    .join kind natural condition.erase left.erase right.erase default
  | .table name _ => .table name default
  | .named name columns relation _ => .named name columns relation.erase default
  | .select select => .select select.erase
  | .values rows _ => .values (Expr.eraseAll rows) default
  | .setOp op quantifier left right _ => .setOp op quantifier left.erase right.erase default
  | .query query => .query query.erase

/-- Relations without their places. -/
def Rel.eraseAll : List Rel → List Rel
  | [] => []
  | rel :: rest => rel.erase :: Rel.eraseAll rest

/-- A `GROUP BY` clause without its places, if there is one. -/
def GroupClause.eraseOption : Option GroupClause → Option GroupClause
  | none => none
  | some ⟨quantifier, groupings, _⟩ => some ⟨quantifier, Expr.eraseAll groupings, default⟩

/-- A frame bound without its places. -/
def FrameBound.erase : FrameBound → FrameBound
  | ⟨kind, value, _⟩ => ⟨kind, Expr.eraseOption value, default⟩

/-- A frame bound without its places, if there is one. -/
def FrameBound.eraseOption : Option FrameBound → Option FrameBound
  | none => none
  | some bound => some bound.erase

/-- A frame without its places. -/
def Frame.erase : Frame → Frame
  | ⟨unit, start, stop, exclusion, _⟩ =>
    ⟨unit, start.erase, FrameBound.eraseOption stop, exclusion, default⟩

/-- A frame without its places, if there is one. -/
def Frame.eraseOption : Option Frame → Option Frame
  | none => none
  | some frame => some frame.erase

/-- The body of a window without its places. -/
def WindowSpec.erase : WindowSpec → WindowSpec
  | ⟨existing, partitionBy, orderBy, frame, _⟩ =>
    ⟨existing, Expr.eraseAll partitionBy, SortKey.eraseAll orderBy, Frame.eraseOption frame,
      default⟩

/-- Window definitions without their places. -/
def WindowDef.eraseAll : List WindowDef → List WindowDef
  | [] => []
  | ⟨name, spec, _⟩ :: rest => ⟨name, spec.erase, default⟩ :: WindowDef.eraseAll rest

/-- A projection without its places. -/
def Select.erase : Select → Select
  | ⟨quantifier, targets, sources, selection, groupBy, having, windows, _⟩ =>
    ⟨quantifier, Expr.eraseAll targets, Rel.eraseAll sources, Expr.eraseOption selection,
      GroupClause.eraseOption groupBy, Expr.eraseOption having, WindowDef.eraseAll windows,
      default⟩

/-- Common table expressions without their places. -/
def Cte.eraseAll : List Cte → List Cte
  | [] => []
  | ⟨name, columns, query, _⟩ :: rest =>
    ⟨name, columns, query.erase, default⟩ :: Cte.eraseAll rest

/-- A `WITH` clause without its places, if there is one. -/
def WithClause.eraseOption : Option WithClause → Option WithClause
  | none => none
  | some ⟨recursive, ctes, _⟩ => some ⟨recursive, Cte.eraseAll ctes, default⟩

/-- A `FETCH` clause without its places, if there is one. -/
def Fetch.eraseOption : Option Fetch → Option Fetch
  | none => none
  | some ⟨kind, count, percent, withTies, _⟩ =>
    some ⟨kind, Expr.eraseOption count, percent, withTies, default⟩

/-- A query without its places. -/
def Query.erase : Query → Query
  | ⟨withClause, body, orderBy, offset, fetch, _⟩ =>
    ⟨WithClause.eraseOption withClause, body.erase, SortKey.eraseAll orderBy,
      Expr.eraseOption offset, Fetch.eraseOption fetch, default⟩

end

/-! Lists are erased member by member. -/

theorem Expr.eraseAll_eq_map (exprs : List Expr) : Expr.eraseAll exprs = exprs.map Expr.erase := by
  induction exprs with
  | nil => rfl
  | cons expr rest ih => simp [Expr.eraseAll, ih]

theorem SortKey.eraseAll_eq_map (keys : List SortKey) :
    SortKey.eraseAll keys = keys.map SortKey.erase := by
  induction keys with
  | nil => rfl
  | cons key rest ih => simp [SortKey.eraseAll, ih]

theorem GroupingSet.eraseAll_eq_map (sets : List GroupingSet) :
    GroupingSet.eraseAll sets = sets.map GroupingSet.erase := by
  induction sets with
  | nil => rfl
  | cons set rest ih => simp [GroupingSet.eraseAll, ih]

theorem Rel.eraseAll_eq_map (rels : List Rel) : Rel.eraseAll rels = rels.map Rel.erase := by
  induction rels with
  | nil => rfl
  | cons rel rest ih => simp [Rel.eraseAll, ih]

/-- A window definition without its places. -/
def WindowDef.erase (window : WindowDef) : WindowDef :=
  ⟨window.name, window.spec.erase, default⟩

theorem WindowDef.eraseAll_eq_map (windows : List WindowDef) :
    WindowDef.eraseAll windows = windows.map WindowDef.erase := by
  induction windows with
  | nil => rfl
  | cons window rest ih =>
    cases window
    simp [WindowDef.eraseAll, WindowDef.erase, ih]

/-- A common table expression without its places. -/
def Cte.erase (cte : Cte) : Cte := ⟨cte.name, cte.columns, cte.query.erase, default⟩

theorem Cte.eraseAll_eq_map (ctes : List Cte) : Cte.eraseAll ctes = ctes.map Cte.erase := by
  induction ctes with
  | nil => rfl
  | cons cte rest ih =>
    cases cte
    simp [Cte.eraseAll, Cte.erase, ih]

/-! ## Likeness is equality of erased trees -/

mutual

theorem Expr.alike_iff : ∀ one other : Expr,
    one.alike other = true ↔ one.erase = other.erase
  | .asterisk .., other => by
    cases other with
    | asterisk => simp [Expr.alike, Expr.erase]
    | _ => exact iff_of_false Bool.false_ne_true Expr.noConfusion
  | .integer .., other => by
    cases other with
    | integer => simp [Expr.alike, Expr.erase]
    | _ => exact iff_of_false Bool.false_ne_true Expr.noConfusion
  | .float .., other => by
    cases other with
    | float => simp [Expr.alike, Expr.erase]
    | _ => exact iff_of_false Bool.false_ne_true Expr.noConfusion
  | .string .., other => by
    cases other with
    | string => simp [Expr.alike, Expr.erase]
    | _ => exact iff_of_false Bool.false_ne_true Expr.noConfusion
  | .truth .., other => by
    cases other with
    | truth => simp [Expr.alike, Expr.erase]
    | _ => exact iff_of_false Bool.false_ne_true Expr.noConfusion
  | .null _, other => by
    cases other with
    | null => simp [Expr.alike, Expr.erase]
    | _ => exact iff_of_false Bool.false_ne_true Expr.noConfusion
  | .column .., other => by
    cases other with
    | column => simp [Expr.alike, Expr.erase]
    | _ => exact iff_of_false Bool.false_ne_true Expr.noConfusion
  | .named _ expr _, other => by
    cases other with
    | named => simp [Expr.alike, Expr.erase, Expr.alike_iff expr]
    | _ => exact iff_of_false Bool.false_ne_true Expr.noConfusion
  | .unary _ operand _, other => by
    cases other with
    | unary => simp [Expr.alike, Expr.erase, Expr.alike_iff operand]
    | _ => exact iff_of_false Bool.false_ne_true Expr.noConfusion
  | .binary left _ right _, other => by
    cases other with
    | binary => simp [Expr.alike, Expr.erase, Expr.alike_iff left, Expr.alike_iff right, and_assoc]
    | _ => exact iff_of_false Bool.false_ne_true Expr.noConfusion
  | .collate expr _ _, other => by
    cases other with
    | collate => simp [Expr.alike, Expr.erase, Expr.alike_iff expr]
    | _ => exact iff_of_false Bool.false_ne_true Expr.noConfusion
  | .isTruth expr _ _, other => by
    cases other with
    | isTruth => simp [Expr.alike, Expr.erase, Expr.alike_iff expr]
    | _ => exact iff_of_false Bool.false_ne_true Expr.noConfusion
  | .isNull expr _, other => by
    cases other with
    | isNull => simp [Expr.alike, Expr.erase, Expr.alike_iff expr]
    | _ => exact iff_of_false Bool.false_ne_true Expr.noConfusion
  | .between expr low high _ _, other => by
    cases other with
    | between => simp [Expr.alike, Expr.erase, Expr.alike_iff expr, Expr.alike_iff low,
        Expr.alike_iff high, and_assoc]
    | _ => exact iff_of_false Bool.false_ne_true Expr.noConfusion
  | .within expr rows _, other => by
    cases other with
    | within => simp [Expr.alike, Expr.erase, Expr.alike_iff expr, Rel.alike_iff rows]
    | _ => exact iff_of_false Bool.false_ne_true Expr.noConfusion
  | .like expr pattern escape _, other => by
    cases other with
    | like =>
      simp [Expr.alike, Expr.erase, Expr.alike_iff expr, Expr.alike_iff pattern,
        Expr.optionAlike_iff escape, and_assoc]
    | _ => exact iff_of_false Bool.false_ne_true Expr.noConfusion
  | .existence query _, other => by
    cases other with
    | existence => simp [Expr.alike, Expr.erase, Query.alike_iff query]
    | _ => exact iff_of_false Bool.false_ne_true Expr.noConfusion
  | .uniqueness query _, other => by
    cases other with
    | uniqueness => simp [Expr.alike, Expr.erase, Query.alike_iff query]
    | _ => exact iff_of_false Bool.false_ne_true Expr.noConfusion
  | .row values _, other => by
    cases other with
    | row => simp [Expr.alike, Expr.erase, Expr.allAlike_iff values]
    | _ => exact iff_of_false Bool.false_ne_true Expr.noConfusion
  | .subquery query _, other => by
    cases other with
    | subquery => simp [Expr.alike, Expr.erase, Query.alike_iff query]
    | _ => exact iff_of_false Bool.false_ne_true Expr.noConfusion
  | .sortKey key, other => by
    cases other with
    | sortKey => simp [Expr.alike, Expr.erase, SortKey.alike_iff key]
    | _ => exact iff_of_false Bool.false_ne_true Expr.noConfusion
  | .groupingSet set, other => by
    cases other with
    | groupingSet => simp [Expr.alike, Expr.erase, GroupingSet.alike_iff set]
    | _ => exact iff_of_false Bool.false_ne_true Expr.noConfusion
  | .groupingSets sets _, other => by
    cases other with
    | groupingSets => simp [Expr.alike, Expr.erase, Expr.allAlike_iff sets]
    | _ => exact iff_of_false Bool.false_ne_true Expr.noConfusion
  | .rollup sets _, other => by
    cases other with
    | rollup => simp [Expr.alike, Expr.erase, GroupingSet.allAlike_iff sets]
    | _ => exact iff_of_false Bool.false_ne_true Expr.noConfusion
  | .cube sets _, other => by
    cases other with
    | cube => simp [Expr.alike, Expr.erase, GroupingSet.allAlike_iff sets]
    | _ => exact iff_of_false Bool.false_ne_true Expr.noConfusion
  | .aggregate _ _ argument filter _, other => by
    cases other with
    | aggregate =>
      simp [Expr.alike, Expr.erase, Expr.alike_iff argument, Expr.optionAlike_iff filter, and_assoc]
    | _ => exact iff_of_false Bool.false_ne_true Expr.noConfusion
termination_by structural one => one

theorem Expr.allAlike_iff : ∀ ones others : List Expr,
    Expr.allAlike ones others = true ↔ Expr.eraseAll ones = Expr.eraseAll others
  | [], others => by cases others <;> simp [Expr.allAlike, Expr.eraseAll]
  | expr :: rest, others => by
    cases others <;>
      simp [Expr.allAlike, Expr.eraseAll, Expr.alike_iff expr, Expr.allAlike_iff rest]
termination_by structural ones => ones

theorem Expr.optionAlike_iff : ∀ one other : Option Expr,
    Expr.optionAlike one other = true ↔ Expr.eraseOption one = Expr.eraseOption other
  | none, other => by cases other <;> simp [Expr.optionAlike, Expr.eraseOption]
  | some expr, other => by
    cases other <;> simp [Expr.optionAlike, Expr.eraseOption, Expr.alike_iff expr]
termination_by structural one => one

theorem SortKey.alike_iff : ∀ one other : SortKey,
    one.alike other = true ↔ one.erase = other.erase
  | ⟨expr, _, _, _⟩, other => by
    cases other
    simp [SortKey.alike, SortKey.erase, Expr.alike_iff expr, and_assoc]
termination_by structural one => one

theorem SortKey.allAlike_iff : ∀ ones others : List SortKey,
    SortKey.allAlike ones others = true ↔ SortKey.eraseAll ones = SortKey.eraseAll others
  | [], others => by cases others <;> simp [SortKey.allAlike, SortKey.eraseAll]
  | key :: rest, others => by
    cases others <;>
      simp [SortKey.allAlike, SortKey.eraseAll, SortKey.alike_iff key,
        SortKey.allAlike_iff rest]
termination_by structural ones => ones

theorem GroupingSet.alike_iff : ∀ one other : GroupingSet,
    one.alike other = true ↔ one.erase = other.erase
  | ⟨columns, _⟩, other => by
    cases other
    simp [GroupingSet.alike, GroupingSet.erase, Expr.allAlike_iff columns]
termination_by structural one => one

theorem GroupingSet.allAlike_iff : ∀ ones others : List GroupingSet,
    GroupingSet.allAlike ones others = true ↔
      GroupingSet.eraseAll ones = GroupingSet.eraseAll others
  | [], others => by cases others <;> simp [GroupingSet.allAlike, GroupingSet.eraseAll]
  | set :: rest, others => by
    cases others <;>
      simp [GroupingSet.allAlike, GroupingSet.eraseAll, GroupingSet.alike_iff set,
        GroupingSet.allAlike_iff rest]
termination_by structural ones => ones

theorem JoinCondition.alike_iff : ∀ one other : JoinCondition,
    one.alike other = true ↔ one.erase = other.erase
  | .absent, other => by cases other <;> simp [JoinCondition.alike, JoinCondition.erase]
  | .onExpr condition, other => by
    cases other <;> simp [JoinCondition.alike, JoinCondition.erase, Expr.alike_iff condition]
  | .usingColumns _, other => by
    cases other <;> simp [JoinCondition.alike, JoinCondition.erase]
termination_by structural one => one

theorem Rel.alike_iff : ∀ one other : Rel, one.alike other = true ↔ one.erase = other.erase
  | .join _ _ condition left right _, other => by
    cases other with
    | join =>
      simp [Rel.alike, Rel.erase, JoinCondition.alike_iff condition, Rel.alike_iff left,
        Rel.alike_iff right, and_assoc]
    | _ => exact iff_of_false Bool.false_ne_true Rel.noConfusion
  | .table .., other => by
    cases other with
    | table => simp [Rel.alike, Rel.erase]
    | _ => exact iff_of_false Bool.false_ne_true Rel.noConfusion
  | .named _ _ relation _, other => by
    cases other with
    | named => simp [Rel.alike, Rel.erase, Rel.alike_iff relation, and_assoc]
    | _ => exact iff_of_false Bool.false_ne_true Rel.noConfusion
  | .select select, other => by
    cases other with
    | select => simp [Rel.alike, Rel.erase, Select.alike_iff select]
    | _ => exact iff_of_false Bool.false_ne_true Rel.noConfusion
  | .values rows _, other => by
    cases other with
    | values => simp [Rel.alike, Rel.erase, Expr.allAlike_iff rows]
    | _ => exact iff_of_false Bool.false_ne_true Rel.noConfusion
  | .setOp _ _ left right _, other => by
    cases other with
    | setOp => simp [Rel.alike, Rel.erase, Rel.alike_iff left, Rel.alike_iff right, and_assoc]
    | _ => exact iff_of_false Bool.false_ne_true Rel.noConfusion
  | .query query, other => by
    cases other with
    | query => simp [Rel.alike, Rel.erase, Query.alike_iff query]
    | _ => exact iff_of_false Bool.false_ne_true Rel.noConfusion
termination_by structural one => one

theorem Rel.allAlike_iff : ∀ ones others : List Rel,
    Rel.allAlike ones others = true ↔ Rel.eraseAll ones = Rel.eraseAll others
  | [], others => by cases others <;> simp [Rel.allAlike, Rel.eraseAll]
  | rel :: rest, others => by
    cases others <;>
      simp [Rel.allAlike, Rel.eraseAll, Rel.alike_iff rel, Rel.allAlike_iff rest]
termination_by structural ones => ones

theorem FrameBound.alike_iff : ∀ one other : FrameBound,
    one.alike other = true ↔ one.erase = other.erase
  | ⟨_, value, _⟩, other => by
    cases other
    simp [FrameBound.alike, FrameBound.erase, Expr.optionAlike_iff value]
termination_by structural one => one

theorem FrameBound.optionAlike_iff : ∀ one other : Option FrameBound,
    FrameBound.optionAlike one other = true ↔ FrameBound.eraseOption one = FrameBound.eraseOption other
  | none, other => by cases other <;> simp [FrameBound.optionAlike, FrameBound.eraseOption]
  | some bound, other => by
    cases other <;> simp [FrameBound.optionAlike, FrameBound.eraseOption, FrameBound.alike_iff bound]
termination_by structural one => one

theorem Frame.alike_iff : ∀ one other : Frame,
    one.alike other = true ↔ one.erase = other.erase
  | ⟨_, start, stop, _, _⟩, other => by
    cases other
    simp [Frame.alike, Frame.erase, FrameBound.alike_iff start,
      FrameBound.optionAlike_iff stop, and_assoc]
termination_by structural one => one

theorem Frame.optionAlike_iff : ∀ one other : Option Frame,
    Frame.optionAlike one other = true ↔ Frame.eraseOption one = Frame.eraseOption other
  | none, other => by cases other <;> simp [Frame.optionAlike, Frame.eraseOption]
  | some frame, other => by
    cases other <;> simp [Frame.optionAlike, Frame.eraseOption, Frame.alike_iff frame]
termination_by structural one => one

theorem WindowSpec.alike_iff : ∀ one other : WindowSpec,
    one.alike other = true ↔ one.erase = other.erase
  | ⟨_, partitionBy, orderBy, frame, _⟩, other => by
    cases other
    simp [WindowSpec.alike, WindowSpec.erase, Expr.allAlike_iff partitionBy,
      SortKey.allAlike_iff orderBy, Frame.optionAlike_iff frame, and_assoc]
termination_by structural one => one

theorem WindowDef.allAlike_iff : ∀ ones others : List WindowDef,
    WindowDef.allAlike ones others = true ↔ WindowDef.eraseAll ones = WindowDef.eraseAll others
  | [], others => by
    cases others with
    | nil => simp [WindowDef.allAlike]
    | cons other others => cases other; simp [WindowDef.allAlike, WindowDef.eraseAll]
  | ⟨_, spec, _⟩ :: rest, others => by
    cases others with
    | nil => simp [WindowDef.allAlike, WindowDef.eraseAll]
    | cons other others =>
      cases other
      simp [WindowDef.allAlike, WindowDef.eraseAll, WindowSpec.alike_iff spec, WindowDef.allAlike_iff rest, and_assoc]
termination_by structural ones => ones

theorem Select.alike_iff : ∀ one other : Select,
    one.alike other = true ↔ one.erase = other.erase
  | ⟨_, targets, sources, selection, groupBy, having, windows, _⟩, other => by
    cases other
    simp [Select.alike, Select.erase, Expr.allAlike_iff targets, Rel.allAlike_iff sources,
      Expr.optionAlike_iff selection, GroupClause.optionAlike_iff groupBy,
      Expr.optionAlike_iff having, WindowDef.allAlike_iff windows, and_assoc]
termination_by structural one => one

theorem GroupClause.optionAlike_iff : ∀ one other : Option GroupClause,
    GroupClause.optionAlike one other = true ↔ GroupClause.eraseOption one = GroupClause.eraseOption other
  | none, other => by
    cases other with
    | none => simp [GroupClause.optionAlike]
    | some other => cases other; simp [GroupClause.optionAlike, GroupClause.eraseOption]
  | some ⟨_, groupings, _⟩, other => by
    cases other with
    | none => simp [GroupClause.optionAlike, GroupClause.eraseOption]
    | some other => cases other; simp [GroupClause.optionAlike, GroupClause.eraseOption, Expr.allAlike_iff groupings]
termination_by structural one => one

theorem Cte.allAlike_iff : ∀ ones others : List Cte,
    Cte.allAlike ones others = true ↔ Cte.eraseAll ones = Cte.eraseAll others
  | [], others => by
    cases others with
    | nil => simp [Cte.allAlike]
    | cons other others => cases other; simp [Cte.allAlike, Cte.eraseAll]
  | ⟨_, _, query, _⟩ :: rest, others => by
    cases others with
    | nil => simp [Cte.allAlike, Cte.eraseAll]
    | cons other others =>
      cases other
      simp [Cte.allAlike, Cte.eraseAll, Query.alike_iff query, Cte.allAlike_iff rest, and_assoc]
termination_by structural ones => ones

theorem WithClause.optionAlike_iff : ∀ one other : Option WithClause,
    WithClause.optionAlike one other = true ↔ WithClause.eraseOption one = WithClause.eraseOption other
  | none, other => by
    cases other with
    | none => simp [WithClause.optionAlike]
    | some other => cases other; simp [WithClause.optionAlike, WithClause.eraseOption]
  | some ⟨_, ctes, _⟩, other => by
    cases other with
    | none => simp [WithClause.optionAlike, WithClause.eraseOption]
    | some other => cases other; simp [WithClause.optionAlike, WithClause.eraseOption, Cte.allAlike_iff ctes]
termination_by structural one => one

theorem Query.alike_iff : ∀ one other : Query,
    one.alike other = true ↔ one.erase = other.erase
  | ⟨withClause, body, orderBy, offset, fetch, _⟩, other => by
    cases other
    simp [Query.alike, Query.erase, WithClause.optionAlike_iff withClause,
      Rel.alike_iff body, SortKey.allAlike_iff orderBy, Expr.optionAlike_iff offset,
      Fetch.optionAlike_iff fetch, and_assoc]
termination_by structural one => one

theorem Fetch.optionAlike_iff : ∀ one other : Option Fetch,
    Fetch.optionAlike one other = true ↔ Fetch.eraseOption one = Fetch.eraseOption other
  | none, other => by
    cases other with
    | none => simp [Fetch.optionAlike]
    | some other => cases other; simp [Fetch.optionAlike, Fetch.eraseOption]
  | some ⟨_, count, _, _, _⟩, other => by
    cases other with
    | none => simp [Fetch.optionAlike, Fetch.eraseOption]
    | some other => cases other; simp [Fetch.optionAlike, Fetch.eraseOption, Expr.optionAlike_iff count, and_assoc]
termination_by structural one => one

end

/-! ## Statements -/

namespace DataType

mutual

theorem same_iff : ∀ one other : DataType, one.same other = true ↔ one = other
  | .row fields, other => by cases other <;> simp [same, sameFields_iff fields]
  | .array element _, other => by cases other <;> simp [same, same_iff element]
  | .multiset element, other => by cases other <;> simp [same, same_iff element]
  | .numeric .., other | .decimal .., other | .smallInt, other | .integer, other
  | .bigInt, other | .float _, other | .real, other | .doublePrecision, other
  | .binary _, other | .varBinary _, other | .blob _, other | .char _, other
  | .varChar _, other | .clob _, other | .nationalChar _, other | .nationalVarChar _, other
  | .nationalClob _, other | .boolean, other | .date, other | .time .., other
  | .timestamp .., other | .named _, other | .reference .., other => by
    cases other <;> simp [same]

theorem sameFields_iff : ∀ ones others : List (Name × DataType),
    sameFields ones others = true ↔ ones = others
  | [], others => by cases others <;> simp [sameFields]
  | (_, type) :: rest, others => by
    cases others with
    | nil => simp [sameFields]
    | cons other others =>
      obtain ⟨name, type'⟩ := other
      simp [sameFields, same_iff type, sameFields_iff rest, and_assoc]

end

end DataType

/-- A reference without its place. -/
def References.erase (references : References) : References :=
  { references with span := default }

/-- What a column constraint demands, without its place. -/
def ColumnConstraintKind.erase : ColumnConstraintKind → ColumnConstraintKind
  | .foreignKey references => .foreignKey references.erase
  | kind => kind

/-- A column constraint without its places. -/
def ColumnConstraint.erase (constraint : ColumnConstraint) : ColumnConstraint :=
  ⟨constraint.name, constraint.kind.erase, default⟩

/-- A default value without its places. -/
def ColumnDefault.erase : ColumnDefault → ColumnDefault
  | .expr value => .expr value.erase
  | value => value

/-- A column definition without its places. -/
def ColumnDef.erase (column : ColumnDef) : ColumnDef where
  name := column.name
  dataType := column.dataType
  default := column.default.map ColumnDefault.erase
  constraints := column.constraints.map ColumnConstraint.erase
  collation := column.collation

/-- What a table constraint demands, without its place. -/
def TableConstraintKind.erase : TableConstraintKind → TableConstraintKind
  | .foreignKey columns references => .foreignKey columns references.erase
  | kind => kind

/-- A table constraint without its places. -/
def TableConstraint.erase (constraint : TableConstraint) : TableConstraint :=
  ⟨constraint.name, constraint.kind.erase, default⟩

/-- A table definition without its places. -/
def Create.erase (create : Create) : Create where
  name := create.name
  temporary := create.temporary
  onCommit := create.onCommit
  columns := create.columns.map ColumnDef.erase
  constraints := create.constraints.map TableConstraint.erase
  span := default

/-- A source of rows without its places. -/
def InsertSource.erase : InsertSource → InsertSource
  | .defaultValues => .defaultValues
  | .query rows => .query rows.erase

/-- A statement without its places. -/
def Statement.erase : Statement → Statement
  | .create definition => .create definition.erase
  | .insert insertion =>
    .insert ⟨insertion.table, insertion.columns, insertion.overriding,
      insertion.source.erase, default⟩
  | .delete deletion =>
    .delete ⟨deletion.table, deletion.only, Expr.eraseOption deletion.selection, default⟩
  | .select query _ => .select query.erase default

/-- Lists are alike if their members are. -/
theorem allAlike_iff_map {α β : Type} {alike : α → α → Bool} {erase : α → β}
    (same : ∀ one other, alike one other = true ↔ erase one = erase other) :
    ∀ ones others : List α,
      allAlike alike ones others = true ↔ ones.map erase = others.map erase
  | [], others => by cases others <;> simp [allAlike]
  | one :: rest, others => by
    cases others <;> simp [allAlike, same, allAlike_iff_map same rest]

/-- Options are alike if what they hold is. -/
theorem optionAlike_iff_map {α β : Type} {alike : α → α → Bool} {erase : α → β}
    (same : ∀ one other, alike one other = true ↔ erase one = erase other)
    (one other : Option α) :
    optionAlike alike one other = true ↔ one.map erase = other.map erase := by
  cases one <;> cases other <;> simp [optionAlike, same]

theorem References.alike_iff (one other : References) :
    one.alike other = true ↔ one.erase = other.erase := by
  cases one
  cases other
  simp [References.alike, References.erase, and_assoc]

theorem ColumnConstraint.alike_iff (one other : ColumnConstraint) :
    one.alike other = true ↔ one.erase = other.erase := by
  obtain ⟨name, kind, span⟩ := one
  obtain ⟨name', kind', span'⟩ := other
  cases kind <;> cases kind' <;>
    simp [ColumnConstraint.alike, ColumnConstraint.erase, ColumnConstraintKind.alike,
      ColumnConstraintKind.erase, References.alike_iff]

theorem TableConstraint.alike_iff (one other : TableConstraint) :
    one.alike other = true ↔ one.erase = other.erase := by
  obtain ⟨name, kind, span⟩ := one
  obtain ⟨name', kind', span'⟩ := other
  cases kind <;> cases kind' <;>
    simp [TableConstraint.alike, TableConstraint.erase, TableConstraintKind.alike,
      TableConstraintKind.erase, References.alike_iff]

theorem ColumnDefault.alike_iff (one other : ColumnDefault) :
    one.alike other = true ↔ one.erase = other.erase := by
  cases one <;> cases other <;>
    simp [ColumnDefault.alike, ColumnDefault.erase, Expr.alike_iff]

theorem ColumnDef.alike_iff (one other : ColumnDef) :
    one.alike other = true ↔ one.erase = other.erase := by
  cases one
  cases other
  simp [ColumnDef.alike, ColumnDef.erase, DataType.same_iff,
    optionAlike_iff_map ColumnDefault.alike_iff,
    allAlike_iff_map ColumnConstraint.alike_iff, and_assoc]

theorem Create.alike_iff (one other : Create) :
    one.alike other = true ↔ one.erase = other.erase := by
  cases one
  cases other
  simp [Create.alike, Create.erase, allAlike_iff_map ColumnDef.alike_iff,
    allAlike_iff_map TableConstraint.alike_iff, and_assoc]

/-- Two statements are alike if and only if they are the same once they are erased. -/
theorem Statement.alike_iff_erase (one other : Statement) :
    one.alike other = true ↔ one.erase = other.erase := by
  cases one with
  | create definition =>
    cases other <;> simp [Statement.alike, Statement.erase, Create.alike_iff]
  | insert insertion =>
    cases other with
    | insert insertion' =>
      obtain ⟨table, columns, overriding, source, span⟩ := insertion
      obtain ⟨table', columns', overriding', source', span'⟩ := insertion'
      cases source <;> cases source' <;>
        simp [Statement.alike, Statement.erase, Insert.alike, InsertSource.alike,
          InsertSource.erase, Query.alike_iff, and_assoc]
    | _ => simp [Statement.alike, Statement.erase]
  | delete deletion =>
    cases other with
    | delete deletion' =>
      obtain ⟨table, only, selection, span⟩ := deletion
      obtain ⟨table', only', selection', span'⟩ := deletion'
      cases selection <;> cases selection' <;>
        simp [Statement.alike, Statement.erase, Delete.alike, optionAlike, Expr.eraseOption,
          Expr.alike_iff, and_assoc]
    | _ => simp [Statement.alike, Statement.erase]
  | select query span =>
    cases other <;> simp [Statement.alike, Statement.erase, Query.alike_iff]

end CanonicalSql
