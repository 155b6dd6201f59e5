import CanonicalSql.Outline
import Mathlib

/-!
# The parts of a node

`Part whole part` says that `part` is a node of the tree right below `whole`: it has one rule for
each field of each node that holds further nodes, whatever lists, options and clauses there are in
between. Nothing in it depends on how trees are walked through.

`Node.parts` gives the parts in the order in which a walk meets them. A walk from a node meets the
node, and then walks from each of its parts in turn, unless it does not go on from there
(`Node.walk_eq`).
-/
namespace CanonicalSql

/-- A node of the tree that is right below another one. -/
inductive Part : Node → Node → Prop
  | create {definition : Create} : Part (.statement (.create definition)) (.create definition)
  | insert {insertion : Insert} : Part (.statement (.insert insertion)) (.insert insertion)
  | delete {deletion : Delete} : Part (.statement (.delete deletion)) (.delete deletion)
  | statementQuery {query : Query} {span : Span} :
    Part (.statement (.select query span)) (.query query)
  | column {definition : Create} {column : ColumnDef} (member : column ∈ definition.columns) :
    Part (.create definition) (.columnDef column)
  | default {column : ColumnDef} {value : Expr} (present : column.default = some (.expr value)) :
    Part (.columnDef column) (.expr value)
  | insertedQuery {insertion : Insert} {query : Query} (rows : insertion.source = .query query) :
    Part (.insert insertion) (.query query)
  | deleteCondition {deletion : Delete} {condition : Expr}
    (present : deletion.selection = some condition) : Part (.delete deletion) (.expr condition)
  | queryWith {query : Query} {clause : WithClause} {cte : Cte}
    (present : query.withClause = some clause) (member : cte ∈ clause.ctes) :
    Part (.query query) (.cte cte)
  | queryBody {query : Query} : Part (.query query) (.rel query.body)
  | queryOrder {query : Query} {key : SortKey} (member : key ∈ query.orderBy) :
    Part (.query query) (.sortKey key)
  | queryOffset {query : Query} {count : Expr} (present : query.offset = some count) :
    Part (.query query) (.expr count)
  | queryFetch {query : Query} {fetch : Fetch} {count : Expr} (present : query.fetch = some fetch)
    (counted : fetch.count = some count) : Part (.query query) (.expr count)
  | cteQuery {cte : Cte} : Part (.cte cte) (.query cte.query)
  | join {kind : JoinKind} {natural : Bool} {condition : JoinCondition} {left right : Rel}
    {span : Span} : Part (.rel (.join kind natural condition left right span))
      (.join kind natural condition left right span)
  | table {name : QualifiedName} {span : Span} :
    Part (.rel (.table name span)) (.tableName name span)
  | named {name : Name} {columns : List Name} {relation : Rel} {span : Span} :
    Part (.rel (.named name columns relation span)) (.rel relation)
  | select {select : Select} : Part (.rel (.select select)) (.select select)
  | valuesRow {rows : List Expr} {row : Expr} {span : Span} (member : row ∈ rows) :
    Part (.rel (.values rows span)) (.expr row)
  | setOpLeft {op : SetOperator} {quantifier : Option SetQuantifier} {left right : Rel}
    {span : Span} : Part (.rel (.setOp op quantifier left right span)) (.rel left)
  | setOpRight {op : SetOperator} {quantifier : Option SetQuantifier} {left right : Rel}
    {span : Span} : Part (.rel (.setOp op quantifier left right span)) (.rel right)
  | relQuery {query : Query} : Part (.rel (.query query)) (.query query)
  | joinLeft {kind : JoinKind} {natural : Bool} {condition : JoinCondition} {left right : Rel}
    {span : Span} : Part (.join kind natural condition left right span) (.rel left)
  | joinRight {kind : JoinKind} {natural : Bool} {condition : JoinCondition} {left right : Rel}
    {span : Span} : Part (.join kind natural condition left right span) (.rel right)
  | joinCondition {kind : JoinKind} {natural : Bool} {condition : Expr} {left right : Rel}
    {span : Span} :
    Part (.join kind natural (.onExpr condition) left right span) (.expr condition)
  | selectTarget {select : Select} {target : Expr} (member : target ∈ select.targets) :
    Part (.select select) (.expr target)
  | selectSource {select : Select} {source : Rel} (member : source ∈ select.sources) :
    Part (.select select) (.rel source)
  | selectWhere {select : Select} {condition : Expr} (present : select.selection = some condition) :
    Part (.select select) (.expr condition)
  | selectGroup {select : Select} {clause : GroupClause} {grouping : Expr}
    (present : select.groupBy = some clause) (member : grouping ∈ clause.groupings) :
    Part (.select select) (.expr grouping)
  | selectHaving {select : Select} {condition : Expr} (present : select.having = some condition) :
    Part (.select select) (.expr condition)
  | selectWindow {select : Select} {window : WindowDef} (member : window ∈ select.windows) :
    Part (.select select) (.windowSpec window.spec)
  | partition {spec : WindowSpec} {expr : Expr} (member : expr ∈ spec.partitionBy) :
    Part (.windowSpec spec) (.expr expr)
  | windowOrder {spec : WindowSpec} {key : SortKey} (member : key ∈ spec.orderBy) :
    Part (.windowSpec spec) (.sortKey key)
  | frameStart {spec : WindowSpec} {frame : Frame} {value : Expr}
    (present : spec.frame = some frame) (bound : frame.start.value = some value) :
    Part (.windowSpec spec) (.expr value)
  | frameStop {spec : WindowSpec} {frame : Frame} {stop : FrameBound} {value : Expr}
    (present : spec.frame = some frame) (stops : frame.stop = some stop)
    (bound : stop.value = some value) : Part (.windowSpec spec) (.expr value)
  | sortKeyExpr {key : SortKey} : Part (.sortKey key) (.expr key.expr)
  | alias {name : Name} {expr : Expr} {span : Span} : Part (.expr (.named name expr span)) (.expr expr)
  | unary {op : UnaryOp} {operand : Expr} {span : Span} :
    Part (.expr (.unary op operand span)) (.expr operand)
  | binaryLeft {left right : Expr} {op : BinaryOp} {span : Span} :
    Part (.expr (.binary left op right span)) (.expr left)
  | binaryRight {left right : Expr} {op : BinaryOp} {span : Span} :
    Part (.expr (.binary left op right span)) (.expr right)
  | collate {expr : Expr} {collation : QualifiedName} {span : Span} :
    Part (.expr (.collate expr collation span)) (.expr expr)
  | isTruth {expr : Expr} {value : TruthValue} {span : Span} :
    Part (.expr (.isTruth expr value span)) (.expr expr)
  | isNull {expr : Expr} {span : Span} : Part (.expr (.isNull expr span)) (.expr expr)
  | betweenTested {expr low high : Expr} {symmetric : Bool} {span : Span} :
    Part (.expr (.between expr low high symmetric span)) (.expr expr)
  | betweenLow {expr low high : Expr} {symmetric : Bool} {span : Span} :
    Part (.expr (.between expr low high symmetric span)) (.expr low)
  | betweenHigh {expr low high : Expr} {symmetric : Bool} {span : Span} :
    Part (.expr (.between expr low high symmetric span)) (.expr high)
  | withinTested {expr : Expr} {rows : Rel} {span : Span} :
    Part (.expr (.within expr rows span)) (.expr expr)
  | withinRows {expr : Expr} {rows : Rel} {span : Span} :
    Part (.expr (.within expr rows span)) (.rel rows)
  | likeTested {expr pattern : Expr} {escape : Option Expr} {span : Span} :
    Part (.expr (.like expr pattern escape span)) (.expr expr)
  | likePattern {expr pattern : Expr} {escape : Option Expr} {span : Span} :
    Part (.expr (.like expr pattern escape span)) (.expr pattern)
  | likeEscape {expr pattern escape : Expr} {span : Span} :
    Part (.expr (.like expr pattern (some escape) span)) (.expr escape)
  | existence {query : Query} {span : Span} : Part (.expr (.existence query span)) (.query query)
  | uniqueness {query : Query} {span : Span} : Part (.expr (.uniqueness query span)) (.query query)
  | rowValue {values : List Expr} {value : Expr} {span : Span} (member : value ∈ values) :
    Part (.expr (.row values span)) (.expr value)
  | subquery {query : Query} {span : Span} : Part (.expr (.subquery query span)) (.query query)
  | sortKey {key : SortKey} : Part (.expr (.sortKey key)) (.sortKey key)
  | groupingColumn {set : GroupingSet} {column : Expr} (member : column ∈ set.columns) :
    Part (.expr (.groupingSet set)) (.expr column)
  | groupingMember {sets : List Expr} {set : Expr} {span : Span} (member : set ∈ sets) :
    Part (.expr (.groupingSets sets span)) (.expr set)
  | rollupColumn {sets : List GroupingSet} {set : GroupingSet} {column : Expr} {span : Span}
    (isSet : set ∈ sets) (member : column ∈ set.columns) :
    Part (.expr (.rollup sets span)) (.expr column)
  | cubeColumn {sets : List GroupingSet} {set : GroupingSet} {column : Expr} {span : Span}
    (isSet : set ∈ sets) (member : column ∈ set.columns) :
    Part (.expr (.cube sets span)) (.expr column)
  | argument {function : AggregateFunction} {quantifier : Option SetQuantifier} {argument : Expr}
    {filter : Option Expr} {span : Span} :
    Part (.expr (.aggregate function quantifier argument filter span)) (.expr argument)
  | filter {function : AggregateFunction} {quantifier : Option SetQuantifier} {argument : Expr}
    {filter : Expr} {span : Span} :
    Part (.expr (.aggregate function quantifier argument (some filter) span)) (.expr filter)

/-! ## The parts in order -/

namespace Node

/-- The nodes of expressions. -/
def ofExprs (exprs : List Expr) : List Node := exprs.map .expr

/-- The node of an expression that is present. -/
def ofOption (expr : Option Expr) : List Node := ofExprs expr.toList

/-- The parts of an expression. -/
def exprParts : Expr → List Node
  | .asterisk .. | .integer .. | .float .. | .string .. | .truth .. | .null .. | .column .. => []
  | .named _ inner _ | .unary _ inner _ | .collate inner _ _ | .isTruth inner _ _
  | .isNull inner _ => [.expr inner]
  | .binary left _ right _ => [.expr left, .expr right]
  | .between tested low high _ _ => [.expr tested, .expr low, .expr high]
  | .within tested rows _ => [.expr tested, .rel rows]
  | .like tested pattern escape _ => [.expr tested, .expr pattern] ++ ofOption escape
  | .existence inner _ | .uniqueness inner _ | .subquery inner _ => [.query inner]
  | .row values _ => ofExprs values
  | .sortKey key => [.sortKey key]
  | .groupingSet set => ofExprs set.columns
  | .groupingSets sets _ => ofExprs sets
  | .rollup sets _ | .cube sets _ => sets.flatMap fun set => ofExprs set.columns
  | .aggregate _ _ argument filter _ => .expr argument :: ofOption filter

/-- The parts of a relation. -/
def relParts : Rel → List Node
  | .join kind natural condition left right span => [.join kind natural condition left right span]
  | .table name span => [.tableName name span]
  | .named _ _ relation _ => [.rel relation]
  | .select projection => [.select projection]
  | .values rows _ => ofExprs rows
  | .setOp _ _ left right _ => [.rel left, .rel right]
  | .query inner => [.query inner]

/-- The expression of a join condition. -/
def conditionParts : JoinCondition → List Node
  | .onExpr condition => [.expr condition]
  | .absent | .usingColumns _ => []

/-- The values of the bounds of a frame. -/
def frameParts (frame : Frame) : List Node :=
  ofOption frame.start.value ++ frame.stop.toList.flatMap fun stop => ofOption stop.value

/-- The parts of a statement. -/
def statementParts : Statement → List Node
  | .create definition => [.create definition]
  | .insert insertion => [.insert insertion]
  | .delete deletion => [.delete deletion]
  | .select inner _ => [.query inner]

/-- The expression of a default value. -/
def defaultParts : Option ColumnDefault → List Node
  | some (.expr value) => [.expr value]
  | _ => []

/-- The query of the rows of an insertion. -/
def sourceParts : InsertSource → List Node
  | .query rows => [.query rows]
  | .defaultValues => []

/-- The parts of a node, in the order in which a walk meets them. -/
def parts : Node → List Node
  | .statement it => statementParts it
  | .create it => it.columns.map .columnDef
  | .columnDef it => defaultParts it.default
  | .insert it => sourceParts it.source
  | .delete it => ofOption it.selection
  | .query it => (it.withClause.toList.flatMap fun clause => clause.ctes.map .cte) ++
      [.rel it.body] ++ it.orderBy.map .sortKey ++ ofOption it.offset ++
      it.fetch.toList.flatMap fun fetch => ofOption fetch.count
  | .cte it => [.query it.query]
  | .rel relation => relParts relation
  | .tableName .. => []
  | .join _ _ condition left right _ => [.rel left, .rel right] ++ conditionParts condition
  | .select it => ofExprs it.targets ++ it.sources.map .rel ++ ofOption it.selection ++
      (it.groupBy.toList.flatMap fun clause => ofExprs clause.groupings) ++ ofOption it.having ++
      it.windows.map fun window => .windowSpec window.spec
  | .windowSpec spec => ofExprs spec.partitionBy ++ spec.orderBy.map .sortKey ++
      spec.frame.toList.flatMap frameParts
  | .sortKey key => [.expr key.expr]
  | .expr it => exprParts it

@[simp] theorem mem_ofExprs {part : Node} {exprs : List Expr} :
    part ∈ ofExprs exprs ↔ ∃ it ∈ exprs, part = .expr it := by
  simp [ofExprs, eq_comm]

@[simp] theorem mem_ofOption {part : Node} {present : Option Expr} :
    part ∈ ofOption present ↔ ∃ it, present = some it ∧ part = .expr it := by
  simp [ofOption]

/-- Each field of a node is looked at. -/
theorem mem_parts_of_part {whole part : Node} (isPart : Part whole part) : part ∈ whole.parts := by
  cases isPart with
  | selectWindow member => simpa [parts] using ⟨_, member, rfl⟩
  | rollupColumn isSet member => simpa [parts, exprParts] using ⟨_, isSet, member⟩
  | cubeColumn isSet member => simpa [parts, exprParts] using ⟨_, isSet, member⟩
  | _ =>
    simp_all [parts, statementParts, defaultParts, sourceParts, conditionParts, relParts, exprParts,
      frameParts]

theorem part_of_mem_exprParts {part : Node} {whole : Expr} (member : part ∈ exprParts whole) :
    Part (.expr whole) part := by
  cases whole with
  | asterisk | integer | float | string | truth | null | column => simp [exprParts] at member
  | named | unary | collate | isTruth | isNull | existence | uniqueness | subquery | sortKey =>
    obtain rfl := List.mem_singleton.mp member
    constructor
  | binary =>
    simp only [exprParts, List.mem_cons, List.not_mem_nil, or_false] at member
    obtain rfl | rfl := member
    · exact .binaryLeft
    · exact .binaryRight
  | between =>
    simp only [exprParts, List.mem_cons, List.not_mem_nil, or_false] at member
    obtain rfl | rfl | rfl := member
    · exact .betweenTested
    · exact .betweenLow
    · exact .betweenHigh
  | within =>
    simp only [exprParts, List.mem_cons, List.not_mem_nil, or_false] at member
    obtain rfl | rfl := member
    · exact .withinTested
    · exact .withinRows
  | like =>
    simp only [exprParts, List.mem_append, List.mem_cons, List.not_mem_nil, or_false,
      mem_ofOption] at member
    obtain (rfl | rfl) | ⟨escape, rfl, rfl⟩ := member
    · exact .likeTested
    · exact .likePattern
    · exact .likeEscape
  | row =>
    obtain ⟨value, isValue, rfl⟩ := mem_ofExprs.mp member
    exact .rowValue isValue
  | groupingSet =>
    obtain ⟨column, isColumn, rfl⟩ := mem_ofExprs.mp member
    exact .groupingColumn isColumn
  | groupingSets =>
    obtain ⟨set, isSet, rfl⟩ := mem_ofExprs.mp member
    exact .groupingMember isSet
  | rollup =>
    obtain ⟨set, isSet, member⟩ := List.mem_flatMap.mp member
    obtain ⟨column, isColumn, rfl⟩ := mem_ofExprs.mp member
    exact .rollupColumn isSet isColumn
  | cube =>
    obtain ⟨set, isSet, member⟩ := List.mem_flatMap.mp member
    obtain ⟨column, isColumn, rfl⟩ := mem_ofExprs.mp member
    exact .cubeColumn isSet isColumn
  | aggregate =>
    simp only [exprParts, List.mem_cons, mem_ofOption] at member
    obtain rfl | ⟨filter, rfl, rfl⟩ := member
    · exact .argument
    · exact .filter

theorem part_of_mem_relParts {part : Node} {whole : Rel} (member : part ∈ relParts whole) :
    Part (.rel whole) part := by
  cases whole with
  | join | table | named | select | query =>
    obtain rfl := List.mem_singleton.mp member
    constructor
  | values =>
    obtain ⟨row, isRow, rfl⟩ := mem_ofExprs.mp member
    exact .valuesRow isRow
  | setOp =>
    simp only [relParts, List.mem_cons, List.not_mem_nil, or_false] at member
    obtain rfl | rfl := member
    · exact .setOpLeft
    · exact .setOpRight

theorem part_of_mem_query {part : Node} {whole : Query} (member : part ∈ parts (.query whole)) :
    Part (.query whole) part := by
  simp only [parts, List.mem_append, List.mem_flatMap, Option.mem_toList, List.mem_map,
    List.mem_singleton, mem_ofOption] at member
  obtain (((⟨clause, present, cte, isCte, rfl⟩ | rfl) | ⟨key, isKey, rfl⟩) | ⟨count, present, rfl⟩) |
    ⟨fetch, present, count, counted, rfl⟩ := member
  · exact .queryWith present isCte
  · exact .queryBody
  · exact .queryOrder isKey
  · exact .queryOffset present
  · exact .queryFetch present counted

theorem part_of_mem_select {part : Node} {whole : Select} (member : part ∈ parts (.select whole)) :
    Part (.select whole) part := by
  simp only [parts, List.mem_append, List.mem_flatMap, Option.mem_toList, List.mem_map,
    mem_ofOption, mem_ofExprs] at member
  obtain ((((⟨target, isTarget, rfl⟩ | ⟨source, isSource, rfl⟩) | ⟨condition, present, rfl⟩) |
    ⟨clause, present, grouping, isGrouping, rfl⟩) | ⟨condition, present, rfl⟩) |
    ⟨window, isWindow, rfl⟩ := member
  · exact .selectTarget isTarget
  · exact .selectSource isSource
  · exact .selectWhere present
  · exact .selectGroup present isGrouping
  · exact .selectHaving present
  · exact .selectWindow isWindow

theorem part_of_mem_windowSpec {part : Node} {whole : WindowSpec}
    (member : part ∈ parts (.windowSpec whole)) : Part (.windowSpec whole) part := by
  simp only [parts, frameParts, List.mem_append, List.mem_flatMap, Option.mem_toList, List.mem_map,
    mem_ofOption, mem_ofExprs] at member
  obtain (⟨it, isExpr, rfl⟩ | ⟨key, isKey, rfl⟩) | ⟨frame, present, ⟨value, bound, rfl⟩ |
    ⟨stop, stops, value, bound, rfl⟩⟩ := member
  · exact .partition isExpr
  · exact .windowOrder isKey
  · exact .frameStart present bound
  · exact .frameStop present stops bound

/-- The list of the parts has all parts and nothing else. -/
theorem mem_parts {whole part : Node} : part ∈ whole.parts ↔ Part whole part := by
  refine ⟨fun member => ?_, mem_parts_of_part⟩
  cases whole with
  | statement it =>
    cases it with
    | _ =>
      obtain rfl := List.mem_singleton.mp member
      constructor
  | create =>
    obtain ⟨column, isColumn, rfl⟩ := List.mem_map.mp member
    exact .column isColumn
  | columnDef it =>
    cases given : it.default with
    | none => simp [parts, given, defaultParts] at member
    | some value =>
      cases value with
      | expr value =>
        simp only [parts, given, defaultParts, List.mem_singleton] at member
        exact member ▸ .default given
      | _ => simp [parts, given, defaultParts] at member
  | insert it =>
    cases given : it.source with
    | defaultValues => simp [parts, given, sourceParts] at member
    | query rows =>
      simp only [parts, given, sourceParts, List.mem_singleton] at member
      exact member ▸ .insertedQuery given
  | delete =>
    obtain ⟨condition, present, rfl⟩ := mem_ofOption.mp member
    exact .deleteCondition present
  | query => exact part_of_mem_query member
  | cte =>
    obtain rfl := List.mem_singleton.mp member
    exact .cteQuery
  | rel => exact part_of_mem_relParts member
  | tableName => simp [parts] at member
  | join kind natural condition =>
    simp only [parts, List.mem_append, List.mem_cons, List.not_mem_nil, or_false] at member
    obtain (rfl | rfl) | member := member
    · exact .joinLeft
    · exact .joinRight
    · cases condition with
      | onExpr condition =>
        obtain rfl := List.mem_singleton.mp member
        exact .joinCondition
      | _ => simp [conditionParts] at member
  | select => exact part_of_mem_select member
  | windowSpec => exact part_of_mem_windowSpec member
  | sortKey =>
    obtain rfl := List.mem_singleton.mp member
    exact .sortKeyExpr
  | expr => exact part_of_mem_exprParts member

end Node

/-! ## Walks from part to part -/

namespace Outline

mutual

/-- The nodes that a walk meets where it does not go on from a pruned node. -/
def walk (pruned : Node → Bool) : Outline → List Node
  | .node subject _ below => subject :: if pruned subject then [] else walkAll pruned below

/-- The walk through several outlines, one after another. -/
def walkAll (pruned : Node → Bool) : List Outline → List Node
  | [] => []
  | outline :: rest => walk pruned outline ++ walkAll pruned rest

end

mutual

/-- The walk does not hang on how the distance from the top is counted. -/
theorem map_outline_visits (pruned : Node → Bool) (depth : Nat) : ∀ outline : Outline,
    (outline.visits pruned depth).map Prod.snd = outline.walk pruned
  | .node subject _ below => by
    rw [visits, walk, List.map_cons]
    split
    · rfl
    · rw [map_outline_visitsAll pruned (depth + 1) below]

theorem map_outline_visitsAll (pruned : Node → Bool) (depth : Nat) : ∀ outlines : List Outline,
    (visitsAll pruned depth outlines).map Prod.snd = walkAll pruned outlines
  | [] => rfl
  | outline :: rest => by
    rw [visitsAll, walkAll, List.map_append, map_outline_visits pruned depth outline,
      map_outline_visitsAll pruned depth rest]

end

variable {pruned : Node → Bool}

@[simp] theorem walkAll_nil : walkAll pruned [] = [] := rfl

@[simp] theorem walkAll_cons (outline : Outline) (rest : List Outline) :
    walkAll pruned (outline :: rest) = walk pruned outline ++ walkAll pruned rest := rfl

/-- What is below the query of an insertion. -/
def belowSource : InsertSource → List Outline
  | .query query => [ofQuery query]
  | .defaultValues => []

/-- What is below a statement. -/
def belowStatement : Statement → List Outline
  | .create definition => [plain (.create definition) (definition.columns.map ofColumnDef)]
  | .insert insertion => [plain (.insert insertion) (belowSource insertion.source)]
  | .delete deletion => [plain (.delete deletion) (deletion.selection.toList.map ofExpr)]
  | .select query _ => [ofQuery query]

theorem ofStatement_eq (statement : Statement) :
    ofStatement statement = plain (.statement statement) (belowStatement statement) := by
  cases statement with
  | insert insertion =>
    obtain ⟨table, columns, overriding, source, span⟩ := insertion
    cases source <;> rfl
  | _ => rfl

end Outline

namespace Node

open Outline in
/-- What is below a node in an outline. -/
def below : Node → List Outline
  | .statement it => belowStatement it
  | .create it => it.columns.map ofColumnDef
  | .columnDef it => belowDefault it.default
  | .insert it => belowSource it.source
  | .delete it => it.selection.toList.map ofExpr
  | .query it => belowQuery it
  | .cte it => [ofQuery it.query]
  | .rel it => belowRel it
  | .tableName .. => []
  | .join _ _ condition left right _ => [ofRel left, ofRel right] ++ belowCondition condition
  | .select it => belowSelect it
  | .windowSpec it => belowWindowSpec it
  | .sortKey it => belowSortKey it
  | .expr it => belowExpr it

/-- The nodes that a walk from the node meets. -/
def walk (pruned : Node → Bool) (subject : Node) : List Node :=
  (Outline.plain subject subject.below).walk pruned

/-- The outline of a node, at a place where an asterisk may stand or at another one. -/
def outline (starAllowed : Bool) (subject : Node) : Outline := .node subject starAllowed subject.below

/-- Whether an asterisk may stand at the part with the number. The first parts of a projection are
its targets, and the first part of an aggregate is its argument. -/
def allowsStar : Node → Nat → Bool
  | .select it, i => i < it.targets.length
  | .expr (.aggregate function _ _ _ _), i => function = .count && i = 0
  | _, _ => false

/-! What is below a node are the outlines of its parts. A list, an option and a clause each give the
outlines of what they hold. -/

theorem ofExprs_eq_outlines (exprs : List Expr) :
    Outline.ofExprs exprs = (ofExprs exprs).map (outline false) := by
  induction exprs with
  | nil => rfl
  | cons first rest ih => exact congrArg (outline false (.expr first) :: ·) ih

theorem ofTargets_eq_outlines (exprs : List Expr) :
    Outline.ofTargets exprs = (ofExprs exprs).map (outline true) := by
  induction exprs with
  | nil => rfl
  | cons first rest ih => exact congrArg (outline true (.expr first) :: ·) ih

theorem ofOption_eq_outlines (present : Option Expr) :
    Outline.ofOption present = (ofOption present).map (outline false) := by
  cases present <;> rfl

theorem ofSortKeys_eq_outlines (keys : List SortKey) :
    Outline.ofSortKeys keys = (keys.map Node.sortKey).map (outline false) := by
  induction keys with
  | nil => rfl
  | cons first rest ih => exact congrArg (outline false (.sortKey first) :: ·) ih

theorem belowGroupingSet_eq_outlines (set : GroupingSet) :
    Outline.belowGroupingSet set = (ofExprs set.columns).map (outline false) := by
  cases set
  exact ofExprs_eq_outlines _

theorem belowGroupingSets_eq_outlines (sets : List GroupingSet) :
    Outline.belowGroupingSets sets =
      (sets.flatMap fun set => ofExprs set.columns).map (outline false) := by
  induction sets with
  | nil => rfl
  | cons first rest ih =>
    rw [Outline.belowGroupingSets, belowGroupingSet_eq_outlines, ih, List.flatMap_cons,
      List.map_append]

theorem ofRels_eq_outlines (rels : List Rel) :
    Outline.ofRels rels = (rels.map Node.rel).map (outline false) := by
  induction rels with
  | nil => rfl
  | cons first rest ih => exact congrArg (outline false (.rel first) :: ·) ih

theorem ofWindows_eq_outlines (windows : List WindowDef) :
    Outline.ofWindows windows =
      (windows.map fun window => Node.windowSpec window.spec).map (outline false) := by
  induction windows with
  | nil => rfl
  | cons first rest ih =>
    cases first
    exact congrArg (outline false (.windowSpec _) :: ·) ih

theorem ofCtes_eq_outlines (ctes : List Cte) :
    Outline.ofCtes ctes = (ctes.map Node.cte).map (outline false) := by
  induction ctes with
  | nil => rfl
  | cons first rest ih =>
    cases first
    exact congrArg (outline false (.cte _) :: ·) ih

theorem belowFrame_eq_outlines (frame : Option Frame) :
    Outline.belowFrame frame = (frame.toList.flatMap frameParts).map (outline false) := by
  cases frame with
  | none => rfl
  | some frame =>
    obtain ⟨unit, ⟨startKind, start, startSpan⟩, stop, exclusion, span⟩ := frame
    rcases stop with - | ⟨stopKind, stop, stopSpan⟩
    · simp only [Option.toList_some, List.flatMap_singleton, frameParts, Option.toList_none,
        List.flatMap_nil, List.append_nil]
      exact ofOption_eq_outlines start
    · simp only [Option.toList_some, List.flatMap_singleton, frameParts, List.map_append]
      rw [← ofOption_eq_outlines, ← ofOption_eq_outlines]
      rfl

theorem ofColumnDefs_eq_outlines (columns : List ColumnDef) :
    columns.map Outline.ofColumnDef = (columns.map Node.columnDef).map (outline false) := by
  rw [List.map_map]
  rfl

theorem belowQuery_eq_outlines (query : Query) :
    Outline.belowQuery query = (Node.query query).parts.map (outline false) := by
  obtain ⟨withClause, body, orderBy, offset, fetch, span⟩ := query
  have clause : Outline.belowWith withClause =
      (withClause.toList.flatMap fun clause => clause.ctes.map Node.cte).map (outline false) := by
    cases withClause with
    | none => rfl
    | some clause =>
      cases clause
      rw [Option.toList_some, List.flatMap_singleton]
      exact ofCtes_eq_outlines _
  have fetched : Outline.belowFetch fetch =
      (fetch.toList.flatMap fun fetch => ofOption fetch.count).map (outline false) := by
    cases fetch with
    | none => rfl
    | some fetch =>
      cases fetch
      rw [Option.toList_some, List.flatMap_singleton]
      exact ofOption_eq_outlines _
  simp only [Outline.belowQuery, parts, List.map_append, clause, fetched, ofSortKeys_eq_outlines,
    ofOption_eq_outlines]
  rfl

/-- The parts of a projection behind its targets. -/
def clauseParts (projection : Select) : List Node :=
  projection.sources.map .rel ++ ofOption projection.selection ++
    (projection.groupBy.toList.flatMap fun clause => ofExprs clause.groupings) ++
    ofOption projection.having ++ projection.windows.map fun window => .windowSpec window.spec

theorem parts_select (projection : Select) :
    (Node.select projection).parts = ofExprs projection.targets ++ clauseParts projection := by
  simp only [parts, clauseParts, List.append_assoc]

theorem belowSelect_eq_outlines (projection : Select) :
    Outline.belowSelect projection = (ofExprs projection.targets).map (outline true) ++
      (clauseParts projection).map (outline false) := by
  obtain ⟨quantifier, targets, sources, selection, groupBy, having, windows, span⟩ := projection
  have grouped : Outline.belowGroupBy groupBy =
      (groupBy.toList.flatMap fun clause => ofExprs clause.groupings).map (outline false) := by
    cases groupBy with
    | none => rfl
    | some clause =>
      cases clause
      rw [Option.toList_some, List.flatMap_singleton]
      exact ofExprs_eq_outlines _
  simp only [Outline.belowSelect, clauseParts, List.map_append, grouped, ofTargets_eq_outlines,
    ofRels_eq_outlines, ofOption_eq_outlines, ofWindows_eq_outlines, List.append_assoc]

theorem mapIdx_eq_map {α β : Type} {f : Nat → α → β} {g : α → β} {several : List α}
    (same : ∀ i < several.length, ∀ it, f i it = g it) : several.mapIdx f = several.map g := by
  refine List.ext_getElem (by simp) fun i inside _ => ?_
  rw [List.length_mapIdx] at inside
  rw [List.getElem_mapIdx, List.getElem_map, same i inside]

/-- Where no part may be an asterisk, all outlines are those of other places. -/
theorem mapIdx_outline {allowed : Nat → Bool} {several : List Node}
    (never : ∀ i, allowed i = false) :
    several.mapIdx (fun i => outline (allowed i)) = several.map (outline false) :=
  mapIdx_eq_map fun i _ it => by rw [never]

/-- A node of which no part may be an asterisk. -/
theorem below_eq_of_plain (subject : Node) (never : ∀ i, subject.allowsStar i = false)
    (plain : subject.below = subject.parts.map (outline false)) :
    subject.below = subject.parts.mapIdx fun i => outline (subject.allowsStar i) :=
  plain.trans (mapIdx_outline never).symm

theorem belowExpr_eq_outlines (expr : Expr) :
    Outline.belowExpr expr =
      (exprParts expr).mapIdx fun i => outline ((Node.expr expr).allowsStar i) := by
  cases expr with
  | like expr pattern escape span =>
    have escaped := ofOption_eq_outlines escape
    exact below_eq_of_plain (.expr (.like expr pattern escape span)) (fun _ => rfl)
      (congrArg (outline false (.expr expr) :: outline false (.expr pattern) :: ·) escaped)
  | row values span =>
    exact below_eq_of_plain (.expr (.row values span)) (fun _ => rfl)
      (ofExprs_eq_outlines values)
  | groupingSet set =>
    exact below_eq_of_plain (.expr (.groupingSet set)) (fun _ => rfl)
      (belowGroupingSet_eq_outlines set)
  | groupingSets sets span =>
    exact below_eq_of_plain (.expr (.groupingSets sets span)) (fun _ => rfl)
      (ofExprs_eq_outlines sets)
  | rollup sets span =>
    exact below_eq_of_plain (.expr (.rollup sets span)) (fun _ => rfl)
      (belowGroupingSets_eq_outlines sets)
  | cube sets span =>
    exact below_eq_of_plain (.expr (.cube sets span)) (fun _ => rfl)
      (belowGroupingSets_eq_outlines sets)
  | aggregate function quantifier argument filter span =>
    rw [Outline.belowExpr, ofOption_eq_outlines, exprParts, List.mapIdx_cons]
    refine congrArg₂ List.cons ?_ (mapIdx_outline fun i => ?_).symm
    · simp [outline, allowsStar, below]
    · simp [allowsStar]
  | _ => rfl

theorem belowRel_eq_outlines (rel : Rel) :
    Outline.belowRel rel = (relParts rel).map (outline false) := by
  cases rel with
  | values rows span => exact ofExprs_eq_outlines rows
  | _ => rfl

/-- What is below a node are the outlines of its parts. -/
theorem below_eq (subject : Node) :
    subject.below = subject.parts.mapIdx fun i => outline (subject.allowsStar i) := by
  cases subject with
  | expr it => exact belowExpr_eq_outlines it
  | select it =>
    rw [parts_select, List.mapIdx_append]
    refine (belowSelect_eq_outlines it).trans (congrArg₂ (· ++ ·) (mapIdx_eq_map ?_).symm
      (mapIdx_outline fun i => ?_).symm)
    · intro i inside part
      rw [ofExprs, List.length_map] at inside
      simp [allowsStar, inside]
    · simp [allowsStar, ofExprs]
  | create it => exact below_eq_of_plain _ (fun _ => rfl) (ofColumnDefs_eq_outlines it.columns)
  | query it => exact below_eq_of_plain _ (fun _ => rfl) (belowQuery_eq_outlines it)
  | rel it => exact below_eq_of_plain _ (fun _ => rfl) (belowRel_eq_outlines it)
  | statement it => cases it <;> rfl
  | columnDef it =>
    obtain ⟨name, type, default, collation, constraints, span⟩ := it
    rcases default with - | (- | - | -) <;> rfl
  | insert it =>
    obtain ⟨table, columns, overriding, source, span⟩ := it
    cases source <;> rfl
  | delete it =>
    obtain ⟨table, only, selection, span⟩ := it
    cases selection <;> rfl
  | join kind natural condition left right span => cases condition <;> rfl
  | windowSpec it =>
    obtain ⟨existing, partitionBy, orderBy, frame, span⟩ := it
    refine below_eq_of_plain _ (fun _ => rfl) ?_
    simp only [below, Outline.belowWindowSpec, parts, List.map_append, ofExprs_eq_outlines,
      ofSortKeys_eq_outlines, belowFrame_eq_outlines]
  | sortKey it => cases it; rfl
  | cte => rfl
  | tableName => rfl

variable {pruned : Node → Bool}

theorem walkAll_outlines (allowed : Nat → Bool) (several : List Node) :
    Outline.walkAll pruned (several.mapIdx fun i => outline (allowed i)) =
      several.flatMap (walk pruned) := by
  induction several generalizing allowed with
  | nil => rfl
  | cons first rest ih =>
    rw [List.mapIdx_cons, Outline.walkAll_cons, List.flatMap_cons]
    exact congrArg (walk pruned first ++ ·) (ih fun i => allowed (i + 1))

/-- A walk from a node goes on with its parts. -/
theorem walkAll_below (subject : Node) :
    Outline.walkAll pruned subject.below = subject.parts.flatMap (walk pruned) := by
  rw [below_eq]
  exact walkAll_outlines subject.allowsStar subject.parts

/-- A walk meets the node it starts from, and then all that walks from its parts meet. -/
theorem walk_eq (pruned : Node → Bool) (subject : Node) :
    subject.walk pruned =
      subject :: if pruned subject then [] else subject.parts.flatMap (walk pruned) := by
  rw [walk, Outline.plain, Outline.walk, walkAll_below]

/-- The walk through a statement starts from the statement. -/
theorem walk_statement (pruned : Node → Bool) (statement : Statement) :
    ((Outline.ofStatement statement).visits pruned 0).map Prod.snd =
      (Node.statement statement).walk pruned := by
  rw [Outline.map_outline_visits, Outline.ofStatement_eq]
  rfl

end Node

end CanonicalSql
