import CanonicalSql.Proofs.Lexical
import CanonicalSql.Tree.Statement

/-!
# Extents

The extent of a tree is what is left of it when nothing but the places is kept: each node that
knows the stretch of text it was read from, with the nodes below it.

`Laid tokens i j extents` says that extents lie one behind another within the tokens from the
`i`-th up to the `j`-th, which is left out. Each covers a stretch of whole tokens, and what is
below it lies in the same way within that stretch. Below a node that is mixed it may do so in
another order: the columns and the constraints of a table are kept apart in the tree, however they
are mixed in the text.
-/
namespace CanonicalSql

/-- The place of a node, with those of the nodes below it. -/
inductive Extent
  | node (span : Span) (below : List Extent) (mixed : Bool := false)

namespace Extent

/-- The stretch of text of the node. -/
def span : Extent → Span
  | node span _ _ => span

/-- The extents right below. -/
def parts : Extent → List Extent
  | node _ parts _ => parts

/-- The order in the text of what is below a node: that of the tree, or any order if the node is
mixed. -/
def Arranged (mixed : Bool) (parts below : List Extent) : Prop :=
  parts.Perm below ∧ (mixed = false → parts = below)

theorem Arranged.refl (parts : List Extent) : Arranged false parts parts := ⟨.refl _, fun _ => rfl⟩

mutual

/-- The extent and all extents below it. -/
def all : Extent → List Extent
  | node span below mixed => node span below mixed :: allOf below

/-- The extents and all extents below them. -/
def allOf : List Extent → List Extent
  | [] => []
  | extent :: rest => all extent ++ allOf rest

end

theorem self_mem_all (extent : Extent) : extent ∈ extent.all := by
  cases extent
  exact List.mem_cons_self

theorem mem_allOf {extent : Extent} {extents : List Extent} :
    extent ∈ allOf extents ↔ ∃ top ∈ extents, extent ∈ top.all := by
  induction extents with
  | nil => simp [allOf]
  | cons top rest ih => simp [allOf, ih]

/-! ## Trees -/

mutual

/-- The extent of an expression. -/
def ofExpr : Expr → Extent
  | .asterisk _ span | .integer _ span | .float _ span | .string _ _ span | .truth _ span
  | .null span | .column _ span => node span []
  | .named _ expr span => node span [ofExpr expr]
  | .unary _ operand span => node span [ofExpr operand]
  | .binary left _ right span => node span [ofExpr left, ofExpr right]
  | .collate expr _ span => node span [ofExpr expr]
  | .isTruth expr _ span => node span [ofExpr expr]
  | .isNull expr span => node span [ofExpr expr]
  | .between expr low high _ span => node span [ofExpr expr, ofExpr low, ofExpr high]
  | .within expr rows span => node span [ofExpr expr, ofRel rows]
  | .like expr pattern escape span => node span ([ofExpr expr, ofExpr pattern] ++ ofOption escape)
  | .existence query span => node span [ofQuery query]
  | .uniqueness query span => node span [ofQuery query]
  | .row values span => node span (ofExprs values)
  | .subquery query span => node span [ofQuery query]
  | .sortKey key => ofSortKey key
  | .groupingSet set => ofGroupingSet set
  | .groupingSets sets span => node span (ofExprs sets)
  | .rollup sets span => node span (ofGroupingSets sets)
  | .cube sets span => node span (ofGroupingSets sets)
  | .aggregate _ _ argument filter span => node span (ofExpr argument :: ofOption filter)

/-- The extents of expressions. -/
def ofExprs : List Expr → List Extent
  | [] => []
  | expr :: rest => ofExpr expr :: ofExprs rest

/-- The extent of an expression that is present. -/
def ofOption : Option Expr → List Extent
  | none => []
  | some expr => [ofExpr expr]

/-- The extent of a sort key. -/
def ofSortKey : SortKey → Extent
  | ⟨expr, _, _, span⟩ => node span [ofExpr expr]

/-- The extents of sort keys. -/
def ofSortKeys : List SortKey → List Extent
  | [] => []
  | key :: rest => ofSortKey key :: ofSortKeys rest

/-- The extent of a grouping set. -/
def ofGroupingSet : GroupingSet → Extent
  | ⟨columns, span⟩ => node span (ofExprs columns)

/-- The extents of grouping sets. -/
def ofGroupingSets : List GroupingSet → List Extent
  | [] => []
  | set :: rest => ofGroupingSet set :: ofGroupingSets rest

/-- The extent of a relation. -/
def ofRel : Rel → Extent
  | .join _ _ condition left right span =>
    node span ([ofRel left, ofRel right] ++ ofCondition condition)
  | .table _ span => node span []
  | .named _ _ relation span => node span [ofRel relation]
  | .select select => ofSelect select
  | .values rows span => node span (ofExprs rows)
  | .setOp _ _ left right span => node span [ofRel left, ofRel right]
  | .query query => ofQuery query

/-- The extents of relations. -/
def ofRels : List Rel → List Extent
  | [] => []
  | rel :: rest => ofRel rel :: ofRels rest

/-- The extent of the expression of a join condition. -/
def ofCondition : JoinCondition → List Extent
  | .onExpr condition => [ofExpr condition]
  | .absent | .usingColumns _ => []

/-- The extent of a frame bound. -/
def ofFrameBound : FrameBound → Extent
  | ⟨_, value, span⟩ => node span (ofOption value)

/-- The extent of a frame. -/
def ofFrame : Frame → Extent
  | ⟨_, start, none, _, span⟩ => node span [ofFrameBound start]
  | ⟨_, start, some stop, _, span⟩ => node span [ofFrameBound start, ofFrameBound stop]

/-- The extent of a frame that is present. -/
def ofFrameOption : Option Frame → List Extent
  | none => []
  | some frame => [ofFrame frame]

/-- The extent of a window specification. -/
def ofWindowSpec : WindowSpec → Extent
  | ⟨_, partitionBy, orderBy, frame, span⟩ =>
    node span (ofExprs partitionBy ++ ofSortKeys orderBy ++ ofFrameOption frame)

/-- The extents of window definitions. -/
def ofWindows : List WindowDef → List Extent
  | [] => []
  | ⟨_, spec, span⟩ :: rest => node span [ofWindowSpec spec] :: ofWindows rest

/-- The extent of a projection. -/
def ofSelect : Select → Extent
  | ⟨_, targets, sources, selection, groupBy, having, windows, span⟩ =>
    node span (ofExprs targets ++ ofRels sources ++ ofOption selection ++ ofGroupBy groupBy ++
      ofOption having ++ ofWindows windows)

/-- The extent of a `GROUP BY` clause that is present. -/
def ofGroupBy : Option GroupClause → List Extent
  | none => []
  | some ⟨_, groupings, span⟩ => [node span (ofExprs groupings)]

/-- The extents of common table expressions. -/
def ofCtes : List Cte → List Extent
  | [] => []
  | ⟨_, _, query, span⟩ :: rest => node span [ofQuery query] :: ofCtes rest

/-- The extent of a `WITH` clause that is present. -/
def ofWith : Option WithClause → List Extent
  | none => []
  | some ⟨_, ctes, span⟩ => [node span (ofCtes ctes)]

/-- The extent of a `FETCH` clause that is present. -/
def ofFetch : Option Fetch → List Extent
  | none => []
  | some ⟨_, count, _, _, span⟩ => [node span (ofOption count)]

/-- The extent of a query. -/
def ofQuery : Query → Extent
  | ⟨withClause, body, orderBy, offset, fetch, span⟩ =>
    node span (ofWith withClause ++ [ofRel body] ++ ofSortKeys orderBy ++ ofOption offset ++
      ofFetch fetch)

end

/-- The extent of a window definition. -/
def ofWindow (window : WindowDef) : Extent := node window.span [ofWindowSpec window.spec]

/-- The extent of a common table expression. -/
def ofCte (cte : Cte) : Extent := node cte.span [ofQuery cte.query]

theorem ofExprs_eq_map (exprs : List Expr) : ofExprs exprs = exprs.map ofExpr := by
  induction exprs with
  | nil => rfl
  | cons expr rest ih => simp [ofExprs, ih]

theorem ofSortKeys_eq_map (keys : List SortKey) : ofSortKeys keys = keys.map ofSortKey := by
  induction keys with
  | nil => rfl
  | cons key rest ih => simp [ofSortKeys, ih]

theorem ofGroupingSets_eq_map (sets : List GroupingSet) :
    ofGroupingSets sets = sets.map ofGroupingSet := by
  induction sets with
  | nil => rfl
  | cons set rest ih => simp [ofGroupingSets, ih]

theorem ofRels_eq_map (rels : List Rel) : ofRels rels = rels.map ofRel := by
  induction rels with
  | nil => rfl
  | cons rel rest ih => simp [ofRels, ih]

theorem ofWindows_eq_map (windows : List WindowDef) : ofWindows windows = windows.map ofWindow := by
  induction windows with
  | nil => rfl
  | cons window rest ih =>
    cases window
    simp [ofWindows, ofWindow, ih]

theorem ofCtes_eq_map (ctes : List Cte) : ofCtes ctes = ctes.map ofCte := by
  induction ctes with
  | nil => rfl
  | cons cte rest ih =>
    cases cte
    simp [ofCtes, ofCte, ih]

/-- The extents of what a column is told to refer to. -/
def ofColumnConstraint (constraint : ColumnConstraint) : Extent :=
  node constraint.span <|
    match constraint.kind with
    | .foreignKey references => [node references.span []]
    | .notNull | .unique | .primaryKey => []

/-- The extent of a constraint at a table. -/
def ofTableConstraint (constraint : TableConstraint) : Extent :=
  node constraint.span <|
    match constraint.kind with
    | .foreignKey _ references => [node references.span []]
    | .unique _ | .primaryKey _ => []

/-- The extent of the expression of a default value. -/
def ofDefault : Option ColumnDefault → List Extent
  | some (.expr value) => [ofExpr value]
  | _ => []

/-- What is below a column definition. -/
def belowColumnDef (column : ColumnDef) : List Extent :=
  ofDefault column.default ++ column.constraints.map ofColumnConstraint

/-- The extent of a column definition. -/
def ofColumnDef (column : ColumnDef) : Extent := node column.span (belowColumnDef column) true

/-- The extent of a member of a table definition. -/
def ofTableElement : TableElement → Extent
  | .column column => ofColumnDef column
  | .constraint constraint => ofTableConstraint constraint

/-- The extent of a table definition. -/
def ofCreate (definition : Create) : Extent :=
  node definition.span
    (definition.columns.map ofColumnDef ++ definition.constraints.map ofTableConstraint) true

/-- The extent of the rows of an insertion. -/
def ofInsertSource : InsertSource → List Extent
  | .query query => [ofQuery query]
  | .defaultValues => []

/-- The extent of a statement. -/
def ofStatement : Statement → Extent
  | .create definition => ofCreate definition
  | .insert insertion => node insertion.span (ofInsertSource insertion.source)
  | .delete deletion => node deletion.span (ofOption deletion.selection)
  | .select query span => node span [ofQuery query]

end Extent

/-! ## Stretches of tokens -/

/-- The span runs from the `i`-th token up to the `j`-th, which is left out. -/
def Covers (tokens : List Token) (i j : Nat) (span : Span) : Prop :=
  ∃ first last, i < j ∧ tokens[i]? = some first ∧ tokens[j - 1]? = some last ∧
    span = ⟨first.span.start, last.span.stop⟩

theorem Covers.lt {tokens : List Token} {i j : Nat} {span : Span} (covers : Covers tokens i j span) :
    i < j := by
  obtain ⟨-, -, proper, -⟩ := covers
  exact proper

/-- The extents lie one behind another within the tokens from the `i`-th up to the `j`-th. -/
inductive Laid (tokens : List Token) : Nat → Nat → List Extent → Prop
  | nil {i j : Nat} : i ≤ j → Laid tokens i j []
  | cons {i a b j : Nat} {span : Span} {parts below rest : List Extent} {mixed : Bool} : i ≤ a →
      Covers tokens a b span → Laid tokens a b parts → Extent.Arranged mixed parts below →
      Laid tokens b j rest → Laid tokens i j (.node span below mixed :: rest)

namespace Laid

variable {tokens : List Token} {i j m a b : Nat} {span : Span} {extent : Extent}
  {below extents others : List Extent}

theorem le (laid : Laid tokens i j extents) : i ≤ j := by
  induction laid with
  | nil ordered => exact ordered
  | cons low covers _ _ _ _ ih =>
    have := covers.lt
    omega

/-- What lies within a stretch lies within a longer one. -/
theorem mono (laid : Laid tokens a b extents) (low : i ≤ a) (high : b ≤ j) :
    Laid tokens i j extents := by
  induction laid generalizing i with
  | nil ordered => exact .nil (by omega)
  | cons begins covers inner arranged _ _ ih =>
    exact .cons (Nat.le_trans low begins) covers inner arranged (ih (Nat.le_refl _) high)

theorem append (first : Laid tokens i m extents) (second : Laid tokens m j others) :
    Laid tokens i j (extents ++ others) := by
  induction first with
  | nil ordered => exact second.mono ordered (Nat.le_refl _)
  | cons low covers inner arranged _ _ ih => exact .cons low covers inner arranged (ih second)

/-- A node that covers a stretch, over what lies within it. -/
theorem node (covers : Covers tokens i j span) (laid : Laid tokens i j below) :
    Laid tokens i j [.node span below] :=
  .cons (Nat.le_refl _) covers laid (.refl _) (.nil (Nat.le_refl _))

theorem leaf (covers : Covers tokens i j span) : Laid tokens i j [.node span []] :=
  .node covers (.nil (Nat.le_of_lt covers.lt))

/-- One of the extents lies within the stretch on its own. -/
theorem of_mem (laid : Laid tokens i j extents) (member : extent ∈ extents) :
    Laid tokens i j [extent] := by
  induction laid with
  | nil => cases member
  | cons low covers inner arranged others _ ih =>
    have := covers.lt
    rcases List.mem_cons.mp member with rfl | member
    · exact .cons low covers inner arranged (.nil others.le)
    · exact (ih member).mono (by omega) (Nat.le_refl _)

/-- What is right below an extent lies where the extent does. -/
theorem of_mem_parts {part : Extent} (laid : Laid tokens i j [extent])
    (member : part ∈ extent.parts) : Laid tokens i j [part] := by
  cases laid with
  | cons low covers inner arranged rest =>
    exact (inner.of_mem (arranged.1.mem_iff.mpr member)).mono low rest.le

/-- An extent takes up a token at least. -/
theorem lt (laid : Laid tokens i j [extent]) : i < j := by
  cases laid with
  | cons low covers _ _ rest =>
    have := covers.lt
    have := rest.le
    omega

end Laid

end CanonicalSql
