import CanonicalSql.Depth

/-!
# Texts that cannot be read back

Three shapes of tree have a canonical text that the grammar refuses. A table definition
without columns begins its list with a comma. A row as the count of `FETCH` is taken for
the word `ROW` that ends the clause. And a subquery that is the only column of a grouping
set, and whose text begins with a second parenthesis, is taken for a list of columns.

`Node.isUnreadable` says of each node whether it has one of these shapes, and an outline is
readable if none of its nodes does.
-/
namespace CanonicalSql

/-- Whether the expression is a row. -/
def Expr.isRow : Expr → Bool
  | .row .. => true
  | _ => false

/-- Whether the relation is written in parentheses as an operand of a set operation. -/
def Rel.isEnclosed : Rel → Bool
  | .setOp .. | .query _ => true
  | _ => false

/-- Whether the text of a query body begins with a parenthesis. -/
def Rel.beginsEnclosed : Rel → Bool
  | .query _ => true
  | .setOp _ _ left _ _ => left.isEnclosed
  | _ => false

/-- Whether the text of the query begins with a parenthesis. -/
def Query.beginsEnclosed (query : Query) : Bool :=
  query.withClause.isNone && query.body.beginsEnclosed

/-- Whether the only column of a grouping set is a subquery whose text begins with two
parentheses. -/
def GroupingSet.isUnreadable : GroupingSet → Bool
  | ⟨[.subquery query _], _⟩ => query.beginsEnclosed
  | _ => false

/-- Whether the node has a shape whose canonical text is refused. -/
def Node.isUnreadable : Node → Bool
  | .create definition => definition.columns.isEmpty
  | .query rows => rows.fetch.any fun fetch => fetch.count.any Expr.isRow
  | .expr (.groupingSet set) => set.isUnreadable
  | .expr (.rollup sets _) | .expr (.cube sets _) => sets.any GroupingSet.isUnreadable
  | _ => false

namespace Outline

/-! ## Nodes of outlines -/

mutual

/-- The nodes that a walk passes do not hang on where it begins. -/
theorem map_visits (pruned : Node → Bool) (depth depth' : Nat) : ∀ outline : Outline,
    (outline.visits pruned depth).map Prod.snd = (outline.visits pruned depth').map Prod.snd
  | .node subject _ below => by
    simp only [visits, List.map_cons]
    split
    · rfl
    · rw [map_visitsAll pruned (depth + 1) (depth' + 1) below]

theorem map_visitsAll (pruned : Node → Bool) (depth depth' : Nat) : ∀ outlines : List Outline,
    (visitsAll pruned depth outlines).map Prod.snd =
      (visitsAll pruned depth' outlines).map Prod.snd
  | [] => rfl
  | outline :: rest => by
    simp only [visitsAll, List.map_append]
    rw [map_visits pruned depth depth' outline, map_visitsAll pruned depth depth' rest]

end

theorem map_visitsAll_eq (depth : Nat) (outlines : List Outline) :
    (visitsAll (fun _ => false) depth outlines).map Prod.snd = outlines.flatMap nodes := by
  induction outlines with
  | nil => rfl
  | cons outline rest ih =>
    simp only [visitsAll, List.map_append, List.flatMap_cons, ih]
    rw [map_visits _ depth 0 outline]
    rfl

/-- The nodes of an outline are its subject and the nodes below. -/
theorem nodes_node (subject : Node) (star : Bool) (below : List Outline) :
    (node subject star below).nodes = subject :: below.flatMap nodes := by
  simp only [nodes, visits, List.map_cons, Bool.false_eq_true, ↓reduceIte, map_visitsAll_eq]

/-! ## Readable outlines -/

/-- No node has a shape whose canonical text is refused. -/
def Readable (outline : Outline) : Prop := ∀ subject ∈ outline.nodes, subject.isUnreadable = false

/-- No node of any outline has such a shape. -/
def AllReadable (outlines : List Outline) : Prop := ∀ outline ∈ outlines, outline.Readable

theorem readable_node {subject : Node} {star : Bool} {below : List Outline} :
    (node subject star below).Readable ↔
      subject.isUnreadable = false ∧ AllReadable below := by
  simp only [Readable, AllReadable, nodes_node, List.forall_mem_cons, List.mem_flatMap]
  constructor
  · rintro ⟨first, rest⟩
    exact ⟨first, fun outline member other inside => rest other ⟨outline, member, inside⟩⟩
  · rintro ⟨first, rest⟩
    refine ⟨first, ?_⟩
    rintro other ⟨outline, member, inside⟩
    exact rest outline member other inside

@[simp] theorem allReadable_nil : AllReadable [] := nofun

@[simp] theorem allReadable_cons {outline : Outline} {rest : List Outline} :
    AllReadable (outline :: rest) ↔ outline.Readable ∧ AllReadable rest := by
  simp [AllReadable]

@[simp] theorem allReadable_append {first second : List Outline} :
    AllReadable (first ++ second) ↔ AllReadable first ∧ AllReadable second := by
  simp only [AllReadable, List.mem_append]
  constructor
  · intro all
    exact ⟨fun outline member => all outline (.inl member),
      fun outline member => all outline (.inr member)⟩
  · rintro ⟨one, other⟩ outline (member | member)
    · exact one outline member
    · exact other outline member

/-! ## Depth of outlines -/

theorem depth_plain (subject : Node) (below : List Outline) :
    (plain subject below).depth = (if subject.isLevel then 1 else 0) + depthAll below := by
  simp [plain, depth]

theorem depth_node (subject : Node) (star : Bool) (below : List Outline) :
    (node subject star below).depth = (if subject.isLevel then 1 else 0) + depthAll below := by
  simp [depth]

@[simp] theorem depthAll_nil : depthAll [] = 0 := rfl

@[simp] theorem depthAll_cons (outline : Outline) (rest : List Outline) :
    depthAll (outline :: rest) = max outline.depth (depthAll rest) := by
  simp [depthAll]

@[simp] theorem depthAll_append (first second : List Outline) :
    depthAll (first ++ second) = max (depthAll first) (depthAll second) := by
  induction first with
  | nil => simp
  | cons outline rest ih => simp [ih, Nat.max_assoc]

theorem depth_le_depthAll {outline : Outline} {outlines : List Outline}
    (member : outline ∈ outlines) : outline.depth ≤ depthAll outlines := by
  induction outlines with
  | nil => cases member
  | cons other rest ih =>
    rw [depthAll_cons]
    rcases List.mem_cons.mp member with rfl | member
    · omega
    · have := ih member
      omega

mutual

/-- A limit on the depth is exceeded nowhere if the depth is within it. -/
theorem firstBeyond_eq_none : ∀ (outline : Outline) (room : Nat),
    outline.firstBeyond room = none ↔ outline.depth ≤ room
  | .node subject _ below, room => by
    simp only [firstBeyond, depth]
    cases subject.isLevel with
    | false => simpa using firstBeyondAll_eq_none below room
    | true =>
      cases room with
      | zero => simp
      | succ room =>
        simp only [↓reduceIte, firstBeyondAll_eq_none below room]
        omega

theorem firstBeyondAll_eq_none : ∀ (outlines : List Outline) (room : Nat),
    firstBeyondAll room outlines = none ↔ depthAll outlines ≤ room
  | [], room => by simp [firstBeyondAll]
  | outline :: rest, room => by
    simp only [firstBeyondAll, Option.or_eq_none_iff, firstBeyond_eq_none outline room,
      firstBeyondAll_eq_none rest room, depthAll_cons, Nat.max_le]

end

/-! ## Outlines of expressions, relations and queries -/

theorem plain_expr (expr : Expr) : plain (.expr expr) (belowExpr expr) = ofExpr expr :=
  rfl

theorem plain_rel (rel : Rel) : plain (.rel rel) (belowRel rel) = ofRel rel := rfl

theorem plain_query (query : Query) :
    plain (.query query) (belowQuery query) = ofQuery query := rfl

theorem depth_ofExpr (expr : Expr) : (ofExpr expr).depth = 1 + depthAll (belowExpr expr) :=
  depth_node _ _ _

theorem depth_ofRel (rel : Rel) : (ofRel rel).depth = 1 + depthAll (belowRel rel) :=
  depth_node _ _ _

theorem depth_ofQuery (query : Query) :
    (ofQuery query).depth = 1 + depthAll (belowQuery query) :=
  depth_node _ _ _

/-- Whether an asterisk may stand there does not matter to the depth. -/
@[simp] theorem depth_node_expr (expr : Expr) (star : Bool) :
    (node (.expr expr) star (belowExpr expr)).depth = (ofExpr expr).depth := by
  rw [depth_ofExpr, depth_node]
  rfl

theorem readable_ofExpr {expr : Expr} :
    (ofExpr expr).Readable ↔
      (Node.expr expr).isUnreadable = false ∧ AllReadable (belowExpr expr) :=
  readable_node

theorem readable_ofRel {rel : Rel} :
    (ofRel rel).Readable ↔ AllReadable (belowRel rel) :=
  readable_node.trans ⟨And.right, fun all => ⟨rfl, all⟩⟩

theorem readable_ofQuery {query : Query} :
    (ofQuery query).Readable ↔
      (Node.query query).isUnreadable = false ∧ AllReadable (belowQuery query) :=
  readable_node

@[simp] theorem readable_node_expr {expr : Expr} {star : Bool} :
    (node (.expr expr) star (belowExpr expr)).Readable ↔ (ofExpr expr).Readable :=
  readable_node.trans readable_ofExpr.symm

theorem ofExprs_eq_map (exprs : List Expr) : ofExprs exprs = exprs.map ofExpr := by
  induction exprs with
  | nil => rfl
  | cons expr rest ih => simp [ofExprs, plain_expr, ih]

theorem ofRels_eq_map (rels : List Rel) : ofRels rels = rels.map ofRel := by
  induction rels with
  | nil => rfl
  | cons rel rest ih => simp [ofRels, plain_rel, ih]

theorem allReadable_ofExprs {exprs : List Expr} :
    AllReadable (ofExprs exprs) ↔ ∀ expr ∈ exprs, (ofExpr expr).Readable := by
  simp [ofExprs_eq_map, AllReadable]

theorem allReadable_ofRels {rels : List Rel} :
    AllReadable (ofRels rels) ↔ ∀ rel ∈ rels, (ofRel rel).Readable := by
  simp [ofRels_eq_map, AllReadable]

theorem allReadable_ofTargets {targets : List Expr} :
    AllReadable (ofTargets targets) ↔ ∀ expr ∈ targets, (ofExpr expr).Readable := by
  induction targets with
  | nil => simp [ofTargets]
  | cons expr rest ih => simp [ofTargets, ih]

theorem depth_le_ofExprs {expr : Expr} {exprs : List Expr} (member : expr ∈ exprs) :
    (ofExpr expr).depth ≤ depthAll (ofExprs exprs) := by
  rw [ofExprs_eq_map]
  exact depth_le_depthAll (List.mem_map_of_mem member)

theorem depth_le_ofRels {rel : Rel} {rels : List Rel} (member : rel ∈ rels) :
    (ofRel rel).depth ≤ depthAll (ofRels rels) := by
  rw [ofRels_eq_map]
  exact depth_le_depthAll (List.mem_map_of_mem member)

theorem depth_le_ofTargets {expr : Expr} {targets : List Expr} (member : expr ∈ targets) :
    (ofExpr expr).depth ≤ depthAll (ofTargets targets) := by
  induction targets with
  | nil => cases member
  | cons other rest ih =>
    simp only [ofTargets, depthAll_cons, depth_node_expr]
    rcases List.mem_cons.mp member with rfl | member
    · omega
    · have := ih member
      omega

/-- A sort key adds nothing to the depth of its expression. -/
@[simp] theorem depth_sortKey (key : SortKey) :
    (plain (.sortKey key) (belowSortKey key)).depth = (ofExpr key.expr).depth := by
  obtain ⟨expr, order, nulls, span⟩ := key
  rw [plain, depth_node]
  simp [belowSortKey, Node.isLevel, plain_expr]

@[simp] theorem readable_sortKey {key : SortKey} :
    (plain (.sortKey key) (belowSortKey key)).Readable ↔ (ofExpr key.expr).Readable := by
  obtain ⟨expr, order, nulls, span⟩ := key
  rw [plain, readable_node]
  simp [belowSortKey, Node.isUnreadable, plain_expr]

theorem allReadable_ofSortKeys {keys : List SortKey} :
    AllReadable (ofSortKeys keys) ↔ ∀ key ∈ keys, (ofExpr key.expr).Readable := by
  induction keys with
  | nil => simp [ofSortKeys]
  | cons key rest ih => simp [ofSortKeys, ih]

theorem depth_le_ofSortKeys {key : SortKey} {keys : List SortKey} (member : key ∈ keys) :
    (ofExpr key.expr).depth ≤ depthAll (ofSortKeys keys) := by
  induction keys with
  | nil => cases member
  | cons other rest ih =>
    simp only [ofSortKeys, depthAll_cons, depth_sortKey]
    rcases List.mem_cons.mp member with rfl | member
    · omega
    · have := ih member
      omega

end Outline

end CanonicalSql
