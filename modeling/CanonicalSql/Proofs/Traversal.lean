import CanonicalSql.Proofs.Traversal.Order

/-!
# Walking through a statement

A walk through a statement that was read meets all its nodes, each of them once, whole nodes before
their parts, in the order in which they begin in the text. A walk that does not go on from some
nodes leaves out what is below these and nothing else.

The argument rests on two facts. A walk from a node goes on with walks from its parts, each of
which is shorter than the whole (`Node.walk_eq`, `Node.length_nodes_lt`); and the parts of a node
stand for stretches of text that are apart, so that what is below one part is not below another
(`Node.Tidy`).
-/
namespace CanonicalSql

open Relation (ReflTransGen TransGen)

namespace Node

variable {node whole part below : Node} {pruned : Node → Bool}

/-- All nodes that a walk from the node meets. -/
def nodes (node : Node) : List Node := node.walk fun _ => false

theorem nodes_eq (node : Node) : node.nodes = node :: node.parts.flatMap nodes :=
  walk_eq (fun _ => false) node

theorem sublist_flatMap {f : Node → List Node} {several : List Node} (member : node ∈ several) :
    (f node).Sublist (several.flatMap f) :=
  List.sublist_flatten_of_mem (List.mem_map_of_mem member)

/-- The walk from a part is shorter than the walk from the whole. -/
theorem length_nodes_lt (isPart : Part whole part) : part.nodes.length < whole.nodes.length := by
  have inner : part.nodes.Sublist (whole.parts.flatMap nodes) :=
    sublist_flatMap (mem_parts.mpr isPart)
  have := inner.length_le
  rw [whole.nodes_eq, List.length_cons]
  omega

theorem length_nodes_lt_of_below (path : TransGen Part whole below) :
    below.nodes.length < whole.nodes.length := by
  induction path with
  | single isPart => exact length_nodes_lt isPart
  | tail _ isPart ih => exact Nat.lt_trans (length_nodes_lt isPart) ih

/-- A node is not below itself. -/
theorem not_below_self (node : Node) : ¬ TransGen Part node node :=
  fun path => Nat.lt_irrefl _ (length_nodes_lt_of_below path)

/-- What holds of a node whenever it holds of its parts holds of every node. -/
theorem rec_parts {motive : Node → Prop} (node : Node)
    (step : ∀ whole, (∀ part, Part whole part → motive part) → motive whole) : motive node := by
  generalize size : node.nodes.length = n
  induction n using Nat.strong_induction_on generalizing node with
  | _ n ih => exact step node fun part isPart => ih _ (size ▸ length_nodes_lt isPart) part rfl

/-! ## Which nodes are met -/

/-- A step of a walk that does not go on from pruned nodes. -/
def Step (pruned : Node → Bool) (whole part : Node) : Prop := pruned whole = false ∧ Part whole part

/-- A walk meets what can be reached without going on from a pruned node. -/
theorem mem_walk_iff : below ∈ node.walk pruned ↔ ReflTransGen (Step pruned) node below := by
  constructor
  · refine rec_parts (motive := fun node => below ∈ node.walk pruned →
      ReflTransGen (Step pruned) node below) node fun whole ih member => ?_
    rw [walk_eq, List.mem_cons] at member
    rcases member with rfl | member
    · exact .refl
    · split at member
      · cases member
      · next goesOn =>
        obtain ⟨part, isPart, member⟩ := List.mem_flatMap.mp member
        have isPart := mem_parts.mp isPart
        exact .head ⟨Bool.eq_false_iff.mpr goesOn, isPart⟩ (ih part isPart member)
  · intro path
    induction path using ReflTransGen.head_induction_on with
    | refl =>
      rw [walk_eq]
      exact List.mem_cons_self
    | head step _ ih =>
      rw [walk_eq, step.1, if_neg Bool.false_ne_true]
      exact List.mem_cons_of_mem _ (List.mem_flatMap.mpr ⟨_, mem_parts.mpr step.2, ih⟩)

theorem step_false : Step (fun _ => false) = Part := by
  funext whole part
  simp [Step]

theorem mem_nodes_iff : below ∈ node.nodes ↔ ReflTransGen Part node below := by
  rw [nodes, mem_walk_iff, step_false]

theorem flatMap_sublist_flatMap {f g : Node → List Node} {several : List Node}
    (each : ∀ node ∈ several, (f node).Sublist (g node)) :
    (several.flatMap f).Sublist (several.flatMap g) := by
  induction several with
  | nil => exact .refl _
  | cons first rest ih =>
    exact (each first List.mem_cons_self).append
      (ih fun node member => each node (List.mem_cons_of_mem _ member))

/-- A walk that does not go on from some nodes meets fewer nodes, in the same order. -/
theorem walk_sublist (pruned : Node → Bool) (node : Node) : (node.walk pruned).Sublist node.nodes := by
  induction node using rec_parts with
  | step whole ih =>
    rw [walk_eq, nodes_eq]
    refine List.Sublist.cons_cons whole ?_
    split
    · exact List.nil_sublist _
    · exact flatMap_sublist_flatMap fun part member => ih part (mem_parts.mp member)

/-- Whole nodes are met before their parts. -/
theorem whole_before_part (met : whole ∈ node.nodes) (isPart : Part whole part) :
    [whole, part].Sublist node.nodes := by
  induction node using rec_parts with
  | step top ih =>
    rw [nodes_eq] at met ⊢
    rcases List.mem_cons.mp met with rfl | met
    · refine List.Sublist.cons_cons whole (List.singleton_sublist.mpr ?_)
      refine List.mem_flatMap.mpr ⟨part, mem_parts.mpr isPart, ?_⟩
      rw [nodes_eq]
      exact List.mem_cons_self
    · obtain ⟨inner, isInner, met⟩ := List.mem_flatMap.mp met
      exact ((ih inner (mem_parts.mp isInner) met).trans (sublist_flatMap isInner)).cons top

/-! ## Nodes in good order -/

section

variable (tidy : ∀ below, ReflTransGen Part node below → below.Tidy)

include tidy

/-- What is below a node stands for text within that of the node. -/
theorem within_of_mem (met : below ∈ node.nodes) : below.span.Within node.span := by
  have path := mem_nodes_iff.mp met
  clear met
  induction path with
  | refl => exact ⟨Nat.le_refl _, Nat.le_refl _⟩
  | @tail whole part path isPart ih =>
    have inner := (tidy whole path).within part (mem_parts.mpr isPart)
    exact ⟨Nat.le_trans ih.1 inner.1, Nat.le_trans inner.2 ih.2⟩

theorem tidy_part (isPart : Part node part) :
    ∀ below, ReflTransGen Part part below → below.Tidy :=
  fun below path => tidy below (.head isPart path)

/-- What is below one part begins before what is below a later part, and is nothing of it. -/
theorem parts_apart : node.parts.Pairwise fun one other => ∀ first ∈ one.nodes,
    ∀ second ∈ other.nodes, first.span.start.offset < second.span.start.offset := by
  refine (List.pairwise_iff_forall_sublist.mpr fun {one other} pair first inOne second inOther => ?_)
  have isOne := mem_parts.mp (pair.subset List.mem_cons_self)
  have isOther := mem_parts.mp (pair.subset (List.mem_cons_of_mem _ List.mem_cons_self))
  have ordered := List.pairwise_iff_forall_sublist.mp (tidy node .refl).ordered pair
  have withinOne := within_of_mem (tidy_part tidy isOne) inOne
  have withinOther := within_of_mem (tidy_part tidy isOther) inOther
  have proper := (tidy first (.head isOne (mem_nodes_iff.mp inOne))).proper
  have := withinOne.2
  have := withinOther.1
  omega

/-- What is below one part is not below another. -/
theorem parts_disjoint : node.parts.Pairwise fun one other => one.nodes.Disjoint other.nodes :=
  (parts_apart tidy).imp fun apart below inOne inOther =>
    Nat.lt_irrefl _ (apart below inOne below inOther)

/-- Every node is met once. -/
theorem nodup_nodes : node.nodes.Nodup := by
  induction node using rec_parts with
  | step whole ih =>
    rw [nodes_eq, List.nodup_cons]
    constructor
    · intro met
      obtain ⟨part, isPart, met⟩ := List.mem_flatMap.mp met
      exact whole.not_below_self (.head' (mem_parts.mp isPart) (mem_nodes_iff.mp met))
    · refine List.nodup_flatMap.mpr ⟨fun part isPart => ?_, parts_disjoint tidy⟩
      exact ih part (mem_parts.mp isPart) (tidy_part tidy (mem_parts.mp isPart))

/-- The nodes are met in the order in which they begin. -/
theorem ordered_nodes : node.nodes.Pairwise fun one other =>
    one.span.start.offset ≤ other.span.start.offset := by
  induction node using rec_parts with
  | step whole ih =>
    have inside : ∀ below ∈ whole.nodes, whole.span.start.offset ≤ below.span.start.offset :=
      fun below met => (within_of_mem tidy met).1
    rw [nodes_eq] at inside ⊢
    refine List.pairwise_cons.mpr ⟨fun below met => inside below (List.mem_cons_of_mem _ met), ?_⟩
    refine List.pairwise_flatMap.mpr ⟨fun part isPart => ?_, (parts_apart tidy).imp ?_⟩
    · exact ih part (mem_parts.mp isPart) (tidy_part tidy (mem_parts.mp isPart))
    · exact fun apart first inOne second inOther => Nat.le_of_lt (apart first inOne second inOther)

/-- Below a pruned node nothing is met. -/
theorem not_mem_walk_of_below {top : Node} (met : top ∈ node.nodes) (isPruned : pruned top = true)
    (path : TransGen Part top below) : below ∉ node.walk pruned := by
  induction node using rec_parts with
  | step whole ih =>
    intro reached
    rw [walk_eq] at reached
    -- what is below the node is below the whole too, and so it is not the whole
    have isBelow : TransGen Part whole below := .trans_right (mem_nodes_iff.mp met) path
    rcases List.mem_cons.mp reached with rfl | reached
    · exact below.not_below_self isBelow
    · split at reached
      · cases reached
      · next goesOn =>
        obtain ⟨part, isPart, reached⟩ := List.mem_flatMap.mp reached
        rw [nodes_eq] at met
        rcases List.mem_cons.mp met with rfl | met
        · exact goesOn isPruned
        · obtain ⟨other, isOther, met⟩ := List.mem_flatMap.mp met
          have inOther : below ∈ other.nodes :=
            mem_nodes_iff.mpr ((mem_nodes_iff.mp met).trans path.to_reflTransGen)
          have inPart : below ∈ part.nodes := (walk_sublist pruned part).subset reached
          -- the node below is in one part only, so the walk comes to it in the part where it was
          -- met
          obtain rfl : part = other := by
            by_contra distinct
            have : Std.Symm fun one other : Node => one.nodes.Disjoint other.nodes :=
              ⟨fun _ _ apart => apart.symm⟩
            exact (parts_disjoint tidy).forall isPart isOther distinct inPart inOther
          have isPart := mem_parts.mp isPart
          exact ih part isPart (tidy_part tidy isPart) met reached

/-- What a walk leaves out is what is below the nodes that it does not go on from. -/
theorem not_mem_walk_iff (met : below ∈ node.nodes) :
    below ∉ node.walk pruned ↔
      ∃ top ∈ node.walk pruned, pruned top = true ∧ TransGen Part top below := by
  refine ⟨fun missed => ?_, ?_⟩
  · have path := mem_nodes_iff.mp met
    clear met
    induction path with
    | refl =>
      rw [walk_eq] at missed
      exact absurd List.mem_cons_self missed
    | @tail whole part path isPart ih =>
      -- either the whole is visited, and then only pruning keeps its part away, or it was missed
      -- before
      by_cases reached : whole ∈ node.walk pruned
      · cases goesOn : pruned whole with
        | false => exact absurd (mem_walk_iff.mpr ((mem_walk_iff.mp reached).tail ⟨goesOn, isPart⟩)) missed
        | true => exact ⟨whole, reached, goesOn, .single isPart⟩
      · obtain ⟨top, isTop, isPruned, isBelow⟩ := ih reached
        exact ⟨top, isTop, isPruned, isBelow.tail isPart⟩
  · rintro ⟨top, isTop, isPruned, path⟩
    exact not_mem_walk_of_below tidy ((walk_sublist pruned node).subset isTop) isPruned path

end

end Node

/-! ## Statements -/

namespace Statement

/-- The walks through a statement: `met` are the nodes in the order in which they are met, and
`metBut pruned` those that are met where the walk does not go on from pruned nodes. -/
structure Walked (statement : Statement) (met : List Node) (metBut : (Node → Bool) → List Node) :
    Prop where
  /-- The nodes of the tree are met, and nothing else. -/
  complete : ∀ node, node ∈ met ↔ ReflTransGen Part (.statement statement) node
  /-- No node is met twice. -/
  once : met.Nodup
  /-- A node is met before its parts. -/
  wholesFirst : ∀ whole part, whole ∈ met → Part whole part → [whole, part].Sublist met
  /-- No node begins before one that was met earlier. -/
  ordered : met.Pairwise fun one other => one.span.start.offset ≤ other.span.start.offset
  /-- A walk that leaves something out meets the rest in the same order. -/
  sublist : ∀ pruned, (metBut pruned).Sublist met
  /-- It leaves out what is below a pruned node that it meets, and nothing else. -/
  leavesOut : ∀ pruned, ∀ node ∈ met, (node ∉ metBut pruned ↔
    ∃ top ∈ metBut pruned, pruned top = true ∧ TransGen Part top node)

/-- The nodes of a statement that was read are in good order. -/
theorem tidy_of_parse {limit : Nat} {text : String} {statement : Statement}
    (parsed : Statement.parse limit text = .ok statement) (below : Node)
    (path : ReflTransGen Part (.statement statement) below) : below.Tidy := by
  obtain ⟨j, m, ⟨⟨covers, laid⟩, columns⟩, -, ends, inside⟩ := laid_of_parse parsed
  have flows := (Lexer.ofText text).stream_flows
  have before : j ≤ m := by
    obtain ⟨-, rfl | ⟨rfl, -⟩⟩ := ends
    · exact Nat.le_refl _
    · exact Nat.le_succ _
  rw [span_ofStatement] at covers
  have lies : (Node.statement statement).Lies (Lexer.ofText text).stream.tokens 0 j :=
    ⟨covers, laid, columns⟩
  exact lies.tidy_of_below flows (by omega) path

/-- Walks through a statement that was read are complete, free of duplicates and in order. -/
theorem walked_of_parse {limit : Nat} {text : String} {statement : Statement}
    (parsed : Statement.parse limit text = .ok statement) :
    statement.Walked (Outline.ofStatement statement).nodes
      fun pruned => ((Outline.ofStatement statement).visits pruned 0).map Prod.snd := by
  have tidy := tidy_of_parse parsed
  have all : (Outline.ofStatement statement).nodes = (Node.statement statement).nodes :=
    Node.walk_statement _ statement
  rw [all]
  simp only [Node.walk_statement]
  exact ⟨fun node => Node.mem_nodes_iff, Node.nodup_nodes tidy,
    fun whole part => Node.whole_before_part, Node.ordered_nodes tidy,
    fun pruned => Node.walk_sublist pruned _, fun pruned node => Node.not_mem_walk_iff tidy⟩

/-- A statement with clauses, a window, grouping sets and a nested query. -/
theorem walked_of_parse_clauses :
    ∃ statement, Statement.parse 20 "WITH a AS (TABLE b) SELECT c + 1 AS d FROM a JOIN e ON f
        WHERE g IN (SELECT h FROM i) GROUP BY ROLLUP ((j), (k, l)) WINDOW m AS
        (PARTITION BY n ORDER BY o) ORDER BY p FETCH FIRST 2 ROWS ONLY" = .ok statement ∧
      statement.Walked (Outline.ofStatement statement).nodes
        fun pruned => ((Outline.ofStatement statement).visits pruned 0).map Prod.snd := by
  have accepted : (Statement.parse 20 "WITH a AS (TABLE b) SELECT c + 1 AS d FROM a JOIN e ON f
        WHERE g IN (SELECT h FROM i) GROUP BY ROLLUP ((j), (k, l)) WINDOW m AS
        (PARTITION BY n ORDER BY o) ORDER BY p FETCH FIRST 2 ROWS ONLY").isOk = true := by
    decide +kernel
  cases parsed : Statement.parse 20 "WITH a AS (TABLE b) SELECT c + 1 AS d FROM a JOIN e ON f
        WHERE g IN (SELECT h FROM i) GROUP BY ROLLUP ((j), (k, l)) WINDOW m AS
        (PARTITION BY n ORDER BY o) ORDER BY p FETCH FIRST 2 ROWS ONLY" with
  | ok statement => exact ⟨statement, rfl, Statement.walked_of_parse parsed⟩
  | error failure =>
    rw [parsed] at accepted
    cases accepted

end Statement

end CanonicalSql
