import CanonicalSql.Proofs.Places
import CanonicalSql.Proofs.Traversal.Parts

/-!
# The order of the parts

The parts of a node that was read lie one behind another in the text, in the order in which a walk
meets them. The nodes of a walk are fewer than those that have places: a `WITH` clause, a frame or
a grouping set is not met itself, and what is in it takes its place (`Encloses`).
-/
namespace CanonicalSql

/-- Wherever the first extents lie one behind another, so do the second ones. -/
def Encloses (outer inner : List Extent) : Prop :=
  ∀ tokens i j, Laid tokens i j outer → Laid tokens i j inner

/-- Extents that lie in two groups one behind another lie so in each group. -/
theorem Laid.split {tokens : List Token} {i j : Nat} {first second : List Extent}
    (laid : Laid tokens i j (first ++ second)) :
    ∃ m, Laid tokens i m first ∧ Laid tokens m j second := by
  induction first generalizing i with
  | nil => exact ⟨i, .nil (Nat.le_refl i), laid⟩
  | cons extent rest ih =>
    cases laid with
    | cons low covers inner arranged others =>
      obtain ⟨m, laidRest, laidSecond⟩ := ih others
      exact ⟨m, .cons low covers inner arranged laidRest, laidSecond⟩

namespace Encloses

variable {α : Type} {outer inner first first' second second' : List Extent}

theorem refl (extents : List Extent) : Encloses extents extents := fun _ _ _ laid => laid

theorem trans (one : Encloses outer inner) (other : Encloses inner first) : Encloses outer first :=
  fun tokens i j laid => other tokens i j (one tokens i j laid)

theorem append (one : Encloses first first') (other : Encloses second second') :
    Encloses (first ++ second) (first' ++ second') := by
  intro tokens i j laid
  obtain ⟨m, laidFirst, laidSecond⟩ := laid.split
  exact (one tokens i m laidFirst).append (other tokens m j laidSecond)

/-- What is below a node takes its place. -/
theorem below (span : Span) (below : List Extent) : Encloses [.node span below] below := by
  intro tokens i j laid
  cases laid with
  | cons low covers inner arranged rest =>
    rw [arranged.2 rfl] at inner
    exact inner.mono low rest.le

/-- What is enclosed by each of several extents takes their place. -/
theorem each {extent : α → Extent} {f : α → List Extent} (one : ∀ it, Encloses [extent it] (f it))
    (items : List α) : Encloses (items.map extent) (items.flatMap f) := by
  induction items with
  | nil => exact refl []
  | cons it rest ih => exact append (one it) ih

end Encloses

namespace Node

/-- The place of a node with the places below it. -/
def extent : Node → Extent
  | .statement it => .ofStatement it
  | .create it => .ofCreate it
  | .columnDef it => .ofColumnDef it
  | .insert it => .ofStatement (.insert it)
  | .delete it => .ofStatement (.delete it)
  | .query it => .ofQuery it
  | .cte it => .ofCte it
  | .rel it => .ofRel it
  | .tableName _ span => .node span []
  | .join _ _ condition left right span =>
    .node span ([.ofRel left, .ofRel right] ++ Extent.ofCondition condition)
  | .select it => .ofSelect it
  | .windowSpec it => .ofWindowSpec it
  | .sortKey it => .ofSortKey it
  | .expr it => .ofExpr it

theorem span_extent (node : Node) : node.extent.span = node.span := by
  cases node with
  | statement it => exact it.span_ofStatement
  | query it => cases it; rfl
  | rel it => exact Extent.span_ofRel it
  | select it => cases it; rfl
  | windowSpec it => cases it; rfl
  | sortKey it => cases it; rfl
  | expr it =>
    cases it with
    | sortKey key => cases key; rfl
    | groupingSet set => cases set; rfl
    | _ => rfl
  | _ => rfl

/-- The columns of the table that the node defines. -/
def columns : Node → List ColumnDef
  | .statement it => Parse.definedColumns it
  | .create it => it.columns
  | _ => []

theorem extents_ofExprs (exprs : List Expr) :
    (ofExprs exprs).map extent = Extent.ofExprs exprs := by
  rw [Extent.ofExprs_eq_map, ofExprs, List.map_map]
  rfl

theorem extents_ofOption (present : Option Expr) :
    (ofOption present).map extent = Extent.ofOption present := by
  cases present <;> rfl

theorem extents_ofSortKeys (keys : List SortKey) :
    (keys.map Node.sortKey).map extent = Extent.ofSortKeys keys := by
  rw [Extent.ofSortKeys_eq_map, List.map_map]
  rfl

theorem extents_ofRels (rels : List Rel) :
    (rels.map Node.rel).map extent = Extent.ofRels rels := by
  rw [Extent.ofRels_eq_map, List.map_map]
  rfl

theorem encloses_groupingSets (span : Span) (sets : List GroupingSet) :
    Encloses [.node span (Extent.ofGroupingSets sets)]
      ((sets.flatMap fun set => ofExprs set.columns).map extent) := by
  refine (Encloses.below span _).trans ?_
  rw [Extent.ofGroupingSets_eq_map, List.map_flatMap]
  refine .each (fun set => ?_) sets
  obtain ⟨columns, inner⟩ := set
  rw [extents_ofExprs]
  exact .below inner _

theorem encloses_expr (expr : Expr) : Encloses [.ofExpr expr] ((exprParts expr).map extent) := by
  cases expr with
  | like expr pattern escape span =>
    rw [exprParts, List.map_append, extents_ofOption]
    exact .below span _
  | row values span =>
    rw [exprParts, extents_ofExprs]
    exact .below span _
  | sortKey key => exact .refl _
  | groupingSet set =>
    obtain ⟨columns, span⟩ := set
    rw [exprParts, extents_ofExprs]
    exact .below span _
  | groupingSets sets span =>
    rw [exprParts, extents_ofExprs]
    exact .below span _
  | rollup sets span => exact encloses_groupingSets span sets
  | cube sets span => exact encloses_groupingSets span sets
  | aggregate function quantifier argument filter span =>
    rw [exprParts, List.map_cons, extents_ofOption]
    exact .below span _
  | _ => exact .below _ _

theorem encloses_rel (rel : Rel) : Encloses [.ofRel rel] ((relParts rel).map extent) := by
  cases rel with
  | join | table | select | query => exact .refl _
  | named => exact .below _ _
  | values rows span =>
    rw [relParts, extents_ofExprs]
    exact .below span _
  | setOp => exact .below _ _

theorem encloses_query (query : Query) :
    Encloses [.ofQuery query] ((parts (.query query)).map extent) := by
  obtain ⟨withClause, body, orderBy, offset, fetch, span⟩ := query
  simp only [parts, List.map_append, extents_ofSortKeys, extents_ofOption]
  refine (Encloses.below span _).trans ?_
  refine (Encloses.append (.append (.append ?_ (.refl _)) (.refl _)) (.refl _)).append ?_
  · rcases withClause with - | ⟨recursive, ctes, span⟩
    · exact .refl _
    · refine (Encloses.below span _).trans ?_
      rw [Option.toList_some, List.flatMap_singleton, List.map_map, Extent.ofCtes_eq_map]
      exact .refl _
  · rcases fetch with - | ⟨kind, count, percent, ties, span⟩
    · exact .refl _
    · rw [Option.toList_some, List.flatMap_singleton, extents_ofOption]
      exact .below span _

theorem encloses_windows (windows : List WindowDef) :
    Encloses (Extent.ofWindows windows)
      ((windows.map fun window => Node.windowSpec window.spec).map extent) := by
  have each : Encloses (windows.map Extent.ofWindow)
      (windows.flatMap fun window => [Extent.ofWindowSpec window.spec]) :=
    .each (fun window => show Encloses [Extent.ofWindow window] _ from .below window.span _) windows
  rw [← List.map_eq_flatMap] at each
  rw [Extent.ofWindows_eq_map, List.map_map]
  exact each

theorem encloses_select (select : Select) :
    Encloses [.ofSelect select] ((parts (.select select)).map extent) := by
  obtain ⟨quantifier, targets, sources, selection, groupBy, having, windows, span⟩ := select
  simp only [parts, List.map_append, extents_ofExprs, extents_ofRels, extents_ofOption]
  refine (Encloses.below span _).trans ?_
  refine (Encloses.append (.append (.append (.refl _) (.refl _)) ?_) (.refl _)).append
    (encloses_windows windows)
  rcases groupBy with - | ⟨quantifier, groupings, span⟩
  · exact .refl _
  · rw [Option.toList_some, List.flatMap_singleton, extents_ofExprs]
    exact .below span _

theorem encloses_frameBound (bound : FrameBound) :
    Encloses [.ofFrameBound bound] ((ofOption bound.value).map extent) := by
  obtain ⟨kind, value, span⟩ := bound
  rw [extents_ofOption]
  exact .below span _

theorem encloses_windowSpec (spec : WindowSpec) :
    Encloses [.ofWindowSpec spec] ((parts (.windowSpec spec)).map extent) := by
  obtain ⟨existing, partitionBy, orderBy, frame, span⟩ := spec
  simp only [parts, List.map_append, extents_ofExprs, extents_ofSortKeys]
  refine (Encloses.below span _).trans (.append (.refl _) ?_)
  rcases frame with - | ⟨unit, start, stop, exclusion, span⟩
  · exact .refl _
  · rw [Option.toList_some, List.flatMap_singleton, frameParts, List.map_append]
    cases stop with
    | none => exact (Encloses.below span _).trans (.append (encloses_frameBound start) (.refl _))
    | some stop =>
      rw [Option.toList_some, List.flatMap_singleton]
      exact (Encloses.below span _).trans
        (.append (encloses_frameBound start) (encloses_frameBound stop))

end Node

/-- The node takes up the stretch, and if it defines a table, the columns of the table lie there
in their order. -/
structure Node.Lies (tokens : List Token) (i j : Nat) (node : Node) : Prop where
  covers : Covers tokens i j node.span
  laid : Laid tokens i j [node.extent]
  columns : Laid tokens i j (node.columns.map Extent.ofColumnDef)

namespace Node.Lies

variable {tokens : List Token} {i j : Nat} {node part : Node}

/-- The parts of a node lie one behind another. -/
theorem parts (lies : node.Lies tokens i j) : Laid tokens i j (node.parts.map extent) := by
  have inner {extents : List Extent} (encloses : Encloses [node.extent] extents) :
      Laid tokens i j extents := encloses tokens i j lies.laid
  cases node with
  | statement it => cases it with
    | select query span => exact inner (.below span _)
    | _ => exact lies.laid
  | create it =>
    rw [Node.parts, List.map_map]
    exact lies.columns
  | columnDef it =>
    obtain ⟨name, type, default, collation, constraints, span⟩ := it
    rcases default with _ | (_ | _ | value)
    · exact .nil lies.laid.le
    · exact .nil lies.laid.le
    · exact .nil lies.laid.le
    · exact lies.laid.of_mem_parts List.mem_cons_self
  | insert it =>
    obtain ⟨table, columns, overriding, source, span⟩ := it
    cases source <;> exact inner (.below span _)
  | delete it =>
    obtain ⟨table, only, selection, span⟩ := it
    rw [Node.parts, extents_ofOption]
    exact inner (.below span _)
  | query it => exact inner (encloses_query it)
  | cte it => exact inner (.below it.span _)
  | rel it => exact inner (encloses_rel it)
  | tableName name span => exact inner (.below span _)
  | join kind natural condition left right span =>
    cases condition <;> exact inner (.below span _)
  | select it => exact inner (encloses_select it)
  | windowSpec it => exact inner (encloses_windowSpec it)
  | sortKey it =>
    obtain ⟨expr, order, nulls, span⟩ := it
    exact inner (.below span _)
  | expr it => exact inner (encloses_expr it)

/-- Each part takes up a stretch within that of the whole. -/
theorem of_part (lies : node.Lies tokens i j) (isPart : Part node part) :
    ∃ a b, i ≤ a ∧ b ≤ j ∧ part.Lies tokens a b := by
  have within (none : part.columns = []) : ∃ a b, i ≤ a ∧ b ≤ j ∧ part.Lies tokens a b := by
    have laid := lies.parts.of_mem (List.mem_map_of_mem (Node.mem_parts.mpr isPart))
    obtain ⟨a, b, low, high, covers, tight⟩ := laid.tight
    rw [span_extent] at covers
    refine ⟨a, b, low, high, covers, tight, ?_⟩
    rw [none]
    exact .nil tight.le
  cases isPart with
  | create => exact ⟨i, j, Nat.le_refl i, Nat.le_refl j, lies.covers, lies.laid, lies.columns⟩
  | _ => exact within rfl

end Node.Lies

/-! ## Nodes in good order -/

/-- The node stands for some text, and its parts lie within it, one behind another. -/
structure Node.Tidy (node : Node) : Prop where
  proper : node.span.start.offset < node.span.stop.offset
  within : ∀ part ∈ node.parts, part.span.Within node.span
  ordered : node.parts.Pairwise fun one other => one.span.stop.offset ≤ other.span.start.offset

theorem Node.Lies.tidy {tokens : List Token} {failure : Option LexError} {i j : Nat} {node : Node}
    (lies : node.Lies tokens i j) (flows : Flows tokens failure) (inside : j < tokens.length) :
    node.Tidy where
  proper := (lies.covers.ofTokens flows inside).1
  within part member := by
    obtain ⟨a, b, low, high, liesPart⟩ := lies.of_part (Node.mem_parts.mp member)
    exact lies.covers.within flows liesPart.covers low high inside
  ordered := by
    have ordered := lies.parts.ordered flows
    rw [List.pairwise_map] at ordered
    simpa only [Node.span_extent] using ordered

/-- Every node below one that lies among the tokens is in good order. -/
theorem Node.Lies.tidy_of_below {tokens : List Token} {failure : Option LexError} {i j : Nat}
    {node below : Node} (lies : node.Lies tokens i j) (flows : Flows tokens failure)
    (inside : j < tokens.length) (path : Relation.ReflTransGen Part node below) : below.Tidy := by
  have found : ∃ a b, b ≤ j ∧ below.Lies tokens a b := by
    induction path with
    | refl => exact ⟨i, j, Nat.le_refl j, lies⟩
    | tail _ isPart ih =>
      obtain ⟨a, b, high, liesWhole⟩ := ih
      obtain ⟨c, d, -, higher, liesPart⟩ := liesWhole.of_part isPart
      exact ⟨c, d, Nat.le_trans higher high, liesPart⟩
  obtain ⟨a, b, high, liesBelow⟩ := found
  exact liesBelow.tidy flows (by omega)

end CanonicalSql
