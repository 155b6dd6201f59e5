import CanonicalSql.Proofs.Image.Statement
import CanonicalSql.Proofs.Traversal.Addresses

/-!
# The check of the depth

Queries, relations and expressions are the levels of a tree. A limit on its depth is kept if no way
down from the statement passes more levels than the limit allows. Where it is not kept, the check
gives the place of the first level, in the order of a walk, that has as many levels above it as the
limit allows (`Statement.depth_checked`). A statement that was read keeps the limit.

A pass over the nodes that counts levels up and down finds the same place (`Outline.count`). The
counter is where it was behind every node, whether the limit was met below it or not, and nothing is
looked at once it was met (`Outline.count_eq`).
-/
namespace CanonicalSql

namespace Outline

variable {places : List Place} {room : Nat}

/-- In a list of places in order the first one of a kind comes before all others of its kind. -/
theorem find?_eq_some_iff_first (ordered : places.Pairwise fun one other => one.address < other.address)
    (kind : Place → Bool) (place : Place) :
    places.find? kind = some place ↔ place ∈ places ∧ kind place = true ∧
      ∀ other ∈ places, kind other = true → ¬ other.address < place.address := by
  constructor
  · intro found
    obtain ⟨isKind, before, behind, rfl, others⟩ := List.find?_eq_some_iff_append.mp found
    refine ⟨by simp, isKind, fun other member isKind' less => ?_⟩
    rw [List.pairwise_append, List.pairwise_cons] at ordered
    -- what stands before the one that is found is not of the kind, and what stands behind has
    -- greater addresses
    rcases List.mem_append.mp member with isBefore | isBehind
    · simpa [isKind'] using others other isBefore
    · rcases List.mem_cons.mp isBehind with rfl | isBehind
      · exact List.lt_irrefl _ less
      · exact List.lt_asymm less (ordered.2.1.1 other isBehind)
  · rintro ⟨member, isKind, first⟩
    obtain ⟨other, found⟩ : ∃ other, places.find? kind = some other :=
      Option.isSome_iff_exists.mp (List.find?_isSome.mpr ⟨place, member, isKind⟩)
    obtain ⟨isKind', before, behind, rfl, others⟩ := List.find?_eq_some_iff_append.mp found
    rw [List.pairwise_append, List.pairwise_cons] at ordered
    rcases List.mem_append.mp member with isBefore | isBehind
    · exact absurd isKind (by simpa using others place isBefore)
    · rcases List.mem_cons.mp isBehind with rfl | isBehind
      · exact found
      · exact absurd (ordered.2.1.1 place isBehind) (first other (by simp) isKind')

end Outline

/-! ## A pass with a counter -/

/-- What a pass that counts levels keeps: the levels around the node that it stands at, and the
place beyond the limit if there was one. -/
structure Count where
  depth : Nat
  beyond : Option Span

namespace Outline

mutual

/-- The pass over an outline. A level is gone through with the counter one higher. -/
def count (limit : Nat) (state : Count) : Outline → Count
  | .node subject _ below =>
    if subject.isLevel then
      if state.beyond.isSome then state
      else if limit ≤ state.depth then { state with beyond := some subject.span }
      else
        let inner := countAll limit { state with depth := state.depth + 1 } below
        { inner with depth := inner.depth - 1 }
    else countAll limit state below

/-- The pass over several outlines. -/
def countAll (limit : Nat) (state : Count) : List Outline → Count
  | [] => state
  | outline :: rest => countAll limit (outline.count limit state) rest

end

mutual

/-- Once the limit was met, the pass changes nothing. -/
theorem count_of_met (limit : Nat) {state : Count} (met : state.beyond.isSome = true) :
    ∀ outline : Outline, outline.count limit state = state
  | .node subject _ below => by
    rw [count, if_pos met, countAll_of_met limit met below, ite_self]

theorem countAll_of_met (limit : Nat) {state : Count} (met : state.beyond.isSome = true) :
    ∀ outlines : List Outline, countAll limit state outlines = state
  | [] => rfl
  | outline :: rest => by
    rw [countAll, count_of_met limit met outline, countAll_of_met limit met rest]

end

mutual

/-- The pass finds the first level beyond what is left of the limit, and leaves the counter as it
was. -/
theorem count_eq (depth room : Nat) : ∀ outline : Outline,
    outline.count (depth + room) ⟨depth, none⟩ = ⟨depth, outline.firstBeyond room⟩
  | .node subject _ below => by
    simp only [count, firstBeyond]
    cases subject.isLevel with
    | false => exact countAll_eq depth room below
    | true =>
      cases room with
      | zero => simp
      | succ room =>
        have inner := countAll_eq (depth + 1) room below
        rw [show depth + 1 + room = depth + (room + 1) by omega] at inner
        simp [inner]

theorem countAll_eq (depth room : Nat) : ∀ outlines : List Outline,
    countAll (depth + room) ⟨depth, none⟩ outlines = ⟨depth, firstBeyondAll room outlines⟩
  | [] => rfl
  | outline :: rest => by
    rw [countAll, count_eq depth room outline, firstBeyondAll]
    cases found : outline.firstBeyond room with
    | none => exact countAll_eq depth room rest
    | some span => exact countAll_of_met _ rfl rest

end

end Outline

/-! ## Statements -/

namespace Statement

/-- The address leads from the statement to the node, through the nodes above. -/
abbrev Has (statement : Statement) (address : List Nat) (above : List Node) (node : Node) : Prop :=
  Descent (.statement statement) address above node

theorem has_iff {statement : Statement} {address : List Nat} {above : List Node} {node : Node} :
    statement.Has address above node ↔ ∃ place ∈ (Outline.ofStatement statement).places,
      place.address = address ∧ place.above = above ∧ place.node = node := by
  rw [← Node.outline_statement]
  constructor
  · intro has
    exact ⟨⟨address, above, node, Node.allowsStarAt false address above⟩,
      Node.mem_places.mpr ⟨has, rfl⟩, rfl, rfl, rfl⟩
  · rintro ⟨place, member, rfl, rfl, rfl⟩
    exact (Node.mem_places.mp member).1

/-- No way down from the statement passes more levels than that. -/
def Keeps (statement : Statement) (limit : Nat) : Prop :=
  ∀ address above node, statement.Has address above node →
    (above ++ [node]).countP Node.isLevel ≤ limit

theorem keeps_iff {statement : Statement} {limit : Nat} :
    statement.Keeps limit ↔ (Outline.ofStatement statement).depth ≤ limit := by
  rw [Outline.depth_le_iff]
  constructor
  · intro keeps place member
    exact keeps _ _ _ (has_iff.mpr ⟨place, member, rfl, rfl, rfl⟩)
  · intro fits address above node has
    obtain ⟨place, member, rfl, rfl, rfl⟩ := has_iff.mp has
    exact fits place member

/-- The node is a level, and as many levels are above it as the limit allows. -/
def IsBeyond (limit : Nat) (above : List Node) (node : Node) : Prop :=
  node.isLevel = true ∧ above.countP Node.isLevel = limit

theorem isBeyond_iff {limit : Nat} {place : Place} :
    Outline.isBeyond limit place = true ↔ IsBeyond limit place.above place.node := by
  simp [Outline.isBeyond, IsBeyond, Place.levelsAbove]

/-- What the check of a depth says of a statement. -/
structure DepthChecked (statement : Statement) (limit : Nat) (beyond : Option Span) : Prop where
  /-- It finds nothing if no way down passes too many levels. -/
  keeps : beyond = none ↔ statement.Keeps limit
  /-- Otherwise it finds the first of the levels that have as many above them as are allowed. -/
  first : ∀ span, beyond = some span ↔ ∃ address above node, statement.Has address above node ∧
    IsBeyond limit above node ∧ node.span = span ∧
    ∀ address' above' node', statement.Has address' above' node' → IsBeyond limit above' node' →
      ¬ address' < address
  /-- Addresses rise on a walk through the statement, which meets all there is. -/
  walk : ∃ addresses : List (List Nat), addresses.Pairwise (· < ·) ∧
    (∀ address, address ∈ addresses ↔ ∃ above node, statement.Has address above node) ∧
    List.Forall₂ (fun address node => ∃ above, statement.Has address above node) addresses
      (Outline.ofStatement statement).nodes
  /-- A pass with a counter finds the same, and its counter ends where it began. -/
  counted : (Outline.ofStatement statement).count limit ⟨0, none⟩ = ⟨0, beyond⟩
  /-- A statement that is read within the limit keeps it. -/
  read : ∀ text, Statement.parse limit text = .ok statement → statement.Keeps limit

/-- The check of a depth finds the first level beyond the limit, and nothing where there is none. -/
theorem depth_checked (statement : Statement) (limit : Nat) :
    statement.DepthChecked limit ((Outline.ofStatement statement).firstBeyond limit) where
  keeps := (Outline.firstBeyond_eq_none _ limit).trans keeps_iff.symm
  first span := by
    have ordered := Outline.places_ordered (Outline.ofStatement statement)
    rw [Outline.firstBeyond_eq, Option.map_eq_some_iff]
    constructor
    · rintro ⟨place, found, rfl⟩
      obtain ⟨member, isBeyond, first⟩ :=
        (Outline.find?_eq_some_iff_first ordered _ place).mp found
      refine ⟨place.address, place.above, place.node, has_iff.mpr ⟨place, member, rfl, rfl, rfl⟩,
        isBeyond_iff.mp isBeyond, rfl, fun address above node has isBeyond' => ?_⟩
      obtain ⟨other, member', rfl, rfl, rfl⟩ := has_iff.mp has
      exact first other member' (isBeyond_iff.mpr isBeyond')
    · rintro ⟨address, above, node, has, isBeyond, rfl, first⟩
      obtain ⟨place, member, rfl, rfl, rfl⟩ := has_iff.mp has
      refine ⟨place, (Outline.find?_eq_some_iff_first ordered _ place).mpr ⟨member,
        isBeyond_iff.mpr isBeyond, fun other member' isBeyond' => ?_⟩, rfl⟩
      exact first _ _ _ (has_iff.mpr ⟨other, member', rfl, rfl, rfl⟩) (isBeyond_iff.mp isBeyond')
  walk := by
    refine ⟨(Outline.ofStatement statement).places.map Place.address, ?_, fun address => ?_, ?_⟩
    · exact List.pairwise_map.mpr (Outline.places_ordered _)
    · rw [List.mem_map]
      constructor
      · rintro ⟨place, member, rfl⟩
        exact ⟨place.above, place.node, has_iff.mpr ⟨place, member, rfl, rfl, rfl⟩⟩
      · rintro ⟨above, node, has⟩
        obtain ⟨place, member, rfl, -, -⟩ := has_iff.mp has
        exact ⟨place, member, rfl⟩
    · rw [Outline.nodes_eq_places, List.forall₂_map_left_iff, List.forall₂_map_right_iff,
        List.forall₂_same]
      intro place member
      exact ⟨place.above, has_iff.mpr ⟨place, member, rfl, rfl, rfl⟩⟩
  counted := by
    have pass := Outline.count_eq 0 limit (Outline.ofStatement statement)
    rwa [Nat.zero_add] at pass
  read _ parsed := keeps_iff.mpr (accepted_of_parse parsed).depth

end Statement

end CanonicalSql
