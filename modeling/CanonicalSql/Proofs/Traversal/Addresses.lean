import CanonicalSql.Proofs.Readable
import CanonicalSql.Proofs.Traversal
import CanonicalSql.Validity

/-!
# Addresses of nodes

The address of a node says to which part to go on at each step of the way down to it, and
`Descent top address above node` says that such a way leads to the node through the nodes `above`.
Nothing in it depends on how trees are walked through.

`Outline.places` lists the nodes of an outline with their addresses, in the order in which a walk
meets them, which is the lexicographic order of the addresses (`Outline.places_ordered`). What looks
at a tree node by node is told by this list: the rules that are broken and the first level beyond a
limit (`Outline.violations_eq`, `Outline.firstBeyond_eq`).
-/
namespace CanonicalSql

/-- The address leads from the top to the node, through the nodes above it. -/
inductive Descent : Node → List Nat → List Node → Node → Prop
  | here (top : Node) : Descent top [] [] top
  | down {top part node : Node} {i : Nat} {address : List Nat} {above : List Node}
    (isPart : top.parts[i]? = some part) (further : Descent part address above node) :
    Descent top (i :: address) (top :: above) node

/-- A node in a tree. -/
structure Place where
  address : List Nat
  above : List Node
  node : Node
  starAllowed : Bool

namespace Place

/-- The place within a whole of which the tree is the part with the number. -/
def under (whole : Node) (i : Nat) (place : Place) : Place :=
  { place with address := i :: place.address, above := whole :: place.above }

@[simp] theorem under_address (whole : Node) (i : Nat) (place : Place) :
    (place.under whole i).address = i :: place.address := rfl

@[simp] theorem under_above (whole : Node) (i : Nat) (place : Place) :
    (place.under whole i).above = whole :: place.above := rfl

@[simp] theorem under_node (whole : Node) (i : Nat) (place : Place) :
    (place.under whole i).node = place.node := rfl

@[simp] theorem under_starAllowed (whole : Node) (i : Nat) (place : Place) :
    (place.under whole i).starAllowed = place.starAllowed := rfl

/-- The levels above the node. -/
def levelsAbove (place : Place) : Nat := place.above.countP Node.isLevel

/-- The levels on the way down to the node, the node included. -/
def levels (place : Place) : Nat := (place.above ++ [place.node]).countP Node.isLevel

theorem levelsAbove_under (whole : Node) (i : Nat) (place : Place) :
    (place.under whole i).levelsAbove =
      place.levelsAbove + if whole.isLevel then 1 else 0 := by
  simp [levelsAbove, List.countP_cons]

theorem levels_under (whole : Node) (i : Nat) (place : Place) :
    (place.under whole i).levels = place.levels + if whole.isLevel then 1 else 0 := by
  simp [levels, List.countP_cons]

end Place

namespace Outline

mutual

/-- The nodes of an outline with their places, parents before their children. -/
def places : Outline → List Place
  | .node subject starAllowed below =>
    ⟨[], [], subject, starAllowed⟩ :: placesFrom subject 0 below

/-- The nodes of several outlines below a node, where the first of them has the number. -/
def placesFrom (whole : Node) (i : Nat) : List Outline → List Place
  | [] => []
  | outline :: rest => outline.places.map (Place.under whole i) ++ placesFrom whole (i + 1) rest

end

/-- The places below a node are those of its parts. -/
theorem mem_placesFrom {whole : Node} {place : Place} {outlines : List Outline} {i : Nat} :
    place ∈ placesFrom whole i outlines ↔ ∃ (k : Nat) (outline : Outline) (inner : Place),
      outlines[k]? = some outline ∧ inner ∈ outline.places ∧ place = inner.under whole (i + k) := by
  induction outlines generalizing i with
  | nil => simp [placesFrom]
  | cons first rest ih =>
    rw [placesFrom, List.mem_append, List.mem_map, ih]
    constructor
    · rintro (⟨inner, member, rfl⟩ | ⟨k, outline, inner, isOutline, member, rfl⟩)
      · exact ⟨0, first, inner, rfl, member, rfl⟩
      · refine ⟨k + 1, outline, inner, isOutline, member, ?_⟩
        rw [show i + (k + 1) = i + 1 + k by omega]
    · rintro ⟨k, outline, inner, isOutline, member, rfl⟩
      cases k with
      | zero =>
        obtain rfl := Option.some.inj isOutline
        exact .inl ⟨inner, member, rfl⟩
      | succ k =>
        refine .inr ⟨k, outline, inner, isOutline, member, ?_⟩
        rw [show i + (k + 1) = i + 1 + k by omega]

mutual

/-- Addresses rise in the lexicographic order. -/
theorem places_ordered : ∀ outline : Outline,
    outline.places.Pairwise fun one other => one.address < other.address
  | .node subject _ below => by
    rw [places, List.pairwise_cons]
    refine ⟨fun place member => ?_, placesFrom_ordered subject 0 below⟩
    obtain ⟨k, -, inner, -, -, rfl⟩ := mem_placesFrom.mp member
    exact List.nil_lt_cons _ _

theorem placesFrom_ordered (whole : Node) (i : Nat) : ∀ outlines : List Outline,
    (placesFrom whole i outlines).Pairwise fun one other => one.address < other.address
  | [] => .nil
  | outline :: rest => by
    rw [placesFrom, List.pairwise_append]
    refine ⟨?_, placesFrom_ordered whole (i + 1) rest, ?_⟩
    · rw [List.pairwise_map]
      exact (places_ordered outline).imp fun less => List.cons_lt_cons_self.mpr less
    · intro one isOne other isOther
      obtain ⟨inner, -, rfl⟩ := List.mem_map.mp isOne
      obtain ⟨k, -, inner', -, -, rfl⟩ := mem_placesFrom.mp isOther
      exact List.cons_lt_cons_iff.mpr (.inl (show i < i + 1 + k by omega))

end

/-! ## What the places tell -/

mutual

/-- A walk meets the nodes in the order of their places. -/
theorem nodes_eq_places : ∀ outline : Outline, outline.nodes = outline.places.map Place.node
  | .node subject _ below => by
    rw [nodes_node, places, List.map_cons, nodes_eq_placesFrom subject 0 below]

theorem nodes_eq_placesFrom (whole : Node) (i : Nat) : ∀ outlines : List Outline,
    outlines.flatMap nodes = (placesFrom whole i outlines).map Place.node
  | [] => rfl
  | outline :: rest => by
    rw [List.flatMap_cons, placesFrom, List.map_append, List.map_map, nodes_eq_places outline,
      nodes_eq_placesFrom whole (i + 1) rest]
    rfl

end

/-- The rules that the node at a place breaks. -/
def violationsAt (place : Place) : List Violation := ownViolations place.node place.starAllowed

mutual

/-- The broken rules are those that the nodes break at their places. -/
theorem violations_eq : ∀ outline : Outline, outline.violations = outline.places.flatMap violationsAt
  | .node subject _ below => by
    rw [violations, places, List.flatMap_cons, violationsAll_eq subject 0 below]
    rfl

theorem violationsAll_eq (whole : Node) (i : Nat) : ∀ outlines : List Outline,
    violationsAll outlines = (placesFrom whole i outlines).flatMap violationsAt
  | [] => rfl
  | outline :: rest => by
    rw [violationsAll, placesFrom, List.flatMap_append, List.flatMap_map, violations_eq outline,
      violationsAll_eq whole (i + 1) rest]
    rfl

end

/-- Whether the node at a place is a level that has the number of levels above it. -/
def isBeyond (room : Nat) (place : Place) : Bool :=
  place.node.isLevel && place.levelsAbove == room

mutual

/-- The first level beyond a limit is the first place with as many levels above it. -/
theorem firstBeyond_eq (room : Nat) : ∀ outline : Outline,
    outline.firstBeyond room = (outline.places.find? (isBeyond room)).map (·.node.span)
  | .node subject star below => by
    simp only [firstBeyond, places]
    cases level : subject.isLevel with
    | false =>
      have other : isBeyond room ⟨[], [], subject, star⟩ = false := by simp [isBeyond, level]
      rw [List.find?_cons_of_neg (by simp [other]), if_neg Bool.false_ne_true]
      exact firstBeyondAll_eq room subject 0 (by simp [level]) below
    | true =>
      cases room with
      | zero =>
        have found : isBeyond 0 ⟨[], [], subject, star⟩ = true := by
          simp [isBeyond, level, Place.levelsAbove]
        rw [List.find?_cons_of_pos found]
        rfl
      | succ room =>
        have other : isBeyond (room + 1) ⟨[], [], subject, star⟩ = false := by
          simp [isBeyond, Place.levelsAbove]
        rw [List.find?_cons_of_neg (by simp [other]), if_pos rfl]
        exact firstBeyondAll_eq room subject 0 (by simp [level]) below

theorem firstBeyondAll_eq (room : Nat) (whole : Node) (i : Nat) {room' : Nat}
    (deeper : room' = room + if whole.isLevel then 1 else 0) : ∀ outlines : List Outline,
    firstBeyondAll room outlines =
      ((placesFrom whole i outlines).find? (isBeyond room')).map (·.node.span)
  | [] => rfl
  | outline :: rest => by
    have same : isBeyond room' ∘ Place.under whole i = isBeyond room := by
      funext place
      simp only [Function.comp_apply, isBeyond, Place.under_node, Place.levelsAbove_under, deeper]
      congr 1
      rw [Bool.eq_iff_iff, beq_iff_eq, beq_iff_eq]
      omega
    rw [firstBeyondAll, placesFrom, List.find?_append, List.find?_map, same, firstBeyond_eq room outline,
      firstBeyondAll_eq room whole (i + 1) deeper rest]
    cases outline.places.find? (isBeyond room) <;> rfl

end

mutual

/-- The depth is the greatest number of levels on the way down to a place. -/
theorem depth_le_iff (room : Nat) : ∀ outline : Outline,
    outline.depth ≤ room ↔ ∀ place ∈ outline.places, place.levels ≤ room
  | .node subject star below => by
    rw [depth, places, List.forall_mem_cons]
    have first : Place.levels ⟨[], [], subject, star⟩ = if subject.isLevel then 1 else 0 := by
      simp [Place.levels, List.countP_singleton]
    rw [first]
    generalize own : (if subject.isLevel then 1 else 0) = levels
    by_cases fits : levels ≤ room
    · obtain ⟨rest, rfl⟩ := Nat.exists_eq_add_of_le' fits
      rw [← depthAll_le_iff rest subject 0 (by rw [own]) below]
      omega
    · omega

theorem depthAll_le_iff (room : Nat) (whole : Node) (i : Nat) {room' : Nat}
    (deeper : room' = room + if whole.isLevel then 1 else 0) : ∀ outlines : List Outline,
    depthAll outlines ≤ room ↔ ∀ place ∈ placesFrom whole i outlines, place.levels ≤ room'
  | [] => by simp [placesFrom]
  | outline :: rest => by
    have inner : outline.depth ≤ room ↔ ∀ place ∈ outline.places.map (Place.under whole i),
        place.levels ≤ room' := by
      rw [depth_le_iff room outline, List.forall_mem_map]
      refine forall₂_congr fun place _ => ?_
      rw [Place.levels_under, deeper]
      omega
    rw [depthAll_cons, Nat.max_le, inner, depthAll_le_iff room whole (i + 1) deeper rest, placesFrom,
      List.forall_mem_append]

end

end Outline

/-! ## The places below a node -/

/-- There is a node above for each step of an address. -/
theorem Descent.length_above {top node : Node} {address : List Nat} {above : List Node}
    (descent : Descent top address above node) : above.length = address.length := by
  induction descent with
  | here => rfl
  | down _ _ ih => rw [List.length_cons, List.length_cons, ih]

/-- An address leads to one node only. -/
theorem Descent.unique {top node node' : Node} {address : List Nat} {above above' : List Node}
    (descent : Descent top address above node) (other : Descent top address above' node') :
    above = above' ∧ node = node' := by
  induction descent generalizing above' with
  | here =>
    cases other
    exact ⟨rfl, rfl⟩
  | down isPart _ ih =>
    cases other with
    | down isPart' further' =>
      obtain rfl := Option.some.inj (isPart.symm.trans isPart')
      obtain ⟨rfl, rfl⟩ := ih further'
      exact ⟨rfl, rfl⟩

namespace Node

/-- Whether an asterisk may stand at the end of the address. The last node above decides, and where
there is none the place of the top does. -/
def allowsStarAt (star : Bool) (address : List Nat) (above : List Node) : Bool :=
  match address.getLast?, above.getLast? with
  | some i, some whole => whole.allowsStar i
  | _, _ => star

theorem allowsStarAt_cons {top : Node} {star : Bool} {i : Nat} {address : List Nat}
    {above : List Node} (steps : above.length = address.length) :
    allowsStarAt star (i :: address) (top :: above) =
      allowsStarAt (top.allowsStar i) address above := by
  cases address with
  | nil =>
    obtain rfl := List.length_eq_zero_iff.mp steps
    rfl
  | cons j address =>
    obtain ⟨whole, above, rfl⟩ := List.exists_cons_of_length_eq_add_one steps
    rfl

/-- The places of a node are the ends of the addresses that lead on from it. The induction is on the
parts of the node: a place below it is a place of one of them. -/
theorem mem_places {top : Node} {place : Place} {star : Bool} :
    place ∈ (top.outline star).places ↔ Descent top place.address place.above place.node ∧
      place.starAllowed = allowsStarAt star place.address place.above := by
  induction top using rec_parts generalizing place star with
  | step top ih =>
    rw [outline, Outline.places, List.mem_cons, Outline.mem_placesFrom, below_eq]
    simp only [List.getElem?_mapIdx, Option.map_eq_some_iff]
    constructor
    · rintro (rfl | ⟨i, -, inner, ⟨part, isPart, rfl⟩, member, rfl⟩)
      · exact ⟨.here top, rfl⟩
      · obtain ⟨descent, allowed⟩ := (ih part (mem_parts.mp (List.mem_of_getElem? isPart))).mp member
        rw [Nat.zero_add]
        refine ⟨.down isPart descent, ?_⟩
        exact allowed.trans (allowsStarAt_cons descent.length_above).symm
    · obtain ⟨address, above, node, starAllowed⟩ := place
      rintro ⟨descent, allowed⟩
      cases descent with
      | here => exact .inl (congrArg (Place.mk [] [] _) allowed)
      | @down _ part _ i address above isPart further =>
        refine .inr ⟨i, part.outline (top.allowsStar i), ⟨address, above, node, starAllowed⟩,
          ⟨part, isPart, rfl⟩, ?_, ?_⟩
        · refine (ih part (mem_parts.mp (List.mem_of_getElem? isPart))).mpr ⟨further, ?_⟩
          exact allowed.trans (allowsStarAt_cons further.length_above)
        · rw [Nat.zero_add]
          rfl

/-- The outline of a statement is that of its node. -/
theorem outline_statement (statement : Statement) :
    (Node.statement statement).outline false = Outline.ofStatement statement :=
  (Outline.ofStatement_eq statement).symm

end Node

end CanonicalSql
