import CanonicalSql.Proofs.Traversal.Addresses

/-!
# Which rules are broken

The rules beyond the grammar are broken where an asterisk is neither a target of a projection nor
the argument of `COUNT`, and where an aggregate has a quantifier in front of an asterisk. What a
statement is reported for is exactly that: one report for each address at which a rule is broken,
in the order of the addresses (`Statement.violations_exact`).

The same reports come from one pass over the nodes that keeps a single flag (`Outline.inspect`): the
flag is raised in front of an expression that may be an asterisk, and the next expression takes it
down. It is down again behind every node (`Node.inspect_eq`), which is why a permission never
reaches a sibling, a filter or a nested query.
-/
namespace CanonicalSql

/-! ## Broken rules at addresses -/

/-- The node at the end of the address is a target: the parts of a projection begin with these. -/
def IsTarget (address : List Nat) (above : List Node) : Prop :=
  ∃ (projection : Select) (i : Nat), above.getLast? = some (.select projection) ∧
    address.getLast? = some i ∧ i < projection.targets.length

/-- The node at the end of the address is what `COUNT` counts: the parts of an aggregate begin with
its argument. -/
def IsCounted (address : List Nat) (above : List Node) : Prop :=
  ∃ quantifier argument filter span,
    above.getLast? = some (.expr (.aggregate .count quantifier argument filter span)) ∧
      address.getLast? = some 0

/-- A rule is broken at the address. -/
inductive Statement.BreaksAt (statement : Statement) (address : List Nat) : Violation → Prop
  | misplaced {above : List Node} {qualifier : Option QualifiedName} {span : Span}
    (found : Descent (.statement statement) address above (.expr (.asterisk qualifier span)))
    (noTarget : ¬ IsTarget address above) (notCounted : ¬ IsCounted address above) :
    BreaksAt statement address ⟨.misplacedAsterisk, span⟩
  | quantified {above : List Node} {function : AggregateFunction} {quantifier : SetQuantifier}
    {argument : Expr} {filter : Option Expr} {span : Span}
    (found : Descent (.statement statement) address above
      (.expr (.aggregate function (some quantifier) argument filter span)))
    (star : argument.isAsterisk = true) : BreaksAt statement address ⟨.quantifiedAsterisk, span⟩

namespace Node

theorem allowsStar_iff {whole : Node} {i : Nat} :
    whole.allowsStar i = true ↔
      (∃ projection, whole = .select projection ∧ i < projection.targets.length) ∨
        i = 0 ∧ ∃ quantifier argument filter span,
          whole = .expr (.aggregate .count quantifier argument filter span) := by
  constructor
  · intro allowed
    unfold allowsStar at allowed
    split at allowed
    · next projection => exact .inl ⟨projection, rfl, of_decide_eq_true allowed⟩
    · next function quantifier argument filter span =>
      obtain ⟨rfl, rfl⟩ : function = .count ∧ i = 0 := by simpa using allowed
      exact .inr ⟨rfl, quantifier, argument, filter, span, rfl⟩
    · cases allowed
  · rintro (⟨projection, rfl, inside⟩ | ⟨rfl, quantifier, argument, filter, span, rfl⟩)
    · exact decide_eq_true inside
    · rfl

/-- Below a statement an asterisk may stand where a target does and where `COUNT` counts. -/
theorem allowsStarAt_iff {address : List Nat} {above : List Node} :
    allowsStarAt false address above = true ↔ IsTarget address above ∨ IsCounted address above := by
  unfold allowsStarAt IsTarget IsCounted
  cases address.getLast? <;> cases above.getLast? <;> simp [allowsStar_iff, and_comm]

end Node

namespace Outline

/-- What a node can be reported for. -/
theorem mem_ownViolations {node : Node} {star : Bool} {violation : Violation} :
    violation ∈ ownViolations node star ↔
      (∃ qualifier span, node = .expr (.asterisk qualifier span) ∧ star = false ∧
        violation = ⟨.misplacedAsterisk, span⟩) ∨
      ∃ function quantifier argument filter span,
        node = .expr (.aggregate function (some quantifier) argument filter span) ∧
          argument.isAsterisk = true ∧ violation = ⟨.quantifiedAsterisk, span⟩ := by
  constructor
  · intro member
    unfold ownViolations at member
    split at member
    · next qualifier span => exact .inl ⟨qualifier, span, rfl, rfl, List.mem_singleton.mp member⟩
    · next function quantifier argument filter span =>
      split at member
      · next star =>
        exact .inr ⟨function, quantifier, argument, filter, span, rfl, star,
          List.mem_singleton.mp member⟩
      · cases member
    · cases member
  · rintro (⟨qualifier, span, rfl, rfl, rfl⟩ |
      ⟨function, quantifier, argument, filter, span, rfl, star, rfl⟩)
    · exact List.mem_singleton.mpr rfl
    · simp [ownViolations, star]

/-- A node is reported once at most. -/
theorem length_ownViolations_le (node : Node) (star : Bool) :
    (ownViolations node star).length ≤ 1 := by
  unfold ownViolations
  split
  · exact Nat.le_refl 1
  · split
    · exact Nat.le_refl 1
    · exact Nat.zero_le 1
  · exact Nat.zero_le 1

/-- The place of a report is that of the node. -/
theorem span_of_mem_ownViolations {node : Node} {star : Bool} {violation : Violation}
    (member : violation ∈ ownViolations node star) : violation.span = node.span := by
  rcases mem_ownViolations.mp member with ⟨qualifier, span, rfl, -, rfl⟩ |
    ⟨function, quantifier, argument, filter, span, rfl, -, rfl⟩
  · rfl
  · rfl

/-- The reports of a list of places, each with its address. -/
def reports (places : List Place) : List (List Nat × Violation) :=
  places.flatMap fun place => (violationsAt place).map (place.address, ·)

theorem map_reports (places : List Place) :
    (reports places).map Prod.snd = places.flatMap violationsAt := by
  rw [reports, List.map_flatMap]
  refine List.flatMap_congr fun place _ => ?_
  rw [List.map_map]
  exact List.map_id _

/-- What holds between places holds between their reports, since no place has two of them. -/
theorem pairwise_reports {places : List Place} {r : List Nat × Violation → List Nat × Violation → Prop}
    (ordered : places.Pairwise fun one other => ∀ v ∈ violationsAt one, ∀ w ∈ violationsAt other,
      r (one.address, v) (other.address, w)) : (reports places).Pairwise r := by
  refine List.pairwise_flatMap.mpr ⟨fun place _ => ?_, ordered.imp fun apart => ?_⟩
  · have few := length_ownViolations_le place.node place.starAllowed
    rw [List.pairwise_map]
    change List.Pairwise _ (ownViolations place.node place.starAllowed)
    match ownViolations place.node place.starAllowed, few with
    | [], _ => exact .nil
    | [_], _ => exact List.pairwise_singleton _ _
  · intro one isOne other isOther
    obtain ⟨v, isV, rfl⟩ := List.mem_map.mp isOne
    obtain ⟨w, isW, rfl⟩ := List.mem_map.mp isOther
    exact apart v isV w isW

end Outline

/-! ## One pass with a flag -/

/-- What a pass over the nodes keeps: whether the next expression may be an asterisk, and what was
found so far. -/
structure Inspection where
  starAllowed : Bool
  found : List Violation

namespace Inspection

/-- The next expression may be an asterisk. -/
def allow (state : Inspection) : Inspection := { state with starAllowed := true }

/-- An expression is met. It takes the permission, and an aggregate of an asterisk gives one. -/
def meet (state : Inspection) : Expr → Inspection
  | .asterisk _ span =>
    ⟨false, if state.starAllowed then state.found else state.found ++ [⟨.misplacedAsterisk, span⟩]⟩
  | .aggregate function quantifier argument _ span =>
    if argument.isAsterisk then
      ⟨function = .count, if quantifier.isSome then state.found ++ [⟨.quantifiedAsterisk, span⟩]
        else state.found⟩
    else ⟨false, state.found⟩
  | _ => ⟨false, state.found⟩

end Inspection

namespace Outline

mutual

/-- The pass over an outline. It does not look at what the outline says of places. -/
def inspect (state : Inspection) : Outline → Inspection
  | .node (.expr expr) _ below => inspectAll (state.meet expr) 0 below
  | .node (.select projection) _ below => inspectAll state projection.targets.length below
  | .node _ _ below => inspectAll state 0 below

/-- The pass over several outlines, the first of which are targets. -/
def inspectAll (state : Inspection) (targets : Nat) : List Outline → Inspection
  | [] => state
  | outline :: rest =>
    inspectAll (outline.inspect (if 0 < targets then state.allow else state)) (targets - 1) rest

end

end Outline

namespace Node

/-- Whether the node is an expression. -/
def isExpr : Node → Bool
  | .expr _ => true
  | _ => false

/-- A pass reports a node and what is below it as its places are reported, takes the permission that
it finds, and leaves none. Only an expression is met with one. -/
def InspectedOnce (subject : Node) : Prop :=
  ∀ (star allowed : Bool) (found : List Violation), (allowed = true → subject.isExpr = true) →
    (subject.outline star).inspect ⟨allowed, found⟩ =
      ⟨false, found ++ (subject.outline allowed).violations⟩

/-- A row of parts is reported part by part. The first ones are targets, and the permission that is
there is for the very first. The induction is on the parts: behind each of them the flag is down. -/
theorem inspectAll_eq {several : List Node} (each : ∀ part ∈ several, part.InspectedOnce)
    (flags : Nat → Bool) (targets : Nat) (allowed : Bool) (found : List Violation)
    (exprs : ∀ i < targets, ∀ part, several[i]? = some part → part.isExpr = true)
    (first : allowed = true → several.head?.any isExpr = true) :
    Outline.inspectAll ⟨allowed, found⟩ targets (several.mapIdx fun i => outline (flags i)) =
      ⟨false, found ++ Outline.violationsAll
        (several.mapIdx fun i => outline (decide (i < targets) || allowed && decide (i = 0)))⟩ := by
  induction several generalizing flags targets allowed found with
  | nil =>
    cases allowed with
    | false => simp [Outline.inspectAll, Outline.violationsAll]
    | true => exact absurd (first rfl) (by simp)
  | cons part rest ih =>
    rw [List.mapIdx_cons, List.mapIdx_cons, Outline.inspectAll, Outline.violationsAll]
    have given : (if 0 < targets then Inspection.allow ⟨allowed, found⟩ else ⟨allowed, found⟩) =
        ⟨decide (0 < targets) || allowed, found⟩ := by
      split <;> simp_all [Inspection.allow]
    -- the first part takes the flag as it was given, and the others find it down
    rw [given, each part List.mem_cons_self _ _ _ ?_, ih ?_ (fun i => flags (i + 1)) _ _ _ ?_ ?_]
    · rw [List.append_assoc]
      refine congrArg (fun later => Inspection.mk false (found ++ later)) ?_
      refine congrArg₂ (· ++ ·) (by simp) (congrArg Outline.violationsAll ?_)
      refine congrArg (fun f => List.mapIdx f rest) (funext fun i => congrArg outline ?_)
      rw [Bool.eq_iff_iff]
      simp
      omega
    · exact fun part member => each part (List.mem_cons_of_mem _ member)
    · intro i inside part isPart
      exact exprs (i + 1) (by omega) part isPart
    · simp
    · intro isAllowed
      rcases Bool.or_eq_true_iff.mp isAllowed with isTarget | isAllowed
      · exact exprs 0 (of_decide_eq_true isTarget) part rfl
      · simpa using first isAllowed

/-- Reports of parts are the same if those of each part are. -/
theorem violationsAll_congr {several : List Node} {flags flags' : Nat → Bool}
    (same : ∀ (i : Nat) (part : Node), several[i]? = some part →
      (part.outline (flags i)).violations = (part.outline (flags' i)).violations) :
    Outline.violationsAll (several.mapIdx fun i => outline (flags i)) =
      Outline.violationsAll (several.mapIdx fun i => outline (flags' i)) := by
  induction several generalizing flags flags' with
  | nil => rfl
  | cons part rest ih =>
    simp only [List.mapIdx_cons, Outline.violationsAll]
    exact congrArg₂ (· ++ ·) (same 0 part rfl) (ih fun i part isPart => same (i + 1) part isPart)

/-- Only an asterisk is reported for where it stands. -/
theorem violations_of_no_asterisk {expr : Expr} (other : expr.isAsterisk = false)
    (star star' : Bool) : ((Node.expr expr).outline star).violations =
      ((Node.expr expr).outline star').violations := by
  refine congrArg (· ++ Outline.violationsAll (Outline.belowExpr expr)) ?_
  cases expr with
  | asterisk => cases other
  | aggregate function quantifier => cases quantifier <;> rfl
  | _ => rfl

/-- Whether an aggregate counts an asterisk. -/
def countsStar : Expr → Bool
  | .aggregate function _ argument _ _ => function = .count && argument.isAsterisk
  | _ => false

/-- An expression that is met takes the permission and is reported by itself. -/
theorem meet_eq (allowed : Bool) (found : List Violation) (expr : Expr) :
    Inspection.meet ⟨allowed, found⟩ expr =
      ⟨countsStar expr, found ++ Outline.ownViolations (.expr expr) allowed⟩ := by
  cases expr with
  | asterisk qualifier span =>
    cases allowed with
    | false => rfl
    | true => simp [Inspection.meet, countsStar, Outline.ownViolations]
  | aggregate function quantifier argument filter span =>
    cases quantifier <;> cases star : argument.isAsterisk <;>
      simp [Inspection.meet, countsStar, Outline.ownViolations, star]
  | _ => simp [Inspection.meet, countsStar, Outline.ownViolations]

/-- What is below an expression is reported as if the permission were only given where an asterisk
is counted. -/
theorem violationsAll_belowExpr (expr : Expr) :
    Outline.violationsAll ((exprParts expr).mapIdx fun i =>
      outline (decide (i < 0) || countsStar expr && decide (i = 0))) =
      Outline.violationsAll (Outline.belowExpr expr) := by
  rw [belowExpr_eq_outlines]
  refine violationsAll_congr fun i part isPart => ?_
  cases expr with
  | aggregate function quantifier argument filter span =>
    cases star : argument.isAsterisk with
    | true => simp [countsStar, allowsStar, star]
    | false =>
      cases i with
      | succ i => simp [allowsStar]
      | zero =>
        obtain rfl := Option.some.inj isPart
        exact violations_of_no_asterisk star _ _
  | _ => simp [countsStar, allowsStar]

/-- The pass reports every node as its places are. -/
theorem inspect_eq (subject : Node) : subject.InspectedOnce := by
  induction subject using rec_parts with
  | step whole ih =>
    intro star allowed found onlyExpr
    have each : ∀ part ∈ whole.parts, part.InspectedOnce :=
      fun part member => ih part (mem_parts.mp member)
    -- Where neither an expression nor a projection is met, the flag is down and stays down.
    have plain (noExpr : whole.isExpr = false) (never : ∀ i, whole.allowsStar i = false) :
        Outline.inspectAll ⟨allowed, found⟩ 0 whole.below =
          ⟨false, found ++ Outline.violationsAll whole.below⟩ := by
      obtain rfl : allowed = false := by
        by_contra isAllowed
        rw [onlyExpr (Bool.not_eq_false _ ▸ isAllowed)] at noExpr
        cases noExpr
      rw [below_eq, inspectAll_eq each _ 0 false found (fun i inside => absurd inside (by omega))
        Bool.false_ne_true.elim]
      simp [never]
    cases whole with
    | expr expr =>
      have counted : countsStar expr = true → (exprParts expr).head?.any isExpr = true := by
        intro counts
        unfold countsStar at counts
        split at counts
        · rfl
        · cases counts
      have pass := inspectAll_eq each (Node.expr expr).allowsStar 0 (countsStar expr)
        (found ++ Outline.ownViolations (.expr expr) allowed)
        (fun i inside => absurd inside (by omega)) counted
      rw [← below_eq] at pass
      calc Outline.inspect ⟨allowed, found⟩ ((Node.expr expr).outline star)
          = Outline.inspectAll (Inspection.meet ⟨allowed, found⟩ expr) 0 (Outline.belowExpr expr) := rfl
        _ = Outline.inspectAll ⟨countsStar expr, found ++ Outline.ownViolations (.expr expr) allowed⟩ 0
              (Outline.belowExpr expr) := by rw [meet_eq]
        _ = _ := pass
        _ = ⟨false, found ++ Outline.ownViolations (.expr expr) allowed ++
              Outline.violationsAll (Outline.belowExpr expr)⟩ :=
          congrArg (fun later => Inspection.mk false (_ ++ later)) (violationsAll_belowExpr expr)
        _ = _ := by rw [List.append_assoc]; rfl
    | select projection =>
      obtain rfl : allowed = false := by
        by_contra isAllowed
        cases onlyExpr (Bool.not_eq_false _ ▸ isAllowed)
      have targets : ∀ i < projection.targets.length, ∀ part,
          (Node.select projection).parts[i]? = some part → part.isExpr = true := by
        intro i inside part isPart
        rw [parts_select, List.getElem?_append_left (by simpa [ofExprs] using inside), ofExprs,
          List.getElem?_map] at isPart
        obtain ⟨target, -, rfl⟩ := Option.map_eq_some_iff.mp isPart
        rfl
      have pass := inspectAll_eq each (Node.select projection).allowsStar
        projection.targets.length false found targets Bool.false_ne_true.elim
      rw [← below_eq] at pass
      refine pass.trans (congrArg (fun later => Inspection.mk false (found ++ later)) ?_)
      refine Eq.trans ?_ (congrArg Outline.violationsAll (below_eq (.select projection)).symm)
      simp only [allowsStar, Bool.false_and, Bool.or_false]
    | _ => exact plain rfl fun _ => rfl

end Node

/-! ## Statements -/

namespace Statement

/-- What a statement is reported for, and in which order. -/
structure ReportedFor (statement : Statement) (reported : List Violation) : Prop where
  /-- There is one report for each address at which a rule is broken, in the order of addresses. -/
  exact : ∃ found : List (List Nat × Violation), reported = found.map Prod.snd ∧
    found.Pairwise (fun one other => one.1 < other.1) ∧
    ∀ address violation, (address, violation) ∈ found ↔ statement.BreaksAt address violation
  /-- One pass with a flag finds the same. -/
  inspected : ((Outline.ofStatement statement).inspect ⟨false, []⟩).found = reported
  /-- A statement that was read is reported from the left to the right. -/
  ordered : ∀ limit text, Statement.parse limit text = .ok statement →
    reported.Pairwise fun one other => one.span.start.offset ≤ other.span.start.offset

theorem breaksAt_iff (statement : Statement) (address : List Nat) (violation : Violation) :
    statement.BreaksAt address violation ↔ ∃ place ∈ (Outline.ofStatement statement).places,
      place.address = address ∧ violation ∈ Outline.violationsAt place := by
  rw [← Node.outline_statement]
  constructor
  · intro breaks
    cases breaks with
    | @misplaced above qualifier span found noTarget notCounted =>
      have notAllowed : Node.allowsStarAt false address above = false :=
        Bool.eq_false_iff.mpr fun allowed =>
          (Node.allowsStarAt_iff.mp allowed).elim noTarget notCounted
      exact ⟨⟨address, above, _, false⟩, Node.mem_places.mpr ⟨found, notAllowed.symm⟩, rfl,
        Outline.mem_ownViolations.mpr (.inl ⟨qualifier, span, rfl, rfl, rfl⟩)⟩
    | @quantified above function quantifier argument filter span found star =>
      exact ⟨⟨address, above, _, Node.allowsStarAt false address above⟩,
        Node.mem_places.mpr ⟨found, rfl⟩, rfl,
        Outline.mem_ownViolations.mpr (.inr ⟨function, quantifier, argument, filter, span, rfl, star,
          rfl⟩)⟩
  · rintro ⟨⟨address, above, node, allowed⟩, isPlace, rfl, member⟩
    obtain ⟨descent, isAllowed⟩ := Node.mem_places.mp isPlace
    rcases Outline.mem_ownViolations.mp member with ⟨qualifier, span, rfl, rfl, rfl⟩ |
      ⟨function, quantifier, argument, filter, span, rfl, star, rfl⟩
    · have notAllowed : ¬ Node.allowsStarAt false address above = true :=
        Bool.eq_false_iff.mp isAllowed.symm
      exact .misplaced descent (fun target => notAllowed (Node.allowsStarAt_iff.mpr (.inl target)))
        fun counted => notAllowed (Node.allowsStarAt_iff.mpr (.inr counted))
    · exact .quantified descent star

/-- A statement is reported for the rules that it breaks, once for each address at which it breaks
one. -/
theorem violations_exact (statement : Statement) : statement.ReportedFor statement.violations where
  exact := by
    refine ⟨Outline.reports (Outline.ofStatement statement).places, ?_, ?_, fun address violation => ?_⟩
    · rw [Outline.map_reports]
      exact Outline.violations_eq _
    · exact Outline.pairwise_reports
        ((Outline.places_ordered _).imp fun less _ _ _ _ => less)
    · rw [breaksAt_iff]
      simp only [Outline.reports, List.mem_flatMap, List.mem_map, Prod.mk.injEq]
      constructor
      · rintro ⟨place, isPlace, v, member, rfl, rfl⟩
        exact ⟨place, isPlace, rfl, member⟩
      · rintro ⟨place, isPlace, rfl, member⟩
        exact ⟨place, isPlace, violation, member, rfl, rfl⟩
  inspected := by
    rw [← Node.outline_statement, Node.inspect_eq _ _ _ _ Bool.false_ne_true.elim,
      Node.outline_statement]
    rfl
  ordered limit text parsed := by
    have walk : (Outline.ofStatement statement).nodes = (Node.statement statement).nodes :=
      Node.walk_statement _ statement
    have ordered := Node.ordered_nodes (tidy_of_parse parsed)
    rw [← walk, Outline.nodes_eq_places, List.pairwise_map] at ordered
    rw [violations, Outline.violations_eq, ← Outline.map_reports, List.pairwise_map]
    refine Outline.pairwise_reports (ordered.imp fun le v isV w isW => ?_)
    rw [Outline.span_of_mem_ownViolations isV, Outline.span_of_mem_ownViolations isW]
    exact le

end Statement

end CanonicalSql
