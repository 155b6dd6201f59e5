import CanonicalSql.Proofs.Failing.Projection
import CanonicalSql.Proofs.Failing.Tail

/-!
# Failing windows

What fails in the partition, the order or the frame of a window makes the projection fail that
defines the window.
-/
namespace CanonicalSql

open Parse

variable {tokens : List Token} {failure : Failure} {row rest base : List Kind}
  {limit depth more : Nat}

namespace Parse

/-- A window up to the one that it is based on. -/
def windowBase (_ : Phrases) : Parse (Option Name) := existingWindow

/-- A window up to its partition. -/
def windowPartition : Phrases → Parse (Option Name × List Expr) := andClause windowBase partitionBy

/-- A window up to its order. -/
def windowOrder : Phrases → Parse ((Option Name × List Expr) × List SortKey) :=
  andClause windowPartition orderBy

theorem windowBase_isClause : IsClause windowBase (Past 1) where
  runs _ := existingWindow_runs
  repeats _ _ _ := existingWindow_repeats.alike fun _ _ _ => trivial

theorem partitionBy_isClause : IsClause partitionBy (Past 7) where
  runs course := (partitionBy_runs (course.later (Nat.le_succ _))).passes
  repeats below _ row := (partitionBy_repeats below row).mono id (Nat.le_succ _)
    fun _ _ _ => ⟨trivial, rfl⟩

theorem windowPartition_isClause : IsClause windowPartition (Past 7) :=
  windowBase_isClause.and partitionBy_isClause (·.mono (by decide))

theorem windowOrder_isClause : IsClause windowOrder (Past 8) :=
  windowPartition_isClause.and orderBy_isClause (·.mono (by decide))

theorem windowBody_order (phrases : Phrases) : windowBody phrases = (do
    let found ← windowPartition phrases
    let keys ← orderBy phrases
    return (found.1, found.2, keys, ← frame phrases)) := by
  simp only [windowBody, windowPartition, windowBase, andClause, bind_assoc,
    pure_bind]

theorem windowBody_frame (phrases : Phrases) : windowBody phrases = (do
    let found ← windowOrder phrases
    let frame ← frame phrases
    return (found.1.1, found.1.2, found.2, frame)) := by
  simp only [windowBody, windowOrder, windowPartition, windowBase, andClause, bind_assoc,
    pure_bind]

/-- A bound of a frame, with as many levels as the tokens left may need. -/
def wholeBound : Parse FrameBound := do frameBound (← Phrases.forState)

/-- What may stand between the unit of a frame and one of its bounds. -/
inductive OpensBound : List Kind → Prop
  | single : OpensBound []
  | first : OpensBound [.keyword .BETWEEN]
  | last {row : List Kind} {bound : FrameBound} (takes : Takes wholeBound row bound) :
    OpensBound (.keyword .BETWEEN :: (row ++ [.keyword .AND]))

/-- A window definition, with as many levels as the tokens left may need. -/
def wholeWindow : Parse WindowDef := do windowDef (← Phrases.forState)

theorem window_item : IsClause windowDef (lead · = .symbol .comma) where
  runs course := (windowDef_runs (course.later (Nat.le_succ _))).passes
  repeats below shuns row := (windowDef_repeats below shuns row).mono (fun isComma => isComma)
    (Nat.le_succ _) fun _ _ _ => ⟨trivial, rfl⟩

end Parse

/-- Between the parentheses of a window, the step fails within the row. -/
def FailsWindow (tokens : List Token) (failure : Failure) (row : List Kind) : Prop :=
  ∀ {limit depth more : Nat}, 8 * row.length + 15 ≤ more → depth + 2 * row.length ≤ capOf limit →
    Fails tokens failure limit depth (windowBody (Phrases.within more)) row

/-- An expression of the partition. -/
theorem FailsOperand.partition (given : FailsOperand tokens failure 0 row)
    (takes : ∃ name, Takes (do windowBase (← Phrases.forState)) base name) {rows : List (List Kind)}
    (each : ∀ other ∈ rows, ∃ e, Takes wholeExpression other e) :
    FailsWindow tokens failure
      (base ++ .keyword .PARTITION :: .keyword .BY :: (beforeCommas rows ++ row)) := by
  intro limit depth more enough room
  refine windowBase_isClause.fails takes (Nat.le_add_right 1 5) rfl rfl enough (by simp) room
    (.takeWord (.expectWord (given.expressions each ?_ ?_))) <;>
  · rw [List.length_append, List.length_cons, List.length_cons] at enough room
    omega

/-- The order of a window. -/
theorem FailsOrder.window (given : FailsOrder tokens failure row)
    (takes : ∃ found, Takes (do windowPartition (← Phrases.forState)) base found) :
    FailsWindow tokens failure (base ++ row) := by
  intro limit depth more enough room
  have opens := given.opens
  rw [windowBody_order]
  refine windowPartition_isClause.fails takes (by rw [Past, opens]; exact Nat.le_refl 7)
    (by rw [opens]; rfl) (by rw [opens]; rfl) enough ?_ room (given.fails ?_ ?_)
  · rintro rfl
    cases opens
  all_goals
    rw [List.length_append] at enough room
    omega

/-- Where the bound of a frame is expected, the step fails within the row. -/
structure FailsBound (tokens : List Token) (failure : Failure) (row : List Kind) : Prop where
  opens : (lead row).opensExpression = true
  fails : ∀ {limit depth more : Nat}, 8 * row.length + 16 ≤ more →
    depth + 2 * row.length + 1 ≤ capOf limit →
    Fails tokens failure limit depth (frameBound (Phrases.within more)) row

/-- The distance of a bound. -/
theorem FailsOperand.bound (given : FailsOperand tokens failure 0 row)
    (noUnbounded : lead row ≠ .keyword .UNBOUNDED)
    (noCurrent : lead row = .keyword .CURRENT → lead (row.drop 1) ≠ .keyword .ROW) :
    FailsBound tokens failure row := by
  refine ⟨given.opens, fun {limit depth more} enough room => ?_⟩
  refine .still here_still fun _ => .passWord noUnbounded ?_
  refine .noWordBefore (fun isCurrent => ?_) (given.expression enough room).bind
  have other := noCurrent isCurrent
  simpa [List.drop_one] using other

/-- A bound of a frame. -/
theorem FailsBound.frame (given : FailsBound tokens failure row)
    (takes : ∃ found, Takes (do windowOrder (← Phrases.forState)) base found) (unit : FrameUnit)
    {words : List Kind} (opens : OpensBound words) :
    FailsWindow tokens failure (base ++ .keyword unit.word :: (words ++ row)) := by
  intro limit depth more enough room
  rw [windowBody_frame]
  refine windowOrder_isClause.fails takes (by cases unit <;> exact Nat.le_succ 8)
    (by cases unit <;> rfl) (by cases unit <;> rfl) enough (by simp) room ?_
  rw [List.length_append, List.length_cons, List.length_append] at enough room
  refine .still here_still fun _ => .step (frameUnit_reads unit) (fun _ _ => frameUnit_runs.passes)
    (Fails.bind ?_)
  cases opens with
  | single =>
    exact .passWord (Kind.ne_of_opensExpression given.opens rfl)
      (given.fails (by omega) (by omega)).bind
  | first => exact .takeWord (given.fails (by simp at enough; omega) (by simp at room; omega)).bind
  | @last first bound takes =>
    simp only [List.length_cons, List.length_append] at enough room
    simp only [List.cons_append, List.append_assoc, List.nil_append]
    have again : Repeats (.keyword .AND :: row) True (2 * first.length + 1) (Keyed FrameBound.erase)
        wholeBound (frameBound (Phrases.within more)) first :=
      .forState (frameBound_repeats (Phrases.within_repeats (by omega) _) (Phrases.within_shuns _)
        first)
    refine .takeWord (.given takes again (fun _ => trivial) rfl rfl (by omega) (fun i few => ?_)
      fun _ _ => .expectWord (given.fails (by omega) (by omega)).bind)
    have course : (Phrases.within more).From tokens i :=
      Phrases.within_from (by rw [List.length_append, List.length_cons]; omega) few
    exact (frameBound_runs course).passes

/-- A window of a projection. -/
theorem FailsWindow.windows (given : FailsWindow tokens failure row) {others : List Kind}
    (takes : ∃ found, Takes (do selectHaving (← Phrases.forState)) others found)
    {rows : List (List Kind)} (each : ∀ other ∈ rows, ∃ window, Takes wholeWindow other window)
    {kind : Kind} {name : Name} (spells : kind.name? = some name) :
    FailsTerm tokens failure (others ++ .keyword .WINDOW ::
      (beforeCommas rows ++ kind :: .keyword .AS :: .symbol .leftParen :: row)) := by
  refine selectHaving_head.fails takes (by simp) (Nat.le_refl 5) rfl rfl
    fun {limit depth more} enough room =>
      .takeWord (window_item.commaSeparated each (by simp) ?_ ?_ ?_)
  · simp only [List.length_cons, List.length_append] at enough ⊢
    omega
  · simp only [List.length_cons, List.length_append] at room ⊢
    omega
  simp only [List.length_cons, List.length_append] at enough room
  refine .still here_still fun _ => .step (identifier_spelled spells)
    (fun _ _ => identifier_runs.passes) (.expectWord (Fails.bind ?_))
  rw [windowSpec_eq]
  exact .still here_still fun _ => Fails.bind (.expectSign (given (by omega) (by omega)).bind)

end CanonicalSql
