import CanonicalSql.Proofs.Failing.Clauses
import CanonicalSql.Proofs.Failing.Subquery
import CanonicalSql.Proofs.SetOperations

/-!
# Failing projections

What fails in a clause of a projection or in a list of values makes the operand of set operations
fail that it belongs to. The clauses before the one that fails are read by the rules of which a
projection is made (`Parse.SelectHead`).
-/
namespace CanonicalSql

open Parse

variable {tokens : List Token} {failure : Failure} {row rest : List Kind}
  {limit depth more : Nat}

/-! ## Operands of set operations -/

namespace Parse

/-- Operands of set operations begin like queries, without a `WITH` clause. -/
structure OpensOperand (row : List Kind) : Prop where
  opens : (lead row).opensOperand = true
  noName : lead row = .symbol .leftParen → (lead (row.drop 1)).name? = none

namespace OpensOperand

theorem of_word (opens : (lead row).opensOperand = true) (noParen : lead row ≠ .symbol .leftParen) :
    OpensOperand row := ⟨opens, fun isParen => absurd isParen noParen⟩

theorem query (opens : OpensOperand row) : OpensQuery row := by
  obtain ⟨opens, noName⟩ := opens
  by_cases isParen : lead row = .symbol .leftParen
  · exact .inr ⟨isParen, noName isParen⟩
  · refine .inl ?_
    generalize lead row = kind at opens isParen
    unfold Kind.opensOperand at opens
    split at opens <;> first | rfl | contradiction

theorem append (opens : OpensOperand row) (noName : (lead rest).name? = none) :
    OpensOperand (row ++ rest) := by
  obtain ⟨opens, noName'⟩ := opens
  match row with
  | [] => cases opens
  | [kind] => exact ⟨opens, fun _ => noName⟩
  | kind :: other :: more => exact ⟨opens, noName'⟩

end OpensOperand

end Parse

/-- Where an operand of a set operation is expected, the step fails within the row. -/
structure FailsTerm (tokens : List Token) (failure : Failure) (row : List Kind) : Prop where
  opens : OpensOperand row
  enclosed : lead row = .symbol .leftParen → FailsEnclosed tokens failure row
  fails : ∀ {limit depth more : Nat}, 8 * row.length + 15 ≤ more →
    depth + 2 * row.length ≤ capOf limit →
    Fails tokens failure limit depth (queryPrimary (Phrases.within more)) row

/-- A query in parentheses. -/
theorem FailsQuery.term (given : FailsQuery tokens failure row) :
    FailsTerm tokens failure (.symbol .leftParen :: row) where
  opens := ⟨rfl, fun _ => given.opens.name?⟩
  enclosed _ := given.inPlaces.enclosed
  fails {limit depth more} enough room := by
    rw [List.length_cons] at enough room
    exact .look kind_looks (Fails.bind (.expectSign (given.query (by omega) (by omega)).bind))

/-- A row of `VALUES`. -/
theorem FailsOperand.values (given : FailsOperand tokens failure 0 row) {rows : List (List Kind)}
    (each : ∀ other ∈ rows, ∃ e, Takes wholeExpression other e) :
    FailsTerm tokens failure (.keyword .VALUES :: (beforeCommas rows ++ row)) where
  opens := .of_word rfl (by simp)
  enclosed := nofun
  fails {limit depth more} enough room := by
    rw [List.length_cons] at enough room
    refine .look kind_looks (.still here_still fun _ => .expectWord ?_)
    exact (given.expressions each (by omega) (by omega)).bind

/-! ## Beginnings of projections -/

namespace Parse

/-- A projection up to its targets. -/
def selectTargets (phrases : Phrases) : Parse (Option SetQuantifier × List Expr) := do
  expectWord .SELECT
  let quantifier ← setQuantifier
  return (quantifier, ← commaSeparated (target phrases))

/-- A projection up to its sources. -/
def selectSources : Phrases → Parse ((Option SetQuantifier × List Expr) × List Rel) :=
  andClause selectTargets sources

/-- A projection up to its condition. -/
def selectSelection :
    Phrases → Parse (((Option SetQuantifier × List Expr) × List Rel) × Option Expr) :=
  andClause selectSources (·.optionalClause .WHERE)

/-- A projection up to its groups. -/
def selectGrouping : Phrases →
    Parse ((((Option SetQuantifier × List Expr) × List Rel) × Option Expr) × Option GroupClause) :=
  andClause selectSelection groupClause

/-- A projection up to the condition on its groups. -/
def selectHaving : Phrases → Parse (((((Option SetQuantifier × List Expr) × List Rel) ×
    Option Expr) × Option GroupClause) × Option Expr) :=
  andClause selectGrouping (·.optionalClause .HAVING)

theorem Gives.target_opens {levels : Nat} {e : Expr} {left : List Kind}
    (gives : Gives (target (Phrases.within (levels + 1))) row e left) :
    (lead row).opensExpression = true := by
  obtain ⟨start, gives⟩ := gives.still here_still
  have again : (Phrases.within (levels + 1)).Repeats (Phrases.within (levels + 1)) [] :=
    Phrases.within_repeats (Nat.le_refl _) []
  obtain ⟨first, mid, isFirst, -⟩ := gives.split (expression_repeats again row)
  exact Gives.expression_opens isFirst

theorem selectTargets_repeats {phrases phrases' : Phrases} (below : phrases.Repeats phrases' rest)
    (shuns : phrases.Shuns) (row : List Kind) :
    Repeats rest (Past 1 rest) (2 * row.length) (fun _ _ => True) (selectTargets phrases)
      (selectTargets phrases') row := by
  refine .expectWord (by simp) fun left isRow => ?_
  have few : left.length + 1 = row.length := by rw [isRow, List.length_cons]
  refine .inside (setQuantifier_repeats False.elim False.elim)
    (fun _ => (Refuses.commaSeparated (target_refuses shuns)).bind _) fun _ _ left₁ _ few₁ => ?_
  have items := commaSeparated_repeats (Past 1 rest) left₁ 1 (·.ne (by decide)) id fun left _ =>
    target_repeats below (·.closes 0) (·.ne (by decide)) (·.noName) left
  exact .bind (items.within id (by omega)) id fun _ _ _ _ _ => .done trivial

theorem selectTargets_begins {phrases : Phrases} (other : lead row ≠ .keyword .SELECT) :
    Refuses (selectTargets phrases) row := by
  refine Refuses.bind (fun s a t faces run => ?_) _
  obtain ⟨limit, depth, shows⟩ := faces
  have refused : Reads limit False (Parse.expectWord .SELECT) depth row (fun _ => False) depth row :=
    expectWord_refuses id other
  exact (refused.ok s a t shows run).1

theorem selectTargets_runs {phrases : Phrases} {i : Nat} (course : phrases.From tokens i) :
    Passes tokens i (selectTargets phrases) := by
  refine .expectWord (setQuantifier_runs.andThen fun _ j _ => ?_)
  have items : Passes tokens j (commaSeparated (target phrases)) :=
    (Runs.commaSeparated fun k _ => target_runs (course.later (by omega)).here).passes
  exact items.andThen fun _ _ _ => .pure trivial

/-- What is read of a projection before the clause, which may follow where the clauses up to the
rank are over. -/
structure SelectHead {α β : Type} (head : Phrases → Parse α) (clause : Phrases → Parse β)
    (rank : Nat) : Prop extends IsClause head (Past rank) where
  splits : ∀ phrases, ∃ next : Span → α → β → Parse Select, select phrases = (do
    let start ← here
    let found ← head phrases
    next start found (← clause phrases))
  begins : ∀ {phrases row}, lead row ≠ .keyword .SELECT → Refuses (head phrases) row

theorem selectTargets_head : SelectHead selectTargets sources 1 where
  runs := selectTargets_runs
  repeats below shuns row := (selectTargets_repeats below shuns row).within id (Nat.le_succ _)
  splits phrases := ⟨fun start head sources => do
    let selection ← phrases.optionalClause .WHERE
    let grouping ← groupClause phrases
    let having ← phrases.optionalClause .HAVING
    let windows ← windows phrases
    return ⟨head.1, head.2, sources, selection, grouping, having, windows, ← spanFrom start⟩, by
      simp only [select, selectTargets, bind_assoc, pure_bind]⟩
  begins := selectTargets_begins

theorem sources_isClause : IsClause sources (Past 2) where
  runs course := (sources_runs (course.later (Nat.le_succ _))).passes
  repeats below shuns row := (sources_repeats below shuns row).mono id (Nat.le_succ _)
    fun _ _ _ => ⟨trivial, rfl⟩

theorem groupClause_isClause : IsClause groupClause (Past 4) where
  runs course := (groupClause_runs (course.later (Nat.le_succ _))).passes
  repeats below shuns row := (groupClause_repeats below shuns row).mono id (Nat.le_succ _)
    fun _ _ _ => ⟨trivial, rfl⟩

theorem selectSources_head : SelectHead selectSources (·.optionalClause .WHERE) 2 where
  toIsClause := selectTargets_head.and sources_isClause (·.mono (by decide))
  splits phrases := ⟨fun start head selection => do
    let grouping ← groupClause phrases
    let having ← phrases.optionalClause .HAVING
    let windows ← windows phrases
    return ⟨head.1.1, head.1.2, head.2, selection, grouping, having, windows, ← spanFrom start⟩, by
      simp only [select, selectSources, andClause, selectTargets, bind_assoc, pure_bind]⟩
  begins other := (selectTargets_head.begins other).bind _

theorem selectSelection_head : SelectHead selectSelection groupClause 3 where
  toIsClause := selectSources_head.and (optionalClause_isClause (by simp) (by decide))
    (·.mono (by decide))
  splits phrases := ⟨fun start head grouping => do
    let having ← phrases.optionalClause .HAVING
    let windows ← windows phrases
    return ⟨head.1.1.1, head.1.1.2, head.1.2, head.2, grouping, having, windows,
      ← spanFrom start⟩, by
      simp only [select, selectSelection, selectSources, andClause, selectTargets, bind_assoc,
        pure_bind]⟩
  begins other := (selectSources_head.begins other).bind _

theorem selectGrouping_head : SelectHead selectGrouping (·.optionalClause .HAVING) 4 where
  toIsClause := selectSelection_head.and groupClause_isClause (·.mono (by decide))
  splits phrases := ⟨fun start head having => do
    let windows ← windows phrases
    return ⟨head.1.1.1.1, head.1.1.1.2, head.1.1.2, head.1.2, head.2, having, windows,
      ← spanFrom start⟩, by
      simp only [select, selectGrouping, selectSelection, selectSources, andClause, selectTargets,
        bind_assoc, pure_bind]⟩
  begins other := (selectSelection_head.begins other).bind _

theorem selectHaving_head : SelectHead selectHaving windows 5 where
  toIsClause := selectGrouping_head.and (optionalClause_isClause (by simp) (by decide))
    (·.mono (by decide))
  splits phrases := ⟨fun start head windows => do
    return ⟨head.1.1.1.1.1, head.1.1.1.1.2, head.1.1.1.2, head.1.1.2, head.1.2, head.2, windows,
      ← spanFrom start⟩, by
      simp only [select, selectHaving, selectGrouping, selectSelection, selectSources, andClause,
        selectTargets, bind_assoc, pure_bind]⟩
  begins other := (selectGrouping_head.begins other).bind _

/-- A target, with as many levels as the tokens left may need. -/
def wholeTarget : Parse Expr := do target (← Phrases.forState)

theorem Takes.target_opens {e : Expr} (takes : Takes wholeTarget row e) :
    (lead row).opensExpression = true :=
  Gives.target_opens (Gives.forState takes)

theorem target_item : IsClause target (lead · = .symbol .comma) where
  runs course := (target_runs course.here).passes
  repeats below _ row := (target_repeats below closes_of_comma (by simp +contextual)
    (fun isComma => by rw [isComma]; rfl) row).alike fun _ _ _ => trivial

end Parse

/-! ## Projections -/

/-- Where a projection fails, so does the operand that it is. -/
theorem FailsTerm.of_select (opens : lead row = .keyword .SELECT)
    (fails : ∀ {limit depth more : Nat}, 8 * row.length + 15 ≤ more →
      depth + 2 * row.length ≤ capOf limit →
      Fails tokens failure limit depth (select (Phrases.within more)) row) :
    FailsTerm tokens failure row where
  opens := .of_word (by rw [opens]; rfl) (by simp [opens])
  enclosed isParen := by simp [opens] at isParen
  fails enough room := .look kind_looks (by
    rw [id, opens]
    exact (fails enough room).bind)

/-- A target. -/
theorem FailsOperand.target (given : FailsOperand tokens failure 0 row)
    (quantifier : Option SetQuantifier) {rows : List (List Kind)}
    (each : ∀ other ∈ rows, ∃ e, Takes wholeTarget other e) :
    FailsTerm tokens failure (.keyword .SELECT ::
      (Piece.kinds (Canonical.ofQuantifier quantifier) ++ (beforeCommas rows ++ row))) := by
  refine .of_select rfl fun {limit depth more} enough room => ?_
  have lengths : (beforeCommas rows ++ row).length = (beforeCommas rows).length + row.length :=
    List.length_append
  simp only [List.length_cons, List.length_append] at enough room
  have opens : (lead (beforeCommas rows ++ row)).opensExpression = true := by
    refine beforeCommas_opens (fun other member => ?_) given.opens
    obtain ⟨e, takes⟩ := each other member
    exact takes.target_opens
  refine .still here_still fun _ => .expectWord ?_
  refine .step (setQuantifier_reads quantifier (Kind.ne_of_opensExpression opens rfl)
    (Kind.ne_of_opensExpression opens rfl)) (fun _ _ => setQuantifier_runs) ?_
  refine Fails.bind (target_item.commaSeparated each (nonempty_of_opens given.opens) (by omega)
    (by omega) (.still here_still fun _ => (given.expression (by omega) (by omega)).bind))

/-- A clause fails behind what is read before it. -/
theorem Parse.SelectHead.fails {α β : Type} {head : Phrases → Parse α} {clause : Phrases → Parse β}
    {rank : Nat} (isHead : SelectHead head clause rank) {others : List Kind}
    (takes : ∃ found, Takes (do head (← Phrases.forState)) others found) (nonempty : row ≠ [])
    (past : Past rank row) (noPredicate : isNegatable (lead row) = false)
    (apart : isJoint (lead row) = false)
    (fails : ∀ {limit depth more : Nat}, 8 * row.length + 15 ≤ more →
      depth + 2 * row.length ≤ capOf limit →
      Fails tokens failure limit depth (clause (Phrases.within more)) row) :
    FailsTerm tokens failure (others ++ row) := by
  have opens : lead others = .keyword .SELECT := by
    by_contra other
    obtain ⟨found, takes⟩ := takes
    exact Gives.elim (Gives.forState takes) (isHead.begins other)
  have some : others ≠ [] := by
    rintro rfl
    cases opens
  refine .of_select (by rwa [lead_append_of_ne_nil some]) fun {limit depth more} enough room => ?_
  obtain ⟨next, isSelect⟩ := isHead.splits (Phrases.within more)
  rw [isSelect]
  refine .still here_still fun start =>
    isHead.toIsClause.fails takes past noPredicate apart enough nonempty room (fails ?_ ?_) <;>
  · rw [List.length_append] at enough room
    omega

/-- The condition behind `WHERE`. -/
theorem FailsOperand.selection (given : FailsOperand tokens failure 0 row) {others : List Kind}
    (takes : ∃ found, Takes (do selectSources (← Phrases.forState)) others found) :
    FailsTerm tokens failure (others ++ .keyword .WHERE :: row) :=
  selectSources_head.fails takes (by simp) (Nat.le_refl 2) rfl rfl fun enough room => by
    rw [List.length_cons] at enough room
    exact .takeWord (given.expression (by omega) (by omega)).bind

/-- The condition behind `HAVING`. -/
theorem FailsOperand.having (given : FailsOperand tokens failure 0 row) {others : List Kind}
    (takes : ∃ found, Takes (do selectGrouping (← Phrases.forState)) others found) :
    FailsTerm tokens failure (others ++ .keyword .HAVING :: row) :=
  selectGrouping_head.fails takes (by simp) (Nat.le_refl 4) rfl rfl fun enough room => by
    rw [List.length_cons] at enough room
    exact .takeWord (given.expression (by omega) (by omega)).bind

/-- A source behind `FROM`. -/
theorem FailsSource.sources (given : FailsSource tokens failure row) {others : List Kind}
    (takes : ∃ found, Takes (do selectTargets (← Phrases.forState)) others found)
    {rows : List (List Kind)} (each : ∀ other ∈ rows, ∃ r, Takes wholeSource other r) :
    FailsTerm tokens failure (others ++ .keyword .FROM :: (beforeCommas rows ++ row)) :=
  selectTargets_head.fails takes (by simp) (Nat.le_refl 1) rfl rfl
    fun {limit depth more} enough room => by
    have lengths : (beforeCommas rows ++ row).length = (beforeCommas rows).length + row.length :=
      List.length_append
    rw [List.length_cons] at enough room
    exact .takeWord (source_item.commaSeparated each given.nonempty (by omega) (by omega)
      (given.fails (by omega) (by omega) (by omega) fun _ _ _ => rfl))

end CanonicalSql
