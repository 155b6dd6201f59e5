import CanonicalSql.Proofs.Failing.Expr

/-!
# Failing tails of queries

What fails in a sort key or in a count makes the tail of a query fail that it belongs to.
-/
namespace CanonicalSql

open Parse

variable {tokens : List Token} {failure : Failure} {row rest : List Kind} {limit depth more : Nat}

namespace Parse

/-- A sort key, with as many levels as the tokens left may need. -/
def wholeSortKey : Parse SortKey := do sortKey (← Phrases.forState)

theorem sortKey_item : IsClause sortKey (lead · = .symbol .comma) where
  runs course := (sortKey_runs course.here).passes
  repeats below _ row := by
    refine (sortKey_repeats below closes_of_comma (fun isComma word isOrder => ?_) row).alike
      fun _ _ _ => trivial
    simp [isComma]

theorem orderBy_isClause : IsClause orderBy (Past 8) where
  runs course := (orderBy_runs (course.later (Nat.le_succ _))).passes
  repeats below _ row := (orderBy_repeats below row).mono id (Nat.le_succ _)
    fun _ _ _ => ⟨trivial, rfl⟩

theorem offset_isClause : IsClause offset (lead · = .keyword .FETCH) where
  runs course := (offset_runs (course.later (Nat.le_succ _))).passes
  repeats {phrases phrases' rest} below _ row := by
    have past (isFetch : lead rest = .keyword .FETCH) : Past 9 rest := by
      rw [Past, isFetch]
      exact Nat.le_refl 9
    exact (offset_repeats below past (by simp +contextual) row).mono id (Nat.le_succ _)
      fun _ _ _ => ⟨trivial, rfl⟩

/-- The tail of a query up to its offset. -/
def orderOffset : Phrases → Parse (List SortKey × Option Expr) := andClause orderBy offset

theorem orderOffset_isClause : IsClause orderOffset (lead · = .keyword .FETCH) :=
  orderBy_isClause.and offset_isClause fun isFetch => by
    rw [Past, isFetch]
    exact Nat.le_succ 8

theorem queryTail_splits (phrases : Phrases) (withClause : Option WithClause) (body : Rel)
    (start : Span) : queryTail phrases withClause body start = (do
      let found ← orderOffset phrases
      let fetched ← fetch phrases
      return ⟨withClause, body, found.1, found.2, fetched, ← spanFrom start⟩) := by
  simp only [queryTail, orderOffset, andClause, bind_assoc, pure_bind]

/-- Nothing comes before a clause of a tail but the clauses of the tail. -/
def OpensTail (row : List Kind) : Prop :=
  row = [] ∨ lead row = .keyword .ORDER ∨ lead row = .keyword .OFFSET

theorem OpensTail.of_orderBy (takes : ∃ keys, Takes (do orderBy (← Phrases.forState)) row keys) :
    OpensTail row := by
  obtain ⟨keys, takes⟩ := takes
  have gives := Gives.forState takes
  by_cases isOrder : lead row = .keyword .ORDER
  · exact .inr (.inl isOrder)
  · exact .inl (gives.step fun _ _ => takeWord_no isOrder).pure.2.symm

theorem OpensTail.of_orderOffset
    (takes : ∃ found, Takes (do orderOffset (← Phrases.forState)) row found) : OpensTail row := by
  obtain ⟨found, takes⟩ := takes
  have gives := Gives.forState takes
  generalize Phrases.within (8 * row.length + 16) = phrases at gives
  by_cases isOrder : lead row = .keyword .ORDER
  · exact .inr (.inl isOrder)
  by_cases isOffset : lead row = .keyword .OFFSET
  · exact .inr (.inr isOffset)
  have noKeys (limit depth : Nat) :
      Reads limit True (orderBy phrases) depth row (· = []) depth row :=
    (takeWord_no isOrder).step (.pure trivial rfl)
  have noCount (limit depth : Nat) :
      Reads limit True (offset phrases) depth row (· = none) depth row :=
    (takeWord_no isOffset).step (.pure trivial rfl)
  exact .inl ((gives.step noKeys).step noCount).pure.2.symm

theorem OpensTail.next (opens : OpensTail row) (next : isQueryNext (lead rest) = true) :
    isQueryNext (lead (row ++ rest)) = true := by
  rcases opens with rfl | isLead | isLead
  · exact next
  all_goals
    rw [lead_append_of_ne_nil (by rintro rfl; cases isLead), isLead]
    rfl

theorem OpensTail.past (opens : OpensTail row) (past : Past 7 rest) : Past 7 (row ++ rest) := by
  rcases opens with rfl | isLead | isLead
  · exact past
  all_goals
    rw [Past, lead_append_of_ne_nil (by rintro rfl; cases isLead), isLead]
    decide

end Parse

/-- Where sort keys may follow, they do and fail within the row. -/
structure FailsOrder (tokens : List Token) (failure : Failure) (row : List Kind) : Prop where
  opens : lead row = .keyword .ORDER
  fails : ∀ {limit depth more : Nat}, 8 * row.length + 15 ≤ more →
    depth + 2 * row.length ≤ capOf limit →
    Fails tokens failure limit depth (orderBy (Phrases.within more)) row

/-- Behind the body of a query its tail fails within the row. -/
structure FailsTail (tokens : List Token) (failure : Failure) (row : List Kind) : Prop where
  next : isQueryNext (lead row) = true
  past : Past 7 row
  fails : ∀ {limit depth more : Nat} (withClause : Option WithClause) (body : Rel) (start : Span),
    8 * row.length + 15 ≤ more → depth + 2 * row.length ≤ capOf limit →
    Fails tokens failure limit depth (queryTail (Phrases.within more) withClause body start) row

theorem FailsOrder.tail (given : FailsOrder tokens failure row) : FailsTail tokens failure row where
  next := by rw [given.opens]; rfl
  past := by rw [Past, given.opens]; exact Nat.le_refl 7
  fails _ _ _ enough room := (given.fails enough room).bind

namespace FailsOperand

/-- A sort key. -/
theorem sortKey (given : FailsOperand tokens failure 0 row) {rows : List (List Kind)}
    (each : ∀ other ∈ rows, ∃ key, Takes wholeSortKey other key) :
    FailsOrder tokens failure (.keyword .ORDER :: .keyword .BY :: (beforeCommas rows ++ row)) where
  opens := rfl
  fails {limit depth more} enough room := by
    have lengths : (beforeCommas rows ++ row).length = (beforeCommas rows).length + row.length :=
      List.length_append
    simp only [List.length_cons] at enough room
    refine .takeWord (.expectWord ?_)
    exact sortKey_item.commaSeparated each (nonempty_of_opens given.opens) (by omega) (by omega)
      (.still here_still fun _ => (given.expression (by omega) (by omega)).bind)

/-- The number of rows that are left out. -/
theorem offset (given : FailsOperand tokens failure 0 row) {others : List Kind}
    (takes : ∃ keys, Takes (do orderBy (← Phrases.forState)) others keys) :
    FailsTail tokens failure (others ++ .keyword .OFFSET :: row) where
  next := (OpensTail.of_orderBy takes).next rfl
  past := (OpensTail.of_orderBy takes).past (Nat.le_succ 7)
  fails _ _ _ enough room := by
    refine orderBy_isClause.fails takes (Nat.le_refl 8) rfl rfl enough (by simp) room (.takeWord ?_)
    rw [List.length_append, List.length_cons] at enough room
    exact (given.expression (by omega) (by omega)).bind

/-- The number of rows that are given. -/
theorem fetch (given : FailsOperand tokens failure 0 row) {others : List Kind}
    (takes : ∃ found, Takes (do orderOffset (← Phrases.forState)) others found) (kind : FetchKind)
    (noRow : lead row ≠ .keyword .ROW) (noRows : lead row ≠ .keyword .ROWS) :
    FailsTail tokens failure (others ++ .keyword .FETCH :: .keyword kind.word :: row) where
  next := (OpensTail.of_orderOffset takes).next rfl
  past := (OpensTail.of_orderOffset takes).past (Nat.le_add_right 7 2)
  fails withClause body start enough room := by
    rw [queryTail_splits]
    refine orderOffset_isClause.fails takes rfl rfl rfl enough (by simp) room ?_
    rw [List.length_append, List.length_cons, List.length_cons] at enough room
    refine .still here_still fun _ => .takeWord ?_
    refine .step (fetchKind_reads kind) (fun _ _ => fetchKind_runs.passes) (Fails.bind ?_)
    refine .look (atWord_looks _) ?_
    rw [if_neg (by simpa using noRow)]
    refine .look (atWord_looks _) ?_
    rw [if_neg (by simpa using noRows)]
    exact (given.expression (by omega) (by omega)).bind

end FailsOperand

end CanonicalSql
