import CanonicalSql.Proofs.Failing.Projection
import CanonicalSql.Proofs.Groupings

/-!
# Failing elements of `GROUP BY`

What fails within an element of `GROUP BY` makes the projection fail. An expression that begins with
a parenthesis is read as a list of columns first: what fails behind that parenthesis fails behind
the only column of the list (`FailsRounds.groupingSet`).
-/
namespace CanonicalSql

open Parse

variable {tokens : List Token} {failure : Failure} {row rest column others : List Kind}
  {limit depth more : Nat} {e : Expr}

namespace Parse

/-! ## What begins an element -/

theorem Gives.groupingSet_opens {levels : Nat} {set : GroupingSet} {left : List Kind}
    (gives : Gives (groupingSet (Phrases.within (levels + 1))) row set left) :
    (lead row).opensExpression = true := by
  obtain ⟨start, gives⟩ := gives.still here_still
  have gives := gives.step fun _ _ => opensList_reads
  split at gives
  · next opens =>
    have isParen : lead row = .symbol .leftParen := by simpa using (Bool.and_eq_true_iff.mp opens).1
    rw [isParen]
    rfl
  · have again : (Phrases.within (levels + 1)).Repeats (Phrases.within (levels + 1)) [] :=
      Phrases.within_repeats (Nat.le_refl _) []
    obtain ⟨first, mid, isFirst, -⟩ := gives.split (expression_repeats again row)
    exact Gives.expression_opens isFirst

theorem Gives.grouping_opens {levels : Nat} {left : List Kind}
    (gives : Gives (groupingElement (Phrases.within (levels + 1))) row e left) :
    (lead row).opensExpression = true := by
  by_contra closed
  have other {word : Keyword} (opens : (Kind.keyword word).opensExpression = true) {next : Bool} :
      lead row = .keyword word → next = false := fun isWord => absurd (isWord ▸ opens) closed
  obtain ⟨start, gives⟩ := gives.still here_still
  have gives := gives.step fun _ _ => atWordBefore_no (other rfl)
  have gives := gives.step fun _ _ => atWordBefore_no (other rfl)
  have gives := gives.step fun _ _ => atWordBefore_no (other rfl)
  obtain ⟨set, -, gives⟩ := gives.map
  exact closed gives.groupingSet_opens

/-- An element of `GROUP BY`, with as many levels as the tokens left may need. -/
def wholeGrouping : Parse Expr := do groupingElement (← Phrases.forState)

/-- A grouping set, with as many levels as the tokens left may need. -/
def wholeGroupingSet : Parse GroupingSet := do groupingSet (← Phrases.forState)

theorem Takes.grouping_opens (takes : Takes wholeGrouping row e) :
    (lead row).opensExpression = true :=
  Gives.grouping_opens (Gives.forState takes)

theorem grouping_item : IsClause groupingElement (lead · = .symbol .comma) where
  runs course :=
    (groupingElement_runs (expression_runs course.here) (course.later (Nat.le_succ _))).passes
  repeats below shuns row := ((groupingElement_repeats below shuns row).within closes_of_comma
    (Nat.le_refl _)).alike fun _ _ _ => trivial

theorem groupingSet_item : IsClause groupingSet (lead · = .symbol .comma) where
  runs course :=
    (groupingSet_runs (expression_runs course.here) (course.later (Nat.le_succ _))).passes
  repeats below shuns row := ((groupingSet_repeats below shuns row).within closes_of_comma
    (Nat.le_refl _)).alike fun _ _ _ => trivial

/-! ## Expressions in parentheses -/

/-- An expression in parentheses is a leading part. -/
theorem Takes.enclosed_leading (takes : Takes wholeExpression column e)
    (enough : 8 * column.length + 16 ≤ more) (room : depth + 2 * column.length + 1 ≤ capOf limit) :
    Reads limit True (leading (Phrases.within more)) depth
      (.symbol .leftParen :: (column ++ .symbol .rightParen :: others)) (Keyed Expr.erase e) depth
      others :=
  .still here_still fun _ => kind_reads.step (Expr.enclosed_reads takes.expression_opens
    (takes.expression enough ⟨.of_quiet rfl, by simp⟩ rfl (by omega)))

end Parse

/-! ## Grouping sets -/

/-- Where a grouping set is expected, the step fails within the row. -/
structure FailsGroupingSet (tokens : List Token) (failure : Failure) (row : List Kind) : Prop where
  opens : (lead row).opensExpression = true
  fails : ∀ {limit depth more : Nat}, 8 * row.length + 16 ≤ more →
    depth + 2 * row.length + 1 ≤ capOf limit →
    Fails tokens failure limit depth (groupingSet (Phrases.within more)) row

/-- An expression that no list of columns begins. -/
theorem FailsOperand.groupingSet (given : FailsOperand tokens failure 0 row)
    (plain : opensColumns row = false) : FailsGroupingSet tokens failure row where
  opens := given.opens
  fails enough room := .still here_still fun _ =>
    .step (opensList_reads.weaken fun _ isSeen => isSeen.trans plain)
      (fun _ _ => opensList_runs.passes) (given.expression enough room).bind

/-- A column of a list. -/
theorem FailsOperand.groupedColumn (given : FailsOperand tokens failure 0 row)
    {rows : List (List Kind)} (each : ∀ other ∈ rows, ∃ e, Takes wholeExpression other e) :
    FailsGroupingSet tokens failure (.symbol .leftParen :: (beforeCommas rows ++ row)) where
  opens := rfl
  fails {limit depth more} enough room := by
    rw [List.length_cons] at enough room
    have opens := beforeCommas_opens (opens_of_takes each) given.opens
    refine .still here_still fun _ => .step (opensList_yes (noQuery_of_opensExpression opens))
      (fun _ _ => opensList_runs.passes) (.advance (by simp) (Fails.bind ?_))
    refine .look (atSign_looks _) ?_
    rw [if_neg (by simpa using Kind.ne_of_opensExpression opens rfl)]
    exact given.expressions each (by omega) (by omega)

/-- The operators behind the only column of a list. -/
theorem FailsRounds.groupingSet (given : FailsRounds tokens failure 0 row)
    (takes : Takes wholeExpression column e)
    (closed : row = .symbol .leftParen :: (column ++ .symbol .rightParen :: others)) :
    FailsGroupingSet tokens failure row where
  opens := given.opens
  fails {limit depth more} enough room := by
    have opens := takes.expression_opens
    have nonempty := nonempty_of_opens opens
    obtain ⟨first, behind, -, isLeading, fails⟩ :=
      given.reads (show 8 * row.length + 15 ≤ more by omega)
    subst closed
    simp only [List.length_cons, List.length_append] at enough room
    -- the leading part of the expression is the column in its parentheses
    obtain ⟨⟨v, isFirst, isEnclosed⟩, rfl⟩ := (isLeading limit depth (by simp; omega)).agree
      (takes.enclosed_leading (by omega) (by omega))
    have reads : Reads limit True (groupedColumns (Phrases.within more)) depth
        (column ++ .symbol .rightParen :: behind) (fun them => ∃ found, them = [found] ∧
          found.erase = e.erase) depth (.symbol .rightParen :: behind) := by
      refine (atSign_no ?_).step (Reads.single ?_ (by simp))
      · rw [lead_append_of_ne_nil nonempty]
        exact Kind.ne_of_opensExpression opens rfl
      · exact takes.expression (by omega) ⟨.of_quiet rfl, by simp⟩ rfl (by omega)
    have runs (j : Nat) (placed : j + (column ++ .symbol .rightParen :: behind).length + 1 =
        tokens.length) : Runs tokens j (groupedColumns (Phrases.within more))
          fun k columns => Laid tokens j k (Extent.ofExprs columns) :=
      groupedColumns_runs (Phrases.within_from
        (by simp only [List.length_append, List.length_cons]; omega) placed.ge)
    refine .here fun i start placed covers => ?_
    refine .step (opensList_yes ?_) (fun _ _ => opensList_runs.passes) (.advance (by simp) ?_)
    · rw [lead_append_of_ne_nil nonempty]
      exact noQuery_of_opensExpression opens
    refine .afterRuns reads runs fun j k them here there laid isColumn => .expectSign ?_
    obtain ⟨found, rfl, isColumn⟩ := isColumn
    simp only [List.length_cons, List.length_append] at placed here there
    have same : Keyed Expr.erase first found :=
      isColumn.trans (isEnclosed.symm.trans isFirst)
    have operators {depth : Nat} (room : depth + 2 * behind.length ≤ capOf limit) :
        Fails tokens failure limit depth (operators (Phrases.within more) found 0 start) behind :=
      fails (Nat.zero_le _) room same covers (show i + 1 ≤ k + 1 by omega)
        (laid.mono (by omega) (Nat.le_succ k)) (by omega)
    refine Fails.bind (.shown fun s' _ shows' stands' => ?_)
    have isAhead : (Power.ahead behind).isSome = true := by
      rw [Option.isSome_iff_ne_none]
      intro none
      exact (operators (by omega)).not_reads (operators_none (by simp [none]) found start) shows'
        stands'
    refine .step operatorPower_reads (fun _ _ => operatorPower_runs) ?_
    rw [if_pos isAhead]
    exact (Fails.nested (by omega) (operators (by omega))).bind

/-! ## Elements -/

/-- Whether the row begins with `ROLLUP`, `CUBE` or `GROUPING SETS` and what belongs to the word. -/
def Parse.opensSets : List Kind → Bool
  | .keyword .ROLLUP :: .symbol .leftParen :: _ | .keyword .CUBE :: .symbol .leftParen :: _
  | .keyword .GROUPING :: .keyword .SETS :: _ => true
  | _ => false

/-- Where an element of `GROUP BY` is expected, the step fails within the row. -/
structure FailsGrouping (tokens : List Token) (failure : Failure) (row : List Kind) : Prop where
  opens : (lead row).opensExpression = true
  fails : ∀ {limit depth more : Nat}, 8 * row.length + 16 ≤ more →
    depth + 2 * row.length + 1 ≤ capOf limit →
    Fails tokens failure limit depth (groupingElement (Phrases.within more)) row

/-- A grouping set alone. -/
theorem FailsGroupingSet.grouping (given : FailsGroupingSet tokens failure row)
    (alone : opensSets row = false) : FailsGrouping tokens failure row where
  opens := given.opens
  fails enough room := by
    have other {first second : Kind} (opens : ∀ more, opensSets (first :: second :: more) = true)
        (inner : second ≠ .endOfInput) :
        lead row = first → decide (lead (row.drop 1) = second) = false := by
      intro isFirst
      match row with
      | [] => simpa using inner.symm
      | [kind] => simpa using inner.symm
      | kind :: next :: more =>
        refine decide_eq_false fun isSecond => ?_
        rw [show kind = first from isFirst, show next = second from isSecond, opens more] at alone
        cases alone
    refine .still here_still fun _ => .noWordBefore (other (fun _ => rfl) (by simp)) <|
      .noWordBefore (other (fun _ => rfl) (by simp)) <|
        .noWordBefore (other (fun _ => rfl) (by simp)) ?_
    exact (given.fails enough room).bind

/-- A grouping set of `ROLLUP` or `CUBE`. -/
theorem FailsGroupingSet.listed (given : FailsGroupingSet tokens failure row) {word : Keyword}
    (isList : word = .ROLLUP ∨ word = .CUBE) {rows : List (List Kind)}
    (each : ∀ other ∈ rows, ∃ set, Takes wholeGroupingSet other set) :
    FailsGrouping tokens failure
      (.keyword word :: .symbol .leftParen :: (beforeCommas rows ++ row)) where
  opens := by rcases isList with rfl | rfl <;> rfl
  fails {limit depth more} enough room := by
    simp only [List.length_cons] at enough room
    have sets : Fails tokens failure limit depth (groupingSetList (Phrases.within more))
        (.keyword word :: .symbol .leftParen :: (beforeCommas rows ++ row)) := by
      refine .advance (by simp) (.expectSign (Fails.bind ?_))
      refine groupingSet_item.commaSeparated each (nonempty_of_opens given.opens) (by omega)
        (by omega) (given.fails ?_ ?_) <;>
      · rw [List.length_append] at enough room
        omega
    rcases isList with rfl | rfl
    · exact .still here_still fun _ => .wordBefore rfl sets.bind
    · exact .still here_still fun _ => .noWordBefore (by simp) (.wordBefore rfl sets.bind)

/-- A member of `GROUPING SETS`. -/
theorem FailsGrouping.member (given : FailsGrouping tokens failure row) {rows : List (List Kind)}
    (each : ∀ other ∈ rows, ∃ e, Takes wholeGrouping other e) :
    FailsGrouping tokens failure (.keyword .GROUPING :: .keyword .SETS :: .symbol .leftParen ::
      (beforeCommas rows ++ row)) where
  opens := rfl
  fails {limit depth more} enough room := by
    simp only [List.length_cons] at enough room
    obtain ⟨more, rfl⟩ : ∃ fewer, more = fewer + 1 := ⟨more - 1, by omega⟩
    have members : Fails tokens failure limit (depth + 1)
        (commaSeparated (groupingElement (Phrases.within more))) (beforeCommas rows ++ row) := by
      refine grouping_item.commaSeparated each (nonempty_of_opens given.opens) (by omega) (by omega)
        (given.fails ?_ ?_) <;>
      · rw [List.length_append] at enough room
        omega
    refine .still here_still fun _ => .noWordBefore (by simp) <| .noWordBefore (by simp) <|
      .wordBefore rfl (Fails.bind ?_)
    refine .advance (by simp) (.advance (by simp) ?_)
    exact .nested (by omega) (.expectSign members.bind)

/-- An element of `GROUP BY`. -/
theorem FailsGrouping.grouped (given : FailsGrouping tokens failure row)
    (takes : ∃ found, Takes (do selectSelection (← Phrases.forState)) others found)
    (quantifier : Option SetQuantifier) {rows : List (List Kind)}
    (each : ∀ other ∈ rows, ∃ e, Takes wholeGrouping other e) :
    FailsTerm tokens failure (others ++ .keyword .GROUP :: .keyword .BY ::
      (Piece.kinds (Canonical.ofQuantifier quantifier) ++ (beforeCommas rows ++ row))) := by
  have opens : (lead (beforeCommas rows ++ row)).opensExpression = true := by
    refine beforeCommas_opens (fun other member => ?_) given.opens
    obtain ⟨e, takes⟩ := each other member
    exact takes.grouping_opens
  refine selectSelection_head.fails takes (by simp) (Nat.le_refl 3) rfl rfl
    fun {limit depth more} enough room => ?_
  simp only [List.length_cons, List.length_append] at enough room
  refine .still here_still fun _ => .takeWord (.expectWord ?_)
  refine .step (setQuantifier_reads quantifier (Kind.ne_of_opensExpression opens rfl)
    (Kind.ne_of_opensExpression opens rfl)) (fun _ _ => setQuantifier_runs) (Fails.bind ?_)
  exact grouping_item.commaSeparated each (nonempty_of_opens given.opens)
    (by rw [List.length_append]; omega) (by rw [List.length_append]; omega)
    (given.fails (by omega) (by omega))

end CanonicalSql
