import CanonicalSql.Grammar.Query
import CanonicalSql.Proofs.Course.Expr

/-!
# The course of queries

Grouping, windows, sources and queries, and the knot: with the bound `b` the phrases read in good
order from the `i`-th of `n` tokens on as long as `2 * n < 2 * i + b`. A token that is taken
lowers what is asked of the bound by two, and one of the two is what an element of `GROUP BY`
needs, which calls for an expression before it takes a token. No other cycle of the grammar comes
back to where it began (`Phrases.within_course`).
-/
namespace CanonicalSql

/-- The stretch of a relation is that of its extent. -/
theorem Extent.span_ofRel (rel : Rel) : (Extent.ofRel rel).span = rel.span := by
  cases rel with
  | query inner => cases inner; rfl
  | select projection => cases projection; rfl
  | _ => rfl

/-- An extent lies within the stretch of text that it covers. -/
theorem Laid.tight {tokens : List Token} {i j : Nat} {extent : Extent}
    (laid : Laid tokens i j [extent]) :
    ∃ a b, i ≤ a ∧ b ≤ j ∧ Covers tokens a b extent.span ∧ Laid tokens a b [extent] := by
  cases laid with
  | cons low covers inner arranged rest =>
    exact ⟨_, _, low, rest.le, covers,
      .cons (Nat.le_refl _) covers inner arranged (.nil (Nat.le_refl _))⟩

namespace Parse

variable {tokens : List Token} {i a b : Nat} {phrases : Phrases} {start : Span}

/-! ## Grouping -/

theorem opensList_runs : Runs tokens i opensList fun j opens =>
    j = i ∧ (opens = true → kindAt tokens i = .symbol .leftParen) := by
  refine .look (atSign_looks _) (.ite (fun here => ?_) fun _ => .pure ⟨rfl, by simp⟩)
  exact .peek (.pure ⟨rfl, fun _ => of_decide_eq_true here⟩)

theorem groupedColumns_runs (course : phrases.From tokens i) :
    Runs tokens i (groupedColumns phrases)
      fun j columns => Laid tokens i j (Extent.ofExprs columns) := by
  refine .look (atSign_looks _) (.ite (fun _ => .pure (.nil (Nat.le_refl i))) fun _ => ?_)
  exact (expressions_runs course).mono fun _ _ _ laid => laid.2

theorem longerColumns_runs (course : phrases.From tokens (i + 1)) (begins : Covers tokens a b start)
    (past : b ≤ i) {columns : List Expr} (laid : Laid tokens a i (Extent.ofExprs columns)) :
    Runs tokens i (longerColumns phrases columns start)
      fun j columns => Laid tokens a j (Extent.ofExprs columns) := by
  unfold longerColumns
  split
  · refine .operatorPower fun power => .ite (fun _ => ?_) fun _ => .pure laid
    exact (operators_runs course begins past laid 0).nested.bind fun expr j _ longer => .pure longer
  · exact .pure laid

theorem groupingSet_runs
    (now : Runs tokens i phrases.expression fun j expr => Laid tokens i j [.ofExpr expr])
    (course : phrases.From tokens (i + 1)) :
    Runs tokens i (groupingSet phrases) fun j set => Laid tokens i j [Extent.ofGroupingSet set] := by
  refine .here fun start begins => opensList_runs.bind fun opens j _ holds => ?_
  obtain ⟨rfl, isParen⟩ := holds
  refine .ite (fun yes => ?_) fun _ => ?_
  · refine .advance (by rw [isParen yes]; rfl) ?_
    refine (groupedColumns_runs course).bind fun columns m past laid => .expectSign rfl ?_
    have laid : Laid tokens j (m + 1) (Extent.ofExprs columns) := laid.mono (by omega) (by omega)
    refine (longerColumns_runs (course.later (by omega)) begins (by omega) laid).bind
      fun columns n _ laidColumns => ?_
    exact .spanFrom begins (by omega) fun span covers => .pure (.node covers laidColumns)
  · refine now.bind fun expr m _ laid => ?_
    have some := laid.lt
    exact .spanFrom begins (by omega) fun span covers => .pure (.node covers laid)

theorem groupingSetList_runs (course : phrases.From tokens (i + 1))
    (named : (kindAt tokens i).endsStatement = false) :
    Runs tokens i (groupingSetList phrases)
      fun j sets => i < j ∧ Laid tokens i j (Extent.ofGroupingSets sets) := by
  refine .advance named (parenthesized_runs ?_)
  refine (Runs.commaSeparated fun k past =>
    groupingSet_runs (expression_runs (course.later (by omega)).here)
      (course.later (by omega))).mono ?_
  intro sets j _ laid
  rw [Extent.ofGroupingSets_eq_map]
  exact ⟨by omega, laid.2.mono (by omega) (by omega)⟩

theorem groupingSetsMembers_runs (course : phrases.From tokens (i + 1))
    (named : (kindAt tokens i).endsStatement = false)
    (followed : (kindAt tokens (i + 1)).endsStatement = false) :
    Runs tokens i (groupingSetsMembers phrases)
      fun j sets => i < j ∧ Laid tokens i j (Extent.ofExprs sets) := by
  refine .advance named (.advance followed (.nested (parenthesized_runs ?_)))
  refine (Runs.commaSeparated fun k past => (course k (by omega)).groupingElement).mono ?_
  intro sets j _ laid
  rw [Extent.ofExprs_eq_map]
  exact ⟨by omega, laid.2.mono (by omega) (by omega)⟩

/-- The one rule that calls for an expression before it takes a token. -/
theorem groupingElement_runs
    (now : Runs tokens i phrases.expression fun j expr => Laid tokens i j [.ofExpr expr])
    (course : phrases.From tokens (i + 1)) :
    Runs tokens i (groupingElement phrases) fun j expr => Laid tokens i j [.ofExpr expr] := by
  refine .here fun start begins => .atWordBefore (fun named _ => ?_) <|
    .atWordBefore (fun named _ => ?_) <| .atWordBefore (fun named followed => ?_) ?_
  · refine (groupingSetList_runs course (by rw [named]; rfl)).bind fun sets j _ laid => ?_
    exact .spanFrom begins (by omega) fun span covers => .pure (.node covers laid.2)
  · refine (groupingSetList_runs course (by rw [named]; rfl)).bind fun sets j _ laid => ?_
    exact .spanFrom begins (by omega) fun span covers => .pure (.node covers laid.2)
  · have followed : (kindAt tokens (i + 1)).endsStatement = false := by
      rw [of_decide_eq_true followed]
      rfl
    refine (groupingSetsMembers_runs course (by rw [named]; rfl) followed).bind
      fun sets j _ laid => ?_
    exact .spanFrom begins (by omega) fun span covers => .pure (.node covers laid.2)
  · exact (groupingSet_runs now course).bind fun set _ _ laid => .pure laid

theorem groupClause_runs (course : phrases.From tokens (i + 1)) :
    Runs tokens i (groupClause phrases)
      fun j clause => Laid tokens i j (Extent.ofGroupBy clause) := by
  refine .here fun start begins => .takeWord ?_ (.pure (.nil (Nat.le_refl i)))
  refine .expectWord (setQuantifier_runs.andThen fun quantifier j past => ?_)
  refine (Runs.commaSeparated fun k further =>
    groupingElement_runs (expression_runs (course.later (by omega)).here)
      (course.later (by omega))).bind fun groupings m _ laid => ?_
  refine .spanFrom begins (by omega) fun span covers => .pure (.node covers ?_)
  rw [Extent.ofExprs_eq_map]
  exact laid.2.mono (by omega) (Nat.le_refl m)

/-! ## Windows -/

theorem boundDirection_runs : Passes tokens i boundDirection :=
  .takeWord (.pure trivial) (.takeWord (.pure trivial) (unexpected_runs _))

theorem frameBound_runs (course : phrases.From tokens i) :
    Runs tokens i (frameBound phrases)
      fun j bound => Laid tokens i j [Extent.ofFrameBound bound] := by
  refine .here fun start begins => .takeWord ?_ (.atWordBefore (fun named followed => ?_) ?_)
  · refine boundDirection_runs.andThen fun kind j past => ?_
    exact .spanFrom begins past fun span covers => .pure (.leaf covers)
  · refine .advance (by rw [named]; rfl)
      (.advance (by rw [of_decide_eq_true followed]; rfl) ?_)
    exact .spanFrom begins (by omega) fun span covers => .pure (.leaf covers)
  · refine (expression_runs course.here).bind fun value j _ laid => ?_
    have some := laid.lt
    refine boundDirection_runs.andThen fun kind m further => ?_
    exact .spanFrom begins (by omega) fun span covers =>
      .pure (.node covers (laid.mono (Nat.le_refl i) further))

theorem frameExclusion_runs : Passes tokens i frameExclusion := by
  refine .look word?_looks ?_
  split
  · next isWord => exact .advanceWord isWord (.expectWord (.pure trivial))
  · next isWord => exact .advanceWord isWord (.pure trivial)
  · next isWord => exact .advanceWord isWord (.pure trivial)
  · next isWord => exact .advanceWord isWord (.expectWord (.pure trivial))
  · exact unexpected_runs _

/-- The extents of the bounds of a frame. -/
def boundExtents : FrameBound × Option FrameBound → List Extent
  | (first, none) => [.ofFrameBound first]
  | (first, some last) => [.ofFrameBound first, .ofFrameBound last]

theorem frameBounds_runs (course : phrases.From tokens i) :
    Runs tokens i (frameBounds phrases) fun j bounds => Laid tokens i j (boundExtents bounds) := by
  refine .takeWord ?_ ((frameBound_runs course).bind fun first _ _ laid => .pure laid)
  refine (frameBound_runs (course.later (by omega))).bind fun first j _ laid => .expectWord ?_
  refine (frameBound_runs (course.later (by omega))).bind fun last m _ laidLast => .pure ?_
  have first := laid.mono (i := i) (by omega) (Nat.le_succ j)
  exact first.append laidLast

theorem optionalExclusion_runs : Passes tokens i optionalExclusion :=
  .takeWord (frameExclusion_runs.andThen fun _ _ _ => .pure trivial) (.pure trivial)

theorem frameUnit_runs : Runs tokens i frameUnit fun j unit => unit.isSome → i < j := by
  refine .takeWord (.pure fun _ => by omega) (.takeWord (.pure fun _ => by omega) ?_)
  exact .takeWord (.pure fun _ => by omega) (.pure (by simp))

theorem frame_runs (course : phrases.From tokens (i + 1)) :
    Runs tokens i (frame phrases) fun j frame => Laid tokens i j (Extent.ofFrameOption frame) := by
  refine .here fun start begins => frameUnit_runs.bind fun unit j past some => ?_
  cases unit with
  | none => exact .pure (.nil past)
  | some unit =>
    have some : i < j := some rfl
    refine (frameBounds_runs (course.later (by omega))).bind fun bounds m _ laid => ?_
    obtain ⟨first, last⟩ := bounds
    refine optionalExclusion_runs.andThen fun exclusion n _ => ?_
    refine .spanFrom begins (by omega) fun span covers => .pure ?_
    have laid : Laid tokens i n (boundExtents (first, last)) := laid.mono past (by omega)
    cases last with
    | none => exact .node covers laid
    | some last => exact .node covers laid

theorem existingWindow_runs : Passes tokens i existingWindow :=
  .look kind_looks (.ite (fun _ => .identifier fun _ => .pure trivial) fun _ => .pure trivial)

theorem partitionBy_runs (course : phrases.From tokens (i + 1)) :
    Runs tokens i (partitionBy phrases) fun j parts => Laid tokens i j (Extent.ofExprs parts) := by
  refine .takeWord (.expectWord ?_) (.pure (.nil (Nat.le_refl i)))
  exact (expressions_runs (course.later (by omega))).mono fun _ _ _ laid =>
    laid.2.mono (by omega) (Nat.le_refl _)

theorem windowSpec_runs (course : phrases.From tokens (i + 1)) :
    Runs tokens i (windowSpec phrases)
      fun j spec => Laid tokens i j [Extent.ofWindowSpec spec] := by
  refine .here fun start begins => .expectSign rfl (existingWindow_runs.andThen fun existing j _ => ?_)
  refine (partitionBy_runs (course.later (by omega))).bind fun parts m _ laidParts => ?_
  refine (orderBy_runs (course.later (by omega))).bind fun keys n _ laidKeys => ?_
  refine (frame_runs (course.later (by omega))).bind fun frame o _ laidFrame => .expectSign rfl ?_
  refine .spanFrom begins (by omega) fun span covers => .pure (.node covers ?_)
  exact ((laidParts.append laidKeys).append laidFrame).mono (by omega) (by omega)

theorem windowDef_runs (course : phrases.From tokens (i + 1)) :
    Runs tokens i (windowDef phrases) fun j window => Laid tokens i j [Extent.ofWindow window] := by
  refine .here fun start begins => .identifier fun name => .expectWord ?_
  refine (windowSpec_runs (course.later (by omega))).bind fun spec j past laid => ?_
  exact .spanFrom begins (by omega) fun span covers =>
    .pure (.node covers (laid.mono (by omega) (Nat.le_refl j)))

theorem windows_runs (course : phrases.From tokens (i + 1)) :
    Runs tokens i (windows phrases) fun j windows => Laid tokens i j (Extent.ofWindows windows) := by
  refine .takeWord ?_ (.pure (.nil (Nat.le_refl i)))
  refine (Runs.commaSeparated fun k past => windowDef_runs (course.later (by omega))).mono ?_
  intro windows j _ laid
  rw [Extent.ofWindows_eq_map]
  exact laid.2.mono (by omega) (Nat.le_refl j)

/-! ## Sources -/

theorem withAlias_runs (begins : Covers tokens a b start) (past : b ≤ i) {relation : Rel}
    (laid : Laid tokens a i [.ofRel relation]) :
    Runs tokens i (withAlias relation start) fun j named => Laid tokens a j [.ofRel named] := by
  refine optionalAlias_runs.bind fun known j further _ => ?_
  have laid : Laid tokens a j [.ofRel relation] := laid.mono (Nat.le_refl a) further
  cases known with
  | none => exact .pure laid
  | some name =>
    refine optionalNames_runs.andThen fun columns m _ => ?_
    exact .spanFrom begins (by omega) fun span covers =>
      .pure (.node covers (laid.mono (Nat.le_refl a) (by omega)))

theorem longerTableQuery_runs (course : phrases.From tokens i) (begins : Covers tokens a b start)
    (past : b ≤ i) {first : Rel} (laid : Laid tokens a i [.ofRel first]) :
    Runs tokens i (longerTableQuery phrases first start)
      fun j relation => Laid tokens a j [.ofRel relation] := by
  refine .ite (fun _ => ?_) fun _ => unexpected_runs _
  have longer {operand : Rel} (laid : Laid tokens a i [.ofRel operand]) :
      Runs tokens i (do let body ← phrases.setOperations operand 0
                        return .query (← queryTail phrases none body start))
        fun j relation => Laid tokens a j [.ofRel relation] := by
    refine (course.here.setOperations a operand 0 laid).bind fun body j further laidBody => ?_
    exact (queryTail_runs (course.later (by omega)) begins (by omega) laidBody).bind
      fun query m _ laidQuery => .pure laidQuery
  cases first with
  | query query => exact longer (operand_laid laid)
  | _ => exact longer laid

theorem enclosedTable_runs (course : phrases.From tokens i) (begins : Covers tokens a b start)
    (past : b ≤ i) (begun : a ≤ i) :
    Runs tokens i (enclosedTable phrases start)
      fun j relation => Laid tokens a j [.ofRel relation] := by
  refine .look startsQuery_looks (.ite (fun _ => ?_) fun _ => ?_)
  · exact course.here.query.bind fun query j _ laid => .pure (laid.mono begun (Nat.le_refl j))
  · refine .look (atSign_looks _) (.ite (fun _ => ?_) fun _ => ?_)
    · refine course.here.tablePrimary.bind fun first j further laid => ?_
      have laid : Laid tokens a j [.ofRel first] := laid.mono begun (Nat.le_refl j)
      refine .look continuesQuery_looks (.ite (fun _ => ?_) fun _ => ?_)
      · exact longerTableQuery_runs (course.later further) begins (by omega) laid
      · exact (course.later further).here.joins a first laid
    · exact course.here.tablePrimary.bind fun first j further laid =>
        (course.later further).here.joins a first (laid.mono begun (Nat.le_refl j))

theorem parenthesizedTable_runs (course : phrases.From tokens (i + 1)) :
    Runs tokens i (parenthesizedTable phrases)
      fun j relation => Laid tokens i j [.ofRel relation] := by
  refine .here fun start begins => .expectSign rfl ?_
  refine (enclosedTable_runs course begins (Nat.le_refl _) (Nat.le_succ i)).bind
    fun relation j _ laid => ?_
  exact .expectSign rfl (.pure (laid.mono (Nat.le_refl i) (Nat.le_succ j)))

theorem namedTable_runs :
    Runs tokens i namedTable fun j relation => Laid tokens i j [.ofRel relation] := by
  refine .here fun start begins => qualifiedName_runs.bind fun name j _ some => ?_
  exact .spanFrom begins some fun span covers => .pure (.leaf covers)

theorem tablePrimary_runs (course : phrases.From tokens (i + 1)) :
    Runs tokens i (tablePrimary phrases) fun j relation => Laid tokens i j [.ofRel relation] := by
  have factor : Runs tokens i (tableFactor phrases)
      fun j relation => Laid tokens i j [.ofRel relation] :=
    .look (atSign_looks _) (.ite (fun _ => (parenthesizedTable_runs course).nested)
      fun _ => namedTable_runs)
  refine .here fun start begins => factor.bind fun relation j _ laid => ?_
  have some := laid.lt
  exact withAlias_runs begins (by omega) laid

theorem joinWords_runs : Passes tokens i joinWords := by
  have outer {kind : JoinKind} (k : Nat) :
      Passes tokens k (do let _ ← takeWord .OUTER; return kind) :=
    .takeWord (.pure trivial) (.pure trivial)
  refine .look word?_looks ?_
  split
  · next isWord => exact .advanceWord isWord (.pure trivial)
  · next isWord => exact .advanceWord isWord (outer _)
  · next isWord => exact .advanceWord isWord (outer _)
  · next isWord => exact .advanceWord isWord (outer _)
  · exact .pure trivial

theorem joinKind_runs : Runs tokens i joinKind fun j _ => i < j :=
  joinWords_runs.andThen fun _ _ _ => .expectWord (.pure (by omega))

theorem joinCondition_runs (course : phrases.From tokens (i + 1)) :
    Runs tokens i (joinCondition phrases)
      fun j condition => Laid tokens i j (Extent.ofCondition condition) := by
  refine .takeWord ?_ (.takeWord ?_ (unexpected_runs _))
  · exact (expression_runs course.here).bind fun condition j _ laid =>
      .pure (laid.mono (Nat.le_succ i) (Nat.le_refl j))
  · exact names_runs.bind fun columns j _ _ => .pure (.nil (by omega))

theorem join_runs (course : phrases.From tokens (i + 1)) {left : Rel}
    (laid : Laid tokens a i [.ofRel left]) :
    Runs tokens i (join phrases left) fun j joined => i < j ∧ Laid tokens a j [.ofRel joined] := by
  obtain ⟨c, d, low, high, covers, tight⟩ := laid.tight
  rw [Extent.span_ofRel] at covers
  have tight : Laid tokens c i [.ofRel left] := tight.mono (Nat.le_refl c) high
  have joined {j : Nat} {span : Span} {below : List Extent} (covers : Covers tokens c j span)
      (laid : Laid tokens c j below) : Laid tokens a j [.node span below] :=
    (Laid.node covers laid).mono low (Nat.le_refl j)
  refine .takeWord (.expectWord ?_) ?_
  · refine (tablePrimary_runs (course.later (by omega))).bind fun right j past laidRight => ?_
    refine .spanFrom covers (by omega) fun span covers => .pure ⟨by omega, joined covers ?_⟩
    exact tight.append (laidRight.mono (by omega) (Nat.le_refl j))
  · refine ((takeWord_runs _).mono fun _ _ _ _ => trivial).andThen fun natural m _ => ?_
    refine joinKind_runs.bind fun kind n _ some => ?_
    refine (tablePrimary_runs (course.later (by omega))).bind fun right j past laidRight => ?_
    refine .ite (fun _ => ?_) fun _ => ?_
    · refine .spanFrom covers (by omega) fun span covers => .pure ⟨by omega, joined covers ?_⟩
      exact tight.append (laidRight.mono (by omega) (Nat.le_refl j))
    · refine ((course.later (by omega)).here.joins n right laidRight).bind
        fun right o further laidRight => ?_
      refine (joinCondition_runs (course.later (by omega))).bind
        fun condition p _ laidCondition => ?_
      refine .spanFrom covers (by omega) fun span covers => .pure ⟨by omega, joined covers ?_⟩
      have operands := tight.append (laidRight.mono (i := i) (by omega) (Nat.le_refl o))
      exact operands.append laidCondition

/-- Each join takes a token, and what it gives lies from its first operand on. -/
theorem joinStep_rounds (course : phrases.From tokens (i + 1)) :
    Rounds tokens i (joinStep phrases) fun j progress => Laid tokens a j [.ofRel progress.1] := by
  rintro k ⟨left, levels⟩ past laid
  have looks : Looks startsJoin isJoinStart := fun _ => rfl
  refine .look looks (.ite (fun _ => .enter ?_) fun _ => .pure ⟨fun _ => laid, by simp⟩)
  refine (join_runs (course.later (by omega)) laid).bind fun joined j _ laidJoin => .pure ⟨by simp, ?_⟩
  rintro more ⟨⟩
  exact laidJoin

theorem joins_runs (course : phrases.From tokens (i + 1)) {left : Rel}
    (laid : Laid tokens a i [.ofRel left]) :
    Runs tokens i (joins phrases left) fun j joined => Laid tokens a j [.ofRel joined] := by
  refine ((joinStep_rounds course).loop laid).bind fun found j _ laid => ?_
  exact .leave (.pure laid)

theorem source_runs (course : phrases.From tokens (i + 1)) :
    Runs tokens i (source phrases) fun j relation => Laid tokens i j [.ofRel relation] :=
  (tablePrimary_runs course).bind fun _ _ past laid =>
    joins_runs (course.later (by omega)) laid

/-! ## Queries -/

theorem target_runs (course : phrases.Course tokens i) :
    Runs tokens i (target phrases) fun j expr => Laid tokens i j [.ofExpr expr] := by
  refine .here fun start begins => (expression_runs course).bind fun expr j _ laid => ?_
  have some := laid.lt
  refine optionalAlias_runs.bind fun known m further _ => ?_
  have laid : Laid tokens i m [.ofExpr expr] := laid.mono (Nat.le_refl i) further
  cases known with
  | none => exact .pure laid
  | some name => exact .spanFrom begins (by omega) fun span covers => .pure (.node covers laid)

theorem sources_runs (course : phrases.From tokens (i + 1)) :
    Runs tokens i (sources phrases) fun j sources => Laid tokens i j (Extent.ofRels sources) := by
  refine .takeWord ?_ (.pure (.nil (Nat.le_refl i)))
  refine (Runs.commaSeparated fun k past => source_runs (course.later (by omega))).mono ?_
  intro sources j _ laid
  rw [Extent.ofRels_eq_map]
  exact laid.2.mono (by omega) (Nat.le_refl j)

theorem select_runs (course : phrases.From tokens (i + 1)) :
    Runs tokens i (select phrases) fun j select => Laid tokens i j [Extent.ofSelect select] := by
  refine .here fun start begins => .expectWord ?_
  refine setQuantifier_runs.andThen fun quantifier j _ => ?_
  refine (Runs.commaSeparated fun k past => target_runs (course.later (by omega)).here).bind
    fun targets m _ laidTargets => ?_
  rw [← Extent.ofExprs_eq_map] at laidTargets
  refine (sources_runs (course.later (by omega))).bind fun sources n _ laidSources => ?_
  refine (optionalClause_runs (course.later (by omega)) _).bind fun selection o _ laidWhere => ?_
  refine (groupClause_runs (course.later (by omega))).bind fun grouping p _ laidGroup => ?_
  refine (optionalClause_runs (course.later (by omega)) _).bind fun having q _ laidHaving => ?_
  refine (windows_runs (course.later (by omega))).bind fun windows r _ laidWindows => ?_
  refine .spanFrom begins (by omega) fun span covers => .pure (.node covers ?_)
  have clauses := ((laidTargets.2.append laidSources).append laidWhere).append laidGroup
  exact ((clauses.append laidHaving).append laidWindows).mono (by omega) (Nat.le_refl r)

theorem values_runs (course : phrases.From tokens (i + 1)) :
    Runs tokens i (values phrases) fun j relation => Laid tokens i j [.ofRel relation] := by
  refine .here fun start begins => .expectWord ?_
  refine (expressions_runs course).bind fun rows j _ laid => ?_
  exact .spanFrom begins (by omega) fun span covers =>
    .pure (.node covers (laid.2.mono (by omega) (Nat.le_refl j)))

theorem wholeTable_runs :
    Runs tokens i wholeTable fun j relation => Laid tokens i j [.ofRel relation] := by
  refine .here fun start begins => .expectWord (qualifiedName_runs.bind fun name j _ some => ?_)
  exact .spanFrom begins (by omega) fun span covers => .pure (.leaf covers)

theorem queryPrimary_runs (course : phrases.From tokens (i + 1)) :
    Runs tokens i (queryPrimary phrases) fun j relation => Laid tokens i j [.ofRel relation] := by
  refine .look kind_looks ?_
  split
  · exact (select_runs course).bind fun select _ _ laid => .pure laid
  · exact values_runs course
  · exact wholeTable_runs
  · exact (parenthesizedQuery_runs course).bind fun query _ _ laid => .pure (operand_laid laid)
  · exact unexpected_runs _

/-- Each set operation takes a token, and what it gives lies from its first operand on. -/
theorem setOperationStep_rounds (course : phrases.From tokens (i + 1)) (least : Nat) :
    Rounds tokens i (setOperationStep phrases least)
      fun j progress => Laid tokens a j [.ofRel progress.1] := by
  rintro k ⟨left, levels⟩ past laid
  refine .look kind_looks ?_
  split
  · exact .pure ⟨fun _ => laid, by simp⟩
  · next op power isOp =>
    refine .ite (fun _ => .pure ⟨fun _ => laid, by simp⟩) fun _ =>
      .enter (.advance (Kind.inner_of_some SetOperator.ofKind? isOp rfl rfl) ?_)
    obtain ⟨c, d, low, high, covers, tight⟩ := laid.tight
    rw [Extent.span_ofRel] at covers
    refine setQuantifier_runs.andThen fun quantifier j _ => ?_
    refine (queryPrimary_runs (course.later (by omega))).bind fun first m _ laidFirst => ?_
    refine ((course.later (by omega)).here.setOperations j first _ laidFirst).bind
      fun right n _ laidRight => ?_
    refine .spanFrom covers (by omega) fun span covers => .pure ⟨by simp, ?_⟩
    rintro more ⟨⟩
    have operands := (tight.mono (j := k) (Nat.le_refl c) high).append
      (laidRight.mono (by omega) (Nat.le_refl n))
    exact ⟨by omega, (Laid.node covers operands).mono low (Nat.le_refl n)⟩

theorem setOperations_runs (course : phrases.From tokens (i + 1)) {left : Rel}
    (laid : Laid tokens a i [.ofRel left]) (least : Nat) :
    Runs tokens i (setOperations phrases left least)
      fun j body => Laid tokens a j [.ofRel body] := by
  refine ((setOperationStep_rounds course least).loop laid).bind
    fun found j _ laid => ?_
  exact .leave (.pure laid)

theorem cte_runs (course : phrases.From tokens (i + 1)) :
    Runs tokens i (cte phrases) fun j cte => Laid tokens i j [Extent.ofCte cte] := by
  refine .here fun start begins => .identifier fun name => ?_
  refine optionalNames_runs.andThen fun columns j _ => .expectWord ?_
  refine (parenthesizedQuery_runs (course.later (by omega))).bind fun query m _ laid => ?_
  exact .spanFrom begins (by omega) fun span covers =>
    .pure (.node covers (laid.mono (by omega) (Nat.le_refl m)))

theorem withClause_runs (course : phrases.From tokens (i + 1)) :
    Runs tokens i (withClause phrases) fun j clause => Laid tokens i j (Extent.ofWith clause) := by
  refine .here fun start begins => .takeWord ?_ (.pure (.nil (Nat.le_refl i)))
  refine ((takeWord_runs _).mono fun _ _ _ _ => trivial).andThen fun recursive j _ => ?_
  refine (Runs.commaSeparated fun k past => cte_runs (course.later (by omega))).bind
    fun ctes m _ laid => ?_
  refine .spanFrom begins (by omega) fun span covers => .pure (.node covers ?_)
  rw [Extent.ofCtes_eq_map]
  exact laid.2.mono (by omega) (Nat.le_refl m)

theorem queryBody_runs (course : phrases.From tokens (i + 1)) :
    Runs tokens i (queryBody phrases) fun j query => Laid tokens i j [.ofQuery query] := by
  refine .here fun start begins => (withClause_runs course).bind fun clause j _ laidWith => ?_
  refine (queryPrimary_runs (course.later (by omega))).bind fun first m _ laidFirst => ?_
  have some := laidFirst.lt
  refine (setOperations_runs (course.later (by omega)) laidFirst 0).bind fun body n _ laidBody => ?_
  exact queryTail_runs (course.later (by omega)) begins (by omega) (laidWith.append laidBody)

theorem query_runs (course : phrases.From tokens (i + 1)) :
    Runs tokens i (query phrases) fun j query => Laid tokens i j [.ofQuery query] :=
  (queryBody_runs course).nested

end Parse

/-! ## The knot -/

namespace Phrases

variable {tokens : List Token} {i : Nat} {phrases : Phrases}

/-- All rules but one ask for phrases at later tokens only. -/
theorem above_course (later : phrases.From tokens (i + 1)) : phrases.above.Course tokens i where
  operand least := Parse.operand_runs later least
  query := Parse.query_runs later
  setOperations _ _ least laid := Parse.setOperations_runs later laid least
  tablePrimary := Parse.tablePrimary_runs later
  joins _ _ laid := Parse.joins_runs later laid

theorem above_fullCourse (now : phrases.Course tokens i) (later : phrases.From tokens (i + 1)) :
    phrases.above.FullCourse tokens i where
  toCourse := above_course later
  groupingElement := Parse.groupingElement_runs (Parse.expression_runs now) later

theorem beyond_course (past : tokens.length ≤ i) : phrases.FullCourse tokens i where
  operand _ := .beyond past
  query := .beyond past
  setOperations _ _ _ _ := .beyond past
  tablePrimary := .beyond past
  joins _ _ _ := .beyond past
  groupingElement := .beyond past

/-- Two levels of recursion for each token that is left are enough, and one more for an element
of `GROUP BY`. -/
theorem within_course (bound i : Nat) :
    (2 * tokens.length < 2 * i + bound → (within bound).Course tokens i) ∧
      (2 * tokens.length + 1 < 2 * i + bound → (within bound).FullCourse tokens i) := by
  induction bound generalizing i with
  | zero =>
    exact ⟨fun enough => (beyond_course (by omega)).toCourse, fun enough => beyond_course (by omega)⟩
  | succ bound ih =>
    have later (enough : 2 * tokens.length < 2 * i + (bound + 1)) :
        (within bound).From tokens (i + 1) :=
      fun k past => (ih k).2 (by omega)
    refine ⟨fun enough => above_course (later enough), fun enough => ?_⟩
    exact above_fullCourse ((ih i).1 (by omega)) (later (by omega))

end Phrases

end CanonicalSql
