import CanonicalSql.Proofs.Distinct.Expr
import CanonicalSql.Proofs.Reading.Query
import CanonicalSql.Proofs.Reading.Window

/-!
# Items of clauses told apart

The rows of what stands in the clauses of a projection, of a query and of a window: targets, sort
keys, grouping elements, and the bounds of frames. Each is told from the others of its sort by what
follows its expressions. A grouping set of one column is written as the column alone; it is told
from a list in parentheses because no comma follows a first operand.
-/
namespace CanonicalSql

namespace Expr

variable {expr other : Expr} {rest rest' : List Kind}

/-! ## Targets -/

/-- What may follow a target: no name is given to it there. -/
structure EndsTarget (rest : List Kind) : Prop extends Stops rest where
  noAs : lead rest ≠ .keyword .AS

theorem EndsTarget.comma (rest : List Kind) : EndsTarget (.symbol .comma :: rest) :=
  ⟨.comma rest, by simp⟩

/-- No other target has a row with which the same text begins. -/
def DistinctTarget (expr : Expr) : Prop :=
  ∀ other : Expr, other.Formed .target →
    Agree EndsTarget expr.tokens other.tokens (expr.erase = other.erase)

theorem tokens_named (name : Name) (expr : Expr) (span : Span) :
    (Expr.named name expr span).tokens = expr.tokens ++ [.keyword .AS, .identifier name] := by
  simp [tokens, Canonical.ofExpr]

theorem stops_as (rest : List Kind) : Stops (.keyword .AS :: rest) := .of_quiet rfl

theorem Distinct.target (distinct : expr.Distinct) : expr.DistinctTarget := by
  intro other formed' rest rest' ends ends' eq
  cases other with
  | named name inner span =>
    rw [tokens_named, List.append_assoc] at eq
    obtain ⟨-, rfl⟩ := distinct inner formed'.2.2 ends.toStops (stops_as _) eq
    exact absurd rfl ends.noAs
  | _ =>
    exact distinct _ (value_of_target formed' (by simp)) ends.toStops ends'.toStops eq

theorem named_distinctTarget {name : Name} {span : Span} (distinct : expr.Distinct) :
    (Expr.named name expr span).DistinctTarget := by
  intro other formed' rest rest' ends ends' eq
  rw [tokens_named, List.append_assoc] at eq
  have noValue : other.Formed .value → False := by
    intro formed
    obtain ⟨-, rfl⟩ := distinct other formed (stops_as _) ends'.toStops eq
    exact absurd rfl ends'.noAs
  cases other with
  | named name' inner span' =>
    rw [tokens_named, List.append_assoc] at eq
    obtain ⟨same, left⟩ := distinct inner formed'.2.2 (stops_as _) (stops_as _) eq
    cases left
    exact ⟨by rw [erase, erase, same], rfl⟩
  | _ => exact (noValue (value_of_target formed' (by simp))).elim

end Expr

/-! ## Sort keys -/

/-- The tokens of a sort key. -/
abbrev SortKey.tokens (key : SortKey) : List Kind := Piece.kinds (Canonical.ofSortKey key)

theorem SortKey.agree {key key' : SortKey} (formed' : key'.Formed) (distinct : key.expr.Distinct) :
    Agree (fun rest => lead rest ≠ .keyword .NULLS) key.tokens key'.tokens
      (key.erase = key'.erase) := by
  obtain ⟨expr, order, nulls, span⟩ := key
  obtain ⟨expr', order', nulls', span'⟩ := key'
  have orders : Agree (fun _ => True) [Kind.keyword order.word] [.keyword order'.word]
      (order = order') := by
    refine (Agree.token _ _).mono (fun _ => id) fun same => ?_
    cases order <;> cases order' <;> first | rfl | cases same
  have nullOrders : Agree (fun rest => lead rest ≠ .keyword .NULLS)
      (Piece.kinds (Canonical.ofNullOrder nulls)) (Piece.kinds (Canonical.ofNullOrder nulls'))
      (nulls = nulls') := by
    intro rest rest' noNulls noNulls' eq
    cases nulls <;> cases nulls'
    all_goals first
      | exact ⟨rfl, eq⟩
      | cases eq
        exact ⟨rfl, rfl⟩
      | exact absurd (congrArg lead eq) noNulls
      | exact absurd (congrArg lead eq).symm noNulls'
      | cases eq
  have text (expr : Expr) (order : SortOrder) (nulls : NullOrder) (span : Span) :
      SortKey.tokens ⟨expr, order, nulls, span⟩ =
        expr.tokens ++
          ([Kind.keyword order.word] ++ Piece.kinds (Canonical.ofNullOrder nulls)) := by
    simp [tokens, Expr.tokens, Canonical.ofSortKey]
  have stops (order : SortOrder) (more rest : List Kind) :
      Stops (([Kind.keyword order.word] ++ more) ++ rest) := by
    cases order <;> exact .of_quiet rfl
  rw [text, text]
  refine ((distinct expr' formed').append (orders.append nullOrders (fun _ _ => trivial)
    fun _ _ => trivial) (fun rest _ => stops order _ rest) fun rest _ => stops order' _ rest).mono
    (fun _ => id) ?_
  rintro ⟨same, rfl, rfl⟩
  rw [SortKey.erase, SortKey.erase, same]

/-! ## Grouping sets -/

theorem Expr.Follows.noComma {expr first : Expr} {more : List Kind} (follows : expr.Follows first more)
    (rest : List Kind) : lead (more ++ rest) ≠ .symbol .comma := by
  cases follows with
  | binary _ op right span => cases op <;> simp [BinaryOp.kind]
  | _ => simp

/-- A query begins with a word of its own or with a parenthesis. -/
theorem Query.lead_ne {query : Query} (formed : query.Formed) (rest : List Kind) {kind : Kind}
    (noStart : Parse.isQueryStart kind = false) (noParen : kind ≠ .symbol .leftParen) :
    lead (query.tokens ++ rest) ≠ kind := by
  rintro rfl
  cases enclosed : query.beginsEnclosed with
  | false =>
    rw [Query.starts formed enclosed] at noStart
    cases noStart
  | true =>
    rw [Query.tokens_enclosed formed enclosed] at noParen
    exact noParen rfl

/-- A value and what a query begins with are the same group, if the same text begins with both. The
value is followed there by what goes on with the query. -/
theorem Expr.goesOn_of_query {expr : Expr} {query : Query} {rest rest' : List Kind}
    (formed : expr.Formed .value) (queryFormed : query.Formed) (more : ¬ query.Wraps)
    (eq : expr.tokens ++ rest = query.tokens ++ rest') :
    Parse.isQueryNext (lead rest) = true := by
  cases enclosed : query.beginsEnclosed with
  | false =>
    have starts := Query.starts queryFormed enclosed rest'
    rw [← eq, Expr.noQuery formed] at starts
    cases starts
  | true =>
    have isEnclosed : query.body.firstOperand.isEnclosed = true := by
      simp only [Query.beginsEnclosed, Bool.and_eq_true, Rel.beginsEnclosed_eq] at enclosed
      exact enclosed.2
    have same : rest = query.furtherTokens ++ rest' := by
      refine Expr.rest_eq_of_enclosed formed isEnclosed ?_
      rw [Rel.tokens_enclosed isEnclosed, eq, Query.tokens_enclosed queryFormed enclosed]
      simp
    rw [same]
    exact Query.goesOn enclosed more rest'

namespace GroupingSet

/-- The tokens of a grouping set. -/
abbrev tokens (set : GroupingSet) : List Kind := Piece.kinds (Canonical.ofGroupingSet set)

/-- The tokens of a list of columns, between parentheses. -/
def listTokens (columns : List Expr) : List Kind :=
  .symbol .leftParen :: (Piece.kinds (Piece.commaSeparated (columns.map Canonical.ofExpr)) ++
    [.symbol .rightParen])

theorem tokens_single (column : Expr) (span : Span) :
    tokens ⟨[column], span⟩ = column.tokens := by
  simp [tokens, Canonical.ofGroupingSet, Canonical.ofExprs, Canonical.ofGrouping]

theorem tokens_list {columns : List Expr} (span : Span) (other : columns.length ≠ 1) :
    tokens ⟨columns, span⟩ = listTokens columns := by
  rw [tokens, Canonical.ofGroupingSet, Canonical.ofExprs_eq_map, Canonical.ofGrouping]
  · simp [listTokens]
  · intro row isRow
    exact other (by simpa using congrArg List.length isRow)

/-- A column alone is no list between parentheses: no comma follows the first operand of an
operator, and none follows what a query begins with. -/
theorem single_ne_list {column : Expr} {columns : List Expr} {rest rest' : List Kind}
    (formed : column.Formed .value) (allFormed : ∀ it ∈ columns, it.Formed .value)
    (several : columns.length ≠ 1)
    (told : ∀ first more, column.Follows first more → ∀ it ∈ columns,
      Agree Stops first.tokens it.tokens True) :
    column.tokens ++ rest ≠ listTokens columns ++ rest' := by
  intro eq
  obtain ⟨row, nests, isGroup⟩ := Expr.exists_group formed rest (by rw [eq]; rfl)
  cases columns with
  | nil =>
    -- no column is empty, whatever its parenthesis encloses
    rcases Expr.encloses_or formed with ⟨row, encloses⟩ | ⟨query, span, rfl⟩ | noGroup
    · rw [encloses.tokens_eq] at eq
      refine encloses.lead_ne_rightParen formed (.symbol .rightParen :: rest) ?_
      simpa [listTokens] using congrArg lead (List.cons.inj eq).2
    · have inside : query.tokens ++ .symbol .rightParen :: rest = .symbol .rightParen :: rest' := by
        simpa [listTokens, Expr.tokens, Canonical.ofExpr] using eq
      exact Query.lead_ne formed.2.1 _ rfl (by simp) (congrArg lead inside)
    · exact noGroup rest (congrArg lead eq)
  | cons first others =>
    obtain ⟨second, others, rfl⟩ : ∃ second more, others = second :: more :=
      List.exists_cons_of_ne_nil fun none => several (by rw [none]; rfl)
    have firstFormed := allFormed first List.mem_cons_self
    have list : listTokens (first :: second :: others) ++ rest' = .symbol .leftParen ::
        (first.tokens ++ .symbol .comma :: (second.tokens ++
          Parse.commaRows ((others.map Canonical.ofExpr).map Piece.kinds) ++
            .symbol .rightParen :: rest')) := by
      simp [listTokens, Parse.commaRows]
    rw [list] at eq
    rcases Expr.encloses_or formed with ⟨row, encloses⟩ | ⟨query, span, rfl⟩ | noGroup
    · rw [encloses.tokens_eq, List.cons_append, List.append_assoc] at eq
      have eq := (List.cons.inj eq).2
      cases encloses with
      | unary op operand span =>
        refine Expr.lead_ne firstFormed _ ?_ ?_ (congrArg lead eq).symm
        · cases op <;> rfl
        · cases op <;> simp [UnaryOp.kind]
      | existence | uniqueness => exact Expr.lead_ne firstFormed _ rfl (by simp) (congrArg lead eq).symm
      | @after _ operand more follows =>
        rw [List.append_assoc] at eq
        have left := (told operand more follows first List.mem_cons_self (follows.stops _)
          (.comma _) eq).2
        exact follows.noComma _ (congrArg lead left)
    · have inside : first.tokens ++ .symbol .comma :: (second.tokens ++
          Parse.commaRows ((others.map Canonical.ofExpr).map Piece.kinds) ++
            .symbol .rightParen :: rest') = query.tokens ++ .symbol .rightParen :: rest := by
        have text : (Expr.subquery query span).tokens ++ rest =
            .symbol .leftParen :: (query.tokens ++ .symbol .rightParen :: rest) := by
          simp [Expr.tokens, Canonical.ofExpr]
        rw [text] at eq
        exact (List.cons.inj eq).2.symm
      have goesOn := Expr.goesOn_of_query firstFormed formed.2.1 formed.2.2 inside
      cases goesOn
    · exact noGroup rest (congrArg lead eq)

/-- Grouping sets are told from each other if their columns are. -/
theorem agree {set set' : GroupingSet} (formed : set.Formed) (formed' : set'.Formed)
    (told : ∀ column ∈ set.columns, column.Told) :
    Agree Stops set.tokens set'.tokens (set.erase = set'.erase) := by
  obtain ⟨columns, span⟩ := set
  obtain ⟨columns', span'⟩ := set'
  have allFormed := Expr.allFormed_iff.mp formed
  have allFormed' := Expr.allFormed_iff.mp formed'
  rw [GroupingSet.erase, GroupingSet.erase, Expr.eraseAll_eq_map, Expr.eraseAll_eq_map]
  -- only a single column stands without the parentheses of the list
  by_cases single : columns.length = 1
  · obtain ⟨column, rfl⟩ := List.length_eq_one_iff.mp single
    have columnFormed := allFormed column List.mem_cons_self
    have columnTold := told column List.mem_cons_self
    rw [tokens_single]
    by_cases single' : columns'.length = 1
    · obtain ⟨column', rfl⟩ := List.length_eq_one_iff.mp single'
      rw [tokens_single]
      refine (columnTold.distinct column' (allFormed' column' List.mem_cons_self)).mono
        (fun _ => id) fun same => ?_
      rw [List.map_singleton, List.map_singleton, same]
    · rw [tokens_list span' single']
      intro rest rest' _ _ eq
      refine absurd eq (single_ne_list columnFormed allFormed' single' ?_)
      intro first more follows it member
      exact (columnTold.first follows it (allFormed' it member)).mono (fun _ => id) fun _ => trivial
  · rw [tokens_list span single]
    by_cases single' : columns'.length = 1
    · obtain ⟨column', rfl⟩ := List.length_eq_one_iff.mp single'
      have columnFormed := allFormed' column' List.mem_cons_self
      rw [tokens_single]
      intro rest rest' _ _ eq
      refine absurd eq.symm (single_ne_list columnFormed allFormed single ?_)
      intro first more follows it member
      exact ((told it member).distinct first (follows.first_formed columnFormed)).symm.mono
        (fun _ => id) fun _ => trivial
    · rw [tokens_list span' single']
      have list := Expr.closedList_agree allFormed allFormed' fun one member => (told one member).distinct
      refine list.parenthesized.mono (fun _ => id) fun same => ?_
      rw [same]

/-- Lists of grouping sets up to a closing parenthesis. -/
theorem list_agree {sets sets' : List GroupingSet} (nonempty : sets ≠ []) (nonempty' : sets' ≠ [])
    (formed : GroupingSet.AllFormed sets) (formed' : GroupingSet.AllFormed sets')
    (told : ∀ set ∈ sets, ∀ column ∈ set.columns, column.Told) :
    Agree Closed (Piece.kinds (Piece.commaSeparated (Canonical.ofGroupingSets sets)))
      (Piece.kinds (Piece.commaSeparated (Canonical.ofGroupingSets sets')))
      (GroupingSet.eraseAll sets = GroupingSet.eraseAll sets') := by
  rw [Canonical.ofGroupingSets_eq_map, Canonical.ofGroupingSets_eq_map, eraseAll_eq_map,
    eraseAll_eq_map]
  refine (CanonicalSql.list_agree nonempty nonempty' Stops.comma ?_).mono ?_ id
  · intro set member set' member'
    exact agree (allFormed_iff.mp formed set member) (allFormed_iff.mp formed' set' member')
      (told set member)
  · intro rest closed
    exact ⟨closed.stops, by rw [closed]; simp⟩

end GroupingSet

/-! ## Grouping elements -/

namespace Expr

variable {expr other : Expr}

/-- No other grouping element has a row with which the same text begins. -/
def DistinctGrouping (expr : Expr) : Prop :=
  ∀ other : Expr, other.Formed .grouping →
    Agree Stops expr.tokens other.tokens (expr.erase = other.erase)

/-- What stands in `GROUP BY`. -/
inductive Grouping : Expr → Prop
  | set {set : GroupingSet} (formed : set.Formed) : Grouping (.groupingSet set)
  | sets {sets : List Expr} {span : Span} (nonempty : sets ≠ [])
    (formed : Expr.AllFormed .grouping sets) : Grouping (.groupingSets sets span)
  | rollup {sets : List GroupingSet} {span : Span} (nonempty : sets ≠ [])
    (formed : GroupingSet.AllFormed sets) : Grouping (.rollup sets span)
  | cube {sets : List GroupingSet} {span : Span} (nonempty : sets ≠ [])
    (formed : GroupingSet.AllFormed sets) : Grouping (.cube sets span)

theorem grouping_of_formed (formed : expr.Formed .grouping) : expr.Grouping := by
  cases expr with
  | groupingSet set => exact .set formed.2
  | groupingSets sets span => exact .sets formed.2.1 formed.2.2
  | rollup sets span => exact .rollup formed.2.1 formed.2.2
  | cube sets span => exact .cube formed.2.1 formed.2.2
  | sortKey key => exact formed.elim
  | named name inner span => cases formed.1
  | truth | null => exact absurd rfl formed
  | _ => exact absurd rfl formed.1

theorem tokens_groupingSets (sets : List Expr) (span : Span) :
    (Expr.groupingSets sets span).tokens = .keyword .GROUPING :: .keyword .SETS ::
      .symbol .leftParen :: (Piece.kinds (Piece.commaSeparated (sets.map Canonical.ofExpr)) ++
        [.symbol .rightParen]) := by
  simp [tokens, Canonical.ofExpr, Canonical.ofExprs_eq_map]

theorem tokens_rollup (sets : List GroupingSet) (span : Span) :
    (Expr.rollup sets span).tokens = .keyword .ROLLUP :: .symbol .leftParen ::
      (Piece.kinds (Piece.commaSeparated (Canonical.ofGroupingSets sets)) ++
        [.symbol .rightParen]) := by
  simp [tokens, Canonical.ofExpr]

theorem tokens_cube (sets : List GroupingSet) (span : Span) :
    (Expr.cube sets span).tokens = .keyword .CUBE :: .symbol .leftParen ::
      (Piece.kinds (Piece.commaSeparated (Canonical.ofGroupingSets sets)) ++
        [.symbol .rightParen]) := by
  simp [tokens, Canonical.ofExpr]

theorem groupingSet_distinct {set : GroupingSet} (formed : set.Formed)
    (told : ∀ column ∈ set.columns, column.Told) : (Expr.groupingSet set).DistinctGrouping := by
  intro other formed'
  cases grouping_of_formed formed' with
  | set inner =>
    refine (GroupingSet.agree formed inner told).mono (fun _ => id) fun same => ?_
    rw [erase, erase, same]
  | sets =>
    refine .of_lead fun rest rest' => ?_
    rw [tokens_groupingSets]
    exact Parse.lead_groupingSet formed rest rfl (by simp)
  | rollup =>
    refine .of_lead fun rest rest' => ?_
    rw [tokens_rollup]
    exact Parse.lead_groupingSet formed rest rfl (by simp)
  | cube =>
    refine .of_lead fun rest rest' => ?_
    rw [tokens_cube]
    exact Parse.lead_groupingSet formed rest rfl (by simp)

theorem groupingSets_distinct {sets : List Expr} {span : Span} (nonempty : sets ≠ [])
    (distinct : ∀ set ∈ sets, set.DistinctGrouping) :
    (Expr.groupingSets sets span).DistinctGrouping := by
  intro other formed'
  rw [tokens_groupingSets]
  cases grouping_of_formed formed' with
  | set inner =>
    exact .of_lead fun rest rest' => (Parse.lead_groupingSet inner rest' rfl (by simp)).symm
  | @sets sets' span' nonempty' inner =>
    have list : Agree Closed (Piece.kinds (Piece.commaSeparated (sets.map Canonical.ofExpr)))
        (Piece.kinds (Piece.commaSeparated (sets'.map Canonical.ofExpr)))
        (sets.map erase = sets'.map erase) := by
      refine (list_agree nonempty nonempty' Stops.comma ?_).mono ?_ id
      · intro set member set' member'
        exact distinct set member set' (allFormed_iff.mp inner set' member')
      · intro rest closed
        exact ⟨closed.stops, by rw [closed]; simp⟩
    rw [tokens_groupingSets]
    refine list.parenthesized.tail.tail.mono (fun _ => id) fun same => ?_
    rw [erase, erase, eraseAll_eq_map, eraseAll_eq_map, same]
  | rollup | cube => exact .of_lead fun rest rest' => nofun

theorem rollup_distinct {sets : List GroupingSet} {span : Span} (nonempty : sets ≠ [])
    (formed : GroupingSet.AllFormed sets)
    (told : ∀ set ∈ sets, ∀ column ∈ set.columns, column.Told) :
    (Expr.rollup sets span).DistinctGrouping := by
  intro other formed'
  rw [tokens_rollup]
  cases grouping_of_formed formed' with
  | set inner =>
    exact .of_lead fun rest rest' => (Parse.lead_groupingSet inner rest' rfl (by simp)).symm
  | rollup nonempty' inner =>
    rw [tokens_rollup]
    have list := GroupingSet.list_agree nonempty nonempty' formed inner told
    refine list.parenthesized.tail.mono (fun _ => id) fun same => ?_
    rw [erase, erase, same]
  | sets | cube => exact .of_lead fun rest rest' => nofun

theorem cube_distinct {sets : List GroupingSet} {span : Span} (nonempty : sets ≠ [])
    (formed : GroupingSet.AllFormed sets)
    (told : ∀ set ∈ sets, ∀ column ∈ set.columns, column.Told) :
    (Expr.cube sets span).DistinctGrouping := by
  intro other formed'
  rw [tokens_cube]
  cases grouping_of_formed formed' with
  | set inner =>
    exact .of_lead fun rest rest' => (Parse.lead_groupingSet inner rest' rfl (by simp)).symm
  | cube nonempty' inner =>
    rw [tokens_cube]
    have list := GroupingSet.list_agree nonempty nonempty' formed inner told
    refine list.parenthesized.tail.mono (fun _ => id) fun same => ?_
    rw [erase, erase, same]
  | sets | rollup => exact .of_lead fun rest rest' => nofun

end Expr

/-! ## Frames -/

theorem distance_lead_ne {value : Option Expr} (formed : Expr.OptionFormed value)
    (rest : List Kind) {kind : Kind} (closed : kind.opensValue = false)
    (noRow : kind ≠ .keyword .ROW) (noWord : kind ≠ .keyword .UNBOUNDED) :
    lead (Piece.kinds (Canonical.ofDistance value) ++ rest) ≠ kind := by
  cases value with
  | none => exact noWord.symm
  | some value => exact Expr.lead_ne formed rest closed noRow

/-- The tokens of the distance of a frame bound. -/
theorem distance_agree {value value' : Option Expr} (formed : Expr.OptionFormed value)
    (formed' : Expr.OptionFormed value') (distinct : ∀ it ∈ value, it.Distinct) :
    Agree Stops (Piece.kinds (Canonical.ofDistance value)) (Piece.kinds (Canonical.ofDistance value'))
      (Expr.eraseOption value = Expr.eraseOption value') := by
  have unbounded {value : Expr} (formed : value.Formed .value) (rest : List Kind) :
      lead (value.tokens ++ rest) ≠ .keyword .UNBOUNDED :=
    Expr.lead_ne formed rest rfl (by simp)
  cases value with
  | none =>
    cases value' with
    | none => exact (Agree.token _ _).mono (fun _ => id) fun _ => rfl
    | some value' => exact .of_lead fun _ rest' => (unbounded formed' rest').symm
  | some value =>
    cases value' with
    | none => exact .of_lead fun rest _ => unbounded formed rest
    | some value' => exact (distinct value rfl value' formed').mono (fun _ => id) (congrArg some)

namespace FrameBound

/-- The tokens of a frame bound. -/
abbrev tokens (bound : FrameBound) : List Kind := Piece.kinds (Canonical.ofFrameBound bound)

theorem tokens_preceding (value : Option Expr) (span : Span) :
    tokens ⟨.preceding, value, span⟩ =
      Piece.kinds (Canonical.ofDistance value) ++ [.keyword .PRECEDING] := by
  simp [tokens, Canonical.ofFrameBound]

theorem tokens_following (value : Option Expr) (span : Span) :
    tokens ⟨.following, value, span⟩ =
      Piece.kinds (Canonical.ofDistance value) ++ [.keyword .FOLLOWING] := by
  simp [tokens, Canonical.ofFrameBound]

theorem agree {bound bound' : FrameBound} (formed : bound.Formed) (formed' : bound'.Formed)
    (distinct : ∀ it ∈ bound.value, it.Distinct) :
    Agree (fun _ => True) bound.tokens bound'.tokens (bound.erase = bound'.erase) := by
  obtain ⟨direction, value, span⟩ := bound
  obtain ⟨direction', value', span'⟩ := bound'
  have distances (word word' : Keyword) (quiet : (Kind.keyword word).isQuiet = true)
      (quiet' : (Kind.keyword word').isQuiet = true) :
      Agree (fun _ => True) (Piece.kinds (Canonical.ofDistance value) ++ [Kind.keyword word])
        (Piece.kinds (Canonical.ofDistance value') ++ [Kind.keyword word'])
        (Expr.eraseOption value = Expr.eraseOption value' ∧ Kind.keyword word = .keyword word') :=
    (distance_agree formed.1 formed'.1 distinct).append (.token _ _)
      (fun _ _ => .of_quiet quiet) fun _ _ => .of_quiet quiet'
  have absent {value : Option Expr} {span : Span} (formed : Formed ⟨.currentRow, value, span⟩) :
      value = none := formed.2 rfl
  have current {value value' : Option Expr} {span : Span}
      (formed : Expr.OptionFormed value) (word : Keyword) :
      Agree (fun _ => True) (tokens ⟨.currentRow, value', span⟩)
        (Piece.kinds (Canonical.ofDistance value) ++ [Kind.keyword word]) False := by
    refine .of_lead fun rest rest' => ?_
    have other : lead (Piece.kinds (Canonical.ofDistance value) ++ (.keyword word :: rest')) ≠
        .keyword .CURRENT :=
      distance_lead_ne formed _ rfl (by simp) (by simp)
    rw [List.append_assoc]
    exact other.symm
  rw [FrameBound.erase, FrameBound.erase]
  cases direction with
  | currentRow =>
    cases direction' with
    | currentRow =>
      obtain rfl := absent formed
      obtain rfl := absent formed'
      exact Agree.nil.tail.tail.mono (fun _ => id) fun _ => rfl
    | preceding =>
      rw [tokens_preceding]
      exact (current formed'.1 .PRECEDING).mono (fun _ => id) False.elim
    | following =>
      rw [tokens_following]
      exact (current formed'.1 .FOLLOWING).mono (fun _ => id) False.elim
  | preceding =>
    rw [tokens_preceding]
    cases direction' with
    | currentRow => exact (current formed.1 .PRECEDING).symm.mono (fun _ => id) False.elim
    | preceding =>
      rw [tokens_preceding]
      refine (distances .PRECEDING .PRECEDING rfl rfl).mono (fun _ => id) fun same => ?_
      rw [same.1]
    | following =>
      rw [tokens_following]
      exact (distances .PRECEDING .FOLLOWING rfl rfl).mono (fun _ => id) (by simp)
  | following =>
    rw [tokens_following]
    cases direction' with
    | currentRow => exact (current formed.1 .FOLLOWING).symm.mono (fun _ => id) False.elim
    | preceding =>
      rw [tokens_preceding]
      exact (distances .FOLLOWING .PRECEDING rfl rfl).mono (fun _ => id) (by simp)
    | following =>
      rw [tokens_following]
      refine (distances .FOLLOWING .FOLLOWING rfl rfl).mono (fun _ => id) fun same => ?_
      rw [same.1]

end FrameBound

namespace Frame

/-- The tokens of a window frame. -/
abbrev tokens (frame : Frame) : List Kind := Piece.kinds (Canonical.ofFrame frame)

open Parse (boundTokens)

theorem tokens_eq (unit : FrameUnit) (start : FrameBound) (stop : Option FrameBound)
    (exclusion : Option FrameExclusion) (span : Span) :
    tokens ⟨unit, start, stop, exclusion, span⟩ = .keyword unit.word ::
      (boundTokens start stop ++ Piece.kinds (Canonical.ofExclusion exclusion)) := by
  cases stop <;> simp [tokens, boundTokens, Canonical.ofFrame]

theorem bounds_agree {start start' : FrameBound} {stop stop' : Option FrameBound}
    (formed : start.Formed) (formed' : start'.Formed) (stopFormed : FrameBound.OptionFormed stop)
    (stopFormed' : FrameBound.OptionFormed stop') (distinct : ∀ it ∈ start.value, it.Distinct)
    (stopDistinct : ∀ bound ∈ stop, ∀ it ∈ bound.value, it.Distinct) :
    Agree (fun _ => True) (boundTokens start stop) (boundTokens start' stop')
      (start.erase = start'.erase ∧
        FrameBound.eraseOption stop = FrameBound.eraseOption stop') := by
  have first := FrameBound.agree formed formed' distinct
  have single {start : FrameBound} (formed : start.Formed) (rest : List Kind) :
      lead (start.tokens ++ rest) ≠ .keyword .BETWEEN :=
    Parse.lead_frameBound formed rest
  cases stop with
  | none =>
    cases stop' with
    | none => exact first.mono (fun _ => id) fun same => ⟨same, rfl⟩
    | some stop' => exact .of_lead fun rest _ => single formed rest
  | some stop =>
    cases stop' with
    | none => exact .of_lead fun _ rest' => (single formed' rest').symm
    | some stop' =>
      have second := FrameBound.agree stopFormed stopFormed' (stopDistinct stop rfl)
      refine (first.append second.tail (fun _ _ => trivial) fun _ _ => trivial).tail.mono
        (fun _ => id) ?_
      rintro ⟨sameStart, sameStop⟩
      exact ⟨sameStart, congrArg some sameStop⟩

theorem agree {frame frame' : Frame} (formed : frame.Formed) (formed' : frame'.Formed)
    (distinct : ∀ it ∈ frame.start.value, it.Distinct)
    (stopDistinct : ∀ bound ∈ frame.stop, ∀ it ∈ bound.value, it.Distinct) :
    Agree (fun rest => lead rest ≠ .keyword .EXCLUDE) frame.tokens frame'.tokens
      (frame.erase = frame'.erase) := by
  obtain ⟨unit, start, stop, exclusion, span⟩ := frame
  obtain ⟨unit', start', stop', exclusion', span'⟩ := frame'
  have exclusions := Parse.agree_of_reads 0 0
    (fun _ => Parse.optionalExclusion_reads exclusion) fun _ =>
      Parse.optionalExclusion_reads exclusion'
  have bounds := bounds_agree formed.1 formed'.1 formed.2 formed'.2 distinct stopDistinct
  rw [tokens_eq, tokens_eq, erase, erase]
  refine (bounds.append exclusions (fun _ _ => trivial) fun _ _ => trivial).cons.mono
    (fun _ => id) ?_
  rintro ⟨isUnit, ⟨sameStart, sameStop⟩, sameExclusion⟩
  have sameUnit : unit = unit' := by cases unit <;> cases unit' <;> first | rfl | cases isUnit
  rw [sameUnit, sameStart, sameStop, sameExclusion]

end Frame

end CanonicalSql
