import CanonicalSql.Proofs.Distinct.Items

/-!
# Projections told apart

The clauses of a projection come in a fixed order, and so do those of a window. Each may be left
out, and is told by the rank of its keyword: two rows of clauses agree if they agree clause by
clause (`Clauses.append`).
-/
namespace CanonicalSql

/-! ## Clauses in their order -/

/-- Two rows of clauses agree where what follows them has at least the rank `later`. What begins with
either of them has at least the rank `rank`. -/
structure Clauses (rank later : Nat) (row row' : List Kind) (same : Prop) : Prop where
  agree : Agree (Past later) row row' same
  past : ∀ rest, Past later rest → Past rank (row ++ rest)
  past' : ∀ rest, Past later rest → Past rank (row' ++ rest)

namespace Clauses

variable {rank mid later : Nat} {row row' further further' : List Kind} {same more : Prop}

/-- What is before a row of clauses, and ends where clauses of the rank begin, may stand before it. -/
theorem after (first : Agree (Past rank) row row' same)
    (second : Clauses rank later further further' more) :
    Agree (Past later) (row ++ further) (row' ++ further') (same ∧ more) :=
  first.append second.agree second.past second.past'

theorem append (first : Clauses rank mid row row' same)
    (second : Clauses mid later further further' more) :
    Clauses rank later (row ++ further) (row' ++ further') (same ∧ more) where
  agree := second.after first.agree
  past := by
    intro rest isPast
    rw [List.append_assoc]
    exact first.past _ (second.past rest isPast)
  past' := by
    intro rest isPast
    rw [List.append_assoc]
    exact first.past' _ (second.past' rest isPast)

theorem mono {fewer : Nat} {same' : Prop} (clauses : Clauses rank later row row' same)
    (less : fewer ≤ rank) (weaker : same → same') : Clauses fewer later row row' same' where
  agree := clauses.agree.mono (fun _ => id) weaker
  past rest isPast := (clauses.past rest isPast).mono less
  past' rest isPast := (clauses.past' rest isPast).mono less

/-- A clause with a list, left out if the list is empty. -/
theorem list {α β : Type} {pieces : α → List Piece} {view : α → β} {items items' : List α}
    {ends : List Kind → Prop} {word : Keyword} {words : List Keyword}
    (ranked : (Kind.keyword word).rank = rank) (comma : ∀ rest, ends (.symbol .comma :: rest))
    (isEnd : ∀ rest, Past (rank + 1) rest → ends rest)
    (each : ∀ one ∈ items, ∀ other ∈ items',
      Agree ends (Piece.kinds (pieces one)) (Piece.kinds (pieces other)) (view one = view other)) :
    Clauses rank (rank + 1)
      ((Canonical.clause (word :: words) (items.map pieces)).flatMap Piece.kinds)
      ((Canonical.clause (word :: words) (items'.map pieces)).flatMap Piece.kinds)
      (items.map view = items'.map view) := by
  have begins (items : List α) (rest : List Kind) (past : Past (rank + 1) rest) :
      Past rank ((Canonical.clause (word :: words) (items.map pieces)).flatMap Piece.kinds ++
        rest) := by
    cases items with
    | nil => exact past.mono (by omega)
    | cons item items =>
      have isWord : lead ((Canonical.clause (word :: words) ((item :: items).map pieces)).flatMap
          Piece.kinds ++ rest) = .keyword word := by
        simp [Canonical.clause]
      rw [Past, isWord, ranked]
  refine ⟨(clause_agree comma each).mono ?_ id, begins items, begins items'⟩
  intro rest past
  have noWord : lead rest ≠ .keyword word := past.ne (by omega)
  exact ⟨⟨isEnd rest past, past.ne (Nat.succ_pos rank)⟩, noWord⟩

/-- A clause that is left out if its value is absent. -/
theorem option {α β : Type} {text : α → List Kind} {view : α → β} {one other : Option α}
    {word : Keyword} (ranked : (Kind.keyword word).rank = rank)
    (each : ∀ it ∈ one, ∀ it' ∈ other,
      Agree (Past (rank + 1)) (text it) (text it') (view it = view it')) :
    Clauses rank (rank + 1) (one.elim [] fun it => .keyword word :: text it)
      (other.elim [] fun it => .keyword word :: text it) (one.map view = other.map view) := by
  have begins (value : Option α) (rest : List Kind) (past : Past (rank + 1) rest) :
      Past rank ((value.elim [] fun it => .keyword word :: text it) ++ rest) := by
    cases value with
    | none => exact past.mono (by omega)
    | some it => exact Nat.le_of_eq ranked.symm
  refine ⟨(option_agree each).mono ?_ id, begins one, begins other⟩
  intro rest past
  exact ⟨past, past.ne (by omega)⟩

end Clauses

theorem Past.stops {rank : Nat} {rest : List Kind} (past : Past (rank + 1) rest) : Stops rest :=
  .of_quiet past.quiet

namespace Expr

theorem kinds_ofClause (word : Keyword) (expr : Option Expr) :
    (Canonical.ofClause word expr).flatMap Piece.kinds =
      expr.elim [] fun it => .keyword word :: it.tokens := by
  cases expr <;> simp [Canonical.ofClause, tokens]

/-- A clause of a keyword and an expression. -/
theorem clauses {rank : Nat} {word : Keyword} {expr expr' : Option Expr}
    (ranked : (Kind.keyword word).rank = rank) (formed' : OptionFormed expr')
    (distinct : ∀ it ∈ expr, it.Distinct) :
    Clauses rank (rank + 1) ((Canonical.ofClause word expr).flatMap Piece.kinds)
      ((Canonical.ofClause word expr').flatMap Piece.kinds)
      (eraseOption expr = eraseOption expr') := by
  rw [kinds_ofClause, kinds_ofClause, eraseOption_eq_map, eraseOption_eq_map]
  refine .option ranked fun it member it' member' => ?_
  exact (distinct it member it' (optionFormed_iff.mp formed' it' member')).mono
    (fun _ => Past.stops) id

end Expr

namespace SortKey

theorem clauses {keys keys' : List SortKey} (formed' : SortKey.AllFormed keys')
    (distinct : ∀ key ∈ keys, key.expr.Distinct) :
    Clauses 7 8 ((Canonical.clause [.ORDER, .BY] (Canonical.ofSortKeys keys)).flatMap Piece.kinds)
      ((Canonical.clause [.ORDER, .BY] (Canonical.ofSortKeys keys')).flatMap Piece.kinds)
      (SortKey.eraseAll keys = SortKey.eraseAll keys') := by
  rw [Canonical.ofSortKeys_eq_map, Canonical.ofSortKeys_eq_map, eraseAll_eq_map, eraseAll_eq_map]
  have noNulls : ∀ rest, Past 8 rest → lead rest ≠ .keyword .NULLS :=
    fun _ past => past.ne (by decide)
  refine .list rfl (fun _ => ?_) noNulls fun key member key' member' => ?_
  · simp
  · exact agree (allFormed_iff.mp formed' key' member') (distinct key member)

end SortKey

/-! ## Windows -/

theorem Frame.clauses {frame frame' : Option Frame} (formed : Frame.OptionFormed frame)
    (formed' : Frame.OptionFormed frame')
    (distinct : ∀ it ∈ frame, ∀ value ∈ it.start.value, value.Distinct)
    (stopDistinct : ∀ it ∈ frame, ∀ bound ∈ it.stop, ∀ value ∈ bound.value, value.Distinct) :
    Clauses 9 10 ((Canonical.ofFrameOption frame).flatMap Piece.kinds)
      ((Canonical.ofFrameOption frame').flatMap Piece.kinds)
      (Frame.eraseOption frame = Frame.eraseOption frame') := by
  have text (frame : Frame) :
      (Canonical.ofFrameOption (some frame)).flatMap Piece.kinds = frame.tokens := by
    simp [Canonical.ofFrameOption, tokens]
  have begins (frame : Frame) (rest : List Kind) : (lead (frame.tokens ++ rest)).rank = 9 := by
    obtain ⟨unit, start, stop, exclusion, span⟩ := frame
    rw [tokens_eq]
    cases unit <;> rfl
  have past (frame : Option Frame) (rest : List Kind) (isPast : Past 10 rest) :
      Past 9 ((Canonical.ofFrameOption frame).flatMap Piece.kinds ++ rest) := by
    cases frame with
    | none => exact isPast.mono (by omega)
    | some frame =>
      rw [text]
      exact Nat.le_of_eq (begins frame rest).symm
  have noFrame {frame : Frame} {rest : List Kind} (isPast : Past 10 (frame.tokens ++ rest)) :
      False := by
    have isFrame := begins frame rest
    rw [Past] at isPast
    omega
  refine ⟨?_, past frame, past frame'⟩
  cases frame with
  | none =>
    cases frame' with
    | none => exact Agree.nil.mono (fun _ _ => trivial) fun _ => rfl
    | some frame' =>
      rintro _ rest' isPast _ rfl
      rw [text] at isPast
      exact (noFrame isPast).elim
  | some frame =>
    cases frame' with
    | none =>
      rintro rest _ _ isPast rfl
      rw [text] at isPast
      exact (noFrame isPast).elim
    | some frame' =>
      rw [text, text]
      refine (agree formed formed' (distinct frame rfl) (stopDistinct frame rfl)).mono ?_
        (congrArg some)
      exact fun rest isPast => isPast.ne (by decide)

namespace WindowSpec

/-- The tokens of the body of a window definition. -/
abbrev tokens (spec : WindowSpec) : List Kind := Piece.kinds (Canonical.ofWindowSpec spec)

/-- No other body of a window definition is written alike. -/
def Distinct (spec : WindowSpec) : Prop :=
  ∀ other : WindowSpec, other.Formed →
    Agree (fun _ => True) spec.tokens other.tokens (spec.erase = other.erase)

theorem distinct_of {existing : Option Name} {partitionBy : List Expr} {orderBy : List SortKey}
    {frame : Option Frame} {span : Span}
    (formed : Formed ⟨existing, partitionBy, orderBy, frame, span⟩)
    (partitions : ∀ expr ∈ partitionBy, expr.Distinct) (keys : ∀ key ∈ orderBy, key.expr.Distinct)
    (starts : ∀ it ∈ frame, ∀ value ∈ it.start.value, value.Distinct)
    (stops : ∀ it ∈ frame, ∀ bound ∈ it.stop, ∀ value ∈ bound.value, value.Distinct) :
    Distinct ⟨existing, partitionBy, orderBy, frame, span⟩ := by
  intro other formed'
  obtain ⟨existing', partitionBy', orderBy', frame', span'⟩ := other
  have names : Agree (Past 6) (existing.toList.map Kind.identifier)
      (existing'.toList.map Kind.identifier) (existing = existing') :=
    Parse.agree_of_reads 0 0 (fun _ => Parse.existingWindow_reads existing)
      fun _ => Parse.existingWindow_reads existing'
  have partitioned : Clauses 6 7
      ((Canonical.clause [.PARTITION, .BY] (Canonical.ofExprs partitionBy)).flatMap Piece.kinds)
      ((Canonical.clause [.PARTITION, .BY] (Canonical.ofExprs partitionBy')).flatMap Piece.kinds)
      (Expr.eraseAll partitionBy = Expr.eraseAll partitionBy') := by
    rw [Canonical.ofExprs_eq_map, Canonical.ofExprs_eq_map, Expr.eraseAll_eq_map,
      Expr.eraseAll_eq_map]
    refine .list rfl Stops.comma (fun _ => Past.stops) fun expr member expr' member' => ?_
    exact partitions expr member expr' (Expr.allFormed_iff.mp formed'.2.1 expr' member')
  have ordered := SortKey.clauses formed'.2.2.1 keys
  have frames := (Frame.clauses formed.2.2.2 formed'.2.2.2 starts stops).mono
    (by decide : 8 ≤ 9) id
  have inside := ((partitioned.append ordered).append frames).after names
  have text (existing : Option Name) (partitionBy : List Expr) (orderBy : List SortKey)
      (frame : Option Frame) (span : Span) :
      tokens ⟨existing, partitionBy, orderBy, frame, span⟩ = .symbol .leftParen ::
        ((existing.toList.map Kind.identifier ++
          ((Canonical.clause [.PARTITION, .BY] (Canonical.ofExprs partitionBy)).flatMap Piece.kinds ++
            (Canonical.clause [.ORDER, .BY] (Canonical.ofSortKeys orderBy)).flatMap Piece.kinds ++
              (Canonical.ofFrameOption frame).flatMap Piece.kinds)) ++
          [Kind.symbol .rightParen]) := by
    rw [tokens, Parse.kinds_ofWindowSpec]
    simp
  rw [text, text]
  refine (inside.mono (fun _ => Closed.past) ?_).parenthesized
  rintro ⟨rfl, ⟨samePartition, sameOrder⟩, sameFrame⟩
  rw [WindowSpec.erase, WindowSpec.erase, samePartition, sameOrder, sameFrame]

end WindowSpec

theorem WindowDef.clauses {windows windows' : List WindowDef}
    (formed' : WindowDef.AllFormed windows')
    (distinct : ∀ window ∈ windows, window.spec.Distinct) :
    Clauses 5 6 ((Canonical.clause [.WINDOW] (Canonical.ofWindows windows)).flatMap Piece.kinds)
      ((Canonical.clause [.WINDOW] (Canonical.ofWindows windows')).flatMap Piece.kinds)
      (WindowDef.eraseAll windows = WindowDef.eraseAll windows') := by
  rw [Canonical.ofWindows_eq_map, Canonical.ofWindows_eq_map, eraseAll_eq_map, eraseAll_eq_map]
  have always : ∀ rest, Past (5 + 1) rest → (fun _ : List Kind => True) rest := fun _ _ => trivial
  refine .list rfl (fun _ => trivial) always ?_
  intro window member window' member'
  have specs := distinct window member window'.spec (allFormed_iff.mp formed' window' member').2
  have text (window : WindowDef) : Piece.kinds (Canonical.ofWindow window) =
      .identifier window.name :: .keyword .AS :: window.spec.tokens := by
    simp [Canonical.ofWindow]
  rw [text, text]
  refine specs.tail.cons.mono (fun _ => id) ?_
  rintro ⟨sameName, sameSpec⟩
  rw [WindowDef.erase, WindowDef.erase, Kind.identifier.inj sameName, sameSpec]

/-! ## Projections -/

/-- A quantifier, and then a list that does not begin like one. -/
theorem quantified_agree {ends : List Kind → Prop} {list list' : List Kind} {same : Prop}
    (quantifier quantifier' : Option SetQuantifier) (agree : Agree ends list list' same)
    (other : ∀ (mark : SetQuantifier) rest, lead (list ++ rest) ≠ .keyword mark.word)
    (other' : ∀ (mark : SetQuantifier) rest, lead (list' ++ rest) ≠ .keyword mark.word) :
    Agree ends (Piece.kinds (Canonical.ofQuantifier quantifier) ++ list)
      (Piece.kinds (Canonical.ofQuantifier quantifier') ++ list')
      (quantifier = quantifier' ∧ same) :=
  (quantifier_agree quantifier quantifier').append agree
    (fun rest _ => ⟨other .all rest, other .distinct rest⟩)
    fun rest _ => ⟨other' .all rest, other' .distinct rest⟩

theorem GroupClause.clauses {clause clause' : Option GroupClause}
    (formed : GroupClause.OptionFormed clause) (formed' : GroupClause.OptionFormed clause')
    (distinct : ∀ it ∈ clause, ∀ grouping ∈ it.groupings, grouping.DistinctGrouping) :
    Clauses 3 4 ((Canonical.ofGroupBy clause).flatMap Piece.kinds)
      ((Canonical.ofGroupBy clause').flatMap Piece.kinds)
      (GroupClause.eraseOption clause = GroupClause.eraseOption clause') := by
  have text (clause : Option GroupClause) : (Canonical.ofGroupBy clause).flatMap Piece.kinds =
      clause.elim [] fun it => .keyword .GROUP :: .keyword .BY ::
        (Piece.kinds (Canonical.ofQuantifier it.quantifier) ++
          Piece.kinds (Piece.commaSeparated (it.groupings.map Canonical.ofExpr))) := by
    rcases clause with _ | ⟨quantifier, groupings, span⟩
    · rfl
    · rw [Parse.kinds_ofGroupBy, Canonical.ofExprs_eq_map]
      rfl
  have each : ∀ it ∈ clause, ∀ it' ∈ clause', Agree (Past (3 + 1))
      (.keyword .BY :: (Piece.kinds (Canonical.ofQuantifier it.quantifier) ++
        Piece.kinds (Piece.commaSeparated (it.groupings.map Canonical.ofExpr))))
      (.keyword .BY :: (Piece.kinds (Canonical.ofQuantifier it'.quantifier) ++
        Piece.kinds (Piece.commaSeparated (it'.groupings.map Canonical.ofExpr))))
      ((it.quantifier, it.groupings.map Expr.erase) =
        (it'.quantifier, it'.groupings.map Expr.erase)) := by
    rintro ⟨quantifier, groupings, span⟩ rfl ⟨quantifier', groupings', span'⟩ rfl
    have list := list_agree formed.1 formed'.1 Stops.comma fun one member other member' =>
      distinct _ rfl one member other (Expr.allFormed_iff.mp formed'.2 other member')
    have noQuantifier {groupings : List Expr} (nonempty : groupings ≠ [])
        (formed : Expr.AllFormed .grouping groupings) (mark : SetQuantifier) (rest : List Kind) :
        lead (Piece.kinds (Piece.commaSeparated (groupings.map Canonical.ofExpr)) ++ rest) ≠
          .keyword mark.word := by
      obtain ⟨first, others, rfl⟩ := List.exists_cons_of_ne_nil nonempty
      simp only [List.map_cons, Piece.kinds_commaSeparated_cons, List.append_assoc]
      exact Parse.lead_grouping formed.1 _ mark
    have both := quantified_agree quantifier quantifier' list (noQuantifier formed.1 formed.2)
      (noQuantifier formed'.1 formed'.2)
    refine both.tail.mono (fun rest past => ⟨past.stops, past.ne (by decide)⟩) ?_
    rintro ⟨rfl, same⟩
    exact congrArg _ same
  have isRank : (Kind.keyword .GROUP).rank = 3 := rfl
  rw [text, text]
  refine (Clauses.option isRank each).mono (Nat.le_refl 3) fun same => ?_
  cases clause with
  | none =>
    cases clause' with
    | none => rfl
    | some it' => cases same
  | some it =>
    cases clause' with
    | none => cases same
    | some it' =>
      obtain ⟨quantifier, groupings, span⟩ := it
      obtain ⟨quantifier', groupings', span'⟩ := it'
      obtain ⟨rfl, sameGroupings⟩ := Prod.mk.inj (Option.some.inj same)
      simp only [GroupClause.eraseOption, Expr.eraseAll_eq_map] at sameGroupings ⊢
      rw [sameGroupings]

theorem Rel.clauses {rels rels' : List Rel} (formed' : Rel.AllFormed rels')
    (distinct : ∀ rel ∈ rels, rel.DistinctSource) :
    Clauses 1 2 ((Canonical.clause [.FROM] (Canonical.ofSources rels)).flatMap Piece.kinds)
      ((Canonical.clause [.FROM] (Canonical.ofSources rels')).flatMap Piece.kinds)
      (Rel.eraseAll rels = Rel.eraseAll rels') := by
  rw [Canonical.ofSources_eq_map, Canonical.ofSources_eq_map, eraseAll_eq_map, eraseAll_eq_map]
  refine .list rfl EndsSource.comma (fun _ => EndsSource.of_past) fun rel member rel' member' => ?_
  exact distinct rel member rel' (allFormed_iff.mp formed' rel' member')

namespace Select

/-- The tokens of a projection. -/
abbrev tokens (select : Select) : List Kind := Piece.kinds (Canonical.ofSelect select)

/-- No other projection is written alike. -/
def Distinct (select : Select) : Prop :=
  ∀ other : Select, other.Formed →
    Agree (Past 6) select.tokens other.tokens (select.erase = other.erase)

/-- The parts of a projection are told from others of their sort. -/
structure PartsDistinct (select : Select) : Prop where
  targets : ∀ target ∈ select.targets, target.DistinctTarget
  sources : ∀ rel ∈ select.sources, rel.DistinctSource
  selection : ∀ expr ∈ select.selection, expr.Distinct
  groupings : ∀ clause ∈ select.groupBy, ∀ grouping ∈ clause.groupings, grouping.DistinctGrouping
  having : ∀ expr ∈ select.having, expr.Distinct
  windows : ∀ window ∈ select.windows, window.spec.Distinct

theorem distinct_of {select : Select} (formed : select.Formed) (parts : select.PartsDistinct) :
    select.Distinct := by
  obtain ⟨quantifier, targets, sources, selection, groupBy, having, windows, span⟩ := select
  intro other formed'
  obtain ⟨quantifier', targets', sources', selection', groupBy', having', windows', span'⟩ := other
  obtain ⟨nonempty, targetsFormed, -, -, groupFormed, -, -⟩ := formed
  obtain ⟨nonempty', targetsFormed', sourcesFormed', selectionFormed', groupFormed', havingFormed',
    windowsFormed'⟩ := formed'
  have list := list_agree nonempty nonempty' Expr.EndsTarget.comma fun one member other member' =>
    parts.targets one member other (Expr.allFormed_iff.mp targetsFormed' other member')
  have noQuantifier {targets : List Expr} (nonempty : targets ≠ [])
      (formed : Expr.AllFormed .target targets) (mark : SetQuantifier) (rest : List Kind) :
      lead (Piece.kinds (Piece.commaSeparated (targets.map Canonical.ofExpr)) ++ rest) ≠
        .keyword mark.word := by
    obtain ⟨first, others, rfl⟩ := List.exists_cons_of_ne_nil nonempty
    simp only [List.map_cons, Piece.kinds_commaSeparated_cons, List.append_assoc]
    exact Parse.lead_target formed.1 _ mark
  have targetList := (quantified_agree quantifier quantifier' list
    (noQuantifier nonempty targetsFormed) (noQuantifier nonempty' targetsFormed')).mono
      (fun rest (past : Past 1 rest) => ⟨⟨past.stops, past.ne (by decide)⟩, past.ne (by decide)⟩) id
  have isWhere : (Kind.keyword .WHERE).rank = 2 := rfl
  have isHaving : (Kind.keyword .HAVING).rank = 4 := rfl
  have selections := Expr.clauses isWhere selectionFormed' parts.selection
  have havings := Expr.clauses isHaving havingFormed' parts.having
  have groups := GroupClause.clauses groupFormed groupFormed' parts.groupings
  have further := (((Rel.clauses sourcesFormed' parts.sources).append selections).append
    groups).append (havings.append (WindowDef.clauses windowsFormed' parts.windows))
  have text (quantifier : Option SetQuantifier) (targets : List Expr) (sources : List Rel)
      (selection : Option Expr) (groupBy : Option GroupClause) (having : Option Expr)
      (windows : List WindowDef) (span : Span) :
      tokens ⟨quantifier, targets, sources, selection, groupBy, having, windows, span⟩ =
        .keyword .SELECT :: ((Piece.kinds (Canonical.ofQuantifier quantifier) ++
          Piece.kinds (Piece.commaSeparated (targets.map Canonical.ofExpr))) ++
            ((((Canonical.clause [.FROM] (Canonical.ofSources sources)).flatMap Piece.kinds ++
              (Canonical.ofClause .WHERE selection).flatMap Piece.kinds) ++
                (Canonical.ofGroupBy groupBy).flatMap Piece.kinds) ++
                  ((Canonical.ofClause .HAVING having).flatMap Piece.kinds ++
                    (Canonical.clause [.WINDOW] (Canonical.ofWindows windows)).flatMap
                      Piece.kinds))) := by
    rw [tokens, Parse.kinds_ofSelect, Canonical.ofExprs_eq_map]
    simp
  rw [text, text]
  refine (further.after targetList).tail.mono (fun _ => id) ?_
  rintro ⟨⟨rfl, sameTargets⟩, ⟨⟨sameSources, sameSelection⟩, sameGroup⟩, sameHaving, sameWindows⟩
  rw [Select.erase, Select.erase, Expr.eraseAll_eq_map, Expr.eraseAll_eq_map, sameTargets,
    sameSources, sameSelection, sameGroup, sameHaving, sameWindows]

end Select

end CanonicalSql
