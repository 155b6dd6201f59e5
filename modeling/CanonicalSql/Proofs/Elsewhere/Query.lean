import CanonicalSql.Proofs.Elsewhere.Expr
import CanonicalSql.Proofs.Reading.Source

/-!
# Queries elsewhere

The rules of grouping, windows, sources and queries, and with them all levels of the recursive
rules (`Phrases.within_repeats`).
-/
namespace CanonicalSql

/-- What is the same as a query in the place of a relation is one. -/
theorem Rel.eq_query {query : Query} {rel : Rel} (same : rel.erase = (Rel.query query).erase) :
    ∃ query', rel = .query query' ∧ query'.erase = query.erase := by
  cases rel with
  | query query' => exact ⟨query', rfl, Rel.query.inj same⟩
  | _ => cases same

/-- What goes on with no expression at all begins with no operator. -/
theorem Closes.ahead_eq_none {kinds : List Kind} (closes : Closes 0 kinds) :
    Power.ahead kinds = none := by
  cases isAhead : Power.ahead kinds with
  | none => rfl
  | some power => exact absurd (closes.power power isAhead) (Nat.not_lt_zero _)

theorem SetOperator.power_lt {kind : Kind} {op : SetOperator} {power : Power}
    (isOperator : SetOperator.ofKind? kind = some (op, power)) : power.left < power.right := by
  unfold SetOperator.ofKind? at isOperator
  split at isOperator <;> cases isOperator <;> decide

namespace Parse

variable {phrases phrases' : Phrases} {rest row : List Kind} {ends : Prop} {need : Nat}

/-! ## Grouping -/

theorem groupedColumns_refuses (shuns : phrases.Shuns) : Refuses (groupedColumns phrases) :=
  .look (atSign_looks _) (.commaSeparated shuns.expression)

theorem opensList_reads {limit depth : Nat} {kinds : List Kind} :
    Reads limit True opensList depth kinds
      (· = (decide (lead kinds = .symbol .leftParen) && !isQueryStart (lead (kinds.drop 1))))
      depth kinds := by
  rcases Classical.em (lead kinds = .symbol .leftParen) with here | elsewhere
  · exact (atSign_yes here).step (peek_reads.step (.pure trivial (by simp [here])))
  · exact (atSign_no elsewhere).step (.pure trivial (by simp [elsewhere]))

theorem groupingSet_refuses (shuns : phrases.Shuns) : Refuses (groupingSet phrases) :=
  .still here_still fun _ => .past (fun _ _ => opensList_reads) (shuns.expression.bind _)

theorem groupingElement_refuses (shuns : phrases.Shuns) : Refuses (groupingElement phrases) := by
  refine .still here_still fun _ => ?_
  refine .past (fun _ _ => atWordBefore_no (by simp)) ?_
  refine .past (fun _ _ => atWordBefore_no (by simp)) ?_
  refine .past (fun _ _ => atWordBefore_no (by simp)) ?_
  exact (groupingSet_refuses shuns).bind _

section

variable (below : phrases.Repeats phrases' rest)
include below

theorem groupedColumns_repeats (row : List Kind) :
    Repeats rest False (2 * row.length + 1) (Keyed Expr.eraseAll) (groupedColumns phrases)
      (groupedColumns phrases') row :=
  .look (atSign_looks _) (fun _ => False.elim) (.ite (fun _ => .done rfl)
    fun _ => expressions_repeats below False.elim False.elim row)

theorem longerColumns_repeats (shuns : phrases.Shuns) {columns columns' : List Expr}
    {start start' : Span} (same : Keyed Expr.eraseAll columns columns') (row : List Kind) :
    Repeats rest (Closes 0 rest) (2 * row.length + 1) (Keyed Expr.eraseAll)
      (longerColumns phrases columns start) (longerColumns phrases' columns' start') row := by
  unfold longerColumns
  split
  · next first =>
    obtain ⟨first', rfl, same₁⟩ := Expr.eq_single same
    refine .sees Power.ahead (fun _ _ _ => operatorPower_reads) (fun left shorter last meets => ?_) (.ite
      (fun _ => ?_) fun _ => .done same)
    · cases row with
      | nil =>
        have closes := meets.last (List.suffix_nil.mp shorter)
        rw [List.nil_append, closes.ahead_eq_none]
        rfl
      | cons kind more => rw [meets.ahead_append (List.cons_ne_nil kind more) shorter last]
    · refine .bind (nested_repeats (operators_repeats below shuns same₁ (·.weaken (by simp)) row)) id
        fun expr expr' _ same₂ _ => .done ?_
      exact congrArg (fun expr => [expr]) same₂
  · next other =>
    split
    · next first' =>
      obtain ⟨first, rfl, -⟩ := Expr.eq_single same.symm
      exact absurd rfl (other first)
    · exact .done same

theorem groupingSet_repeats (shuns : phrases.Shuns) (row : List Kind) :
    Repeats rest (Closes 0 rest) (2 * row.length + 1) (Keyed GroupingSet.erase)
      (groupingSet phrases) (groupingSet phrases') row := by
  -- behind a parenthesis alone the rule would look at the first token of `rest`
  by_cases single : row = [.symbol .leftParen]
  · subst single
    refine .vacuous (Refuses.still here_still fun _ => .past (fun _ _ => opensList_reads) ?_)
    exact .past (a := ()) (fun _ _ => advance_reads.weaken fun _ _ => rfl)
      ((groupedColumns_refuses shuns).bind _)
  refine .still here_still here_still fun start start' => ?_
  refine .sees (fun kinds => decide (lead kinds = .symbol .leftParen) &&
    !isQueryStart (lead (kinds.drop 1))) (fun _ _ _ => opensList_reads) ?_
    (.ite (fun opens => ?_) fun _ => ?_)
  · intro left _ _ meets
    match row with
    | [] => simp [meets.ne (.symbol .leftParen) rfl]
    | [kind] =>
      have other : kind ≠ .symbol .leftParen := fun isParen => single (by rw [isParen])
      simp [other]
    | kind :: other :: more => rfl
  · obtain ⟨left, rfl⟩ : ∃ left, row = .symbol .leftParen :: left := by
      refine eq_cons_of_lead ?_ (by simp)
      simpa using (Bool.and_eq_true_iff.mp opens).1
    refine .advance (fun _ => .inl (by simp)) ?_
    refine .inside ((groupedColumns_repeats below left).within id ?_)
      (fun _ => (Refuses.expectSign _).bind _) fun columns columns' more same few => ?_
    · simp only [List.length_cons]
      omega
    refine .expectSign fun more' isMore => ?_
    refine .bind ((longerColumns_repeats below shuns same more').within id ?_) id
      fun columns columns' _ same _ => ?_
    · rw [isMore, List.length_cons] at few
      simp only [List.length_cons]
      omega
    refine .still (spanFrom_still _) (spanFrom_still _) fun _ _ => .done ?_
    exact congrArg (GroupingSet.mk · default) same
  · refine .bind (expression_repeats below row) id fun expr expr' _ same _ => ?_
    refine .still (spanFrom_still _) (spanFrom_still _) fun _ _ => .done ?_
    exact congrArg (fun expr => GroupingSet.mk [expr] default) same

theorem groupingSetList_repeats (shuns : phrases.Shuns) {word : Keyword} (other : word ≠ .NOT)
    (left : List Kind) :
    Repeats rest ends (2 * (left.length + 1)) (Keyed GroupingSet.eraseAll)
      (groupingSetList phrases) (groupingSetList phrases') (.keyword word :: left) := by
  refine .advance (fun _ => .inl (by simpa using other)) ?_
  refine parenthesized_repeats fun inner isLeft => ?_
  have sets := commaSeparated_repeats False inner 1 False.elim False.elim
    fun left _ => groupingSet_repeats below shuns left
  refine (sets.within id ?_).alike fun these those agree => ?_
  · rw [isLeft, List.length_cons]
    omega
  · rw [Keyed, GroupingSet.eraseAll_eq_map, GroupingSet.eraseAll_eq_map, keyed_map agree]

theorem groupingSetsMembers_repeats {first second : Keyword} (other : first ≠ .NOT)
    (other' : second ≠ .NOT) (left : List Kind) :
    Repeats rest ends (2 * (left.length + 2)) (Keyed Expr.eraseAll)
      (groupingSetsMembers phrases) (groupingSetsMembers phrases')
      (.keyword first :: .keyword second :: left) := by
  refine .advance (fun _ => .inl (by simpa using other)) ?_
  refine .advance (fun _ => .inl (by simpa using other')) ?_
  have few : 2 * left.length + 1 ≤ 2 * (left.length + 2) := by omega
  refine .within (nested_repeats ?_) id few
  refine parenthesized_repeats fun inner isLeft => ?_
  have members := commaSeparated_repeats False inner 1 False.elim False.elim
    fun left _ => below.groupingElement left
  refine (members.within id ?_).alike fun these those agree => ?_
  · rw [isLeft, List.length_cons]
    omega
  · rw [Keyed, Expr.eraseAll_eq_map, Expr.eraseAll_eq_map, keyed_map agree]

theorem groupingElement_repeats (shuns : phrases.Shuns) (row : List Kind) :
    Repeats rest (Closes 0 rest) (2 * row.length + 1) (Keyed Expr.erase)
      (groupingElement phrases) (groupingElement phrases') row := by
  refine .opens (groupingElement_refuses shuns) fun opens => ?_
  have listed {left : List Kind} {word : Keyword} (other : word ≠ .NOT)
      {make : List GroupingSet → Span → Expr}
      (keeps : ∀ sets span, (make sets span).erase = make (GroupingSet.eraseAll sets) default)
      (start start' : Span) :
      Repeats rest (Closes 0 rest) (2 * (left.length + 1) + 1) (Keyed Expr.erase)
        (do let sets ← groupingSetList phrases; return make sets (← spanFrom start))
        (do let sets ← groupingSetList phrases'; return make sets (← spanFrom start'))
        (.keyword word :: left) := by
    refine .bind ((groupingSetList_repeats below shuns other left).within id (by omega)) id
      fun sets sets' _ same _ => ?_
    refine .still (spanFrom_still _) (spanFrom_still _) fun _ _ => .done ?_
    rw [Keyed, keeps, keeps, same]
  refine .still here_still here_still fun start start' => ?_
  have paren (left : List Kind) (meets : Meets rest (Closes 0 rest) left) :
      decide (lead rest = .symbol .leftParen) = decide (Kind.endOfInput = .symbol .leftParen) := by
    simp [meets.ne (.symbol .leftParen) rfl]
  refine .atWordBefore (fun none => absurd none opens) paren (fun more isRow _ => ?_) fun _ => ?_
  · subst isRow
    exact listed (by simp) (fun _ _ => rfl) start start'
  refine .atWordBefore (fun none => absurd none opens) paren (fun more isRow _ => ?_) fun _ => ?_
  · subst isRow
    exact listed (by simp) (fun _ _ => rfl) start start'
  refine .atWordBefore (fun none => absurd none opens) (fun left meets => ?_)
    (fun more isRow isSets => ?_) fun _ => ?_
  · simp [meets.ne (.keyword .SETS) rfl]
  · subst isRow
    obtain ⟨left, rfl⟩ := eq_cons_of_lead (of_decide_eq_true isSets) (by simp)
    refine .bind ((groupingSetsMembers_repeats below (by simp) (by simp) left).within id ?_) id
      fun sets sets' _ same _ => ?_
    · simp only [List.length_cons]
      omega
    refine .still (spanFrom_still _) (spanFrom_still _) fun _ _ => .done ?_
    exact congrArg (Expr.groupingSets · default) same
  · exact .bind (groupingSet_repeats below shuns row) id fun set set' _ same _ =>
      .done (congrArg Expr.groupingSet same)

theorem groupClause_repeats (shuns : phrases.Shuns) (row : List Kind) :
    Repeats rest (Past 4 rest) (2 * row.length) (Keyed GroupClause.eraseOption)
      (groupClause phrases) (groupClause phrases') row := by
  refine .still here_still here_still fun start start' => ?_
  refine .takeWord (by simp) (.inl (·.ne (by decide))) (fun left isRow => ?_) fun _ => .done rfl
  refine .expectWord (by simp) fun left' isLeft => ?_
  have few : left'.length + 2 = row.length := by rw [isRow, isLeft, List.length_cons, List.length_cons]
  refine .inside (setQuantifier_repeats False.elim False.elim)
    (fun _ => (Refuses.commaSeparated (groupingElement_refuses shuns)).bind _)
    fun quantifier _ more same fewer => ?_
  subst same
  have items := commaSeparated_repeats (Past 4 rest) more 1 (·.ne (by decide))
    (·.closes 0) fun left _ => groupingElement_repeats below shuns left
  refine .bind (items.within id (by omega)) id fun items items' _ agree _ => ?_
  refine .still (spanFrom_still _) (spanFrom_still _) fun _ _ => .done ?_
  have same : Expr.eraseAll items' = Expr.eraseAll items := by
    rw [Expr.eraseAll_eq_map, Expr.eraseAll_eq_map, keyed_map agree]
  rw [Keyed, GroupClause.eraseOption, GroupClause.eraseOption, same]

end

/-! ## Windows -/

theorem boundDirection_refuses : Refuses boundDirection := .takeWord (.takeWord (.unexpected _))

theorem frameBound_refuses (shuns : phrases.Shuns) : Refuses (frameBound phrases) :=
  .still here_still fun _ => .takeWord <|
    .past (fun _ _ => atWordBefore_no (by simp)) (shuns.expression.bind _)

theorem boundDirection_repeats : Repeats rest ends need Eq boundDirection boundDirection row :=
  .takeWord (by simp) (.inr (.takeWord (.unexpected _))) (fun _ _ => .done rfl) fun _ =>
    .takeWord (by simp) (.inr (.unexpected _)) (fun _ _ => .done rfl) fun _ => .unexpected _

theorem frameExclusion_repeats : Repeats rest ends need Eq frameExclusion frameExclusion row := by
  refine .lookInside word?_looks (.unexpected _) fun opens => ?_
  obtain ⟨kind, left, rfl⟩ := List.exists_cons_of_ne_nil opens
  rw [lead_cons]
  split
  case h_5 => exact .unexpected _
  all_goals
    next isWord =>
      refine .advance (fun _ => .inl (by simp [Kind.eq_of_word? isWord])) ?_
      first
        | exact .done rfl
        | exact .expectWord (by simp) fun _ _ => .done rfl

theorem optionalExclusion_repeats :
    Repeats rest False need Eq optionalExclusion optionalExclusion row := by
  refine .takeWord (by simp) (.inl False.elim) (fun _ _ => ?_) fun _ => .done rfl
  exact .bind frameExclusion_repeats id fun _ _ _ same _ => .done (by rw [same])

theorem frameUnit_repeats : Repeats rest False need Eq frameUnit frameUnit row :=
  .takeWord (by simp) (.inl False.elim) (fun _ _ => .done rfl) fun _ =>
    .takeWord (by simp) (.inl False.elim) (fun _ _ => .done rfl) fun _ =>
      .takeWord (by simp) (.inl False.elim) (fun _ _ => .done rfl) fun _ => .done rfl

theorem existingWindow_repeats :
    Repeats rest (Past 1 rest) need Eq existingWindow existingWindow row := by
  refine .glance kind_looks (fun _ past => ?_) (.ite (fun _ => ?_) fun _ => .done rfl)
  · rw [id, past.noName]
    rfl
  exact .bind identifier_repeats id fun _ _ _ same _ => .done (by rw [same])

/-- What stands between the parentheses of a window. -/
def windowBody (phrases : Phrases) :
    Parse (Option Name × List Expr × List SortKey × Option Frame) := do
  let existing ← existingWindow
  let parts ← partitionBy phrases
  let keys ← orderBy phrases
  return (existing, parts, keys, ← frame phrases)

theorem windowSpec_eq (phrases : Phrases) :
    windowSpec phrases = (do
      let start ← here
      let (existing, parts, keys, frame) ← parenthesized (windowBody phrases)
      return ⟨existing, parts, keys, frame, ← spanFrom start⟩) := by
  simp only [windowSpec, windowBody, parenthesized, bind_assoc, pure_bind]

section

variable (below : phrases.Repeats phrases' rest)
include below

theorem frameBound_repeats (shuns : phrases.Shuns) (row : List Kind) :
    Repeats rest ends (2 * row.length + 1) (Keyed FrameBound.erase) (frameBound phrases)
      (frameBound phrases') row := by
  refine .opens (frameBound_refuses shuns) fun opens => ?_
  refine .still here_still here_still fun start start' => ?_
  refine .takeWord (by simp) (.inr ?_) (fun left isRow => ?_) fun _ => ?_
  · exact .past (fun _ _ => atWordBefore_no (by simp)) (shuns.expression.bind _)
  · refine .bind boundDirection_repeats id fun kind _ _ same _ => ?_
    subst same
    exact .still (spanFrom_still _) (spanFrom_still _) fun _ _ => .done rfl
  refine .atWordBefore (fun none => absurd none opens) (fun left meets => ?_)
    (fun more isRow isNext => ?_) fun _ => ?_
  · simp [meets.ne (.keyword .ROW) rfl]
  · subst isRow
    obtain ⟨left, rfl⟩ := eq_cons_of_lead (of_decide_eq_true isNext) (by simp)
    refine .advance (fun _ => .inl (by simp)) (.advance (fun _ => .inl (by simp)) ?_)
    exact .still (spanFrom_still _) (spanFrom_still _) fun _ _ => .done rfl
  · refine .inside ((expression_repeats below row).within False.elim (Nat.le_refl _))
      (fun _ => boundDirection_refuses.bind _) fun value value' _ same _ => ?_
    refine .bind boundDirection_repeats id fun kind _ _ same₁ _ => ?_
    subst same₁
    refine .still (spanFrom_still _) (spanFrom_still _) fun _ _ => .done ?_
    exact congrArg (fun value => FrameBound.mk kind (some value) default) same

theorem frameBounds_repeats (shuns : phrases.Shuns) (row : List Kind) :
    Repeats rest False (2 * row.length + 1)
      (fun one other => other.1.erase = one.1.erase ∧
        FrameBound.eraseOption other.2 = FrameBound.eraseOption one.2)
      (frameBounds phrases) (frameBounds phrases') row := by
  refine .takeWord (by simp) (.inl False.elim) (fun left isRow => ?_) fun _ => ?_
  · have few : left.length + 1 = row.length := by rw [isRow, List.length_cons]
    refine .bind ((frameBound_repeats below shuns left).within id (by omega)) id
      fun first first' more same fewer => .expectWord (by simp) fun more' isMore => ?_
    have fewest : more'.length + 1 = more.length := by rw [isMore, List.length_cons]
    exact .bind ((frameBound_repeats below shuns more').within id (by omega)) id
      fun last last' _ same₁ _ => .done ⟨same, congrArg some same₁⟩
  · exact .bind (frameBound_repeats below shuns row) id fun first first' _ same _ =>
      .done ⟨same, rfl⟩

theorem frame_repeats (shuns : phrases.Shuns) (row : List Kind) :
    Repeats rest False (2 * row.length + 1) (Keyed Frame.eraseOption) (frame phrases)
      (frame phrases') row := by
  refine .still here_still here_still fun start start' => ?_
  refine .bind frameUnit_repeats id fun unit _ left same few => ?_
  subst same
  split
  · exact .done rfl
  · next unit =>
    refine .bind ((frameBounds_repeats below shuns left).within id (by omega)) id
      fun (first, last) (first', last') _ same _ => ?_
    refine .bind optionalExclusion_repeats id fun exclusion _ _ same₁ _ => ?_
    subst same₁
    refine .still (spanFrom_still _) (spanFrom_still _) fun _ _ => .done ?_
    simp only [Keyed, Frame.eraseOption, Frame.erase, same.1, same.2]

theorem partitionBy_repeats (row : List Kind) :
    Repeats rest (Past 7 rest) (2 * row.length) (Keyed Expr.eraseAll) (partitionBy phrases)
      (partitionBy phrases') row := by
  refine .takeWord (by simp) (.inl (·.ne (by decide))) (fun left isRow => ?_) fun _ => .done rfl
  refine .expectWord (by simp) fun left' isLeft =>
    (expressions_repeats below (·.ne (by decide)) (·.closes 0) left').within id ?_
  rw [isRow, isLeft, List.length_cons, List.length_cons]
  omega

theorem windowSpec_repeats (shuns : phrases.Shuns) (row : List Kind) :
    Repeats rest ends (2 * row.length) (Keyed WindowSpec.erase) (windowSpec phrases)
      (windowSpec phrases') row := by
  rw [windowSpec_eq, windowSpec_eq]
  refine .still here_still here_still fun start start' => ?_
  refine .after (R := fun one other => WindowSpec.erase
    ⟨other.1, other.2.1, other.2.2.1, other.2.2.2, default⟩ =
      WindowSpec.erase ⟨one.1, one.2.1, one.2.2.1, one.2.2.2, default⟩)
    (parenthesized_repeats fun inner isRow => ?_) ?_
  · have few : inner.length + 1 = row.length := by rw [isRow, List.length_cons]
    refine .bind existingWindow_repeats False.elim fun existing _ left same few₁ => ?_
    refine .bind ((partitionBy_repeats below left).within False.elim (by omega)) id
      fun parts parts' left₁ same₁ few₂ => ?_
    refine .bind ((orderBy_repeats below left₁).within False.elim (by omega)) id
      fun keys keys' left₂ same₂ few₃ => ?_
    refine .bind ((frame_repeats below shuns left₂).within id (by omega)) id
      fun frame frame' _ same₃ _ => .done ?_
    simp only [Keyed] at same₁ same₂ same₃
    simp only [WindowSpec.erase, same, same₁, same₂, same₃]
  · rintro ⟨existing, parts, keys, frame⟩ ⟨existing', parts', keys', frame'⟩ _ same _
    exact .still (spanFrom_still _) (spanFrom_still _) fun _ _ => .done same

theorem windowDef_repeats (shuns : phrases.Shuns) (row : List Kind) :
    Repeats rest ends (2 * row.length) (Keyed WindowDef.erase) (windowDef phrases)
      (windowDef phrases') row := by
  refine .still here_still here_still fun start start' => ?_
  refine .after identifier_repeats fun name _ left same few => ?_
  subst same
  refine .expectWord (by simp) fun left' isLeft => ?_
  have fewer : left'.length + 1 = left.length := by rw [isLeft, List.length_cons]
  refine .bind ((windowSpec_repeats below shuns left').within id (by omega)) id
    fun spec spec' _ same _ => ?_
  refine .still (spanFrom_still _) (spanFrom_still _) fun _ _ => .done ?_
  exact congrArg (WindowDef.mk name · default) same

theorem windows_repeats (shuns : phrases.Shuns) (row : List Kind) :
    Repeats rest (Past 6 rest) (2 * row.length) (Keyed WindowDef.eraseAll) (windows phrases)
      (windows phrases') row := by
  refine .takeWord (by simp) (.inl (·.ne (by decide))) (fun left isRow => ?_) fun _ => .done rfl
  have defs := commaSeparated_repeats (Past 6 rest) left 0
    (·.ne (by decide)) id fun left _ => windowDef_repeats below shuns left
  refine (defs.within id ?_).alike fun these those agree => ?_
  · rw [isRow, List.length_cons]
    omega
  · rw [Keyed, WindowDef.eraseAll_eq_map, WindowDef.eraseAll_eq_map, keyed_map agree]

end

/-! ## Sources -/

theorem withAlias_repeats {relation relation' : Rel} {start start' : Span}
    (same : Keyed Rel.erase relation relation') (row : List Kind) :
    Repeats rest (EndsSource rest) (2 * row.length) (Keyed Rel.erase) (withAlias relation start)
      (withAlias relation' start') row := by
  refine .bind (optionalAlias_repeats (·.noAs) (·.noName)) id fun name _ left same₁ few => ?_
  subst same₁
  cases name with
  | none => exact .done same
  | some name =>
    refine .bind ((optionalNames_repeats (·.paren)).within id (by omega)) id
      fun columns _ _ same₁ _ => ?_
    subst same₁
    exact .still (spanFrom_still _) (spanFrom_still _) fun _ _ =>
      .done (congrArg (Rel.named name columns · default) same)

theorem namedTable_repeats (row : List Kind) :
    Repeats rest (EndsSource rest) (2 * row.length) (Keyed Rel.erase) namedTable namedTable row := by
  refine .still here_still here_still fun start start' => ?_
  refine .bind (qualifiedName_repeats (·.dot)) id fun name _ _ same _ => ?_
  subst same
  exact .still (spanFrom_still _) (spanFrom_still _) fun _ _ => .done rfl

theorem joinWords_repeats : Repeats rest False need Eq joinWords joinWords row := by
  refine .look word?_looks (fun _ => False.elim) ?_
  have outer {kind : JoinKind} {row : List Kind} : Repeats rest False need Eq
      (do let _ ← takeWord .OUTER; return kind) (do let _ ← takeWord .OUTER; return kind) row :=
    .takeWord (by simp) (.inl False.elim) (fun _ _ => .done rfl) fun _ => .done rfl
  split
  case h_5 => exact .done rfl
  all_goals
    next isWord =>
      obtain ⟨left, rfl⟩ := eq_cons_of_lead (Kind.eq_of_word? isWord) (by simp)
      refine .advance (fun _ => .inl (by simp)) ?_
      first
        | exact .done rfl
        | exact outer

/-- The kind of a join ends with a word, so that less is left behind it. -/
theorem Echoes.joinKind {α β : Type} {same : α → β → Prop} {up : α → Nat}
    {f : JoinKind → Parse α} {g : JoinKind → Parse β}
    (next : ∀ kind left, left.length < row.length → Echoes rest ends need same up (f kind) (g kind) left) :
    Echoes rest ends need same up (Parse.joinKind >>= f) (Parse.joinKind >>= g) row := by
  have regroup {α : Type} (f : JoinKind → Parse α) : Parse.joinKind >>= f =
      joinWords >>= fun kind => Parse.expectWord .JOIN >>= fun _ => f kind := by
    simp only [Parse.joinKind, bind_assoc, pure_bind]
  rw [regroup, regroup]
  refine .inside joinWords_repeats (fun _ => (Refuses.expectWord _).bind _) fun kind _ left same few => ?_
  subst same
  refine .expectWord (by simp) fun left' isLeft => next kind left' ?_
  rw [isLeft, List.length_cons] at few
  omega

theorem joinKind_refuses : Refuses joinKind :=
  .past (a := .inner) (fun _ _ => word?_looks.reads.step (.pure trivial rfl))
    ((Refuses.expectWord _).bind _)

theorem joinCondition_refuses : Refuses (joinCondition phrases) :=
  .takeWord (.takeWord (.unexpected _))

theorem tableFactor_refuses : Refuses (tableFactor phrases) :=
  .look (atSign_looks _) (.still here_still fun _ => Refuses.qualifiedName.bind _)

section

variable (below : phrases.Repeats phrases' rest)
include below

theorem longerTableQuery_repeats (shuns : phrases.Shuns) {first first' : Rel} {start start' : Span}
    (same : Keyed Rel.erase first first') (row : List Kind) :
    Repeats rest (Past 10 rest) (2 * row.length) (Keyed Rel.erase)
      (longerTableQuery phrases first start) (longerTableQuery phrases' first' start') row := by
  have longer {operand operand' : Rel} (same : Keyed Rel.erase operand operand') :
      Repeats rest (Past 10 rest) (2 * row.length) (Keyed Rel.erase)
      (do
        let body ← phrases.setOperations operand 0
        return .query (← queryTail phrases none body start))
      (do
        let body ← phrases'.setOperations operand' 0
        return .query (← queryTail phrases' none body start')) row := by
    refine .bind (below.setOperations operand operand' 0 row same) ?_ fun body body' left same₁ few => ?_
    · exact fun past => Past.closesBody (past.mono (by omega)) 0
    · refine .bind ((queryTail_repeats below shuns rfl same₁ left).within id (by omega)) id
        fun query query' _ same₂ _ => .done (congrArg Rel.query same₂)
  cases first with
  | query query =>
    obtain ⟨query', rfl, same₁⟩ := Rel.eq_query same
    exact longer (by rw [Keyed, Query.operand_erase, same₁, ← Query.operand_erase])
  | select | values | setOp => cases first' <;> first | exact longer same | cases same
  | join | table | named => exact .unexpected _

theorem enclosedTable_repeats (shuns : phrases.Shuns) {start start' : Span} (row : List Kind) :
    Repeats rest False (2 * row.length + 1) (Keyed Rel.erase) (enclosedTable phrases start)
      (enclosedTable phrases' start') row := by
  have joined {first first' : Rel} {left : List Kind} (same : Keyed Rel.erase first first')
      (few : left.length ≤ row.length) : Repeats rest False (2 * row.length + 1) (Keyed Rel.erase)
      (phrases.joins first) (phrases'.joins first') left :=
    (below.joins first first' left same).within False.elim (by omega)
  have table : Repeats rest False (2 * row.length + 1) (Keyed Rel.erase) phrases.tablePrimary
      phrases'.tablePrimary row := (below.tablePrimary row).within False.elim (by omega)
  refine .look startsQuery_looks (fun _ => False.elim) (.ite (fun _ => ?_) fun _ => ?_)
  · exact .bind ((below.query row).within False.elim (Nat.le_refl _)) id
      fun query query' _ same _ => .done (congrArg Rel.query same)
  refine .look (atSign_looks _) (fun _ => False.elim) (.ite (fun _ => ?_) fun _ => ?_)
  · refine .bind table id fun first first' left same few => ?_
    refine .look continuesQuery_looks (fun _ => False.elim) (.ite (fun _ => ?_) fun _ => joined same few)
    exact (longerTableQuery_repeats below shuns same left).within False.elim (by omega)
  · exact .bind table id fun first first' left same few => joined same few

theorem parenthesizedTable_repeats (shuns : phrases.Shuns) (row : List Kind) :
    Repeats rest ends (2 * row.length - 1) (Keyed Rel.erase) (parenthesizedTable phrases)
      (parenthesizedTable phrases') row := by
  refine .still here_still here_still fun start start' => .expectSign fun left isRow => ?_
  have few : left.length + 1 = row.length := by rw [isRow, List.length_cons]
  refine .inside ((enclosedTable_repeats below shuns left).within id (by omega))
    (fun _ => (Refuses.expectSign _).bind _) fun relation relation' _ same _ => ?_
  exact .expectSign fun _ _ => .done same

theorem tablePrimary_repeats (shuns : phrases.Shuns) (row : List Kind) :
    Repeats rest (EndsSource rest) (2 * row.length) (Keyed Rel.erase) (tablePrimary phrases)
      (tablePrimary phrases') row := by
  refine .still here_still here_still fun start start' => ?_
  refine .bind ?_ id fun relation relation' left same few =>
    (withAlias_repeats same left).within id (by omega)
  refine .look (atSign_looks _) (fun _ ends => by simp [ends.paren]) (.ite (fun opens => ?_)
    fun _ => namedTable_repeats row)
  obtain ⟨left, rfl⟩ := eq_cons_of_lead (of_decide_eq_true opens) (by simp)
  refine (nested_repeats (parenthesizedTable_repeats below shuns _)).within id ?_
  simp only [List.length_cons]
  omega

theorem joinCondition_repeats (row : List Kind) :
    Repeats rest (Closes 0 rest) (2 * row.length) (Keyed JoinCondition.erase)
      (joinCondition phrases) (joinCondition phrases') row := by
  refine .takeWord (by simp) (.inr (.takeWord (.unexpected _))) (fun left isRow => ?_) fun _ => ?_
  · refine .bind ((expression_repeats below left).within id ?_) id
      fun condition condition' _ same _ => .done (congrArg JoinCondition.onExpr same)
    rw [isRow, List.length_cons]
    omega
  refine .takeWord (by simp) (.inr (.unexpected _)) (fun left isRow => ?_) fun _ => .unexpected _
  refine .bind (names_repeats.within id ?_) id fun columns _ _ same _ => .done ?_
  · rw [isRow, List.length_cons]
    omega
  · rw [Keyed, same]

theorem join_repeats (shuns : phrases.Shuns) {left left' : Rel} (same : Keyed Rel.erase left left')
    (table : ends → EndsSource rest) (condition : ends → Closes 0 rest) (row : List Kind) :
    Repeats rest ends (2 * row.length - 1) (Keyed Rel.erase) (join phrases left)
      (join phrases' left') row := by
  simp only [Keyed] at same
  have joined (natural : Bool) (more : List Kind) (few : more.length ≤ row.length) :
      Repeats rest ends (2 * row.length - 1) (Keyed Rel.erase)
      (do
        let kind ← joinKind
        let right ← tablePrimary phrases
        if natural then return .join kind true .absent left right (← spanFrom left.span)
        else
          let right ← phrases.joins right
          let condition ← joinCondition phrases
          return .join kind false condition left right (← spanFrom left.span))
      (do
        let kind ← joinKind
        let right ← tablePrimary phrases'
        if natural then return .join kind true .absent left' right (← spanFrom left'.span)
        else
          let right ← phrases'.joins right
          let condition ← joinCondition phrases'
          return .join kind false condition left' right (← spanFrom left'.span)) more := by
    refine .joinKind fun kind left₁ fewer => ?_
    refine .bind ((tablePrimary_repeats below shuns left₁).within table (by omega)) id
      fun right right' left₂ same₁ few₁ => .ite (fun _ => ?_) fun _ => ?_
    · refine .still (spanFrom_still _) (spanFrom_still _) fun _ _ => .done ?_
      simp only [Keyed] at same₁
      simp [Keyed, Rel.erase, same, same₁]
    · refine .inside ((below.joins right right' left₂ same₁).within False.elim (by omega))
        (fun _ => joinCondition_refuses.bind _) fun right right' left₃ same₂ few₂ => ?_
      refine .bind ((joinCondition_repeats below left₃).within condition (by omega)) id
        fun condition condition' _ same₃ _ => ?_
      refine .still (spanFrom_still _) (spanFrom_still _) fun _ _ => .done ?_
      simp only [Keyed] at same₂ same₃
      simp [Keyed, Rel.erase, same, same₂, same₃]
  refine .takeWord (by simp) (.inr (.takeWord (joinKind_refuses.bind _))) (fun more isRow => ?_)
    fun _ => ?_
  · refine .expectWord (by simp) fun more' isMore => ?_
    have few : more'.length + 2 = row.length := by rw [isRow, isMore, List.length_cons, List.length_cons]
    refine .bind ((tablePrimary_repeats below shuns more').within table (by omega)) id
      fun right right' _ same₁ _ => ?_
    simp only [Keyed] at same₁
    refine .still (spanFrom_still _) (spanFrom_still _) fun _ _ => .done ?_
    simp [Keyed, Rel.erase, same, same₁]
  · refine .takeWord (by simp) (.inr (joinKind_refuses.bind _)) (fun more isRow => ?_) fun _ => ?_
    · exact joined true more (by rw [isRow, List.length_cons]; omega)
    · exact joined false row (Nat.le_refl _)

/-- How far joins or set operations have been read, up to places. -/
def SameSteps (done done' : Rel × Nat) : Prop := Keyed Rel.erase done.1 done'.1 ∧ done'.2 = done.2

theorem joinStep_echoes (shuns : phrases.Shuns) {done done' : Rel × Nat} (same : SameSteps done done')
    (row : List Kind) :
    Echoes rest (ClosesJoins rest) (2 * row.length + 0) (Again SameSteps Prod.snd 1 done) (risen 1)
      (joinStep phrases done) (joinStep phrases' done') row := by
  obtain ⟨left, levels⟩ := done
  obtain ⟨left', levels'⟩ := done'
  obtain ⟨same, rfl⟩ := same
  refine .look startsJoin_looks (fun _ closes => closes.noJoin) (.ite (fun starts => ?_)
    fun _ => .pure .stop rfl)
  have longer : 0 < row.length := by
    refine List.length_pos_iff.mpr ?_
    rintro rfl
    cases starts
  have round : Repeats rest (ClosesJoins rest) (2 * row.length - 1)
      (fun next next' => Again SameSteps Prod.snd 1 (left, levels') next next' ∧ next.isSome = true)
      (do return some (← join phrases left, levels' + 1))
      (do return some (← join phrases' left', levels' + 1)) row :=
    .bind (join_repeats below shuns same (·.toEndsSource) (·.condition) row) id fun _ _ _ same₁ _ =>
      .done ⟨.more ⟨same₁, rfl⟩ rfl, rfl⟩
  refine (Echoes.enter round).mono id (by omega) fun next next' given => ⟨given.1, ?_⟩
  rw [risen, if_pos given.2]

theorem joins_repeats (shuns : phrases.Shuns) {left left' : Rel} (same : Keyed Rel.erase left left')
    (row : List Kind) :
    Repeats rest (ClosesJoins rest) (2 * row.length) (Keyed Rel.erase) (joins phrases left)
      (joins phrases' left') row := by
  have rounds : Echoes rest (ClosesJoins rest) (2 * row.length + 0) SameSteps Prod.snd
      (loop (joinStep phrases) (left, 0)) (loop (joinStep phrases') (left', 0)) row :=
    loop_echoes 1 0 (by omega) ⟨same, rfl⟩ rfl fun v w more isSame _ =>
      joinStep_echoes below shuns isSame more
  exact rounds.leaves fun done done' isSame => ⟨isSame.2, isSame.1⟩

theorem source_repeats (shuns : phrases.Shuns) (row : List Kind) :
    Repeats rest (ClosesJoins rest) (2 * row.length) (Keyed Rel.erase) (source phrases)
      (source phrases') row :=
  .bind ((tablePrimary_repeats below shuns row).within (·.toEndsSource) (Nat.le_refl _)) id
    fun left left' more same few => (joins_repeats below shuns same more).within id (by omega)

end

/-! ## Projections and operands -/

theorem queryPrimary_refuses : Refuses (queryPrimary phrases) := .look kind_looks (.unexpected _)

theorem query_refuses : Refuses (query phrases) := by
  refine .nested (.still here_still fun _ => .past (a := none) (fun _ _ => ?_)
    (queryPrimary_refuses.bind _))
  exact .still here_still fun _ => (takeWord_no (by simp)).step (.pure trivial rfl)

theorem target_refuses (shuns : phrases.Shuns) : Refuses (target phrases) :=
  .still here_still fun _ => shuns.expression.bind _

theorem cte_refuses : Refuses (cte phrases) := .still here_still fun _ => Refuses.identifier.bind _

theorem wholeTable_repeats (row : List Kind) :
    Repeats rest (Past 6 rest) (2 * row.length) (Keyed Rel.erase) wholeTable wholeTable row := by
  refine .still here_still here_still fun start start' => .expectWord (by simp) fun left isRow => ?_
  refine .bind ((qualifiedName_repeats (·.ne (by decide))).within id ?_) id fun name _ _ same _ => ?_
  · rw [isRow, List.length_cons]
    omega
  subst same
  exact .still (spanFrom_still _) (spanFrom_still _) fun _ _ => .done rfl

/-- An operation of the operator that is ahead, with `left` as its left operand. -/
def setOperation (phrases : Phrases) (op : SetOperator) (power : Nat) (left : Rel) : Parse Rel := do
  advance
  let quantifier ← setQuantifier
  let first ← queryPrimary phrases
  let right ← phrases.setOperations first power
  return .setOp op quantifier left right (← spanFrom left.span)

/-- A round of the set operations takes an operation, if the operator is powerful enough. -/
theorem setOperationStep_eq (phrases : Phrases) (least : Nat) (left : Rel) (levels : Nat) :
    setOperationStep phrases least (left, levels) = (do
      match SetOperator.ofKind? (← kind) with
      | none => return none
      | some (op, power) =>
        if power.left < least then return none
        else
          enter
          return some (← setOperation phrases op power.right left, levels + 1)) := by
  simp only [setOperation, bind_assoc, pure_bind]
  rfl

section

variable (below : phrases.Repeats phrases' rest)
include below

theorem target_repeats (closes : ends → Closes 0 rest) (noAs : ends → lead rest ≠ .keyword .AS)
    (noName : ends → (lead rest).isIdentifier = false) (row : List Kind) :
    Repeats rest ends (2 * row.length + 1) (Keyed Expr.erase) (target phrases) (target phrases')
      row := by
  refine .still here_still here_still fun start start' => ?_
  refine .bind (expression_repeats below row) closes fun expr expr' left same few => ?_
  refine .bind (optionalAlias_repeats noAs noName) id fun name _ _ same₁ _ => ?_
  subst same₁
  cases name with
  | none => exact .done same
  | some name =>
    exact .still (spanFrom_still _) (spanFrom_still _) fun _ _ =>
      .done (congrArg (Expr.named name · default) same)

theorem sources_repeats (shuns : phrases.Shuns) (row : List Kind) :
    Repeats rest (Past 2 rest) (2 * row.length) (Keyed Rel.eraseAll) (sources phrases)
      (sources phrases') row := by
  refine .takeWord (by simp) (.inl (·.ne (by decide))) (fun left isRow => ?_) fun _ => .done rfl
  have items := commaSeparated_repeats (Past 2 rest) left 0
    (·.ne (by decide)) (·.closesJoins) fun left _ => source_repeats below shuns left
  refine (items.within id ?_).alike fun these those agree => ?_
  · rw [isRow, List.length_cons]
    omega
  · rw [Keyed, Rel.eraseAll_eq_map, Rel.eraseAll_eq_map, keyed_map agree]

theorem select_repeats (shuns : phrases.Shuns) (row : List Kind) :
    Repeats rest (Past 6 rest) (2 * row.length) (Keyed Select.erase) (select phrases)
      (select phrases') row := by
  refine .still here_still here_still fun start start' => .expectWord (by simp) fun left isRow => ?_
  have few : left.length + 1 = row.length := by rw [isRow, List.length_cons]
  refine .inside (setQuantifier_repeats False.elim False.elim)
    (fun _ => (Refuses.commaSeparated (target_refuses shuns)).bind _) fun quantifier _ left₁ same few₁ => ?_
  subst same
  have items := commaSeparated_repeats (Past 6 rest) left₁ 1 (·.ne (by decide)) id fun left _ =>
    target_repeats below (·.closes 0) (·.ne (by decide)) (·.noName) left
  refine .bind (items.within id (by omega)) id fun targets targets' left₂ agree few₂ => ?_
  have targets_same : Expr.eraseAll targets' = Expr.eraseAll targets := by
    rw [Expr.eraseAll_eq_map, Expr.eraseAll_eq_map, keyed_map agree]
  refine .bind ((sources_repeats below shuns left₂).within (·.mono (by omega)) (by omega)) id
    fun sources sources' left₃ sources_same few₃ => ?_
  have clause {word : Keyword} (noNot : word ≠ .NOT) (past : Past 6 rest → lead rest ≠ .keyword word)
      (left : List Kind) : Repeats rest (Past 6 rest) (2 * left.length + 1) (Keyed Expr.eraseOption)
      (phrases.optionalClause word) (phrases'.optionalClause word) left :=
    optionalClause_repeats below noNot past (·.closes 0) left
  refine .bind ((clause (by simp) (·.ne (by decide)) left₃).within id (by omega)) id
    fun selection selection' left₄ selection_same few₄ => ?_
  refine .bind ((groupClause_repeats below shuns left₄).within (·.mono (by omega)) (by omega)) id
    fun grouping grouping' left₅ grouping_same few₅ => ?_
  refine .bind ((clause (by simp) (·.ne (by decide)) left₅).within id (by omega)) id
    fun having having' left₆ having_same few₆ => ?_
  refine .bind ((windows_repeats below shuns left₆).within id (by omega)) id
    fun windows windows' _ windows_same _ => ?_
  refine .still (spanFrom_still _) (spanFrom_still _) fun _ _ => .done ?_
  simp only [Keyed] at *
  simp only [Select.erase, targets_same, sources_same, selection_same, grouping_same, having_same,
    windows_same]

theorem values_repeats (row : List Kind) :
    Repeats rest (Past 1 rest) (2 * row.length) (Keyed Rel.erase) (values phrases)
      (values phrases') row := by
  refine .still here_still here_still fun start start' => .expectWord (by simp) fun left isRow => ?_
  have listed : Repeats rest (Past 1 rest) (2 * left.length + 1) (Keyed Expr.eraseAll)
      phrases.expressions phrases'.expressions left :=
    expressions_repeats below (·.ne (by decide)) (·.closes 0) left
  refine .bind (listed.within id ?_) id fun rows rows' _ same _ => ?_
  · rw [isRow, List.length_cons]
    omega
  exact .still (spanFrom_still _) (spanFrom_still _) fun _ _ =>
    .done (congrArg (Rel.values · default) same)

theorem queryPrimary_repeats (shuns : phrases.Shuns) (row : List Kind) :
    Repeats rest (Past 6 rest) (2 * row.length) (Keyed Rel.erase) (queryPrimary phrases)
      (queryPrimary phrases') row := by
  refine .lookInside kind_looks (.unexpected _) fun _ => ?_
  split
  · exact .bind (select_repeats below shuns row) id fun _ _ _ same _ =>
      .done (congrArg Rel.select same)
  · exact (values_repeats below row).within (·.mono (by omega)) (Nat.le_refl _)
  · exact wholeTable_repeats row
  · refine .after (R := Keyed Query.erase) (parenthesized_repeats fun inner isRow => ?_)
      fun query query' _ same _ => .done ?_
    · refine (below.query inner).within False.elim ?_
      rw [isRow, List.length_cons]
      omega
    · simp only [Keyed] at same
      rw [Keyed, Query.operand_erase, same, ← Query.operand_erase]
  · exact .unexpected _

/-! ## Queries -/

theorem setOperation_repeats (shuns : phrases.Shuns)
    {op : SetOperator} {power : Power} (isOperator : SetOperator.ofKind? (lead row) = some (op, power))
    {left left' : Rel} (same : Keyed Rel.erase left left') :
    Repeats rest (ClosesBody power.right rest) (2 * row.length - 1) (Keyed Rel.erase)
      (setOperation phrases op power.right left) (setOperation phrases' op power.right left') row := by
  obtain ⟨kind, left₁, rfl⟩ : ∃ kind left, row = kind :: left := by
    cases row with
    | nil => cases isOperator
    | cons kind left => exact ⟨kind, left, rfl⟩
  have noNot : kind ≠ .keyword .NOT := by
    rintro rfl
    cases isOperator
  rw [List.length_cons]
  refine .advance (fun _ => .inl noNot) ?_
  refine .inside (setQuantifier_repeats False.elim False.elim)
    (fun _ => queryPrimary_refuses.bind _) fun quantifier _ left₂ same₁ few => ?_
  subst same₁
  refine .bind ((queryPrimary_repeats below shuns left₂).within (·.past) (by omega)) id
    fun first first' left₃ same₁ few₁ => ?_
  refine .bind ((below.setOperations first first' power.right left₃ same₁).within id (by omega)) id
    fun right right' _ same₂ _ => ?_
  refine .still (spanFrom_still _) (spanFrom_still _) fun _ _ => .done ?_
  simp only [Keyed] at same same₂
  simp [Keyed, Rel.erase, same, same₂]

theorem setOperationStep_echoes (shuns : phrases.Shuns) {least : Nat} {done done' : Rel × Nat}
    (same : SameSteps done done') (row : List Kind) :
    Echoes rest (ClosesBody least rest) (2 * row.length + 0) (Again SameSteps Prod.snd 1 done)
      (risen 1) (setOperationStep phrases least done) (setOperationStep phrases' least done')
      row := by
  obtain ⟨left, levels⟩ := done
  obtain ⟨left', levels'⟩ := done'
  obtain ⟨same, rfl⟩ := same
  rw [setOperationStep_eq, setOperationStep_eq]
  refine .glance kind_looks ?_ ?_
  · intro _ closes
    cases isOperator : SetOperator.ofKind? (lead rest) with
    | none => simp only [id_eq, isOperator]; rfl
    | some operator =>
      have weak := closes.power operator.1 operator.2 isOperator
      simp only [id_eq, isOperator, if_pos weak]
      rfl
  · split
    · exact .pure .stop rfl
    · next op power isOperator =>
      refine .ite (fun _ => .pure .stop rfl) fun tight => ?_
      have longer : 0 < row.length := by
        refine List.length_pos_iff.mpr ?_
        rintro rfl
        cases isOperator
      have stronger (closes : ClosesBody least rest) : ClosesBody power.right rest := by
        have higher := SetOperator.power_lt isOperator
        refine ⟨closes.past, fun op power isOperator => ?_⟩
        have := closes.power op power isOperator
        omega
      have round : Repeats rest (ClosesBody least rest) (2 * row.length - 1)
          (fun next next' => Again SameSteps Prod.snd 1 (left, levels') next next' ∧
            next.isSome = true)
          (do return some (← setOperation phrases op power.right left, levels' + 1))
          (do return some (← setOperation phrases' op power.right left', levels' + 1)) row :=
        .bind ((setOperation_repeats below shuns isOperator same).within stronger (Nat.le_refl _)) id
          fun _ _ _ isSame _ => .done ⟨.more ⟨isSame, rfl⟩ rfl, rfl⟩
      refine (Echoes.enter round).mono id (by omega) fun next next' given => ⟨given.1, ?_⟩
      rw [risen, if_pos given.2]

theorem setOperations_repeats (shuns : phrases.Shuns) {left left' : Rel} (least : Nat)
    (same : Keyed Rel.erase left left') (row : List Kind) :
    Repeats rest (ClosesBody least rest) (2 * row.length) (Keyed Rel.erase)
      (setOperations phrases left least) (setOperations phrases' left' least) row := by
  have rounds : Echoes rest (ClosesBody least rest) (2 * row.length + 0) SameSteps Prod.snd
      (loop (setOperationStep phrases least) (left, 0))
      (loop (setOperationStep phrases' least) (left', 0)) row :=
    loop_echoes 1 0 (by omega) ⟨same, rfl⟩ rfl fun v w more isSame _ =>
      setOperationStep_echoes below shuns isSame more
  exact rounds.leaves fun done done' isSame => ⟨isSame.2, isSame.1⟩

theorem cte_repeats (row : List Kind) :
    Repeats rest ends (2 * row.length) (Keyed Cte.erase) (cte phrases) (cte phrases') row := by
  refine .still here_still here_still fun start start' => ?_
  refine .after identifier_repeats fun name _ left same few => ?_
  subst same
  refine .inside ((optionalNames_repeats False.elim).within id (by omega))
    (fun _ => (Refuses.expectWord _).bind _) fun columns _ left₁ same few₁ => ?_
  subst same
  refine .expectWord (by simp) fun left₂ isLeft => ?_
  refine .after (R := Keyed Query.erase) (parenthesized_repeats fun inner isLeft₂ => ?_)
    fun query query' _ same _ => ?_
  · refine (below.query inner).within False.elim ?_
    rw [isLeft, isLeft₂, List.length_cons, List.length_cons] at few₁
    omega
  exact .still (spanFrom_still _) (spanFrom_still _) fun _ _ =>
    .done (congrArg (Cte.mk name columns · default) same)

theorem withClause_repeats (noWith : ends → lead rest ≠ .keyword .WITH)
    (noComma : ends → lead rest ≠ .symbol .comma) (row : List Kind) :
    Repeats rest ends (2 * row.length) (Keyed WithClause.eraseOption) (withClause phrases)
      (withClause phrases') row := by
  refine .still here_still here_still fun start start' => ?_
  refine .takeWord (by simp) (.inl noWith) (fun left isRow => ?_) fun _ => .done rfl
  have few : left.length + 1 = row.length := by rw [isRow, List.length_cons]
  refine .inside (takeWord_repeats (by simp) False.elim)
    (fun _ => (Refuses.commaSeparated cte_refuses).bind _) fun recursive _ left₁ same few₁ => ?_
  subst same
  have items := commaSeparated_repeats ends left₁ 0 noComma id
    fun left _ => cte_repeats below left
  refine .bind (items.within id (by omega)) id fun ctes ctes' _ agree _ => ?_
  refine .still (spanFrom_still _) (spanFrom_still _) fun _ _ => .done ?_
  have same : Cte.eraseAll ctes' = Cte.eraseAll ctes := by
    rw [Cte.eraseAll_eq_map, Cte.eraseAll_eq_map, keyed_map agree]
  rw [Keyed, WithClause.eraseOption, WithClause.eraseOption, same]

theorem queryBody_repeats (shuns : phrases.Shuns) (row : List Kind) :
    Repeats rest (Past 10 rest) (2 * row.length) (Keyed Query.erase) (queryBody phrases)
      (queryBody phrases') row := by
  refine .still here_still here_still fun start start' => ?_
  refine .inside (withClause_repeats below False.elim False.elim row)
    (fun _ => queryPrimary_refuses.bind _)
    fun withClause withClause' left same few => ?_
  refine .bind ((queryPrimary_repeats below shuns left).within (·.mono (by omega)) (by omega)) id
    fun first first' left₁ same₁ few₁ => ?_
  refine .bind ((setOperations_repeats below shuns 0 same₁ left₁).within ?_ (by omega)) id
    fun body body' left₂ same₂ few₂ => ?_
  · exact fun past => Past.closesBody (past.mono (by omega)) 0
  · exact (queryTail_repeats below shuns same same₂ left₂).within id (by omega)

theorem query_repeats (shuns : phrases.Shuns) (row : List Kind) :
    Repeats rest (Past 10 rest) (2 * row.length + 1) (Keyed Query.erase) (query phrases)
      (query phrases') row :=
  nested_repeats (queryBody_repeats below shuns row)

end

end Parse

namespace Phrases

open Parse

theorem Shuns.above {phrases : Phrases} (shuns : phrases.Shuns) : phrases.above.Shuns where
  operand _ := .still here_still fun _ => leading_refuses.bind _
  query := query_refuses
  tablePrimary := .still here_still fun _ => tableFactor_refuses.bind _
  groupingElement := groupingElement_refuses shuns

theorem Repeats.above {phrases phrases' : Phrases} {rest : List Kind} (shuns : phrases.Shuns)
    (below : phrases.Repeats phrases' rest) : phrases.above.Repeats phrases'.above rest where
  operand := operand_repeats below shuns
  query := query_repeats below shuns
  setOperations _ _ least row same := setOperations_repeats below shuns least same row
  tablePrimary := tablePrimary_repeats below shuns
  joins _ _ row same := joins_repeats below shuns same row
  groupingElement := groupingElement_repeats below shuns

theorem within_shuns (bound : Nat) : (within bound).Shuns := by
  induction bound with
  | zero => exact ⟨fun _ => .throw _, .throw _, .throw _, .throw _⟩
  | succ bound ih => exact ih.above

/-- What the recursive rules read to the end of a row they read elsewhere, if no fewer levels of
recursion are left there. -/
theorem within_repeats {bound more : Nat} (less : bound ≤ more) (rest : List Kind) :
    (within bound).Repeats (within more) rest := by
  induction bound generalizing more with
  | zero =>
    have nothing {α β : Type} {ends : Prop} {need : Nat} {same : α → β → Prop} {row : List Kind}
        (q : Parse β) : Parse.Repeats rest ends need same (throw .exhausted : Parse α) q row :=
      .vacuous fun s a t _ run => by cases run
    exact ⟨fun _ _ => nothing _, fun _ => nothing _, fun _ _ _ _ _ => nothing _, fun _ => nothing _,
      fun _ _ _ _ => nothing _, fun _ => nothing _⟩
  | succ bound ih =>
    obtain ⟨more, rfl⟩ : ∃ fewer, more = fewer + 1 := ⟨more - 1, by omega⟩
    exact (ih (by omega)).above (within_shuns bound)

end Phrases

end CanonicalSql
