import CanonicalSql.Proofs.Failing.Expr
import CanonicalSql.Proofs.Joins

/-!
# Failing tables and joins

What fails where a table is expected makes the joined tables fail that it belongs to, and so does
the condition of a join.
-/
namespace CanonicalSql

open Parse

variable {tokens : List Token} {failure : Failure} {row rest : List Kind} {limit depth more : Nat}

/-- Where one table is expected, the step fails within the row. -/
structure FailsTable (tokens : List Token) (failure : Failure) (row : List Kind) : Prop where
  noQuery : isQueryStart (lead row) = false
  nonempty : row ≠ []
  fails : ∀ {limit depth more : Nat}, 8 * row.length + 16 ≤ more →
    depth + 2 * row.length ≤ capOf limit →
    Fails tokens failure limit depth (tablePrimary (Phrases.within more)) row

/-- Where joined tables are expected, the step fails within the row. What comes after the first
table may be anything that reads joins where one begins. -/
structure FailsSource (tokens : List Token) (failure : Failure) (row : List Kind) : Prop where
  noQuery : isQueryStart (lead row) = false
  nonempty : row ≠ []
  fails : ∀ {limit depth more fewer : Nat} {next : Rel → Parse Rel}, 8 * row.length + 16 ≤ more →
    8 * row.length + 16 ≤ fewer → depth + 2 * row.length ≤ capOf limit →
    (∀ first s, isJoinStart s.current.kind = true → next first s = joins (Phrases.within fewer) first s) →
    Fails tokens failure limit depth (do next (← tablePrimary (Phrases.within more))) row

/-- A join fails behind the table on its left. -/
structure FailsJoin (tokens : List Token) (failure : Failure) (row : List Kind) : Prop where
  starts : isJoinStart (lead row) = true
  fails : ∀ {limit depth more : Nat} (left : Rel), 8 * row.length + 16 ≤ more →
    depth + 2 * row.length ≤ capOf limit + 1 →
    Fails tokens failure limit depth (join (Phrases.within more) left) row

/-! ### Joined tables -/

theorem FailsTable.source (given : FailsTable tokens failure row) : FailsSource tokens failure row :=
  ⟨given.noQuery, given.nonempty, fun enough _ room _ => (given.fails enough room).bind⟩

theorem Parse.isNegatable_of_isJoinStart {kind : Kind} (starts : isJoinStart kind = true) :
    isNegatable kind = false := by
  unfold isJoinStart at starts
  split at starts <;> first | rfl | cases starts

theorem Parse.noNext_of_isJoinStart {kind : Kind} (starts : isJoinStart kind = true) :
    isQueryNext kind = false := by
  unfold isJoinStart at starts
  split at starts <;> first | rfl | cases starts

/-- A step fails with another second step that does the same where the first one leads. -/
theorem Parse.Fails.replace {α β : Type} {p : Parse α} {f g : α → Parse β} {good : α → Prop}
    {kinds mid : List Kind} {middle : Nat} (fails : Fails tokens failure limit depth (p >>= f) kinds)
    (first : Reads limit True p depth kinds good middle mid)
    (same : ∀ a s, s.current.kind = lead mid → g a s = f a s) :
    Fails tokens failure limit depth (p >>= g) kinds := by
  intro s i shows stands
  obtain ⟨t, run⟩ := fails s i shows stands
  refine ⟨t, .trans ?_ run⟩
  cases ran : p s with
  | ok a s₁ =>
    obtain ⟨-, -, shows₁⟩ := first.ok s a s₁ shows ran
    rw [bind_ok ran, bind_ok ran]
    exact same a s₁ shows₁.current
  | error other s₁ => rw [bind_error ran, bind_error ran]

/-- A table begins with a name or a parenthesis. -/
theorem Parse.Gives.tablePrimary_opens {phrases : Phrases} {item : Rel} {left : List Kind}
    (gives : Gives (tablePrimary phrases) row item left) :
    isQueryStart (lead row) = false ∧ row ≠ [] := by
  obtain ⟨start, gives⟩ := gives.still here_still
  have refuses (noParen : lead row ≠ .symbol .leftParen) (noName : (lead row).name? = none) :
      Refuses (tableFactor phrases) row := by
    refine .past (fun _ _ => atSign_no noParen) ?_
    refine .still here_still fun _ => Refuses.bind (.bind ?_ _) _
    refine .past (fun _ _ => kind_reads) fun s a t _ run => ?_
    rw [noName] at run
    cases run
  refine ⟨Bool.eq_false_iff.mpr fun starts => gives.elim ((refuses ?_ ?_).bind _), ?_⟩
  · intro isParen
    rw [isParen] at starts
    cases starts
  · generalize lead row = kind at starts ⊢
    unfold isQueryStart at starts
    split at starts <;> first | rfl | cases starts
  · rintro rfl
    exact gives.elim ((refuses (by simp) rfl).bind _)

theorem Parse.Takes.source_opens {item : Rel} (takes : Takes wholeSource row item) :
    isQueryStart (lead row) = false ∧ row ≠ [] := by
  have gives : Gives (source (Phrases.within (8 * row.length + 16))) row item [] :=
    Gives.forState takes
  obtain ⟨first, mid, isFirst, -⟩ := gives.split
    (tablePrimary_repeats (Phrases.within_repeats (Nat.le_refl _) []) (Phrases.within_shuns _) row)
  exact isFirst.tablePrimary_opens

/-- Behind joined tables a join fails. -/
theorem FailsJoin.source (given : FailsJoin tokens failure rest) {item : Rel}
    (takes : Takes wholeSource row item) : FailsSource tokens failure (row ++ rest) := by
  obtain ⟨noQuery, some⟩ := takes.source_opens
  refine ⟨by rwa [lead_append_of_ne_nil some], by simp [some],
    fun {limit depth more fewer next} enough enough' room goesOn => ?_⟩
  have shorter : rest ≠ [] := by
    rintro rfl
    cases given.starts
  have shorter := List.length_pos_iff.mpr shorter
  rw [List.length_append] at enough enough' room
  have ends : EndsJoined rest := .of_join given.starts
  obtain ⟨first, others, up, last, few, low, starts, table, leads⟩ :=
    takes.source_leads ends.toEndsSource ends.closes (isNegatable_of_isJoinStart given.starts)
      ends.apart
  have starts : isJoinStart (lead (others ++ rest)) = true := by
    rcases starts with rfl | starts
    · exact given.starts
    · rwa [lead_append_of_ne_nil (by rintro rfl; cases starts)]
  have lengths : (row ++ rest).length = row.length + rest.length := List.length_append
  have course (i : Nat) (few : tokens.length ≤ i + (row ++ rest).length + 1) :
      (Phrases.within more).From tokens i ∧ (Phrases.within fewer).From tokens i :=
    ⟨Phrases.within_from (by omega) few, Phrases.within_from (by omega) few⟩
  have begins := table more limit depth (by omega) (by omega)
  refine Fails.replace (f := joins (Phrases.within fewer)) ?_ begins fun a s isLead =>
    goesOn a s (by rwa [isLead])
  -- the joins of the item and the failing one are rounds of one loop
  have regroup : (do joins (Phrases.within fewer) (← tablePrimary (Phrases.within more))) =
      (do loop (joinStep (Phrases.within fewer)) ((← tablePrimary (Phrases.within more)), 0)) >>=
        fun done => do leave done.2; return done.1 := by
    simp only [joins, bind_assoc]
  rw [regroup]
  refine .bind (.rounds begins
    (fun i few => tablePrimary_runs ((course i few).1.later (Nat.le_succ i)))
    (fun i j a few past laid => ⟨joinStep_rounds ((course i few).2.later (by omega)), laid⟩)
    (fun a isFirst => ⟨isFirst, rfl⟩) (leads fewer limit depth (by omega) (by omega))
    fun v _ => ?_)
  obtain ⟨left, levels⟩ := v
  refine .look startsJoin_looks ?_
  rw [given.starts, if_pos rfl]
  exact .enter (by omega) (given.fails left (by omega) (by omega)).bind

/-! ### Joins -/

theorem FailsTable.cross (given : FailsTable tokens failure row) :
    FailsJoin tokens failure (.keyword .CROSS :: .keyword .JOIN :: row) where
  starts := rfl
  fails {limit depth more} left enough room := by
    simp only [List.length_cons] at enough room
    exact .takeWord (.expectWord (given.fails (by omega) (by omega)).bind)

theorem FailsTable.natural (given : FailsTable tokens failure row) {kind : JoinKind}
    {words : List Keyword} (spelled : words ∈ kind.spellings) :
    FailsJoin tokens failure
      (.keyword .NATURAL :: (words.map .keyword ++ .keyword .JOIN :: row)) where
  starts := rfl
  fails {limit depth more} left enough room := by
    simp only [List.length_cons, List.length_append] at enough room
    refine .passWord (by simp) (.takeWord ?_)
    refine .step (joinKind_spelled spelled) (fun _ _ => joinKind_runs.passes) ?_
    exact (given.fails (by omega) (by omega)).bind

/-- The right operand of a join that has a condition. -/
theorem FailsSource.right (given : FailsSource tokens failure row) {kind : JoinKind}
    {words : List Keyword} (spelled : words ∈ kind.spellings) :
    FailsJoin tokens failure (words.map .keyword ++ .keyword .JOIN :: row) where
  starts := (lead_spelled spelled row).1
  fails {limit depth more} left enough room := by
    simp only [List.length_cons, List.length_append] at enough room
    obtain ⟨-, noCross, noNatural⟩ := lead_spelled spelled row
    refine .passWord noCross (.passWord noNatural ?_)
    refine .step (joinKind_spelled spelled) (fun _ _ => joinKind_runs.passes) ?_
    obtain ⟨more, rfl⟩ : ∃ fewer, more = fewer + 1 := ⟨more - 1, by omega⟩
    exact .pair (given.fails (by omega) (by omega) (by omega) fun _ _ _ => rfl)

theorem Parse.wholeSource_repeats {more fewer : Nat} (enough : 8 * row.length + 16 ≤ more)
    (enough' : 8 * row.length + 16 ≤ fewer) :
    Repeats rest (ClosesJoins rest) (2 * row.length) (Keyed Rel.erase) wholeSource
      (do joins (Phrases.within fewer) (← tablePrimary (Phrases.within more))) row := by
  have below {more : Nat} (enough : 8 * row.length + 16 ≤ more) :
      (Phrases.within (8 * row.length + 16)).Repeats (Phrases.within more) rest :=
    Phrases.within_repeats enough rest
  have shuns := Phrases.within_shuns (8 * row.length + 16)
  refine .forState (.bind ((tablePrimary_repeats (below enough) shuns row).within (·.toEndsSource)
    (Nat.le_refl _)) id fun left left' mid same few => ?_)
  exact (joins_repeats (below enough') shuns same mid).within id (by omega)

theorem ClosesJoins.of_comma (isComma : lead row = .symbol .comma) : ClosesJoins row where
  noAs := by simp [isComma]
  noName := by rw [isComma]; rfl
  paren := by simp [isComma]
  dot := by simp [isComma]
  noJoin := by rw [isComma]; rfl
  condition := ⟨.of_quiet (by rw [isComma]; rfl), by simp [isComma]⟩

theorem Parse.source_item : IsClause source (lead · = .symbol .comma) where
  runs course := (source_runs (course.later (Nat.le_succ _))).passes
  repeats below shuns row := (source_repeats below shuns row).mono .of_comma (Nat.le_succ _)
    fun _ _ _ => ⟨trivial, rfl⟩

/-- The condition of a join, behind its right operand. -/
theorem FailsOperand.on (given : FailsOperand tokens failure 0 row) {kind : JoinKind}
    {words : List Keyword} (spelled : words ∈ kind.spellings) {other : List Kind} {right : Rel}
    (takes : Takes wholeSource other right) :
    FailsJoin tokens failure
      (words.map .keyword ++ .keyword .JOIN :: (other ++ .keyword .ON :: row)) where
  starts := (lead_spelled spelled _).1
  fails {limit depth more} left enough room := by
    simp only [List.length_cons, List.length_append] at enough room
    obtain ⟨-, noCross, noNatural⟩ := lead_spelled spelled (other ++ .keyword .ON :: row)
    refine .passWord noCross (.passWord noNatural ?_)
    refine .step (joinKind_spelled spelled) (fun _ _ => joinKind_runs.passes) ?_
    obtain ⟨more, rfl⟩ : ∃ fewer, more = fewer + 1 := ⟨more - 1, by omega⟩
    have again : Repeats (.keyword .ON :: row) (ClosesJoins (.keyword .ON :: row)) (2 * other.length)
        (Keyed Rel.erase) wholeSource
        (do joins (Phrases.within more) (← tablePrimary (Phrases.within (more + 1)))) other :=
      wholeSource_repeats (by omega) (by omega)
    have closes : ClosesJoins (.keyword .ON :: row) :=
      ⟨⟨by simp, by simp, by simp, rfl⟩, rfl, ⟨.of_quiet rfl, by simp⟩⟩
    have ran : Fails tokens failure limit depth
        ((do joins (Phrases.within more) (← tablePrimary (Phrases.within (more + 1)))) >>=
          fun right => do
            let condition ← joinCondition (Phrases.within (more + 1))
            return Rel.join kind false condition left right (← spanFrom left.span))
        (other ++ .keyword .ON :: row) := by
      refine .given takes again (fun _ => closes) rfl rfl (by omega) (fun i few => ?_) fun _ _ => ?_
      · have course {more : Nat} (enough : 2 * (other ++ .keyword .ON :: row).length + 4 ≤ more) :
            (Phrases.within more).From tokens i := Phrases.within_from enough few
        simp only [List.length_append, List.length_cons] at course
        have whole : Runs tokens i
            (do joins (Phrases.within more) (← tablePrimary (Phrases.within (more + 1))))
            fun j r => Laid tokens i j [.ofRel r] :=
          (tablePrimary_runs ((course (by omega)).later (Nat.le_succ i))).bind
            fun _ j past laid => joins_runs ((course (by omega)).later (by omega)) laid
        exact whole.passes
      · exact Fails.bind (.takeWord (given.expression (by omega) (by omega)).bind)
    rwa [bind_assoc] at ran

/-! ### Parentheses -/

/-- Joined tables in parentheses. -/
theorem FailsSource.enclosed (given : FailsSource tokens failure row) :
    FailsTable tokens failure (.symbol .leftParen :: row) where
  noQuery := rfl
  nonempty := by simp
  fails {limit depth more} enough room := by
    rw [List.length_cons] at enough room
    obtain ⟨more, rfl⟩ : ∃ fewer, more = fewer + 1 := ⟨more - 1, by omega⟩
    refine .still here_still fun start => Fails.bind (.look (atSign_looks _) ?_)
    refine .nested (by omega) (.still here_still fun _ => .expectSign (Fails.bind ?_))
    refine .look startsQuery_looks ?_
    rw [given.noQuery, if_neg (by simp)]
    have joined {next : Rel → Parse Rel} (goesOn : ∀ first s, isJoinStart s.current.kind = true →
        next first s = joins (Phrases.within more) first s) :
        Fails tokens failure limit (depth + 1) (do next (← tablePrimary (Phrases.within more))) row :=
      given.fails (by omega) (by omega) (by omega) goesOn
    refine .look (atSign_looks _) ?_
    split
    · refine joined fun first s starts => ?_
      rw [bind_ok (continuesQuery_looks s), noNext_of_isJoinStart starts]
      rfl
    · exact joined fun _ _ _ => rfl

end CanonicalSql
