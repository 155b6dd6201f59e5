import CanonicalSql.Proofs.Elsewhere.Whole
import CanonicalSql.Proofs.Reading.Rounds

/-!
# Rounds elsewhere

A loop that has taken a row alone ends there. In front of a token that begins another round it goes
through the same rounds and then goes on: `Gives.loop_leads` says so for every loop whose rounds
are made again (`GoesAgain`), and an operand and joined tables are read in such loops.
-/
namespace CanonicalSql.Parse

variable {σ τ : Type} {rest row : List Kind}

/-- A round that gives something on a row alone gives the same in front of `rest`, at a level that
has risen, and a round that gives nothing takes nothing. -/
structure GoesAgain (rest : List Kind) (rise spare : Nat) (same : σ → τ → Prop) (level : σ → Nat)
    (step : σ → Parse (Option σ)) (step' : τ → Parse (Option τ)) : Prop where
  low : rise ≤ 1
  moves : ∀ {v : σ} {next : Option σ} {left : List Kind} {s t : State}, s.Faces left →
    step v s = .ok next t → ∃ mid, t.Faces mid
  stays : ∀ {v : σ} {left mid : List Kind}, Gives (step v) left none mid → mid = left
  again : ∀ {v next : σ} {left mid : List Kind}, Gives (step v) left (some next) mid →
    level next = level v + rise ∧
      ∀ w limit depth, same v w → depth + (2 * left.length + spare) ≤ capOf limit →
        Reads limit True (step' w) depth (left ++ rest)
          (fun found => ∃ w', found = some w' ∧ same next w') (depth + rise) (mid ++ rest)

variable {rise spare : Nat} {same : σ → τ → Prop} {level : σ → Nat} {step : σ → Parse (Option σ)}
  {step' : τ → Parse (Option τ)}

/-- Where a step echoes, it comes to a row that is left. -/
theorem Echoes.moves {α β : Type} {ends : Prop} {need : Nat} {agree : α → β → Prop} {up : α → Nat}
    {p : Parse α} {q : Parse β} (given : Echoes rest ends need agree up p q row) {a : α} {s t : State}
    (faces : s.Faces row) (run : p s = .ok a t) : ∃ mid, t.Faces mid := by
  obtain ⟨mid, faces', -⟩ := given.there s a t faces run
  exact ⟨mid, faces'⟩

/-- The rounds made on the row alone, up to its end, lead there in front of `rest`. The induction is
on these rounds; each takes a token, which pays for the level that it enters. -/
theorem GoesAgain.iterate (goes : GoesAgain rest rise spare same level step step') (bound : Nat)
    {value a : σ} {s t : State} (faces : s.Faces row) (ends : t.Faces [])
    (run : iterate (round step) bound value s = .ok a t) :
    ∃ up, up ≤ row.length ∧ level a = level value + up ∧
      ∀ limit depth, depth + (2 * row.length + spare) ≤ capOf limit →
        Leads limit step' (same value) depth (row ++ rest) (same a) (depth + up) rest := by
  induction bound generalizing row value s with
  | zero => cases run
  | succ bound ih =>
    obtain ⟨next, middle, ran, run⟩ := ok_of_bind run
    obtain ⟨ran, fewer⟩ := round_ok ran
    cases next with
    | none =>
      cases run
      obtain rfl := goes.stays ⟨s, t, faces, ends, ran⟩
      exact ⟨0, Nat.zero_le _, rfl, fun limit depth _ => .none fun _ => id⟩
    | some next =>
      have low := goes.low
      obtain ⟨mid, faces₁⟩ := goes.moves faces ran
      obtain ⟨rises, reads⟩ := goes.again ⟨s, middle, faces, faces₁, ran⟩
      have fewer : mid.length < row.length := by
        have fewer := fewer (by simp)
        rwa [faces₁.ahead_length, faces.ahead_length] at fewer
      obtain ⟨up, few, above, others⟩ := ih faces₁ run
      refine ⟨up + rise, by omega, by omega, fun limit depth room => ?_⟩
      have shorter : (mid ++ rest).length < (row ++ rest).length := by
        simpa only [List.length_append, Nat.add_lt_add_iff_right] using fewer
      have first : Leads limit step' (same value) depth (row ++ rest) (same next) (depth + rise)
          (mid ++ rest) := .one shorter fun w isSame => reads w limit depth isSame room
      have second := others limit (depth + rise) (by omega)
      rw [show depth + rise + up = depth + (up + rise) by omega] at second
      exact first.trans second

theorem GoesAgain.loop_leads (goes : GoesAgain rest rise spare same level step step') {value a : σ}
    (takes : Takes (loop step value) row a) :
    ∃ up, up ≤ row.length ∧ level a = level value + up ∧
      ∀ limit depth, depth + (2 * row.length + spare) ≤ capOf limit →
        Leads limit step' (same value) depth (row ++ rest) (same a) (depth + up) rest := by
  obtain ⟨s, t, faces, ends, run⟩ := takes
  exact goes.iterate _ faces ends run

/-! ## Operators -/

section

variable {α : Type} {a : α} {left : List Kind} {phrases phrases' : Phrases}

/-- What is read behind `enter` is read one level higher too. -/
theorem Gives.enter {f : Unit → Parse α} (gives : Gives (enter >>= f) row a left) :
    Gives (f ()) row a left := by
  obtain ⟨s, t, faces, faces', run⟩ := gives
  obtain ⟨u, entered, ran, run⟩ := ok_of_bind run
  obtain rfl := enter_eq ran
  exact ⟨{ s with depth := s.depth + 1 }, t, faces.congr rfl rfl rfl, faces', run⟩

/-- A rule that comes back from its levels has read what it reads before. -/
theorem Gives.leaves {β : Type} {p : Parse β} {levels : β → Nat} {value : β → α}
    (gives : Gives (do let b ← p; leave (levels b); return value b) row a left) :
    ∃ b, Gives p row b left := by
  obtain ⟨s, t, faces, faces', run⟩ := gives
  obtain ⟨b, middle, ran, run⟩ := ok_of_bind run
  have result : EStateM.Result.ok (value b) { middle with depth := middle.depth - levels b } =
    .ok a t := run
  obtain ⟨-, rfl⟩ := EStateM.Result.ok.inj result
  exact ⟨b, s, middle, faces, faces'.congr rfl rfl rfl, ran⟩

/-- A round of the operators stops where it stands, or applies the operator that is ahead. -/
theorem Gives.operatorStep {least : Nat} {start : Span} {done : Applied} {next : Option Applied}
    (gives : Gives (operatorStep phrases least start done) row next left) :
    next = none ∧ left = row ∨ ∃ power e, Power.ahead row = some power ∧ least ≤ power.left ∧
      ¬ (done.afterComparison && decide (Power.comparison.left ≤ power.left)) = true ∧
      Gives (applied phrases done.left power.right start) row e left ∧
      next = some ⟨e, done.levels + 1, power = .comparison⟩ := by
  have gives := gives.step fun _ _ => operatorPower_reads
  cases isAhead : Power.ahead row with
  | none =>
    rw [isAhead] at gives
    exact .inl gives.pure
  | some power =>
    rw [isAhead] at gives
    dsimp only at gives
    split at gives
    · exact .inl gives.pure
    · next strong =>
      split at gives
      · obtain ⟨s, t, -, -, run⟩ := gives
        cases run
      · next noChain =>
        obtain ⟨e, isNext, gives⟩ := gives.enter.map
        exact .inr ⟨power, e, rfl, by omega, noChain, gives, isNext⟩

variable (below : phrases.Repeats phrases' rest)
include below

/-- The operators of an operand that ends there are applied again in front of a weaker operator,
also where such an operator is wanted too. -/
theorem operatorStep_again (shuns : phrases.Shuns) {least least' : Nat} {start start' : Span}
    (weaker : least' ≤ least) (closes : Closes (min (least + 1) 5) rest)
    (noPredicate : isNegatable (lead rest) = false) (apart : isJoint (lead rest) = false) :
    GoesAgain rest 1 0 SameApplied Applied.levels (operatorStep phrases least start)
      (operatorStep phrases' least' start') where
  low := Nat.le_refl 1
  moves {v next left s t} faces run := by
    have echoes : Echoes rest False (2 * left.length + 0) (Again SameApplied Applied.levels 1 v)
        (risen 1) (operatorStep phrases least start v) (operatorStep phrases' least start v) left :=
      operatorStep_echoes below shuns ⟨rfl, rfl, rfl⟩ False.elim left
    exact echoes.moves faces run
  stays gives := by
    rcases gives.operatorStep with ⟨-, isLeft⟩ | ⟨power, e, -, -, -, -, none⟩
    · exact isLeft
    · cases none
  -- a round that goes on applies an operator, which is found again
  again {v next left mid} gives := by
    rcases gives.operatorStep with ⟨none, -⟩ | ⟨power, e, isAhead, strong, noChain, applies, isNext⟩
    · cases none
    obtain rfl := Option.some.inj isNext
    have right := Power.right_of_ahead isAhead
    refine ⟨rfl, fun w limit depth isSame room => ?_⟩
    have longer : 0 < left.length := by
      refine List.length_pos_iff.mpr ?_
      rintro rfl
      cases isAhead
    have there : Reads limit True (applied phrases' w.left power.right start') (depth + 1)
        (left ++ rest) (Keyed Expr.erase e) (depth + 1) (mid ++ rest) :=
      applies.reads (applied_repeats below shuns isSame.left id left)
        (fun _ => closes.weaken (show min (least + 1) 5 ≤ min power.right 5 by omega)) noPredicate
        apart (by omega)
    refine operatorPower_reads.step ?_
    rw [Power.ahead_append_of_some isAhead]
    dsimp only
    rw [if_neg (by omega), isSame.afterComparison, if_neg noChain]
    refine (enter_reads (by omega)).step (there.after fun e' isThere => ?_)
    exact .pure trivial ⟨_, rfl, isThere, congrArg (· + 1) isSame.levels, rfl⟩

end

/-- An operand, with as many levels as the tokens left may need. -/
def operandOfPower (least : Nat) : Parse Expr := do (← Phrases.forState).operand least

/-- What is an operand alone is read in front of a weaker operator as a leading part and the
operators behind it, also where such an operator is wanted too. -/
theorem Takes.operand_leads {least more : Nat} {e : Expr} (takes : Takes (operandOfPower least) row e)
    (enough : 8 * row.length + 16 ≤ more) (closes : Closes (min (least + 1) 5) rest)
    (noPredicate : isNegatable (lead rest) = false) (apart : isJoint (lead rest) = false) :
    ∃ first others up last, others.length ≤ row.length ∧ up ≤ others.length ∧
      (∀ limit depth, depth + 2 * row.length ≤ capOf limit →
        Reads limit True (leading (Phrases.within more)) depth (row ++ rest)
          (Keyed Expr.erase first) depth (others ++ rest)) ∧
      ∀ limit depth start least', least' ≤ least → depth + 2 * others.length ≤ capOf limit →
        Leads limit (operatorStep (Phrases.within more) least' start) (SameApplied ⟨first, 0, false⟩)
          depth (others ++ rest) (SameApplied last) (depth + up) rest := by
  have gives : Gives (operand (Phrases.within (8 * row.length + 15)) least) row e [] :=
    Gives.forState takes
  generalize isBound : 8 * row.length + 15 = levels at gives
  have below : (Phrases.within levels).Repeats (Phrases.within more) rest :=
    Phrases.within_repeats (by omega) rest
  have shuns := Phrases.within_shuns levels
  obtain ⟨start, gives⟩ := gives.still here_still
  have leads := leading_repeats below shuns id row
  obtain ⟨first, others, isFirst, behind⟩ := gives.split leads
  obtain ⟨last, loops⟩ := behind.leaves
  have goes (start' : Span) {least' : Nat} (weaker : least' ≤ least) :
      GoesAgain rest 1 0 SameApplied Applied.levels (operatorStep (Phrases.within levels) least start)
        (operatorStep (Phrases.within more) least' start') :=
    operatorStep_again below shuns weaker closes noPredicate apart
  obtain ⟨up, few, rises, -⟩ := (goes start (Nat.le_refl least)).loop_leads loops
  refine ⟨first, others, up, last, (isFirst.suffix leads).length_le, few, fun limit depth room => ?_,
    fun limit depth start' least' weaker room => ?_⟩
  · exact isFirst.reads leads (fun _ => closes.weaken (Nat.min_le_right _ _)) noPredicate apart room
  · obtain ⟨up', -, rises', there⟩ := (goes start' weaker).loop_leads loops
    obtain rfl : up' = up := Nat.add_left_cancel (rises'.symm.trans rises)
    exact there limit depth room

/-! ## Set operations -/

/-- A round of the set operations stops where it stands, or reads an operation. -/
theorem Gives.setOperationStep {phrases : Phrases} {least levels : Nat} {left : Rel}
    {next : Option (Rel × Nat)} {mid : List Kind}
    (gives : Gives (setOperationStep phrases least (left, levels)) row next mid) :
    next = none ∧ mid = row ∨ ∃ op power r, SetOperator.ofKind? (lead row) = some (op, power) ∧
      least ≤ power.left ∧ Gives (setOperation phrases op power.right left) row r mid ∧
      next = some (r, levels + 1) := by
  rw [setOperationStep_eq] at gives
  have gives := gives.step fun _ _ => kind_reads
  split at gives
  · exact .inl gives.pure
  · next op power isOperator =>
    split at gives
    · exact .inl gives.pure
    · next strong =>
      obtain ⟨r, isNext, gives⟩ := gives.enter.map
      exact .inr ⟨op, power, r, isOperator, by omega, gives, isNext⟩

/-- The operations of a body that ends there are read again in front of a weaker operator, also
where such an operator is wanted too. -/
theorem setOperationStep_again {phrases phrases' : Phrases} (below : phrases.Repeats phrases' rest)
    (shuns : phrases.Shuns) {least least' : Nat} (weaker : least' ≤ least)
    (closes : ClosesBody (least + 1) rest) (noPredicate : isNegatable (lead rest) = false)
    (apart : isJoint (lead rest) = false) :
    GoesAgain rest 1 0 SameSteps Prod.snd (setOperationStep phrases least)
      (setOperationStep phrases' least') where
  low := Nat.le_refl 1
  moves {v next left s t} faces run := by
    have echoes : Echoes rest (ClosesBody least rest) (2 * left.length + 0)
        (Again SameSteps Prod.snd 1 v) (risen 1) (setOperationStep phrases least v)
        (setOperationStep phrases' least v) left :=
      setOperationStep_echoes below shuns ⟨rfl, rfl⟩ left
    exact echoes.moves faces run
  stays {v left mid} gives := by
    rcases gives.setOperationStep with ⟨-, isLeft⟩ | ⟨op, power, r, -, -, -, none⟩
    · exact isLeft
    · cases none
  again {v next left mid} gives := by
    obtain ⟨relation, levels⟩ := v
    rcases gives.setOperationStep with ⟨none, -⟩ | ⟨op, power, r, isOperator, strong, operation, isNext⟩
    · cases none
    obtain rfl := Option.some.inj isNext
    have higher := SetOperator.power_lt isOperator
    have opens : left ≠ [] := by
      rintro rfl
      cases isOperator
    have longer := List.length_pos_iff.mpr opens
    refine ⟨rfl, fun w limit depth isSame room => ?_⟩
    obtain ⟨relation', levels'⟩ := w
    obtain ⟨isSame, rfl⟩ := isSame
    have stronger : ClosesBody power.right rest :=
      ⟨closes.past, fun op' power' isOther => by have := closes.power op' power' isOther; omega⟩
    have there : Reads limit True (setOperation phrases' op power.right relation') (depth + 1)
        (left ++ rest) (Keyed Rel.erase r) (depth + 1) (mid ++ rest) :=
      operation.reads (setOperation_repeats below shuns isOperator isSame) (fun _ => stronger)
        noPredicate apart (by omega)
    rw [setOperationStep_eq]
    refine kind_reads.step ?_
    rw [lead_append_of_ne_nil opens, isOperator]
    dsimp only
    rw [if_neg (by omega)]
    refine (enter_reads (by omega)).step (there.after fun r' isThere => ?_)
    exact .pure trivial ⟨_, rfl, isThere, rfl⟩

/-- Set operations of the power at least, with as many levels as the tokens left may need. -/
def bodyOfPower (least : Nat) : Parse Rel := do
  let phrases ← Phrases.forState
  setOperations phrases (← queryPrimary phrases) least

/-- A body is an operand and the operations behind it. -/
theorem Takes.body_split {least : Nat} {body : Rel} (takes : Takes (bodyOfPower least) row body) :
    ∃ first mid, Gives (queryPrimary (Phrases.within (8 * row.length + 16))) row first mid ∧
      Takes (setOperations (Phrases.within (8 * row.length + 16)) first least) mid body :=
  (Gives.forState takes).split (queryPrimary_repeats (Phrases.within_repeats (Nat.le_refl _) [])
    (Phrases.within_shuns _) row)

/-- No operation follows an operand but behind its operator. -/
theorem Takes.operations_start {phrases : Phrases} {least : Nat} {first body : Rel}
    (takes : Takes (setOperations phrases first least) row body) :
    row = [] ∨ isQueryNext (lead row) = true := by
  cases isOperator : SetOperator.ofKind? (lead row) with
  | none => exact .inl (takes.of_reads fun _ _ => noSetOperation_reads isOperator first).2
  | some operator =>
    refine .inr ?_
    unfold SetOperator.ofKind? at isOperator
    split at isOperator
    case h_4 => cases isOperator
    all_goals
      next isLead => rw [isLead]; rfl

/-- What are the operations behind an operand alone are the first ones behind it in front of a weaker
operator. -/
theorem Takes.operations_lead {levels more least least' : Nat} {first found body : Rel}
    (takes : Takes (setOperations (Phrases.within levels) first least) row body)
    (same : found.erase = first.erase) (enough : levels ≤ more) (weaker : least' ≤ least)
    (closes : ClosesBody (least + 1) rest) (noPredicate : isNegatable (lead rest) = false)
    (apart : isJoint (lead rest) = false) :
    ∃ up ≤ row.length, ∀ limit depth, depth + 2 * row.length ≤ capOf limit →
      Leads limit (setOperationStep (Phrases.within more) least') (· = (found, 0)) depth (row ++ rest)
        (fun _ => True) (depth + up) rest := by
  obtain ⟨last, loops⟩ := Gives.leaves takes
  have goes := setOperationStep_again (Phrases.within_repeats enough rest)
    (Phrases.within_shuns levels) weaker closes noPredicate apart
  obtain ⟨up, few, -, leads⟩ := goes.loop_leads loops
  refine ⟨up, few, fun limit depth room v s isFirst shows => ?_⟩
  obtain ⟨w, t, -, shows', reaches⟩ := leads limit depth room v s (isFirst ▸ ⟨same, rfl⟩) shows
  exact ⟨w, t, trivial, shows', reaches⟩

/-! ## Joins -/

/-- A round of the joins stops where it stands, or reads a join. -/
theorem Gives.joinStep {phrases : Phrases} {left : Rel} {levels : Nat} {next : Option (Rel × Nat)}
    {mid : List Kind} (gives : Gives (joinStep phrases (left, levels)) row next mid) :
    next = none ∧ mid = row ∨ isJoinStart (lead row) = true ∧
      ∃ r, Gives (join phrases left) row r mid ∧ next = some (r, levels + 1) := by
  have gives := gives.step fun _ _ => startsJoin_looks.reads
  split at gives
  · next starts =>
    obtain ⟨r, isNext, gives⟩ := gives.enter.map
    exact .inr ⟨starts, r, gives, isNext⟩
  · exact .inl gives.pure

theorem joinStep_again {phrases phrases' : Phrases} (below : phrases.Repeats phrases' rest)
    (shuns : phrases.Shuns) (table : EndsSource rest) (condition : Closes 0 rest)
    (noPredicate : isNegatable (lead rest) = false) (apart : isJoint (lead rest) = false) :
    GoesAgain rest 1 0 SameSteps Prod.snd (joinStep phrases) (joinStep phrases') where
  low := Nat.le_refl 1
  moves {v next left s t} faces run := by
    have echoes : Echoes rest (ClosesJoins rest) (2 * left.length + 0) (Again SameSteps Prod.snd 1 v)
        (risen 1) (joinStep phrases v) (joinStep phrases' v) left :=
      joinStep_echoes below shuns ⟨rfl, rfl⟩ left
    exact echoes.moves faces run
  stays {v left mid} gives := by
    rcases gives.joinStep with ⟨-, isLeft⟩ | ⟨-, r, -, none⟩
    · exact isLeft
    · cases none
  again {v next left mid} gives := by
    obtain ⟨relation, levels⟩ := v
    rcases gives.joinStep with ⟨none, -⟩ | ⟨starts, r, joins, isNext⟩
    · cases none
    obtain rfl := Option.some.inj isNext
    have opens : left ≠ [] := by
      rintro rfl
      cases starts
    have longer := List.length_pos_iff.mpr opens
    refine ⟨rfl, fun w limit depth isSame room => ?_⟩
    obtain ⟨relation', levels'⟩ := w
    obtain ⟨isSame, rfl⟩ := isSame
    have there : Reads limit True (join phrases' relation') (depth + 1) (left ++ rest)
        (Keyed Rel.erase r) (depth + 1) (mid ++ rest) :=
      joins.reads (join_repeats below shuns isSame (fun _ : True => table)
        (fun _ => condition) left) (fun _ => trivial) noPredicate apart (by omega)
    refine startsJoin_looks.reads.step ?_
    rw [lead_append_of_ne_nil opens, starts, if_pos rfl]
    refine (enter_reads (by omega)).step (there.after fun r' isThere => ?_)
    exact .pure trivial ⟨_, rfl, isThere, rfl⟩

/-- A source of a projection, with as many levels as the tokens left may need. -/
def wholeSource : Parse Rel := do source (← Phrases.forState)

/-- No join follows a source that is read in full but those of its own. -/
theorem Takes.joins_start {phrases : Phrases} {first last : Rel × Nat}
    (takes : Takes (loop (joinStep phrases) first) row last) :
    row = [] ∨ isJoinStart (lead row) = true := by
  by_contra neither
  rw [not_or, Bool.not_eq_true] at neither
  have stays (limit depth : Nat) : Reads limit True (loop (joinStep phrases) first) depth row
      (· = first) depth row :=
    (Leads.none fun _ => id).loop (fun v _ => joinStep_none neither.2 v) rfl
  exact neither.1 (takes.of_reads stays).2

/-- What is a source alone is read in front of a join as a table and the joins behind it. -/
theorem Takes.source_leads {item : Rel} (takes : Takes wholeSource row item)
    (table : EndsSource rest) (condition : Closes 0 rest)
    (noPredicate : isNegatable (lead rest) = false) (apart : isJoint (lead rest) = false) :
    ∃ first others up last, others.length ≤ row.length ∧ up ≤ others.length ∧
      (others = [] ∨ isJoinStart (lead others) = true) ∧
      (∀ more limit depth, 8 * row.length + 16 ≤ more → depth + 2 * row.length ≤ capOf limit →
        Reads limit True (tablePrimary (Phrases.within more)) depth (row ++ rest)
          (Keyed Rel.erase first) depth (others ++ rest)) ∧
      ∀ more limit depth, 8 * row.length + 16 ≤ more → depth + 2 * others.length ≤ capOf limit →
        Leads limit (joinStep (Phrases.within more)) (SameSteps (first, 0)) depth (others ++ rest)
          (SameSteps last) (depth + up) rest := by
  have below {more : Nat} (enough : 8 * row.length + 16 ≤ more) :
      (Phrases.within (8 * row.length + 16)).Repeats (Phrases.within more) rest :=
    Phrases.within_repeats enough rest
  have shuns := Phrases.within_shuns (8 * row.length + 16)
  have gives : Gives (source (Phrases.within (8 * row.length + 16))) row item [] :=
    Gives.forState takes
  have leads {more : Nat} (enough : 8 * row.length + 16 ≤ more) :=
    tablePrimary_repeats (below enough) shuns row
  obtain ⟨first, others, isFirst, behind⟩ := gives.split (leads (Nat.le_refl _))
  obtain ⟨last, loops⟩ := behind.leaves
  have goes {more : Nat} (enough : 8 * row.length + 16 ≤ more) :=
    joinStep_again (below enough) shuns table condition noPredicate apart
  obtain ⟨up, few, rises, -⟩ := (goes (Nat.le_refl _)).loop_leads loops
  refine ⟨first, others, up, last, (isFirst.suffix (leads (Nat.le_refl _))).length_le, few,
    Takes.joins_start loops, fun more limit depth enough room => ?_, fun more limit depth enough room => ?_⟩
  · exact isFirst.reads (leads enough) (fun _ => table) noPredicate apart room
  · obtain ⟨up', -, rises', there⟩ := (goes enough).loop_leads loops
    obtain rfl : up' = up := Nat.add_left_cancel (rises'.symm.trans rises)
    exact there limit depth room

end CanonicalSql.Parse
