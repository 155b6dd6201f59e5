import CanonicalSql.Proofs.Reading.Rounds
import CanonicalSql.Proofs.Steps.Statement

/-!
# The counter of levels

Levels are entered one by one, by `nested` and by the rounds of four loops, and are given back one
by one or, after a loop, all at once. `leave` would hide a level that is given back twice, because
subtraction stops at zero. `Guarded` therefore says of a run that no `leave` in it asks for more
than the counter holds, whatever becomes of the run; and that the counter stays within a bound.

A rule keeps the counter (`Counts`) because of the way it is built: `Built.counted` is an induction
with one case for each basic step, in which the base below the levels that the rule has entered
itself never changes.
-/
namespace CanonicalSql.Parse

variable {α β σ : Type} {base top : Nat}

/-- The run of a step from a state is made of basic steps. The counter is within `top` where each
of them begins, and holds what is given back. -/
inductive Guarded (top : Nat) : {α : Type} → Parse α → State → Prop
  | look {α : Type} {s : State} (result : Token → Span → Nat → Except Failure α)
    (within : s.depth ≤ top) : Guarded top (looking result) s
  | advance {s : State} (within : s.depth ≤ top) : Guarded top advance s
  | peek {s : State} (within : s.depth ≤ top) : Guarded top peek s
  | enter {s : State} (within : s.depth ≤ top) : Guarded top enter s
  | leave {s : State} {levels : Nat} (within : s.depth ≤ top) (held : levels ≤ s.depth) :
    Guarded top (leave levels) s
  | bind {α β : Type} {s : State} {p : Parse α} {f : α → Parse β} (first : Guarded top p s)
    (rest : ∀ a t, p s = .ok a t → Guarded top (f a) t) : Guarded top (p >>= f) s
  | sized {α : Type} {s : State} {f : Nat → Parse α} (given : Guarded top (f s.ahead.length) s) :
    Guarded top (sized f) s

/-- The step keeps the counter: it comes back to the depth at which it began, gives back no more
than it entered, and nowhere exceeds the cap if the counter did not exceed it before. -/
structure Counts (p : Parse α) : Prop where
  ok : ∀ s a t, p s = .ok a t → t.depth = s.depth ∧ t.limit = s.limit
  /-- A step that fails leaves the levels that it has entered, and so the one that was entered for
  it can still be given back. -/
  error : ∀ s failure t, p s = .error failure t →
    s.depth ≤ t.depth ∧ t.depth ≤ max s.depth s.cap
  guarded : ∀ s, Guarded (max s.depth s.cap) p s

/-- However many rounds have gone, the next one begins at the depth of the first one and has the
same levels left. -/
def CountsRounds (step : σ → Parse (Option σ)) : Prop :=
  ∀ v s v' s', Reaches step v s v' s' → s'.depth = s.depth ∧ s'.cap = s.cap

/-! ## From basic steps to rules -/

/-- How the counter fares in a run that begins above the base: a result is given `down` levels
above it, and no failure stands below it. -/
structure Counted (base top : Nat) (down : α → Nat) (p : Parse α) (s : State) : Prop where
  ok : ∀ a t, p s = .ok a t → t.depth = base + down a ∧ t.limit = s.limit ∧ t.depth ≤ top
  error : ∀ failure t, p s = .error failure t → base ≤ t.depth ∧ t.depth ≤ top
  guarded : Guarded top p s

theorem Counted.bind {mid : α → Nat} {down : β → Nat} {p : Parse α} {f : α → Parse β} {s : State}
    (first : Counted base top mid p s)
    (rest : ∀ a t, p s = .ok a t → Counted base top down (f a) t) :
    Counted base top down (p >>= f) s where
  ok := by
    intro b t run
    obtain ⟨a, middle, ran, run⟩ := ok_of_bind run
    obtain ⟨level, limit, within⟩ := (rest a middle ran).ok b t run
    exact ⟨level, limit.trans (first.ok a middle ran).2.1, within⟩
  error := by
    intro failure t run
    rcases error_of_bind run with ran | ⟨a, middle, ran, run⟩
    · exact first.error failure t ran
    · exact (rest a middle ran).error failure t run
  guarded := .bind first.guarded fun a t ran => (rest a t ran).guarded

theorem looking_counted {up : Nat} {down : α → Nat} {s : State}
    (result : Token → Span → Nat → Except Failure α)
    (level : ∀ current previous limit a, result current previous limit = .ok a → down a = up)
    (begins : s.depth = base + up) (within : s.depth ≤ top) :
    Counted base top down (looking result) s where
  ok := by
    intro a t run
    unfold looking at run
    split at run
    · next b found =>
      cases run
      exact ⟨by rw [level _ _ _ _ found, begins], rfl, within⟩
    · cases run
  error := by
    intro failure t run
    unfold looking at run
    split at run
    · cases run
    · cases run
      exact ⟨by omega, within⟩
  guarded := .look result within

theorem advance_counted {up : Nat} {s : State} (begins : s.depth = base + up)
    (within : s.depth ≤ top) : Counted base top (fun _ => up) advance s where
  ok := by
    intro a t run
    unfold advance at run
    split at run
    · cases run
      exact ⟨begins, rfl, within⟩
    · cases run
    · cases run
      exact ⟨begins, rfl, within⟩
  error := by
    intro failure t run
    unfold advance at run
    split at run
    · cases run
    · cases run
      exact ⟨Nat.le_of_add_right_le (Nat.le_of_eq begins.symm), within⟩
    · cases run
  guarded := .advance within

theorem peek_counted {up : Nat} {s : State} (begins : s.depth = base + up)
    (within : s.depth ≤ top) : Counted base top (fun _ => up) peek s where
  ok := by
    intro a t run
    unfold peek at run
    split at run
    · cases run
      exact ⟨begins, rfl, within⟩
    · cases run
    · cases run
      exact ⟨begins, rfl, within⟩
  error := by
    intro failure t run
    unfold peek at run
    split at run
    · cases run
    · cases run
      exact ⟨Nat.le_of_add_right_le (Nat.le_of_eq begins.symm), within⟩
    · cases run
  guarded := .peek within

/-- The counter rises only below the cap. -/
theorem enter_counted {up : Nat} {s : State} (begins : s.depth = base + up)
    (within : s.depth ≤ top) (room : s.cap ≤ top) :
    Counted base top (fun _ => up + 1) enter s where
  ok := by
    intro a t run
    rw [enter_run] at run
    split at run
    · next below =>
      cases run
      refine ⟨by simp only [begins, Nat.add_assoc], rfl, ?_⟩
      exact Nat.le_trans below room
    · cases run
  error := by
    intro failure t run
    rw [enter_run] at run
    split at run
    · cases run
    · cases run
      exact ⟨by omega, within⟩
  guarded := .enter within

theorem leave_counted {up levels : Nat} {s : State} (begins : s.depth = base + (up + levels))
    (within : s.depth ≤ top) : Counted base top (fun _ => up) (leave levels) s where
  ok := by
    intro a t run
    cases run
    refine ⟨?_, rfl, ?_⟩
    · show s.depth - levels = base + up
      omega
    · show s.depth - levels ≤ top
      omega
  error := by
    intro failure t run
    cases run
  guarded := .leave within (by omega)

/-- What is built of basic steps ends as many levels above its base as it is said to. -/
theorem Built.counted {up : Nat} {down : α → Nat} {p q : Parse α} (built : Built up down p q)
    {s : State} (begins : s.depth = base + up) (within : s.depth ≤ top) (room : s.cap ≤ top) :
    Counted base top down p s := by
  induction built generalizing s with
  | look result _ level => exact looking_counted result level begins within
  | advance up => exact advance_counted begins within
  | peek up => exact peek_counted begins within
  | enter up => exact enter_counted begins within room
  | leave up levels => exact leave_counted begins within
  | bind _ _ first rest =>
    have one := first begins within room
    apply one.bind
    intro a t ran
    obtain ⟨level, limit, below⟩ := one.ok a t ran
    -- the cap hangs on the limit alone, which no step changes
    have same : t.cap = s.cap := by simp only [State.cap, limit]
    exact rest a level below (by rw [same]; exact room)
  | sized _ each =>
    have given := each s.ahead.length s.ahead.length begins within room
    exact ⟨given.ok, given.error, .sized given.guarded⟩
  | halted q =>
    apply looking_counted (fun _ _ _ => .error .exhausted) _ begins within
    intro current previous limit a isOk
    cases isOk
  | outlasted _ given => exact given begins within room

/-- A rule that is balanced keeps the counter, from every state. -/
theorem Balanced.counts {p q : Parse α} (balanced : Balanced p q) : Counts p := by
  have counted (s : State) : Counted s.depth (max s.depth s.cap) (fun _ => 0) p s :=
    (balanced 0).counted rfl (Nat.le_max_left _ _) (Nat.le_max_right _ _)
  refine ⟨?_, ?_, ?_⟩
  · intro s a t run
    obtain ⟨level, limit, -⟩ := (counted s).ok a t run
    exact ⟨level, limit⟩
  · intro s failure t run
    exact (counted s).error failure t run
  · intro s
    exact (counted s).guarded

/-- Rounds that keep the counter each keep it together. -/
theorem Balanced.countsRounds {step step' : σ → Parse (Option σ)}
    (each : ∀ v, Balanced (step v) (step' v)) : CountsRounds step := by
  intro v s v' s' reaches
  induction reaches with
  | refl v s => exact ⟨rfl, rfl⟩
  | @next v w v' s middle s' run others ih =>
    have ran : step v s = .ok (some w) middle := (round_ok run).1
    obtain ⟨depth, limit⟩ := (each v).counts.ok s _ middle ran
    obtain ⟨depth', cap'⟩ := ih
    have cap : middle.cap = s.cap := by simp only [State.cap, limit]
    exact ⟨depth'.trans depth, cap'.trans cap⟩

/-! ## The rules of the grammar -/

/-- The rules keep the counter, as do the rounds of everything that stands in a list. -/
structure GrammarCounts (phrases : Phrases) : Prop where
  query : Counts (query phrases)
  setOperations : ∀ left least, Counts (setOperations phrases left least)
  expression : Counts phrases.expression
  operand : ∀ least, Counts (operand phrases least)
  operators : ∀ left least start, Counts (operators phrases left least start)
  joins : ∀ left, Counts (joins phrases left)
  tablePrimary : Counts (tablePrimary phrases)
  groupingElement : Counts (groupingElement phrases)
  dataType : Counts dataType
  wholeExpression : Counts wholeExpression
  wholeQuery : Counts wholeQuery
  create : Counts create
  insert : Counts insert
  delete : Counts delete
  selectStatement : Counts selectStatement
  bareStatement : Counts bareStatement
  statement : Counts statement
  /-- Names, rows of values, arguments and the members of a row value. -/
  names : CountsRounds (itemAfterComma identifier)
  expressions : CountsRounds (itemAfterComma phrases.expression)
  targets : CountsRounds (itemAfterComma (target phrases))
  sources : CountsRounds (itemAfterComma (source phrases))
  ctes : CountsRounds (itemAfterComma (cte phrases))
  windows : CountsRounds (itemAfterComma (windowDef phrases))
  sortKeys : CountsRounds (itemAfterComma (sortKey phrases))
  groupings : CountsRounds (itemAfterComma (Parse.groupingElement phrases))
  groupingSets : CountsRounds (itemAfterComma (groupingSet phrases))
  fields : ∀ bound, CountsRounds (itemAfterComma (rowField (dataTypeWithin bound)))
  tableElements : CountsRounds (itemAfterComma tableElement)
  /-- What follows the type of a column. -/
  columnClauses : CountsRounds columnClause
  /-- A text is read from the depth of zero, and within the cap from there on. -/
  text : ∀ limit stream s, State.ofStream limit stream = .ok s →
    s.depth = 0 ∧ Guarded s.cap Parse.statement s

/-- The counter of levels is balanced in every rule, at every level of recursion. -/
theorem grammar_counts (bound : Nat) : GrammarCounts (.within bound) := by
  have below : (Phrases.within bound).Balanced (Phrases.within bound) :=
    Phrases.within_balanced bound bound
  have list {α : Type} {item : Parse α} (balanced : Balanced item item) :
      CountsRounds (itemAfterComma item) :=
    Balanced.countsRounds (itemAfterComma_balanced balanced)
  constructor
  case query => exact (query_balanced below).counts
  case setOperations => exact fun left least => (setOperations_balanced below left least).counts
  case expression => exact below.expression.counts
  case operand => exact fun least => (operand_balanced below least).counts
  case operators =>
    exact fun left least start => (operators_balanced below left least start).counts
  case joins => exact fun left => (joins_balanced below left).counts
  case tablePrimary => exact (tablePrimary_balanced below).counts
  case groupingElement => exact (groupingElement_balanced below).counts
  case dataType => exact dataType_balanced.counts
  case wholeExpression => exact wholeExpression_balanced.counts
  case wholeQuery => exact wholeQuery_balanced.counts
  case create => exact create_balanced.counts
  case insert => exact insert_balanced.counts
  case delete => exact delete_balanced.counts
  case selectStatement => exact selectStatement_balanced.counts
  case bareStatement => exact bareStatement_balanced.counts
  case statement => exact statement_balanced.counts
  case names => exact list identifier_balanced
  case expressions => exact list below.expression
  case targets => exact list (target_balanced below)
  case sources => exact list (source_balanced below)
  case ctes => exact list (cte_balanced below)
  case windows => exact list (windowDef_balanced below)
  case sortKeys => exact list (sortKey_balanced below)
  case groupings => exact list (groupingElement_balanced below)
  case groupingSets => exact list (groupingSet_balanced below)
  case fields =>
    exact fun inner => list (rowField_balanced (dataTypeWithin_balanced inner inner))
  case tableElements => exact list tableElement_balanced
  case columnClauses => exact Balanced.countsRounds columnClause_balanced
  case text =>
    intro limit stream s begins
    have depth : s.depth = 0 := by
      unfold State.ofStream at begins
      split at begins
      · cases begins
        rfl
      · cases begins
      · cases begins
    have guarded := statement_balanced.counts.guarded s
    rw [depth, Nat.zero_max] at guarded
    exact ⟨depth, guarded⟩

end CanonicalSql.Parse
