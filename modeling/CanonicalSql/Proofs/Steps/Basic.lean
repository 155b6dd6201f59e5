import CanonicalSql.Grammar.Basic

/-!
# What rules are built of

A rule does nothing of its own: it looks at what has been read, takes the current token or looks at
the next one, and goes down a level or comes back. `Built up down p q` says that two steps are
built of these in the same way. They may differ only in how often they may recur and how many
rounds their loops may go, which are numbers that depend on the length of the text.

The relation also keeps account of the levels: they are `up` above some base before the step, and
`down` of the result above it afterwards. For nearly all rules these are the same (`Balanced`).

What all rules have in common by the way they are built is shown by induction on it, with one case
for each basic step, once the rules are known to be built so.
-/
namespace CanonicalSql

/-- The failure does not name another token than the one given as one that may not stand there. -/
def Failure.PointsAt (token : Token) : Failure → Prop
  | .lexical _ => False
  | .grammatical ⟨.unexpected _ found, span⟩ => token = ⟨found, span⟩
  | .grammatical _ => True
  | .exhausted => True

namespace Parse

variable {α β σ : Type}

/-- Looks at the current token, at the place of the one before and at the limit on trees. -/
def looking (result : Token → Span → Nat → Except Failure α) : Parse α := fun s =>
  match result s.current s.previous s.limit with
  | .ok a => .ok a s
  | .error failure => .error failure s

/-- A step that depends on the number of tokens after the current one. -/
def sized (step : Nat → Parse α) : Parse α := fun s => step s.ahead.length s

/-- Two steps that are built of the same basic steps. -/
inductive Built : {α : Type} → (up : Nat) → (down : α → Nat) → (p q : Parse α) → Prop
  | look {α : Type} {up : Nat} {down : α → Nat} (result : Token → Span → Nat → Except Failure α)
    (points : ∀ current previous limit failure, result current previous limit = .error failure →
      failure.PointsAt current)
    (level : ∀ current previous limit a, result current previous limit = .ok a → down a = up) :
    Built up down (looking result) (looking result)
  | advance (up : Nat) : Built up (fun _ => up) advance advance
  | peek (up : Nat) : Built up (fun _ => up) peek peek
  | enter (up : Nat) : Built up (fun _ => up + 1) enter enter
  /-- No more levels are given back than have been entered. -/
  | leave (up levels : Nat) : Built (up + levels) (fun _ => up) (leave levels) (leave levels)
  | bind {α β : Type} {up : Nat} {mid : α → Nat} {down : β → Nat} {p q : Parse α}
    {f g : α → Parse β} (first : Built up mid p q) (rest : ∀ a, Built (mid a) down (f a) (g a)) :
    Built up down (p >>= f) (q >>= g)
  | sized {α : Type} {up : Nat} {down : α → Nat} {f g : Nat → Parse α}
    (each : ∀ i j, Built up down (f i) (g j)) : Built up down (sized f) (sized g)
  /-- The first one may not go on. -/
  | halted {α : Type} {up : Nat} {down : α → Nat} (q : Parse α) :
    Built up down (throw .exhausted) q
  /-- The second one may not go on. -/
  | outlasted {α : Type} {up : Nat} {down : α → Nat} {p q : Parse α} (given : Built up down p q) :
    Built up down p (throw .exhausted)

/-- Two steps that are built alike and come back to the level at which they began. -/
def Balanced (p q : Parse α) : Prop := ∀ up, Built up (fun _ => up) p q

namespace Built

variable {up : Nat} {down : α → Nat} {p q : Parse α}

theorem pure {a : α} (level : down a = up) : Built up down (pure a) (pure a) := by
  apply Built.look (fun _ _ _ => .ok a)
  · intro current previous limit failure isError
    cases isError
  · intro current previous limit b isOk
    cases isOk
    exact level

theorem ite {condition : Prop} [Decidable condition] {p' q' : Parse α} (yes : Built up down p q)
    (no : Built up down p' q') :
    Built up down (if condition then p else p') (if condition then q else q') := by
  by_cases holds : condition
  · rw [if_pos holds, if_pos holds]
    exact yes
  · rw [if_neg holds, if_neg holds]
    exact no

/-- Steps that keep the level between others. -/
theorem next {β : Type} {p q : Parse β} {f g : β → Parse α} (first : Balanced p q)
    (rest : ∀ b, Built up down (f b) (g b)) : Built up down (p >>= f) (q >>= g) :=
  .bind (first up) rest

/-! ### Loops -/

section

variable {levels : σ → Nat} {step step' : σ → Parse (Option σ)}

/-- The level after a round, which gives another value or nothing. -/
def afterRound (levels : σ → Nat) (value : σ) (result : Option σ) : Nat :=
  (result.map levels).getD (levels value)

theorem round (each : ∀ v, Built (levels v) (afterRound levels v) (step v) (step' v)) (v : σ) :
    Built (levels v) (afterRound levels v) (Parse.round step v) (Parse.round step' v) := by
  show Built _ _ (Parse.sized fun before => step v >>= moved before)
    (Parse.sized fun before => step' v >>= moved before)
  apply Built.sized
  intro before before'
  apply Built.bind (each v)
  intro result
  cases result with
  | none => exact .pure rfl
  | some next =>
    show Built _ _
      (Parse.sized fun i => if i < before then Pure.pure (some next) else throw .exhausted)
      (Parse.sized fun i => if i < before' then Pure.pure (some next) else throw .exhausted)
    apply Built.sized
    intro i j
    have given : Built (afterRound levels v (some next)) (afterRound levels v)
      (Pure.pure (some next)) (Pure.pure (some next)) := .pure rfl
    -- the round has taken a token in each of the two, or one of them does not go on
    by_cases first : i < before
    · by_cases second : j < before'
      · rw [if_pos first, if_pos second]
        exact given
      · rw [if_pos first, if_neg second]
        exact .outlasted given
    · rw [if_neg first]
      exact .halted _

/-- The induction is on the number of rounds that the first loop may go. -/
theorem iterate (each : ∀ v, Built (levels v) (afterRound levels v) (step v) (step' v))
    (bound bound' : Nat) (v : σ) :
    Built (levels v) levels (Parse.iterate step bound v) (Parse.iterate step' bound' v) := by
  induction bound generalizing bound' v with
  | zero => exact .halted _
  | succ bound ih =>
    have more (bound' : Nat) : Built (levels v) levels (Parse.iterate step (bound + 1) v)
        (Parse.iterate step' (bound' + 1) v) := by
      apply Built.bind (each v)
      intro result
      cases result with
      | none => exact .pure rfl
      | some next => exact ih bound' next
    cases bound' with
    | zero => exact .outlasted (more 0)
    | succ bound' => exact more bound'

theorem loop (each : ∀ v, Built (levels v) (afterRound levels v) (step v) (step' v)) (v : σ) :
    Built (levels v) levels (Parse.loop step v) (Parse.loop step' v) := by
  show Built _ _ (Parse.sized fun i => Parse.iterate (Parse.round step) (i + 2) v)
    (Parse.sized fun i => Parse.iterate (Parse.round step') (i + 2) v)
  apply Built.sized
  intro i j
  exact iterate (round each) (i + 2) (j + 2) v

end

end Built

namespace Balanced

variable {p q : Parse α} {f g : α → Parse β} {p' q' : Parse α}

theorem pure (a : α) : Balanced (pure a) (pure a) := fun _ => .pure rfl

theorem bind (first : Balanced p q) (rest : ∀ a, Balanced (f a) (g a)) :
    Balanced (p >>= f) (q >>= g) := fun up => .bind (first up) fun a => rest a up

theorem ite {condition : Prop} [Decidable condition] (yes : Balanced p q) (no : Balanced p' q') :
    Balanced (if condition then p else p') (if condition then q else q') :=
  fun up => (yes up).ite (no up)

/-- Two steps, the second of which does not depend on what the first one gives. -/
theorem andThen {r r' : Parse β} (first : Balanced p q) (rest : Balanced r r') :
    Balanced (do let _ ← p; r) (do let _ ← q; r') :=
  first.bind fun _ => rest

/-- What a step gives is put into a larger value. -/
theorem map (first : Balanced p q) (make : α → β) :
    Balanced (do return make (← p)) (do return make (← q)) :=
  first.bind fun a => .pure (make a)

theorem look (result : Token → Span → Nat → α) :
    Balanced (looking fun current previous limit => .ok (result current previous limit))
      (looking fun current previous limit => .ok (result current previous limit)) := by
  intro up
  apply Built.look
  · intro current previous limit failure isError
    cases isError
  · intro current previous limit a _
    rfl

/-- A loop whose rounds keep the level. -/
theorem loop {step step' : σ → Parse (Option σ)} (each : ∀ v, Balanced (step v) (step' v))
    (v : σ) : Balanced (loop step v) (loop step' v) := by
  intro up
  have round : ∀ w, Built up (Built.afterRound (fun _ : σ => up) w) (step w) (step' w) := by
    intro w
    have same : Built.afterRound (fun _ : σ => up) w = fun _ => up := by
      funext result
      cases result <;> rfl
    rw [same]
    exact each w up
  exact Built.loop round v

end Balanced

/-! ## Basic steps -/

theorem kind_balanced : Balanced kind kind := .look fun current _ _ => current.kind

theorem here_balanced : Balanced here here := .look fun current _ _ => current.span

theorem spanFrom_balanced (start : Span) : Balanced (spanFrom start) (spanFrom start) :=
  .look fun _ previous _ => start.merge previous

/-- A value with the place that it was read from. -/
theorem Balanced.spanned {make : Span → α} (start : Span) :
    Balanced (do return make (← spanFrom start)) (do return make (← spanFrom start)) :=
  (spanFrom_balanced start).map make

/-- What fails may be said to come back to any level. -/
theorem fail_built {cause : ParseCause} (noKind : cause.found? = none) {up : Nat}
    {down : α → Nat} : Built up down (fail cause) (fail cause) := by
  apply Built.look fun current _ _ => .error (.grammatical ⟨cause, current.span⟩)
  · intro current previous limit failure isError
    cases isError
    cases cause with
    | unexpected => cases noKind
    | _ => trivial
  · intro current previous limit a isOk
    cases isOk

theorem fail_balanced {cause : ParseCause} (noKind : cause.found? = none) :
    Balanced (fail cause : Parse α) (fail cause) := fun _ => fail_built noKind

theorem unexpected_balanced (expected : String) :
    Balanced (unexpected expected : Parse α) (unexpected expected) := by
  intro up
  apply Built.look fun current _ _ =>
    .error (.grammatical ⟨.unexpected expected current.kind, current.span⟩)
  · intro current previous limit failure isError
    cases isError
    rfl
  · intro current previous limit a isOk
    cases isOk

theorem advance_balanced : Balanced advance advance := .advance

theorem peek_balanced : Balanced peek peek := .peek

theorem word?_balanced : Balanced word? word? := by
  apply kind_balanced.bind
  intro kind
  split <;> exact .pure _

theorem atSign_balanced (sign : Symbol) : Balanced (atSign sign) (atSign sign) :=
  kind_balanced.map _

theorem atWord_balanced (word : Keyword) : Balanced (atWord word) (atWord word) :=
  kind_balanced.map _

theorem startsQuery_balanced : Balanced startsQuery startsQuery := kind_balanced.map _

theorem continuesQuery_balanced : Balanced continuesQuery continuesQuery := kind_balanced.map _

theorem atWordBefore_balanced (word : Keyword) (next : Kind → Bool) :
    Balanced (atWordBefore word next) (atWordBefore word next) := by
  apply (atWord_balanced word).bind
  intro found
  exact .ite (peek_balanced.map next) (.pure _)

theorem takeSign_balanced (sign : Symbol) : Balanced (takeSign sign) (takeSign sign) := by
  apply (atSign_balanced sign).bind
  intro found
  exact .ite (advance_balanced.andThen (.pure _)) (.pure _)

theorem takeWord_balanced (word : Keyword) : Balanced (takeWord word) (takeWord word) := by
  apply (atWord_balanced word).bind
  intro found
  exact .ite (advance_balanced.andThen (.pure _)) (.pure _)

theorem expectSign_balanced (sign : Symbol) : Balanced (expectSign sign) (expectSign sign) := by
  apply (atSign_balanced sign).bind
  intro found
  exact .ite advance_balanced (unexpected_balanced _)

theorem expectWord_balanced (word : Keyword) : Balanced (expectWord word) (expectWord word) := by
  apply (atWord_balanced word).bind
  intro found
  exact .ite advance_balanced (unexpected_balanced _)

theorem identifier_balanced : Balanced identifier identifier := by
  apply kind_balanced.bind
  intro kind
  split
  · exact advance_balanced.andThen (.pure _)
  · exact unexpected_balanced _

section

variable {p q p' q' : Parse α}

/-- A choice by what a step finds. -/
theorem Balanced.ifs {test test' : Parse Bool} (tests : Balanced test test') (yes : Balanced p q)
    (no : Balanced p' q') :
    Balanced (do if ← test then p else p') (do if ← test' then q else q') :=
  tests.bind fun _ => .ite yes no

/-- One level deeper and back. -/
theorem nested_balanced (inner : Balanced p q) : Balanced (nested p) (nested q) := by
  intro up
  apply Built.bind (.enter up)
  intro _
  apply Built.bind (inner (up + 1))
  intro a
  exact .bind (.leave up 1) fun _ => .pure rfl

/-- A loop enters levels, and what comes after it gives them back together. -/
theorem levels_balanced {make : σ → α} {entered : σ → Nat} {step step' : σ → Parse (Option σ)}
    (each : ∀ up v, Built (up + entered v) (Built.afterRound (fun w => up + entered w) v) (step v)
      (step' v)) {v : σ} (none : entered v = 0) :
    Balanced (do let last ← loop step v; leave (entered last); return make last)
      (do let last ← loop step' v; leave (entered last); return make last) := by
  intro up
  have looped : Built (up + entered v) (fun w => up + entered w) (loop step v) (loop step' v) :=
    .loop (each up) v
  rw [none] at looped
  apply Built.bind looped
  intro last
  exact .bind (.leave up (entered last)) fun _ => .pure rfl

theorem itemAfterComma_balanced (item : Balanced p q) (items : List α) :
    Balanced (itemAfterComma p items) (itemAfterComma q items) :=
  .ifs (takeSign_balanced _) (item.map _) (.pure _)

theorem commaSeparated_balanced (item : Balanced p q) :
    Balanced (commaSeparated p) (commaSeparated q) :=
  item.bind fun first => .loop (itemAfterComma_balanced item) [first]

theorem parenthesized_balanced (inner : Balanced p q) :
    Balanced (parenthesized p) (parenthesized q) := by
  apply (expectSign_balanced _).andThen
  apply inner.bind
  intro a
  exact (expectSign_balanced _).andThen (.pure a)

end

/-! ## Names -/

theorem partAfterDot_balanced (parts : List Name) :
    Balanced (partAfterDot parts) (partAfterDot parts) :=
  .ifs (takeSign_balanced _) (identifier_balanced.map _) (.pure _)

theorem qualifiedName_balanced : Balanced qualifiedName qualifiedName := by
  apply identifier_balanced.bind
  intro first
  exact (Balanced.loop partAfterDot_balanced [first]).map _

theorem names_balanced : Balanced names names :=
  parenthesized_balanced (commaSeparated_balanced identifier_balanced)

theorem optionalNames_balanced : Balanced optionalNames optionalNames :=
  .ifs (atSign_balanced _) names_balanced (.pure _)

theorem setQuantifier_balanced : Balanced setQuantifier setQuantifier :=
  .ifs (takeWord_balanced _) (.pure _) (.ifs (takeWord_balanced _) (.pure _) (.pure _))

theorem optionalAlias_balanced : Balanced optionalAlias optionalAlias := by
  apply Balanced.ifs (takeWord_balanced _) (identifier_balanced.map _)
  apply kind_balanced.bind
  intro kind
  exact .ite (identifier_balanced.map _) (.pure _)

end Parse

end CanonicalSql
