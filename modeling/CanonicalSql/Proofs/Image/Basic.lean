import CanonicalSql.Grammar.Basic
import CanonicalSql.Proofs.Lexical

/-!
# What a step gives

`Yields limit p good` says that whatever the step `p` gives is good, as long as the tokens that it
reads come from the lexer. It says nothing of steps that fail. Steps that follow each other
are taken apart by `Yields.bind`, and a loop yields what each of its rounds keeps
(`Yields.loop`), so that the rules of the grammar can be looked at one at a time.
-/
namespace CanonicalSql

/-- The levels of recursion that a limit on the depth of trees leaves. -/
def capOf (limit : Nat) : Nat := min (2 * limit) 0xffffffffffffffff

/-- The tokens in sight are tokens that the lexer gives, and the depth of trees is limited. -/
structure State.Sound (limit : Nat) (s : State) : Prop where
  current : s.current.kind.Lexical
  ahead : ∀ token ∈ s.ahead, token.kind.Lexical
  limit : s.limit = limit

namespace Parse

variable {α β σ : Type} {limit : Nat}

/-- From sound tokens the step gives something good, if it gives anything, and leaves sound
tokens. -/
def Yields (limit : Nat) (p : Parse α) (good : α → Prop) : Prop :=
  ∀ s, s.Sound limit → ∀ a s', p s = .ok a s' → s'.Sound limit ∧ good a

namespace Yields

theorem pure {a : α} {good : α → Prop} (holds : good a) : Yields limit (pure a) good := by
  intro s sound b s' run
  cases run
  exact ⟨sound, holds⟩

theorem bind {p : Parse α} {f : α → Parse β} {good : α → Prop} {better : β → Prop}
    (first : Yields limit p good) (next : ∀ a, good a → Yields limit (f a) better) :
    Yields limit (p >>= f) better := by
  intro s sound b s' run
  obtain ⟨a, middle, ran, run⟩ := ok_of_bind run
  obtain ⟨soundMiddle, holds⟩ := first s sound a middle ran
  exact next a holds middle soundMiddle b s' run

theorem mono {p : Parse α} {good better : α → Prop} (given : Yields limit p good)
    (weaker : ∀ a, good a → better a) : Yields limit p better := by
  intro s sound a s' run
  obtain ⟨sound', holds⟩ := given s sound a s' run
  exact ⟨sound', weaker a holds⟩

theorem ite {condition : Prop} [Decidable condition] {p q : Parse α} {good : α → Prop}
    (yes : condition → Yields limit p good) (no : ¬ condition → Yields limit q good) :
    Yields limit (if condition then p else q) good := by
  split
  · next holds => exact yes holds
  · next fails => exact no fails

theorem throw (failure : Failure) (good : α → Prop) :
    Yields limit (throw failure : Parse α) good := by
  intro s _ a s' run
  cases run

end Yields

/-- As `Yields`, from states whose current token is as `seen` says. -/
def YieldsAt (limit : Nat) (seen : Kind → Prop) (p : Parse α) (good : α → Prop) : Prop :=
  ∀ s, s.Sound limit → seen s.current.kind → ∀ a s', p s = .ok a s' →
    s'.Sound limit ∧ good a

/-- The step only looks at the current token. -/
def Looks (p : Parse α) (found : Kind → α) : Prop :=
  ∀ s, p s = .ok (found s.current.kind) s

theorem Yields.at {p : Parse α} {good : α → Prop} (given : Yields limit p good)
    (seen : Kind → Prop) : YieldsAt limit seen p good :=
  fun s sound _ => given s sound

/-- What is yielded at many tokens is yielded at one of them. -/
theorem YieldsAt.here {seen : Kind → Prop} {p : Parse α} {good : α → Prop}
    (given : YieldsAt limit seen p good) {kind : Kind} (isSeen : seen kind) :
    YieldsAt limit (· = kind) p good := by
  rintro s sound rfl
  exact given s sound isSeen

theorem YieldsAt.bind {seen : Kind → Prop} {p : Parse α} {f : α → Parse β}
    {good : α → Prop} {better : β → Prop} (first : YieldsAt limit seen p good)
    (next : ∀ a, good a → Yields limit (f a) better) : YieldsAt limit seen (p >>= f) better := by
  intro s sound here b s' run
  obtain ⟨a, middle, ran, run⟩ := ok_of_bind run
  obtain ⟨soundMiddle, holds⟩ := first s sound here a middle ran
  exact next a holds middle soundMiddle b s' run

theorem YieldsAt.mono {seen : Kind → Prop} {p : Parse α} {good better : α → Prop}
    (given : YieldsAt limit seen p good) (weaker : ∀ a, good a → better a) :
    YieldsAt limit seen p better := by
  intro s sound here a s' run
  obtain ⟨sound', holds⟩ := given s sound here a s' run
  exact ⟨sound', weaker a holds⟩

theorem YieldsAt.and {seen : Kind → Prop} {p : Parse α} {good better : α → Prop}
    (one : YieldsAt limit seen p good) (other : YieldsAt limit seen p better) :
    YieldsAt limit seen p fun a => good a ∧ better a :=
  fun s sound here a s' run =>
    ⟨(one s sound here a s' run).1, (one s sound here a s' run).2,
      (other s sound here a s' run).2⟩

/-- A look does not lose sight of the current token. -/
theorem Looks.bindAt {p : Parse α} {found : Kind → α} (looks : Looks p found)
    {seen : Kind → Prop} {f : α → Parse β} {good : β → Prop}
    (next : ∀ kind, seen kind → YieldsAt limit (· = kind) (f (found kind)) good) :
    YieldsAt limit seen (p >>= f) good := by
  intro s sound here b s' run
  rw [bind_ok (looks s)] at run
  exact next _ here s sound rfl b s' run

theorem Looks.bind {p : Parse α} {found : Kind → α} (looks : Looks p found)
    {f : α → Parse β} {good : β → Prop}
    (next : ∀ kind, YieldsAt limit (· = kind) (f (found kind)) good) : Yields limit (p >>= f) good := by
  intro s sound a s' run
  have anywhere : YieldsAt limit (fun _ => True) (p >>= f) good :=
    looks.bindAt fun kind _ => next kind
  exact anywhere s sound True.intro a s' run

/-- What the step yields may be looked at apart for two sorts of current tokens. -/
theorem Yields.byToken (seen : Kind → Prop) {p : Parse α} {good : α → Prop}
    (yes : YieldsAt limit seen p good) (no : YieldsAt limit (fun kind => ¬ seen kind) p good) :
    Yields limit p good := by
  intro s sound a s' run
  rcases Classical.em (seen s.current.kind) with here | here
  · exact yes s sound here a s' run
  · exact no s sound here a s' run

/-- At such a current token the step gives `a` and leaves all as it is. -/
def Idle (seen : Kind → Prop) (p : Parse α) (a : α) : Prop :=
  ∀ s, seen s.current.kind → p s = .ok a s

/-- An idle step does not lose sight of the current token. -/
theorem Idle.bind {seen : Kind → Prop} {p : Parse α} {a : α} (idle : Idle seen p a)
    {f : α → Parse β} {good : β → Prop} (next : YieldsAt limit seen (f a) good) :
    YieldsAt limit seen (p >>= f) good := by
  intro s sound here b s' run
  rw [bind_ok (idle s here)] at run
  exact next s sound here b s' run

/-- The step changes nothing. -/
def Still (p : Parse α) : Prop := ∀ s, ∃ a, p s = .ok a s

theorem Still.bindAt {p : Parse α} (still : Still p) {seen : Kind → Prop}
    {f : α → Parse β} {good : β → Prop} (next : ∀ a, YieldsAt limit seen (f a) good) :
    YieldsAt limit seen (p >>= f) good := by
  intro s sound here b s' run
  obtain ⟨a, ran⟩ := still s
  rw [bind_ok ran] at run
  exact next a s sound here b s' run

theorem Idle.andThen {seen : Kind → Prop} {p : Parse α} {a : α} {f : α → Parse β} {b : β}
    (idle : Idle seen p a) (next : Idle seen (f a) b) : Idle seen (p >>= f) b := by
  intro s here
  rw [bind_ok (idle s here)]
  exact next s here

theorem Idle.pure {seen : Kind → Prop} {a : α} : Idle seen (pure a) a := fun _ _ => rfl

theorem Idle.mono {seen fewer : Kind → Prop} {p : Parse α} {a : α} (idle : Idle seen p a)
    (stronger : ∀ kind, fewer kind → seen kind) : Idle fewer p a :=
  fun s here => idle s (stronger _ here)

/-! ## Looking and taking -/

theorem advance_yields : Yields limit advance fun _ => True := by
  intro s sound a s' run
  unfold advance at run
  split at run
  · next token rest ahead =>
    simp only [EStateM.Result.ok.injEq, true_and] at run
    subst run
    refine ⟨⟨sound.ahead token (by simp [ahead]), ?_, sound.limit⟩, trivial⟩
    intro other member
    exact sound.ahead other (by simp only [ahead]; exact List.mem_cons_of_mem _ member)
  · cases run
  · simp only [EStateM.Result.ok.injEq, true_and] at run
    subst run
    exact ⟨⟨sound.current, sound.ahead, sound.limit⟩, trivial⟩

theorem peek_yields : Yields limit peek fun _ => True := by
  intro s sound a s' run
  unfold peek at run
  split at run
  · simp only [EStateM.Result.ok.injEq] at run
    rw [← run.2]
    exact ⟨⟨sound.current, sound.ahead, sound.limit⟩, trivial⟩
  · cases run
  · simp only [EStateM.Result.ok.injEq] at run
    rw [← run.2]
    exact ⟨sound, trivial⟩

theorem kind_yields : Yields limit kind Kind.Lexical := by
  intro s sound a s' run
  cases run
  exact ⟨sound, sound.current⟩

theorem here_yields : Yields limit here fun _ => True := by
  intro s sound a s' run
  cases run
  exact ⟨sound, trivial⟩

theorem here_still : Still here := fun s => ⟨s.current.span, rfl⟩

theorem spanFrom_yields (start : Span) : Yields limit (spanFrom start) fun _ => True := by
  intro s sound a s' run
  cases run
  exact ⟨sound, trivial⟩

theorem fail_yields (cause : ParseCause) (good : α → Prop) : Yields limit (fail cause) good :=
  here_yields.bind fun _ _ => .throw _ _

theorem unexpected_yields (expected : String) (good : α → Prop) :
    Yields limit (unexpected expected) good :=
  kind_yields.bind fun _ _ => fail_yields _ _

theorem kind_looks : Looks kind id := fun _ => rfl

theorem startsQuery_looks : Looks startsQuery isQueryStart := fun _ => rfl

theorem continuesQuery_looks : Looks continuesQuery isQueryNext := fun _ => rfl

theorem atWord_looks (word : Keyword) :
    Looks (atWord word) fun kind => decide (kind = .keyword word) :=
  fun _ => rfl

theorem atWord_idle (word : Keyword) : Idle (· = .keyword word) (atWord word) true := by
  intro s here
  simp only [atWord_looks word s, here, decide_true]

theorem atWord_idle_of_ne (word : Keyword) :
    Idle (· ≠ .keyword word) (atWord word) false := by
  intro s other
  simp only [atWord_looks word s, decide_eq_false other]

theorem takeWord_idle (word : Keyword) : Idle (· ≠ .keyword word) (takeWord word) false :=
  (atWord_idle_of_ne word).andThen .pure

theorem word?_yields : Yields limit word? fun _ => True := by
  refine kind_yields.bind fun kind _ => ?_
  split <;> exact .pure trivial

theorem atSign_yields (sign : Symbol) : Yields limit (atSign sign) fun _ => True :=
  kind_yields.bind fun _ _ => .pure trivial

theorem atWord_yields (word : Keyword) : Yields limit (atWord word) fun _ => True :=
  kind_yields.bind fun _ _ => .pure trivial

theorem takeWord_yieldsAt (word : Keyword) :
    YieldsAt limit (· = .keyword word) (takeWord word) fun taken => taken = true := by
  refine (atWord_idle word).bind (Yields.at ?_ _)
  exact advance_yields.bind fun _ _ => .pure rfl

theorem atWordBefore_yields (word : Keyword) (next : Kind → Bool) :
    Yields limit (atWordBefore word next) fun _ => True := by
  refine (atWord_yields word).bind fun _ _ => .ite (fun _ => ?_) fun _ => .pure trivial
  exact peek_yields.bind fun _ _ => .pure trivial

theorem takeSign_yields (sign : Symbol) : Yields limit (takeSign sign) fun _ => True := by
  refine (atSign_yields sign).bind fun _ _ => .ite (fun _ => ?_) fun _ => .pure trivial
  exact advance_yields.bind fun _ _ => .pure trivial

theorem takeWord_yields (word : Keyword) : Yields limit (takeWord word) fun _ => True := by
  refine (atWord_yields word).bind fun _ _ => .ite (fun _ => ?_) fun _ => .pure trivial
  exact advance_yields.bind fun _ _ => .pure trivial

theorem expectSign_yields (sign : Symbol) : Yields limit (expectSign sign) fun _ => True :=
  (atSign_yields sign).bind fun _ _ =>
    .ite (fun _ => advance_yields) fun _ => unexpected_yields _ _

theorem expectWord_yields (word : Keyword) : Yields limit (expectWord word) fun _ => True :=
  (atWord_yields word).bind fun _ _ =>
    .ite (fun _ => advance_yields) fun _ => unexpected_yields _ _

theorem identifier_yields : Yields limit identifier Name.Proper := by
  refine kind_yields.bind fun kind lexical => ?_
  split
  · next name stands =>
    exact advance_yields.bind fun _ _ => .pure (lexical.proper stands)
  · exact unexpected_yields _ _

/-! ## Recursion -/

theorem enter_yields : Yields limit enter fun _ => True := by
  intro s sound a s' run
  rw [enter_run] at run
  split at run
  · cases run
    exact ⟨⟨sound.current, sound.ahead, sound.limit⟩, trivial⟩
  · cases run

/-- A level that is entered changes nothing but the count of levels. -/
theorem enter_eq {s s' : State} {u : Unit} (run : enter s = .ok u s') :
    s' = { s with depth := s.depth + 1 } := by
  rw [enter_run] at run
  split at run
  · cases run
    rfl
  · cases run

theorem leave_yields (levels : Nat) : Yields limit (leave levels) fun _ => True := by
  intro s sound a s' run
  cases run
  exact ⟨⟨sound.current, sound.ahead, sound.limit⟩, trivial⟩

theorem Yields.nested {p : Parse α} {good : α → Prop} (inner : Yields limit p good) :
    Yields limit (nested p) good :=
  enter_yields.bind fun _ _ => inner.bind fun _ holds =>
    (leave_yields 1).bind fun _ _ => .pure holds

theorem YieldsAt.nested {seen : Kind → Prop} {p : Parse α} {good : α → Prop}
    (inner : YieldsAt limit seen p good) : YieldsAt limit seen (nested p) good := by
  intro s sound here a s' run
  obtain ⟨_, entered, ran, run⟩ := ok_of_bind run
  obtain rfl := enter_eq ran
  have rest : YieldsAt limit seen (do let result ← p; leave 1; return result) good :=
    inner.bind fun _ holds => (leave_yields 1).bind fun _ _ => .pure holds
  exact rest { s with depth := s.depth + 1 } ⟨sound.current, sound.ahead, sound.limit⟩ here a s' run

theorem moved_yields (ahead : Nat) {next : Option σ} {good : Option σ → Prop} (holds : good next) :
    Yields limit (moved ahead next) good := by
  cases next with
  | none => exact .pure holds
  | some next =>
    intro s sound
    exact Yields.ite (fun _ => .pure holds) (fun _ => .throw _ _) s sound

/-- A round yields what its step yields. -/
theorem Yields.round {step : σ → Parse (Option σ)} {value : σ} {good : Option σ → Prop}
    (given : Yields limit (step value) good) : Yields limit (round step value) good :=
  fun s sound => given.bind (fun _ holds => moved_yields s.ahead.length holds) s sound

theorem YieldsAt.round {seen : Kind → Prop} {step : σ → Parse (Option σ)} {value : σ}
    {good : Option σ → Prop} (given : YieldsAt limit seen (step value) good) :
    YieldsAt limit seen (round step value) good :=
  fun s sound => given.bind (fun _ holds => moved_yields s.ahead.length holds) s sound

theorem Yields.iterate {step : σ → Parse (Option σ)} {good : σ → Prop}
    (round : ∀ value, good value → Yields limit (step value) fun next => ∀ v ∈ next, good v)
    (bound : Nat) {value : σ} (start : good value) : Yields limit (iterate step bound value) good := by
  induction bound generalizing value with
  | zero => exact .throw _ _
  | succ bound ih =>
    refine (round value start).bind fun next holds => ?_
    cases next with
    | none => exact .pure start
    | some next => exact ih (holds next rfl)

/-- A loop yields what holds at its start and is kept by each round. -/
theorem Yields.loop {step : σ → Parse (Option σ)} {good : σ → Prop}
    (round : ∀ value, good value → Yields limit (step value) fun next => ∀ v ∈ next, good v)
    {value : σ} (start : good value) : Yields limit (loop step value) good := by
  intro s sound a s' run
  exact Yields.iterate (fun value holds => (round value holds).round) (s.ahead.length + 2) start s
    sound a s' run

/-- A loop whose step gives nothing and reads nothing reads nothing. -/
theorem loop_stop {step : σ → Parse (Option σ)} {value : σ} {s : State}
    (last : step value s = .ok none s) : loop step value s = .ok value s := by
  have rounded : round step value s = .ok none s := bind_ok last
  exact bind_ok rounded

/-- A loop whose first round is sure to give something yields what that round gives and
what each later round keeps. -/
theorem YieldsAt.loop {seen : Kind → Prop} {step : σ → Parse (Option σ)} {good : σ → Prop}
    {value : σ} (start : YieldsAt limit seen (step value) fun next => ∃ v, next = some v ∧ good v)
    (round : ∀ value, good value → Yields limit (step value) fun next => ∀ v ∈ next, good v) :
    YieldsAt limit seen (loop step value) good := by
  intro s sound here a s' run
  have rounds : YieldsAt limit seen (iterate (Parse.round step) (s.ahead.length + 2) value) good := by
    refine start.round.bind ?_
    rintro next ⟨v, rfl, holds⟩
    exact .iterate (fun value holds => (round value holds).round) _ holds
  exact rounds s sound here a s' run

/-! ## Lists and names -/

/-- What a step that gives one more item, or none, keeps of all items. -/
theorem Yields.one_more {p : Parse α} {good : α → Prop} (item : Yields limit p good)
    {items : List α} (all : items ≠ [] ∧ ∀ it ∈ items, good it) :
    Yields limit (do return some (items ++ [← p]))
      fun next => ∀ v ∈ next, v ≠ [] ∧ ∀ it ∈ v, good it := by
  refine item.bind fun last holds => .pure ?_
  rintro v ⟨⟩
  refine ⟨by simp, fun it member => ?_⟩
  rcases List.mem_append.mp member with member | member
  · exact all.2 it member
  · rw [List.mem_singleton.mp member]
    exact holds

/-- There is one item at least between commas. -/
theorem Yields.commaSeparated {p : Parse α} {good : α → Prop} (item : Yields limit p good) :
    Yields limit (commaSeparated p) fun items => items ≠ [] ∧ ∀ it ∈ items, good it := by
  refine item.bind fun first holds => .loop (fun items all => ?_) ?_
  · refine (takeSign_yields .comma).bind fun _ _ => .ite (fun _ => item.one_more all) ?_
    exact fun _ => .pure (by simp)
  · exact ⟨by simp, by simpa using holds⟩

theorem Yields.parenthesized {p : Parse α} {good : α → Prop} (inner : Yields limit p good) :
    Yields limit (parenthesized p) good :=
  (expectSign_yields _).bind fun _ _ => inner.bind fun _ holds =>
    (expectSign_yields _).bind fun _ _ => .pure holds

theorem qualifiedName_yields : Yields limit qualifiedName QualifiedName.Proper := by
  refine identifier_yields.bind fun first proper => ?_
  have parts : Yields limit (loop partAfterDot [first])
      fun parts => parts ≠ [] ∧ ∀ part ∈ parts, part.Proper := by
    refine .loop (fun parts all => ?_) ⟨by simp, by simpa using proper⟩
    refine (takeSign_yields .dot).bind fun _ _ => .ite (fun _ => ?_) fun _ => .pure (by simp)
    exact identifier_yields.one_more all
  exact parts.bind fun parts all => .pure (QualifiedName.ofParts_proper all)

theorem names_yields : Yields limit names ProperColumns :=
  identifier_yields.commaSeparated.parenthesized

theorem optionalNames_yields : Yields limit optionalNames fun names => ∀ name ∈ names, name.Proper :=
  (atSign_yields _).bind fun _ _ =>
    .ite (fun _ => names_yields.mono fun _ all => all.2) fun _ => .pure (by simp)

theorem setQuantifier_yields : Yields limit setQuantifier fun _ => True := by
  refine (takeWord_yields _).bind fun _ _ => .ite (fun _ => .pure trivial) fun _ => ?_
  exact (takeWord_yields _).bind fun _ _ =>
    .ite (fun _ => .pure trivial) fun _ => .pure trivial

theorem optionalAlias_yields : Yields limit optionalAlias fun name => ∀ it ∈ name, Name.Proper it := by
  have named : Yields limit (do return some (← identifier)) fun name => ∀ it ∈ name, Name.Proper it :=
    identifier_yields.bind fun name proper => .pure (by simpa using proper)
  refine (takeWord_yields _).bind fun _ _ => .ite (fun _ => named) fun _ => ?_
  exact kind_yields.bind fun _ _ => .ite (fun _ => named) fun _ => .pure (by simp)

end Parse

end CanonicalSql
