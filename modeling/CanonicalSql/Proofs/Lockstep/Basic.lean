import CanonicalSql.Proofs.Erase
import CanonicalSql.Proofs.Image.Basic

/-!
# Two readings side by side

A `Move` says what may differ between two readings of the same tokens: the limit, which may
rise, and the places of the tokens, which may be forgotten. `Moves m conv p q` says that the
step `q` does after the move what the step `p` did before it: it gives the same, moved by
`conv`, and refuses the same token for the same reason. The one way out is that `p` went deeper
than its limit allows and `q` has more room.

A move that keeps the places and lets the limit rise shows what the limit decides; a move that
forgets the places and keeps the limit shows that no place decides anything.
-/
namespace CanonicalSql

/-- A failure without its place. -/
def Failure.erase : Failure → Failure
  | .lexical error => .lexical { error with span := default }
  | .grammatical error => .grammatical { error with span := default }
  | .exhausted => .exhausted

/-- What differs between two readings. -/
structure Move where
  /-- Whether the places stay as they are. Otherwise they are forgotten. -/
  keeps : Bool
  /-- The limit of the first reading. -/
  low : Nat
  /-- The limit of the second reading. -/
  high : Nat
  rises : low ≤ high

namespace Move

variable {α β : Type} (m : Move)

/-- A value after the move: as it was, or erased. -/
def on (erase : α → α) : α → α :=
  match m.keeps with
  | true => id
  | false => erase

/-- A stretch of text after the move. -/
def span : Span → Span := m.on fun _ => default

/-- A token after the move. -/
def token (token : Token) : Token := ⟨token.kind, m.span token.span⟩

/-- The state of a reading after the move. -/
def state (s : State) : State where
  current := m.token s.current
  previous := m.span s.previous
  ahead := s.ahead.map m.token
  failure := s.failure.map fun error => ⟨error.cause, m.span error.span⟩
  looked := s.looked
  taken := s.taken
  depth := s.depth
  limit := m.high

/-- The failure is for want of depth, and the second reading has more of it. -/
def Escapes (failure : Failure) : Prop :=
  m.low < m.high ∧ ∃ span, failure = .grammatical ⟨.tooDeep m.low, span⟩

theorem on_map (erase : α → α) : m.on (List.map erase) = List.map (m.on erase) := by
  obtain ⟨_ | _⟩ := m
  · rfl
  · exact List.map_id_fun.symm

theorem span_merge (one other : Span) :
    m.span (one.merge other) = (m.span one).merge (m.span other) := by
  obtain ⟨_ | _⟩ := m <;> rfl

theorem erase_grammatical (cause : ParseCause) (span : Span) :
    m.on Failure.erase (.grammatical ⟨cause, span⟩) =
      m.on Failure.erase (.grammatical ⟨cause, m.span span⟩) := by
  obtain ⟨_ | _⟩ := m <;> rfl

theorem erase_lexical (error : LexError) :
    m.on Failure.erase (.lexical error) =
      m.on Failure.erase (.lexical ⟨error.cause, m.span error.span⟩) := by
  obtain ⟨_ | _⟩ := m <;> rfl

@[simp] theorem token_kind (token : Token) : (m.token token).kind = token.kind := rfl

@[simp] theorem token_span (token : Token) : (m.token token).span = m.span token.span := rfl

theorem cap_le {s : State} (isLow : s.limit = m.low) : s.cap ≤ (m.state s).cap := by
  have rises := m.rises
  simp only [State.cap, state, isLow]
  omega

end Move

namespace Parse

variable {α β γ δ σ τ : Type} {m : Move}

/-- The second step does after the move what the first one does before it. -/
structure Moves (m : Move) (conv : α → β) (p : Parse α) (q : Parse β) : Prop where
  ok : ∀ s a t, s.limit = m.low → p s = .ok a t →
    t.limit = m.low ∧ q (m.state s) = .ok (conv a) (m.state t)
  error : ∀ s failure t, s.limit = m.low → p s = .error failure t →
    m.Escapes failure ∨ ∃ other t', q (m.state s) = .error other t' ∧
      m.on Failure.erase failure = m.on Failure.erase other

namespace Moves

variable {conv : α → β}

theorem pure {a : α} {b : β} (moved : conv a = b) : Moves m conv (pure a) (pure b) where
  ok := by
    intro s c t isLow run
    cases run
    exact ⟨isLow, by rw [moved]; rfl⟩
  error := by
    intro s failure t _ run
    cases run

theorem bind {p : Parse α} {q : Parse β} {f : α → Parse γ} {g : β → Parse δ} {next : γ → δ}
    (first : Moves m conv p q) (rest : ∀ a, Moves m next (f a) (g (conv a))) :
    Moves m next (p >>= f) (q >>= g) where
  ok := by
    intro s c t isLow run
    obtain ⟨a, middle, ran, run⟩ := ok_of_bind run
    obtain ⟨isLow, moved⟩ := first.ok s a middle isLow ran
    obtain ⟨isLow, given⟩ := (rest a).ok middle c t isLow run
    refine ⟨isLow, ?_⟩
    rw [bind_ok moved, given]
  error := by
    intro s failure t isLow run
    rcases error_of_bind run with ran | ⟨a, middle, ran, run⟩
    · rcases first.error s failure t isLow ran with escapes | ⟨other, t', fails, same⟩
      · exact .inl escapes
      · exact .inr ⟨other, t', bind_error fails, same⟩
    · obtain ⟨isLow, moved⟩ := first.ok s a middle isLow ran
      rw [bind_ok moved]
      exact (rest a).error middle failure t isLow run

/-- A first step whose result has no place. -/
theorem next {p q : Parse α} {f : α → Parse γ} {g : α → Parse δ} {next : γ → δ}
    (first : Moves m id p q) (rest : ∀ a, Moves m next (f a) (g a)) :
    Moves m next (p >>= f) (q >>= g) :=
  first.bind rest

theorem ite {condition : Prop} [Decidable condition] {p p' : Parse α} {q q' : Parse β}
    (yes : condition → Moves m conv p q) (no : ¬ condition → Moves m conv p' q') :
    Moves m conv (if condition then p else p') (if condition then q else q') := by
  split
  · next holds => exact yes holds
  · next fails => exact no fails

/-- A step that only looks at the state sees the same after the move. -/
theorem look {p : Parse α} {q : Parse β} {found : State → α}
    (sees : ∀ s, p s = .ok (found s) s)
    (same : ∀ s, q (m.state s) = .ok (conv (found s)) (m.state s)) : Moves m conv p q where
  ok := by
    intro s a t isLow run
    rw [sees s] at run
    cases run
    exact ⟨isLow, same s⟩
  error := by
    intro s failure t _ run
    rw [sees s] at run
    cases run

end Moves

/-! ## Looking and taking -/

theorem kind_moves : Moves m id kind kind :=
  .look (fun _ => rfl) fun _ => rfl

theorem here_moves : Moves m m.span here here :=
  .look (fun _ => rfl) fun _ => rfl

theorem spanFrom_moves (start : Span) :
    Moves m m.span (spanFrom start) (spanFrom (m.span start)) :=
  .look (fun _ => rfl) fun _ => congrArg (EStateM.Result.ok · _) (m.span_merge _ _).symm

theorem word?_moves : Moves m id word? word? :=
  kind_moves.next fun kind => by split <;> exact .pure rfl

theorem atSign_moves (sign : Symbol) : Moves m id (atSign sign) (atSign sign) :=
  kind_moves.next fun _ => .pure rfl

theorem atWord_moves (word : Keyword) : Moves m id (atWord word) (atWord word) :=
  kind_moves.next fun _ => .pure rfl

theorem startsQuery_moves : Moves m id startsQuery startsQuery :=
  kind_moves.next fun _ => .pure rfl

theorem continuesQuery_moves : Moves m id continuesQuery continuesQuery :=
  kind_moves.next fun _ => .pure rfl

theorem get_moves : Moves m m.state get get :=
  .look (fun _ => rfl) fun _ => rfl

theorem throw_moves (failure : Failure) (conv : α → β) :
    Moves m conv (throw failure) (throw failure) where
  ok := by
    intro s a t _ run
    cases run
  error := by
    intro s failure t _ run
    cases run
    exact .inr ⟨_, _, rfl, rfl⟩

theorem fail_moves (cause : ParseCause) (conv : α → β) :
    Moves m conv (fail cause) (fail cause) where
  ok := by
    intro s a t _ run
    cases run
  error := by
    intro s failure t _ run
    cases run
    exact .inr ⟨_, _, rfl, m.erase_grammatical cause _⟩

theorem unexpected_moves (expected : String) (conv : α → β) :
    Moves m conv (unexpected expected) (unexpected expected) :=
  kind_moves.next fun _ => fail_moves _ _

/-- Taking a token and looking at the one after it come upon the same, if anything. -/
theorem advance_moves : Moves m id advance advance where
  ok := by
    intro s a t isLow run
    unfold advance at run ⊢
    cases isAhead : s.ahead with
    | cons token rest =>
      simp only [isAhead] at run
      cases run
      exact ⟨isLow, by simp [Move.state, isAhead]⟩
    | nil =>
      cases isFailure : s.failure with
      | none =>
        simp only [isAhead, isFailure] at run
        cases run
        exact ⟨isLow, by simp [Move.state, isAhead, isFailure]⟩
      | some failure =>
        simp only [isAhead, isFailure] at run
        cases run
  error := by
    intro s failure t isLow run
    unfold advance at run ⊢
    cases isAhead : s.ahead with
    | cons token rest =>
      simp only [isAhead] at run
      cases run
    | nil =>
      cases isFailure : s.failure with
      | none =>
        simp only [isAhead, isFailure] at run
        cases run
      | some error =>
        simp only [isAhead, isFailure] at run
        cases run
        simp only [Move.state, isAhead, isFailure, List.map_nil, Option.map_some]
        exact .inr ⟨_, _, rfl, m.erase_lexical error⟩

theorem peek_moves : Moves m id peek peek where
  ok := by
    intro s a t isLow run
    unfold peek at run ⊢
    cases isAhead : s.ahead with
    | cons token rest =>
      simp only [isAhead] at run
      cases run
      exact ⟨isLow, by simp [Move.state, isAhead]⟩
    | nil =>
      cases isFailure : s.failure with
      | none =>
        simp only [isAhead, isFailure] at run
        cases run
        exact ⟨isLow, by simp [Move.state, isAhead, isFailure]⟩
      | some failure =>
        simp only [isAhead, isFailure] at run
        cases run
  error := by
    intro s failure t isLow run
    unfold peek at run ⊢
    cases isAhead : s.ahead with
    | cons token rest =>
      simp only [isAhead] at run
      cases run
    | nil =>
      cases isFailure : s.failure with
      | none =>
        simp only [isAhead, isFailure] at run
        cases run
      | some error =>
        simp only [isAhead, isFailure] at run
        cases run
        simp only [Move.state, isAhead, isFailure, List.map_nil, Option.map_some]
        exact .inr ⟨_, _, rfl, m.erase_lexical error⟩

theorem atWordBefore_moves (word : Keyword) (next : Kind → Bool) :
    Moves m id (atWordBefore word next) (atWordBefore word next) :=
  (atWord_moves word).next fun _ => .ite (fun _ => peek_moves.next fun _ => .pure rfl)
    fun _ => .pure rfl

theorem takeSign_moves (sign : Symbol) : Moves m id (takeSign sign) (takeSign sign) :=
  (atSign_moves sign).next fun _ => .ite (fun _ => advance_moves.next fun _ => .pure rfl)
    fun _ => .pure rfl

theorem takeWord_moves (word : Keyword) : Moves m id (takeWord word) (takeWord word) :=
  (atWord_moves word).next fun _ => .ite (fun _ => advance_moves.next fun _ => .pure rfl)
    fun _ => .pure rfl

theorem expectSign_moves (sign : Symbol) : Moves m id (expectSign sign) (expectSign sign) :=
  (atSign_moves sign).next fun _ => .ite (fun _ => advance_moves) fun _ => unexpected_moves _ _

theorem expectWord_moves (word : Keyword) : Moves m id (expectWord word) (expectWord word) :=
  (atWord_moves word).next fun _ => .ite (fun _ => advance_moves) fun _ => unexpected_moves _ _

theorem identifier_moves : Moves m id identifier identifier :=
  kind_moves.next fun kind => by
    split
    · exact advance_moves.next fun _ => .pure rfl
    · exact unexpected_moves _ _

/-! ## Recursion -/

/-- The second reading has room where the first one has, and perhaps more. -/
theorem enter_moves : Moves m id enter enter where
  ok := by
    intro s a t isLow run
    rw [enter_run] at run ⊢
    have room := m.cap_le isLow
    split at run
    · next deep =>
      cases run
      refine ⟨isLow, ?_⟩
      rw [if_pos (show (m.state s).depth < (m.state s).cap from Nat.lt_of_lt_of_le deep room)]
      rfl
    · cases run
  error := by
    intro s failure t isLow run
    rw [enter_run] at run ⊢
    split at run
    · cases run
    · next full =>
      cases run
      rcases Nat.lt_or_eq_of_le m.rises with more | same
      · exact .inl ⟨more, _, by rw [isLow]⟩
      · have isHigh : (m.state s).limit = s.limit := by rw [isLow, same]; rfl
        have room : (m.state s).cap = s.cap := by simp only [State.cap, isHigh]
        rw [room, if_neg (show ¬ (m.state s).depth < s.cap from full), isHigh]
        exact .inr ⟨_, _, rfl, m.erase_grammatical _ _⟩

theorem leave_moves (levels : Nat) : Moves m id (leave levels) (leave levels) where
  ok := by
    intro s a t isLow run
    cases run
    exact ⟨isLow, rfl⟩
  error := by
    intro s failure t _ run
    cases run

section

variable {conv : α → β} {p : Parse α} {q : Parse β}

theorem nested_moves (inner : Moves m conv p q) : Moves m conv (nested p) (nested q) :=
  enter_moves.next fun _ => inner.bind fun _ => (leave_moves 1).next fun _ => .pure rfl

theorem remaining_moves : Moves m id remaining remaining :=
  get_moves.bind fun _ => .pure (List.length_map _).symm

theorem round_moves {conv : σ → τ} {step : σ → Parse (Option σ)} {step' : τ → Parse (Option τ)}
    (round : ∀ value, Moves m (Option.map conv) (step value) (step' (conv value))) (value : σ) :
    Moves m (Option.map conv) (Parse.round step value) (Parse.round step' (conv value)) := by
  refine remaining_moves.next fun before => (round value).bind fun next => ?_
  cases next with
  | none => exact .pure rfl
  | some more =>
    exact remaining_moves.next fun _ => .ite (fun _ => .pure rfl) fun _ => throw_moves _ _

theorem iterate_moves {conv : σ → τ} {step : σ → Parse (Option σ)} {step' : τ → Parse (Option τ)}
    (round : ∀ value, Moves m (Option.map conv) (step value) (step' (conv value))) (bound : Nat)
    (value : σ) : Moves m conv (iterate step bound value) (iterate step' bound (conv value)) := by
  induction bound generalizing value with
  | zero => exact throw_moves _ _
  | succ bound ih =>
    refine (round value).bind fun result => ?_
    cases result with
    | none => exact .pure rfl
    | some more => exact ih more

/-- A loop does in both readings what each of its rounds does. -/
theorem loop_moves (conv : σ → τ) {step : σ → Parse (Option σ)} {step' : τ → Parse (Option τ)}
    (round : ∀ value, Moves m (Option.map conv) (step value) (step' (conv value))) (value : σ) :
    Moves m conv (loop step value) (loop step' (conv value)) := by
  exact remaining_moves.next fun _ => iterate_moves (round_moves round) _ _

theorem commaSeparated_moves (item : Moves m conv p q) :
    Moves m (List.map conv) (commaSeparated p) (commaSeparated q) := by
  refine item.bind fun first => loop_moves (List.map conv) (fun items => ?_) [first]
  refine (takeSign_moves _).next fun _ => .ite (fun _ => ?_) fun _ => .pure rfl
  exact item.bind fun _ => .pure (by simp)

theorem parenthesized_moves (inner : Moves m conv p q) :
    Moves m conv (parenthesized p) (parenthesized q) :=
  (expectSign_moves _).next fun _ => inner.bind fun _ => (expectSign_moves _).next fun _ =>
    .pure rfl

end

/-! ## Names -/

theorem loop_moves_id {step : σ → Parse (Option σ)}
    (round : ∀ value, Moves m id (step value) (step value)) (value : σ) :
    Moves m id (loop step value) (loop step value) :=
  loop_moves id (fun value => by simpa using round value) value

theorem names_moves : Moves m id names names :=
  parenthesized_moves (by simpa using commaSeparated_moves identifier_moves)

theorem optionalNames_moves : Moves m id optionalNames optionalNames :=
  (atSign_moves _).next fun _ => .ite (fun _ => names_moves) fun _ => .pure rfl

theorem qualifiedName_moves : Moves m id qualifiedName qualifiedName := by
  refine identifier_moves.next fun _ => (loop_moves_id (fun parts => ?_) _).next fun _ => .pure rfl
  exact (takeSign_moves _).next fun _ => .ite (fun _ => identifier_moves.next fun _ => .pure rfl)
    fun _ => .pure rfl

theorem setQuantifier_moves : Moves m id setQuantifier setQuantifier :=
  (takeWord_moves _).next fun _ => .ite (fun _ => .pure rfl) fun _ =>
    (takeWord_moves _).next fun _ => .ite (fun _ => .pure rfl) fun _ => .pure rfl

theorem optionalAlias_moves : Moves m id optionalAlias optionalAlias := by
  refine (takeWord_moves _).next fun _ => .ite (fun _ => ?_) fun _ => ?_
  · exact identifier_moves.next fun _ => .pure rfl
  · exact kind_moves.next fun _ => .ite (fun _ => identifier_moves.next fun _ => .pure rfl)
      fun _ => .pure rfl

end Parse

end CanonicalSql
