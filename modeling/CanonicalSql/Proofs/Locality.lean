import CanonicalSql.Proofs.Course.Stream
import CanonicalSql.Proofs.Steps.Statement

/-!
# Refusals are local

A text is refused at the first token that may not stand where it stands: all tokens before it have
been taken one by one, at most the one behind it has been looked at, and nothing that comes later
has any say.

Two inductions on how rules are built carry this. One follows a single run over its stream
(`Built.follows`). The other compares two runs over streams that begin with the same tokens
(`Built.echoes`): as long as the first run asks for none but these, the second one does the same.
-/
namespace CanonicalSql

/-- The state stands within the stream. -/
structure State.Within (stream : TokenStream) (s : State) : Prop where
  current : stream.tokens[s.taken]? = some s.current
  ahead : s.ahead = stream.tokens.drop (s.taken + 1)
  failure : s.failure = stream.failure
  /-- Only a token that there is can have been looked at. -/
  looked : s.looked = true → s.taken + 2 ≤ stream.tokens.length

/-- The state as it would be if other tokens followed the current one. -/
def State.switched (other : TokenStream) (s : State) : State :=
  { s with ahead := other.tokens.drop (s.taken + 1), failure := other.failure }

namespace TokenStream

/-- The tokens from the `i`-th one on, up to the `j`-th one. -/
def between (stream : TokenStream) (i j : Nat) : List Token := (stream.tokens.drop i).take (j - i)

variable {stream : TokenStream}

theorem between_self (i : Nat) : stream.between i i = [] := by
  rw [between, Nat.sub_self, List.take_zero]

theorem between_append {i j k : Nat} (first : i ≤ j) (second : j ≤ k) :
    stream.between i j ++ stream.between j k = stream.between i k := by
  have parts : k - i = (j - i) + (k - j) := by omega
  have rest : stream.tokens.drop j = (stream.tokens.drop i).drop (j - i) := by
    rw [List.drop_drop, Nat.add_sub_cancel' first]
  unfold between
  rw [parts, List.take_add, rest]

theorem between_succ {i : Nat} {token : Token} (isToken : stream.tokens[i]? = some token) :
    stream.between i (i + 1) = [token] := by
  obtain ⟨inside, rfl⟩ := List.getElem?_eq_some_iff.mp isToken
  rw [between, Nat.add_sub_cancel_left, List.drop_eq_getElem_cons inside]
  rfl

end TokenStream

/-- What is asked for is the tokens that have been taken, the current one and perhaps the next. -/
theorem State.taken_lt_asked (s : State) : s.taken < s.asked := by
  unfold State.asked
  omega

theorem State.asked_le (s : State) : s.asked ≤ s.taken + 2 := by
  unfold State.asked
  split <;> omega

namespace Parse

variable {α β : Type} {stream one other : TokenStream}

/-- The state that a run ends in, whether it gives something or fails. -/
def after (p : Parse α) (s : State) : State :=
  match p s with
  | .ok _ t => t
  | .error _ t => t

theorem after_ok {p : Parse α} {s t : State} {a : α} (run : p s = .ok a t) : after p s = t := by
  simp only [after, run]

theorem after_error {p : Parse α} {s t : State} {failure : Failure}
    (run : p s = .error failure t) : after p s = t := by
  simp only [after, run]

theorem after_bind_ok {p : Parse α} {f : α → Parse β} {s t : State} {a : α}
    (run : p s = .ok a t) : after (p >>= f) s = after (f a) t := by
  simp only [after, bind_ok run]

/-! ## One run -/

/-- The run of a step from a state is made of basic steps, and these take the tokens of the row, one
after another. -/
inductive Consumes : {α : Type} → Parse α → State → List Token → Prop
  | look {α : Type} (result : Token → Span → Nat → Except Failure α) (s : State) :
    Consumes (looking result) s []
  | advance {s t : State} (run : advance s = .ok () t) : Consumes advance s [s.current]
  | stuck {s t : State} {failure : Failure} (run : Parse.advance s = .error failure t) :
    Consumes Parse.advance s []
  | peek (s : State) : Consumes peek s []
  | enter (s : State) : Consumes enter s []
  | leave (levels : Nat) (s : State) : Consumes (leave levels) s []
  | bind {α β : Type} {p : Parse α} {f : α → Parse β} {s t : State} {a : α} {row more : List Token}
    (run : p s = .ok a t) (first : Consumes p s row) (rest : Consumes (f a) t more) :
    Consumes (p >>= f) s (row ++ more)
  | failed {α β : Type} {p : Parse α} {f : α → Parse β} {s t : State} {failure : Failure}
    {row : List Token} (run : p s = .error failure t) (first : Consumes p s row) :
    Consumes (p >>= f) s row
  | sized {α : Type} {f : Nat → Parse α} {s : State} {row : List Token}
    (given : Consumes (f s.ahead.length) s row) : Consumes (sized f) s row

/-- Taking the current token asks for the next one. -/
theorem advance_asks (s : State) :
    s.taken ≤ (after advance s).taken ∧ s.taken + 2 ≤ (after advance s).asked := by
  unfold after advance
  cases s.ahead with
  | cons token rest => exact ⟨Nat.le_succ _, Nat.le_add_right _ _⟩
  | nil =>
    cases s.failure with
    | some error => exact ⟨Nat.le_refl _, Nat.le_refl _⟩
    | none => exact ⟨Nat.le_succ _, Nat.le_add_right _ _⟩

/-- Looking at the next token asks for no more than this, and takes nothing. -/
theorem peek_asks (s : State) :
    s.taken ≤ (after peek s).taken ∧ s.asked ≤ (after peek s).asked := by
  unfold after peek
  cases s.ahead with
  | cons token rest => exact ⟨Nat.le_refl _, s.asked_le⟩
  | nil =>
    cases s.failure with
    | some error => exact ⟨Nat.le_refl _, s.asked_le⟩
    | none => exact ⟨Nat.le_refl _, Nat.le_refl _⟩

/-- No step goes back, neither over the tokens that it has taken nor over those that it has asked
for. -/
theorem Built.forward {up : Nat} {down : α → Nat} {p q : Parse α} (built : Built up down p q)
    (s : State) : s.taken ≤ (after p s).taken ∧ s.asked ≤ (after p s).asked := by
  have kept (s : State) : s.taken ≤ s.taken ∧ s.asked ≤ s.asked := ⟨Nat.le_refl _, Nat.le_refl _⟩
  induction built generalizing s with
  | look result =>
    unfold after looking
    cases result s.current s.previous s.limit <;> exact kept s
  | advance => exact ⟨(advance_asks s).1, Nat.le_trans s.asked_le (advance_asks s).2⟩
  | peek => exact peek_asks s
  | enter =>
    unfold after
    rw [enter_run]
    by_cases below : s.depth < s.cap
    · rw [if_pos below]
      exact kept s
    · rw [if_neg below]
      exact kept s
  | leave => exact kept s
  | @bind α β up mid down p q f g _ _ first rest =>
    have before := first s
    cases run : p s with
    | ok a t =>
      have behind := rest a t
      rw [after_ok run] at before
      rw [after_bind_ok run]
      exact ⟨Nat.le_trans before.1 behind.1, Nat.le_trans before.2 behind.2⟩
    | error failure t =>
      rw [after_error run] at before
      rw [after_error (bind_error run)]
      exact before
  | sized _ each => exact each s.ahead.length s.ahead.length s
  | halted => exact kept s
  | outlasted _ given => exact given s

/-- A run that begins within a stream follows it: it stays within, takes the tokens up to where it
ends, and refuses none but the one where it ends. Nothing is said of a run that takes the end of
input or meets a malformed token. -/
structure Follows (stream : TokenStream) (p : Parse α) (s : State) : Prop where
  ok : ∀ a t, p s = .ok a t → t.taken < stream.tokens.length →
    t.Within stream ∧ Consumes p s (stream.between s.taken t.taken)
  error : ∀ error t, p s = .error (.grammatical error) t → t.taken < stream.tokens.length →
    t.Within stream ∧ Consumes p s (stream.between s.taken t.taken) ∧
      (Failure.grammatical error).PointsAt t.current

theorem advance_follows {s : State} (within : s.Within stream) : Follows stream advance s where
  ok := by
    intro a t run more
    have takes : Consumes advance s [s.current] := .advance run
    have rest := within.ahead
    unfold advance at run
    split at run
    · next token others isAhead =>
      cases run
      rw [isAhead] at rest
      have next : stream.tokens[s.taken + 1]? = some token := by
        rw [← List.head?_drop, ← rest, List.head?_cons]
      have behind : others = stream.tokens.drop (s.taken + 1 + 1) := by
        rw [← List.drop_drop, ← rest, List.drop_one, List.tail_cons]
      have looked (isLooked : false = true) : s.taken + 1 + 2 ≤ stream.tokens.length := by
        cases isLooked
      refine ⟨⟨next, behind, within.failure, looked⟩, ?_⟩
      show Consumes advance s (stream.between s.taken (s.taken + 1))
      rw [TokenStream.between_succ within.current]
      exact takes
    · cases run
    · next isAhead _ =>
      -- the end of input would have been taken
      cases run
      rw [isAhead, eq_comm, List.drop_eq_nil_iff] at rest
      exact absurd more (Nat.not_lt.mpr rest)
  error := by
    intro error t run
    unfold advance at run
    split at run <;> cases run

theorem peek_follows {s : State} (within : s.Within stream) : Follows stream peek s where
  ok := by
    intro a t run _
    have rest := within.ahead
    have takes : Consumes peek s (stream.between s.taken s.taken) := by
      rw [TokenStream.between_self]
      exact .peek s
    unfold peek at run
    split at run
    · next token others isAhead =>
      cases run
      rw [isAhead] at rest
      have more : s.taken + 2 ≤ stream.tokens.length := by
        have lengths := congrArg List.length rest
        rw [List.length_cons, List.length_drop] at lengths
        omega
      exact ⟨⟨within.current, within.ahead, within.failure, fun _ => more⟩, takes⟩
    · cases run
    · cases run
      exact ⟨within, takes⟩
  error := by
    intro error t run
    unfold peek at run
    split at run <;> cases run

/-- A step that takes nothing. -/
theorem Consumes.none {p : Parse α} {s : State} (takes : Consumes p s []) (i : Nat) :
    Consumes p s (stream.between i i) := by
  rw [TokenStream.between_self]
  exact takes

theorem looking_follows {s : State} (within : s.Within stream)
    (result : Token → Span → Nat → Except Failure α)
    (points : ∀ current previous limit failure, result current previous limit = .error failure →
      failure.PointsAt current) : Follows stream (looking result) s where
  ok := by
    intro a t run _
    have takes := Consumes.look result s
    unfold looking at run
    split at run
    · cases run
      exact ⟨within, takes.none _⟩
    · cases run
  error := by
    intro error t run _
    have takes := Consumes.look result s
    unfold looking at run
    split at run
    · cases run
    · next failure refused =>
      cases run
      exact ⟨within, takes.none _, points _ _ _ _ refused⟩

theorem enter_follows {s : State} (within : s.Within stream) : Follows stream enter s where
  ok := by
    intro a t run _
    rw [enter_run] at run
    split at run
    · cases run
      exact ⟨⟨within.current, within.ahead, within.failure, within.looked⟩, (Consumes.enter s).none _⟩
    · cases run
  error := by
    intro error t run _
    rw [enter_run] at run
    split at run
    · cases run
    · cases run
      exact ⟨within, (Consumes.enter s).none _, trivial⟩

theorem leave_follows {s : State} (within : s.Within stream) (levels : Nat) :
    Follows stream (leave levels) s where
  ok := by
    intro a t run _
    cases run
    exact ⟨⟨within.current, within.ahead, within.failure, within.looked⟩,
      (Consumes.leave levels s).none _⟩
  error := by
    intro error t run
    cases run

theorem Follows.bind {p : Parse α} {f : α → Parse β} {s : State} (first : Follows stream p s)
    (before : s.taken ≤ (after p s).taken)
    (behind : ∀ a t, t.taken ≤ (after (f a) t).taken)
    (rest : ∀ a t, t.Within stream → Follows stream (f a) t) : Follows stream (p >>= f) s := by
  cases ran : p s with
  | error failure middle =>
    constructor
    · intro b t run
      rw [bind_error ran] at run
      cases run
    · intro error t run more
      rw [bind_error ran] at run
      cases run
      obtain ⟨stands, takes, points⟩ := first.error error middle ran more
      exact ⟨stands, .failed ran takes, points⟩
  | ok a middle =>
    rw [after_ok ran] at before
    have behind := behind a middle
    constructor
    · intro b t run more
      rw [bind_ok ran] at run
      rw [after_ok run] at behind
      obtain ⟨stands, takes⟩ := first.ok a middle ran (Nat.lt_of_le_of_lt behind more)
      obtain ⟨stands', takes'⟩ := (rest a middle stands).ok b t run more
      rw [← TokenStream.between_append before behind]
      exact ⟨stands', .bind ran takes takes'⟩
    · intro error t run more
      rw [bind_ok ran] at run
      rw [after_error run] at behind
      obtain ⟨stands, takes⟩ := first.ok a middle ran (Nat.lt_of_le_of_lt behind more)
      obtain ⟨stands', takes', points⟩ := (rest a middle stands).error error t run more
      rw [← TokenStream.between_append before behind]
      exact ⟨stands', .bind ran takes takes', points⟩

/-- What is built of basic steps follows its stream, because each of them does. -/
theorem Built.follows {up : Nat} {down : α → Nat} {p q : Parse α} (built : Built up down p q)
    {s : State} (within : s.Within stream) : Follows stream p s := by
  induction built generalizing s with
  | look result points => exact looking_follows within result points
  | advance => exact advance_follows within
  | peek => exact peek_follows within
  | enter => exact enter_follows within
  | leave up levels => exact leave_follows within levels
  | bind first rest one two =>
    apply (one within).bind (first.forward s).1
    · intro a t
      exact ((rest a).forward t).1
    · intro a t stands
      exact two a stands
  | sized _ each =>
    have given := each s.ahead.length s.ahead.length within
    constructor
    · intro a t run more
      obtain ⟨stands, takes⟩ := given.ok a t run more
      exact ⟨stands, .sized takes⟩
    · intro error t run more
      obtain ⟨stands, takes, points⟩ := given.error error t run more
      exact ⟨stands, .sized takes, points⟩
  | halted q =>
    apply looking_follows within (fun _ _ _ => .error .exhausted)
    intro current previous limit failure isError
    cases isError
    trivial
  | outlasted _ given => exact given within

/-! ## Two runs -/

/-- The run used up its bound on recursion. -/
def Exhausts (p : Parse α) (s : State) : Prop := ∃ t, p s = .error .exhausted t

/-- The result of a run as it would be if other tokens followed where it ended. -/
def switched (other : TokenStream) : EStateM.Result Failure State α → EStateM.Result Failure State α
  | .ok a t => .ok a (t.switched other)
  | .error failure t => .error failure (t.switched other)

/-- Two streams agree on the first `shared` tokens, and the second one ends where it says so. -/
structure Agree (one other : TokenStream) (shared : Nat) : Prop where
  covered : shared ≤ one.tokens.length
  same : one.tokens.take shared = other.tokens.take shared
  /-- The first one ends there too. -/
  ends : one.failure = none → shared = one.tokens.length →
    other.tokens.length = shared ∧ other.failure = none

variable {shared : Nat}

theorem Agree.get (agree : Agree one other shared) {i : Nat} (inside : i < shared) :
    other.tokens[i]? = one.tokens[i]? := by
  rw [← List.getElem?_take_of_lt inside, ← agree.same, List.getElem?_take_of_lt inside]

/-- In front of the tokens that are shared the streams have the same token ahead. -/
theorem Agree.ahead (agree : Agree one other shared) {i : Nat} (inside : i < shared) :
    ∃ token, one.tokens.drop i = token :: one.tokens.drop (i + 1) ∧
      other.tokens.drop i = token :: other.tokens.drop (i + 1) := by
  have covered := agree.covered
  have isToken : one.tokens[i]? = some one.tokens[i] := List.getElem?_eq_getElem (by omega)
  have isOther := (agree.get inside).trans isToken
  obtain ⟨inOther, same⟩ := List.getElem?_eq_some_iff.mp isOther
  refine ⟨one.tokens[i], List.drop_eq_getElem_cons (by omega), ?_⟩
  rw [List.drop_eq_getElem_cons inOther, same]

theorem advance_echoes (agree : Agree one other shared) {s : State} (within : s.Within one)
    (asks : (after advance s).asked ≤ shared) :
    advance (s.switched other) = switched other (advance s) := by
  have inside : s.taken + 1 < shared := Nat.lt_of_lt_of_le (advance_asks s).2 asks
  obtain ⟨token, isAhead, isOther⟩ := agree.ahead inside
  rw [← within.ahead] at isAhead
  simp only [advance, State.switched, isAhead, isOther, switched]

theorem peek_echoes (agree : Agree one other shared) {s : State} (within : s.Within one)
    (asks : (after peek s).asked ≤ shared) :
    peek (s.switched other) = switched other (peek s) := by
  have covered := agree.covered
  by_cases inside : s.taken + 1 < shared
  · obtain ⟨token, isAhead, isOther⟩ := agree.ahead inside
    rw [← within.ahead] at isAhead
    simp only [peek, State.switched, isAhead, isOther, switched]
  -- the current token is the last one that is shared, and none has been looked at behind it
  cases isAhead : s.ahead with
  | cons token rest =>
    simp only [after, peek, isAhead, State.asked, if_true] at asks
    omega
  | nil =>
    cases isFailure : s.failure with
    | some error =>
      simp only [after, peek, isAhead, isFailure, State.asked, if_true] at asks
      omega
    | none =>
      simp only [after, peek, isAhead, isFailure, State.asked] at asks
      have noMore : one.tokens.length ≤ s.taken + 1 := by
        rw [← List.drop_eq_nil_iff, ← within.ahead, isAhead]
      obtain ⟨length, complete⟩ := agree.ends (within.failure ▸ isFailure) (by omega)
      have isOther : other.tokens.drop (s.taken + 1) = [] := by
        rw [List.drop_eq_nil_iff]
        omega
      simp only [peek, State.switched, isAhead, isFailure, isOther, complete, switched]

theorem Exhausts.bind {p : Parse α} {f : α → Parse β} {s : State} (exhausts : Exhausts p s) :
    Exhausts (p >>= f) s := by
  obtain ⟨t, run⟩ := exhausts
  exact ⟨t, bind_error run⟩

/-- The second step does over the other stream what the first one does over the one, as far as it
asks only for shared tokens and neither of them uses up its bound. -/
theorem Built.echoes {up : Nat} {down : α → Nat} {p q : Parse α} (built : Built up down p q)
    (agree : Agree one other shared) {s : State} (within : s.Within one)
    (asks : (after p s).asked ≤ shared) (goesOn : ¬ Exhausts p s)
    (otherGoesOn : ¬ Exhausts q (s.switched other)) :
    q (s.switched other) = switched other (p s) := by
  induction built generalizing s with
  | look result =>
    show looking result (s.switched other) = switched other (looking result s)
    simp only [looking, State.switched]
    cases result s.current s.previous s.limit <;> rfl
  | advance => exact advance_echoes agree within asks
  | peek => exact peek_echoes agree within asks
  | enter =>
    rw [enter_run, enter_run]
    by_cases below : s.depth < s.cap
    · rw [if_pos below]
      exact if_pos below
    · rw [if_neg below]
      exact if_neg below
  | leave up levels => rfl
  | @bind α β up mid down p q f g first rest given given' =>
    have before := (first.forward s).2
    have stops : ¬ Exhausts p s := fun exhausts => goesOn exhausts.bind
    have otherStops : ¬ Exhausts q (s.switched other) := fun exhausts => otherGoesOn exhausts.bind
    cases ran : p s with
    | error failure t =>
      rw [after_error (bind_error ran), ← after_error ran] at asks
      have echo := given within asks stops otherStops
      rw [ran] at echo
      rw [bind_error ran, bind_error echo]
      rfl
    | ok a t =>
      rw [after_bind_ok ran] at asks
      have behind := ((rest a).forward t).2
      rw [after_ok ran] at before
      -- the first step asks for no token that both together do not ask for
      have echo := given within (by rw [after_ok ran]; omega) stops otherStops
      rw [ran] at echo
      have inside : t.taken < one.tokens.length := by
        have := t.taken_lt_asked
        have := agree.covered
        omega
      obtain ⟨stands, -⟩ := (first.follows within).ok a t ran inside
      -- if the second step used up its bound, so would both together
      have goesOn' : ¬ Exhausts (f a) t := by
        rintro ⟨u, run⟩
        exact goesOn ⟨u, by rw [bind_ok ran, run]⟩
      have otherGoesOn' : ¬ Exhausts (g a) (t.switched other) := by
        rintro ⟨u, run⟩
        exact otherGoesOn ⟨u, by rw [bind_ok echo, run]⟩
      rw [bind_ok ran, bind_ok echo]
      exact given' a stands asks goesOn' otherGoesOn'
  | sized _ each =>
    -- the bounds of the two loops may differ, but neither is used up
    exact each s.ahead.length (s.switched other).ahead.length within asks goesOn otherGoesOn
  | halted q => exact absurd ⟨s, rfl⟩ goesOn
  | outlasted => exact absurd ⟨_, rfl⟩ otherGoesOn

end Parse

/-! ## Whole texts -/

/-- Behind the end of input there is nothing, not even a malformed token. -/
theorem Lexer.take_complete (count : Nat) (lexer : Lexer) {token : Token}
    (member : token ∈ (lexer.take count).1.tokens) (ends : token.kind = .endOfInput) :
    (lexer.take count).1.failure = none := by
  induction count generalizing lexer with
  | zero => rfl
  | succ count ih =>
    unfold take at member ⊢
    split
    · next given =>
      rw [given] at member
      exact absurd member List.not_mem_nil
    · next first after given =>
      rw [given] at member
      by_cases isEnd : first.kind = .endOfInput
      · rw [if_pos isEnd]
      · simp only [if_neg isEnd] at member ⊢
        rcases List.mem_cons.mp member with rfl | later
        · exact absurd ends isEnd
        · exact ih after later

/-- Two texts whose tokens begin alike agree on them. -/
theorem Lexer.agree_of_prefix {lexer lexer' : Lexer} {count : Nat}
    (alike : lexer.stream.tokens.take count <+: lexer'.stream.tokens) :
    Parse.Agree lexer.stream lexer'.stream (min count lexer.stream.tokens.length) := by
  have same : lexer.stream.tokens.take (min count lexer.stream.tokens.length) =
      lexer'.stream.tokens.take (min count lexer.stream.tokens.length) := by
    rw [List.prefix_iff_eq_take, List.length_take] at alike
    rw [← alike, List.take_eq_take_iff]
    omega
  refine ⟨Nat.min_le_right _ _, same, ?_⟩
  intro complete whole
  rw [whole, List.take_length] at same
  rw [whole]
  obtain ⟨last, isLast, ends⟩ := lexer.stream_flows.ends complete
  rw [List.getLast?_eq_getElem?] at isLast
  obtain ⟨inside, -⟩ := List.getElem?_eq_some_iff.mp isLast
  have isOther : lexer'.stream.tokens[lexer.stream.tokens.length - 1]? = some last := by
    rw [← List.getElem?_take_of_lt inside, ← same, isLast]
  constructor
  · have ended := lexer'.stream_flows.last _ last isOther ends
    omega
  · exact lexer'.take_complete _ (List.mem_of_getElem? isOther) ends

namespace State

variable {limit : Nat} {one other : TokenStream} {start : State}

theorem ofStream_within (begins : State.ofStream limit one = .ok start) :
    start.Within one ∧ start.taken = 0 := by
  unfold State.ofStream at begins
  split at begins
  · next first ahead isTokens =>
    cases begins
    refine ⟨⟨?_, ?_, rfl, ?_⟩, rfl⟩
    · rw [isTokens]
      rfl
    · rw [isTokens]
      rfl
    · intro isLooked
      cases isLooked
  · cases begins
  · cases begins

/-- A stream that begins with the same token is begun to be read in the same state. -/
theorem ofStream_switched (begins : State.ofStream limit one = .ok start)
    (same : other.tokens[0]? = one.tokens[0]?) :
    State.ofStream limit other = .ok (start.switched other) := by
  obtain ⟨tokens, failure⟩ := other
  unfold State.ofStream at begins
  split at begins
  · next first ahead isTokens =>
    cases begins
    rw [isTokens] at same
    cases tokens with
    | nil => cases same
    | cons token rest =>
      cases same
      rfl
  · cases begins
  · cases begins

end State

/-- The reading of the text within the limit refuses its `k`-th token for the cause. -/
structure Statement.RefusedAt (limit : Nat) (text : String) (cause : ParseCause) (k : Nat)
    (token : Token) : Prop where
  isToken : (Lexer.ofText text).stream.tokens[k]? = some token
  /-- All tokens before it have been taken in their order, it is the current one, and no other one
  than the next has been asked for. -/
  taken : ∃ start last, State.ofStream limit (Lexer.ofText text).stream = .ok start ∧
    Parse.statement start = .error (.grammatical ⟨cause, token.span⟩) last ∧
    Parse.Consumes Parse.statement start ((Lexer.ofText text).stream.tokens.take k) ∧
    last.current :: last.ahead = (Lexer.ofText text).stream.tokens.drop k ∧ last.asked ≤ k + 2
  /-- Every text that begins with the same tokens up to the next one is refused like this one. -/
  alike : ∀ other : String,
    (Lexer.ofText text).stream.tokens.take (k + 2) <+: (Lexer.ofText other).stream.tokens →
    Statement.parse limit other = .error (.grammatical ⟨cause, token.span⟩)

/-- What a text is refused with comes from the run of the rule for statements. -/
theorem Statement.parse_grammatical {limit : Nat} {text : String} {error : ParseError}
    (fails : Statement.parse limit text = .error (.grammatical error)) :
    ∃ start last, State.ofStream limit (Lexer.ofText text).stream = .ok start ∧
      Parse.statement start = .error (.grammatical error) last := by
  unfold Statement.parse TokenStream.statement at fails
  split at fails
  · next failure refused =>
    cases fails
    unfold State.ofStream at refused
    split at refused <;> cases refused
  · next start begins =>
    split at fails
    · cases fails
    · next failure last run =>
      cases fails
      exact ⟨start, last, begins, run⟩

/-- A text that is refused because a token is not expected where it stands is refused at this token,
with everything before it taken and nothing behind the next one known. -/
theorem Statement.refusedAt_of_parse {limit : Nat} {text : String} {expected : String} {found : Kind}
    {span : Span}
    (fails : Statement.parse limit text = .error (.grammatical ⟨.unexpected expected found, span⟩)) :
    ∃ k, Statement.RefusedAt limit text (.unexpected expected found) k ⟨found, span⟩ := by
  obtain ⟨start, last, begins, run⟩ := Statement.parse_grammatical fails
  have flows := (Lexer.ofText text).stream_flows
  have built := Parse.statement_balanced 0
  obtain ⟨within, none⟩ := State.ofStream_within begins
  have more := (Parse.statement_proceeds.error start _ last (State.ofStream_at flows begins) run).2
  obtain ⟨stands, takes, points⟩ := (built.follows within).error _ last run more
  rw [none] at takes
  refine ⟨last.taken, ?_, ⟨start, last, begins, run, takes, ?_, last.asked_le⟩, ?_⟩
  · rw [stands.current]
    exact congrArg some points
  · obtain ⟨inside, isCurrent⟩ := List.getElem?_eq_some_iff.mp stands.current
    rw [List.drop_eq_getElem_cons inside, isCurrent, ← stands.ahead]
  · intro other alike
    have agree := Lexer.agree_of_prefix alike
    -- what was asked for ends at the token behind the one that is refused
    have asks : last.asked ≤ min (last.taken + 2) (Lexer.ofText text).stream.tokens.length := by
      have looked := stands.looked
      unfold State.asked
      split
      · next isLooked =>
        have inside := looked isLooked
        omega
      · omega
    have begins' := State.ofStream_switched begins (agree.get (i := 0) (by omega))
    -- reading comes to an end over both texts, so the run over the other one is an echo
    have goesOn : ¬ Parse.Exhausts Parse.statement start := by
      rintro ⟨t, exhausted⟩
      rw [run] at exhausted
      cases exhausted
    have otherGoesOn : ¬ Parse.Exhausts Parse.statement
        (start.switched (Lexer.ofText other).stream) := by
      rintro ⟨t, exhausted⟩
      have flows' := (Lexer.ofText other).stream_flows
      exact (Parse.statement_proceeds.error _ _ t (State.ofStream_at flows' begins') exhausted).1 rfl
    have echo := built.echoes agree within (by rw [Parse.after_error run]; exact asks) goesOn
      otherGoesOn
    rw [run] at echo
    unfold Statement.parse TokenStream.statement
    simp only [begins', echo, Parse.switched]

/-- Why the text is refused within the limit, if it is. -/
def Statement.failure? (limit : Nat) (text : String) : Option Failure :=
  match Statement.parse limit text with
  | .ok _ => none
  | .error failure => some failure

theorem Statement.parse_of_failure? {limit : Nat} {text : String} {failure : Failure}
    (refused : Statement.failure? limit text = some failure) :
    Statement.parse limit text = .error failure := by
  unfold Statement.failure? at refused
  split at refused
  · cases refused
  · next found isFound =>
    cases refused
    exact isFound

/-- The parenthesis has been looked past, and could have opened a query as well as a list of names. -/
theorem Statement.refusedAt_of_parse_parenthesis :
    Statement.parse 48 "INSERT INTO t (1, 2)" = .error (.grammatical
        ⟨.unexpected "SELECT, VALUES, TABLE or '('" (.integer 1), ⟨⟨15, 1, 16⟩, ⟨16, 1, 17⟩⟩⟩) ∧
      ∃ k, Statement.RefusedAt 48 "INSERT INTO t (1, 2)"
        (.unexpected "SELECT, VALUES, TABLE or '('" (.integer 1)) k
        ⟨.integer 1, ⟨⟨15, 1, 16⟩, ⟨16, 1, 17⟩⟩⟩ := by
  have refused : Statement.failure? 48 "INSERT INTO t (1, 2)" = some (.grammatical
      ⟨.unexpected "SELECT, VALUES, TABLE or '('" (.integer 1), ⟨⟨15, 1, 16⟩, ⟨16, 1, 17⟩⟩⟩) := by
    decide +kernel
  have fails := Statement.parse_of_failure? refused
  exact ⟨fails, Statement.refusedAt_of_parse fails⟩

/-- The same tokens up to the comma are enough, with an open string behind them. -/
example : Statement.failure? 48 "INSERT INTO t (1, 'open" = some (.grammatical
    ⟨.unexpected "SELECT, VALUES, TABLE or '('" (.integer 1), ⟨⟨15, 1, 16⟩, ⟨16, 1, 17⟩⟩⟩) := by
  decide +kernel

end CanonicalSql
