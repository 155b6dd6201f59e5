import CanonicalSql.Proofs.Image.Basic

/-!
# What a step reads

`Reads limit accepts p depth kinds good depth' rest` follows a step through tokens that are
known beforehand. From a state that shows the row `kinds` at the given depth, the step `p`
comes to one of two ends. If `accepts` holds it gives something good and leaves the row
`rest` at `depth'`; if `accepts` fails it refuses an unexpected token. No third end is left
open: neither is the bound on recursion used up nor is the depth too great.

Steps that follow each other are put together by `Reads.bind`, and the rounds of a loop by
`Loops.next` and `Loops.stop`.
-/
namespace CanonicalSql

/-- The first token of a row, or the end of input behind it. -/
def lead (kinds : List Kind) : Kind := kinds.headD .endOfInput

@[simp] theorem lead_nil : lead [] = .endOfInput := rfl

@[simp] theorem lead_cons (kind : Kind) (rest : List Kind) : lead (kind :: rest) = kind := rfl

theorem lead_append_of_ne_nil {first : List Kind} (nonempty : first ≠ []) (rest : List Kind) :
    lead (first ++ rest) = lead first := by
  cases first with
  | nil => exact absurd rfl nonempty
  | cons kind more => rfl

/-- The keyword that a token is. -/
def Kind.word? : Kind → Option Keyword
  | .keyword word => some word
  | _ => none

/-- The state shows a row of tokens and nothing after it, at a depth of recursion. -/
structure State.Shows (limit depth : Nat) (kinds : List Kind) (s : State) : Prop where
  tokens : (s.current :: s.ahead).map Token.kind = kinds ++ [.endOfInput]
  failure : s.failure = none
  depth : s.depth = depth
  limit : s.limit = limit

/-- The failure is that another token was expected. -/
def Failure.IsUnexpected (failure : Failure) : Prop :=
  ∃ expected found span, failure = .grammatical ⟨.unexpected expected found, span⟩

namespace State.Shows

variable {limit depth : Nat} {kinds : List Kind} {s : State}

/-- The kind of the current token is the first of the row. -/
theorem current (shows : s.Shows limit depth kinds) : s.current.kind = lead kinds := by
  have tokens := shows.tokens
  cases kinds with
  | nil => simpa using (List.cons.inj tokens).1
  | cons kind more => simpa using (List.cons.inj tokens).1

theorem ahead (shows : s.Shows limit depth kinds) :
    s.ahead.map Token.kind = (kinds ++ [Kind.endOfInput]).drop 1 := by
  rw [← shows.tokens]
  rfl

theorem ahead_length (shows : s.Shows limit depth kinds) : s.ahead.length = kinds.length := by
  have lengths := congrArg List.length shows.tokens
  simpa using lengths

end State.Shows

namespace Parse

variable {α β γ σ : Type} {limit depth depth' middle : Nat} {kinds mid rest : List Kind}

/-- From a row of tokens the step gives something good and leaves a rest of the row if
`accepts` holds, and refuses an unexpected token if not. -/
structure Reads (limit : Nat) (accepts : Prop) (p : Parse α) (depth : Nat)
    (kinds : List Kind) (good : α → Prop) (depth' : Nat) (rest : List Kind) : Prop where
  ok : ∀ s a s', s.Shows limit depth kinds → p s = .ok a s' →
    accepts ∧ good a ∧ s'.Shows limit depth' rest
  error : ∀ s failure s', s.Shows limit depth kinds → p s = .error failure s' →
    ¬ accepts ∧ failure.IsUnexpected

namespace Reads

variable {accepts needed : Prop} {p : Parse α} {f : α → Parse β} {good : α → Prop}
  {better : β → Prop}

theorem pure {a : α} (holds : accepts) (isGood : good a) :
    Reads limit accepts (pure a) depth kinds good depth kinds where
  ok := by
    intro s b s' shows run
    cases run
    exact ⟨holds, isGood, shows⟩
  error := by
    intro s failure s' _ run
    cases run

/-- The first of two steps decides what is refused there, the second one the rest. -/
theorem bind (first : Reads limit needed p depth kinds good middle mid)
    (needs : accepts → needed)
    (next : needed → ∀ a, good a →
      Reads limit accepts (f a) middle mid better depth' rest) :
    Reads limit accepts (p >>= f) depth kinds better depth' rest where
  ok := by
    intro s b s' shows run
    obtain ⟨a, s₁, ran, run⟩ := ok_of_bind run
    obtain ⟨holds, isGood, shows₁⟩ := first.ok s a s₁ shows ran
    exact (next holds a isGood).ok s₁ b s' shows₁ run
  error := by
    intro s failure s' shows run
    rcases error_of_bind run with ran | ⟨a, s₁, ran, run⟩
    · obtain ⟨fails, unexpected⟩ := first.error s failure s' shows ran
      exact ⟨fun holds => fails (needs holds), unexpected⟩
    · obtain ⟨holds, isGood, shows₁⟩ := first.ok s a s₁ shows ran
      exact (next holds a isGood).error s₁ failure s' shows₁ run

/-- A first step that never fails. -/
theorem after (first : Reads limit True p depth kinds good middle mid)
    (next : ∀ a, good a → Reads limit accepts (f a) middle mid better depth' rest) :
    Reads limit accepts (p >>= f) depth kinds better depth' rest :=
  first.bind (fun _ => True.intro) fun _ => next

/-- A first step that always fails. -/
theorem refused (first : Reads limit False p depth kinds (fun _ => False) depth kinds)
    (fails : ¬ accepts) : Reads limit accepts (p >>= f) depth kinds better depth' rest :=
  first.bind fails fun holds => holds.elim

/-- A first step whose result is known. -/
theorem step {a : α} (first : Reads limit True p depth kinds (· = a) middle mid)
    (next : Reads limit accepts (f a) middle mid better depth' rest) :
    Reads limit accepts (p >>= f) depth kinds better depth' rest :=
  first.after fun b same => by
    rw [same]
    exact next

/-- A first step that changes nothing. -/
theorem still (isStill : Still p)
    (next : ∀ a, Reads limit accepts (f a) depth kinds better depth' rest) :
    Reads limit accepts (p >>= f) depth kinds better depth' rest where
  ok := by
    intro s b s' shows run
    obtain ⟨a, ran⟩ := isStill s
    rw [bind_ok ran] at run
    exact (next a).ok s b s' shows run
  error := by
    intro s failure s' shows run
    obtain ⟨a, ran⟩ := isStill s
    rw [bind_ok ran] at run
    exact (next a).error s failure s' shows run

theorem mono {accepts' : Prop} {good' : α → Prop}
    (given : Reads limit accepts p depth kinds good depth' rest)
    (same : accepts ↔ accepts') (weaker : ∀ a, good a → good' a) :
    Reads limit accepts' p depth kinds good' depth' rest where
  ok := by
    intro s a s' shows run
    obtain ⟨holds, isGood, shows'⟩ := given.ok s a s' shows run
    exact ⟨same.mp holds, weaker a isGood, shows'⟩
  error := by
    intro s failure s' shows run
    obtain ⟨fails, unexpected⟩ := given.error s failure s' shows run
    exact ⟨fun holds => fails (same.mpr holds), unexpected⟩

end Reads

/-! ## Looking and taking -/

theorem Looks.reads {p : Parse α} {found : Kind → α} (looks : Looks p found) :
    Reads limit True p depth kinds (· = found (lead kinds)) depth kinds where
  ok := by
    intro s a s' shows run
    rw [looks s] at run
    cases run
    exact ⟨trivial, by rw [shows.current], shows⟩
  error := by
    intro s failure s' _ run
    rw [looks s] at run
    cases run

theorem advance_reads {kind : Kind} :
    Reads limit True advance depth (kind :: rest) (fun _ => True) depth rest where
  ok := by
    intro s a s' shows run
    obtain ⟨-, ahead⟩ := List.cons.inj shows.tokens
    unfold advance at run
    split at run
    · next token more isAhead =>
      simp only [EStateM.Result.ok.injEq, true_and] at run
      rw [isAhead] at ahead
      subst run
      exact ⟨trivial, trivial, ahead, shows.failure, shows.depth, shows.limit⟩
    · next error _ isFailure =>
      rw [shows.failure] at isFailure
      cases isFailure
    · next isAhead _ =>
      rw [isAhead] at ahead
      exact absurd ahead (by simp)
  error := by
    intro s failure s' shows run
    unfold advance at run
    split at run
    · cases run
    · next error _ isFailure =>
      rw [shows.failure] at isFailure
      cases isFailure
    · cases run

theorem peek_reads :
    Reads limit True peek depth kinds (· = lead (kinds.drop 1)) depth kinds where
  ok := by
    intro s a s' shows run
    have ahead := shows.ahead
    unfold peek at run
    split at run
    · next token more isAhead =>
      simp only [EStateM.Result.ok.injEq] at run
      obtain ⟨rfl, rfl⟩ := run
      refine ⟨trivial, ?_, shows.tokens, shows.failure, shows.depth, shows.limit⟩
      rw [isAhead] at ahead
      cases kinds with
      | nil => simp at ahead
      | cons kind others =>
        cases others with
        | nil => simpa using (List.cons.inj ahead).1
        | cons other others => simpa using (List.cons.inj ahead).1
    · next error _ isFailure =>
      rw [shows.failure] at isFailure
      cases isFailure
    · next isAhead _ =>
      simp only [EStateM.Result.ok.injEq] at run
      obtain ⟨rfl, rfl⟩ := run
      refine ⟨trivial, ?_, shows⟩
      have none := shows.ahead_length
      rw [isAhead] at none
      have empty : kinds = [] := List.length_eq_zero_iff.mp none.symm
      simp [empty]
  error := by
    intro s failure s' shows run
    unfold peek at run
    split at run
    · cases run
    · next error _ isFailure =>
      rw [shows.failure] at isFailure
      cases isFailure
    · cases run

theorem spanFrom_still (start : Span) : Still (spanFrom start) :=
  fun s => ⟨start.merge s.previous, rfl⟩

theorem kind_reads : Reads limit True kind depth kinds (· = lead kinds) depth kinds :=
  kind_looks.reads

/-- Where another token is expected the step refuses the current one. -/
theorem unexpected_reads {accepts : Prop} (fails : ¬ accepts) (expected : String)
    {good : α → Prop} :
    Reads limit accepts (unexpected expected) depth kinds good depth' rest where
  ok := by
    intro s a s' _ run
    cases run
  error := by
    intro s failure s' _ run
    cases run
    exact ⟨fails, expected, s.current.kind, s.current.span, rfl⟩

theorem atSign_looks (sign : Symbol) :
    Looks (atSign sign) fun kind => decide (kind = .symbol sign) :=
  fun _ => rfl

theorem atSign_yes {sign : Symbol} (here : lead kinds = .symbol sign) :
    Reads limit True (atSign sign) depth kinds (· = true) depth kinds :=
  (atSign_looks sign).reads.mono Iff.rfl fun a same => by simpa [here] using same

theorem atSign_no {sign : Symbol} (other : lead kinds ≠ .symbol sign) :
    Reads limit True (atSign sign) depth kinds (· = false) depth kinds :=
  (atSign_looks sign).reads.mono Iff.rfl fun a same => by simpa [other] using same

theorem atWord_yes {word : Keyword} (here : lead kinds = .keyword word) :
    Reads limit True (atWord word) depth kinds (· = true) depth kinds :=
  (atWord_looks word).reads.mono Iff.rfl fun a same => by simpa [here] using same

theorem atWord_no {word : Keyword} (other : lead kinds ≠ .keyword word) :
    Reads limit True (atWord word) depth kinds (· = false) depth kinds :=
  (atWord_looks word).reads.mono Iff.rfl fun a same => by simpa [other] using same

theorem atWordBefore_yes {word : Keyword} {next : Kind → Bool} (before : next (lead rest) = true) :
    Reads limit True (atWordBefore word next) depth (.keyword word :: rest) (· = true) depth
      (.keyword word :: rest) := by
  refine (atWord_yes (lead_cons _ _)).step (peek_reads.step (.pure trivial ?_))
  exact before

theorem atWordBefore_no {word : Keyword} {next : Kind → Bool}
    (other : lead kinds = .keyword word → next (lead (kinds.drop 1)) = false) :
    Reads limit True (atWordBefore word next) depth kinds (· = false) depth kinds := by
  rcases Classical.em (lead kinds = .keyword word) with here | elsewhere
  · exact (atWord_yes here).step (peek_reads.step (.pure trivial (other here)))
  · exact (atWord_no elsewhere).step (.pure trivial rfl)

theorem startsQuery_yes (starts : isQueryStart (lead kinds) = true) :
    Reads limit True startsQuery depth kinds (· = true) depth kinds :=
  startsQuery_looks.reads.mono Iff.rfl fun a same => by simpa [starts] using same

theorem startsQuery_no (other : isQueryStart (lead kinds) = false) :
    Reads limit True startsQuery depth kinds (· = false) depth kinds :=
  startsQuery_looks.reads.mono Iff.rfl fun a same => by simpa [other] using same

theorem continuesQuery_yes (goesOn : isQueryNext (lead kinds) = true) :
    Reads limit True continuesQuery depth kinds (· = true) depth kinds :=
  continuesQuery_looks.reads.mono Iff.rfl fun a same => by simpa [goesOn] using same

theorem continuesQuery_no (other : isQueryNext (lead kinds) = false) :
    Reads limit True continuesQuery depth kinds (· = false) depth kinds :=
  continuesQuery_looks.reads.mono Iff.rfl fun a same => by simpa [other] using same

theorem takeSign_yes (sign : Symbol) :
    Reads limit True (takeSign sign) depth (.symbol sign :: rest) (· = true) depth rest :=
  (atSign_yes (lead_cons _ _)).step (advance_reads.after fun _ _ => .pure trivial rfl)

theorem takeSign_no {sign : Symbol} (other : lead kinds ≠ .symbol sign) :
    Reads limit True (takeSign sign) depth kinds (· = false) depth kinds :=
  (atSign_no other).step (.pure trivial rfl)

theorem takeWord_yes (word : Keyword) :
    Reads limit True (takeWord word) depth (.keyword word :: rest) (· = true) depth rest :=
  (atWord_yes (lead_cons _ _)).step (advance_reads.after fun _ _ => .pure trivial rfl)

theorem takeWord_no {word : Keyword} (other : lead kinds ≠ .keyword word) :
    Reads limit True (takeWord word) depth kinds (· = false) depth kinds :=
  (atWord_no other).step (.pure trivial rfl)

/-- A word that marks something is there or not. -/
theorem takeWord_mark {word : Keyword} (marked : Bool)
    (other : marked = false → lead rest ≠ .keyword word) :
    Reads limit True (takeWord word) depth ((if marked then [.keyword word] else []) ++ rest)
      (· = marked) depth rest := by
  cases marked with
  | true => exact takeWord_yes word
  | false => exact takeWord_no (other rfl)

theorem expectSign_reads (sign : Symbol) :
    Reads limit True (expectSign sign) depth (.symbol sign :: rest) (· = ()) depth rest :=
  (atSign_yes (lead_cons _ _)).step (advance_reads.mono Iff.rfl fun _ _ => rfl)

/-- Another token in the place of a sign is refused. -/
theorem expectSign_refuses {accepts : Prop} (fails : ¬ accepts) {sign : Symbol}
    (other : lead kinds ≠ .symbol sign) {good : Unit → Prop} :
    Reads limit accepts (expectSign sign) depth kinds good depth' rest :=
  (atSign_no other).step (unexpected_reads fails _)

theorem expectWord_refuses {accepts : Prop} (fails : ¬ accepts) {word : Keyword}
    (other : lead kinds ≠ .keyword word) {good : Unit → Prop} :
    Reads limit accepts (expectWord word) depth kinds good depth' rest :=
  (atWord_no other).step (unexpected_reads fails _)

theorem expectWord_reads (word : Keyword) :
    Reads limit True (expectWord word) depth (.keyword word :: rest) (· = ()) depth rest :=
  (atWord_yes (lead_cons _ _)).step (advance_reads.mono Iff.rfl fun _ _ => rfl)

theorem word?_looks : Looks word? Kind.word? := by
  intro s
  change (match s.current.kind with
    | .keyword word => (pure (some word) : Parse (Option Keyword))
    | _ => pure none) s = .ok s.current.kind.word? s
  cases s.current.kind <;> rfl

theorem identifier_reads (name : Name) :
    Reads limit True identifier depth (.identifier name :: rest) (· = name) depth rest :=
  kind_reads.step (advance_reads.after fun _ _ => .pure trivial rfl)

/-! ## Recursion -/

theorem enter_reads (room : depth < capOf limit) :
    Reads limit True enter depth kinds (· = ()) (depth + 1) kinds where
  ok := by
    intro s a s' shows run
    obtain rfl := enter_eq run
    refine ⟨trivial, rfl, shows.tokens, shows.failure, ?_, shows.limit⟩
    exact congrArg (· + 1) shows.depth
  error := by
    intro s failure s' shows run
    rw [enter_run] at run
    have below : s.depth < s.cap := by
      rw [shows.depth, State.cap, shows.limit]
      exact room
    simp only [below, ↓reduceIte] at run
    cases run

theorem leave_reads (levels : Nat) :
    Reads limit True (leave levels) (depth + levels) kinds (· = ()) depth kinds where
  ok := by
    intro s a s' shows run
    cases run
    refine ⟨trivial, rfl, shows.tokens, shows.failure, ?_, shows.limit⟩
    show s.depth - levels = depth
    rw [shows.depth]
    omega
  error := by
    intro s failure s' _ run
    cases run

theorem Reads.nested {accepts : Prop} {p : Parse α} {good : α → Prop}
    (room : depth < capOf limit)
    (inner : Reads limit accepts p (depth + 1) kinds good (depth + 1) rest) :
    Reads limit accepts (nested p) depth kinds good depth rest :=
  (enter_reads room).step <| inner.bind id fun holds _ isGood =>
    (leave_reads 1).step (.pure holds isGood)

/-! ## Loops -/

/-- The tokens ahead are as many as the row is long. -/
theorem remaining_reads :
    Reads limit True remaining depth kinds (· = kinds.length) depth kinds where
  ok s a s' shows run := by
    cases run
    exact ⟨trivial, shows.ahead_length, shows⟩
  error s failure s' _ run := by cases run

/-- A round gives what its step gives, and has taken a token if that goes on. -/
theorem round_ok {step : σ → Parse (Option σ)} {value : σ} {next : Option σ} {s s' : State}
    (run : round step value s = .ok next s') :
    step value s = .ok next s' ∧ (next ≠ none → s'.ahead.length < s.ahead.length) := by
  obtain ⟨found, middle, ran, run⟩ :=
    ok_of_bind (p := step value) (f := moved s.ahead.length) run
  cases found with
  | none =>
    cases run
    exact ⟨ran, fun more => absurd rfl more⟩
  | some found =>
    simp only [moved, remaining, bind, EStateM.bind, get, getThe, MonadStateOf.get, EStateM.get,
      pure, EStateM.pure] at run
    split at run
    · next fewer =>
      cases run
      exact ⟨ran, fun _ => fewer⟩
    · cases run

/-- A round reads what its step reads, if the row has become shorter. -/
theorem Reads.round {accepts : Prop} {step : σ → Parse (Option σ)} {value : σ}
    {good : Option σ → Prop} (given : Reads limit accepts (step value) depth kinds good depth' rest)
    (fewer : ∀ next, good next → next = none ∨ rest.length < kinds.length) :
    Reads limit accepts (round step value) depth kinds good depth' rest := by
  refine remaining_reads.step (given.bind id fun holds next isGood => ?_)
  cases next with
  | none => exact .pure holds isGood
  | some more =>
    have fewer : rest.length < kinds.length := (fewer _ isGood).resolve_left (by simp)
    refine remaining_reads.step ?_
    simp only [fewer, ↓reduceIte]
    exact .pure holds isGood

/-- The rounds of a step from a value on, with as many rounds as there may be tokens. -/
structure Loops (limit : Nat) (accepts : Prop) (step : σ → Parse (Option σ)) (value : σ)
    (depth : Nat) (kinds : List Kind) (good : σ → Prop) (depth' : Nat) (rest : List Kind) :
    Prop where
  rounds : ∀ bound, kinds.length < bound →
    Reads limit accepts (iterate (round step) bound value) depth kinds good depth' rest

namespace Loops

variable {accepts needed : Prop} {step : σ → Parse (Option σ)} {value : σ} {good : σ → Prop}

/-- The last round gives nothing. -/
theorem stop (last : Reads limit True (step value) depth kinds (· = none) depth' rest)
    (holds : accepts) (isGood : good value) :
    Loops limit accepts step value depth kinds good depth' rest where
  rounds := by
    intro bound enough
    obtain ⟨bound, rfl⟩ : ∃ fewer, bound = fewer + 1 := ⟨bound - 1, by omega⟩
    exact (last.round fun next isNone => .inl isNone).step (.pure holds isGood)

/-- A round that fails ends the loop. -/
theorem refused (last : Reads limit False (step value) depth kinds (fun _ => False) depth kinds)
    (fails : ¬ accepts) : Loops limit accepts step value depth kinds good depth' rest where
  rounds := by
    intro bound enough
    obtain ⟨bound, rfl⟩ : ∃ fewer, bound = fewer + 1 := ⟨bound - 1, by omega⟩
    exact (last.round fun _ => False.elim).refused fails

/-- A round that gives something takes a token at least. -/
theorem next {found : σ → Prop}
    (round : Reads limit needed (step value) depth kinds
      (fun next => ∃ v, next = some v ∧ found v) middle mid)
    (needs : accepts → needed) (shorter : mid.length < kinds.length)
    (others : needed → ∀ v, found v → Loops limit accepts step v middle mid good depth' rest) :
    Loops limit accepts step value depth kinds good depth' rest where
  rounds := by
    intro bound enough
    obtain ⟨bound, rfl⟩ : ∃ fewer, bound = fewer + 1 := ⟨bound - 1, by omega⟩
    refine (round.round fun _ _ => .inr shorter).bind needs fun holds next isFound => ?_
    obtain ⟨v, rfl, found⟩ := isFound
    exact (others holds v found).rounds bound (by omega)

theorem loop (rounds : Loops limit accepts step value depth kinds good depth' rest) :
    Reads limit accepts (loop step value) depth kinds good depth' rest where
  ok := by
    intro s a s' shows run
    have enough : kinds.length < s.ahead.length + 2 := by
      rw [shows.ahead_length]
      omega
    exact (rounds.rounds _ enough).ok s a s' shows run
  error := by
    intro s failure s' shows run
    have enough : kinds.length < s.ahead.length + 2 := by
      rw [shows.ahead_length]
      omega
    exact (rounds.rounds _ enough).error s failure s' shows run

end Loops

/-! ## Lists and names -/

/-- The tokens of rows with commas between them, after a first row. -/
def commaRows (rows : List (List Kind)) : List Kind :=
  rows.flatMap fun row => .symbol .comma :: row

/-- An item is read up to the comma after it or up to the end of the list. -/
structure ReadsItem (limit : Nat) (accepts : α → Prop) (item : Parse α) (depth : Nat)
    (row : α → List Kind) (key : α → γ) (rest : List Kind) (it : α) : Prop where
  item : ∀ more, lead more = .symbol .comma ∨ more = rest →
    Reads limit (accepts it) item depth (row it ++ more) (fun a => key a = key it) depth more

/-- What follows an item is a comma, or it is the end of the list. -/
theorem lead_commaRows (rows : List (List Kind)) (rest : List Kind) :
    lead (commaRows rows ++ rest) = .symbol .comma ∨ commaRows rows ++ rest = rest := by
  cases rows with
  | nil => exact .inr rfl
  | cons row rows => exact .inl rfl

/-- A test that comes out alike on a comma and on the end of the list comes out so behind each
item. -/
theorem test_after_item {test : Kind → Bool} {result : Bool} {more : List Kind}
    (after : lead more = .symbol .comma ∨ more = rest) (comma : test (.symbol .comma) = result)
    (last : test (lead rest) = result) : test (lead more) = result := by
  rcases after with isComma | rfl
  · rwa [isComma]
  · exact last

section

variable {ι : Type} {all : Prop} {needs : ι → Prop} {item : Parse α} {text : ι → List Kind}
  {good : ι → α → Prop} {items : List ι}

/-- The items after the first one. The induction is on the items still to be read; those
read before are in `done`. -/
theorem itemsAfterComma_loops (stops : lead rest ≠ .symbol .comma) (done : List α)
    (reads : ∀ it ∈ items, ∀ more, lead more = .symbol .comma ∨ more = rest →
      Reads limit (needs it) item depth (text it ++ more) (good it) depth more)
    (need : all → ∀ it ∈ items, needs it) (enough : (∀ it ∈ items, needs it) → all) :
    Loops limit all (itemAfterComma item) done depth (commaRows (items.map text) ++ rest)
      (fun them => ∃ found, them = done ++ found ∧ List.Forall₂ good items found) depth rest := by
  induction items generalizing done with
  | nil =>
    exact .stop ((takeSign_no stops).step (.pure trivial rfl)) (enough (by simp))
      ⟨[], (List.append_nil done).symm, .nil⟩
  | cons it items ih =>
    have cut : commaRows ((it :: items).map text) ++ rest =
        .symbol .comma :: (text it ++ (commaRows (items.map text) ++ rest)) := by
      simp [commaRows]
    rw [cut]
    have first := reads it List.mem_cons_self (commaRows (items.map text) ++ rest)
      (lead_commaRows _ rest)
    have round : Reads limit (needs it) (itemAfterComma item done) depth
        (.symbol .comma :: (text it ++ (commaRows (items.map text) ++ rest)))
        (fun next => ∃ them, next = some them ∧ ∃ a, them = done ++ [a] ∧ good it a) depth
        (commaRows (items.map text) ++ rest) := by
      refine (takeSign_yes .comma).step (first.bind id fun holds a isGood => .pure holds ?_)
      exact ⟨_, rfl, a, rfl, isGood⟩
    refine .next round (fun holds => need holds it List.mem_cons_self) ?_ ?_
    · simp only [List.length_cons, List.length_append]
      omega
    · rintro holds _ ⟨a, rfl, isGood⟩
      have others := ih (done ++ [a]) (fun other member => reads other (List.mem_cons_of_mem _ member))
        (fun holds other member => need holds other (List.mem_cons_of_mem _ member))
        (fun hold => enough (List.forall_mem_cons.mpr ⟨holds, hold⟩))
      refine ⟨fun bound many => (others.rounds bound many).mono Iff.rfl ?_⟩
      rintro _ ⟨found, rfl, agree⟩
      exact ⟨a :: found, by simp, .cons isGood agree⟩

/-- One or more items between commas, whatever is known of each. -/
theorem items_reads {it : ι} (stops : lead rest ≠ .symbol .comma)
    (reads : ∀ other ∈ it :: items, ∀ more, lead more = .symbol .comma ∨ more = rest →
      Reads limit (needs other) item depth (text other ++ more) (good other) depth more) :
    Reads limit (∀ other ∈ it :: items, needs other) (commaSeparated item) depth
      (text it ++ (commaRows (items.map text) ++ rest)) (List.Forall₂ good (it :: items)) depth
      rest := by
  have first := reads it List.mem_cons_self (commaRows (items.map text) ++ rest)
    (lead_commaRows _ rest)
  refine first.bind (fun hold => hold it List.mem_cons_self) fun holds a isGood => ?_
  have others := itemsAfterComma_loops stops [a]
    (fun other member => reads other (List.mem_cons_of_mem _ member))
    (fun hold other member => hold other (List.mem_cons_of_mem _ member))
    (fun hold => List.forall_mem_cons.mpr ⟨holds, hold⟩)
  refine others.loop.mono Iff.rfl ?_
  rintro _ ⟨found, rfl, agree⟩
  exact .cons isGood agree

end

/-- One or more items between commas. -/
theorem commaSeparated_reads {accepts : α → Prop} {item : Parse α} {row : α → List Kind}
    {key : α → γ} {items : List α} {it : α} (stops : lead rest ≠ .symbol .comma)
    (reads : ∀ other ∈ it :: items, ReadsItem limit accepts item depth row key rest other) :
    Reads limit (∀ other ∈ it :: items, accepts other) (commaSeparated item) depth
      (row it ++ (commaRows (items.map row) ++ rest))
      (fun them => them.map key = (it :: items).map key) depth rest := by
  refine (items_reads stops fun other member => (reads other member).item).mono Iff.rfl ?_
  intro them agree
  have same : List.Forall₂ Eq ((it :: items).map key) (them.map key) := by
    rw [List.forall₂_map_left_iff, List.forall₂_map_right_iff]
    exact agree.imp fun _ _ same => same.symm
  exact (List.forall₂_eq_eq_eq ▸ same).symm

/-- One item alone. -/
theorem Reads.single {accepts : Prop} {item : Parse α} {good : α → Prop}
    (first : Reads limit accepts item depth kinds good depth rest)
    (stops : lead rest ≠ .symbol .comma) :
    Reads limit accepts (commaSeparated item) depth kinds (fun them => ∃ a, them = [a] ∧ good a)
      depth rest := by
  refine first.bind id fun holds a isGood => ?_
  have rounds : Loops limit accepts (itemAfterComma item) [a] depth rest
      (fun them => ∃ a, them = [a] ∧ good a) depth rest :=
    .stop ((takeSign_no stops).step (.pure trivial rfl)) holds ⟨a, rfl, isGood⟩
  exact rounds.loop

/-- What stands between parentheses. -/
theorem Reads.parenthesized {accepts : Prop} {p : Parse α} {good : α → Prop} {more : List Kind}
    (inner : Reads limit accepts p depth kinds good depth (.symbol .rightParen :: more)) :
    Reads limit accepts (parenthesized p) depth (.symbol .leftParen :: kinds) good depth more :=
  (expectSign_reads _).step <| inner.bind id fun holds _ isGood =>
    (expectSign_reads _).step (.pure holds isGood)

end Parse

end CanonicalSql
