import CanonicalSql.Proofs.Extent
import CanonicalSql.Proofs.Reading.Basic

/-!
# The course of a reading

A rule reads a row of tokens from the left to the right. `Runs tokens i p good` says how the step
`p` fares from the `i`-th token on: it never runs out of its bound on recursion, it never takes the
end of input or a semicolon, and if it gives something it stands at a token not before the `i`-th,
and what it gives is good there. The tokens themselves never change, so that what is known of a
token by its number stays known. The end of a text may take a semicolon, and of a step that does
`Proceeds` says all but that.

Steps that follow each other are put together by `Runs.bind`. A loop must take a token in each
round that gives something (`Runs.loop`), and this is all that its bound asks for.
-/
namespace CanonicalSql

/-- What the lexer promises of its tokens: the end of input is the last one if there is one, all
others take up some text, and they stand one behind another. -/
structure Flows (tokens : List Token) (failure : Option LexError) : Prop where
  ends : failure = none → ∃ last, tokens.getLast? = some last ∧ last.kind = .endOfInput
  last : ∀ i token, tokens[i]? = some token → token.kind = .endOfInput → i + 1 = tokens.length
  proper : ∀ token ∈ tokens, token.kind ≠ .endOfInput →
    token.span.start.offset < token.span.stop.offset
  ordered : tokens.Pairwise fun token later => token.span.stop.offset ≤ later.span.start.offset

/-- Whether a token belongs to no statement. -/
@[simp] def Kind.endsStatement : Kind → Bool
  | .endOfInput | .symbol .semicolon => true
  | _ => false

/-- What a rule recognises, and recognises in neither end of a statement, stands within one. -/
theorem Kind.inner_of_some {α : Type} {kind : Kind} {value : α} (read : Kind → Option α)
    (isSome : read kind = some value) (noEnd : read .endOfInput = none)
    (noSign : read (.symbol .semicolon) = none) : kind.endsStatement = false := by
  unfold Kind.endsStatement
  split
  · exact absurd (noEnd.symm.trans isSome) (by simp)
  · exact absurd (noSign.symm.trans isSome) (by simp)
  · rfl

theorem Kind.inner_of_word? {kind : Kind} {word : Keyword} (isWord : kind.word? = some word) :
    kind.endsStatement = false :=
  Kind.inner_of_some Kind.word? isWord rfl rfl

/-- The kind of the `i`-th token. -/
def kindAt (tokens : List Token) (i : Nat) : Kind :=
  (tokens[i]?.map Token.kind).getD .endOfInput

/-- The state stands at the `i`-th token. -/
structure State.At (tokens : List Token) (i : Nat) (s : State) : Prop where
  flows : Flows tokens s.failure
  rest : s.current :: s.ahead = tokens.drop i
  taken : s.taken = i
  previous : ∀ last, tokens[i - 1]? = some last → 0 < i → s.previous = last.span

namespace State.At

variable {tokens : List Token} {i : Nat} {s : State}

theorem length (stands : s.At tokens i) : s.ahead.length + i + 1 = tokens.length := by
  have lengths := congrArg List.length stands.rest
  simp only [List.length_cons, List.length_drop] at lengths
  omega

theorem current (stands : s.At tokens i) : tokens[i]? = some s.current := by
  have first := congrArg List.head? stands.rest
  rw [List.head?_drop] at first
  exact first.symm

theorem kind (stands : s.At tokens i) : s.current.kind = kindAt tokens i := by
  rw [kindAt, stands.current]
  rfl

theorem covers (stands : s.At tokens i) : Covers tokens i (i + 1) s.current.span :=
  ⟨s.current, s.current, Nat.lt_succ_self i, stands.current, stands.current, rfl⟩

/-- The state does not move by a change of what is no token. -/
theorem congr (stands : s.At tokens i) {s' : State} (current : s'.current = s.current)
    (ahead : s'.ahead = s.ahead) (previous : s'.previous = s.previous)
    (failure : s'.failure = s.failure) (taken : s'.taken = s.taken) : s'.At tokens i where
  flows := failure ▸ stands.flows
  rest := by rw [current, ahead, stands.rest]
  taken := taken.trans stands.taken
  previous last isLast some := previous.trans (stands.previous last isLast some)

end State.At

/-- A token that has been taken ends no text. -/
theorem Flows.kind_ne {tokens : List Token} {failure : Option LexError} {i : Nat} {token : Token}
    (flows : Flows tokens failure) (isToken : tokens[i]? = some token)
    (more : i + 1 < tokens.length) : token.kind ≠ .endOfInput := by
  intro ends
  have := flows.last i token isToken ends
  omega

/-- Of two tokens the later one begins and ends behind the other. -/
theorem Flows.later {tokens : List Token} {failure : Option LexError} {i j : Nat}
    {first second : Token} (flows : Flows tokens failure) (isFirst : tokens[i]? = some first)
    (isSecond : tokens[j]? = some second) (before : i < j) :
    first.span.stop.offset ≤ second.span.start.offset := by
  obtain ⟨inFirst, rfl⟩ := List.getElem?_eq_some_iff.mp isFirst
  obtain ⟨inSecond, rfl⟩ := List.getElem?_eq_some_iff.mp isSecond
  exact List.pairwise_iff_getElem.mp flows.ordered i j inFirst inSecond before

/-- A stretch that is merged with a later token runs up to the end of it. -/
theorem Covers.merge {tokens : List Token} {failure : Option LexError} {a b i : Nat} {start : Span}
    {last : Token} (covers : Covers tokens a b start) (flows : Flows tokens failure)
    (isLast : tokens[i - 1]? = some last) (past : b ≤ i) (more : i < tokens.length) :
    Covers tokens a i (start.merge last.span) := by
  obtain ⟨first, mid, proper, isFirst, isMid, rfl⟩ := covers
  refine ⟨first, last, by omega, isFirst, isLast, ?_⟩
  have some {k : Nat} {token : Token} (isToken : tokens[k]? = some token) (taken : k < i) :
      token.span.start.offset < token.span.stop.offset :=
    flows.proper token (List.mem_of_getElem? isToken) (flows.kind_ne isToken (by omega))
  have someLast := some isLast (by omega)
  -- the stretch may consist of the last token alone, and its own end may be that token
  rcases Nat.lt_or_ge a (i - 1) with before | same
  · have someFirst := some isFirst (by omega)
    have starts := flows.later isFirst isLast before
    simp only [Span.merge]
    rw [if_pos (by omega)]
    rcases Nat.lt_or_ge (b - 1) (i - 1) with earlier | equal
    · have someMid := some isMid (by omega)
      have stops := flows.later isMid isLast earlier
      rw [if_neg (by omega)]
    · obtain rfl : mid = last := by
        have : b - 1 = i - 1 := by omega
        rw [this, isLast] at isMid
        exact (Option.some.inj isMid).symm
      rw [if_neg (Nat.lt_irrefl _)]
  · obtain rfl : first = last := by
      have : a = i - 1 := by omega
      rw [this, isLast] at isFirst
      exact (Option.some.inj isFirst).symm
    obtain rfl : mid = first := by
      have : b - 1 = i - 1 := by omega
      rw [this, isLast] at isMid
      exact (Option.some.inj isMid).symm
    simp [Span.merge]

namespace Parse

variable {α β σ : Type} {tokens : List Token} {i j a b : Nat}

/-- The step never runs out of its bound and never takes the end of input, and what it gives is
good where it stands then, which is not before the `i`-th token. -/
structure Proceeds (tokens : List Token) (i : Nat) (p : Parse α) (good : Nat → α → Prop) : Prop where
  ok : ∀ s value s', s.At tokens i → p s = .ok value s' →
    ∃ j, i ≤ j ∧ s'.At tokens j ∧ good j value
  error : ∀ s failure s', s.At tokens i → p s = .error failure s' →
    failure ≠ .exhausted ∧ s'.taken < tokens.length

/-- The step proceeds within a statement, and takes no token that belongs to none. -/
structure Runs (tokens : List Token) (i : Nat) (p : Parse α) (good : Nat → α → Prop) : Prop
    extends Proceeds tokens i p good where
  inside : ∀ s value s', s.At tokens i → p s = .ok value s' →
    ∀ k, i ≤ k → k < s'.taken → (kindAt tokens k).endsStatement = false

/-- The step never runs out of its bound and never takes the end of input or a semicolon. -/
abbrev Passes (tokens : List Token) (i : Nat) (p : Parse α) : Prop :=
  Runs tokens i p fun _ _ => True

namespace Proceeds

variable {p : Parse α} {f : α → Parse β} {good : Nat → α → Prop} {better : Nat → β → Prop}

theorem bind (first : Proceeds tokens i p good)
    (next : ∀ value j, i ≤ j → good j value → Proceeds tokens j (f value) better) :
    Proceeds tokens i (p >>= f) better where
  ok := by
    intro s found s' stands run
    obtain ⟨value, s₁, ran, run⟩ := ok_of_bind run
    obtain ⟨j, past, stands₁, holds⟩ := first.ok s value s₁ stands ran
    obtain ⟨k, further, stands', isGood⟩ :=
      (next value j past holds).ok s₁ found s' stands₁ run
    exact ⟨k, Nat.le_trans past further, stands', isGood⟩
  error := by
    intro s failure s' stands run
    rcases error_of_bind run with ran | ⟨value, s₁, ran, run⟩
    · exact first.error s failure s' stands ran
    · obtain ⟨j, past, stands₁, holds⟩ := first.ok s value s₁ stands ran
      exact (next value j past holds).error s₁ failure s' stands₁ run

theorem mono {other : Nat → α → Prop} (given : Proceeds tokens i p good)
    (weaker : ∀ value j, i ≤ j → good j value → other j value) : Proceeds tokens i p other where
  ok := by
    intro s value s' stands run
    obtain ⟨j, past, stands', holds⟩ := given.ok s value s' stands run
    exact ⟨j, past, stands', weaker value j past holds⟩
  error := given.error

/-- A step that takes nothing takes no semicolon. -/
theorem still (proceeds : Proceeds tokens i p good) (still : ∀ value j, good j value → j = i) :
    Runs tokens i p good where
  toProceeds := proceeds
  inside := by
    intro s value s' stands run k past before
    obtain ⟨j, -, stands', holds⟩ := proceeds.ok s value s' stands run
    rw [stands'.taken, still value j holds] at before
    omega

end Proceeds

namespace Runs

variable {p : Parse α} {f : α → Parse β} {good : Nat → α → Prop} {better : Nat → β → Prop}

theorem bind (first : Runs tokens i p good)
    (next : ∀ value j, i ≤ j → good j value → Runs tokens j (f value) better) :
    Runs tokens i (p >>= f) better where
  toProceeds := first.toProceeds.bind fun value j past holds => (next value j past holds).toProceeds
  inside := by
    intro s found s' stands run k past before
    obtain ⟨value, s₁, ran, run⟩ := ok_of_bind run
    obtain ⟨j, past', stands₁, holds⟩ := first.ok s value s₁ stands ran
    -- the token is one of those that the first step takes, or of those behind them
    rcases Nat.lt_or_ge k j with early | late
    · exact first.inside s value s₁ stands ran k past (stands₁.taken ▸ early)
    · exact (next value j past' holds).inside s₁ found s' stands₁ run k late before

theorem mono {other : Nat → α → Prop} (given : Runs tokens i p good)
    (weaker : ∀ value j, i ≤ j → good j value → other j value) : Runs tokens i p other where
  toProceeds := given.toProceeds.mono weaker
  inside := given.inside

theorem pure {value : α} (holds : good i value) : Runs tokens i (pure value) good := by
  have stays : Proceeds tokens i (Pure.pure value) fun j found => j = i ∧ found = value := by
    refine ⟨fun s found s' stands run => ?_, fun s failure s' _ run => ?_⟩
    · cases run
      exact ⟨i, Nat.le_refl i, stands, rfl, rfl⟩
    · cases run
  refine (stays.still fun _ _ same => same.1).mono ?_
  rintro _ _ _ ⟨rfl, rfl⟩
  exact holds

/-- None of the tokens that were taken is a semicolon. -/
theorem unclosed (given : Runs tokens i p good) : Runs tokens i p fun j value =>
    good j value ∧ ∀ k, i ≤ k → k < j → (kindAt tokens k).endsStatement = false where
  ok := by
    intro s value s' stands run
    obtain ⟨j, past, stands', holds⟩ := given.ok s value s' stands run
    have inside := given.inside s value s' stands run
    rw [stands'.taken] at inside
    exact ⟨j, past, stands', holds, inside⟩
  error := given.error
  inside := given.inside

theorem ite {condition : Prop} [Decidable condition] {p q : Parse α}
    (yes : condition → Runs tokens i p good) (no : ¬ condition → Runs tokens i q good) :
    Runs tokens i (if condition then p else q) good := by
  split
  · next holds => exact yes holds
  · next fails => exact no fails

/-- A first step of whose result nothing needs to be known. -/
theorem andThen (first : Passes tokens i p)
    (next : ∀ value j, i ≤ j → Runs tokens j (f value) better) :
    Runs tokens i (p >>= f) better :=
  first.bind fun value j past _ => next value j past

/-- Nothing stands behind all tokens. -/
theorem beyond (past : tokens.length ≤ i) : Runs tokens i p good where
  ok := by
    intro s value s' stands
    have := stands.length
    omega
  error := by
    intro s failure s' stands
    have := stands.length
    omega
  inside := by
    intro s value s' stands
    have := stands.length
    omega

/-- What the lexer promises may be used for any step. -/
theorem flowing (given : ∀ failure, Flows tokens failure → Runs tokens i p good) :
    Runs tokens i p good where
  ok s value s' stands := (given _ stands.flows).ok s value s' stands
  error s failure s' stands := (given _ stands.flows).error s failure s' stands
  inside s value s' stands := (given _ stands.flows).inside s value s' stands

theorem looks {found : Kind → α} (looks : Looks p found) :
    Runs tokens i p fun j value => j = i ∧ value = found (kindAt tokens i) := by
  refine Proceeds.still ⟨fun s value s' stands run => ?_, fun s failure s' _ run => ?_⟩
    fun _ _ same => same.1
  · rw [looks s] at run
    cases run
    exact ⟨i, Nat.le_refl i, stands, rfl, by rw [stands.kind]⟩
  · rw [looks s] at run
    cases run

/-- A step that only looks at the current token. -/
theorem look {found : Kind → α} (looks : Looks p found)
    (next : Runs tokens i (f (found (kindAt tokens i))) better) :
    Runs tokens i (p >>= f) better := by
  refine (Runs.looks looks).bind fun value j _ same => ?_
  rw [same.1, same.2]
  exact next

end Runs

/-! ## Looking and taking -/

section

variable {f : α → Parse β} {good : Nat → α → Prop} {better : Nat → β → Prop}

theorem throw_runs {failure : Failure} (known : failure ≠ .exhausted) :
    Runs tokens i (throw failure : Parse α) good where
  ok := by
    intro s value s' _ run
    cases run
  error := by
    intro s found s' stands run
    cases run
    have := stands.length
    have := stands.taken
    exact ⟨known, by omega⟩
  inside := by
    intro s value s' _ run
    cases run

theorem Runs.here {f : Span → Parse β}
    (next : ∀ start, Covers tokens i (i + 1) start → Runs tokens i (f start) better) :
    Runs tokens i (Parse.here >>= f) better := by
  have first : Runs tokens i Parse.here
      fun j start => j = i ∧ Covers tokens i (i + 1) start := by
    refine Proceeds.still ⟨fun s value s' stands run => ?_, fun s failure s' _ run => ?_⟩
      fun _ _ same => same.1
    · cases run
      exact ⟨i, Nat.le_refl i, stands, rfl, stands.covers⟩
    · cases run
  refine first.bind fun start j _ same => ?_
  rw [same.1]
  exact next start same.2

theorem Runs.spanFrom {f : Span → Parse β} {start : Span} (begins : Covers tokens a b start)
    (past : b ≤ i) (next : ∀ span, Covers tokens a i span → Runs tokens i (f span) better) :
    Runs tokens i (spanFrom start >>= f) better := by
  have first : Runs tokens i (Parse.spanFrom start)
      fun j span => j = i ∧ Covers tokens a i span := by
    refine Proceeds.still ⟨fun s value s' stands run => ?_, fun s failure s' _ run => ?_⟩
      fun _ _ same => same.1
    · cases run
      refine ⟨i, Nat.le_refl i, stands, rfl, ?_⟩
      have more := stands.length
      obtain ⟨-, -, proper, -⟩ := id begins
      obtain ⟨last, isLast⟩ : ∃ last, tokens[i - 1]? = some last :=
        ⟨_, List.getElem?_eq_getElem (by omega)⟩
      rw [stands.previous last isLast (by omega)]
      exact begins.merge stands.flows isLast past (by omega)
    · cases run
  refine first.bind fun span j _ same => ?_
  rw [same.1]
  exact next span same.2

theorem fail_runs (cause : ParseCause) : Runs tokens i (fail cause) good :=
  .here fun _ _ => throw_runs (by simp)

theorem unexpected_runs (expected : String) : Runs tokens i (unexpected expected) good :=
  .look kind_looks (fail_runs _)

/-- What is not the end of input is taken, and the next token stands behind it. -/
theorem advance_proceeds (more : kindAt tokens i ≠ .endOfInput) :
    Proceeds tokens i advance fun j _ => j = i + 1 where
  ok := by
    intro s value s' stands run
    have current := stands.rest
    unfold advance at run
    split at run
    · next token others isAhead =>
      cases run
      have rest : s.ahead = tokens.drop (i + 1) := by
        rw [← List.drop_drop, ← current]
        rfl
      refine ⟨i + 1, Nat.le_succ i, ⟨stands.flows, ?_, ?_, ?_⟩, rfl⟩
      · rw [← rest, isAhead]
      · exact congrArg (· + 1) stands.taken
      · intro last isLast _
        rw [Nat.add_sub_cancel, stands.current] at isLast
        exact congrArg Token.span (Option.some.inj isLast)
    · cases run
    · next noneAhead noFailure =>
      obtain ⟨last, isLast, ends⟩ := stands.flows.ends noFailure
      have isCurrent : s.current = last := by
        have short := stands.length
        rw [noneAhead, List.length_nil] at short
        rw [List.getLast?_eq_getElem?, show tokens.length - 1 = i by omega, stands.current] at isLast
        exact Option.some.inj isLast
      rw [← stands.kind, isCurrent] at more
      exact absurd ends more
  error := by
    intro s failure s' stands run
    unfold advance at run
    split at run
    · cases run
    · cases run
      have := stands.length
      have := stands.taken
      exact ⟨by simp, by simp only; omega⟩
    · cases run

theorem advance_runs (inner : (kindAt tokens i).endsStatement = false) :
    Runs tokens i advance fun j _ => j = i + 1 := by
  have proceeds : Proceeds tokens i advance fun j _ => j = i + 1 :=
    advance_proceeds fun ends => by simp [ends] at inner
  refine ⟨proceeds, fun s value s' stands run k past before => ?_⟩
  obtain ⟨j, -, stands', isNext⟩ := proceeds.ok s value s' stands run
  rw [stands'.taken] at before
  obtain rfl : k = i := by omega
  exact inner

theorem Runs.advance {f : Unit → Parse β} (inner : (kindAt tokens i).endsStatement = false)
    (next : Runs tokens (i + 1) (f ()) better) : Runs tokens i (advance >>= f) better :=
  (advance_runs inner).bind fun _ j _ same => by
    rw [same]
    exact next

/-- A keyword is taken. -/
theorem Runs.advanceWord {f : Unit → Parse β} {word : Keyword}
    (isWord : (kindAt tokens i).word? = some word)
    (next : Runs tokens (i + 1) (f ()) better) : Runs tokens i (Parse.advance >>= f) better :=
  .advance (Kind.inner_of_word? isWord) next

theorem peek_runs : Runs tokens i peek fun j kind => j = i ∧ kind = kindAt tokens (i + 1) := by
  refine Proceeds.still ⟨fun s value s' stands run => ?_, fun s failure s' stands run => ?_⟩
    fun _ _ same => same.1
  · have rest : s.ahead = tokens.drop (i + 1) := by
      rw [← List.drop_drop, ← stands.rest]
      rfl
    have next : kindAt tokens (i + 1) = (s.ahead.head?.map Token.kind).getD .endOfInput := by
      rw [kindAt, rest, List.head?_drop]
    unfold peek at run
    split at run
    · next isAhead =>
      simp only [EStateM.Result.ok.injEq] at run
      rw [← run.2, ← run.1, next, isAhead]
      exact ⟨i, Nat.le_refl i, stands.congr rfl isAhead.symm rfl rfl rfl, rfl, rfl⟩
    · cases run
    · next isAhead _ =>
      cases run
      rw [next, isAhead]
      exact ⟨i, Nat.le_refl i, stands, rfl, rfl⟩
  · unfold peek at run
    split at run
    · cases run
    · cases run
      have := stands.length
      have := stands.taken
      exact ⟨by simp, by simp only; omega⟩
    · cases run

theorem Runs.peek {f : Kind → Parse β}
    (next : Runs tokens i (f (kindAt tokens (i + 1))) better) : Runs tokens i (peek >>= f) better :=
  peek_runs.bind fun kind j _ same => by
    rw [same.1, same.2]
    exact next

/-- Takes the sign, or stays. -/
theorem takeSign_proceeds (sign : Symbol) : Proceeds tokens i (takeSign sign) fun j taken =>
    taken = true ∧ kindAt tokens i = .symbol sign ∧ j = i + 1 ∨ taken = false ∧ j = i := by
  refine (Runs.looks (atSign_looks sign)).toProceeds.bind fun here j _ same => ?_
  obtain ⟨rfl, rfl⟩ := same
  split
  · next here =>
    have isSign := of_decide_eq_true here
    refine (advance_proceeds (by simp [isSign])).bind fun _ m _ next => ?_
    exact (Runs.pure (.inl ⟨rfl, isSign, next⟩)).toProceeds
  · exact (Runs.pure (.inr ⟨rfl, rfl⟩)).toProceeds

theorem takeSign_runs {sign : Symbol} (inner : (Kind.symbol sign).endsStatement = false) :
    Runs tokens i (takeSign sign) fun j taken =>
      taken = true ∧ kindAt tokens i = .symbol sign ∧ j = i + 1 ∨ taken = false ∧ j = i := by
  refine ⟨takeSign_proceeds sign, fun s taken s' stands run k past before => ?_⟩
  obtain ⟨j, -, stands', either⟩ := (takeSign_proceeds sign).ok s taken s' stands run
  rw [stands'.taken] at before
  rcases either with ⟨-, isSign, rfl⟩ | ⟨-, rfl⟩
  · obtain rfl : k = i := by omega
    rw [isSign, inner]
  · omega

/-- Takes the keyword, or stays. -/
theorem takeWord_runs (word : Keyword) : Runs tokens i (takeWord word) fun j taken =>
    taken = true ∧ kindAt tokens i = .keyword word ∧ j = i + 1 ∨ taken = false ∧ j = i := by
  refine .look (atWord_looks word) (.ite (fun here => ?_) fun _ => .pure (.inr ⟨rfl, rfl⟩))
  have isWord := of_decide_eq_true here
  exact .advance (by rw [isWord]; rfl) (.pure (.inl ⟨rfl, isWord, rfl⟩))

theorem Runs.takeSign {f : Bool → Parse β} {sign : Symbol}
    (inner : (Kind.symbol sign).endsStatement = false)
    (yes : kindAt tokens i = .symbol sign → Runs tokens (i + 1) (f true) better)
    (no : Runs tokens i (f false) better) : Runs tokens i (takeSign sign >>= f) better := by
  refine (takeSign_runs inner).bind fun taken j _ either => ?_
  rcases either with ⟨rfl, here, rfl⟩ | ⟨rfl, rfl⟩
  · exact yes here
  · exact no

theorem Runs.takeWord {f : Bool → Parse β} {word : Keyword}
    (yes : Runs tokens (i + 1) (f true) better) (no : Runs tokens i (f false) better) :
    Runs tokens i (takeWord word >>= f) better := by
  refine (takeWord_runs word).bind fun taken j _ either => ?_
  rcases either with ⟨rfl, -, rfl⟩ | ⟨rfl, rfl⟩
  · exact yes
  · exact no

theorem expectSign_proceeds (sign : Symbol) :
    Proceeds tokens i (expectSign sign) fun j _ => j = i + 1 ∧ kindAt tokens i = .symbol sign := by
  refine (Runs.looks (atSign_looks sign)).toProceeds.bind fun here j _ same => ?_
  obtain ⟨rfl, rfl⟩ := same
  split
  · next here =>
    have isSign := of_decide_eq_true here
    exact (advance_proceeds (by simp [isSign])).mono fun _ _ _ same => ⟨same, isSign⟩
  · exact (unexpected_runs _).toProceeds

theorem expectSign_runs {sign : Symbol} (inner : (Kind.symbol sign).endsStatement = false) :
    Runs tokens i (expectSign sign) fun j _ => j = i + 1 ∧ kindAt tokens i = .symbol sign := by
  refine .look (atSign_looks sign) (.ite (fun here => ?_) fun _ => unexpected_runs _)
  have isSign := of_decide_eq_true here
  exact (advance_runs (by rw [isSign, inner])).mono fun _ _ _ same => ⟨same, isSign⟩

theorem Runs.expectSign {f : Unit → Parse β} {sign : Symbol}
    (inner : (Kind.symbol sign).endsStatement = false)
    (next : Runs tokens (i + 1) (f ()) better) : Runs tokens i (expectSign sign >>= f) better :=
  (expectSign_runs inner).bind fun _ j _ same => by
    rw [same.1]
    exact next

theorem expectWord_runs (word : Keyword) :
    Runs tokens i (expectWord word) fun j _ => j = i + 1 := by
  refine .look (atWord_looks word) (.ite (fun here => ?_) fun _ => unexpected_runs _)
  exact advance_runs (by rw [of_decide_eq_true here]; rfl)

theorem Runs.expectWord {f : Unit → Parse β} {word : Keyword}
    (next : Runs tokens (i + 1) (f ()) better) : Runs tokens i (expectWord word >>= f) better :=
  (expectWord_runs word).bind fun _ j _ same => by
    rw [same]
    exact next

/-- Looks for the keyword before another token, and stays. -/
theorem Runs.atWordBefore {f : Bool → Parse β} {word : Keyword} {before : Kind → Bool}
    (yes : kindAt tokens i = .keyword word → before (kindAt tokens (i + 1)) = true →
      Runs tokens i (f true) better)
    (no : Runs tokens i (f false) better) :
    Runs tokens i (atWordBefore word before >>= f) better := by
  have first : Runs tokens i (Parse.atWordBefore word before) fun j found => j = i ∧
      (found = true → kindAt tokens i = .keyword word ∧ before (kindAt tokens (i + 1)) = true) := by
    refine .look (atWord_looks word) (.ite (fun here => ?_) fun _ => .pure ⟨rfl, by simp⟩)
    exact .peek (.pure ⟨rfl, fun found => ⟨of_decide_eq_true here, found⟩⟩)
  refine first.bind fun found j _ holds => ?_
  obtain ⟨rfl, here⟩ := holds
  cases found with
  | true => exact yes (here rfl).1 (here rfl).2
  | false => exact no

theorem identifier_runs : Runs tokens i identifier fun j _ => j = i + 1 := by
  refine .look kind_looks ?_
  split
  · next name stands =>
    exact .advance (Kind.inner_of_some Kind.name? stands rfl rfl) (.pure rfl)
  · exact unexpected_runs _

theorem Runs.identifier {f : Name → Parse β}
    (next : ∀ name, Runs tokens (i + 1) (f name) better) :
    Runs tokens i (identifier >>= f) better :=
  identifier_runs.bind fun name j _ same => by
    rw [same]
    exact next name

/-! ## Recursion -/

theorem Runs.enter {f : Unit → Parse β} (next : Runs tokens i (f ()) better) :
    Runs tokens i (enter >>= f) better := by
  have first : Runs tokens i Parse.enter fun j _ => j = i := by
    refine Proceeds.still ⟨fun s value s' stands run => ?_, fun s failure s' stands run => ?_⟩
      fun _ _ same => same
    · rw [enter_eq run]
      exact ⟨i, Nat.le_refl i, stands.congr rfl rfl rfl rfl rfl, rfl⟩
    · rw [enter_run] at run
      split at run
      · cases run
      · have refused : Passes tokens i (fail (.tooDeep s.limit) : Parse Unit) := fail_runs _
        exact refused.error s failure s' stands run
  exact first.bind fun _ j _ same => by
    rw [same]
    exact next

theorem Runs.leave {f : Unit → Parse β} {levels : Nat} (next : Runs tokens i (f ()) better) :
    Runs tokens i (leave levels >>= f) better := by
  have first : Runs tokens i (Parse.leave levels) fun j _ => j = i := by
    refine Proceeds.still ⟨fun s value s' stands run => ?_, fun s failure s' _ run => ?_⟩
      fun _ _ same => same
    · cases run
      exact ⟨i, Nat.le_refl i, stands.congr rfl rfl rfl rfl rfl, rfl⟩
    · cases run
  exact first.bind fun _ j _ same => by
    rw [same]
    exact next

theorem Runs.nested {p : Parse α} (inner : Runs tokens i p good) :
    Runs tokens i (nested p) good :=
  .enter (inner.bind fun _ _ _ holds => .leave (.pure holds))

/-- What each round of a loop keeps: a round that gives something takes a token at least. -/
def Rounds (tokens : List Token) (i : Nat) (step : σ → Parse (Option σ))
    (good : Nat → σ → Prop) : Prop :=
  ∀ k value, i ≤ k → good k value → Runs tokens k (step value) fun j next =>
    (next = none → good j value) ∧ ∀ more, next = some more → k < j ∧ good j more

/-- The number of tokens that remain is known where a step stands. -/
theorem Runs.remaining {f : Nat → Parse β}
    (next : ∀ count, count + i + 1 = tokens.length → Runs tokens i (f count) better) :
    Runs tokens i (remaining >>= f) better where
  ok s value s' stands run := (next _ stands.length).ok s value s' stands run
  error s failure s' stands run := (next _ stands.length).error s failure s' stands run
  inside s value s' stands run := (next _ stands.length).inside s value s' stands run

/-- A round of a loop that has taken a token is in order. -/
theorem Rounds.round {step : σ → Parse (Option σ)} {good : Nat → σ → Prop}
    (rounds : Rounds tokens i step good) : Rounds tokens i (round step) good := by
  intro k value past start
  refine .remaining fun before _ => (rounds k value past start).bind fun next j further holds => ?_
  cases next with
  | none => exact .pure holds
  | some more =>
    obtain ⟨taken, -⟩ := holds.2 more rfl
    refine .remaining fun after _ => .ite (fun _ => .pure holds) fun stays => ?_
    exact absurd (show after < before by omega) stays

theorem Rounds.iterate {step : σ → Parse (Option σ)} {good : Nat → σ → Prop}
    (rounds : Rounds tokens i step good) (bound : Nat) {k : Nat} (past : i ≤ k)
    (enough : tokens.length < k + bound) {value : σ} (start : good k value) :
    Runs tokens k (iterate step bound value) good := by
  induction bound generalizing k value with
  | zero => exact .beyond (by omega)
  | succ bound ih =>
    refine (rounds k value past start).bind fun next j _ holds => ?_
    cases next with
    | none => exact .pure (holds.1 rfl)
    | some more =>
      obtain ⟨taken, isGood⟩ := holds.2 more rfl
      exact ih (by omega) (by omega) isGood

/-- A loop keeps what its rounds keep, and the tokens ahead are bound enough for them. -/
theorem Rounds.loop {step : σ → Parse (Option σ)} {good : Nat → σ → Prop}
    (rounds : Rounds tokens i step good) {value : σ} (start : good i value) :
    Runs tokens i (loop step value) good :=
  .remaining fun _ left => rounds.round.iterate _ (Nat.le_refl i) (by omega) start

/-! ## Lists and names -/

/-- Items between commas, each of which is given what those before it have come to. -/
theorem Runs.items {item : Parse α} {good : Nat → List α → Prop}
    (first : Runs tokens i item fun j value => good j [value])
    (others : ∀ k items, i < k → good (k - 1) items →
      Runs tokens k item fun j value => good j (items ++ [value])) :
    Runs tokens i (commaSeparated item) good := by
  refine first.bind fun value j past holds => ?_
  have rounds : Rounds tokens j (itemAfterComma item) good := by
    intro k items further soFar
    refine .takeSign rfl (fun _ => ?_) (.pure ⟨fun _ => soFar, by simp⟩)
    refine (others (k + 1) items (by omega) soFar).bind fun more m further isGood => ?_
    exact .pure ⟨by simp, by simpa using ⟨by omega, isGood⟩⟩
  exact rounds.loop holds

/-- Items between commas lie one behind another. -/
theorem Runs.commaSeparated {item : Parse α} {extent : α → Extent}
    (each : ∀ k, i ≤ k → Runs tokens k item fun j value => Laid tokens k j [extent value]) :
    Runs tokens i (commaSeparated item) fun j items =>
      i < j ∧ Laid tokens i j (items.map extent) := by
  refine .items ((each i (Nat.le_refl i)).mono fun _ _ _ laid => ⟨laid.lt, laid⟩) ?_
  rintro k items past ⟨some, laid⟩
  refine (each k (Nat.le_of_lt past)).mono fun value j further laidLast => ⟨by omega, ?_⟩
  rw [List.map_append]
  exact laid.append (laidLast.mono (by omega) (Nat.le_refl j))

theorem parenthesized_runs {inner : Parse α}
    (within : Runs tokens (i + 1) inner fun j value => good (j + 1) value) :
    Runs tokens i (parenthesized inner) good :=
  .expectSign rfl (within.bind fun _ _ _ holds => .expectSign rfl (.pure holds))

theorem qualifiedName_runs : Runs tokens i qualifiedName fun j _ => i < j := by
  refine .identifier fun first => ?_
  have rounds : Rounds tokens (i + 1) partAfterDot fun j _ => i < j := by
    intro k parts past some
    refine .takeSign rfl (fun _ => ?_) (.pure ⟨fun _ => some, by simp⟩)
    exact .identifier fun part => .pure ⟨by simp, fun _ _ => ⟨by omega, by omega⟩⟩
  exact (rounds.loop (Nat.lt_succ_self i)).bind fun _ _ _ some => .pure some

theorem names_runs : Runs tokens i names fun j _ => i < j := by
  refine parenthesized_runs (.items ?_ ?_)
  · exact identifier_runs.mono fun _ j _ same => by omega
  · exact fun k _ past _ => identifier_runs.mono fun _ j _ same => by omega

theorem optionalNames_runs : Passes tokens i optionalNames :=
  .look (atSign_looks _) (.ite (fun _ => names_runs.mono fun _ _ _ _ => trivial)
    fun _ => .pure trivial)

theorem setQuantifier_runs : Passes tokens i setQuantifier :=
  .takeWord (.pure trivial) (.takeWord (.pure trivial) (.pure trivial))

theorem optionalAlias_runs : Runs tokens i optionalAlias fun j name =>
    (name = none → j = i) ∧ (name ≠ none → i < j) := by
  refine .takeWord (.identifier fun _ => .pure ⟨by simp, fun _ => by omega⟩) ?_
  refine .look kind_looks (.ite (fun _ => ?_) fun _ => .pure ⟨fun _ => rfl, by simp⟩)
  exact .identifier fun _ => .pure ⟨by simp, fun _ => by omega⟩

end

end Parse

end CanonicalSql
