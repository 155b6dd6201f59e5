import CanonicalSql.Proofs.Lockstep.Statement

/-!
# What the limit decides

The limit on the depth of trees decides whether a text is read, and nothing else. Reading within
a higher limit gives what reading within the lower one gives, be it a statement or a refusal,
unless the lower one was exceeded. So each text that is read within some limit has a least one:
below it the depth is refused, and from it on the same statement is read.
-/
namespace CanonicalSql

/-- The nesting depth of the tree, or that of the recursion, is refused. -/
def Failure.IsTooDeep (failure : Failure) : Prop :=
  ∃ limit span, failure = .grammatical ⟨.tooDeep limit, span⟩

/-- The move from a limit to a higher one, which keeps all places. -/
def Move.raise {low high : Nat} (rises : low ≤ high) : Move := ⟨true, low, high, rises⟩

namespace State

variable {low high : Nat} (rises : low ≤ high) {stream : TokenStream}

/-- Nothing but the limit differs between the states in which two readings begin. -/
theorem ofStream_raise {start : State} (begins : ofStream low stream = .ok start) :
    start.limit = low ∧ ofStream high stream = .ok ((Move.raise rises).state start) := by
  have token : (Move.raise rises).token = id := rfl
  unfold ofStream at begins ⊢
  cases isTokens : stream.tokens with
  | nil =>
    simp only [isTokens] at begins
    cases isFailure : stream.failure <;> simp [isFailure] at begins
  | cons first ahead =>
    simp only [isTokens] at begins
    obtain rfl := Except.ok.inj begins
    refine ⟨rfl, congrArg Except.ok ?_⟩
    simp only [Move.state, token, List.map_id, id_eq]
    cases stream.failure <;> rfl

/-- A stream that cannot begin cannot begin within any limit. -/
theorem ofStream_error {failure : Failure} (fails : ofStream low stream = .error failure) :
    ofStream high stream = .error failure := by
  unfold ofStream at fails ⊢
  cases isTokens : stream.tokens with
  | nil =>
    simp only [isTokens] at fails
    cases isFailure : stream.failure <;> simpa [isFailure] using fails
  | cons first ahead =>
    simp only [isTokens] at fails
    cases fails

end State

namespace Statement

variable {low high : Nat} {text : String}

/-- What is read within a limit is read within a higher one, places and all. -/
theorem parse_raise (rises : low ≤ high) {statement : Statement}
    (parsed : parse low text = .ok statement) : parse high text = .ok statement := by
  unfold parse TokenStream.statement at parsed ⊢
  cases begins : State.ofStream low (Lexer.ofText text).stream with
  | error failure =>
    rw [begins] at parsed
    cases parsed
  | ok start =>
    obtain ⟨isLow, raised⟩ := State.ofStream_raise rises begins
    simp only [begins] at parsed
    cases run : Parse.statement start with
    | error failure last =>
      rw [run] at parsed
      cases parsed
    | ok read last =>
      rw [run] at parsed
      obtain rfl := Except.ok.inj parsed
      have moved := ((Parse.statement_moves (m := .raise rises)).ok start read last isLow run).2
      rw [raised]
      simp only [moved]
      rfl

/-- What is refused within a limit, though not for its depth, is refused within a higher one. -/
theorem parse_raise_error (rises : low ≤ high) {failure : Failure}
    (refused : parse low text = .error failure) :
    parse high text = .error failure ∨ ∃ span, failure = .grammatical ⟨.tooDeep low, span⟩ := by
  unfold parse TokenStream.statement at refused ⊢
  cases begins : State.ofStream low (Lexer.ofText text).stream with
  | error other =>
    simp only [begins] at refused
    rw [State.ofStream_error begins]
    exact .inl refused
  | ok start =>
    obtain ⟨isLow, raised⟩ := State.ofStream_raise rises begins
    simp only [begins] at refused
    cases run : Parse.statement start with
    | ok read last =>
      rw [run] at refused
      cases refused
    | error found last =>
      rw [run] at refused
      obtain rfl := Except.error.inj refused
      -- only the depth may be what the higher limit changes
      rcases (Parse.statement_moves (m := .raise rises)).error start found last isLow run with
        ⟨-, beyond⟩ | ⟨other, last', moved, same⟩
      · exact .inr beyond
      · obtain rfl : found = other := same
        rw [raised]
        exact .inl (by simp only [moved])

/-- What is read within a limit is read within a lower one, or is too deep for it. -/
theorem parse_lower (rises : low ≤ high) {statement : Statement}
    (parsed : parse high text = .ok statement) :
    parse low text = .ok statement ∨
      ∃ span, parse low text = .error (.grammatical ⟨.tooDeep low, span⟩) := by
  cases below : parse low text with
  | ok other =>
    rw [parse_raise rises below] at parsed
    exact .inl parsed
  | error failure =>
    rcases parse_raise_error rises below with refused | ⟨span, rfl⟩
    · rw [refused] at parsed
      cases parsed
    · exact .inr ⟨span, rfl⟩

/-- A text is read as the same statement within all limits within which it is read. -/
theorem eq_of_parse {statement other : Statement} {limit bound : Nat}
    (parsed : parse limit text = .ok statement) (read : parse bound text = .ok other) :
    statement = other := by
  rcases Nat.le_total limit bound with rises | rises
  · exact Except.ok.inj ((parse_raise rises parsed).symm.trans read)
  · exact Except.ok.inj (parsed.symm.trans (parse_raise rises read))

/-- A text that is read within some limit has a least one. -/
theorem exists_least_limit {limit : Nat} {statement : Statement}
    (parsed : parse limit text = .ok statement) :
    ∃ least, (∀ bound, least ≤ bound → parse bound text = .ok statement) ∧
      ∀ bound < least, ∃ span, parse bound text = .error (.grammatical ⟨.tooDeep bound, span⟩) := by
  classical
  have some : ∃ limit, parse limit text = .ok statement := ⟨limit, parsed⟩
  refine ⟨Nat.find some, fun bound above => parse_raise above (Nat.find_spec some),
    fun bound below => ?_⟩
  rcases parse_lower (Nat.le_of_lt below) (Nat.find_spec some) with found | tooDeep
  · exact absurd found (Nat.find_min some below)
  · exact tooDeep

/-- The limit is a threshold. From a lower limit to a higher one a statement stays as it is,
places included, and so does a refusal that is not for depth; and from the higher limit to the
lower one a statement stays as it is or is too deep. So each text that is read within some limit
has a least limit, below which it is too deep and from which on nothing changes. -/
theorem limit_threshold (text : String) (low high : Nat) (rises : low ≤ high) :
    (∀ statement, parse low text = .ok statement → parse high text = .ok statement) ∧
      (∀ failure, parse low text = .error failure → ¬ failure.IsTooDeep →
        parse high text = .error failure) ∧
      (∀ statement, parse high text = .ok statement →
        parse low text = .ok statement ∨
          ∃ span, parse low text = .error (.grammatical ⟨.tooDeep low, span⟩)) ∧
      ∀ statement, parse high text = .ok statement →
        ∃ least, (∀ bound, least ≤ bound → parse bound text = .ok statement) ∧
          ∀ bound < least,
            ∃ span, parse bound text = .error (.grammatical ⟨.tooDeep bound, span⟩) := by
  refine ⟨fun _ => parse_raise rises, fun failure refused notDeep => ?_,
    fun _ => parse_lower rises, fun _ => exists_least_limit⟩
  rcases parse_raise_error rises refused with same | ⟨span, isDeep⟩
  · exact same
  · exact absurd ⟨low, span, isDeep⟩ notDeep

/-- Three levels of one text are within the limit 3, and the limit 1 is exceeded. -/
theorem limit_threshold_levels :
    1 ≤ 3 ∧ ∃ span, parse 1 "SELECT (1)" = .error (.grammatical ⟨.tooDeep 1, span⟩) := by
  have accepted : (parse 3 "SELECT (1)").isOk = true := by decide +kernel
  have refused : (parse 1 "SELECT (1)").isOk = false := by decide +kernel
  refine ⟨by decide, ?_⟩
  cases parsed : parse 3 "SELECT (1)" with
  | error failure =>
    rw [parsed] at accepted
    cases accepted
  | ok statement =>
    rcases (limit_threshold "SELECT (1)" 1 3 (by decide)).2.2.1 statement parsed with same | tooDeep
    · rw [same] at refused
      cases refused
    · exact tooDeep

end Statement

end CanonicalSql
