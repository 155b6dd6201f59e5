import CanonicalSql.Proofs.Course.Stream

/-!
# Parsing comes to an end

Two bounds keep the rules of the grammar from running on forever, one on the rounds of a loop and
one on the levels of recursion, and a reading that used up either of them would end in
`Failure.exhausted`. No reading does, whatever the limit on the depth: a round that goes on takes
a token (`Parse.round` refuses all others), and a rule that calls for a phrase has taken a token
since it began. An element of `GROUP BY` alone calls for an expression at its own first token, and
what the expression calls for stands behind that token.

So nothing but the number of the tokens bounds the work, and at most as many calls of `advance`
are made as there are tokens.
-/
namespace CanonicalSql

namespace Parse

variable {α σ : Type} {tokens : List Token} {i : Nat}

/-- The step, which may be called only where more than `count` tokens have been taken. -/
def behind (count : Nat) (p : Parse α) : Parse α := fun s =>
  if count < s.taken then p s else .error .exhausted s

/-- Behind the token nothing is held back. -/
theorem Runs.behind {count : Nat} {p : Parse α} {good : Nat → α → Prop} (past : count < i)
    (given : Runs tokens i p good) : Runs tokens i (p.behind count) good where
  ok s value s' stands run := by
    rw [Parse.behind, if_pos (by rw [stands.taken]; exact past)] at run
    exact given.ok s value s' stands run
  error s failure s' stands run := by
    rw [Parse.behind, if_pos (by rw [stands.taken]; exact past)] at run
    exact given.error s failure s' stands run
  inside s value s' stands run := by
    rw [Parse.behind, if_pos (by rw [stands.taken]; exact past)] at run
    exact given.inside s value s' stands run

/-- A type calls for the types within it only behind the token at which it begins. -/
theorem dataTypeWith_behind {bound : Nat} (enough : tokens.length < i + (bound + 1)) :
    Passes tokens i (dataTypeWith ((dataTypeWithin bound).behind i)) :=
  dataTypeWith_runs fun k past => (dataTypeWithin_runs bound (by omega)).behind past

end Parse

namespace Phrases

variable {tokens : List Token} {i : Nat}

/-- The phrases, which may be called only where more than `count` tokens have been taken. -/
def behind (count : Nat) (phrases : Phrases) : Phrases where
  operand least := (phrases.operand least).behind count
  query := phrases.query.behind count
  setOperations left least := (phrases.setOperations left least).behind count
  tablePrimary := phrases.tablePrimary.behind count
  joins left := (phrases.joins left).behind count
  groupingElement := phrases.groupingElement.behind count

theorem FullCourse.behind {count : Nat} {phrases : Phrases} (past : count < i)
    (course : phrases.FullCourse tokens i) : (phrases.behind count).FullCourse tokens i where
  operand least := (course.operand least).behind past
  query := course.query.behind past
  setOperations a left least laid := (course.setOperations a left least laid).behind past
  tablePrimary := course.tablePrimary.behind past
  joins a left laid := (course.joins a left laid).behind past
  groupingElement := course.groupingElement.behind past

/-- The phrases that an element of `GROUP BY` may call: at its own token an expression, and
anything behind it. -/
def behindButOperand (count : Nat) (phrases : Phrases) : Phrases :=
  { phrases.behind count with operand := phrases.operand }

theorem FullCourse.behindButOperand {count : Nat} {phrases : Phrases} (past : count < i)
    (course : phrases.FullCourse tokens i) : (phrases.behindButOperand count).FullCourse tokens i where
  operand := course.operand
  query := course.query.behind past
  setOperations a left least laid := (course.setOperations a left least laid).behind past
  tablePrimary := course.tablePrimary.behind past
  joins a left laid := (course.joins a left laid).behind past
  groupingElement := course.groupingElement.behind past

/-- The rules call for phrases only behind the token at which they begin. -/
theorem above_behind {bound : Nat} (enough : 2 * tokens.length < 2 * i + (bound + 1)) :
    ((within bound).behind i).above.Course tokens i :=
  above_course fun k past => ((within_course bound k).2 (by omega)).behind past

/-- An element of `GROUP BY` calls for an expression at its own token at most. -/
theorem groupingElement_behind {bound : Nat} (enough : 2 * tokens.length < 2 * i + bound) :
    Parse.Runs tokens i ((within bound).behindButOperand i).above.groupingElement
      fun j expr => Laid tokens i j [.ofExpr expr] :=
  Parse.groupingElement_runs ((((within_course bound i).1 enough).operand 0).nested)
    fun k past => ((within_course bound k).2 (by omega)).behindButOperand past

end Phrases

/-- The reading of a text within a limit comes to an end of its own. -/
structure Statement.Terminates (limit : Nat) (text : String) : Prop where
  /-- No bound is used up, neither that of a loop nor that of the recursion. -/
  returns : Statement.parse limit text ≠ .error .exhausted
  /-- One call of `advance` for each token that was taken, and one more if it failed, are no more
  than there are tokens. -/
  advances : ∀ start, State.ofStream limit (Lexer.ofText text).stream = .ok start →
    (∀ statement last, Parse.statement start = .ok statement last →
      last.taken < (Lexer.ofText text).stream.tokens.length) ∧
    ∀ failure last, Parse.statement start = .error failure last →
      last.taken + 1 ≤ (Lexer.ofText text).stream.tokens.length
  /-- Every round of a loop that goes on has taken a token. -/
  rounds : ∀ {σ : Type} (step : σ → Parse (Option σ)) (value next : σ) (s s' : State),
    Parse.round step value s = .ok (some next) s' → s'.ahead.length < s.ahead.length
  /-- Twice as many levels of recursion as tokens are left are enough wherever a reading stands,
  even if a rule that calls for another one before it has taken a token were refused. -/
  calls : ∀ bound i, 2 * (Lexer.ofText text).stream.tokens.length < 2 * i + (bound + 1) →
    ((Phrases.within bound).behind i).above.Course (Lexer.ofText text).stream.tokens i
  /-- An element of `GROUP BY` needs one level more, since its expression begins where it does. -/
  groupings : ∀ bound i, 2 * (Lexer.ofText text).stream.tokens.length < 2 * i + bound →
    Parse.Runs (Lexer.ofText text).stream.tokens i
      ((Phrases.within bound).behindButOperand i).above.groupingElement
      fun j expr => Laid (Lexer.ofText text).stream.tokens i j [.ofExpr expr]
  /-- As many levels of types within types as tokens are left are enough, under the same
  restriction. -/
  types : ∀ bound i, (Lexer.ofText text).stream.tokens.length < i + (bound + 1) →
    Parse.Passes (Lexer.ofText text).stream.tokens i
      (Parse.dataTypeWith ((Parse.dataTypeWithin bound).behind i))

/-- Reading comes to an end for every text and every limit. -/
theorem Statement.parse_terminates (limit : Nat) (text : String) :
    Statement.Terminates limit text := by
  have flows := (Lexer.ofText text).stream_flows
  have proceeds : Parse.Proceeds (Lexer.ofText text).stream.tokens 0 Parse.statement _ :=
    Parse.statement_proceeds
  refine ⟨fun exhausted => ?_, fun start begins => ⟨fun statement last run => ?_,
    fun failure last run => ?_⟩, fun step value next s s' run => (Parse.round_ok run).2 (by simp),
    fun _ _ => Phrases.above_behind, fun _ _ => Phrases.groupingElement_behind,
    fun _ _ => Parse.dataTypeWith_behind⟩
  · unfold Statement.parse TokenStream.statement at exhausted
    split at exhausted
    · next begins =>
      obtain rfl := Except.error.inj exhausted
      exact State.ofStream_ne_exhausted flows begins
    · next start begins =>
      split at exhausted
      · cases exhausted
      · next failure last run =>
        obtain rfl := Except.error.inj exhausted
        exact (proceeds.error start _ last (State.ofStream_at flows begins) run).1 rfl
  · obtain ⟨j, -, stands, -⟩ := proceeds.ok start _ last (State.ofStream_at flows begins) run
    have := stands.length
    have := stands.taken
    omega
  · exact (proceeds.error start _ last (State.ofStream_at flows begins) run).2

/-- A text that is refused where the cap has reached the greatest word: the limit is beyond all
that could be counted, and the reading ends nevertheless. -/
theorem Statement.parse_terminates_saturated :
    min (2 * 2 ^ 64) 0xffffffffffffffff = 0xffffffffffffffff ∧
      Statement.Terminates (2 ^ 64) "SELECT ((a" :=
  ⟨by decide, Statement.parse_terminates (2 ^ 64) "SELECT ((a"⟩

end CanonicalSql
