import CanonicalSql.Proofs.Lexing.Layout
import CanonicalSql.Proofs.Lockstep.Statement

/-!
# Layout does not matter

A text laid out anew, with other blanks and comments and with letters in another case, has the
same tokens, and reading it comes to the same end within each limit: a statement like the other
one, or a refusal of the same token for the same reason (`Statement.parse_relaid`). Only the tokens
matter to the end (`Statement.parse_of_kinds`), because no rule of the grammar looks at a place.
-/
namespace CanonicalSql

/-- The text that was expected, if a token was found instead of it. -/
def Failure.expected? : Failure → Option String
  | .grammatical error => error.cause.expected?
  | _ => none

/-- The token that was found instead of what was expected. -/
def Failure.found? : Failure → Option Kind
  | .grammatical error => error.cause.found?
  | _ => none

/-- Two readings come to the same end, wherever it lies. -/
inductive SameEnd : Except Failure Statement → Except Failure Statement → Prop
  | read {one other : Statement} (alike : one.alike other = true) : SameEnd (.ok one) (.ok other)
  | refused {one other : Failure} (title : one.title = other.title)
    (message : one.message = other.message) (expected : one.expected? = other.expected?)
    (found : one.found? = other.found?) : SameEnd (.error one) (.error other)

theorem SameEnd.of_erase {one other : Failure} (same : one.erase = other.erase) :
    SameEnd (.error one) (.error other) := by
  have keeps {α : Type} (part : Failure → α) (kept : ∀ failure, part failure.erase = part failure) :
      part one = part other := by
    rw [← kept one, same, kept other]
  refine .refused (keeps _ ?_) (keeps _ ?_) (keeps _ ?_) (keeps _ ?_) <;>
  · intro failure
    cases failure <;> rfl

/-- The move that forgets all places. -/
def Move.forget (limit : Nat) : Move := ⟨false, limit, limit, Nat.le_refl limit⟩

/-- But for the places, reading begins alike on streams of the same tokens. -/
theorem State.ofStream_forget {one other : TokenStream} {kinds : List Kind} (limit : Nat)
    (tokens : one.tokens.map Token.kind = kinds ++ [.endOfInput])
    (tokens' : other.tokens.map Token.kind = kinds ++ [.endOfInput])
    (complete : one.failure = none) (complete' : other.failure = none) :
    ∃ start start', ofStream limit one = .ok start ∧ ofStream limit other = .ok start' ∧
      start.limit = limit ∧ start'.limit = limit ∧
      (Move.forget limit).state start = (Move.forget limit).state start' := by
  have forgets (token : Token) : (Move.forget limit).token token = ⟨token.kind, default⟩ := rfl
  have forgotten (tokens : List Token) : tokens.map (Move.forget limit).token =
      (tokens.map Token.kind).map fun kind => ⟨kind, default⟩ := by
    rw [List.map_map]
    rfl
  have same := tokens.trans tokens'.symm
  unfold ofStream
  cases isTokens : one.tokens with
  | nil => simp [isTokens] at tokens
  | cons first ahead =>
    cases isTokens' : other.tokens with
    | nil => simp [isTokens'] at tokens'
    | cons first' ahead' =>
      rw [isTokens, isTokens'] at same
      obtain ⟨sameFirst, sameAhead⟩ := List.cons.inj same
      refine ⟨_, _, rfl, rfl, rfl, rfl, ?_⟩
      simp only [Move.state, complete, complete', forgets, forgotten, sameFirst, sameAhead]
      rfl

namespace Statement

/-- Reading comes to the same end on all texts of the same tokens. -/
theorem parse_of_kinds {text other : String} {kinds : List Kind}
    (splits : Scan.Splits text.toList kinds) (splits' : Scan.Splits other.toList kinds)
    (limit : Nat) : SameEnd (parse limit text) (parse limit other) := by
  obtain ⟨tokens, complete⟩ := Lexer.stream_of_splits splits
  obtain ⟨tokens', complete'⟩ := Lexer.stream_of_splits splits'
  obtain ⟨start, start', begins, begins', isLow, isLow', same⟩ :=
    State.ofStream_forget limit tokens tokens' complete complete'
  have moves := Parse.statement_moves (m := .forget limit)
  -- the second reading has the same limit, so no failure is for want of depth alone
  have stays (failure : Failure) : ¬ (Move.forget limit).Escapes failure :=
    fun escapes => Nat.lt_irrefl _ escapes.1
  simp only [parse, TokenStream.statement, begins, begins']
  cases run : Parse.statement start with
  | ok it last =>
    have moved := (moves.ok start it last isLow run).2
    cases run' : Parse.statement start' with
    | ok it' last' =>
      have moved' := (moves.ok start' it' last' isLow' run').2
      rw [same, moved'] at moved
      have sameErase : it'.erase = it.erase := (EStateM.Result.ok.inj moved).1
      exact .read ((alike_iff_erase it it').mpr sameErase.symm)
    | error failure' last' =>
      obtain escapes | ⟨given', _, moved', -⟩ := moves.error start' failure' last' isLow' run'
      · exact absurd escapes (stays failure')
      · rw [same, moved'] at moved
        cases moved
  | error failure last =>
    obtain escapes | ⟨given, _, moved, sameFailure⟩ := moves.error start failure last isLow run
    · exact absurd escapes (stays failure)
    cases run' : Parse.statement start' with
    | ok it' last' =>
      have moved' := (moves.ok start' it' last' isLow' run').2
      rw [same, moved'] at moved
      cases moved
    | error failure' last' =>
      obtain escapes | ⟨given', _, moved', sameFailure'⟩ :=
        moves.error start' failure' last' isLow' run'
      · exact absurd escapes (stays failure')
      · rw [same, moved'] at moved
        -- both readings are the same reading of the tokens without their places
        obtain rfl : given' = given := (EStateM.Result.error.inj moved).1
        exact .of_erase (sameFailure.trans sameFailure'.symm)

/-- A text laid out anew has the same tokens, and reading it within any limit comes to the same
end. -/
theorem parse_relaid {text other : String} (relaid : Scan.Relaid text.toList other.toList)
    (limit : Nat) :
    (Lexer.ofText text).stream.failure = none ∧ (Lexer.ofText other).stream.failure = none ∧
      (Lexer.ofText other).stream.tokens.map Token.kind =
        (Lexer.ofText text).stream.tokens.map Token.kind ∧
      SameEnd (parse limit text) (parse limit other) := by
  obtain ⟨kinds, splits, splits'⟩ := relaid.splits
  obtain ⟨tokens, complete⟩ := Lexer.stream_of_splits splits
  obtain ⟨tokens', complete'⟩ := Lexer.stream_of_splits splits'
  exact ⟨complete, complete', tokens'.trans tokens.symm, parse_of_kinds splits splits' limit⟩

/-- A query is read alike with a comment in it and in other letters. -/
theorem parse_relaid_comment :
    Scan.Relaid "SELECT a".toList "\nselect /**/A ".toList ∧
      SameEnd (parse 8 "SELECT a") (parse 8 "\nselect /**/A ") := by
  have behind : Scan.Relaid [] [' '] := .done rfl (.replaced rfl (.blank rfl .nil))
  have name : Scan.Relaid [' ', 'a'] [' ', '/', '*', '*', '/', 'A', ' '] :=
    @Scan.Relaid.token [' '] [' ', '/', '*', '*', '/'] [] [] [] [' '] 'a' 'A' (.identifier "a")
      rfl rfl (.replaced rfl (.blank rfl (@Scan.Trivia.block [] [] (by decide) .nil)))
      (.letter rfl (by decide) .done) behind
  have recased : Scan.Recased "SELECT".toList "select".toList := by
    repeat first
      | exact .done
      | refine .letter rfl (by decide) ?_
  have relaid : Scan.Relaid "SELECT a".toList "\nselect /**/A ".toList :=
    @Scan.Relaid.token [] ['\n'] "ELECT".toList "elect".toList [' ', 'a'] _ 'S' 's'
      (.keyword .SELECT) rfl rfl (.replaced rfl (.blank rfl .nil)) recased name
  exact ⟨relaid, (parse_relaid relaid 8).2.2.2⟩

end Statement

end CanonicalSql
