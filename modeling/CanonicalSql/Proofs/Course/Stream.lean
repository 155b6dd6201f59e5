import CanonicalSql.Grammar.Statement
import CanonicalSql.Proofs.Course.Statement
import CanonicalSql.Proofs.Lexing.Splits

/-!
# The course of a stream

The lexer only ever moves on: each token but the end of input takes a character at least, and
begins behind the one before it. So the tokens of a text flow (`Lexer.stream_flows`), and the
state in which their reading begins stands at the first of them (`State.ofStream_at`).
-/
namespace CanonicalSql

namespace Position

theorem offset_le_after (p : Position) (text : List Char) : p.offset ≤ (p.after text).offset := by
  induction text generalizing p with
  | nil => exact Nat.le_refl _
  | cons c text ih => exact Nat.le_trans (Nat.le_of_lt (p.offset_lt_offset_step c)) (ih (p.step c))

theorem offset_lt_after (p : Position) {text : List Char} (some : text ≠ []) :
    p.offset < (p.after text).offset := by
  cases text with
  | nil => exact absurd rfl some
  | cons c text => exact Nat.lt_of_lt_of_le (p.offset_lt_offset_step c) ((p.step c).offset_le_after text)

end Position

/-- In front of tokens that flow there is room for another one. -/
theorem Flows.cons {token : Token} {tokens : List Token} {failure : Option LexError}
    (flows : Flows tokens failure) (inside : token.kind ≠ .endOfInput)
    (some : token.span.start.offset < token.span.stop.offset)
    (before : ∀ later ∈ tokens, token.span.stop.offset ≤ later.span.start.offset) :
    Flows (token :: tokens) failure where
  ends complete := by
    obtain ⟨last, isLast, isEnd⟩ := flows.ends complete
    refine ⟨last, ?_, isEnd⟩
    rw [List.getLast?_cons, isLast]
    rfl
  last i found isFound isEnd := by
    cases i with
    | zero =>
      obtain rfl : token = found := by simpa using isFound
      exact absurd isEnd inside
    | succ i => exact congrArg (· + 1) (flows.last i found (by simpa using isFound) isEnd)
  proper found member notEnd := by
    rcases List.mem_cons.mp member with rfl | member
    · exact some
    · exact flows.proper found member notEnd
  ordered := List.pairwise_cons.mpr ⟨before, flows.ordered⟩

namespace Lexer

/-- The lexer moves on behind the token, which takes a character unless it is the end of input. -/
theorem next_moves {lexer after : Lexer} {token : Token} (given : lexer.next = (.ok token, after)) :
    lexer.position.offset ≤ token.span.start.offset ∧
      (token.kind ≠ .endOfInput → token.span.start.offset < token.span.stop.offset ∧
        token.span.stop = after.position ∧ after.rest.length < lexer.rest.length) := by
  unfold next at given
  split at given
  · simp at given
  · next rest skipped =>
    have begins : lexer.position.offset ≤ (lexer.moveTo rest).position.offset :=
      Position.offset_le_after _ _
    simp only at given
    split at given
    · simp only [Prod.mk.injEq, Except.ok.injEq] at given
      rw [← given.1]
      exact ⟨begins, fun notEnd => absurd rfl notEnd⟩
    · next c text isRest =>
      split at given
      · next kind found =>
        simp only [Prod.mk.injEq, Except.ok.injEq] at given
        obtain ⟨rfl, rfl⟩ := given
        have isRest : rest = c :: text := isRest
        have shorter := (Scan.token_suffix c text).length_le
        have skippedLess := (Scan.skip_suffix skipped).length_le
        rw [isRest, List.length_cons] at skippedLess
        refine ⟨begins, fun _ => ⟨?_, rfl, by simp only [moveTo]; omega⟩⟩
        refine Position.offset_lt_after _ fun none => ?_
        have noChars := congrArg List.length none
        simp only [moveTo, isRest, List.length_take, List.length_cons, List.length_nil] at noChars
        omega
      · simp at given

/-- A lexer with calls enough for all that is left of its text gives tokens that flow, behind
where it stands. -/
theorem take_flows (count : Nat) (lexer : Lexer) (enough : lexer.rest.length < count) :
    Flows (lexer.take count).1.tokens (lexer.take count).1.failure ∧
      ∀ token ∈ (lexer.take count).1.tokens, lexer.position.offset ≤ token.span.start.offset := by
  -- behind each token the lexer stands where the token ends, so what later calls find lies behind
  -- it
  induction count generalizing lexer with
  | zero => exact absurd enough (Nat.not_lt_zero _)
  | succ count ih =>
    unfold take
    split
    · refine ⟨⟨by simp, by simp, by simp, .nil⟩, by simp⟩
    · next token after given =>
      obtain ⟨begins, moves⟩ := next_moves given
      split
      · next isEnd =>
        refine ⟨⟨fun _ => ⟨token, rfl, isEnd⟩, fun i found isFound _ => ?_, ?_, ?_⟩, ?_⟩
        · cases i with
          | zero => rfl
          | succ i => simp at isFound
        · simpa using fun notEnd => absurd isEnd notEnd
        · exact List.pairwise_singleton _ _
        · simpa using begins
      · next notEnd =>
        obtain ⟨some, stops, fewer⟩ := moves notEnd
        obtain ⟨flows, behind⟩ := ih after (by omega)
        refine ⟨flows.cons notEnd some fun later member => stops ▸ behind later member, ?_⟩
        intro found member
        rcases List.mem_cons.mp member with rfl | member
        · exact begins
        · have := behind found member
          rw [← stops] at this
          omega

/-- The tokens of a text flow. -/
theorem stream_flows (lexer : Lexer) : Flows lexer.stream.tokens lexer.stream.failure :=
  (take_flows _ lexer (Nat.lt_succ_self _)).1

end Lexer

/-- The state in which the reading of a stream begins stands at its first token. -/
theorem State.ofStream_at {limit : Nat} {stream : TokenStream} {start : State}
    (flows : Flows stream.tokens stream.failure) (begins : State.ofStream limit stream = .ok start) :
    start.At stream.tokens 0 := by
  unfold State.ofStream at begins
  split at begins
  · next first ahead isTokens =>
    obtain rfl := Except.ok.inj begins
    exact ⟨flows, isTokens.symm, rfl, fun _ _ some => absurd some (Nat.lt_irrefl 0)⟩
  · cases begins
  · cases begins

/-- A stream that flows has a token to begin with, or the malformed one at once. -/
theorem State.ofStream_ne_exhausted {limit : Nat} {stream : TokenStream}
    (flows : Flows stream.tokens stream.failure) :
    State.ofStream limit stream ≠ .error .exhausted := by
  unfold State.ofStream
  split
  · simp
  · simp
  · next noTokens noFailure =>
    obtain ⟨last, isLast, -⟩ := flows.ends noFailure
    rw [noTokens] at isLast
    cases isLast

end CanonicalSql
