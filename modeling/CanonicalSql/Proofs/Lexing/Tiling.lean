import CanonicalSql.Proofs.Lexing.Layout
import CanonicalSql.Proofs.Lexing.Progress
import Mathlib.Data.String.Basic

/-!
# Tokens tile their text

The spans of the tokens of a text stand one behind the other, and what is between them is blanks
and complete comments (`Lexer.stream_tiled`). No character is lost or shared: the stretch of text
that a token covers is that token, wherever it stands, since no scanner takes a token for what it
is because of what comes behind it (`Scan.token_alone`).
-/
namespace CanonicalSql

/-- The stretch of a text that a span covers, from byte to byte. -/
def Span.slice (text : String) (span : Span) : String :=
  String.Pos.Raw.extract text ⟨span.start.offset⟩ ⟨span.stop.offset⟩

namespace Scan

/-- Blanks and comments at the end of a text, where a line comment needs no line feed. -/
inductive LastTrivia : List Char → Prop
  | whole {gap : List Char} (trivia : Trivia gap) : LastTrivia gap
  | line {gap comment : List Char} (trivia : Trivia gap) (oneLine : '\n' ∉ comment) :
    LastTrivia (gap ++ '-' :: '-' :: comment)

end Scan

namespace Lexer

/-- The text is one token of the kind. -/
def IsToken (text : String) (kind : Kind) : Prop :=
  (ofText text).stream.failure = none ∧
    (ofText text).stream.tokens.map Token.kind = [kind, .endOfInput]

/-- From the place on the text is made of the tokens, each behind the one before it, and of blanks
and comments between them. The last one is the end of input, and each other one stands for the
stretch that it covers. -/
inductive Tiled (text : String) : Position → List Token → Prop
  | last {place stop : Position} (ordered : place.offset ≤ stop.offset)
    (gap : Scan.LastTrivia (Span.slice text ⟨place, stop⟩).toList)
    (ends : stop.offset = text.utf8ByteSize) : Tiled text place [⟨.endOfInput, .point stop⟩]
  | token {place : Position} {token : Token} {others : List Token}
    (ordered : place.offset ≤ token.span.start.offset)
    (gap : Scan.Trivia (Span.slice text ⟨place, token.span.start⟩).toList)
    (inside : token.kind ≠ .endOfInput)
    (some : token.span.start.offset < token.span.stop.offset)
    (alone : IsToken (token.span.slice text) token.kind)
    (behind : Tiled text token.span.stop others) : Tiled text place (token :: others)

end Lexer

/-! ## Stretches of a text -/

theorem Span.slice_after {text : String} {before part behind : List Char}
    (parts : text.toList = before ++ part ++ behind) :
    slice text ⟨({} : Position).after before, ({} : Position).after (before ++ part)⟩ =
      String.ofList part := by
  have isText : text = String.ofList (before ++ part ++ behind) := by
    rw [← parts, String.ofList_toList]
  have taken := String.extract_of_valid before part behind
  rw [← isText, ← String.utf8Len_append, ← String.utf8ByteSize_ofList, ← String.utf8ByteSize_ofList] at taken
  rwa [slice, Position.after_start, Position.after_start]

namespace Scan

theorem Trivia.append {front rest : List Char} (trivia : Trivia front) (others : Trivia rest) :
    Trivia (front ++ rest) := by
  induction trivia with
  | nil => exact others
  | blank isBlank _ ih => exact .blank isBlank ih
  | line oneLine _ ih =>
    simp only [List.cons_append, List.append_assoc]
    exact .line oneLine ih
  | block noEnd _ ih =>
    simp only [List.cons_append, List.append_assoc]
    exact .block noEnd ih

theorem LastTrivia.append {front rest : List Char} (trivia : Trivia front)
    (last : LastTrivia rest) : LastTrivia (front ++ rest) := by
  cases last with
  | whole others => exact .whole (trivia.append others)
  | line others oneLine =>
    rw [← List.append_assoc]
    exact .line (trivia.append others) oneLine

/-- What is skipped up to the end of the text, from where skipping stands. -/
def Skipping.PassesAll (text : List Char) : Skipping → Prop
  | .blanks => LastTrivia text
  | .lineComment =>
    '\n' ∉ text ∨ ∃ comment rest, text = comment ++ '\n' :: rest ∧ '\n' ∉ comment ∧ LastTrivia rest
  | .blockComment _ =>
    ∃ comment rest, text = comment ++ '*' :: '/' :: rest ∧ ¬ ['*', '/'] <:+: comment ∧
      LastTrivia rest

/-- Skipping passes blanks and comments only, up to the end of the text. -/
theorem passesAll {mode : Skipping} {text : List Char} (skipped : skipFrom mode text = .ok []) :
    mode.PassesAll text := by
  fun_induction skipFrom mode text with
  | case1 => cases skipped
  | case2 mode noBlock =>
    cases mode with
    | blanks => exact .whole .nil
    | lineComment => exact .inl List.not_mem_nil
    | blockComment opening => exact absurd rfl (noBlock opening)
  | case3 text ih => exact .inr ⟨[], text, rfl, List.not_mem_nil, ih skipped⟩
  | case4 d text other ih =>
    rcases ih skipped with oneLine | ⟨comment, rest, rfl, oneLine, last⟩
    · exact .inl (mt List.mem_cons.mp (not_or.mpr ⟨Ne.symm other, oneLine⟩))
    · exact .inr ⟨d :: comment, rest, rfl,
        mt List.mem_cons.mp (not_or.mpr ⟨Ne.symm other, oneLine⟩), last⟩
  | case5 opening text ih => exact ⟨[], text, rfl, by decide, ih skipped⟩
  | case6 opening d text other ih =>
    obtain ⟨comment, rest, rfl, noEnd, last⟩ := ih skipped
    refine ⟨d :: comment, rest, rfl, fun inside => ?_, last⟩
    -- a comment that is closed inside would have ended there
    rcases List.infix_cons_iff.mp inside with begins | within
    · obtain ⟨after, same⟩ := begins
      obtain ⟨rfl, rfl⟩ := List.cons.inj same
      exact other _ rfl rfl
    · exact noEnd within
  | case7 text ih =>
    rcases ih skipped with oneLine | ⟨comment, rest, rfl, oneLine, last⟩
    · exact .line .nil oneLine
    · have line : Trivia ('-' :: '-' :: (comment ++ ['\n'])) := .line oneLine .nil
      simpa [Skipping.PassesAll] using LastTrivia.append line last
  | case8 text ih =>
    obtain ⟨comment, rest, rfl, noEnd, last⟩ := ih skipped
    have block : Trivia ('/' :: '*' :: (comment ++ ['*', '/'])) := .block noEnd .nil
    simpa [Skipping.PassesAll] using LastTrivia.append block last
  | case9 d text noLine noBlock isBlank ih =>
    have blank : Trivia [d] := .blank isBlank .nil
    exact LastTrivia.append blank (ih skipped)
  | case10 => cases skipped

/-- A token is the same with nothing behind it. -/
theorem token_alone {c : Char} {lexeme rest : List Char} {kind : Kind}
    (scanned : token c (lexeme ++ rest) = ⟨.ok kind, rest⟩) : token c lexeme = ⟨.ok kind, []⟩ := by
  obtain ⟨taken, whole, again⟩ := token_again scanned
  obtain rfl := List.append_cancel_right whole
  have alone := again c lexeme [] (.refl _) (.cut nofun)
  rwa [List.append_nil] at alone

/-- What begins a token begins it with less behind it. -/
theorem Starts.of_append {c : Char} {text rest : List Char} (starts : Starts c (text ++ rest))
    : Starts c text where
  visible := starts.visible
  noLine isSign := fun isLine => starts.noLine isSign (by rw [List.head?_append, isLine]; rfl)
  noBlock isSign := fun isBlock => starts.noBlock isSign (by rw [List.head?_append, isBlock]; rfl)

end Scan

namespace Lexer

open Scan (Call)

variable {text : String} {lexer : Lexer} {before : List Char}

/-- The characters of a token, lexed on their own, are that token. -/
theorem isToken_of_call {gap lexeme rest : List Char} {kind : Kind}
    (call : Call gap lexeme rest (.ok kind)) (inside : kind ≠ .endOfInput) :
    Scan.Trivia gap ∧ IsToken (String.ofList lexeme) kind := by
  cases call with
  | done => exact absurd rfl inside
  | @lexeme lexeme _ c _ skipped scanned =>
    obtain ⟨starts, other, whole, trivia⟩ := Scan.exists_gap skipped
    obtain rfl := List.append_cancel_right whole
    have alone : Scan.Splits (String.ofList (c :: lexeme)).toList [kind] := by
      rw [String.toList_ofList]
      exact .token starts.of_append.skip (Scan.token_alone scanned) (.done rfl)
    exact ⟨trivia, (stream_of_splits alone).2, (stream_of_splits alone).1⟩

/-- The tokens that are left tile the text from where the lexer stands. The induction is on the
number of calls. -/
theorem take_tiled (count : Nat) (stands : lexer.Stands text before)
    (enough : lexer.rest.length < count) (complete : (lexer.take count).1.failure = none) :
    Tiled text lexer.position (lexer.take count).1.tokens := by
  induction count generalizing lexer before with
  | zero => exact absurd enough (Nat.not_lt_zero _)
  | succ count ih =>
    obtain ⟨gap, lexeme, found, call, moved, isFound⟩ := stands.next
    have isNext := Prod.ext (x := lexer.next) (y := (_, lexer.next.2)) isFound rfl
    have isGap : Span.slice text ⟨lexer.position, ({} : Position).after (before ++ gap)⟩ =
        String.ofList gap := by
      rw [stands.position]
      have parts : text.toList = before ++ gap ++ (lexeme ++ lexer.next.2.rest) := by
        rw [moved.parts, List.append_assoc _ lexeme]
      exact Span.slice_after parts
    have ordered : lexer.position.offset ≤ (({} : Position).after (before ++ gap)).offset := by
      rw [stands.position, Position.after_append]
      exact Position.offset_le_after _ _
    unfold take at complete ⊢
    rw [isNext] at complete ⊢
    cases found with
    | error => cases complete
    | ok kind =>
      -- the end of input closes the tiling; a token puts one tile in front of those of the later
      -- calls
      by_cases isEnd : kind = .endOfInput
      · subst isEnd
        obtain ⟨rfl, isOver, skipped⟩ := call.of_end
        have whole : text.toList = before ++ gap := by rw [moved.parts, isOver]; simp
        simp only [↓reduceIte, List.append_nil]
        refine .last ordered (by rw [isGap, String.toList_ofList]; exact Scan.passesAll skipped) ?_
        rw [← whole, Position.after_start, String.ofList_toList]
      · obtain ⟨trivia, alone⟩ := isToken_of_call call isEnd
        have some := List.length_pos_iff.mpr (call.nonempty (by simpa using isEnd))
        have fewer : lexer.next.2.rest.length < lexer.rest.length := by
          have lengths := congrArg List.length (stands.parts.symm.trans moved.parts)
          simp only [List.length_append] at lengths
          omega
        simp only [if_neg isEnd] at complete ⊢
        refine .token ordered (by rw [isGap, String.toList_ofList]; exact trivia) isEnd ?_ ?_ ?_
        · rw [Position.after_append _ (before ++ gap)]
          exact Position.offset_lt_after _ (call.nonempty (by simpa using isEnd))
        · rwa [Span.slice_after moved.parts]
        · have others := ih moved (by omega) complete
          rwa [moved.position] at others

/-- The tokens of a text without malformed ones tile it. -/
theorem stream_tiled (text : String) (complete : (ofText text).stream.failure = none) :
    Tiled text {} (ofText text).stream.tokens :=
  take_tiled _ (ofText_stands text) (Nat.lt_succ_self _) complete

/-- Tokens that end before what could begin another one, with no blanks between them. -/
theorem stream_tiled_adjacent :
    (ofText "é.5<=-1e+2e/**/N'ö''x'-- é").stream.failure = none ∧
      Tiled "é.5<=-1e+2e/**/N'ö''x'-- é" {} (ofText "é.5<=-1e+2e/**/N'ö''x'-- é").stream.tokens :=
  ⟨by decide +kernel, stream_tiled _ (by decide +kernel)⟩

end Lexer

end CanonicalSql
