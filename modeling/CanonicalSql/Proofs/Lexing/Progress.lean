import CanonicalSql.Proofs.Course.Stream

/-!
# Where a lexer stands

One call of a lexer takes a gap of its text and what stands behind the gap (`Lexer.next_call`):
a token, something malformed, or nothing at the end of the text. From this it follows for any
number of calls that a lexer stands between two characters of its text and counts what is before
it (`Lexer.stands_skip`), and that each call moves it on unless the text is over
(`Lexer.next_inside`). Malformed tokens make no difference: they are taken as far as reading got.
-/
namespace CanonicalSql

/-! ## Places and what is before them -/

/-- The place is between two characters of the text, and counts the bytes, the line feeds and the
characters of the line that are before it. Each count of lines or characters fits in 32 bits. -/
structure Position.IsIn (text : String) (p : Position) : Prop where
  between : ∃ before behind : String, text = before ++ behind ∧
    p.offset = before.utf8ByteSize ∧ p.line = 1 + before.toList.count '\n' ∧
    p.column = 1 + (before.toList.reverse.takeWhile (· ≠ '\n')).length
  line_lt : p.line < 2 ^ 32
  column_lt : p.column < 2 ^ 32

/-- The span begins and ends in the text, and does not end before it begins. -/
structure Span.IsIn (text : String) (span : Span) : Prop where
  start : span.start.IsIn text
  stop : span.stop.IsIn text
  ordered : span.start.offset ≤ span.stop.offset

namespace Position

/-- Walking over a text from its beginning counts what is before the place. -/
theorem after_start (before : List Char) :
    ({} : Position).after before = ⟨(String.ofList before).utf8ByteSize, 1 + before.count '\n',
      1 + (before.reverse.takeWhile (· ≠ '\n')).length⟩ := by
  induction before using List.reverseRecOn with
  | nil => rfl
  | append_singleton before c ih =>
    rw [after_append, ih, after_cons, after_nil, step]
    by_cases isFeed : c = '\n'
    · subst isFeed
      simp [String.ofList_append, Nat.add_assoc]
      rfl
    · simp [isFeed, String.ofList_append, Nat.add_comm]

theorem isIn_after {text : String} (short : text.length < 2 ^ 32 - 1) {before behind : List Char}
    (parts : text.toList = before ++ behind) : (({} : Position).after before).IsIn text := by
  have lengths : text.length = before.length + behind.length := by
    rw [← String.length_toList, parts, List.length_append]
  have lines : before.count '\n' ≤ before.length := List.count_le_length
  have columns : (before.reverse.takeWhile (· ≠ '\n')).length ≤ before.length := by
    have fewer := (List.takeWhile_prefix (· ≠ '\n') (l := before.reverse)).length_le
    rwa [List.length_reverse] at fewer
  rw [after_start]
  refine ⟨⟨String.ofList before, String.ofList behind, ?_, rfl, by simp, by simp⟩, ?_, ?_⟩
  · rw [← String.ofList_append, ← parts, String.ofList_toList]
  · dsimp only
    omega
  · dsimp only
    omega

end Position

/-! ## One call -/

namespace Scan

/-- A block comment that never ends begins where it is found to begin. -/
theorem skipFrom_error {mode : Skipping} {text opening : List Char}
    (skipped : skipFrom mode text = .error opening) :
    mode = .blockComment opening ∨ opening <:+ text ∧ opening ≠ [] := by
  fun_induction skipFrom mode text with
  | case1 =>
    cases skipped
    exact .inl rfl
  | case2 => cases skipped
  | case3 _ ih | case4 _ _ _ ih | case9 _ _ _ _ _ ih =>
    obtain isMode | ⟨inside, some⟩ := ih skipped
    · cases isMode
    · exact .inr ⟨inside.trans (List.suffix_cons _ _), some⟩
  | case5 _ _ ih | case7 _ ih =>
    obtain isMode | ⟨inside, some⟩ := ih skipped
    · cases isMode
    · exact .inr ⟨inside.trans ((List.suffix_cons _ _).trans (List.suffix_cons _ _)), some⟩
  | case6 _ _ _ _ ih =>
    exact (ih skipped).imp id fun given => ⟨given.1.trans (List.suffix_cons _ _), given.2⟩
  | case8 _ ih =>
    obtain isMode | ⟨inside, some⟩ := ih skipped
    · cases isMode
      exact .inr ⟨List.suffix_refl _, by simp⟩
    · exact .inr ⟨inside.trans ((List.suffix_cons _ _).trans (List.suffix_cons _ _)), some⟩
  | case10 => cases skipped

theorem skip_error {text opening : List Char} (skipped : skip text = .error opening) :
    opening <:+ text ∧ opening ≠ [] := by
  rcases skipFrom_error skipped with isMode | given
  · cases isMode
  · exact given

/-- What one call takes of the text: a gap, what is found behind it, and what is left. -/
inductive Call : (gap lexeme rest : List Char) → (found : Except LexCause Kind) → Prop
  | unclosed {gap opening : List Char} (skipped : skip (gap ++ opening) = .error opening)
    (some : opening ≠ []) : Call gap opening [] (.error .unterminatedComment)
  | done {gap : List Char} (skipped : skip gap = .ok []) : Call gap [] [] (.ok .endOfInput)
  | lexeme {gap lexeme rest : List Char} {c : Char} {found : Except LexCause Kind}
    (skipped : skip (gap ++ c :: (lexeme ++ rest)) = .ok (c :: (lexeme ++ rest)))
    (scanned : token c (lexeme ++ rest) = ⟨found, rest⟩) : Call gap (c :: lexeme) rest found

/-- What is found, with its place. -/
def placed (span : Span) : Except LexCause Kind → Except LexError Token
  | .ok kind => .ok ⟨kind, span⟩
  | .error cause => .error ⟨cause, span⟩

/-- Only the end of the text takes nothing. -/
theorem Call.nonempty {gap lexeme rest : List Char} {found : Except LexCause Kind}
    (call : Call gap lexeme rest found) (noEnd : found ≠ .ok .endOfInput) : lexeme ≠ [] := by
  cases call with
  | unclosed _ some => exact some
  | done => exact absurd rfl noEnd
  | lexeme => simp

/-- The end of the text is found where nothing is left. -/
theorem Call.of_end {gap lexeme rest : List Char} (call : Call gap lexeme rest (.ok .endOfInput)) :
    lexeme = [] ∧ rest = [] ∧ skip gap = .ok [] := by
  cases call with
  | done skipped => exact ⟨rfl, rfl, skipped⟩
  | lexeme skipped scanned =>
    have noEnd := token_ne_end
    exact absurd (congrArg Lexeme.found scanned) (noEnd _ _)

end Scan

namespace Lexer

open Scan (Call)

theorem placeOf_append (lexer : Lexer) {gap rest : List Char} (parts : lexer.rest = gap ++ rest) :
    lexer.placeOf rest = lexer.position.after gap := by
  simp [placeOf, parts]

/-- One call takes what stands at the beginning of the text that is left. -/
theorem next_call (lexer : Lexer) : ∃ gap lexeme rest found, Call gap lexeme rest found ∧
    lexer.rest = gap ++ lexeme ++ rest ∧
    lexer.next = (Scan.placed ⟨lexer.position.after gap, lexer.position.after (gap ++ lexeme)⟩ found,
      ⟨lexer.input, rest, lexer.position.after (gap ++ lexeme)⟩) := by
  unfold next
  cases skipped : Scan.skip lexer.rest with
  | error opening =>
    obtain ⟨⟨gap, parts⟩, some⟩ := Scan.skip_error skipped
    refine ⟨gap, opening, [], _, .unclosed (by rw [parts]; exact skipped) some, by simp [parts], ?_⟩
    simp [moveTo, Scan.placed, lexer.placeOf_append parts.symm,
      lexer.placeOf_append (show lexer.rest = (gap ++ opening) ++ [] by simp [parts])]
  | ok text =>
    obtain ⟨gap, parts⟩ := Scan.skip_suffix skipped
    cases text with
    | nil =>
      refine ⟨gap, [], [], _, .done (by rw [← skipped, ← parts, List.append_nil]), by simp [← parts], ?_⟩
      simp [moveTo, Scan.placed, Span.point, lexer.placeOf_append parts.symm]
    | cons c text =>
      obtain ⟨lexeme, isText⟩ := Scan.token_suffix c text
      cases scanned : Scan.token c text with
      | mk found rest =>
        rw [scanned] at isText
        dsimp only at isText
        subst isText
        refine ⟨gap, c :: lexeme, rest, found, .lexeme (by rw [parts]; exact skipped) scanned,
          by simp [← parts], ?_⟩
        have begins := lexer.placeOf_append parts.symm
        have ends : (⟨lexer.input, c :: (lexeme ++ rest), lexer.position.after gap⟩ : Lexer).placeOf rest =
            lexer.position.after (gap ++ c :: lexeme) := by
          rw [placeOf_append _ (show _ = (c :: lexeme) ++ rest from rfl), Position.after_append]
        cases found <;> simp [moveTo, Scan.placed, scanned, begins, ends]

/-! ## Any number of calls -/

/-- The lexer stands behind the characters in the text, and its place counts them. -/
structure Stands (text : String) (before : List Char) (lexer : Lexer) : Prop where
  parts : text.toList = before ++ lexer.rest
  position : lexer.position = ({} : Position).after before

variable {text : String} {lexer : Lexer} {before : List Char}

/-- One call takes characters of the text, and the place goes with them. -/
theorem Stands.next (stands : lexer.Stands text before) : ∃ gap lexeme found,
    Call gap lexeme lexer.next.2.rest found ∧ lexer.next.2.Stands text (before ++ gap ++ lexeme) ∧
      lexer.next.1 = Scan.placed ⟨({} : Position).after (before ++ gap),
        ({} : Position).after (before ++ gap ++ lexeme)⟩ found := by
  obtain ⟨gap, lexeme, rest, found, call, parts, isNext⟩ := lexer.next_call
  have place (taken : List Char) :
      lexer.position.after taken = ({} : Position).after (before ++ taken) := by
    rw [stands.position, Position.after_append]
  rw [place, place, ← List.append_assoc] at isNext
  rw [isNext]
  refine ⟨gap, lexeme, found, call, ⟨?_, rfl⟩, rfl⟩
  simp only [stands.parts, parts, List.append_assoc]

/-- After any number of calls the lexer stands in its text. -/
theorem stands_skip (stands : lexer.Stands text before) (count : Nat) :
    ∃ before', (lexer.skip count).Stands text before' := by
  induction count generalizing lexer before with
  | zero => exact ⟨before, stands⟩
  | succ count ih =>
    obtain ⟨gap, lexeme, found, -, moved, -⟩ := stands.next
    exact ih moved

theorem ofText_stands (text : String) : (ofText text).Stands text [] := ⟨rfl, rfl⟩

/-- What a call gives is in its place. -/
def foundSpan : Except LexError Token → Span
  | .ok token => token.span
  | .error error => error.span

theorem foundSpan_placed (span : Span) (found : Except LexCause Kind) :
    foundSpan (Scan.placed span found) = span := by
  cases found <;> rfl

/-- After any number of calls the lexer is between two characters of its text, and so are both ends
of what the next call finds, whether it is a token or malformed. The call finds the end of input
and leaves the lexer at the end of the text, or it moves the lexer on. -/
theorem next_inside {text : String} (short : text.length < 2 ^ 32 - 1) (count : Nat) :
    ((ofText text).skip count).position.IsIn text ∧
      (foundSpan ((ofText text).skip count).next.1).IsIn text ∧
      (((ofText text).skip count).next.2.position.offset = text.utf8ByteSize ∧
          ((ofText text).skip count).next.1 =
            .ok ⟨.endOfInput, .point ((ofText text).skip count).next.2.position⟩ ∨
        ((ofText text).skip count).position.offset <
          ((ofText text).skip count).next.2.position.offset) := by
  obtain ⟨before, stands⟩ := stands_skip (ofText_stands text) count
  generalize (ofText text).skip count = lexer at stands ⊢
  obtain ⟨gap, lexeme, found, call, moved, isFound⟩ := stands.next
  have gapParts : text.toList = (before ++ gap) ++ (lexeme ++ lexer.next.2.rest) := by
    rw [moved.parts, List.append_assoc]
  refine ⟨?_, ?_, ?_⟩
  · rw [stands.position]
    exact Position.isIn_after short stands.parts
  · rw [isFound, foundSpan_placed]
    refine ⟨Position.isIn_after short gapParts, Position.isIn_after short moved.parts, ?_⟩
    rw [Position.after_append _ (before ++ gap)]
    exact Position.offset_le_after _ _
  -- only the end of input is found without a character of its own
  by_cases isEnd : found = .ok .endOfInput
  · left
    subst isEnd
    obtain ⟨rfl, isOver, -⟩ := call.of_end
    rw [List.append_nil] at moved isFound
    have whole : text.toList = before ++ gap := by rw [moved.parts, isOver, List.append_nil]
    rw [isFound, moved.position, ← whole]
    exact ⟨by rw [Position.after_start, String.ofList_toList], rfl⟩
  · right
    have some := call.nonempty isEnd
    rw [stands.position, moved.position, List.append_assoc, Position.after_append]
    exact Position.offset_lt_after _ (by simp [some])

/-- Behind a bad escape there is the quote of a string that is never closed. -/
theorem next_inside_malformed :
    "E'\\q'\né".length < 2 ^ 32 - 1 ∧
      ((ofText "E'\\q'\né").skip 1).position.IsIn "E'\\q'\né" ∧
      (foundSpan ((ofText "E'\\q'\né").skip 1).next.1).IsIn "E'\\q'\né" ∧
      (((ofText "E'\\q'\né").skip 1).next.2.position.offset = "E'\\q'\né".utf8ByteSize ∧
          ((ofText "E'\\q'\né").skip 1).next.1 =
            .ok ⟨.endOfInput, .point ((ofText "E'\\q'\né").skip 1).next.2.position⟩ ∨
        ((ofText "E'\\q'\né").skip 1).position.offset <
          ((ofText "E'\\q'\né").skip 1).next.2.position.offset) :=
  ⟨by decide, next_inside (by decide) 1⟩

end Lexer

end CanonicalSql
