import CanonicalSql.Proofs.Lexing.Steady

/-!
# Texts laid out anew

A text is laid out anew by putting other blanks and comments between its tokens and by changing
the case of letters outside of quotes (`Relaid`). The new text has the same tokens
(`Relaid.splits`).

No token grows or shrinks, because behind each token the new text has what the old one has
there, or a blank (`Relaid.tracks`).
-/
namespace CanonicalSql.Scan

/-! ## Blanks and comments -/

/-- Blanks, and comments that end. -/
inductive Trivia : List Char → Prop
  | nil : Trivia []
  | blank {c : Char} {rest : List Char} (isBlank : Unicode.isBlank c = true)
    (others : Trivia rest) : Trivia (c :: rest)
  | line {comment rest : List Char} (oneLine : '\n' ∉ comment) (others : Trivia rest) :
    Trivia ('-' :: '-' :: (comment ++ '\n' :: rest))
  | block {comment rest : List Char} (noEnd : ¬ ['*', '/'] <:+: comment) (others : Trivia rest) :
    Trivia ('/' :: '*' :: (comment ++ '*' :: '/' :: rest))

theorem skipFrom_blank {c : Char} (isBlank : Unicode.isBlank c = true) (rest : List Char) :
    skipFrom .blanks (c :: rest) = skipFrom .blanks rest := by
  have noComment : c ≠ '-' ∧ c ≠ '/' := by
    constructor <;>
    · rintro rfl
      cases isBlank
  rw [skipFrom]
  · rw [isBlank]
    rfl
  · rintro rest rfl
    exact absurd rfl noComment.1
  · rintro rest rfl
    exact absurd rfl noComment.2

theorem skipFrom_line {comment : List Char} (oneLine : '\n' ∉ comment) (rest : List Char) :
    skipFrom .lineComment (comment ++ '\n' :: rest) = skipFrom .blanks rest := by
  induction comment with
  | nil => simp [skipFrom]
  | cons c comment ih =>
    obtain ⟨other, others⟩ := not_or.mp (mt List.mem_cons.mpr oneLine)
    rw [List.cons_append, skipFrom, if_neg (Ne.symm other), ih others]

theorem skipFrom_block {comment : List Char} (noEnd : ¬ ['*', '/'] <:+: comment)
    (opening rest : List Char) :
    skipFrom (.blockComment opening) (comment ++ '*' :: '/' :: rest) = skipFrom .blanks rest := by
  induction comment with
  | nil => rw [List.nil_append, skipFrom]
  | cons c comment ih =>
    rw [List.cons_append, skipFrom, ih fun inside => noEnd (inside.trans (List.suffix_cons _ _).isInfix)]
    -- a star and a slash at the beginning would end the comment
    rintro after rfl follows
    cases comment with
    | nil => cases follows
    | cons d comment =>
      obtain ⟨rfl, -⟩ := List.cons.inj follows
      exact noEnd (List.prefix_append ['*', '/'] comment).isInfix

/-- Blanks and comments are skipped. -/
theorem Trivia.skip_append {gap : List Char} (trivia : Trivia gap) (rest : List Char) :
    skip (gap ++ rest) = skip rest := by
  unfold skip
  induction trivia with
  | nil => rfl
  | blank isBlank _ ih => rw [List.cons_append, skipFrom_blank isBlank, ih]
  | @line comment gap oneLine _ ih =>
    rw [List.cons_append, List.cons_append, List.append_assoc, skipFrom, List.cons_append,
      skipFrom_line oneLine, ih]
  | @block comment gap noEnd _ ih =>
    rw [List.cons_append, List.cons_append, List.append_assoc, skipFrom, List.cons_append,
      List.cons_append, skipFrom_block noEnd, ih]

/-- What is skipped up to a token, from where skipping stands. -/
def Skipping.Passes (gap : List Char) : Skipping → Prop
  | .blanks => Trivia gap
  | .lineComment => ∃ comment rest, gap = comment ++ '\n' :: rest ∧ '\n' ∉ comment ∧ Trivia rest
  | .blockComment _ =>
    ∃ comment rest, gap = comment ++ '*' :: '/' :: rest ∧ ¬ ['*', '/'] <:+: comment ∧ Trivia rest

/-- The character begins a token before the text. -/
structure Starts (c : Char) (text : List Char) : Prop where
  visible : Unicode.isBlank c = false
  noLine : c = '-' → text.head? ≠ some '-'
  noBlock : c = '/' → text.head? ≠ some '*'

/-- Skipping passes blanks and comments only, up to where a token begins. -/
theorem exists_gap {mode : Skipping} {text rest : List Char} {c : Char}
    (skipped : skipFrom mode text = .ok (c :: rest)) :
    Starts c rest ∧ ∃ gap, text = gap ++ c :: rest ∧ mode.Passes gap := by
  -- one case for each step of the skipping: a mode that goes on, one that is left, or the next
  -- one that begins; only the last case stops
  fun_induction skipFrom mode text with
  | case1 => cases skipped
  | case2 => cases skipped
  | case3 text ih =>
    obtain ⟨starts, gap, rfl, trivia⟩ := ih skipped
    exact ⟨starts, '\n' :: gap, rfl, [], gap, rfl, List.not_mem_nil, trivia⟩
  | case4 d text other ih =>
    obtain ⟨starts, gap, rfl, comment, trivia, rfl, oneLine, isTrivia⟩ := ih skipped
    exact ⟨starts, _, rfl, d :: comment, trivia, rfl,
      mt List.mem_cons.mp (not_or.mpr ⟨Ne.symm other, oneLine⟩), isTrivia⟩
  | case5 opening text ih =>
    obtain ⟨starts, gap, rfl, trivia⟩ := ih skipped
    exact ⟨starts, '*' :: '/' :: gap, rfl, [], gap, rfl, by decide, trivia⟩
  | case6 opening d text other ih =>
    obtain ⟨starts, gap, rfl, comment, trivia, rfl, noEnd, isTrivia⟩ := ih skipped
    refine ⟨starts, _, rfl, d :: comment, trivia, rfl, fun inside => ?_, isTrivia⟩
    -- a comment that is closed inside would have ended there
    rcases List.infix_cons_iff.mp inside with begins | within
    · obtain ⟨after, same⟩ := begins
      obtain ⟨rfl, rfl⟩ := List.cons.inj same
      exact other _ rfl rfl
    · exact noEnd within
  | case7 text ih =>
    obtain ⟨starts, gap, rfl, comment, rest, rfl, oneLine, trivia⟩ := ih skipped
    exact ⟨starts, _, rfl, .line oneLine trivia⟩
  | case8 text ih =>
    obtain ⟨starts, gap, rfl, comment, rest, rfl, noEnd, trivia⟩ := ih skipped
    exact ⟨starts, _, rfl, .block noEnd trivia⟩
  | case9 d text noLine noBlock isBlank ih =>
    obtain ⟨starts, gap, rfl, trivia⟩ := ih skipped
    exact ⟨starts, d :: gap, rfl, .blank isBlank trivia⟩
  | case10 d text noLine noBlock visible =>
    cases skipped
    refine ⟨⟨by simpa using visible, ?_, ?_⟩, [], rfl, .nil⟩
    · rintro rfl begins
      obtain ⟨after, rfl⟩ := List.head?_eq_some_iff.mp begins
      exact noLine after rfl rfl
    · rintro rfl begins
      obtain ⟨after, rfl⟩ := List.head?_eq_some_iff.mp begins
      exact noBlock after rfl rfl

theorem Starts.skip {c : Char} {text : List Char} (starts : Starts c text) :
    skip (c :: text) = .ok (c :: text) := by
  rw [Scan.skip, skipFrom]
  · rw [starts.visible]
    rfl
  · rintro rest rfl rfl
    exact starts.noLine rfl rfl
  · rintro rest rfl rfl
    exact starts.noBlock rfl rfl

/-! ## Other layouts -/

/-- What stands between two tokens stays as it is, or gives way to blanks and comments that begin
with a blank. -/
inductive Regapped : List Char → List Char → Prop
  | kept (gap : List Char) : Regapped gap gap
  | replaced {gap rest : List Char} {c : Char} (isBlank : Unicode.isBlank c = true)
    (trivia : Trivia (c :: rest)) : Regapped gap (c :: rest)

/-- The second text is the first one laid out anew: what stands before, between and behind the
tokens may be replaced, and letters outside of quotes may change their case. The first text is
one that splits into tokens (`Lexer.relaid_iff`). -/
inductive Relaid : List Char → List Char → Prop
  | done {gap gap' : List Char} (skipped : skip gap = .ok []) (regapped : Regapped gap gap') :
    Relaid gap gap'
  | token {gap gap' lexeme lexeme' after after' : List Char} {c c' : Char} {kind : Kind}
    (skipped : skip (gap ++ c :: (lexeme ++ after)) = .ok (c :: (lexeme ++ after)))
    (scanned : Scan.token c (lexeme ++ after) = ⟨.ok kind, after⟩)
    (regapped : Regapped gap gap') (recased : Recased (c :: lexeme) (c' :: lexeme'))
    (others : Relaid after after') :
    Relaid (gap ++ c :: (lexeme ++ after)) (gap' ++ c' :: (lexeme' ++ after'))

theorem Regapped.tracks {gap gap' text other : List Char} (regapped : Regapped gap gap')
    (tracks : Tracks text other) : Tracks (gap ++ text) (gap' ++ other) := by
  cases regapped with
  | kept => exact tracks.append (.refl _)
  | replaced isBlank =>
    refine .cut ?_
    rintro c ⟨⟩
    exact isClose_of_isBlank isBlank

/-- What is skipped before a token is a gap of blanks and comments, whatever it becomes. -/
theorem Regapped.trivia {gap gap' text : List Char} {c : Char} (regapped : Regapped gap gap')
    (skipped : skip (gap ++ c :: text) = .ok (c :: text)) : Trivia gap' := by
  cases regapped with
  | kept =>
    obtain ⟨-, other, whole, trivia⟩ := exists_gap skipped
    rwa [List.append_cancel_right whole]
  | replaced _ trivia => exact trivia

theorem Starts.recased {c c' : Char} {text text' : List Char} (starts : Starts c text)
    (letter : SameLetter c c') (tracks : Tracks text text') : Starts c' text' where
  visible := letter.isBlank_eq.symm.trans starts.visible
  noLine := by
    rintro rfl
    exact tracks.noSign (by decide) (by decide) (starts.noLine (letter.symm.eq_of_noLetter (by decide)))
  noBlock := by
    rintro rfl
    exact tracks.noSign (by decide) (by decide) (starts.noBlock (letter.symm.eq_of_noLetter (by decide)))

namespace Relaid

variable {text other : List Char}

/-- Behind each token the new text has what the old one has, or a blank. -/
theorem tracks (relaid : Relaid text other) : Tracks text other := by
  induction relaid with
  | done skipped regapped =>
    have ends : Tracks [] [] := .cut nofun
    simpa using regapped.tracks ends
  | token skipped scanned regapped recased _ ih =>
    obtain ⟨letter, others⟩ := List.forall₂_cons.mp recased.sameLetters
    exact regapped.tracks (.letter letter (ih.append others))

/-- A text and the same text laid out anew have the same tokens. -/
theorem splits (relaid : Relaid text other) :
    ∃ kinds, Splits text kinds ∧ Splits other kinds := by
  induction relaid with
  | @done gap gap' skipped regapped =>
    refine ⟨[], .done skipped, .done ?_⟩
    cases regapped with
    | kept => exact skipped
    | replaced _ trivia => simpa [skip, skipFrom] using trivia.skip_append []
  | @token gap gap' lexeme lexeme' after after' c c' kind skipped scanned regapped recased relaid ih =>
    obtain ⟨kinds, one, two⟩ := ih
    refine ⟨kind :: kinds, .token skipped scanned one, ?_⟩
    obtain ⟨letter, others⟩ := List.forall₂_cons.mp recased.sameLetters
    obtain ⟨taken, whole, again⟩ := token_again scanned
    obtain rfl := List.append_cancel_right whole
    have starts := (exists_gap skipped).1.recased letter (relaid.tracks.append others)
    have skipped' := ((regapped.trivia skipped).skip_append _).trans starts.skip
    exact .token skipped' (again c' lexeme' after' recased relaid.tracks) two

end Relaid

/-- Each text that splits into tokens can be laid out as it is. -/
theorem Splits.relaid {text : List Char} {kinds : List Kind} (splits : Splits text kinds) :
    Relaid text text := by
  induction splits with
  | done skipped => exact .done skipped (.kept _)
  | @token text rest after c kind kinds skipped scanned others ih =>
    obtain ⟨-, gap, rfl, -⟩ := exists_gap skipped
    obtain ⟨lexeme, rfl, -⟩ := token_again scanned
    exact .token skipped scanned (.kept gap) (.refl _) ih

end CanonicalSql.Scan

namespace CanonicalSql

/-- All texts without malformed tokens, and no others, can be laid out anew. -/
theorem Lexer.relaid_iff {text : String} :
    (∃ other, Scan.Relaid text.toList other) ↔ (ofText text).stream.failure = none := by
  constructor
  · rintro ⟨other, relaid⟩
    obtain ⟨kinds, splits, -⟩ := relaid.splits
    exact (stream_of_splits splits).2
  · intro complete
    obtain ⟨kinds, splits⟩ := splits_of_stream complete
    exact ⟨_, splits.relaid⟩

end CanonicalSql
