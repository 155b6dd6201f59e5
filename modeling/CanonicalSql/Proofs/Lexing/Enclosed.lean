import CanonicalSql.Proofs.Lexing.Layout

/-!
# Texts within texts

A text without comments has the same tokens where it stands within a longer text, if a blank or a
closing parenthesis follows it (`Spaced.splits_append`). A comment could reach beyond the text,
and another sign could lengthen its last token.
-/
namespace CanonicalSql.Scan

/-- The text is made of tokens of the kinds, in this order, with nothing but blanks before,
between and after them. -/
inductive Spaced : List Char → List Kind → Prop
  | done {gap : List Char} (blank : ∀ c ∈ gap, Unicode.isBlank c = true) : Spaced gap []
  | token {gap rest after : List Char} {c : Char} {kind : Kind} {kinds : List Kind}
    (blank : ∀ c ∈ gap, Unicode.isBlank c = true) (starts : Starts c rest)
    (scanned : Scan.token c rest = ⟨.ok kind, after⟩) (others : Spaced after kinds) :
    Spaced (gap ++ c :: rest) (kind :: kinds)

theorem Trivia.of_blank {gap : List Char} (blank : ∀ c ∈ gap, Unicode.isBlank c = true) :
    Trivia gap := by
  induction gap with
  | nil => exact .nil
  | cons c gap ih =>
    obtain ⟨first, others⟩ := List.forall_mem_cons.mp blank
    exact .blank first (ih others)

/-- The end of input is no token of a text. -/
theorem Splits.noEnd {text : List Char} {kinds : List Kind} (splits : Splits text kinds) :
    Kind.endOfInput ∉ kinds := by
  induction splits with
  | done => exact List.not_mem_nil
  | @token text rest after c kind kinds skipped scanned others ih =>
    rintro (_ | ⟨_, member⟩)
    · exact token_ne_end c rest (by rw [scanned])
    · exact ih member

/-- A blank before a text is no part of its tokens. -/
theorem Splits.blank {text : List Char} {kinds : List Kind} {c : Char}
    (isBlank : Unicode.isBlank c = true) (splits : Splits text kinds) : Splits (c :: text) kinds :=
  splits.of_skip (skipFrom_blank isBlank text)

/-- A text after an opening parenthesis. -/
theorem Splits.opened {text : List Char} {kinds : List Kind} (splits : Splits text kinds) :
    Splits ('(' :: text) (.symbol .leftParen :: kinds) :=
  .token rfl rfl splits

/-- A text followed by a blank or a closing parenthesis tracks itself. -/
theorem Tracks.longer (text : List Char) {more : List Char}
    (closes : ∀ c ∈ more.head?, isClose c = true) : Tracks text (text ++ more) := by
  have tracks := Tracks.append (.refl text) (.cut closes : Tracks [] more)
  rwa [List.append_nil] at tracks

namespace Spaced

variable {text : List Char} {kinds : List Kind}

/-- A text without comments keeps its tokens in front of a blank or a closing parenthesis. -/
theorem splits_append {more : List Char} {others : List Kind} (spaced : Spaced text kinds)
    (closes : ∀ c ∈ more.head?, isClose c = true) (splits : Splits more others) :
    Splits (text ++ more) (kinds ++ others) := by
  induction spaced with
  | done blank => exact splits.of_skip ((Trivia.of_blank blank).skip_append more)
  | @token gap rest after c kind kinds blank starts scanned _ ih =>
    obtain ⟨lexeme, rfl, again⟩ := token_again scanned
    have starts' := starts.recased (.refl c) (Tracks.longer (lexeme ++ after) closes)
    rw [List.append_assoc] at starts'
    rw [List.append_assoc, List.cons_append, List.append_assoc]
    refine .token (((Trivia.of_blank blank).skip_append _).trans starts'.skip) ?_ ih
    exact again c lexeme _ (.refl _) (Tracks.longer after closes)

theorem splits (spaced : Spaced text kinds) : Splits text kinds := by
  have alone := spaced.splits_append (by simp) (.done rfl : Splits [] [])
  rwa [List.append_nil, List.append_nil] at alone

/-- A text without comments before another one, with a blank between them. -/
theorem before {more : List Char} {others : List Kind} (spaced : Spaced text kinds)
    (splits : Splits more others) : Splits (text ++ ' ' :: more) (kinds ++ others) :=
  spaced.splits_append (by simp; decide) (splits.blank rfl)

/-- A text without comments before a closing parenthesis. -/
theorem closed {more : List Char} {others : List Kind} (spaced : Spaced text kinds)
    (splits : Splits more others) :
    Splits (text ++ ')' :: more) (kinds ++ .symbol .rightParen :: others) :=
  spaced.splits_append (by simp; decide) (.token rfl rfl splits)

end Spaced

/-! ## Texts at hand -/

/-- The tokens of a text of less than `bound` characters, unless it has a comment or a malformed
token. -/
def spaced? : (bound : Nat) → List Char → Option (List Kind)
  | 0, _ => none
  | bound + 1, text =>
    match text.dropWhile Unicode.isBlank with
    | [] => some []
    | c :: rest =>
      if c = '-' ∧ rest.head? = some '-' ∨ c = '/' ∧ rest.head? = some '*' then none
      else
        match Scan.token c rest with
        | ⟨.ok kind, after⟩ => (spaced? bound after).map (kind :: ·)
        | ⟨.error _, _⟩ => none

theorem spaced_of_spaced? (bound : Nat) {text : List Char} {kinds : List Kind}
    (isSpaced : spaced? bound text = some kinds) : Spaced text kinds := by
  induction bound generalizing text kinds with
  | zero => cases isSpaced
  | succ bound ih =>
    have blank : ∀ c ∈ text.takeWhile Unicode.isBlank, Unicode.isBlank c = true :=
      List.all_eq_true.mp List.all_takeWhile
    have whole := (List.takeWhile_append_dropWhile (p := Unicode.isBlank) (l := text)).symm
    have visible := List.head?_dropWhile_not Unicode.isBlank text
    -- only these facts about the gap and the text behind it matter
    generalize text.takeWhile Unicode.isBlank = gap at blank whole
    simp only [spaced?] at isSpaced
    generalize text.dropWhile Unicode.isBlank = others at isSpaced whole visible
    subst whole
    cases others with
    | nil =>
      cases isSpaced
      rw [List.append_nil]
      exact .done blank
    | cons c rest =>
      simp only at isSpaced
      split at isSpaced
      · cases isSpaced
      next noComment =>
      have starts : Starts c rest := by
        refine ⟨by simpa using visible, fun isLine begins => ?_, fun isBlock begins => ?_⟩
        · exact noComment (.inl ⟨isLine, begins⟩)
        · exact noComment (.inr ⟨isBlock, begins⟩)
      split at isSpaced
      · next kind after scanned =>
        obtain ⟨kinds, others, rfl⟩ := Option.map_eq_some_iff.mp isSpaced
        exact .token blank starts scanned (ih others)
      · cases isSpaced

end CanonicalSql.Scan
