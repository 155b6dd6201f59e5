import CanonicalSql.Token.Lexer

/-!
# Texts and their tokens

What the lexer gives for a text hangs on the text alone, not on where it stands. `Splits`
says that a text is made of tokens of given kinds with blanks and comments between them,
and a stream that ends without a malformed token is one whose text splits
(`Lexer.stream_of_splits`, `Lexer.splits_of_stream`). Each scanner leaves an end of the text
behind the character it begins with, so that no more tokens than characters are found.
-/
namespace CanonicalSql

/-! ## What scanners leave -/

theorem Quoted.read_suffix {quote : Char} {text found rest : List Char}
    (given : read quote text = some (found, rest)) : rest <:+ text := by
  induction text using read.induct quote generalizing found rest with
  | case1 => cases given
  | case2 =>
    simp only [read, ↓reduceIte, Option.some.injEq, Prod.mk.injEq] at given
    rw [← given.2]
    exact List.nil_suffix
  | case3 text ih =>
    rw [read_pair] at given
    obtain ⟨⟨inside, after⟩, isRead, same⟩ := Option.map_eq_some_iff.mp given
    obtain ⟨-, rfl⟩ := Prod.mk.inj same
    exact (ih isRead).trans ((List.suffix_cons _ _).trans (List.suffix_cons _ _))
  | case4 c text other =>
    rw [read_end _ _ (by simpa using other)] at given
    obtain ⟨-, rfl⟩ := Prod.mk.inj (Option.some.inj given)
    exact List.suffix_cons _ _
  | case5 c text other ih =>
    rw [read_of_ne other] at given
    obtain ⟨⟨inside, after⟩, isRead, same⟩ := Option.map_eq_some_iff.mp given
    obtain ⟨-, rfl⟩ := Prod.mk.inj same
    exact (ih isRead).trans (List.suffix_cons _ _)

namespace Scan

theorem skipFrom_suffix {mode : Skipping} {text rest : List Char}
    (skipped : skipFrom mode text = .ok rest) : rest <:+ text := by
  fun_induction skipFrom mode text with
  | case1 => cases skipped
  | case2 =>
    cases skipped
    exact List.nil_suffix
  | case5 _ _ ih | case7 _ ih | case8 _ ih =>
    exact (ih skipped).trans ((List.suffix_cons _ _).trans (List.suffix_cons _ _))
  | case3 _ ih | case4 _ _ _ ih | case6 _ _ _ _ ih | case9 _ _ _ _ _ ih =>
    exact (ih skipped).trans (List.suffix_cons _ _)
  | case10 =>
    cases skipped
    exact List.suffix_refl _

/-- Skipping leaves an end of the text. -/
theorem skip_suffix {text rest : List Char} (skipped : skip text = .ok rest) : rest <:+ text :=
  skipFrom_suffix skipped

/-- A string with escapes leaves an end of the text, whether it is well formed or not. -/
def escapedRest : Except (LexCause × List Char) (List Char × List Char) → List Char
  | .error (_, rest) => rest
  | .ok (_, rest) => rest

theorem escapedRest_map (result : Except (LexCause × List Char) (List Char × List Char))
    (add : List Char → List Char) :
    escapedRest (result.map fun (text, after) => (add text, after)) = escapedRest result := by
  rcases result with ⟨cause, rest⟩ | ⟨text, rest⟩ <;> rfl

theorem readEscaped_suffix (text : List Char) : escapedRest (readEscaped text) <:+ text := by
  induction text using readEscaped.induct with
  | case1 => exact List.suffix_refl _
  | case2 rest ih =>
    rw [readEscaped, escapedRest_map]
    exact ih.trans ((List.suffix_cons _ _).trans (List.suffix_cons _ _))
  | case3 rest single =>
    rw [readEscaped]
    · exact List.suffix_cons _ _
    · exact single
  | case4 => exact List.nil_suffix
  | case5 c rest meant isMeant ih =>
    rw [readEscaped]
    simp only [isMeant, escapedRest_map]
    exact ih.trans ((List.suffix_cons _ _).trans (List.suffix_cons _ _))
  | case6 c rest noEscape =>
    rw [readEscaped]
    simp only [noEscape]
    exact (List.suffix_cons _ _).trans (List.suffix_cons _ _)
  | case7 c rest noPair noQuote noEnd noBackslash ih =>
    rw [readEscaped, escapedRest_map]
    · exact ih.trans (List.suffix_cons _ _)
    all_goals assumption

theorem string_suffix (kind : StringKind) (escapes : Bool) (text : List Char) :
    (string kind escapes text).rest <:+ text := by
  unfold string
  split
  · have suffix := readEscaped_suffix text
    split
    · next cause rest isRead =>
      rw [isRead] at suffix
      exact suffix
    · next value rest isRead =>
      rw [isRead] at suffix
      exact suffix
  · split
    · exact List.nil_suffix
    · next value rest isRead => exact Quoted.read_suffix isRead

theorem quotedName_suffix (text : List Char) : (quotedName text).rest <:+ text := by
  unfold quotedName
  split
  · exact List.nil_suffix
  · next name rest isRead =>
    have suffix := Quoted.read_suffix isRead
    split <;> exact suffix

/-- A word goes on with what it may begin with. -/
theorem isWordRest_of_isWordStart {c : Char} (start : isWordStart c = true) :
    isWordRest c = true := by
  simp only [isWordStart, Bool.or_eq_true] at start
  rcases start with letter | underscore
  · simp [isWordRest, letter]
  · simp [isWordRest, underscore]

/-- A word takes its first character. -/
theorem word_suffix {c : Char} (start : isWordStart c = true) (text : List Char) :
    (word (c :: text)).rest <:+ text := by
  simp only [word, List.dropWhile_cons, isWordRest_of_isWordStart start, ↓reduceIte]
  exact List.dropWhile_suffix _

/-- A numeral takes its first character. -/
theorem number_suffix {c : Char} {text : List Char}
    (starts : c.isDigit = true ∨ c = '.' ∧ text.head?.any Char.isDigit = true) :
    (number (c :: text)).rest <:+ text := by
  have rest (whole : Nat) (fraction : Nat) (exponent : Nat) (some : 0 < whole + fraction) :
      (((c :: text).drop whole).drop fraction).drop exponent <:+ text := by
    rw [List.drop_drop, List.drop_drop]
    obtain ⟨count, isCount⟩ : ∃ count, whole + (fraction + exponent) = count + 1 :=
      ⟨whole + (fraction + exponent) - 1, by omega⟩
    rw [isCount, List.drop_succ_cons]
    exact List.drop_suffix _ _
  have taken : 0 < ((c :: text).takeWhile Char.isDigit).length +
      (fractionPart ((c :: text).drop ((c :: text).takeWhile Char.isDigit).length)).length := by
    rcases starts with digit | ⟨rfl, digit⟩
    · simp only [List.takeWhile_cons, digit, ↓reduceIte, List.length_cons]
      omega
    · cases text with
      | nil => cases digit
      | cons d text =>
        have isDigit : d.isDigit = true := by simpa using digit
        have noDigit : ('.' : Char).isDigit = false := by decide
        simp [noDigit, fractionPart, isDigit]
  unfold number
  simp only
  split <;> exact rest _ _ _ taken

theorem sign_suffix (c : Char) (text : List Char) : (sign c text).rest <:+ text := by
  unfold sign
  split
  · split
    · exact List.drop_suffix _ _
    · exact List.suffix_refl _
  · exact List.suffix_refl _

/-- A token takes the character that it begins with, and leaves an end of the text. -/
theorem token_suffix (c : Char) (text : List Char) : (token c text).rest <:+ text := by
  unfold token
  simp only
  split
  · exact string_suffix _ _ _
  split
  · exact quotedName_suffix _
  split
  · exact (string_suffix _ _ _).trans (List.drop_suffix _ _)
  split
  · next digit => exact number_suffix (.inl digit)
  split
  · next point => exact number_suffix (.inr point)
  split
  · next start => exact word_suffix start text
  · exact sign_suffix c text

/-! ## The end of input is no token -/

theorem stringKind_ne_end (kind : StringKind) (value : List Char) :
    stringKind kind value ≠ .ok .endOfInput := by
  unfold stringKind
  repeat' split
  all_goals simp

theorem string_ne_end (kind : StringKind) (escapes : Bool) (text : List Char) :
    (string kind escapes text).found ≠ .ok .endOfInput := by
  unfold string
  repeat' split
  all_goals first
    | exact stringKind_ne_end _ _
    | simp

theorem number_ne_end (text : List Char) : (number text).found ≠ .ok .endOfInput := by
  unfold number integerKind floatKind
  simp only
  repeat' split
  all_goals simp

/-- No scanner gives the end of input. -/
theorem token_ne_end (c : Char) (text : List Char) : (token c text).found ≠ .ok .endOfInput := by
  unfold token
  simp only
  split
  · exact string_ne_end _ _ _
  split
  · unfold quotedName
    repeat' split
    all_goals simp
  split
  · exact string_ne_end _ _ _
  split
  · exact number_ne_end _
  split
  · exact number_ne_end _
  split
  · unfold word wordKind
    simp only
    split <;> simp
  · unfold sign
    split <;> simp

/-! ## Texts that split into tokens -/

/-- The text is made of tokens of the kinds, in this order, with blanks and comments before,
between and after them. -/
inductive Splits : List Char → List Kind → Prop
  | done {text : List Char} (skipped : skip text = .ok []) : Splits text []
  | token {text rest after : List Char} {c : Char} {kind : Kind} {kinds : List Kind}
    (skipped : skip text = .ok (c :: rest)) (scanned : Scan.token c rest = ⟨.ok kind, after⟩)
    (others : Splits after kinds) : Splits text (kind :: kinds)

/-- What is skipped at the beginning of a text does not matter to its tokens. -/
theorem Splits.of_skip {text other : List Char} {kinds : List Kind} (splits : Splits text kinds)
    (same : skip other = skip text) : Splits other kinds := by
  cases splits with
  | done skipped => exact .done (same.trans skipped)
  | token skipped scanned others => exact .token (same.trans skipped) scanned others

end Scan

namespace Lexer

open Scan (Splits)

theorem next_done (lexer : Lexer) (skipped : Scan.skip lexer.rest = .ok []) :
    ∃ span after, lexer.next = (.ok ⟨.endOfInput, span⟩, after) := by
  unfold next
  simp only [skipped, moveTo]
  exact ⟨_, _, rfl⟩

theorem next_token (lexer : Lexer) {c : Char} {rest after : List Char} {kind : Kind}
    (skipped : Scan.skip lexer.rest = .ok (c :: rest))
    (scanned : Scan.token c rest = ⟨.ok kind, after⟩) :
    ∃ span next, lexer.next = (.ok ⟨kind, span⟩, next) ∧ next.rest = after := by
  unfold next
  simp only [skipped, moveTo, scanned]
  exact ⟨_, _, rfl, rfl⟩

theorem take_of_splits {text : List Char} {kinds : List Kind} (splits : Splits text kinds)
    (lexer : Lexer) (stands : lexer.rest = text) (count : Nat) (enough : text.length < count) :
    (lexer.take count).1.tokens.map Token.kind = kinds ++ [.endOfInput] ∧
      (lexer.take count).1.failure = none := by
  -- each token takes a character at least, so that the calls suffice
  induction splits generalizing lexer count with
  | @done text skipped =>
    obtain ⟨more, rfl⟩ : ∃ more, count = more + 1 := ⟨count - 1, by omega⟩
    obtain ⟨span, after, next⟩ := next_done lexer (by rw [stands]; exact skipped)
    simp [take, next]
  | @token text rest after c kind kinds skipped scanned others ih =>
    obtain ⟨more, rfl⟩ : ∃ more, count = more + 1 := ⟨count - 1, by omega⟩
    obtain ⟨span, following, next, rfl⟩ :=
      next_token lexer (by rw [stands]; exact skipped) scanned
    have shorter := (Scan.skip_suffix skipped).length_le
    have consumed := (Scan.token_suffix c rest).length_le
    simp only [scanned] at consumed
    simp only [List.length_cons] at shorter
    have notEnd : kind ≠ .endOfInput := by
      have found := Scan.token_ne_end c rest
      rw [scanned] at found
      simpa using found
    obtain ⟨tokens, failure⟩ := ih following rfl more (by omega)
    simp [take, next, notEnd, tokens, failure]

/-- A text that splits has a stream of just these tokens. -/
theorem stream_of_splits {text : String} {kinds : List Kind} (splits : Splits text.toList kinds) :
    (ofText text).stream.tokens.map Token.kind = kinds ++ [.endOfInput] ∧
      (ofText text).stream.failure = none :=
  take_of_splits splits (ofText text) rfl _ (Nat.lt_succ_self _)

theorem splits_of_take (lexer : Lexer) (count : Nat) (enough : lexer.rest.length < count)
    (complete : (lexer.take count).1.failure = none) : ∃ kinds, Splits lexer.rest kinds := by
  induction count generalizing lexer with
  | zero => exact absurd enough (Nat.not_lt_zero _)
  | succ count ih =>
    -- a complaint in a gap or in a token would have been recorded
    cases skipped : Scan.skip lexer.rest with
    | error opening => simp [take, next, skipped] at complete
    | ok rest =>
      cases rest with
      | nil => exact ⟨[], .done skipped⟩
      | cons c rest =>
        cases scanned : Scan.token c rest with
        | mk found after =>
          cases found with
          | error cause => simp [take, next, skipped, moveTo, scanned] at complete
          | ok kind =>
            obtain ⟨span, following, isNext, rfl⟩ := next_token lexer skipped scanned
            have shorter := (Scan.skip_suffix skipped).length_le
            have consumed := (Scan.token_suffix c rest).length_le
            have notEnd : kind ≠ .endOfInput := by
              have found := Scan.token_ne_end c rest
              rw [scanned] at found
              simpa using found
            rw [scanned] at consumed
            rw [List.length_cons] at shorter
            simp only [take, isNext, notEnd, ↓reduceIte] at complete
            obtain ⟨kinds, others⟩ := ih following (by dsimp only at consumed; omega) complete
            exact ⟨kind :: kinds, .token skipped scanned others⟩

/-- A text whose stream is complete splits into tokens. -/
theorem splits_of_stream {text : String} (complete : (ofText text).stream.failure = none) :
    ∃ kinds, Splits text.toList kinds :=
  splits_of_take (ofText text) _ (Nat.lt_succ_self _) complete

end Lexer

end CanonicalSql
