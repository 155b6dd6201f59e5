import CanonicalSql.Proofs.Formed
import CanonicalSql.Token.Lexer
import Mathlib

/-!
# What the lexer gives

Every token of a text holds something that can be written: a name of at least one
character, an integer within the range of literals, a finite number without a sign, a
string of the digits that its letter announces. The scanners are looked at one by one, and
`Lexer.stream_lexical` says it of all tokens of a text.
-/
namespace CanonicalSql

/-- A token that a scanner can give. -/
inductive Kind.Lexical : Kind → Prop
  | integer {value : Int} (nonnegative : 0 ≤ value) (bounded : value ≤ Scan.maxInteger) :
    Lexical (.integer value)
  | float {value : Binary64} (finite : value.isFinite = true)
    (unsigned : value.isNegative = false) : Lexical (.float value)
  | string {value : String} {kind : StringKind} (holds : kind.Holds value) :
    Lexical (.string value kind)
  | identifier {name : Name} (proper : name.Proper) : Lexical (.identifier name)
  | keyword (word : Keyword) : Lexical (.keyword word)
  | symbol (sign : Symbol) : Lexical (.symbol sign)
  | endOfInput : Lexical .endOfInput

namespace Unicode

theorem lowerChar_ne_nil (c : Char) : lowerChar c ≠ [] := by
  unfold lowerChar
  split <;> simp

theorem lowerAfter_ne_nil (before : List Char) {text : List Char} (nonempty : text ≠ []) :
    lowerAfter before text ≠ [] := by
  cases text with
  | nil => exact absurd rfl nonempty
  | cons c rest =>
    simp only [lowerAfter]
    split
    · simp
    · simp [lowerChar_ne_nil]

/-- Lower-casing keeps a text from being empty. -/
theorem lowerCase_ne_empty {text : String} (nonempty : text ≠ "") : lowerCase text ≠ "" := by
  have chars : text.toList ≠ [] := fun none => nonempty (String.toList_eq_nil_iff.mp none)
  intro none
  exact lowerAfter_ne_nil [] chars (by simpa [lowerCase] using congrArg String.toList none)

end Unicode

theorem Keyword.spelling_ne_empty (word : Keyword) : word.spelling ≠ "" := by
  cases word <;> simp [Keyword.spelling]

theorem Keyword.lowerSpelling_ne_empty (word : Keyword) : word.lowerSpelling ≠ "" := by
  simpa [Keyword.lowerSpelling] using word.spelling_ne_empty

/-- The name that a token of the lexer stands for can be written. -/
theorem Kind.Lexical.proper {kind : Kind} (lexical : kind.Lexical) {name : Name}
    (stands : kind.name? = some name) : name.Proper := by
  cases lexical with
  | identifier proper =>
    simp only [Kind.name?, Option.some.injEq] at stands
    rwa [← stands]
  | keyword word =>
    simp only [Kind.name?] at stands
    split at stands
    · cases stands
    · simp only [Option.some.injEq] at stands
      rw [← stands]
      exact word.lowerSpelling_ne_empty
  | integer | float | string | symbol | endOfInput => cases stands

namespace Binary64

theorem isNegative_ofMagnitude {word : Nat} (bounded : word < signBit) :
    (ofMagnitude false word).isNegative = false := by
  have small : word < 2 ^ 64 := by unfold signBit at bounded; omega
  have word : (UInt64.ofNat word).toNat = word := by
    rw [UInt64.toNat_ofNat', Nat.mod_eq_of_lt small]
  simp [ofMagnitude, isNegative, word, bounded]

/-- A numeral without a sign is no negative number. -/
theorem isNegative_ofDecimal (digits : Nat) (exponent : Int) :
    (ofDecimal false digits exponent).isNegative = false := by
  have bounded : min (nearestDecimal digits exponent) infinityWord < signBit :=
    Nat.lt_of_le_of_lt (Nat.min_le_right _ _) (by decide)
  rw [ofDecimal, isNegative_ofMagnitude bounded]

theorem isNegative_of_ofNumeral? {text : List Char} {value : Binary64}
    (read : ofNumeral? false text = some value) : value.isNegative = false := by
  have read' : ∃ digits exponent, ofDecimal false digits exponent = value := by
    simp only [ofNumeral?] at read
    split at read
    all_goals
      split at read
      · simp at read
      · split at read
        · simp only [Option.some.injEq] at read
          exact ⟨_, _, read⟩
        · split at read
          · obtain ⟨exponent, -, same⟩ := Option.map_eq_some_iff.mp read
            exact ⟨_, _, same⟩
          · simp at read
  obtain ⟨digits, exponent, rfl⟩ := read'
  exact isNegative_ofDecimal digits exponent

end Binary64

namespace Scan

theorem wordKind_lexical {word : String} (nonempty : word ≠ "") :
    (wordKind word).Lexical := by
  unfold wordKind
  split
  · exact .keyword _
  · exact .identifier (Unicode.lowerCase_ne_empty nonempty)

theorem word_lexical {c : Char} (start : isWordStart c = true) (text : List Char) :
    ∀ kind, (word (c :: text)).found = .ok kind → kind.Lexical := by
  rintro kind found
  simp only [word, Except.ok.injEq] at found
  subst found
  have goesOn : isWordRest c = true := by
    simp only [isWordStart, Bool.or_eq_true] at start
    rcases start with letter | underscore
    · simp [isWordRest, letter]
    · simp [isWordRest, underscore]
  have nonempty : String.ofList ((c :: text).takeWhile isWordRest) ≠ "" := by simp [goesOn]
  exact wordKind_lexical nonempty

theorem quotedName_lexical (text : List Char) :
    ∀ kind, (quotedName text).found = .ok kind → kind.Lexical := by
  intro kind found
  unfold quotedName at found
  split at found
  · simp at found
  · split at found
    · simp at found
    · next name _ _ nonempty =>
      simp only [Except.ok.injEq] at found
      subst found
      exact .identifier (by simpa [Name.Proper] using nonempty)

theorem integerKind_lexical (digits : List Char) :
    ∀ kind, integerKind digits = .ok kind → kind.Lexical := by
  intro kind found
  simp only [integerKind] at found
  split at found
  · next bounded =>
    simp only [Except.ok.injEq] at found
    subst found
    exact .integer (Int.natCast_nonneg _) (by exact_mod_cast bounded)
  · simp at found

theorem floatKind_lexical (numeral : List Char) :
    ∀ kind, floatKind numeral = .ok kind → kind.Lexical := by
  intro kind found
  unfold floatKind at found
  split at found
  · simp at found
  · next value read =>
    split at found
    · next finite =>
      simp only [Except.ok.injEq] at found
      subst found
      exact .float finite (Binary64.isNegative_of_ofNumeral? read)
    · simp at found

theorem number_lexical (text : List Char) :
    ∀ kind, (number text).found = .ok kind → kind.Lexical := by
  intro kind found
  simp only [number] at found
  split at found
  · exact integerKind_lexical _ kind found
  · exact floatKind_lexical _ kind found

theorem stringKind_lexical (kind : StringKind) (value : List Char) :
    ∀ found, stringKind kind value = .ok found → found.Lexical := by
  intro found given
  unfold stringKind at given
  split at given
  · split at given
    · next digits =>
      simp only [Except.ok.injEq] at given
      subst given
      exact .string (by simpa [StringKind.Holds] using digits)
    · simp at given
  · split at given
    · next digits =>
      simp only [Except.ok.injEq] at given
      subst given
      exact .string (by simpa [StringKind.Holds] using digits)
    · simp at given
  · next notBit notHex =>
    simp only [Except.ok.injEq] at given
    subst given
    cases kind with
    | bit => exact absurd rfl notBit
    | hex => exact absurd rfl notHex
    | char | national => exact .string trivial

theorem string_lexical (kind : StringKind) (escapes : Bool) (text : List Char) :
    ∀ found, (string kind escapes text).found = .ok found → found.Lexical := by
  intro found given
  unfold string at given
  split at given
  · split at given
    · simp at given
    · exact stringKind_lexical kind _ found given
  · split at given
    · simp at given
    · exact stringKind_lexical kind _ found given

theorem sign_lexical (c : Char) (text : List Char) :
    ∀ kind, (sign c text).found = .ok kind → kind.Lexical := by
  intro kind found
  unfold sign at found
  split at found
  · simp only [Except.ok.injEq] at found
    subst found
    exact .symbol _
  · simp at found

/-- Whatever token a text begins with can be written. -/
theorem token_lexical (c : Char) (text : List Char) :
    ∀ kind, (token c text).found = .ok kind → kind.Lexical := by
  unfold token
  simp only
  split
  · exact string_lexical .char false text
  split
  · exact quotedName_lexical text
  split
  · exact string_lexical _ _ _
  split
  · exact number_lexical _
  split
  · exact number_lexical _
  split
  · next start => exact word_lexical start text
  · exact sign_lexical c text

end Scan

namespace Lexer

theorem next_lexical (lexer : Lexer) {token : Token} {after : Lexer}
    (given : lexer.next = (.ok token, after)) : token.kind.Lexical := by
  unfold next at given
  split at given
  · simp at given
  · simp only at given
    split at given
    · simp only [Prod.mk.injEq, Except.ok.injEq] at given
      rw [← given.1]
      exact .endOfInput
    · next c text _ =>
      split at given
      · next kind found =>
        simp only [Prod.mk.injEq, Except.ok.injEq] at given
        rw [← given.1]
        exact Scan.token_lexical c text kind found
      · simp at given

theorem take_lexical (count : Nat) (lexer : Lexer) :
    ∀ token ∈ (lexer.take count).1.tokens, token.kind.Lexical := by
  induction count generalizing lexer with
  | zero => simp [take]
  | succ count ih =>
    unfold take
    split
    · simp
    · next token after given =>
      split
      · intro it member
        simp only [List.mem_singleton] at member
        subst member
        exact next_lexical lexer given
      · intro it member
        simp only [List.mem_cons] at member
        rcases member with rfl | member
        · exact next_lexical lexer given
        · exact ih after it member

/-- All tokens of a text can be written. -/
theorem stream_lexical (lexer : Lexer) :
    ∀ token ∈ lexer.stream.tokens, token.kind.Lexical :=
  take_lexical _ lexer

end Lexer

end CanonicalSql
