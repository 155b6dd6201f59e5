import CanonicalSql.Token.Scan

/-!
# Strings with escapes

Most characters have several spellings in a string with escapes, so that the spellings of a text
are a relation (`Spells`). The reader takes these, closed by a quote, and no others
(`Scan.readEscaped_eq_ok_iff`).
-/
namespace CanonicalSql

/-- The letters that may stand behind a backslash, each with the character meant. -/
def backslashed : List (Char × Char) :=
  [('n', '\n'), ('t', '\t'), ('r', '\r'), ('b', '\x08'), ('f', '\x0c'), ('\\', '\\'),
    ('\'', '\'')]

/-- How one character may be spelled in a string with escapes. Neither a quote nor a backslash
stands for itself there: the one would end the string, the other begin an escape. -/
inductive SpellsChar : Char → List Char → Prop
  | raw {c : Char} (noQuote : c ≠ '\'') (noBackslash : c ≠ '\\') : SpellsChar c [c]
  | doubled : SpellsChar '\'' ['\'', '\'']
  | backslashed {letter c : Char} (means : (letter, c) ∈ backslashed) :
    SpellsChar c ['\\', letter]

/-- How a text may be spelled in a string with escapes, character by character. -/
inductive Spells : List Char → List Char → Prop
  | nil : Spells [] []
  | cons {c : Char} {shape text written : List Char} (first : SpellsChar c shape)
    (others : Spells text written) : Spells (c :: text) (shape ++ written)

namespace Scan

theorem escaped?_eq_some_iff {letter c : Char} :
    escaped? letter = some c ↔ (letter, c) ∈ backslashed := by
  constructor
  · intro meant
    unfold escaped? at meant
    split at meant
    all_goals first
      | cases meant
        decide
      | cases meant
  · intro means
    simp only [backslashed, List.mem_cons, Prod.mk.injEq, List.not_mem_nil, or_false] at means
    rcases means with ⟨rfl, rfl⟩ | ⟨rfl, rfl⟩ | ⟨rfl, rfl⟩ | ⟨rfl, rfl⟩ | ⟨rfl, rfl⟩ | ⟨rfl, rfl⟩ |
      ⟨rfl, rfl⟩
    all_goals rfl

/-- A character of a spelling is read as the character it spells, and reading goes on. -/
theorem readEscaped_append {c : Char} {shape : List Char} (spells : SpellsChar c shape)
    (rest : List Char) :
    readEscaped (shape ++ rest) =
      (readEscaped rest).map fun (text, after) => (c :: text, after) := by
  cases spells with
  | raw noQuote noBackslash =>
    show readEscaped (c :: rest) = _
    rw [readEscaped]
    · rintro more rfl
      exact absurd rfl noQuote
    · rintro rfl
      exact absurd rfl noQuote
    · rintro rfl
      exact absurd rfl noBackslash
    · rintro d more rfl
      exact absurd rfl noBackslash
  | doubled =>
    show readEscaped ('\'' :: '\'' :: rest) = _
    rw [readEscaped]
  | @backslashed letter _ means =>
    show readEscaped ('\\' :: letter :: rest) = _
    rw [readEscaped, escaped?_eq_some_iff.mpr means]

/-- The closing quote ends the string, unless it is the first one of a doubled quote. -/
theorem readEscaped_end {rest : List Char} (noQuote : rest.head? ≠ some '\'') :
    readEscaped ('\'' :: rest) = .ok ([], rest) := by
  rw [readEscaped]
  rintro more rfl
  exact noQuote rfl

/-- A spelling is read as what it spells, up to the closing quote. -/
theorem readEscaped_of_spells {text written rest : List Char} (spells : Spells text written)
    (noQuote : rest.head? ≠ some '\'') :
    readEscaped (written ++ '\'' :: rest) = .ok (text, rest) := by
  induction spells with
  | nil => exact readEscaped_end noQuote
  | cons first others ih =>
    rw [List.append_assoc, readEscaped_append first, ih]
    rfl

/-- The input is a spelling of the text, the quote that closes it, and the rest. -/
def SpelledBefore (text rest input : List Char) : Prop :=
  ∃ written, Spells text written ∧ input = written ++ '\'' :: rest ∧ rest.head? ≠ some '\''

/-- One character more in front of what is a spelling as far as it is read. -/
theorem SpelledBefore.cons {c : Char} {shape input text rest : List Char}
    (first : SpellsChar c shape)
    (others : ∀ {text rest : List Char}, readEscaped input = .ok (text, rest) →
      SpelledBefore text rest input)
    (isRead : readEscaped (shape ++ input) = .ok (text, rest)) :
    SpelledBefore text rest (shape ++ input) := by
  rw [readEscaped_append first] at isRead
  cases found : readEscaped input with
  | error cause =>
    rw [found] at isRead
    cases isRead
  | ok pair =>
    rw [found] at isRead
    cases isRead
    obtain ⟨written, spells, rfl, noQuote⟩ := others found
    exact ⟨shape ++ written, .cons first spells, (List.append_assoc ..).symm, noQuote⟩

/-- Whatever is read in a string with escapes is a spelling of the result. -/
theorem spelledBefore_of_readEscaped {input text rest : List Char}
    (isRead : readEscaped input = .ok (text, rest)) : SpelledBefore text rest input := by
  induction input using readEscaped.induct generalizing text rest with
  | case1 => cases isRead
  | case2 more ih => exact SpelledBefore.cons .doubled ih isRead
  | case3 more single =>
    have noQuote : more.head? ≠ some '\'' := by
      intro isQuote
      obtain ⟨_, rfl⟩ := List.head?_eq_some_iff.mp isQuote
      exact single _ rfl
    rw [readEscaped_end noQuote] at isRead
    cases isRead
    exact ⟨[], .nil, rfl, noQuote⟩
  | case4 => cases isRead
  | case5 letter more c means ih =>
    have first := SpellsChar.backslashed (escaped?_eq_some_iff.mp means)
    exact SpelledBefore.cons first ih isRead
  | case6 letter more unknown =>
    rw [readEscaped, unknown] at isRead
    cases isRead
  | case7 c more noDoubled noQuote noLone noEscape ih =>
    have noBackslash : c ≠ '\\' := by
      rintro rfl
      cases more with
      | nil => exact noLone rfl rfl
      | cons d more => exact noEscape d more rfl rfl
    exact SpelledBefore.cons (.raw noQuote noBackslash) ih isRead

/-- A string with escapes is read as a text just if a spelling of the text stands before the
closing quote. -/
theorem readEscaped_eq_ok_iff {input text rest : List Char} :
    readEscaped input = .ok (text, rest) ↔ SpelledBefore text rest input := by
  constructor
  · exact spelledBefore_of_readEscaped
  · rintro ⟨written, spells, rfl, noQuote⟩
    exact readEscaped_of_spells spells noQuote

end Scan
end CanonicalSql
