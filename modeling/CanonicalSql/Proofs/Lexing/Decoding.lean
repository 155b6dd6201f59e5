import CanonicalSql.Proofs.Lexing.Escapes
import CanonicalSql.Proofs.Lexing.Spelling
import CanonicalSql.Token.Lexer

/-!
# Encoded names and strings are decoded

A name as it is written, a string between quotes, and every spelling of a string with escapes
stand for just the name or the string they were made from, whatever sets them off from what
follows (`Lexer.decodes_encoded`).
-/
namespace CanonicalSql

namespace Scan

/-- The text begins with a character that sets off what stands before it: a space, a dot, a
comma or a parenthesis. -/
def SetsOff (rest : List Char) : Prop :=
  ∃ c more, rest = c :: more ∧ c ∈ [' ', '.', ',', '(', ')']

/-- What sets off a name stops a word or is the dot of a qualified name. -/
theorem SetsOff.stopped {rest : List Char} (setsOff : SetsOff rest) :
    Stopped rest ∨ rest.head? = some '.' := by
  obtain ⟨c, more, rfl, member⟩ := setsOff
  have stops (stop : isStop c = true) : Stopped (c :: more) := by
    rintro d ⟨⟩
    exact stop
  simp only [List.mem_cons, List.not_mem_nil, or_false] at member
  rcases member with rfl | rfl | rfl | rfl | rfl
  · exact .inl (stops (by decide))
  · exact .inr rfl
  · exact .inl (stops (by decide))
  · exact .inl (stops (by decide))
  · exact .inl (stops (by decide))

theorem SetsOff.noQuote {rest : List Char} (setsOff : SetsOff rest) :
    rest.head? ≠ some '\'' := by
  obtain ⟨c, more, rfl, member⟩ := setsOff
  rintro ⟨⟩
  exact absurd member (by decide)

end Scan

/-- A string with escapes is scanned as what it spells. -/
theorem Kind.escaped_begins {value : String} {written rest : List Char}
    (spells : Spells value.toList written) (noQuote : rest.head? ≠ some '\'') :
    (Kind.string value .char).Begins ('E' :: '\'' :: (written ++ '\'' :: rest)) rest := by
  have scanned : Scan.string .char true (written ++ '\'' :: rest) =
      ⟨.ok (.string value .char), rest⟩ := by
    simp [Scan.string, Scan.readEscaped_of_spells spells noQuote, Scan.stringKind]
  exact .of_visible (by decide) (by decide) (by decide) scanned

namespace Lexer

/-- Wherever a lexer stands before the written text and the rest, its next token is of the kind,
covers all that is written and leaves the rest. -/
def Decodes (written : List Char) (kind : Kind) (rest : List Char) : Prop :=
  ∀ lexer : Lexer, lexer.rest = written ++ rest →
    lexer.next =
      (.ok ⟨kind, ⟨lexer.position, lexer.position.after written⟩⟩,
        ⟨lexer.input, rest, lexer.position.after written⟩)

theorem decodes_of_begins {written rest : List Char} {kind : Kind}
    (begins : kind.Begins (written ++ rest) rest) : Decodes written kind rest := by
  intro lexer stands
  obtain ⟨c, more, isText, skipped, scanned⟩ := begins
  rw [← stands] at isText skipped
  -- nothing is skipped, so the lexer does not move before the token
  have stays : lexer.moveTo (c :: more) = lexer := by
    simp [moveTo, placeOf, ← isText]
  have moves : lexer.moveTo rest = ⟨lexer.input, rest, lexer.position.after written⟩ := by
    simp [moveTo, placeOf, stands]
  unfold next
  rw [skipped]
  simp only [stays, isText, scanned]
  rw [moves]

/-- Names and strings are decoded to what was encoded, whatever sets them off from what follows:
a name as it is written, a string or a national string with its quotes doubled, and every spelling
of a string with escapes. -/
theorem decodes_encoded {rest : List Char} (setsOff : Scan.SetsOff rest) :
    (∀ name : Name, name ≠ "" → Decodes name.sql.toList (.identifier name) rest) ∧
    (∀ value : String,
      Decodes (Quoted.enclose '\'' value.toList) (.string value .char) rest ∧
      Decodes ('N' :: Quoted.enclose '\'' value.toList) (.string value .national) rest ∧
      ∀ written, Spells value.toList written →
        Decodes ('E' :: '\'' :: (written ++ ['\''])) (.string value .char) rest) := by
  have spelled {value : String} {kind : StringKind} (holds : kind.Holds value) :
      Decodes (Kind.string value kind).spelling.toList (.string value kind) rest :=
    decodes_of_begins (Kind.string_begins holds setsOff.noQuote)
  constructor
  · intro name nonempty
    exact decodes_of_begins (Kind.identifier_begins nonempty setsOff.stopped)
  intro value
  refine ⟨?char, ?national, ?escaped⟩
  case char =>
    have text : (Kind.string value .char).spelling.toList = Quoted.enclose '\'' value.toList := by
      simp [Kind.spelling, StringKind.letter]
    rw [← text]
    exact spelled trivial
  case national =>
    have text : (Kind.string value .national).spelling.toList =
        'N' :: Quoted.enclose '\'' value.toList := by
      simp [Kind.spelling, StringKind.letter]
    rw [← text]
    exact spelled trivial
  case escaped =>
    intro written spells
    apply decodes_of_begins
    have begins := Kind.escaped_begins spells setsOff.noQuote
    simpa using begins

/-- A keyword as a name and a text that ends in a quote and a backslash, in front of a dot. -/
theorem decodes_encoded_dot :
    Scan.SetsOff ['.', 'x'] ∧ Spells ['"', '\'', '\\'] ['"', '\\', '\'', '\\', '\\'] ∧
      Decodes "\"select\"".toList (.identifier "select") ['.', 'x'] ∧
      Decodes "N'\"''\\'".toList (.string "\"'\\" .national) ['.', 'x'] ∧
      Decodes "E'\"\\'\\\\'".toList (.string "\"'\\" .char) ['.', 'x'] := by
  have setsOff : Scan.SetsOff ['.', 'x'] := ⟨'.', ['x'], rfl, by decide⟩
  have spells : Spells ['"', '\'', '\\'] ['"', '\\', '\'', '\\', '\\'] := by
    have quote : ('\'', '\'') ∈ backslashed := by decide
    have backslash : ('\\', '\\') ∈ backslashed := by decide
    exact .cons (.raw (by decide) (by decide))
      (.cons (.backslashed quote) (.cons (.backslashed backslash) .nil))
  obtain ⟨names, strings⟩ := decodes_encoded setsOff
  obtain ⟨-, national, escaped⟩ := strings "\"'\\"
  have quoted : (Name.sql "select").toList = "\"select\"".toList := by decide +kernel
  exact ⟨setsOff, spells, quoted ▸ names "select" (by decide), national, escaped _ spells⟩

end Lexer
end CanonicalSql
