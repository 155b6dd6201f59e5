import CanonicalSql.Canonical.Statement
import CanonicalSql.Proofs.Lexing.Spelling

/-!
# Rows of pieces read back

A row of pieces is written out so that its tokens can be told apart: between two tokens
stands a space, or one of them is a parenthesis, a bracket or a comma, or a dot stands in a
qualified name (`Piece.Written`). Such a text splits into just the tokens of the row
(`Piece.splits_render`), and the rows of well-formed trees are of this sort
(`Statement.written`).
-/
namespace CanonicalSql

namespace Piece

/-- Whether the piece ends every token before it. -/
def isBreak : Piece → Bool
  | .space => true
  | .token kind => kind.isBracket

/-- Whether the token can be told from the piece after it. -/
def tells (kind : Kind) : Piece → Bool
  | .space => true
  | .token next =>
    kind.isBracket || next.isBracket ||
      kind.isIdentifier && decide (next = .symbol .dot) ||
      decide (kind = .symbol .dot) && (next.isIdentifier || decide (next = .symbol .star))

/-- The tokens of the row can be written and can be told apart. -/
def Written : List Piece → Prop
  | [] => True
  | .space :: rest => Written rest
  | .token kind :: rest =>
    (kind.Lexical ∧ kind ≠ .endOfInput) ∧ (∀ next ∈ rest.head?, tells kind next = true) ∧
      Written rest

/-! ## The text of a row -/

theorem render_cons (piece : Piece) (rest : List Piece) :
    (render (piece :: rest)).toList = piece.text.toList ++ (render rest).toList := by
  rw [← List.singleton_append, render_append, String.toList_append]
  simp [render]

/-- A bracket is one character, which ends what stands before it. -/
theorem spelling_of_isBracket {kind : Kind} (isBracket : kind.isBracket = true) :
    ∃ c, kind.spelling.toList = [c] ∧ Scan.isStop c = true := by
  unfold Kind.isBracket at isBracket
  split at isBracket
  · exact ⟨'(', rfl, by decide⟩
  · exact ⟨')', rfl, by decide⟩
  · exact ⟨'[', rfl, by decide⟩
  · exact ⟨']', rfl, by decide⟩
  · exact ⟨',', rfl, by decide⟩
  · cases isBracket

/-- A name begins with no digit. -/
theorem noDigit_sql {name : Name} (rest : List Char) : Kind.NoDigit (name.sql.toList ++ rest) := by
  rw [Name.sql]
  split
  · next plain =>
    obtain ⟨c, more, isName, start, -, -⟩ := Name.exists_of_isPlain plain
    rw [isName]
    rintro d ⟨⟩
    exact Scan.noDigit_of_isWordStart (Name.isWordStart_of_isPlainStart start)
  · rintro d member
    have isQuote : d = '"' := by simpa [Quoted.enclose, eq_comm] using member
    rw [isQuote]
    decide

/-- What stands after a token that can be told from it lets the token be read back. -/
theorem readBefore_of_tells {kind : Kind} {rest : List Piece}
    (told : ∀ next ∈ rest.head?, tells kind next = true) :
    kind.ReadBefore (render rest).toList := by
  -- a character that ends names and numerals lets every token be read back
  have stopped (stops : Scan.Stopped (render rest).toList) :
      kind.ReadBefore (render rest).toList := by
    unfold Kind.ReadBefore
    split
    · trivial
    · trivial
    · trivial
    · trivial
    · trivial
    · exact stops.noDigit
    · exact .inl stops
    · exact stops
  cases rest with
  | nil => exact stopped nofun
  | cons next rest =>
    have isTold := told next rfl
    rw [render_cons] at stopped ⊢
    cases next with
    | space =>
      refine stopped ?_
      rintro c ⟨⟩
      decide
    | token next =>
      simp only [tells, Bool.or_eq_true, Bool.and_eq_true, decide_eq_true_eq] at isTold
      -- the ways in which two tokens need no blank between them
      rcases isTold with ((isBracket | isBracket) | ⟨isName, rfl⟩) | ⟨rfl, isName | rfl⟩
      · unfold Kind.isBracket at isBracket
        split at isBracket
        all_goals first
          | exact trivial
          | cases isBracket
      · obtain ⟨c, isText, isStop⟩ := spelling_of_isBracket isBracket
        refine stopped ?_
        rw [Piece.text, isText]
        rintro d ⟨⟩
        exact isStop
      · cases kind with
        | identifier name => exact .inr rfl
        | _ => cases isName
      · cases next with
        | identifier name => exact noDigit_sql _
        | _ => cases isName
      · rintro c ⟨⟩
        decide

/-- The text of a row that can be told apart splits into the tokens of the row. -/
theorem splits_render {row : List Piece} (written : Written row) :
    Scan.Splits (render row).toList (kinds row) := by
  induction row with
  | nil => exact .done rfl
  | cons piece row ih =>
    rw [render_cons]
    cases piece with
    | space => exact (ih written).of_skip rfl
    | token kind =>
      obtain ⟨⟨lexical, notEnd⟩, told, others⟩ := written
      obtain ⟨c, more, text, skipped, scanned⟩ :=
        Kind.begins_spelling lexical notEnd (readBefore_of_tells told)
      exact .token skipped scanned (ih others)

end Piece

end CanonicalSql
