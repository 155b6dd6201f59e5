import CanonicalSql.Token.Kind

/-!
# Pieces of canonical text

Canonical SQL is laid out as a row of tokens with single spaces between some of them. The
layout is a list of pieces, from which both the text and the tokens can be read off.
-/
namespace CanonicalSql

/-- A token, or a space between two tokens. -/
inductive Piece
  | space
  | token (kind : Kind)
deriving DecidableEq, Repr, Inhabited

namespace Piece

/-- The text of a piece. -/
def text : Piece → String
  | .space => " "
  | .token kind => kind.spelling

/-- The text of a row of pieces. -/
def render (pieces : List Piece) : String :=
  String.join (pieces.map text)

theorem render_append (first second : List Piece) :
    render (first ++ second) = render first ++ render second := by
  simp [render]

/-- The tokens in a row of pieces. -/
def kinds (pieces : List Piece) : List Kind :=
  pieces.filterMap fun
    | .space => none
    | .token kind => some kind

theorem kinds_append (first second : List Piece) :
    kinds (first ++ second) = kinds first ++ kinds second := by
  simp [kinds]

/-- A keyword. -/
def word (keyword : Keyword) : Piece := .token (.keyword keyword)

/-- A sign. -/
def sign (symbol : Symbol) : Piece := .token (.symbol symbol)

/-- A name. -/
def name (name : Name) : Piece := .token (.identifier name)

/-- An integer. -/
def number (value : Nat) : Piece := .token (.integer value)

/-- Keywords with spaces between them. -/
def words (keywords : List Keyword) : List Piece :=
  (keywords.map word).intersperse .space

/-- Rows of pieces with spaces between them. -/
def spaced : List (List Piece) → List Piece
  | [] => []
  | [row] => row
  | row :: rest => row ++ .space :: spaced rest

/-- Rows of pieces with commas between them. -/
def commaSeparated : List (List Piece) → List Piece
  | [] => []
  | [row] => row
  | row :: rest => row ++ sign .comma :: .space :: commaSeparated rest

/-- A row of pieces between parentheses. -/
def parenthesized (row : List Piece) : List Piece :=
  sign .leftParen :: (row ++ [sign .rightParen])

/-- A row of pieces after a space. -/
def after (row : List Piece) : List Piece := .space :: row

/-- A qualified name. -/
def qualified (name : QualifiedName) : List Piece :=
  (name.parts.map Piece.name).intersperse (sign .dot)

/-- A list of names between parentheses. -/
def names (names : List Name) : List Piece :=
  parenthesized (commaSeparated (names.map fun name => [Piece.name name]))

end Piece

end CanonicalSql
