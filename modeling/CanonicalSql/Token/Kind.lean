import CanonicalSql.Binary64.Format
import CanonicalSql.Name
import CanonicalSql.Span

/-!
# Tokens

The kinds of token and their two texts: the description that messages give, and the
spelling in canonical SQL.
-/
namespace CanonicalSql

/-- The type of a string literal, told by the letter in front of it. -/
inductive StringKind
  /-- A row of binary digits, `B'0101'`. -/
  | bit
  /-- Characters, `'text'` or with escapes `E'text'`. -/
  | char
  /-- A row of hexadecimal digits, `X'1F'`. -/
  | hex
  /-- Characters of the national set, `N'text'`. -/
  | national
deriving DecidableEq, Repr, Inhabited

/-- The letter in front of a canonical literal of the kind. -/
def StringKind.letter : StringKind → String
  | .bit => "B"
  | .char => ""
  | .hex => "X"
  | .national => "N"

/-- An operator sign or a delimiter. -/
inductive Symbol
  | plus | minus | star | slash
  | equal | notEqual | less | lessEqual | greater | greaterEqual
  | concat
  | leftParen | rightParen | leftBracket | rightBracket
  | comma | semicolon | dot
deriving DecidableEq, Repr, Inhabited

/-- The canonical spelling. -/
def Symbol.spelling : Symbol → String
  | .plus => "+"
  | .minus => "-"
  | .star => "*"
  | .slash => "/"
  | .equal => "="
  | .notEqual => "<>"
  | .less => "<"
  | .lessEqual => "<="
  | .greater => ">"
  | .greaterEqual => ">="
  | .concat => "||"
  | .leftParen => "("
  | .rightParen => ")"
  | .leftBracket => "["
  | .rightBracket => "]"
  | .comma => ","
  | .semicolon => ";"
  | .dot => "."

/-- What a token is, wherever it stands. -/
inductive Kind
  | integer (value : Int)
  | float (value : Binary64)
  | string (value : String) (kind : StringKind)
  /-- A name, in small letters unless it was quoted. -/
  | identifier (name : Name)
  | keyword (word : Keyword)
  | symbol (sign : Symbol)
  | endOfInput
deriving DecidableEq, Repr, Inhabited

namespace Kind

/-- How messages describe the token. -/
def description : Kind → String
  | .integer value => "integer " ++ toString value
  | .float value => "float " ++ Binary64.plainFormat.text value
  | .string value kind => "string " ++ kind.letter ++ "'" ++ value ++ "'"
  | .identifier name => "identifier \"" ++ name ++ "\""
  | .keyword word => "keyword " ++ word.spelling
  | .symbol sign => "'" ++ sign.spelling ++ "'"
  | .endOfInput => "end of input"

/-- How canonical SQL spells the token. -/
def spelling : Kind → String
  | .integer value => toString value
  | .float value => Binary64.sqlFormat.text value
  | .string value kind => kind.letter ++ String.ofList (Quoted.enclose '\'' value.toList)
  | .identifier name => name.sql
  | .keyword word => word.spelling
  | .symbol sign => sign.spelling
  | .endOfInput => ""

/-- The name that the token can stand for: an identifier, or a keyword that is not
reserved. -/
def name? : Kind → Option Name
  | .identifier name => some name
  | .keyword word => if word.isReserved then none else some word.lowerSpelling
  | _ => none

/-- Whether the token is a name that was not spelled as a keyword. -/
def isIdentifier : Kind → Bool
  | .identifier _ => true
  | _ => false

end Kind

/-- A token at its place. -/
structure Token where
  kind : Kind
  span : Span
deriving DecidableEq, Repr, Inhabited

end CanonicalSql
