import CanonicalSql.Keyword
import CanonicalSql.Token.Quoted

/-!
# Names

A name is any text. It is written bare if it would be read back as the same name: a word
of small ASCII letters, digits, underscores and dollar signs that is no keyword. Every
other name is written between double quotes. A qualified name has further names in front,
separated by dots.
-/
namespace CanonicalSql

/-- The name of a table, a column or another object. -/
abbrev Name := String

namespace Name

/-- Whether a plain name may begin with the character. -/
def isPlainStart (c : Char) : Bool := c.isLower || c == '_'

/-- Whether the character may stand within a plain name. -/
def isPlainRest (c : Char) : Bool := c.isLower || c.isDigit || c == '_' || c == '$'

/-- Whether the name may be written without quotes. -/
def isPlain (name : Name) : Bool :=
  match name.toList with
  | [] => false
  | c :: rest => isPlainStart c && rest.all isPlainRest && (Keyword.ofWord? name).isNone

/-- The name as it is written in SQL. -/
def sql (name : Name) : String :=
  if name.isPlain then name else String.ofList (Quoted.enclose '"' name.toList)

end Name

/-- A name with the names of what contains it in front, outermost first. -/
structure QualifiedName where
  qualifier : List Name := []
  name : Name := ""
deriving DecidableEq, Repr, Inhabited

namespace QualifiedName

/-- The qualified name with the given parts, of which the last is the name itself. -/
def ofParts (parts : List Name) : QualifiedName :=
  ⟨parts.dropLast, parts.getLastD ""⟩

/-- All parts, outermost first. -/
def parts (name : QualifiedName) : List Name := name.qualifier ++ [name.name]

/-- Whether anything stands in front of the name. -/
def isQualified (name : QualifiedName) : Bool := !name.qualifier.isEmpty

/-- The qualified name as it is written in SQL. -/
def sql (name : QualifiedName) : String :=
  ".".intercalate (name.parts.map Name.sql)

theorem ofParts_parts (name : QualifiedName) : ofParts name.parts = name := by
  simp [ofParts, parts]

theorem parts_ofParts {parts : List Name} (nonempty : parts ≠ []) :
    (ofParts parts).parts = parts := by
  simp [ofParts, QualifiedName.parts, List.getLastD_eq_getLast?,
    List.getLast?_eq_some_getLast nonempty, List.dropLast_concat_getLast]

end QualifiedName

end CanonicalSql
