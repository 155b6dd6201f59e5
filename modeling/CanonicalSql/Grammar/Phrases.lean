import CanonicalSql.Grammar.Basic
import CanonicalSql.Tree.Expr

/-!
# Recursive phrases

The rules of the grammar that refer back to themselves are gathered in one record, and
every other rule takes the record as a parameter. Tying the knot is then a matter of
handing each rule the record of the level below, and what holds of all levels is shown
rule by rule.
-/
namespace CanonicalSql

/-- The rules that other rules refer back to. -/
structure Phrases where
  /-- An expression made of operators that bind at least as tightly as the power. -/
  operand : Nat → Parse Expr
  /-- A query with all its clauses. -/
  query : Parse Query
  /-- Set operations after a first operand, of the power at least. -/
  setOperations : Rel → Nat → Parse Rel
  /-- A table, or what stands in parentheses in its place, with its alias. -/
  tablePrimary : Parse Rel
  /-- Joins after a first relation. -/
  joins : Rel → Parse Rel
  /-- An element of `GROUP BY`. -/
  groupingElement : Parse Expr

namespace Phrases

/-- The rules below the last level, which read nothing. -/
def exhausted : Phrases where
  operand _ := throw .exhausted
  query := throw .exhausted
  setOperations _ _ := throw .exhausted
  tablePrimary := throw .exhausted
  joins _ := throw .exhausted
  groupingElement := throw .exhausted

/-- An expression, one level deeper. -/
def expression (phrases : Phrases) : Parse Expr :=
  .nested (phrases.operand 0)

/-- One or more expressions between commas. -/
def expressions (phrases : Phrases) : Parse (List Expr) :=
  .commaSeparated phrases.expression

/-- The expression after a keyword, or nothing. -/
def optionalClause (phrases : Phrases) (word : Keyword) : Parse (Option Expr) := do
  if ← .takeWord word then return some (← phrases.expression) else return none

end Phrases

end CanonicalSql
