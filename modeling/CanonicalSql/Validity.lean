import CanonicalSql.Outline

/-!
# Rules beyond the grammar

The grammar reads an asterisk wherever it reads an expression. It has a meaning only as a
target of a projection and as the argument of `COUNT`, and there a quantifier in front of
it has none.
-/
namespace CanonicalSql

/-- The rule that is broken. -/
inductive ViolationKind
  | misplacedAsterisk
  | quantifiedAsterisk
deriving DecidableEq, Repr, Inhabited

/-- What the rule is called. -/
def ViolationKind.label : ViolationKind → String
  | .misplacedAsterisk => "MisplacedAsterisk"
  | .quantifiedAsterisk => "QuantifiedAsterisk"

/-- The message, without the place. -/
def ViolationKind.message : ViolationKind → String
  | .misplacedAsterisk =>
    "'*' is only allowed as a select target or as the argument of COUNT"
  | .quantifiedAsterisk => "a quantifier has no meaning on a '*' argument"

/-- A broken rule and where it is broken. -/
structure Violation where
  kind : ViolationKind
  span : Span
deriving DecidableEq, Repr, Inhabited

/-- The message with its place. -/
def Violation.text (violation : Violation) : String :=
  violation.kind.message ++ " at " ++ violation.span.text

namespace Outline

/-- The rules that a node breaks by itself. -/
def ownViolations : Node → (starAllowed : Bool) → List Violation
  | .expr (.asterisk _ span), false => [⟨.misplacedAsterisk, span⟩]
  | .expr (.aggregate _ (some _) argument _ span), _ =>
    if argument.isAsterisk then [⟨.quantifiedAsterisk, span⟩] else []
  | _, _ => []

mutual

/-- All broken rules, in the order of the nodes that break them. -/
def violations : Outline → List Violation
  | .node subject starAllowed below => ownViolations subject starAllowed ++ violationsAll below

/-- The broken rules of several outlines. -/
def violationsAll : List Outline → List Violation
  | [] => []
  | outline :: rest => outline.violations ++ violationsAll rest

end

end Outline

/-- The rules that a statement breaks. -/
def Statement.violations (statement : Statement) : List Violation :=
  (Outline.ofStatement statement).violations

end CanonicalSql
