import CanonicalSql.Token.Kind
import CanonicalSql.Tree.Choice

/-!
# Precedence

How tightly operators bind. An operator takes the expression on its left if its left
power is at least the power asked for there, and reads its right operand with its right
power. The right power is the greater one, so that operators of one tier group from the
left.

| left, right | operators |
|---|---|
| 1, 2 | `OR` |
| 3, 4 | `AND` |
| 5 | `NOT` in front |
| 7, 8 | comparisons, `IS`, `BETWEEN`, `IN`, `LIKE` |
| 9, 10 | concatenation |
| 11, 12 | `+`, `-` |
| 13, 14 | `*`, `/` |
| 15 | `-` in front |
| 17, 18 | `COLLATE` |
-/
namespace CanonicalSql

/-- How tightly an operator binds to its left and to its right. -/
structure Power where
  left : Nat
  right : Nat
deriving DecidableEq, Repr, Inhabited

namespace Power

/-- The tier of comparisons and predicates, which do not chain. -/
def comparison : Power := ⟨7, 8⟩

/-- The power of a token after an expression, if it goes on with the expression. `NOT`
goes on only in front of a predicate, which takes a look at the next token. -/
def ofKind? : Kind → Option Power
  | .keyword .OR => some ⟨1, 2⟩
  | .keyword .AND => some ⟨3, 4⟩
  | .symbol .equal | .symbol .notEqual | .symbol .less | .symbol .lessEqual
  | .symbol .greater | .symbol .greaterEqual
  | .keyword .IS | .keyword .BETWEEN | .keyword .IN | .keyword .LIKE => some comparison
  | .symbol .concat => some ⟨9, 10⟩
  | .symbol .plus | .symbol .minus => some ⟨11, 12⟩
  | .symbol .star | .symbol .slash => some ⟨13, 14⟩
  | .keyword .COLLATE => some ⟨17, 18⟩
  | _ => none

end Power

/-- The operator that a token is between two expressions. -/
def BinaryOp.ofKind? : Kind → Option BinaryOp
  | .keyword .OR => some .or
  | .keyword .AND => some .and
  | .symbol .plus => some .add
  | .symbol .minus => some .subtract
  | .symbol .star => some .multiply
  | .symbol .slash => some .divide
  | .symbol .equal => some .equal
  | .symbol .notEqual => some .notEqual
  | .symbol .less => some .less
  | .symbol .lessEqual => some .lessEqual
  | .symbol .greater => some .greater
  | .symbol .greaterEqual => some .greaterEqual
  | .symbol .concat => some .concat
  | _ => none

/-- The token that writes an operator between two expressions. -/
def BinaryOp.kind : BinaryOp → Kind
  | .or => .keyword .OR
  | .and => .keyword .AND
  | .add => .symbol .plus
  | .subtract => .symbol .minus
  | .multiply => .symbol .star
  | .divide => .symbol .slash
  | .less => .symbol .less
  | .lessEqual => .symbol .lessEqual
  | .greater => .symbol .greater
  | .greaterEqual => .symbol .greaterEqual
  | .equal => .symbol .equal
  | .notEqual => .symbol .notEqual
  | .concat => .symbol .concat

theorem BinaryOp.ofKind?_kind (op : BinaryOp) : BinaryOp.ofKind? op.kind = some op := by
  cases op <;> rfl

/-- The operator that a token is in front of an expression, and the power with which its
operand is read. -/
def UnaryOp.ofKind? : Kind → Option (UnaryOp × Nat)
  | .keyword .NOT => some (.not, 5)
  | .symbol .minus => some (.negate, 15)
  | _ => none

/-- The token that writes an operator in front of an expression. -/
def UnaryOp.kind : UnaryOp → Kind
  | .not => .keyword .NOT
  | .negate => .symbol .minus

/-- The set operator that a token is, and its power. `INTERSECT` binds tighter than the
other two. -/
def SetOperator.ofKind? : Kind → Option (SetOperator × Power)
  | .keyword .UNION => some (.union, ⟨1, 2⟩)
  | .keyword .EXCEPT => some (.except, ⟨1, 2⟩)
  | .keyword .INTERSECT => some (.intersect, ⟨3, 4⟩)
  | _ => none

end CanonicalSql
