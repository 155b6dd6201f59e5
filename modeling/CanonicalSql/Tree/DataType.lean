import CanonicalSql.Name
import CanonicalSql.Tree.Choice

/-!
# Data types

The types of columns and of fields. Arrays, multisets and rows are built from other
types, to any depth.
-/
namespace CanonicalSql

/-- The length of a character string, such as `10` or `10 OCTETS`. -/
structure CharLength where
  length : Nat
  unit : Option CharUnit := none
deriving DecidableEq, Repr, Inhabited

/-- A data type. Lengths and precisions that are not written are absent. -/
inductive DataType
  | numeric (precision scale : Option Nat)
  | decimal (precision scale : Option Nat)
  | smallInt
  | integer
  | bigInt
  | float (precision : Option Nat)
  | real
  | doublePrecision
  | binary (length : Option Nat)
  | varBinary (length : Option Nat)
  | blob (length : Option Nat)
  | char (length : Option CharLength)
  | varChar (length : Option CharLength)
  | clob (length : Option CharLength)
  | nationalChar (length : Option CharLength)
  | nationalVarChar (length : Option CharLength)
  | nationalClob (length : Option CharLength)
  | boolean
  | date
  /-- The zone is absent if neither `WITH` nor `WITHOUT TIME ZONE` is written. -/
  | time (precision : Option Nat) (zone : Option Bool)
  | timestamp (precision : Option Nat) (zone : Option Bool)
  /-- A user-defined type or a domain. -/
  | named (name : QualifiedName)
  /-- A row of named fields. -/
  | row (fields : List (Name × DataType))
  /-- A reference to rows of a named type. -/
  | reference (target : QualifiedName) (scope : Option QualifiedName)
  | array (element : DataType) (maxCardinality : Option Nat)
  | multiset (element : DataType)
deriving Repr, Inhabited

namespace DataType

mutual

/-- Whether two types are the same. -/
def same : DataType → DataType → Bool
  | .row fields, .row fields' => sameFields fields fields'
  | .array element n, .array element' n' => element.same element' && n == n'
  | .multiset element, .multiset element' => element.same element'
  | .numeric p s, .numeric p' s' => p == p' && s == s'
  | .decimal p s, .decimal p' s' => p == p' && s == s'
  | .float p, .float p' => p == p'
  | .binary n, .binary n' => n == n'
  | .varBinary n, .varBinary n' => n == n'
  | .blob n, .blob n' => n == n'
  | .char n, .char n' => n == n'
  | .varChar n, .varChar n' => n == n'
  | .clob n, .clob n' => n == n'
  | .nationalChar n, .nationalChar n' => n == n'
  | .nationalVarChar n, .nationalVarChar n' => n == n'
  | .nationalClob n, .nationalClob n' => n == n'
  | .time p z, .time p' z' => p == p' && z == z'
  | .timestamp p z, .timestamp p' z' => p == p' && z == z'
  | .named name, .named name' => name == name'
  | .reference t s, .reference t' s' => t == t' && s == s'
  | .smallInt, .smallInt => true
  | .integer, .integer => true
  | .bigInt, .bigInt => true
  | .real, .real => true
  | .doublePrecision, .doublePrecision => true
  | .boolean, .boolean => true
  | .date, .date => true
  | _, _ => false

/-- Whether two lists of fields are the same. -/
def sameFields : List (Name × DataType) → List (Name × DataType) → Bool
  | [], [] => true
  | (name, type) :: rest, (name', type') :: rest' =>
    name == name' && type.same type' && sameFields rest rest'
  | _, _ => false

end

end DataType

end CanonicalSql
