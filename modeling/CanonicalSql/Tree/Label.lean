import CanonicalSql.Tree.Statement

/-!
# Labels

The names by which records and traversals tell the forms of a tree, and the values of a
choice, apart.
-/
namespace CanonicalSql

/-! ## Choices -/

def SetQuantifier.label : SetQuantifier → String
  | .all => "All"
  | .distinct => "Distinct"

def StringKind.label : StringKind → String
  | .bit => "Bit"
  | .char => "Char"
  | .hex => "Hex"
  | .national => "National"

def BinaryOp.label : BinaryOp → String
  | .or => "Or"
  | .and => "And"
  | .add => "Add"
  | .subtract => "Sub"
  | .multiply => "Mul"
  | .divide => "Div"
  | .less => "Lt"
  | .lessEqual => "LtEq"
  | .greater => "Gt"
  | .greaterEqual => "GtEq"
  | .equal => "Eq"
  | .notEqual => "NotEq"
  | .concat => "Concat"

def UnaryOp.label : UnaryOp → String
  | .not => "Not"
  | .negate => "Neg"

def TruthValue.label : TruthValue → String
  | .true => "True"
  | .false => "False"
  | .unknown => "Unknown"

def SortOrder.label : SortOrder → String
  | .ascending => "Asc"
  | .descending => "Desc"

def NullOrder.label : NullOrder → String
  | .unspecified => "Default"
  | .first => "First"
  | .last => "Last"

def AggregateFunction.label : AggregateFunction → String
  | .avg => "Avg"
  | .max => "Max"
  | .min => "Min"
  | .sum => "Sum"
  | .count => "Count"
  | .every => "Every"
  | .any => "Any"
  | .some => "Some"
  | .stddevPop => "StddevPop"
  | .stddevSamp => "StddevSamp"
  | .varPop => "VarPop"
  | .varSamp => "VarSamp"
  | .collect => "Collect"
  | .fusion => "Fusion"
  | .intersection => "Intersection"

def JoinKind.label : JoinKind → String
  | .inner => "Inner"
  | .left => "Left"
  | .right => "Right"
  | .full => "Full"

def FrameUnit.label : FrameUnit → String
  | .rows => "Rows"
  | .range => "Range"
  | .groups => "Groups"

def FrameBoundKind.label : FrameBoundKind → String
  | .currentRow => "CurrentRow"
  | .preceding => "Preceding"
  | .following => "Following"

def FrameExclusion.label : FrameExclusion → String
  | .currentRow => "CurrentRow"
  | .group => "Group"
  | .ties => "Ties"
  | .noOthers => "NoOthers"

def SetOperator.label : SetOperator → String
  | .union => "Union"
  | .intersect => "Intersect"
  | .except => "Except"

def FetchKind.label : FetchKind → String
  | .first => "First"
  | .next => "Next"

def CharUnit.label : CharUnit → String
  | .characters => "Characters"
  | .octets => "Octets"

def UserKind.label : UserKind → String
  | .current => "CurrentUser"
  | .session => "SessionUser"
  | .system => "SystemUser"

def MatchOption.label : MatchOption → String
  | .matchFull => "Full"
  | .matchPartial => "Partial"
  | .matchSimple => "Simple"

def ReferentialAction.label : ReferentialAction → String
  | .cascade => "Cascade"
  | .setNull => "SetNull"
  | .setDefault => "SetDefault"
  | .restrict => "Restrict"
  | .noAction => "NoAction"

def Temporary.label : Temporary → String
  | .globalTable => "Global"
  | .localTable => "Local"

def OnCommit.label : OnCommit → String
  | .deleteRows => "Delete"
  | .preserveRows => "Preserve"

def Overriding.label : Overriding → String
  | .userValue => "UserValue"
  | .systemValue => "SystemValue"

/-! ## Trees -/

def DataType.label : DataType → String
  | .numeric .. => "Numeric"
  | .decimal .. => "Decimal"
  | .smallInt => "SmallInt"
  | .integer => "Integer"
  | .bigInt => "BigInt"
  | .float .. => "Float"
  | .real => "Real"
  | .doublePrecision => "DoublePrecision"
  | .binary .. => "Binary"
  | .varBinary .. => "VarBinary"
  | .blob .. => "Blob"
  | .char .. => "Char"
  | .varChar .. => "VarChar"
  | .clob .. => "Clob"
  | .nationalChar .. => "NationalChar"
  | .nationalVarChar .. => "NationalVarChar"
  | .nationalClob .. => "NationalClob"
  | .boolean => "Boolean"
  | .date => "Date"
  | .time .. => "Time"
  | .timestamp .. => "Timestamp"
  | .named .. => "UserDefined"
  | .row .. => "Row"
  | .reference .. => "Ref"
  | .array .. => "Array"
  | .multiset .. => "Multiset"

def Expr.label : Expr → String
  | .asterisk .. => "Asterisk"
  | .integer .. => "IntegerLiteral"
  | .float .. => "FloatLiteral"
  | .string .. => "StringLiteral"
  | .truth .. => "BooleanLiteral"
  | .null .. => "Null"
  | .column .. => "Var"
  | .named .. => "Alias"
  | .unary .. => "Unary"
  | .binary .. => "Binary"
  | .collate .. => "Collate"
  | .isTruth .. => "Is"
  | .isNull .. => "IsNull"
  | .between .. => "Between"
  | .within .. => "In"
  | .like .. => "Like"
  | .existence .. => "Exists"
  | .uniqueness .. => "Unique"
  | .row .. => "Row"
  | .subquery .. => "RowSubquery"
  | .sortKey .. => "SortSpec"
  | .groupingSet .. => "GroupingSet"
  | .groupingSets .. => "GroupingSets"
  | .rollup .. => "Rollup"
  | .cube .. => "Cube"
  | .aggregate .. => "Aggregate"

def Rel.label : Rel → String
  | .join .. => "Join"
  | .table .. => "Table"
  | .named .. => "Alias"
  | .select .. => "Select"
  | .values .. => "Values"
  | .setOp .. => "SetOp"
  | .query .. => "Query"

def Statement.label : Statement → String
  | .create .. => "Create"
  | .insert .. => "Insert"
  | .delete .. => "Delete"
  | .select .. => "Select"

end CanonicalSql
