/-!
# Keywords

The words with a fixed meaning. A reserved keyword is never a name; an unreserved one has
its meaning only where the grammar asks for it and is a name everywhere else. A keyword is
recognised in any mixture of ASCII capitals and small letters.
-/
namespace CanonicalSql

/-- A keyword, named by its spelling. The reserved ones come first. -/
inductive Keyword where
  | ALL | AND | AS | ASC | ASYMMETRIC | BETWEEN | BY | COLLATE | CONSTRAINT | CREATE | CROSS
  | CURRENT_USER | DEFAULT | DELETE | DESC | DISTINCT | ESCAPE | EXCEPT | EXISTS | FALSE
  | FETCH | FOREIGN | FROM | FULL | GROUP | HAVING | IN | INNER | INSERT | INTERSECT | INTO
  | IS | JOIN | LEFT | LIKE | NATURAL | NOT | NULL | OFFSET | ON | ONLY | OR | ORDER | OUTER
  | PRIMARY | REFERENCES | RIGHT | ROW | SELECT | SESSION_USER | SYMMETRIC | SYSTEM_USER
  | TABLE | TRUE | UNION | UNIQUE | UNKNOWN | USING | VALUES | WHERE | WINDOW | WITH | ACTION
  | ANY | ARRAY | AVG | BIGINT | BINARY | BLOB | BOOLEAN | CASCADE | CHAR | CHARACTER
  | CHARACTERS | CLOB | COLLECT | COMMIT | COUNT | CUBE | CURRENT | DATE | DEC | DECIMAL
  | DOUBLE | EVERY | EXCLUDE | FILTER | FIRST | FLOAT | FOLLOWING | FUSION | GLOBAL | GROUPING
  | GROUPS | INT | INTEGER | INTERSECTION | KEY | LARGE | LAST | LOCAL | MATCH | MAX | MIN
  | MULTISET | NATIONAL | NCHAR | NCLOB | NEXT | NO | NULLS | NUMERIC | OBJECT | OCTETS
  | OTHERS | OVERRIDING | PARTIAL | PARTITION | PERCENT | PRECEDING | PRECISION | PRESERVE
  | RANGE | REAL | RECURSIVE | REF | RESTRICT | ROLLUP | ROWS | SCOPE | SET | SETS | SIMPLE
  | SMALLINT | SOME | STDDEV_POP | STDDEV_SAMP | SUM | SYSTEM | TEMP | TEMPORARY | TIES | TIME
  | TIMESTAMP | UNBOUNDED | UPDATE | USER | VALUE | VAR_POP | VAR_SAMP | VARBINARY | VARCHAR
  | VARYING | WITHOUT | ZONE
deriving DecidableEq, Repr, Inhabited

namespace Keyword

/-- The keywords that can never be used as names. -/
def reserved : List Keyword :=
  [.ALL, .AND, .AS, .ASC, .ASYMMETRIC, .BETWEEN, .BY, .COLLATE, .CONSTRAINT, .CREATE, .CROSS,
   .CURRENT_USER, .DEFAULT, .DELETE, .DESC, .DISTINCT, .ESCAPE, .EXCEPT, .EXISTS, .FALSE,
   .FETCH, .FOREIGN, .FROM, .FULL, .GROUP, .HAVING, .IN, .INNER, .INSERT, .INTERSECT, .INTO,
   .IS, .JOIN, .LEFT, .LIKE, .NATURAL, .NOT, .NULL, .OFFSET, .ON, .ONLY, .OR, .ORDER, .OUTER,
   .PRIMARY, .REFERENCES, .RIGHT, .ROW, .SELECT, .SESSION_USER, .SYMMETRIC, .SYSTEM_USER,
   .TABLE, .TRUE, .UNION, .UNIQUE, .UNKNOWN, .USING, .VALUES, .WHERE, .WINDOW, .WITH]

/-- The keywords that are names wherever they have no meaning of their own. -/
def unreserved : List Keyword :=
  [.ACTION, .ANY, .ARRAY, .AVG, .BIGINT, .BINARY, .BLOB, .BOOLEAN, .CASCADE, .CHAR, .CHARACTER,
   .CHARACTERS, .CLOB, .COLLECT, .COMMIT, .COUNT, .CUBE, .CURRENT, .DATE, .DEC, .DECIMAL,
   .DOUBLE, .EVERY, .EXCLUDE, .FILTER, .FIRST, .FLOAT, .FOLLOWING, .FUSION, .GLOBAL, .GROUPING,
   .GROUPS, .INT, .INTEGER, .INTERSECTION, .KEY, .LARGE, .LAST, .LOCAL, .MATCH, .MAX, .MIN,
   .MULTISET, .NATIONAL, .NCHAR, .NCLOB, .NEXT, .NO, .NULLS, .NUMERIC, .OBJECT, .OCTETS,
   .OTHERS, .OVERRIDING, .PARTIAL, .PARTITION, .PERCENT, .PRECEDING, .PRECISION, .PRESERVE,
   .RANGE, .REAL, .RECURSIVE, .REF, .RESTRICT, .ROLLUP, .ROWS, .SCOPE, .SET, .SETS, .SIMPLE,
   .SMALLINT, .SOME, .STDDEV_POP, .STDDEV_SAMP, .SUM, .SYSTEM, .TEMP, .TEMPORARY, .TIES, .TIME,
   .TIMESTAMP, .UNBOUNDED, .UPDATE, .USER, .VALUE, .VAR_POP, .VAR_SAMP, .VARBINARY, .VARCHAR,
   .VARYING, .WITHOUT, .ZONE]

/-- Whether the keyword can never be used as a name. -/
def isReserved (word : Keyword) : Bool := reserved.contains word

/-- The spelling in capitals. -/
def spelling : Keyword → String
  | .ALL => "ALL"
  | .AND => "AND"
  | .AS => "AS"
  | .ASC => "ASC"
  | .ASYMMETRIC => "ASYMMETRIC"
  | .BETWEEN => "BETWEEN"
  | .BY => "BY"
  | .COLLATE => "COLLATE"
  | .CONSTRAINT => "CONSTRAINT"
  | .CREATE => "CREATE"
  | .CROSS => "CROSS"
  | .CURRENT_USER => "CURRENT_USER"
  | .DEFAULT => "DEFAULT"
  | .DELETE => "DELETE"
  | .DESC => "DESC"
  | .DISTINCT => "DISTINCT"
  | .ESCAPE => "ESCAPE"
  | .EXCEPT => "EXCEPT"
  | .EXISTS => "EXISTS"
  | .FALSE => "FALSE"
  | .FETCH => "FETCH"
  | .FOREIGN => "FOREIGN"
  | .FROM => "FROM"
  | .FULL => "FULL"
  | .GROUP => "GROUP"
  | .HAVING => "HAVING"
  | .IN => "IN"
  | .INNER => "INNER"
  | .INSERT => "INSERT"
  | .INTERSECT => "INTERSECT"
  | .INTO => "INTO"
  | .IS => "IS"
  | .JOIN => "JOIN"
  | .LEFT => "LEFT"
  | .LIKE => "LIKE"
  | .NATURAL => "NATURAL"
  | .NOT => "NOT"
  | .NULL => "NULL"
  | .OFFSET => "OFFSET"
  | .ON => "ON"
  | .ONLY => "ONLY"
  | .OR => "OR"
  | .ORDER => "ORDER"
  | .OUTER => "OUTER"
  | .PRIMARY => "PRIMARY"
  | .REFERENCES => "REFERENCES"
  | .RIGHT => "RIGHT"
  | .ROW => "ROW"
  | .SELECT => "SELECT"
  | .SESSION_USER => "SESSION_USER"
  | .SYMMETRIC => "SYMMETRIC"
  | .SYSTEM_USER => "SYSTEM_USER"
  | .TABLE => "TABLE"
  | .TRUE => "TRUE"
  | .UNION => "UNION"
  | .UNIQUE => "UNIQUE"
  | .UNKNOWN => "UNKNOWN"
  | .USING => "USING"
  | .VALUES => "VALUES"
  | .WHERE => "WHERE"
  | .WINDOW => "WINDOW"
  | .WITH => "WITH"
  | .ACTION => "ACTION"
  | .ANY => "ANY"
  | .ARRAY => "ARRAY"
  | .AVG => "AVG"
  | .BIGINT => "BIGINT"
  | .BINARY => "BINARY"
  | .BLOB => "BLOB"
  | .BOOLEAN => "BOOLEAN"
  | .CASCADE => "CASCADE"
  | .CHAR => "CHAR"
  | .CHARACTER => "CHARACTER"
  | .CHARACTERS => "CHARACTERS"
  | .CLOB => "CLOB"
  | .COLLECT => "COLLECT"
  | .COMMIT => "COMMIT"
  | .COUNT => "COUNT"
  | .CUBE => "CUBE"
  | .CURRENT => "CURRENT"
  | .DATE => "DATE"
  | .DEC => "DEC"
  | .DECIMAL => "DECIMAL"
  | .DOUBLE => "DOUBLE"
  | .EVERY => "EVERY"
  | .EXCLUDE => "EXCLUDE"
  | .FILTER => "FILTER"
  | .FIRST => "FIRST"
  | .FLOAT => "FLOAT"
  | .FOLLOWING => "FOLLOWING"
  | .FUSION => "FUSION"
  | .GLOBAL => "GLOBAL"
  | .GROUPING => "GROUPING"
  | .GROUPS => "GROUPS"
  | .INT => "INT"
  | .INTEGER => "INTEGER"
  | .INTERSECTION => "INTERSECTION"
  | .KEY => "KEY"
  | .LARGE => "LARGE"
  | .LAST => "LAST"
  | .LOCAL => "LOCAL"
  | .MATCH => "MATCH"
  | .MAX => "MAX"
  | .MIN => "MIN"
  | .MULTISET => "MULTISET"
  | .NATIONAL => "NATIONAL"
  | .NCHAR => "NCHAR"
  | .NCLOB => "NCLOB"
  | .NEXT => "NEXT"
  | .NO => "NO"
  | .NULLS => "NULLS"
  | .NUMERIC => "NUMERIC"
  | .OBJECT => "OBJECT"
  | .OCTETS => "OCTETS"
  | .OTHERS => "OTHERS"
  | .OVERRIDING => "OVERRIDING"
  | .PARTIAL => "PARTIAL"
  | .PARTITION => "PARTITION"
  | .PERCENT => "PERCENT"
  | .PRECEDING => "PRECEDING"
  | .PRECISION => "PRECISION"
  | .PRESERVE => "PRESERVE"
  | .RANGE => "RANGE"
  | .REAL => "REAL"
  | .RECURSIVE => "RECURSIVE"
  | .REF => "REF"
  | .RESTRICT => "RESTRICT"
  | .ROLLUP => "ROLLUP"
  | .ROWS => "ROWS"
  | .SCOPE => "SCOPE"
  | .SET => "SET"
  | .SETS => "SETS"
  | .SIMPLE => "SIMPLE"
  | .SMALLINT => "SMALLINT"
  | .SOME => "SOME"
  | .STDDEV_POP => "STDDEV_POP"
  | .STDDEV_SAMP => "STDDEV_SAMP"
  | .SUM => "SUM"
  | .SYSTEM => "SYSTEM"
  | .TEMP => "TEMP"
  | .TEMPORARY => "TEMPORARY"
  | .TIES => "TIES"
  | .TIME => "TIME"
  | .TIMESTAMP => "TIMESTAMP"
  | .UNBOUNDED => "UNBOUNDED"
  | .UPDATE => "UPDATE"
  | .USER => "USER"
  | .VALUE => "VALUE"
  | .VAR_POP => "VAR_POP"
  | .VAR_SAMP => "VAR_SAMP"
  | .VARBINARY => "VARBINARY"
  | .VARCHAR => "VARCHAR"
  | .VARYING => "VARYING"
  | .WITHOUT => "WITHOUT"
  | .ZONE => "ZONE"

/-- The spelling in small letters: the name that an unreserved keyword stands for. -/
def lowerSpelling (word : Keyword) : String :=
  String.ofList (word.spelling.toList.map Char.toLower)

/-- A word with its ASCII letters in capitals. -/
def capitals (word : String) : String :=
  String.ofList (word.toList.map Char.toUpper)

/-- The keyword that a word spells, in any mixture of ASCII capitals and small letters. -/
def ofWord? (word : String) : Option Keyword :=
  (reserved ++ unreserved).find? fun keyword => keyword.spelling == capitals word

theorem mem_reserved_or_mem_unreserved (word : Keyword) :
    word ∈ reserved ∨ word ∈ unreserved := by
  cases word <;> decide

end Keyword

end CanonicalSql
