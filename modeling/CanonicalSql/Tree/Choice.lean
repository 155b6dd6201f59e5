import CanonicalSql.Keyword

/-!
# Choices

The small closed choices that a tree records: operators, directions, policies. Each one
knows the keywords it is written with, where it is written with keywords.
-/
namespace CanonicalSql

/-- `ALL` or `DISTINCT`. -/
inductive SetQuantifier
  | all
  | distinct
deriving DecidableEq, Repr, Inhabited

def SetQuantifier.word : SetQuantifier → Keyword
  | .all => .ALL
  | .distinct => .DISTINCT

/-! ## Expressions -/

/-- The operators between two expressions. -/
inductive BinaryOp
  | or
  | and
  | add
  | subtract
  | multiply
  | divide
  | less
  | lessEqual
  | greater
  | greaterEqual
  | equal
  | notEqual
  | concat
deriving DecidableEq, Repr, Inhabited

/-- Whether the operator compares, and so cannot follow another comparison. -/
def BinaryOp.isComparison : BinaryOp → Bool
  | .less | .lessEqual | .greater | .greaterEqual | .equal | .notEqual => true
  | _ => false

/-- The operators in front of an expression. -/
inductive UnaryOp
  | not
  | negate
deriving DecidableEq, Repr, Inhabited

/-- The truth values of three-valued logic. -/
inductive TruthValue
  | true
  | false
  | unknown
deriving DecidableEq, Repr, Inhabited

def TruthValue.word : TruthValue → Keyword
  | .true => .TRUE
  | .false => .FALSE
  | .unknown => .UNKNOWN

/-- The direction of a sort key. -/
inductive SortOrder
  | ascending
  | descending
deriving DecidableEq, Repr, Inhabited

def SortOrder.word : SortOrder → Keyword
  | .ascending => .ASC
  | .descending => .DESC

/-- Where a sort key puts null values. -/
inductive NullOrder
  | unspecified
  | first
  | last
deriving DecidableEq, Repr, Inhabited

/-- The aggregate functions, the only functions that can be called. -/
inductive AggregateFunction
  | avg
  | max
  | min
  | sum
  | count
  | every
  | any
  | some
  | stddevPop
  | stddevSamp
  | varPop
  | varSamp
  | collect
  | fusion
  | intersection
deriving DecidableEq, Repr, Inhabited

namespace AggregateFunction

/-- All aggregate functions. -/
def all : List AggregateFunction :=
  [.avg, .max, .min, .sum, .count, .every, .any, .some, .stddevPop, .stddevSamp, .varPop,
   .varSamp, .collect, .fusion, .intersection]

/-- The keyword that names the function. -/
def word : AggregateFunction → Keyword
  | .avg => .AVG
  | .max => .MAX
  | .min => .MIN
  | .sum => .SUM
  | .count => .COUNT
  | .every => .EVERY
  | .any => .ANY
  | .some => .SOME
  | .stddevPop => .STDDEV_POP
  | .stddevSamp => .STDDEV_SAMP
  | .varPop => .VAR_POP
  | .varSamp => .VAR_SAMP
  | .collect => .COLLECT
  | .fusion => .FUSION
  | .intersection => .INTERSECTION

/-- The function that a keyword names. -/
def ofWord? (word : Keyword) : Option AggregateFunction :=
  all.find? fun function => function.word == word

theorem ofWord?_word (function : AggregateFunction) :
    ofWord? function.word = Option.some function := by
  cases function <;> rfl

end AggregateFunction

/-! ## Queries -/

/-- The kinds of join. A cross join is an inner join without condition. -/
inductive JoinKind
  | inner
  | left
  | right
  | full
deriving DecidableEq, Repr, Inhabited

def JoinKind.words : JoinKind → List Keyword
  | .inner => [.INNER]
  | .left => [.LEFT, .OUTER]
  | .right => [.RIGHT, .OUTER]
  | .full => [.FULL, .OUTER]

/-- What the bounds of a window frame count. -/
inductive FrameUnit
  | rows
  | range
  | groups
deriving DecidableEq, Repr, Inhabited

def FrameUnit.word : FrameUnit → Keyword
  | .rows => .ROWS
  | .range => .RANGE
  | .groups => .GROUPS

/-- Where a frame bound lies relative to the current row. -/
inductive FrameBoundKind
  | currentRow
  | preceding
  | following
deriving DecidableEq, Repr, Inhabited

/-- What a window frame leaves out. -/
inductive FrameExclusion
  | currentRow
  | group
  | ties
  | noOthers
deriving DecidableEq, Repr, Inhabited

def FrameExclusion.words : FrameExclusion → List Keyword
  | .currentRow => [.EXCLUDE, .CURRENT, .ROW]
  | .group => [.EXCLUDE, .GROUP]
  | .ties => [.EXCLUDE, .TIES]
  | .noOthers => [.EXCLUDE, .NO, .OTHERS]

/-- The operators between two queries. -/
inductive SetOperator
  | union
  | intersect
  | except
deriving DecidableEq, Repr, Inhabited

def SetOperator.word : SetOperator → Keyword
  | .union => .UNION
  | .intersect => .INTERSECT
  | .except => .EXCEPT

/-- `FIRST` or `NEXT`, which mean the same. -/
inductive FetchKind
  | first
  | next
deriving DecidableEq, Repr, Inhabited

def FetchKind.word : FetchKind → Keyword
  | .first => .FIRST
  | .next => .NEXT

/-! ## Definitions and changes -/

/-- The unit of a character string length. -/
inductive CharUnit
  | characters
  | octets
deriving DecidableEq, Repr, Inhabited

def CharUnit.word : CharUnit → Keyword
  | .characters => .CHARACTERS
  | .octets => .OCTETS

/-- The users that a column default can name. -/
inductive UserKind
  | current
  | session
  | system
deriving DecidableEq, Repr, Inhabited

def UserKind.word : UserKind → Keyword
  | .current => .CURRENT_USER
  | .session => .SESSION_USER
  | .system => .SYSTEM_USER

/-- How a foreign key treats null values. -/
inductive MatchOption
  | matchFull
  | matchPartial
  /-- Also meant when nothing is written. -/
  | matchSimple
deriving DecidableEq, Repr, Inhabited

def MatchOption.word : MatchOption → Keyword
  | .matchFull => .FULL
  | .matchPartial => .PARTIAL
  | .matchSimple => .SIMPLE

/-- What happens to a row when the row it refers to is changed. -/
inductive ReferentialAction
  | cascade
  | setNull
  | setDefault
  | restrict
  /-- Also meant when nothing is written. -/
  | noAction
deriving DecidableEq, Repr, Inhabited

def ReferentialAction.words : ReferentialAction → List Keyword
  | .cascade => [.CASCADE]
  | .setNull => [.SET, .NULL]
  | .setDefault => [.SET, .DEFAULT]
  | .restrict => [.RESTRICT]
  | .noAction => [.NO, .ACTION]

/-- The scope of a temporary table. -/
inductive Temporary
  | globalTable
  | localTable
deriving DecidableEq, Repr, Inhabited

def Temporary.words : Temporary → List Keyword
  | .globalTable => [.GLOBAL, .TEMPORARY]
  | .localTable => [.LOCAL, .TEMPORARY]

/-- What becomes of the rows of a temporary table at a commit. -/
inductive OnCommit
  | deleteRows
  | preserveRows
deriving DecidableEq, Repr, Inhabited

def OnCommit.words : OnCommit → List Keyword
  | .deleteRows => [.ON, .COMMIT, .DELETE, .ROWS]
  | .preserveRows => [.ON, .COMMIT, .PRESERVE, .ROWS]

/-- Which values an insertion overrides. -/
inductive Overriding
  | userValue
  | systemValue
deriving DecidableEq, Repr, Inhabited

def Overriding.words : Overriding → List Keyword
  | .userValue => [.OVERRIDING, .USER, .VALUE]
  | .systemValue => [.OVERRIDING, .SYSTEM, .VALUE]

end CanonicalSql
