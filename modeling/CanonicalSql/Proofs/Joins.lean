import CanonicalSql.Proofs.Elsewhere.Statement
import CanonicalSql.Proofs.Reading.Rounds
import CanonicalSql.Proofs.Reading.Spelled

/-!
# Joins as they may be written

A tree of joins can be written in many ways: with more parentheses than it needs, and with other
words for the same kind of join. `Rel.JoinText` says which rows of tokens write a tree. The left
operand of a join needs no parentheses, and so does the right operand of a join that has a
condition; only the right operand of a cross join or of a natural join must be one table. Each
condition then belongs to the nearest join that is still without one, and the tree is read from
each of its rows (`Statement.parse_joins`).

The joins that follow one operand are read in one loop, whose rounds go up the left side of the
tree (`Rel.ReadsJoins`).
-/
namespace CanonicalSql

/-- The words before `JOIN` that name a kind of join. -/
def JoinKind.spellings : JoinKind → List (List Keyword)
  | .inner => [[], [.INNER]]
  | .left => [[.LEFT], [.LEFT, .OUTER]]
  | .right => [[.RIGHT], [.RIGHT, .OUTER]]
  | .full => [[.FULL], [.FULL, .OUTER]]

/-- A row of tokens that writes the condition of a join. -/
inductive JoinCondition.IsWritten : JoinCondition → List Kind → Prop
  | onExpr {expr found : Expr} {row : List Kind} (takes : Parse.Takes Parse.wholeExpression row found)
    (same : expr.alike found = true) : IsWritten (.onExpr expr) (.keyword .ON :: row)
  | usingColumns {columns : List Name} {row : List Kind} (listed : Name.AreListed columns row) :
    IsWritten (.usingColumns columns) (.keyword .USING :: row)

/-- The tokens that give a table the name as its alias. `AS` may be left out in front of a name that
is not spelled by a keyword. -/
inductive Name.IsAlias (name : Name) : List Kind → Prop
  | bare : IsAlias name [.identifier name]
  | worded {kind : Kind} (spells : kind.name? = some name) : IsAlias name [.keyword .AS, kind]

/-- A row of tokens that writes joined tables, which stand where only one table may stand if
`single`. -/
inductive Rel.JoinText : (single : Bool) → Rel → List Kind → Prop
  | table {single : Bool} {name : QualifiedName} {row : List Kind} (span : Span)
    (spelled : name.IsSpelled row) : JoinText single (.table name span) row
  | named {single : Bool} {name : QualifiedName} {label : Name} {columns : List Name}
    {row other behind : List Kind} (span span' : Span) (spelled : name.IsSpelled row)
    (isAlias : label.IsAlias other) (listed : Name.MayBeListed columns behind) :
    JoinText single (.named label columns (.table name span) span') (row ++ (other ++ behind))
  | enclosed {single : Bool} {rel : Rel} {row : List Kind} (inner : JoinText false rel row) :
    JoinText single rel (.symbol .leftParen :: (row ++ [.symbol .rightParen]))
  | cross {left right : Rel} {row other : List Kind} (span : Span)
    (first : JoinText false left row) (second : JoinText true right other) :
    JoinText false (.join .inner false .absent left right span)
      (row ++ .keyword .CROSS :: .keyword .JOIN :: other)
  | natural (kind : JoinKind) (words : List Keyword) {left right : Rel} {row other : List Kind}
    (span : Span) (spelled : words ∈ kind.spellings) (first : JoinText false left row)
    (second : JoinText true right other) :
    JoinText false (.join kind true .absent left right span)
      (row ++ .keyword .NATURAL :: (words.map .keyword ++ .keyword .JOIN :: other))
  | qualified (kind : JoinKind) (words : List Keyword) {left right : Rel}
    {row other behind : List Kind} {condition : JoinCondition} (span : Span)
    (spelled : words ∈ kind.spellings) (first : JoinText false left row)
    (second : JoinText false right other) (isWritten : condition.IsWritten behind) :
    JoinText false (.join kind false condition left right span)
      (row ++ (words.map .keyword ++ .keyword .JOIN :: (other ++ behind)))

/-- What may follow a table among joined tables. -/
structure EndsJoined (kinds : List Kind) : Prop extends EndsSource kinds where
  closes : Closes 0 kinds
  apart : Parse.isJoint (lead kinds) = false

theorem EndsJoined.of_quiet {kinds : List Kind} (quiet : (lead kinds).isQuiet = true)
    (noAs : lead kinds ≠ .keyword .AS) (noName : (lead kinds).isIdentifier = false)
    (noEscape : lead kinds ≠ .keyword .ESCAPE) (apart : Parse.isJoint (lead kinds) = false) :
    EndsJoined kinds where
  dot := Kind.ne_of_isQuiet quiet rfl
  paren := Kind.ne_of_isQuiet quiet rfl
  noAs := noAs
  noName := noName
  closes := ⟨.of_quiet quiet, noEscape⟩
  apart := apart

theorem EndsJoined.of_join {kinds : List Kind} (starts : Parse.isJoinStart (lead kinds) = true) :
    EndsJoined kinds := by
  generalize isLead : lead kinds = kind at starts
  unfold Parse.isJoinStart at starts
  split at starts
  case h_8 => cases starts
  all_goals
    refine .of_quiet ?_ ?_ ?_ ?_ ?_ <;> rw [isLead] <;> first
      | rfl
      | simp

theorem EndsJoined.of_condition {condition : JoinCondition} {row : List Kind}
    (isWritten : condition.IsWritten row) (rest : List Kind) : EndsJoined (row ++ rest) := by
  cases isWritten <;> exact .of_quiet rfl (by simp) rfl (by simp) rfl

namespace Parse

variable {limit depth more : Nat} {row rest : List Kind}

/-! ## The words of a join -/

theorem joinKind_spelled {kind : JoinKind} {words : List Keyword} (spelled : words ∈ kind.spellings) :
    Reads limit True joinKind depth (words.map .keyword ++ .keyword .JOIN :: rest) (· = kind) depth
      rest := by
  have named : Reads limit True joinWords depth (words.map .keyword ++ .keyword .JOIN :: rest)
      (· = kind) depth (.keyword .JOIN :: rest) := by
    refine word?_looks.reads.step ?_
    cases kind <;> simp only [JoinKind.spellings, List.mem_cons, List.not_mem_nil, or_false] at spelled
    case inner =>
      rcases spelled with rfl | rfl
      · exact .pure trivial rfl
      · exact advance_reads.after fun _ _ => .pure trivial rfl
    all_goals
      rcases spelled with rfl | rfl
      · exact advance_reads.after fun _ _ => (takeWord_no (by simp)).step (.pure trivial rfl)
      · exact advance_reads.after fun _ _ => (takeWord_yes .OUTER).step (.pure trivial rfl)
  exact named.step ((expectWord_reads .JOIN).step (.pure trivial rfl))

theorem lead_spelled {kind : JoinKind} {words : List Keyword} (spelled : words ∈ kind.spellings)
    (others : List Kind) :
    isJoinStart (lead (words.map .keyword ++ .keyword .JOIN :: others)) = true ∧
      lead (words.map .keyword ++ .keyword .JOIN :: others) ≠ .keyword .CROSS ∧
      lead (words.map .keyword ++ .keyword .JOIN :: others) ≠ .keyword .NATURAL := by
  cases kind <;> simp only [JoinKind.spellings, List.mem_cons, List.not_mem_nil, or_false] at spelled
  all_goals
    rcases spelled with rfl | rfl <;> exact ⟨rfl, by simp, by simp⟩

theorem joinCondition_written {condition : JoinCondition} {behind : List Kind}
    (isWritten : condition.IsWritten behind) (enough : 8 * behind.length + 16 ≤ more)
    (ends : EndsJoined rest) (room : depth + (2 * behind.length + 1) ≤ capOf limit) :
    Reads limit True (joinCondition (Phrases.within more)) depth (behind ++ rest)
      (fun it => it.erase = condition.erase) depth rest := by
  cases isWritten with
  | @onExpr expr found row takes same =>
    rw [List.length_cons] at enough room
    have same : found.erase = expr.erase := ((Expr.alike_iff _ _).mp same).symm
    refine (takeWord_yes .ON).step ?_
    refine (takes.expression (by omega) ends.closes ends.apart (by omega)).after fun e isFound => ?_
    exact .pure trivial (by rw [JoinCondition.erase, JoinCondition.erase, isFound, same])
  | usingColumns listed =>
    refine (takeWord_no (by simp)).step ((takeWord_yes .USING).step ?_)
    exact (names_listed listed).step (.pure trivial rfl)

theorem withAlias_written {label : Name} {columns : List Name} {other behind : List Kind}
    (isAlias : label.IsAlias other) (listed : Name.MayBeListed columns behind) (relation : Rel)
    (start : Span) (stops : lead rest ≠ .symbol .leftParen) :
    Reads limit True (withAlias relation start) depth (other ++ (behind ++ rest))
      (fun r => r.erase = .named label columns relation.erase default) depth rest := by
  have named : Reads limit True optionalAlias depth (other ++ (behind ++ rest)) (· = some label) depth
      (behind ++ rest) := by
    cases isAlias with
    | bare =>
      exact (takeWord_no (by simp)).step (kind_reads.step ((identifier_reads label).step
        (.pure trivial rfl)))
    | worded spells =>
      exact (takeWord_yes .AS).step ((identifier_spelled spells).step (.pure trivial rfl))
  refine named.step ((optionalNames_listed listed stops).step ?_)
  exact .still (spanFrom_still start) fun _ => .pure trivial (by simp [Rel.erase])

theorem namedTable_reads {name : QualifiedName} (span : Span) (spelled : name.IsSpelled row)
    (stops : lead rest ≠ .symbol .dot) :
    Reads limit True namedTable depth (row ++ rest)
      (fun r => r.erase = (Rel.table name span).erase) depth rest :=
  .still here_still fun start => (qualifiedName_spelled spelled stops).step
    (.still (spanFrom_still start) fun _ => .pure trivial (by simp [Rel.erase]))

end Parse

namespace Rel

open Parse

/-- The row is read as the tree where a table is expected. -/
def ReadsTable (rel : Rel) (row : List Kind) : Prop :=
  ∀ {limit depth more : Nat} {rest : List Kind}, 8 * row.length + 16 ≤ more →
    depth + 2 * row.length ≤ capOf limit → EndsJoined rest →
    Reads limit True (tablePrimary (Phrases.within more)) depth (row ++ rest)
      (fun r => r.erase = rel.erase) depth rest

/-- A tree, read in so many rounds. -/
def IsRead (rel : Rel) (rounds : Nat) (done : Rel × Nat) : Prop :=
  done.1.erase = rel.erase ∧ done.2 = rounds

/-- The joins in the row turn the tree `first` into the tree `rel`, in so many rounds. -/
def ReadsJoins (first rel : Rel) (rounds : Nat) (row : List Kind) : Prop :=
  ∀ {limit depth more : Nat} {rest : List Kind}, 8 * row.length + 16 ≤ more →
    depth + 2 * row.length ≤ capOf limit → EndsJoined rest →
    Leads limit (joinStep (Phrases.within more)) (first.IsRead 0) depth (row ++ rest)
      (rel.IsRead rounds) (depth + rounds) rest

/-- The tokens of a join turn what is like its left operand into what is like the join. -/
def ReadsJoin (left rel : Rel) (row : List Kind) : Prop :=
  ∀ {limit depth more : Nat} {rest : List Kind} {found : Rel}, found.erase = left.erase →
    8 * row.length + 16 ≤ more → depth + 2 * row.length ≤ capOf limit + 1 → EndsJoined rest →
    Reads limit True (Parse.join (Phrases.within more) found) depth (row ++ rest)
      (fun r => r.erase = rel.erase) depth rest

/-- The row begins with a table, behind which it is read in some rounds. -/
structure ReadsSource (rel first : Rel) (begin row : List Kind) (rounds : Nat) : Prop where
  noQuery : ∀ others, isQueryStart (lead (begin ++ others)) = false
  table : first.ReadsTable begin
  starts : row ≠ [] → isJoinStart (lead row) = true
  few : rounds ≤ row.length
  joins : ReadsJoins first rel rounds row

variable {rel first : Rel} {begin row : List Kind} {rounds limit depth more : Nat} {rest : List Kind}

/-- One table, and no join behind it. -/
theorem ReadsTable.source (noQuery : ∀ others, isQueryStart (lead (row ++ others)) = false)
    (table : rel.ReadsTable row) : ReadsSource rel rel row [] 0 where
  noQuery := noQuery
  table := table
  starts := fun some => absurd rfl some
  few := Nat.zero_le _
  joins := fun _ _ _ => .none fun _ => id

namespace ReadsSource

theorem ends (source : ReadsSource rel first begin row rounds) (ends : EndsJoined rest) :
    EndsJoined (row ++ rest) := by
  cases row with
  | nil => exact ends
  | cons kind others => exact .of_join (source.starts (by simp))

theorem joins_read (source : ReadsSource rel first begin row rounds)
    {found : Rel} (same : found.erase = first.erase) (enough : 8 * row.length + 16 ≤ more)
    (room : depth + 2 * row.length ≤ capOf limit) (ends : EndsJoined rest)
    (noJoin : isJoinStart (lead rest) = false) :
    Reads limit True (Parse.joins (Phrases.within more) found) depth (row ++ rest)
      (fun r => r.erase = rel.erase) depth rest := by
  refine ((source.joins enough room ends).loop (fun v _ => joinStep_none noJoin v)
    ⟨same, rfl⟩).after fun done isDone => ?_
  obtain ⟨joined, levels⟩ := done
  obtain ⟨isThere, rfl⟩ := isDone
  exact (leave_reads levels).step (.pure trivial isThere)

theorem reads (given : ReadsSource rel first begin row rounds)
    (enough : 8 * (begin ++ row).length + 16 ≤ more)
    (room : depth + 2 * (begin ++ row).length ≤ capOf limit) (ends : EndsJoined rest)
    (noJoin : isJoinStart (lead rest) = false) :
    Reads limit True (source (Phrases.within more)) depth (begin ++ row ++ rest)
      (fun r => r.erase = rel.erase) depth rest := by
  rw [List.length_append] at enough room
  rw [List.append_assoc]
  refine (given.table (by omega) (by omega) (given.ends ends)).after fun found same => ?_
  exact given.joins_read same (by omega) (by omega) ends noJoin

/-- Joined tables in parentheses are read where one table is expected. -/
theorem enclosed (given : ReadsSource rel first begin row rounds) :
    rel.ReadsTable (.symbol .leftParen :: ((begin ++ row) ++ [.symbol .rightParen])) := by
  intro limit depth more rest enough room ends
  simp only [List.length_cons, List.length_append, List.length_nil] at enough room
  obtain ⟨more, rfl⟩ : ∃ fewer, more = fewer + 1 := ⟨more - 1, by omega⟩
  -- the closing parenthesis ends the joins within
  have close : EndsJoined (.symbol .rightParen :: rest) :=
    .of_quiet rfl (by simp) rfl (by simp) rfl
  have noNext : isQueryNext (lead (row ++ .symbol .rightParen :: rest)) = false := by
    cases row with
    | nil => rfl
    | cons kind others =>
      have starts := given.starts (by simp)
      rw [lead_cons] at starts
      rw [List.cons_append, lead_cons]
      unfold isJoinStart at starts
      split at starts <;> first | rfl | cases starts
  refine .still here_still fun start => ?_
  have text : .symbol .leftParen :: (begin ++ row ++ [Kind.symbol .rightParen]) ++ rest =
      .symbol .leftParen :: (begin ++ (row ++ .symbol .rightParen :: rest)) := by simp
  rw [text]
  have inside : Reads limit True (tableFactor (Phrases.within (more + 1))) depth
      (.symbol .leftParen :: (begin ++ (row ++ .symbol .rightParen :: rest)))
      (fun r => r.erase = rel.erase) depth rest := by
    refine parenthesizedTable_reads (by omega) fun _ => ?_
    refine enclosedTable_reads (given.noQuery _) noNext
      (given.table (by omega) (by omega) (given.ends close)) id fun _ found same => ?_
    exact given.joins_read same (by omega) (by omega) close rfl
  refine inside.after fun found same => ?_
  exact (withAlias_none ends.toEndsSource found start).weaken fun r isFound => by rw [isFound, same]

/-- One more join is one more round. -/
theorem step {left : Rel} {other : List Kind} (given : ReadsSource left first begin row rounds)
    (starts : isJoinStart (lead other) = true) (join : ReadsJoin left rel other) :
    ReadsSource rel first begin (row ++ other) (rounds + 1) := by
  have some : other ≠ [] := by
    rintro rfl
    cases starts
  have longer := List.length_pos_iff.mpr some
  have few := given.few
  refine ⟨given.noQuery, given.table, fun _ => ?_, by rw [List.length_append]; omega, ?_⟩
  · cases row with
    | nil => exact starts
    | cons kind others => exact given.starts (by simp)
  intro limit depth more rest enough room ends
  rw [List.length_append] at enough room
  have startsRest : isJoinStart (lead (other ++ rest)) = true := by
    rwa [lead_append_of_ne_nil some]
  rw [List.append_assoc]
  -- the rounds of the left operand come first, and one more round takes this join
  refine (given.joins (by omega) (by omega) (.of_join startsRest)).trans ?_
  refine .one (by rw [List.length_append]; omega) fun done isDone => ?_
  obtain ⟨v, levels⟩ := done
  obtain ⟨isLeft, rfl⟩ := isDone
  refine startsJoin_looks.reads.step ?_
  rw [startsRest]
  refine (enter_reads (by omega)).step ?_
  refine (join isLeft (by omega) (by omega) ends).after fun r isJoin => ?_
  exact .pure trivial ⟨_, rfl, isJoin, rfl⟩

end ReadsSource

/-! ## The three sorts of joins -/

theorem ReadsJoin.cross {left right : Rel} {other : List Kind} (span : Span)
    (table : right.ReadsTable other) :
    ReadsJoin left (.join .inner false .absent left right span)
      (.keyword .CROSS :: .keyword .JOIN :: other) := by
  intro limit depth more rest found same enough room ends
  simp only [List.length_cons] at enough room
  refine (takeWord_yes .CROSS).step ((expectWord_reads .JOIN).step ?_)
  refine (table (by omega) (by omega) ends).after fun r sameRight => ?_
  exact .still (spanFrom_still _) fun _ =>
    .pure trivial (by simp [Rel.erase, JoinCondition.erase, same, sameRight])

theorem ReadsJoin.natural {left right : Rel} {other : List Kind} {kind : JoinKind}
    {words : List Keyword} (span : Span) (spelled : words ∈ kind.spellings)
    (table : right.ReadsTable other) :
    ReadsJoin left (.join kind true .absent left right span)
      (.keyword .NATURAL :: (words.map .keyword ++ .keyword .JOIN :: other)) := by
  intro limit depth more rest found same enough room ends
  simp only [List.length_cons, List.length_append] at enough room
  rw [List.cons_append, List.append_assoc, List.cons_append]
  refine (takeWord_no (by simp)).step ((takeWord_yes .NATURAL).step ?_)
  refine (joinKind_spelled spelled).step ?_
  refine (table (by omega) (by omega) ends).after fun r sameRight => ?_
  exact .still (spanFrom_still _) fun _ =>
    .pure trivial (by simp [Rel.erase, JoinCondition.erase, same, sameRight])

/-- The right operand takes all joins that follow it. What is left is the condition. -/
theorem ReadsJoin.qualified {left right : Rel} {behind : List Kind} {kind : JoinKind}
    {words : List Keyword} {condition : JoinCondition} (span : Span)
    (spelled : words ∈ kind.spellings) (operand : ReadsSource right first begin row rounds)
    (isWritten : condition.IsWritten behind) :
    ReadsJoin left (.join kind false condition left right span)
      (words.map .keyword ++ .keyword .JOIN :: (begin ++ row ++ behind)) := by
  intro limit depth more rest found same enough room ends
  simp only [List.length_cons, List.length_append] at enough room
  simp only [List.append_assoc, List.cons_append]
  obtain ⟨-, noCross, noNatural⟩ := lead_spelled spelled (begin ++ (row ++ (behind ++ rest)))
  have atCondition : EndsJoined (behind ++ rest) := .of_condition isWritten rest
  have noJoin : isJoinStart (lead (behind ++ rest)) = false := by
    cases isWritten <;> rfl
  obtain ⟨more, rfl⟩ : ∃ fewer, more = fewer + 1 := ⟨more - 1, by omega⟩
  refine (takeWord_no noCross).step ((takeWord_no noNatural).step ?_)
  refine (joinKind_spelled spelled).step ?_
  refine (operand.table (by omega) (by omega) (operand.ends atCondition)).after fun r isFirst => ?_
  -- the right operand takes all joins up to its condition, which is then left to this one
  refine (operand.joins_read isFirst (by omega) (by omega) atCondition noJoin).after
    fun joined sameRight => ?_
  refine (joinCondition_written isWritten (by omega) ends (by omega)).after
    fun it sameCondition => ?_
  exact .still (spanFrom_still _) fun _ =>
    .pure trivial (by simp [Rel.erase, same, sameRight, sameCondition])

theorem noQuery_spelled {name : QualifiedName} (spelled : name.IsSpelled row) (others : List Kind) :
    isQueryStart (lead (row ++ others)) = false := by
  obtain ⟨part, isName⟩ := spelled.lead_name?
  rw [lead_append_of_ne_nil spelled.nonempty]
  generalize lead row = kind at isName
  -- the words that begin a query are reserved
  unfold isQueryStart
  split <;> first | rfl | cases isName

/-- A table by its name, with an alias or without. -/
theorem tablePrimary_named {name : QualifiedName} (span : Span) (spelled : name.IsSpelled row)
    {others : List Kind} {good : Rel → Prop} (stops : lead others ≠ .symbol .dot)
    (next : ∀ found start, found.erase = (Rel.table name span).erase →
      Reads limit True (withAlias found start) depth others good depth rest) {phrases : Phrases} :
    Reads limit True (tablePrimary phrases) depth (row ++ others) good depth rest := by
  refine .still here_still fun start => ?_
  have noParen : lead (row ++ others) ≠ .symbol .leftParen := by
    obtain ⟨part, isName⟩ := spelled.lead_name?
    rw [lead_append_of_ne_nil spelled.nonempty]
    exact ne_of_spells isName rfl
  have table : Reads limit True (tableFactor phrases) depth (row ++ others)
      (fun r => r.erase = (Rel.table name span).erase) depth others :=
    (atSign_no noParen).step (namedTable_reads span spelled stops)
  exact table.after fun found same => next found start same

/-- The induction is on how the tree is written. A row that one table may be written with is read
as a table, and each row is read by the loop. -/
theorem JoinText.reads {single : Bool} (text : JoinText single rel row) :
    (single = true → rel.ReadsTable row) ∧ ∃ first begin others rounds, row = begin ++ others ∧
      ReadsSource rel first begin others rounds := by
  -- one table is a tree of joins that is read in no round
  have asTable {single : Bool} {rel : Rel} {row : List Kind}
      (noQuery : ∀ others, isQueryStart (lead (row ++ others)) = false)
      (table : rel.ReadsTable row) :
      (single = true → rel.ReadsTable row) ∧ ∃ first begin others rounds, row = begin ++ others ∧
        ReadsSource rel first begin others rounds :=
    ⟨fun _ => table, rel, row, [], 0, (List.append_nil row).symm, table.source noQuery⟩
  induction text with
  | table span spelled =>
    refine asTable (noQuery_spelled spelled) fun _ _ ends => ?_
    refine tablePrimary_named span spelled ends.dot fun found start same => ?_
    exact (withAlias_none ends.toEndsSource found start).weaken fun r isFound => by rw [isFound, same]
  | @named single name label columns row other behind span span' spelled isAlias listed =>
    refine asTable (fun others => ?_) fun {_ _ _ rest} _ _ ends => ?_
    · rw [List.append_assoc]
      exact noQuery_spelled spelled _
    have stops : lead (other ++ (behind ++ rest)) ≠ .symbol .dot := by
      cases isAlias <;> simp
    rw [List.append_assoc, List.append_assoc]
    refine tablePrimary_named span spelled stops fun found start same => ?_
    refine (withAlias_written isAlias listed found start ends.paren).weaken fun r isNamed => ?_
    rw [isNamed, same]
    simp [Rel.erase]
  | enclosed inner ih =>
    obtain ⟨-, first, begin, others, rounds, rfl, source⟩ := ih
    exact asTable (fun _ => rfl) source.enclosed
  | cross span _ _ ih ih' =>
    obtain ⟨-, first, begin, others, rounds, rfl, source⟩ := ih
    exact ⟨nofun, first, begin, _, rounds + 1, List.append_assoc .., source.step rfl
      (ReadsJoin.cross span (ih'.1 rfl))⟩
  | natural kind words span spelled _ _ ih ih' =>
    obtain ⟨-, first, begin, others, rounds, rfl, source⟩ := ih
    exact ⟨nofun, first, begin, _, rounds + 1, List.append_assoc .., source.step rfl
      (ReadsJoin.natural span spelled (ih'.1 rfl))⟩
  | qualified kind words span spelled _ _ isWritten ih ih' =>
    obtain ⟨-, first, begin, others, rounds, rfl, source⟩ := ih
    obtain ⟨-, first', begin', others', rounds', rfl, source'⟩ := ih'
    exact ⟨nofun, first, begin, _, rounds + 1, List.append_assoc .., source.step
      (lead_spelled spelled _).1 (ReadsJoin.qualified span spelled source' isWritten)⟩

end Rel

namespace Statement

open Parse

/-- Selects all columns of a source. -/
def allColumns (item : Rel) : Statement :=
  .select (bareQuery (.select (projection [.asterisk none default] [item] default)) default) default

/-- Joined tables are read from each row of tokens that writes them: the source in `FROM` is the
same tree of joins. -/
theorem parse_joins {rel : Rel} {text : String} {row : List Kind} (written : Rel.JoinText false rel row)
    (splits : Scan.Splits text.toList row)
    (holds : ("SELECT * FROM " ++ text).utf8ByteSize < 2 ^ 63) :
    ∃ least, ∀ limit ≥ least, ∃ query select item span,
      parse limit ("SELECT * FROM " ++ text) = .ok (.select query span) ∧
        query.body = .select select ∧ select.sources = [item] ∧ rel.alike item = true := by
  obtain ⟨-, first, begin, others, rounds, rfl, source⟩ := written.reads
  have opening : Scan.Spaced "SELECT * FROM".toList
      [.keyword .SELECT, .symbol .star, .keyword .FROM] :=
    Scan.spaced_of_spaced? 14 (by decide +kernel)
  have whole : Scan.Splits ("SELECT * FROM " ++ text).toList
      (.keyword .SELECT :: .symbol .star :: .keyword .FROM :: (begin ++ others)) := by
    have isText : ("SELECT * FROM " ++ text).toList =
        "SELECT * FROM".toList ++ ' ' :: text.toList := by
      simp
    rw [isText]
    exact opening.before splits
  refine ⟨max (Outline.ofStatement (allColumns rel)).depth ((begin ++ others).length + 3) + 1,
    fun limit enough => ?_⟩
  have room := room_of_length whole holds limit (by simp only [List.length_cons]; omega)
  simp only [List.length_cons] at room
  have item : Reads limit True (Parse.source (Phrases.within (8 * (begin ++ others).length + 39))) 1
      (begin ++ others ++ []) (fun r => r.erase = rel.erase) 1 [] :=
    source.reads (by omega) (by omega) (.of_quiet rfl (by simp) rfl (by simp) rfl) rfl
  rw [List.append_nil] at item
  have bare := source_statement_reads (by omega) item (Nat.le_refl 10)
  obtain ⟨it, parsed, star, item, targetSpan, span, span', rfl, -, same⟩ :=
    parse_of_parts whole bare (by
      rintro it ⟨star, item, targetSpan, span, span', rfl, isStar, same⟩
      have depth : (Outline.ofStatement (.select (bareQuery (.select (projection [star] [item]
          targetSpan)) span) span')).depth = (Outline.ofStatement (allColumns rel)).depth := by
        rw [← Outline.ofStatement_erase, ← Outline.ofStatement_erase (allColumns rel)]
        simp [allColumns, bareQuery, projection, Statement.erase, Query.erase, Rel.erase,
          Select.erase, Expr.eraseAll, Rel.eraseAll, isStar, same, Expr.erase]
      omega)
  exact ⟨_, _, item, span', parsed, rfl, rfl, (Rel.alike_iff _ _).mpr same.symm⟩

/-- A left operand in parentheses, two conditions behind each other, and names that are spelled by
keywords. -/
theorem parse_joins_nested :
    ∃ least, ∀ limit ≥ least, ∃ query select item span,
      parse limit ("SELECT * FROM " ++
          "(a NATURAL LEFT JOIN b) JOIN c JOIN s.date AS value USING (k) USING (j, key)") =
          .ok (.select query span) ∧
        query.body = .select select ∧ select.sources = [item] ∧
        Rel.alike (.join .inner false (.usingColumns ["j", "key"])
          (.join .left true .absent (.table ⟨[], "a"⟩ default) (.table ⟨[], "b"⟩ default) default)
          (.join .inner false (.usingColumns ["k"]) (.table ⟨[], "c"⟩ default)
            (.named "value" [] (.table ⟨["s"], "date"⟩ default) default) default) default) item =
          true := by
  have splits : Scan.Splits
      "(a NATURAL LEFT JOIN b) JOIN c JOIN s.date AS value USING (k) USING (j, key)".toList
      [.symbol .leftParen, .identifier "a", .keyword .NATURAL, .keyword .LEFT, .keyword .JOIN,
        .identifier "b", .symbol .rightParen, .keyword .JOIN, .identifier "c", .keyword .JOIN,
        .identifier "s", .symbol .dot, .keyword .DATE, .keyword .AS, .keyword .VALUE,
        .keyword .USING, .symbol .leftParen, .identifier "k", .symbol .rightParen,
        .keyword .USING, .symbol .leftParen, .identifier "j", .symbol .comma, .keyword .KEY,
        .symbol .rightParen] :=
    (Scan.spaced_of_spaced? 80 (by decide +kernel)).splits
  have table (single : Bool) (name : Name) :
      Rel.JoinText single (.table ⟨[], name⟩ default) [.identifier name] :=
    .table default (QualifiedName.isSpelled_qualified ⟨[], name⟩)
  have dated : QualifiedName.IsSpelled ⟨["s"], "date"⟩
      [.identifier "s", .symbol .dot, .keyword .DATE] :=
    @QualifiedName.IsSpelled.intro _ (.identifier "s") [.keyword .DATE] (by decide +kernel)
  have left := Rel.JoinText.natural .left [.LEFT] default (by decide)
    (table false "a") (table true "b")
  have inner := Rel.JoinText.qualified .inner [] default (by decide) (table false "c")
    (.named default default dated
      (.worded (by decide +kernel : (Kind.keyword .VALUE).name? = some "value")) (.inl ⟨rfl, rfl⟩))
    (.usingColumns (@Name.AreListed.intro ["k"] (.identifier "k") [] rfl))
  have written := Rel.JoinText.qualified .inner [] default (by decide) left.enclosed inner
    (.usingColumns
      (@Name.AreListed.intro ["j", "key"] (.identifier "j") [.keyword .KEY] (by decide +kernel)))
  exact parse_joins written splits (by decide +kernel)

end Statement

end CanonicalSql
