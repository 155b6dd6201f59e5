import CanonicalSql.Proofs.Course.Stream
import CanonicalSql.Proofs.Failing.Query

/-!
# Failing statements

What fails in a query or in a condition makes the statement fail that it belongs to, and a text
that begins with the statement is not read (`FailsStatement.parse`).
-/
namespace CanonicalSql

open Parse

variable {tokens : List Token} {failure : Failure} {row rest : List Kind}
  {limit depth : Nat}

/-- Where a statement is expected, the step fails within the row. -/
def FailsStatement (tokens : List Token) (failure : Failure) (row : List Kind) : Prop :=
  ∀ {limit : Nat}, 2 * row.length + 1 ≤ capOf limit →
    Fails tokens failure limit 0 bareStatement row

theorem FailsQuery.whole (given : FailsQuery tokens failure row)
    (room : depth + 2 * row.length + 1 ≤ capOf limit) :
    Fails tokens failure limit depth wholeQuery row :=
  .forState (given.query (Nat.le_refl _) room)

theorem FailsOperand.whole (given : FailsOperand tokens failure 0 row)
    (room : depth + 2 * row.length + 1 ≤ capOf limit) :
    Fails tokens failure limit depth wholeExpression row :=
  .forState (given.expression (Nat.le_refl _) room)

/-- A query that is a statement. -/
theorem FailsQuery.statement (given : FailsQuery tokens failure row) :
    FailsStatement tokens failure row := fun {limit} room => by
  have selects : Fails tokens failure limit 0 selectStatement row :=
    .still here_still fun _ => (given.whole (by omega)).bind
  refine .look kind_looks ?_
  rcases given.opens with starts | ⟨opens, -⟩
  · unfold isQueryStart at starts
    split at starts
    case h_5 => cases starts
    all_goals
      next isWord =>
        rw [isWord]
        exact selects
  · rw [opens]
    exact selects

/-! ### Insertions -/

/-- The columns of an insertion, if any are named. -/
inductive Parse.SpellsColumns : List Kind → Prop
  | absent : SpellsColumns []
  | names {columns : List Kind} {last : Kind} (each : ∀ kind ∈ columns, ∃ name, kind.name? = some name)
    (isName : ∃ name, last.name? = some name) :
    SpellsColumns (.symbol .leftParen :: (beforeCommas (columns.map ([·])) ++
      [last, .symbol .rightParen]))

/-- What an insertion begins with, up to where its rows come from. -/
inductive Parse.OpensInsert : List Kind → Prop
  | intro {table : QualifiedName} {name columns : List Kind} (spelled : table.IsSpelled name)
    (isColumns : SpellsColumns columns) (policy : Option Overriding) :
    OpensInsert (.keyword .INSERT :: .keyword .INTO ::
      (name ++ (columns ++ Overriding.tokens policy)))

/-- Columns are read in front of what is no name in parentheses. -/
theorem Parse.SpellsColumns.reads {columns : List Kind} (spells : SpellsColumns columns)
    (noName : lead rest = .symbol .leftParen → (lead (rest.drop 1)).name? = none) :
    Reads limit True insertColumns depth (columns ++ rest) (fun _ => True) depth rest := by
  cases spells with
  | absent =>
    by_cases isParen : lead rest = .symbol .leftParen
    · refine (atSign_yes isParen).step (peek_reads.step ?_)
      rw [noName isParen]
      exact .pure trivial trivial
    · exact (atSign_no isParen).step (.pure trivial trivial)
  | @names columns last each isName =>
    simp only [List.cons_append, List.append_assoc, List.nil_append]
    have first : (lead (beforeCommas (columns.map ([·])) ++
        last :: .symbol .rightParen :: rest)).name?.isSome = true := by
      cases columns with
      | nil =>
        obtain ⟨name, spells⟩ := isName
        simp [beforeCommas, spells]
      | cons column columns =>
        obtain ⟨name, spells⟩ := each column List.mem_cons_self
        simp [beforeCommas, spells]
    refine (atSign_yes (lead_cons _ _)).step (peek_reads.step ?_)
    rw [List.drop_one, List.tail_cons, if_pos first]
    obtain ⟨name, spells⟩ := isName
    have final : Reads limit True identifier depth ([last] ++ .symbol .rightParen :: rest)
        (fun _ => True) depth (.symbol .rightParen :: rest) :=
      (identifier_spelled spells).weaken fun _ _ => trivial
    refine (Reads.parenthesized (beforeCommas_reads (fun other member behind _ => ?_) final
      (by simp))).weaken fun _ _ => trivial
    obtain ⟨column, isColumn, rfl⟩ := List.mem_map.mp member
    obtain ⟨name, spells⟩ := each column isColumn
    exact (identifier_spelled spells).weaken fun _ _ => trivial

theorem Parse.OpensQuery.ne (opens : OpensQuery row) {kind : Kind}
    (noStart : isQueryStart kind = false) (noParen : kind ≠ .symbol .leftParen) : lead row ≠ kind := by
  rintro rfl
  rcases opens with starts | ⟨isParen, -⟩
  · rw [starts] at noStart
    cases noStart
  · exact noParen isParen

/-- A query that an insertion takes its rows from. -/
theorem FailsQuery.insert (given : FailsQuery tokens failure row) {front : List Kind}
    (begins : OpensInsert front) : FailsStatement tokens failure (front ++ row) := by
  cases begins with
  | @intro table name columns spelled isColumns policy =>
  simp only [List.cons_append, List.append_assoc]
  intro limit room
  simp only [List.length_append, List.length_cons] at room
  have noDot : lead (columns ++ (Overriding.tokens policy ++ row)) ≠ .symbol .dot := by
    cases isColumns with
    | absent =>
      rcases policy with _ | _ | _
      · exact given.opens.ne rfl (by simp)
      · nofun
      · nofun
    | names => simp
  have noName (isParen : lead (Overriding.tokens policy ++ row) = .symbol .leftParen) :
      (lead ((Overriding.tokens policy ++ row).drop 1)).name? = none := by
    rcases policy with _ | _ | _
    · rcases given.opens with starts | ⟨-, noName⟩
      · change lead row = _ at isParen
        rw [isParen] at starts
        cases starts
      · exact noName
    · cases isParen
    · cases isParen
  refine .look kind_looks (Fails.bind ?_)
  refine .still here_still fun _ => .expectWord (.expectWord ?_)
  refine .step (qualifiedName_spelled spelled noDot) (fun _ _ => anyName_runs) ?_
  refine .after (isColumns.reads noName) (fun _ _ => insertColumns_runs) fun _ _ => ?_
  refine .step (overriding_reads policy (given.opens.ne rfl (by simp))) (fun _ _ => overriding_runs)
    (Fails.bind ?_)
  refine .passWord (given.opens.ne rfl (by simp)) (.look startsQuery_looks ?_)
  have whole : Fails tokens failure limit 0 (do return InsertSource.query (← wholeQuery)) row :=
    (given.whole (by omega)).bind
  rcases given.opens with starts | ⟨isParen, -⟩
  · rw [if_pos starts]
    exact whole
  · rw [isParen]
    refine .look (atSign_looks _) ?_
    rw [if_pos (by simp [isParen])]
    exact whole

/-! ### Deletions -/

/-- The condition of a deletion. -/
theorem FailsOperand.delete (given : FailsOperand tokens failure 0 row) (only : Bool)
    {table : QualifiedName} {name : List Kind} (spelled : table.IsSpelled name)
    (first : only = false → lead name ≠ .keyword .ONLY) :
    FailsStatement tokens failure (.keyword .DELETE :: .keyword .FROM ::
      ((if only then [.keyword .ONLY] else []) ++ (name ++ .keyword .WHERE :: row))) := by
  intro limit room
  simp only [List.length_append, List.length_cons] at room
  refine .look kind_looks (Fails.bind ?_)
  refine .still here_still fun _ => .expectWord (.expectWord ?_)
  refine .step (takeWord_mark only fun isFalse => ?_) (fun _ _ => (takeWord_runs _).passes) ?_
  · rw [lead_append_of_ne_nil spelled.nonempty]
    exact first isFalse
  refine .step (qualifiedName_spelled spelled (by simp)) (fun _ _ => anyName_runs) (Fails.bind ?_)
  exact .takeWord (given.whole (by omega)).bind

/-! ### Texts -/

/-- A text that begins with a failing statement is not read, if the limit on the depth of trees
leaves room for its tokens. -/
theorem FailsStatement.parse {text : String}
    (given : FailsStatement (Lexer.ofText text).stream.tokens failure row)
    (splits : Scan.Splits text.toList row) (holds : text.utf8ByteSize < 2 ^ 63) :
    ∀ limit ≥ row.length + 1, Statement.parse limit text = .error failure := by
  intro limit enough
  have room := room_of_length splits holds limit (by omega)
  obtain ⟨start, begins, shows⟩ := State.ofStream_shows splits limit
  have stands := State.ofStream_at (Lexer.ofText text).stream_flows begins
  have whole : Fails (Lexer.ofText text).stream.tokens failure limit 0 statement row :=
    Fails.bind (given (by omega))
  obtain ⟨t, run⟩ := whole start 0 shows stands
  simp only [Statement.parse, TokenStream.statement, begins, run]

end CanonicalSql
