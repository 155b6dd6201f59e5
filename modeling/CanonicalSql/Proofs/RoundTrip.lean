import CanonicalSql.Proofs.EraseKeeps
import CanonicalSql.Proofs.Lexing.Size
import CanonicalSql.Proofs.Limits
import CanonicalSql.Proofs.Reading.Statement

/-!
# Canonical text read back

The canonical text of a statement that has been read is read back as a statement like it,
within the same limit, if the statement is readable; if it has one of the shapes that
`Node.isUnreadable` names, an unexpected token is refused (`Statement.sql_readBack`). No third end
is possible: the text never stands for another statement, and it is never too deep.

The limit on the recursion is twice the limit on the depth of trees, but no more than the
greatest 64-bit word. Where it is less than twice, the recursion still suffices because no
tree is deeper than its text is long, and the text of a statement has fewer than `2 ^ 63`
bytes, as every string has that a machine can hold. This is the bound that the results ask for.
-/
namespace CanonicalSql

namespace Outline

theorem not_readable_iff {outline : Outline} :
    ¬ outline.Readable ↔ ∃ subject ∈ outline.nodes, subject.isUnreadable = true := by
  simp [Readable]

end Outline

theorem Failure.IsUnexpected.not_tooDeep {failure : Failure} (unexpected : failure.IsUnexpected) :
    ¬ failure.IsTooDeep := by
  obtain ⟨expected, found, span, rfl⟩ := unexpected
  rintro ⟨limit, place, same⟩
  cases same

/-- Reading a text that splits begins where all its tokens are in sight. -/
theorem State.ofStream_shows {text : String} {kinds : List Kind}
    (splits : Scan.Splits text.toList kinds) (limit : Nat) :
    ∃ start, State.ofStream limit (Lexer.ofText text).stream = .ok start ∧
      start.Shows limit 0 kinds := by
  obtain ⟨tokens, failure⟩ := Lexer.stream_of_splits splits
  unfold State.ofStream
  cases isTokens : (Lexer.ofText text).stream.tokens with
  | nil => simp [isTokens] at tokens
  | cons first ahead =>
    rw [isTokens] at tokens
    exact ⟨_, rfl, tokens, failure, rfl, rfl⟩

/-- A result that passes a test is there. -/
theorem exists_of_passes {α ε : Type} (result : Except ε α) (test : α → Bool)
    (passes : result.toOption.any test = true) : ∃ a, result = .ok a ∧ test a = true := by
  cases result with
  | error failure => cases passes
  | ok a => exact ⟨a, rfl, passes⟩

namespace Statement

variable {limit : Nat} {text : String} {statement : Statement}

/-- The two ends to which reading comes on a text whose tokens are read. -/
theorem parse_of_reads {accepts : Prop} {kinds : List Kind} {good : Statement → Prop}
    (splits : Scan.Splits text.toList kinds)
    (reads : Parse.Reads limit accepts Parse.statement 0 kinds good 0 []) :
    (∃ it, parse limit text = .ok it ∧ accepts ∧ good it) ∨
      ∃ failure, parse limit text = .error failure ∧ ¬ accepts ∧ failure.IsUnexpected := by
  obtain ⟨start, begins, shows⟩ := State.ofStream_shows splits limit
  simp only [parse, TokenStream.statement, begins]
  cases run : Parse.statement start with
  | ok it last =>
    obtain ⟨holds, isGood, -⟩ := reads.ok start it last shows run
    exact .inl ⟨it, rfl, holds, isGood⟩
  | error failure last =>
    obtain ⟨fails, unexpected⟩ := reads.error start failure last shows run
    exact .inr ⟨failure, rfl, fails, unexpected⟩

/-- The cap on the recursion leaves room for every tree within the limit. -/
theorem room_of_size (formed : statement.Formed) (holds : statement.sql.utf8ByteSize < 2 ^ 63)
    (within : (Outline.ofStatement statement).depth ≤ limit) :
    2 * (Outline.ofStatement statement).depth ≤ capOf limit := by
  have least := depth_le_size formed
  unfold capOf
  omega

/-- The two ends to which reading comes on canonical text. -/
theorem sql_readBack (formed : statement.Formed) (types : statement.TypesFit limit)
    (within : (Outline.ofStatement statement).depth ≤ limit)
    (holds : statement.sql.utf8ByteSize < 2 ^ 63) :
    (∃ it, parse limit statement.sql = .ok it ∧
        (Outline.ofStatement statement).Readable ∧ statement.alike it = true) ∨
      ∃ failure, parse limit statement.sql = .error failure ∧
        ¬ (Outline.ofStatement statement).Readable ∧ failure.IsUnexpected := by
  have fits : statement.Fits limit := ⟨formed, types, room_of_size formed holds within⟩
  rcases parse_of_reads (splits_sql formed) (Parse.statement_reads fits within) with
    ⟨it, read, readable, same⟩ | refused
  · exact .inl ⟨it, read, readable, (alike_iff_erase statement it).mpr same.symm⟩
  · exact .inr refused

/-- Like statements have the same canonical text. -/
theorem sql_eq_of_alike {other : Statement} (alike : statement.alike other = true) :
    statement.sql = other.sql := by
  rw [sql, sql, ← Canonical.ofStatement_erase statement, ← Canonical.ofStatement_erase other,
    (alike_iff_erase statement other).mp alike]

/-! ## The round trip -/

/-- A readable statement comes back from its canonical text, within the limit within which it
was read itself, and has the same canonical text then. -/
theorem parse_sql_of_readable (parsed : parse limit text = .ok statement)
    (holds : statement.sql.utf8ByteSize < 2 ^ 63)
    (readable : (Outline.ofStatement statement).Readable) :
    ∃ it, parse limit statement.sql = .ok it ∧ statement.alike it = true ∧
      it.sql = statement.sql := by
  obtain ⟨formed, types, within⟩ := accepted_of_parse parsed
  rcases sql_readBack formed types within holds with ⟨it, read, -, alike⟩ | ⟨-, -, unreadable, -⟩
  · exact ⟨it, read, alike, (sql_eq_of_alike alike).symm⟩
  · exact absurd readable unreadable

/-- A join, a subquery and grouping sets come back. -/
theorem parse_sql_of_readable_join :
    ∃ statement, parse 8 "SELECT a FROM t NATURAL JOIN u WHERE a IN (SELECT 1) GROUP BY CUBE (a)" =
        .ok statement ∧
      ∃ it, parse 8 statement.sql = .ok it ∧ statement.alike it = true ∧
        it.sql = statement.sql := by
  obtain ⟨statement, parsed, passes⟩ := exists_of_passes
    (parse 8 "SELECT a FROM t NATURAL JOIN u WHERE a IN (SELECT 1) GROUP BY CUBE (a)")
    (fun statement => decide (statement.sql.utf8ByteSize < 2 ^ 63) &&
      (Outline.ofStatement statement).nodes.all fun subject => !subject.isUnreadable)
    (by decide +kernel)
  rw [Bool.and_eq_true, decide_eq_true_eq] at passes
  refine ⟨statement, parsed, parse_sql_of_readable parsed passes.1 ?_⟩
  intro subject member
  simpa using List.all_eq_true.mp passes.2 subject member

/-- A table definition without columns does not come back: its list begins with a comma. -/
theorem parse_sql_constraints_alone :
    ∃ statement failure, parse 8 "CREATE TABLE t (UNIQUE (a))" = .ok statement ∧
      parse 8 statement.sql = .error failure := by
  obtain ⟨statement, parsed, passes⟩ := exists_of_passes
    (parse 8 "CREATE TABLE t (UNIQUE (a))")
    (fun statement => !(parse 8 statement.sql).isOk) (by decide +kernel)
  cases read : parse 8 statement.sql with
  | ok it =>
    rw [read] at passes
    cases passes
  | error failure => exact ⟨statement, failure, parsed, read⟩

/-- The canonical text of a statement that has been read is refused within the same limit if
and only if the statement has an unreadable shape, and otherwise it is read back as a statement
like it. -/
theorem sql_refused_iff (parsed : parse limit text = .ok statement)
    (holds : statement.sql.utf8ByteSize < 2 ^ 63) :
    ((∃ failure, parse limit statement.sql = .error failure) ↔
        ∃ subject ∈ (Outline.ofStatement statement).nodes, subject.isUnreadable = true) ∧
      ((∀ subject ∈ (Outline.ofStatement statement).nodes, subject.isUnreadable = false) →
        ∃ it, parse limit statement.sql = .ok it ∧ statement.alike it = true) ∧
      ∀ it, parse limit statement.sql = .ok it → statement.alike it = true := by
  obtain ⟨formed, types, within⟩ := accepted_of_parse parsed
  rw [← Outline.not_readable_iff]
  rcases sql_readBack formed types within holds with
    ⟨it, read, readable, alike⟩ | ⟨failure, refused, unreadable, -⟩
  · refine ⟨⟨?_, fun unreadable => absurd readable unreadable⟩, fun _ => ⟨it, read, alike⟩, ?_⟩
    · rintro ⟨failure, refused⟩
      rw [read] at refused
      cases refused
    · intro other same
      rw [read] at same
      cases same
      exact alike
  · refine ⟨⟨fun _ => unreadable, fun _ => ⟨failure, refused⟩⟩, fun readable =>
      absurd readable unreadable, fun it read => ?_⟩
    rw [refused] at read
    cases read

/-- A row as the count of `FETCH` is read, and is one of the shapes that do not come back. -/
theorem parse_row_count :
    ∃ statement, parse 8 "SELECT a FETCH FIRST (ROW (1)) ROWS ONLY" = .ok statement ∧
      statement.sql.utf8ByteSize < 2 ^ 63 ∧
      ∃ subject ∈ (Outline.ofStatement statement).nodes, subject.isUnreadable = true := by
  obtain ⟨statement, parsed, passes⟩ := exists_of_passes
    (parse 8 "SELECT a FETCH FIRST (ROW (1)) ROWS ONLY")
    (fun statement => decide (statement.sql.utf8ByteSize < 2 ^ 63) &&
      (Outline.ofStatement statement).nodes.any Node.isUnreadable)
    (by decide +kernel)
  rw [Bool.and_eq_true, decide_eq_true_eq, List.any_eq_true] at passes
  exact ⟨statement, parsed, passes⟩

/-- A row as the count of `FETCH` is refused. -/
theorem sql_refused_row_count :
    ∃ statement failure, parse 8 "SELECT a FETCH FIRST (ROW (1)) ROWS ONLY" = .ok statement ∧
      parse 8 statement.sql = .error failure := by
  obtain ⟨statement, parsed, holds, unreadable⟩ := parse_row_count
  obtain ⟨failure, refused⟩ := (sql_refused_iff parsed holds).1.mpr unreadable
  exact ⟨statement, failure, parsed, refused⟩

/-- Whether the statement defines a table. -/
def isCreate : Statement → Bool
  | .create _ => true
  | _ => false

theorem typesFit_of_not_isCreate (other : statement.isCreate = false) (bound : Nat) :
    statement.TypesFit bound := by
  cases statement with
  | create definition => cases other
  | _ => trivial

/-- The canonical text of a statement that has been read is never refused for its depth within a
limit that the depth of its tree keeps, or, if the statement defines a table, within a limit
within which the first text is read. -/
theorem sql_not_tooDeep (parsed : parse limit text = .ok statement)
    (holds : statement.sql.utf8ByteSize < 2 ^ 63) (bound : Nat)
    (keeps : if statement.isCreate then ∃ it, parse bound text = .ok it
      else (Outline.ofStatement statement).depth ≤ bound) :
    ∀ failure, parse bound statement.sql = .error failure → ¬ failure.IsTooDeep := by
  obtain ⟨formed, types, within⟩ := accepted_of_parse parsed
  have ends : (Outline.ofStatement statement).depth ≤ bound ∧ statement.TypesFit bound := by
    -- data types count levels that are no nodes, so for a definition the reading itself is the
    -- measure
    cases isCreate : statement.isCreate with
    | true =>
      rw [isCreate] at keeps
      obtain ⟨it, read⟩ := keeps
      obtain rfl := eq_of_parse parsed read
      have accepted := accepted_of_parse read
      exact ⟨accepted.depth, accepted.types⟩
    | false =>
      rw [isCreate] at keeps
      exact ⟨keeps, typesFit_of_not_isCreate isCreate bound⟩
  intro failure refused
  rcases sql_readBack formed ends.2 ends.1 holds with ⟨it, read, -⟩ | ⟨other, found, -, unexpected⟩
  · rw [read] at refused
    cases refused
  · rw [found] at refused
    cases refused
    exact unexpected.not_tooDeep

/-- A tree of depth four, read within a limit of eight, is read back within a limit of four. -/
theorem sql_not_tooDeep_operators :
    ∃ statement, parse 8 "SELECT 1 + 2" = .ok statement ∧
      ∀ failure, parse 4 statement.sql = .error failure → ¬ failure.IsTooDeep := by
  obtain ⟨statement, parsed, passes⟩ := exists_of_passes
    (parse 8 "SELECT 1 + 2")
    (fun statement => decide (statement.sql.utf8ByteSize < 2 ^ 63) &&
      (!statement.isCreate && decide ((Outline.ofStatement statement).depth ≤ 4)))
    (by decide +kernel)
  simp only [Bool.and_eq_true, decide_eq_true_eq, Bool.not_eq_true'] at passes
  obtain ⟨holds, other, within⟩ := passes
  exact ⟨statement, parsed, sql_not_tooDeep parsed holds 4 (by rwa [other])⟩

end Statement

end CanonicalSql
