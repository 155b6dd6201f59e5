import CanonicalSql.Proofs.Distinct.Definition
import CanonicalSql.Proofs.RoundTrip

/-!
# Statements told apart by their canonical text

Two statements that have been read are alike if and only if they have the same canonical text
(`Statement.alike_iff_sql_eq`). That the text does not hang on places is `Statement.sql_eq_of_alike`;
the other direction holds of statements whose text is refused as well as of those that are read
back. Both texts split into the same tokens, the first of which tells the sort of the statement, and
each sort is told by its parts.
-/
namespace CanonicalSql

/-! ## Insertions and deletions -/

namespace InsertSource

variable {source source' : InsertSource}

theorem agree (formed : source.Formed) (formed' : source'.Formed) :
    Agree (Past 10) source.tokens source'.tokens (source.erase = source'.erase) := by
  have noDefault {query : Query} (formed : query.Formed) (rest : List Kind) :
      lead (query.tokens ++ rest) ≠ .keyword .DEFAULT :=
    Query.lead_ne formed rest rfl (by simp)
  cases source with
  | defaultValues =>
    cases source' with
    | defaultValues => exact Agree.nil.tail.tail.mono (fun _ _ => trivial) fun _ => rfl
    | query query' => exact .of_lead fun _ rest' => (noDefault formed' rest').symm
  | query query =>
    cases source' with
    | defaultValues => exact .of_lead fun rest _ => noDefault formed rest
    | query query' =>
      exact (Query.distinct_of_formed query formed query' formed').mono (fun _ => id)
        (congrArg InsertSource.query)

end InsertSource

theorem Insert.agree {insertion insertion' : Insert} (formed : insertion.source.Formed)
    (formed' : insertion'.source.Formed) :
    Agree (Past 10) (Piece.kinds (Canonical.ofInsert insertion))
      (Piece.kinds (Canonical.ofInsert insertion'))
      ((Statement.insert insertion).erase = (Statement.insert insertion').erase) := by
  obtain ⟨table, columns, policy, source, span⟩ := insertion
  obtain ⟨table', columns', policy', source', span'⟩ := insertion'
  have policies := Parse.agree_of_reads 0 0 (fun _ => Parse.overriding_reads policy)
    fun _ => Parse.overriding_reads policy'
  have further := policies.append (InsertSource.agree formed formed')
    (fun rest _ => source.noOverriding formed rest) fun rest _ => source'.noOverriding formed' rest
  -- a parenthesis may open the columns or the rows: the token behind it tells which
  have reads (columns : List Name) (rest : List Kind) (ends : EndsColumns rest) :
      Parse.Reads 0 True Parse.insertColumns 0
        (Piece.kinds (Canonical.when (!columns.isEmpty) (Piece.names columns)) ++ rest) (· = columns)
        0 rest :=
    Parse.insertColumns_reads columns ends.noName
  have ends {source : InsertSource} (formed : source.Formed) (policy : Option Overriding)
      (rest : List Kind) : EndsColumns ((Overriding.tokens policy ++ source.tokens) ++ rest) := by
    rw [List.append_assoc]
    exact source.endsColumns formed policy rest
  have lists := (Parse.agree_of_reads 0 0 (reads columns) (reads columns')).append further
    (fun rest _ => ends formed policy rest) fun rest _ => ends formed' policy' rest
  have endsName {source : InsertSource} (formed : source.Formed) (columns : List Name)
      (policy : Option Overriding) (rest : List Kind) : EndsName
        ((Piece.kinds (Canonical.when (!columns.isEmpty) (Piece.names columns)) ++
          (Overriding.tokens policy ++ source.tokens)) ++ rest) := by
    cases columns with
    | nil => exact .of_lead (ends formed policy rest).dot
    | cons column columns => exact .of_lead (by simp [Canonical.when, Piece.names])
  have names := (Piece.qualified_agree table table').append lists
    (fun rest _ => endsName formed columns policy rest)
    fun rest _ => endsName formed' columns' policy' rest
  have text (table : QualifiedName) (columns : List Name) (policy : Option Overriding)
      (source : InsertSource) (span : Span) :
      Piece.kinds (Canonical.ofInsert ⟨table, columns, policy, source, span⟩) =
        .keyword .INSERT :: .keyword .INTO :: (Piece.kinds (Piece.qualified table) ++
          (Piece.kinds (Canonical.when (!columns.isEmpty) (Piece.names columns)) ++
            (Overriding.tokens policy ++ source.tokens))) := by
    cases columns <;> cases policy <;> cases source <;>
      simp [Canonical.ofInsert, Canonical.when, Canonical.optional, Overriding.tokens]
  rw [text, text]
  refine names.tail.tail.mono (fun _ => id) ?_
  rintro ⟨rfl, rfl, rfl, sameSource⟩
  rw [Statement.erase, Statement.erase, sameSource]

theorem Delete.agree {deletion deletion' : Delete} (formed : Expr.OptionFormed deletion.selection)
    (formed' : Expr.OptionFormed deletion'.selection) :
    Agree (Past 10) (Piece.kinds (Canonical.ofDelete deletion))
      (Piece.kinds (Canonical.ofDelete deletion'))
      ((Statement.delete deletion).erase = (Statement.delete deletion').erase) := by
  obtain ⟨table, only, selection, span⟩ := deletion
  obtain ⟨table', only', selection', span'⟩ := deletion'
  have marks : Agree (fun rest => lead rest ≠ .keyword .ONLY)
      (if only then [Kind.keyword .ONLY] else []) (if only' then [Kind.keyword .ONLY] else [])
      (only = only') := by
    intro rest rest' other other' eq
    cases only <;> cases only'
    · exact ⟨rfl, eq⟩
    · exact absurd (congrArg lead eq) other
    · exact absurd (congrArg lead eq).symm other'
    · exact ⟨rfl, (List.cons.inj eq).2⟩
  have isRank : (Kind.keyword .WHERE).rank = 2 := rfl
  have selections := Expr.clauses isRank formed' fun it member =>
    Expr.distinct_of_formed (Expr.optionFormed_iff.mp formed it member)
  have selections := selections.agree.mono (fun _ (past : Past 10 _) => past.mono (by decide)) id
  have noDot (selection : Option Expr) (rest : List Kind) (past : Past 10 rest) :
      EndsName ((Canonical.ofClause .WHERE selection).flatMap Piece.kinds ++ rest) := by
    cases selection with
    | none => exact .of_lead past.stops.dot
    | some expr => exact .of_lead (by simp [Canonical.ofClause])
  have names := (Piece.qualified_agree table table').append selections (noDot selection)
    (noDot selection')
  have noOnly (table : QualifiedName) (row rest : List Kind) :
      lead ((Piece.kinds (Piece.qualified table) ++ row) ++ rest) ≠ .keyword .ONLY := by
    obtain ⟨part, more, text⟩ := Piece.lead_qualified table (row ++ rest)
    simp [text]
  have text (table : QualifiedName) (only : Bool) (selection : Option Expr) (span : Span) :
      Piece.kinds (Canonical.ofDelete ⟨table, only, selection, span⟩) =
        .keyword .DELETE :: .keyword .FROM :: ((if only then [Kind.keyword .ONLY] else []) ++
          (Piece.kinds (Piece.qualified table) ++
            (Canonical.ofClause .WHERE selection).flatMap Piece.kinds)) := by
    cases only <;> cases selection <;>
      simp [Canonical.ofDelete, Canonical.optional, Canonical.ofClause]
  rw [text, text]
  refine (marks.append names (fun rest _ => noOnly table _ rest)
    fun rest _ => noOnly table' _ rest).tail.tail.mono (fun _ => id) ?_
  rintro ⟨rfl, rfl, sameSelection⟩
  rw [Statement.erase, Statement.erase, sameSelection]

/-! ## Statements -/

namespace Statement

variable {limit limit' : Nat} {text text' : String} {statement other : Statement}

/-- The word with which a statement begins that is no query. -/
def word? : Statement → Option Keyword
  | .create _ => some .CREATE
  | .insert _ => some .INSERT
  | .delete _ => some .DELETE
  | .select .. => none

/-- The word with which a row begins, if it is that of a statement that is no query. -/
def wordOf? : Kind → Option Keyword
  | .keyword .CREATE => some .CREATE
  | .keyword .INSERT => some .INSERT
  | .keyword .DELETE => some .DELETE
  | _ => none

theorem wordOf?_lead (formed : statement.Formed) (rest : List Kind) :
    wordOf? (lead (Piece.kinds (Canonical.ofStatement statement) ++ rest)) = statement.word? := by
  cases statement with
  | create definition => simp [Canonical.ofStatement, Canonical.ofCreate, wordOf?, word?]
  | insert insertion => simp [Canonical.ofStatement, Canonical.ofInsert, wordOf?, word?]
  | delete deletion => simp [Canonical.ofStatement, Canonical.ofDelete, wordOf?, word?]
  | select query span =>
    show wordOf? (lead (query.tokens ++ rest)) = none
    unfold wordOf?
    split
    · next isLead => exact absurd isLead (Query.lead_ne formed rest rfl (by simp))
    · next isLead => exact absurd isLead (Query.lead_ne formed rest rfl (by simp))
    · next isLead => exact absurd isLead (Query.lead_ne formed rest rfl (by simp))
    · rfl

/-- Statements whose tokens begin the same text are the same but for their places. -/
theorem agree (formed : statement.Formed) (formed' : other.Formed)
    (types : statement.TypesFit limit) (types' : other.TypesFit limit) :
    Agree (Past 10) (Piece.kinds (Canonical.ofStatement statement))
      (Piece.kinds (Canonical.ofStatement other)) (statement.erase = other.erase) := by
  intro rest rest' past past' eq
  have same : statement.word? = other.word? := by
    rw [← wordOf?_lead formed rest, eq, wordOf?_lead formed' rest']
  cases statement with
  | create definition =>
    cases other with
    | create definition' =>
      obtain ⟨sameDefinition, left⟩ := Create.agree formed formed' types types'
        (past.ne (by decide)) (past'.ne (by decide)) eq
      exact ⟨congrArg Statement.create sameDefinition, left⟩
    | insert | delete | select => cases same
  | insert insertion =>
    cases other with
    | insert insertion' => exact Insert.agree formed.2.2 formed'.2.2 past past' eq
    | create | delete | select => cases same
  | delete deletion =>
    cases other with
    | delete deletion' => exact Delete.agree formed.2 formed'.2 past past' eq
    | create | insert | select => cases same
  | select query span =>
    cases other with
    | select query' span' =>
      obtain ⟨sameQuery, left⟩ :=
        Query.distinct_of_formed query formed query' formed' past past' eq
      exact ⟨by rw [erase, erase, sameQuery], left⟩
    | create | insert | delete => cases same

theorem TypesFit.mono {bound : Nat} (types : statement.TypesFit limit) (less : limit ≤ bound) :
    statement.TypesFit bound := by
  cases statement with
  | create definition =>
    intro column member
    have fits := types column member
    unfold capOf at fits ⊢
    omega
  | _ => trivial

/-- The canonical text of a statement has one row of tokens. -/
theorem kinds_eq_of_sql_eq (formed : statement.Formed) (formed' : other.Formed)
    (same : statement.sql = other.sql) :
    Piece.kinds (Canonical.ofStatement statement) = Piece.kinds (Canonical.ofStatement other) := by
  have tokens := (Lexer.stream_of_splits (splits_sql formed)).1
  rw [same, (Lexer.stream_of_splits (splits_sql formed')).1] at tokens
  exact (List.append_cancel_right tokens).symm

/-- Two statements that have been read, from whatever texts and within whatever limits, are alike
if and only if they have the same canonical text. -/
theorem alike_iff_sql_eq (parsed : parse limit text = .ok statement)
    (parsed' : parse limit' text' = .ok other) :
    statement.alike other = true ↔ statement.sql = other.sql := by
  obtain ⟨formed, types, -⟩ := accepted_of_parse parsed
  obtain ⟨formed', types', -⟩ := accepted_of_parse parsed'
  constructor
  · exact sql_eq_of_alike
  · intro same
    have one := agree formed formed' (types.mono (Nat.le_max_left limit limit'))
      (types'.mono (Nat.le_max_right limit limit'))
    have kinds := kinds_eq_of_sql_eq formed formed' same
    have atEnd : Past 10 [] := Nat.le_refl 10
    obtain ⟨erased, -⟩ := one atEnd atEnd (by rw [kinds])
    exact (alike_iff_erase statement other).mpr erased

/-- A row as the count of `FETCH` has a text that is refused, and is told by it all the same. -/
theorem alike_iff_sql_eq_row_count :
    ∃ statement other, parse 8 "SELECT a FETCH FIRST (ROW (1)) ROWS ONLY" = .ok statement ∧
      parse 9 "select a fetch first (row(1)) row only" = .ok other ∧
      (statement.alike other = true ↔ statement.sql = other.sql) := by
  obtain ⟨statement, parsed, -⟩ := parse_row_count
  obtain ⟨other, parsed', -⟩ := exists_of_passes
    (parse 9 "select a fetch first (row(1)) row only") (fun _ => true) (by decide +kernel)
  exact ⟨statement, other, parsed, parsed', alike_iff_sql_eq parsed parsed'⟩

end Statement

end CanonicalSql
