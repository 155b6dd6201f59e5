import CanonicalSql.Canonical.Statement
import CanonicalSql.Grammar.Definition
import CanonicalSql.Proofs.Image.Statement
import CanonicalSql.Proofs.Reading.DataType
import CanonicalSql.Proofs.Reading.Query

/-!
# Reading table definitions

A column is read back clause by clause: its name and type, its collation, its default
value and its constraints, each told by the word that it begins with. The columns and the
constraints of a table form one list of elements. Without columns that list begins with a
comma, which no element begins with.
-/
namespace CanonicalSql

namespace Parse

variable {limit depth : Nat} {rest : List Kind}

/-! ## Whole expressions and queries -/

/-- A rule that is read with as many levels as the tokens left may need, of which there are
more than one. -/
theorem forState_reads {α : Type} {accepts : Prop} {rule : Phrases → Parse α} {kinds : List Kind}
    {good : α → Prop}
    (reads : ∀ phrases : Phrases, phrases.ReadBack limit (8 * kinds.length + 15) →
      Reads limit accepts (rule phrases.above) depth kinds good depth rest) :
    Reads limit accepts (do rule (← Phrases.forState)) depth kinds good depth rest := by
  have within (s : State) (shows : s.Shows limit depth kinds) :
      Reads limit accepts (rule (Phrases.within (Phrases.boundFor s))) depth kinds good depth
        rest := by
    have bound : Phrases.boundFor s = 8 * kinds.length + 15 + 1 := by
      rw [Phrases.boundFor, shows.ahead_length]
      omega
    rw [bound]
    exact reads _ (phrases_reads limit _)
  exact ⟨fun s a s' shows run => (within s shows).ok s a s' shows run,
    fun s failure s' shows run => (within s shows).error s failure s' shows run⟩

theorem wholeExpression_reads {expr : Expr} (formed : expr.Formed .value)
    (room : depth + 2 * (Outline.ofExpr expr).depth ≤ capOf limit + 1) (ends : Ends 0 rest) :
    Reads limit (Outline.ofExpr expr).Readable wholeExpression depth (expr.tokens ++ rest)
      (fun e => e.erase = expr.erase) depth rest := by
  have level := Outline.depth_ofExpr expr
  refine forState_reads fun phrases reads => ?_
  refine .nested (by omega) ((above_reads reads).operand formed ?_ (by omega) ends)
  rw [List.length_append]
  omega

theorem wholeQuery_reads {query : Query} (formed : query.Formed)
    (room : depth + 2 * (Outline.ofQuery query).depth ≤ capOf limit + 1) (past : Past 10 rest) :
    Reads limit (Outline.ofQuery query).Readable wholeQuery depth (query.tokens ++ rest)
      (fun q => q.erase = query.erase) depth rest := by
  refine forState_reads fun phrases reads => (above_reads reads).query formed ?_ room past
  rw [List.length_append]
  omega

/-! ## References -/

theorem referentialAction_reads (action : ReferentialAction) :
    Reads limit True referentialAction depth (action.words.map .keyword ++ rest) (· = action)
      depth rest := by
  refine word?_looks.reads.step ?_
  cases action with
  | cascade | restrict => exact advance_reads.after fun _ _ => .pure trivial rfl
  | setNull | setDefault =>
    refine advance_reads.after fun _ _ => word?_looks.reads.step ?_
    exact advance_reads.after fun _ _ => .pure trivial rfl
  | noAction =>
    exact advance_reads.after fun _ _ => (expectWord_reads .ACTION).step (.pure trivial rfl)

/-- Both triggered actions are written, the one on deletion first. -/
theorem triggers_reads (actions : TriggeredActions) (stops : lead rest ≠ .keyword .ON) :
    Reads limit True (loop triggerStep {}) depth
      (.keyword .ON :: .keyword .DELETE :: (actions.onDelete.words.map .keyword ++
        .keyword .ON :: .keyword .UPDATE :: (actions.onUpdate.words.map .keyword ++ rest)))
      (· = ⟨some actions.onDelete, some actions.onUpdate⟩) depth rest := by
  have onDelete : Reads limit True (triggerStep {}) depth
      (.keyword .ON :: .keyword .DELETE :: (actions.onDelete.words.map .keyword ++
        .keyword .ON :: .keyword .UPDATE :: (actions.onUpdate.words.map .keyword ++ rest)))
      (fun next => ∃ v, next = some v ∧ v = ⟨some actions.onDelete, none⟩) depth
      (.keyword .ON :: .keyword .UPDATE :: (actions.onUpdate.words.map .keyword ++ rest)) := by
    refine (takeWord_yes .ON).step ((atWord_yes rfl).step (advance_reads.after fun _ _ => ?_))
    exact (referentialAction_reads _).step (.pure trivial ⟨_, rfl, rfl⟩)
  have onUpdate : Reads limit True (triggerStep ⟨some actions.onDelete, none⟩) depth
      (.keyword .ON :: .keyword .UPDATE :: (actions.onUpdate.words.map .keyword ++ rest))
      (fun next => ∃ v, next = some v ∧ v = ⟨some actions.onDelete, some actions.onUpdate⟩)
      depth rest := by
    refine (takeWord_yes .ON).step ((atWord_no (by simp)).step ?_)
    refine (atWord_yes rfl).step (advance_reads.after fun _ _ => ?_)
    exact (referentialAction_reads _).step (.pure trivial ⟨_, rfl, rfl⟩)
  refine (Loops.next onDelete id ?_ ?_).loop
  · simp only [List.length_cons, List.length_append]
    omega
  · rintro - v rfl
    refine .next onUpdate id ?_ ?_
    · simp only [List.length_cons, List.length_append]
      omega
    · rintro - v rfl
      exact .stop ((takeWord_no stops).step (.pure trivial rfl)) trivial rfl

theorem matchOption_reads (option : MatchOption) :
    Reads limit True matchOption depth (.keyword .MATCH :: .keyword option.word :: rest)
      (· = option) depth rest := by
  refine (takeWord_yes .MATCH).step (word?_looks.reads.step ?_)
  cases option <;> exact advance_reads.after fun _ _ => .pure trivial rfl

theorem references_reads (target : References) (stops : lead rest ≠ .keyword .ON) :
    Reads limit True references depth (Piece.kinds (Canonical.ofReferences target) ++ rest)
      (fun it => it.erase = target.erase) depth rest := by
  obtain ⟨table, columns, option, actions, span⟩ := target
  have text : Piece.kinds (Canonical.ofReferences ⟨table, columns, option, actions, span⟩) ++
      rest = .keyword .REFERENCES :: (Piece.kinds (Piece.qualified table) ++
        (Piece.kinds (Canonical.when (!columns.isEmpty) (Piece.names columns)) ++
          .keyword .MATCH :: .keyword option.word ::
            (.keyword .ON :: .keyword .DELETE :: (actions.onDelete.words.map .keyword ++
              .keyword .ON :: .keyword .UPDATE ::
                (actions.onUpdate.words.map .keyword ++ rest))))) := by
    cases columns <;> simp [Canonical.ofReferences, Canonical.when]
  rw [text]
  refine .still here_still fun start => (expectWord_reads .REFERENCES).step ?_
  refine (qualifiedName_reads table ?_).step ?_
  · cases columns <;> simp [Canonical.when, Piece.names]
  refine (optionalNames_reads columns (by simp)).step ?_
  refine (matchOption_reads option).step ((triggers_reads actions stops).step ?_)
  exact .still (spanFrom_still start) fun _ => .pure trivial rfl

/-! ## Constraints -/

theorem constraintName_reads (name : Option QualifiedName) (noName : lead rest ≠ .keyword .CONSTRAINT)
    (noDot : lead rest ≠ .symbol .dot) :
    Reads limit True constraintName depth (Piece.kinds (Canonical.ofConstraintName name) ++ rest)
      (· = name) depth rest := by
  cases name with
  | none => exact (takeWord_no noName).step (.pure trivial rfl)
  | some name =>
    have text : Piece.kinds (Canonical.ofConstraintName (some name)) ++ rest =
        .keyword .CONSTRAINT :: (Piece.kinds (Piece.qualified name) ++ rest) := by
      simp [Canonical.ofConstraintName, Canonical.optional]
    rw [text]
    exact (takeWord_yes .CONSTRAINT).step ((qualifiedName_reads name noDot).step
      (.pure trivial rfl))

theorem columnConstraintKind_reads (kind : ColumnConstraintKind)
    (stops : lead rest ≠ .keyword .ON) :
    Reads limit True columnConstraintKind depth
      (Piece.kinds (Canonical.ofColumnConstraintKind kind) ++ rest)
      (fun it => it.erase = kind.erase) depth rest := by
  refine word?_looks.reads.step ?_
  cases kind with
  | notNull =>
    exact advance_reads.after fun _ _ => (expectWord_reads .NULL).step (.pure trivial rfl)
  | unique => exact advance_reads.after fun _ _ => .pure trivial rfl
  | primaryKey =>
    exact advance_reads.after fun _ _ => (expectWord_reads .KEY).step (.pure trivial rfl)
  | foreignKey target =>
    exact (references_reads target stops).after fun it same => .pure trivial (by
      simp [ColumnConstraintKind.erase, same])

theorem columnConstraint_reads (constraint : ColumnConstraint)
    (stops : lead rest ≠ .keyword .ON) :
    Reads limit True columnConstraint depth
      (Piece.kinds (Canonical.ofColumnConstraint constraint) ++ rest)
      (fun it => it.erase = constraint.erase) depth rest := by
  obtain ⟨name, kind, span⟩ := constraint
  simp only [Canonical.ofColumnConstraint, Piece.kinds_append, List.append_assoc]
  refine .still here_still fun start => (constraintName_reads name ?_ ?_).step ?_
  · cases kind <;> simp [Canonical.ofColumnConstraintKind, Canonical.ofReferences]
  · cases kind <;> simp [Canonical.ofColumnConstraintKind, Canonical.ofReferences]
  · refine (columnConstraintKind_reads kind stops).after fun it same => ?_
    exact .still (spanFrom_still start) fun _ => .pure trivial (by
      simp [ColumnConstraint.erase, same])

theorem tableConstraintKind_reads {constraint : TableConstraint} (formed : constraint.Formed)
    (stops : lead rest ≠ .keyword .ON) :
    Reads limit True tableConstraintKind depth
      (Piece.kinds (Canonical.ofTableConstraintKind constraint.kind) ++ rest)
      (fun it => it.erase = constraint.kind.erase) depth rest := by
  obtain ⟨name, kind, span⟩ := constraint
  refine word?_looks.reads.step ?_
  cases kind with
  | unique columns =>
    exact advance_reads.after fun _ _ => (names_reads formed.2.1).step (.pure trivial rfl)
  | primaryKey columns =>
    refine advance_reads.after fun _ _ => (expectWord_reads .KEY).step ?_
    exact (names_reads formed.2.1).step (.pure trivial rfl)
  | foreignKey columns target =>
    simp only [Canonical.ofTableConstraintKind, Piece.kinds_append, Piece.kinds_after,
      List.append_assoc]
    refine advance_reads.after fun _ _ => (expectWord_reads .KEY).step ?_
    refine (names_reads formed.2.1.1).step ?_
    exact (references_reads target stops).after fun it same => .pure trivial (by
      simp [TableConstraintKind.erase, same])

theorem tableConstraint_reads {constraint : TableConstraint} (formed : constraint.Formed)
    (stops : lead rest ≠ .keyword .ON) :
    Reads limit True tableConstraint depth
      (Piece.kinds (Canonical.ofTableConstraint constraint) ++ rest)
      (fun it => it.erase = constraint.erase) depth rest := by
  obtain ⟨name, kind, span⟩ := constraint
  simp only [Canonical.ofTableConstraint, Piece.kinds_append, List.append_assoc]
  refine .still here_still fun start => (constraintName_reads name ?_ ?_).step ?_
  · cases kind <;> simp [Canonical.ofTableConstraintKind]
  · cases kind <;> simp [Canonical.ofTableConstraintKind]
  · refine (tableConstraintKind_reads formed stops).after fun it same => ?_
    exact .still (spanFrom_still start) fun _ => .pure trivial (by
      simp [TableConstraint.erase, same])

/-! ## Default values -/

/-- The null default in the place of an expression: it stands in parentheses. -/
theorem enclosedNull_reads {phrases : Phrases} {bound : Nat}
    (reads : phrases.ReadBack limit bound) (fits : 3 ≤ bound) (room : depth + 2 ≤ capOf limit)
    (ends : Ends 0 rest) :
    Reads limit True phrases.above.expression depth
      (.symbol .leftParen :: .keyword .NULL :: .symbol .rightParen :: rest)
      (fun e => e.erase = .null default) depth rest := by
  have formed : (Expr.null default).Formed .value := by simp [Expr.Formed]
  have readable : (Outline.ofExpr (.null default)).Readable :=
    Outline.readable_ofExpr.mpr ⟨rfl, by simp [Outline.belowExpr]⟩
  have level : (Outline.ofExpr (.null default)).depth = 1 := by
    rw [Outline.depth_ofExpr]
    rfl
  have inside : Reads limit True phrases.expression (depth + 1)
      (.keyword .NULL :: .symbol .rightParen :: rest) (fun e => e.erase = .null default)
      (depth + 1) (.symbol .rightParen :: rest) :=
    (expression_reads reads formed fits (by omega) rfl).mono
      ⟨fun _ => trivial, fun _ => readable⟩ fun _ same => same
  have enclosed : Reads limit True (inParentheses phrases) (depth + 1)
      (.symbol .leftParen :: .keyword .NULL :: .symbol .rightParen :: rest)
      (fun e => e.erase = .null default) (depth + 1) rest := by
    refine .still here_still fun start => (expectSign_reads _).step ?_
    refine (startsQuery_no rfl).step (inside.after fun e same => ?_)
    have alone : Reads limit True (afterFirst phrases start e) (depth + 1)
        (.symbol .rightParen :: rest) (fun e => e.erase = .null default) (depth + 1) rest :=
      (atSign_no (by simp)).step ((expectSign_reads _).step (.pure trivial same))
    cases e with
    | subquery query span => cases same
    | _ => exact alone
  have first : Reads limit True (leading phrases) (depth + 1)
      (.symbol .leftParen :: .keyword .NULL :: .symbol .rightParen :: rest)
      (fun e => e.erase = .null default) (depth + 1) rest :=
    .still here_still fun _ => kind_reads.step
      (.still here_still fun _ => kind_reads.step enclosed)
  refine .nested (by omega) (.still here_still fun start => first.after fun e same => ?_)
  exact (operators_none ends.power e start).mono Iff.rfl fun a isLeft => by rw [isLeft, same]

end Parse

/-! ## Columns -/

/-- Whether the token may stand after a clause of a column. -/
def Kind.endsClause (kind : Kind) : Bool :=
  !Parse.continuesDefault kind && !kind.extendsType && !kind.isSuffix &&
    decide (kind ≠ .keyword .ON)

/-- What follows goes on with no clause of a column. -/
structure EndsClause (kinds : List Kind) : Prop where
  ends : Ends 0 kinds
  calm : (lead kinds).endsClause = true

namespace Kind

variable {kind : Kind}

theorem noDefault_of_endsClause (calm : kind.endsClause = true) :
    Parse.continuesDefault kind = false := by
  simp only [endsClause, Bool.and_eq_true, Bool.not_eq_true'] at calm
  exact calm.1.1.1

theorem noType_of_endsClause (calm : kind.endsClause = true) : kind.extendsType = false := by
  simp only [endsClause, Bool.and_eq_true, Bool.not_eq_true'] at calm
  exact calm.1.1.2

theorem noSuffix_of_endsClause (calm : kind.endsClause = true) : kind.isSuffix = false := by
  simp only [endsClause, Bool.and_eq_true, Bool.not_eq_true'] at calm
  exact calm.1.2

theorem noAction_of_endsClause (calm : kind.endsClause = true) : kind ≠ .keyword .ON := by
  simp only [endsClause, Bool.and_eq_true, decide_eq_true_eq] at calm
  exact calm.2

end Kind

theorem EndsClause.of_quiet {kinds : List Kind} (quiet : (lead kinds).isQuiet = true)
    (calm : (lead kinds).endsClause = true) : EndsClause kinds :=
  ⟨.of_quiet quiet, calm⟩

theorem EndsClause.of_closes {rest : List Kind}
    (closes : lead rest = .symbol .comma ∨ lead rest = .symbol .rightParen) :
    EndsClause rest := by
  rcases closes with isComma | isParen
  · exact .of_quiet (by rw [isComma]; rfl) (by rw [isComma]; rfl)
  · exact .of_quiet (by rw [isParen]; rfl) (by rw [isParen]; rfl)

/-- A constraint ends the clause before it: the word `NOT` is no operator there, since the
word `NULL` follows it. -/
theorem EndsClause.constraint (constraint : ColumnConstraint) (rest : List Kind) :
    EndsClause (Piece.kinds (Canonical.ofColumnConstraint constraint) ++ rest) := by
  obtain ⟨name, kind, span⟩ := constraint
  cases name with
  | some name => exact .of_quiet rfl rfl
  | none =>
    cases kind with
    | notNull =>
      show EndsClause (.keyword .NOT :: .keyword .NULL :: rest)
      exact ⟨⟨⟨by simp, by simp, by simp⟩, nofun⟩, rfl⟩
    | _ => exact .of_quiet rfl rfl

theorem ColumnConstraint.tokens_pos (constraint : ColumnConstraint) :
    0 < (Piece.kinds (Canonical.ofColumnConstraint constraint)).length := by
  obtain ⟨name, kind, span⟩ := constraint
  cases kind with
  | foreignKey references =>
    simp only [Canonical.ofColumnConstraint, Canonical.ofColumnConstraintKind,
      Canonical.ofReferences, Piece.kinds_append, Piece.kinds_word_cons, List.length_append,
      List.length_cons]
    omega
  | _ => simp [Canonical.ofColumnConstraint, Canonical.ofColumnConstraintKind]

/-- The tokens of constraints at a column. -/
def ColumnConstraint.rows (constraints : List ColumnConstraint) : List Kind :=
  constraints.flatMap fun constraint => Piece.kinds (Canonical.ofColumnConstraint constraint)

theorem ColumnConstraint.rows_cons (constraint : ColumnConstraint)
    (constraints : List ColumnConstraint) (rest : List Kind) :
    rows (constraint :: constraints) ++ rest =
      Piece.kinds (Canonical.ofColumnConstraint constraint) ++ (rows constraints ++ rest) := by
  simp [rows]

theorem EndsClause.constraints (constraints : List ColumnConstraint) {rest : List Kind}
    (ends : EndsClause rest) : EndsClause (ColumnConstraint.rows constraints ++ rest) := by
  cases constraints with
  | nil => exact ends
  | cons constraint constraints =>
    rw [ColumnConstraint.rows_cons]
    exact .constraint constraint _

/-- The tokens of a default value with its word. -/
def ColumnDefault.row (default : Option ColumnDefault) : List Kind :=
  default.toList.flatMap fun value =>
    .keyword .DEFAULT :: Piece.kinds (Canonical.ofColumnDefault value)

/-- The tokens of a collation with its word. -/
def QualifiedName.collationRow (collation : Option QualifiedName) : List Kind :=
  collation.toList.flatMap fun name => .keyword .COLLATE :: Piece.kinds (Piece.qualified name)

theorem QualifiedName.collationRow_some (name : QualifiedName) (rest : List Kind) :
    collationRow (some name) ++ rest =
      .keyword .COLLATE :: (Piece.kinds (Piece.qualified name) ++ rest) := by
  simp [collationRow]

/-- A column is its name, its type, its collation, its default value and its constraints. -/
theorem ColumnDef.tokens_eq (column : ColumnDef) (rest : List Kind) :
    Piece.kinds (Canonical.ofColumnDef column) ++ rest =
      .identifier column.name :: (column.dataType.tokens ++
        (QualifiedName.collationRow column.collation ++ (ColumnDefault.row column.default ++
          (ColumnConstraint.rows column.constraints ++ rest)))) := by
  obtain ⟨name, type, value, constraints, collation, span⟩ := column
  cases collation <;> cases value <;>
    simp [Canonical.ofColumnDef, Canonical.optional, QualifiedName.collationRow,
      ColumnDefault.row, ColumnConstraint.rows]

/-- A value begins with the word `NULL` only if it is the null value. -/
theorem Expr.lead_ne_null {expr : Expr} (formed : expr.Formed .value)
    (other : ∀ span, expr ≠ .null span) (more : List Kind) :
    lead (expr.tokens ++ more) ≠ .keyword .NULL := by
  cases expr with
  | null span => exact absurd rfl (other span)
  | asterisk qualifier span =>
    cases qualifier with
    | none => simp [tokens, Canonical.ofExpr, Canonical.optional]
    | some name =>
      obtain ⟨part, others, text⟩ := Piece.lead_qualified name
        (.symbol .dot :: .symbol .star :: more)
      simp [tokens, Canonical.ofExpr, Canonical.optional, text]
  | column name span =>
    obtain ⟨part, others, text⟩ := Piece.lead_qualified name more
    simp [tokens, Canonical.ofExpr, text]
  | truth value span => cases value <;> simp [tokens, Canonical.ofExpr, TruthValue.word]
  | named name expr span => exact absurd formed.1 (by simp)
  | sortKey key => exact formed.elim
  | groupingSet set => exact absurd formed.1 (by simp)
  | groupingSets sets span => exact absurd formed.1 (by simp)
  | rollup sets span => exact absurd formed.1 (by simp)
  | cube sets span => exact absurd formed.1 (by simp)
  | aggregate function quantifier argument filter span =>
    cases function <;> simp [tokens, Canonical.ofExpr, AggregateFunction.word]
  | _ => simp [tokens, Canonical.ofExpr]

namespace Parse

variable {limit depth : Nat} {rest : List Kind}

/-- A value names no user. -/
theorem noUser {expr : Expr} (formed : expr.Formed .value) (more : List Kind) :
    (lead (expr.tokens ++ more)).word?.bind userKind? = none := by
  have other (word : Keyword) (closed : (Kind.keyword word).opensValue = false)
      (noRow : Kind.keyword word ≠ .keyword .ROW) := Expr.lead_ne formed more closed noRow
  cases isWord : lead (expr.tokens ++ more) with
  | keyword word =>
    unfold userKind?
    simp only [Kind.word?, Option.bind_some]
    split
    · exact absurd isWord (other _ rfl (by simp))
    · exact absurd isWord (other _ rfl (by simp))
    · exact absurd isWord (other _ rfl (by simp))
    · rfl
  | _ => rfl

theorem columnDefault_reads {value : ColumnDefault} (formed : value.Formed)
    (room : depth + 2 * Outline.depthAll (Outline.belowDefault (some value)) ≤ capOf limit)
    (ends : EndsClause rest) :
    Reads limit (Outline.AllReadable (Outline.belowDefault (some value))) columnDefault depth
      (Piece.kinds (Canonical.ofColumnDefault value) ++ rest)
      (fun it => it.erase = value.erase) depth rest := by
  cases value with
  | user user =>
    refine word?_looks.reads.step ?_
    cases user <;>
      exact advance_reads.after fun _ _ => .pure (by simp [Outline.belowDefault]) rfl
  | null =>
    refine word?_looks.reads.step ((atWordBefore_yes ?_).step ?_)
    · simpa using Kind.noDefault_of_endsClause ends.calm
    · exact advance_reads.after fun _ _ => .pure (by simp [Outline.belowDefault]) rfl
  | expr value =>
    simp only [Outline.belowDefault, Outline.depthAll_cons, Outline.allReadable_cons] at room ⊢
    -- `NULL` as an expression is written in parentheses, so that it is not the null default
    rcases Classical.em (∃ span, value = .null span) with ⟨span, rfl⟩ | other
    · have readable : (Outline.ofExpr (.null span)).Readable :=
        Outline.readable_ofExpr.mpr ⟨rfl, by simp [Outline.belowExpr]⟩
      have level := Outline.depth_ofExpr (.null span)
      refine word?_looks.reads.step ((atWordBefore_no ?_).step ?_)
      · simp [Canonical.ofColumnDefault]
      refine (forState_reads fun phrases reads =>
        enclosedNull_reads reads (by omega) (by omega) ends.ends :
        Reads limit True wholeExpression depth
          (.symbol .leftParen :: .keyword .NULL :: .symbol .rightParen :: rest)
          (fun e => e.erase = .null default) depth rest).after fun e same => ?_
      exact .pure ⟨readable, Outline.allReadable_nil⟩ (by
        simp [ColumnDefault.erase, same, Expr.erase])
    · have other (span : Span) : value ≠ .null span := fun same => other ⟨span, same⟩
      have text : Canonical.ofColumnDefault (.expr value) = Canonical.ofExpr value := by
        cases value with
        | null span => exact absurd rfl (other span)
        | _ => rfl
      rw [text]
      refine word?_looks.reads.step ?_
      rw [noUser formed rest]
      refine (atWordBefore_no fun isNull => ?_).step ?_
      · exact absurd isNull (Expr.lead_ne_null formed other rest)
      refine (wholeExpression_reads formed (by omega) ends.ends).bind And.left
        fun holds e same => .pure ⟨holds, Outline.allReadable_nil⟩ ?_
      simp [ColumnDefault.erase, same]

/-! The clauses of a column are read one by one, until none follows. -/

theorem constraintClause_reads (column : ColumnDef) (constraint : ColumnConstraint)
    (stops : lead rest ≠ .keyword .ON) :
    Reads limit True (columnClause column) depth
      (Piece.kinds (Canonical.ofColumnConstraint constraint) ++ rest)
      (fun next => ∃ v, next = some v ∧ v.erase = { column.erase with
        constraints := column.erase.constraints ++ [constraint.erase] }) depth rest := by
  refine word?_looks.reads.step ?_
  have clause : Reads limit True
      (do return some { column with constraints := column.constraints ++ [← columnConstraint] })
      depth (Piece.kinds (Canonical.ofColumnConstraint constraint) ++ rest)
      (fun next => ∃ v, next = some v ∧ v.erase = { column.erase with
        constraints := column.erase.constraints ++ [constraint.erase] }) depth rest :=
    (columnConstraint_reads constraint stops).after fun it same =>
      .pure trivial ⟨_, rfl, by simp [ColumnDef.erase, same]⟩
  obtain ⟨name, kind, span⟩ := constraint
  cases name with
  | some name => exact clause
  | none => cases kind <;> exact clause

theorem defaultClause_reads {column : ColumnDef} (absent : column.default = none)
    {value : ColumnDefault} (formed : value.Formed)
    (room : depth + 2 * Outline.depthAll (Outline.belowDefault (some value)) ≤ capOf limit)
    (ends : EndsClause rest) :
    Reads limit (Outline.AllReadable (Outline.belowDefault (some value))) (columnClause column)
      depth (.keyword .DEFAULT :: (Piece.kinds (Canonical.ofColumnDefault value) ++ rest))
      (fun next => ∃ v, next = some v ∧
        v.erase = { column.erase with default := some value.erase }) depth rest := by
  refine word?_looks.reads.step ?_
  simp only [lead_cons, Kind.word?, absent, Option.isSome_none, Bool.false_eq_true, ↓reduceIte]
  refine advance_reads.after fun _ _ => ?_
  refine (columnDefault_reads formed room ends).bind id fun holds it same => .pure holds ?_
  exact ⟨_, rfl, by simp [ColumnDef.erase, same]⟩

theorem collationClause_reads {column : ColumnDef} (absent : column.collation = none)
    (name : QualifiedName) (noDot : lead rest ≠ .symbol .dot) :
    Reads limit True (columnClause column) depth
      (.keyword .COLLATE :: (Piece.kinds (Piece.qualified name) ++ rest))
      (fun next => ∃ v, next = some v ∧ v = { column with collation := some name }) depth
      rest := by
  refine word?_looks.reads.step ?_
  simp only [lead_cons, Kind.word?, absent, Option.isSome_none, Bool.false_eq_true, ↓reduceIte]
  refine advance_reads.after fun _ _ => (qualifiedName_reads name noDot).step ?_
  exact .pure trivial ⟨_, rfl, rfl⟩

/-- No clause begins with the token. -/
theorem columnClause_none (column : ColumnDef)
    (closes : lead rest = .symbol .comma ∨ lead rest = .symbol .rightParen) :
    Reads limit True (columnClause column) depth rest (· = none) depth rest := by
  refine word?_looks.reads.step ?_
  rcases closes with isComma | isParen
  · rw [isComma]
    exact .pure trivial rfl
  · rw [isParen]
    exact .pure trivial rfl

theorem constraints_loop {accepts : Prop} (holds : accepts) (constraints : List ColumnConstraint)
    (column : ColumnDef)
    (closes : lead rest = .symbol .comma ∨ lead rest = .symbol .rightParen) :
    Loops limit accepts columnClause column depth (ColumnConstraint.rows constraints ++ rest)
      (fun it => it.erase = { column.erase with
        constraints := column.erase.constraints ++ constraints.map ColumnConstraint.erase })
      depth rest := by
  induction constraints generalizing column with
  | nil => exact .stop (columnClause_none column closes) holds (by simp)
  | cons constraint constraints ih =>
    have ends : EndsClause (ColumnConstraint.rows constraints ++ rest) :=
      .constraints constraints (.of_closes closes)
    have some := ColumnConstraint.tokens_pos constraint
    rw [ColumnConstraint.rows_cons]
    refine .next (constraintClause_reads column constraint
      (Kind.noAction_of_endsClause ends.calm)) (fun _ => trivial) ?_ fun _ next same => ?_
    · simp only [List.length_append]
      omega
    · have others := ih next
      simpa [same] using others

theorem defaultAndConstraints_loop {column : ColumnDef} (absent : column.default = none)
    {value : Option ColumnDefault} (formed : ∀ it ∈ value, it.Formed)
    (constraints : List ColumnConstraint)
    (room : depth + 2 * Outline.depthAll (Outline.belowDefault value) ≤ capOf limit)
    (closes : lead rest = .symbol .comma ∨ lead rest = .symbol .rightParen) :
    Loops limit (Outline.AllReadable (Outline.belowDefault value)) columnClause column depth
      (ColumnDefault.row value ++ (ColumnConstraint.rows constraints ++ rest))
      (fun it => it.erase = { column.erase with
        default := value.map ColumnDefault.erase
        constraints := column.erase.constraints ++ constraints.map ColumnConstraint.erase })
      depth rest := by
  cases value with
  | none =>
    have others : Loops limit (Outline.AllReadable (Outline.belowDefault none)) columnClause
        column depth (ColumnConstraint.rows constraints ++ rest) _ depth rest :=
      constraints_loop Outline.allReadable_nil constraints column closes
    simpa [ColumnDefault.row, ColumnDef.erase, absent] using others
  | some value =>
    have ends : EndsClause (ColumnConstraint.rows constraints ++ rest) :=
      .constraints constraints (.of_closes closes)
    have text : ColumnDefault.row (some value) ++ (ColumnConstraint.rows constraints ++ rest) =
        .keyword .DEFAULT :: (Piece.kinds (Canonical.ofColumnDefault value) ++
          (ColumnConstraint.rows constraints ++ rest)) := by
      simp [ColumnDefault.row]
    rw [text]
    refine .next (defaultClause_reads absent (formed value rfl) room ends) id ?_
      fun holds next same => ?_
    · simp only [List.length_cons, List.length_append]
      omega
    · have others : Loops limit (Outline.AllReadable (Outline.belowDefault (some value)))
          columnClause next depth (ColumnConstraint.rows constraints ++ rest) _ depth rest :=
        constraints_loop holds constraints next closes
      simpa [same] using others

/-- What stands after the type of a column does not go on with the type. -/
theorem calm_clauses (column : ColumnDef)
    (closes : lead rest = .symbol .comma ∨ lead rest = .symbol .rightParen) :
    (lead (ColumnDefault.row column.default ++
      (ColumnConstraint.rows column.constraints ++ rest))).endsClause = true ∧
    (lead (QualifiedName.collationRow column.collation ++ (ColumnDefault.row column.default ++
      (ColumnConstraint.rows column.constraints ++ rest)))).endsClause = true := by
  have constraints : EndsClause (ColumnConstraint.rows column.constraints ++ rest) :=
    .constraints column.constraints (.of_closes closes)
  have afterCollation : (lead (ColumnDefault.row column.default ++
      (ColumnConstraint.rows column.constraints ++ rest))).endsClause = true := by
    cases column.default with
    | none => exact constraints.calm
    | some value => rfl
  refine ⟨afterCollation, ?_⟩
  cases column.collation with
  | none => exact afterCollation
  | some name => rfl

theorem columnDef_reads {column : ColumnDef} (formed : column.Formed)
    (fits : depth + column.dataType.levels ≤ capOf limit)
    (room : depth + 2 * (Outline.ofColumnDef column).depth ≤ capOf limit)
    (closes : lead rest = .symbol .comma ∨ lead rest = .symbol .rightParen) :
    Reads limit (Outline.ofColumnDef column).Readable columnDef depth
      (Piece.kinds (Canonical.ofColumnDef column) ++ rest) (fun it => it.erase = column.erase)
      depth rest := by
  obtain ⟨calmDefault, calm⟩ := calm_clauses column closes
  rw [Outline.ofColumnDef, Outline.depth_plain] at room
  have clauses : Loops limit (Outline.AllReadable (Outline.belowDefault column.default))
      columnClause { name := column.name, dataType := column.dataType } depth
      (QualifiedName.collationRow column.collation ++ (ColumnDefault.row column.default ++
        (ColumnConstraint.rows column.constraints ++ rest)))
      (fun it => it.erase = column.erase) depth rest := by
    obtain ⟨name, type, value, constraints, collation, span⟩ := column
    cases collation with
    | none => exact defaultAndConstraints_loop rfl formed.default constraints (by omega) closes
    | some collation =>
      dsimp only
      rw [QualifiedName.collationRow_some]
      refine .next (collationClause_reads rfl collation ?_) (fun _ => trivial) ?_ ?_
      · exact Kind.ne_of_extendsType (Kind.noType_of_endsClause calmDefault) rfl
      · simp only [List.length_cons, List.length_append]
        omega
      · rintro - v rfl
        exact defaultAndConstraints_loop rfl formed.default constraints (by omega) closes
  rw [ColumnDef.tokens_eq]
  refine .still here_still fun start => (identifier_reads column.name).step ?_
  refine (dataType_reads formed.dataType fits (Kind.noType_of_endsClause calm)
    (Kind.noSuffix_of_endsClause calm)).step ?_
  refine clauses.loop.bind (fun readable => (Outline.readable_node.mp readable).2)
    fun holds it same => .still (spanFrom_still start) fun _ => .pure ?_ ?_
  · exact Outline.readable_node.mpr ⟨rfl, holds⟩
  · simpa [ColumnDef.erase] using same

end Parse

/-! ## Tables -/

/-- The elements of a table in the order in which they are written. -/
def Create.elements (create : Create) : List TableElement :=
  create.columns.map .column ++ create.constraints.map .constraint

namespace TableElement

/-- An element as it is written. -/
def pieces : TableElement → List Piece
  | .column definition => Canonical.ofColumnDef definition
  | .constraint demanded => Canonical.ofTableConstraint demanded

/-- Nothing below the element has a shape that is refused. -/
def Readable : TableElement → Prop
  | .column definition => (Outline.ofColumnDef definition).Readable
  | .constraint _ => True

end TableElement

/-- A definition is made of its own elements. -/
theorem Create.ofElements_elements {create : Create} (formed : create.Formed) :
    Create.ofElements create.name create.temporary create.onCommit create.elements create.span =
      create := by
  have given := formed.onCommit
  obtain ⟨name, temporary, onCommit, columns, constraints, span⟩ := create
  have policy (isTemporary : temporary.isSome) (absent : onCommit = none) :
      some .deleteRows = onCommit := by
    simp [absent] at given
    simp [given] at isTemporary
  simpa [ofElements, elements, List.filterMap_append, List.filterMap_map, Function.comp_def]
    using policy

/-- A definition made of elements is the same without places if the elements are. -/
theorem Create.erase_ofElements {create : Create} {elements : List TableElement}
    (formed : create.Formed)
    (same : elements.map TableElement.erase = create.elements.map TableElement.erase)
    (span : Span) :
    (Create.ofElements create.name create.temporary create.onCommit elements span).erase =
      create.erase := by
  rw [ofElements_erase, same, ← ofElements_erase _ _ _ _ create.span, ofElements_elements formed]

namespace Parse

variable {limit depth : Nat} {rest : List Kind}

theorem takeTemporary_reads :
    Reads limit True takeTemporary depth (.keyword .TEMPORARY :: rest) (· = true) depth rest :=
  (takeWord_yes .TEMPORARY).step (.pure trivial rfl)

theorem temporary_reads (scope : Option Temporary) :
    Reads limit True temporary depth
      (((scope.map Temporary.words).getD []).map .keyword ++ .keyword .TABLE :: rest)
      (· = scope) depth (.keyword .TABLE :: rest) := by
  rcases scope with _ | _ | _
  · refine ((takeWord_no (by simp)).step ((takeWord_no (by simp)).step (.pure trivial rfl)) :
      Reads limit True temporaryScope depth (.keyword .TABLE :: rest) (· = none) depth
        (.keyword .TABLE :: rest)).step ?_
    refine ((takeWord_no (by simp)).step (takeWord_no (by simp)) :
      Reads limit True takeTemporary depth (.keyword .TABLE :: rest) (· = false) depth
        (.keyword .TABLE :: rest)).step ?_
    exact .pure trivial rfl
  · refine ((takeWord_yes .GLOBAL).step (.pure trivial rfl) :
      Reads limit True temporaryScope depth (.keyword .GLOBAL :: .keyword .TEMPORARY ::
        .keyword .TABLE :: rest) (· = some .globalTable) depth
        (.keyword .TEMPORARY :: .keyword .TABLE :: rest)).step ?_
    exact takeTemporary_reads.step (.pure trivial rfl)
  · refine ((takeWord_no (by simp)).step ((takeWord_yes .LOCAL).step (.pure trivial rfl)) :
      Reads limit True temporaryScope depth (.keyword .LOCAL :: .keyword .TEMPORARY ::
        .keyword .TABLE :: rest) (· = some .localTable) depth
        (.keyword .TEMPORARY :: .keyword .TABLE :: rest)).step ?_
    exact takeTemporary_reads.step (.pure trivial rfl)

theorem onCommit_reads (policy : Option OnCommit) (stops : lead rest ≠ .keyword .ON) :
    Reads limit True onCommit depth
      (policy.toList.flatMap (fun policy => policy.words.map .keyword) ++ rest) (· = policy)
      depth rest := by
  rcases policy with _ | _ | _
  · exact (takeWord_no stops).step (.pure trivial rfl)
  · refine (takeWord_yes .ON).step ((expectWord_reads .COMMIT).step ?_)
    refine ((takeWord_yes .DELETE).step (.pure trivial rfl) :
      Reads limit True commitPolicy depth (.keyword .DELETE :: .keyword .ROWS :: rest)
        (· = .deleteRows) depth (.keyword .ROWS :: rest)).step ?_
    exact (expectWord_reads .ROWS).step (.pure trivial rfl)
  · refine (takeWord_yes .ON).step ((expectWord_reads .COMMIT).step ?_)
    refine ((takeWord_no (by simp)).step ((takeWord_yes .PRESERVE).step (.pure trivial rfl)) :
      Reads limit True commitPolicy depth (.keyword .PRESERVE :: .keyword .ROWS :: rest)
        (· = .preserveRows) depth (.keyword .ROWS :: rest)).step ?_
    exact (expectWord_reads .ROWS).step (.pure trivial rfl)

theorem tableElement_reads {element : TableElement} (sound : SoundElement limit element)
    (room : ∀ column, element = .column column →
      2 * (Outline.ofColumnDef column).depth ≤ capOf limit)
    (closes : lead rest = .symbol .comma ∨ lead rest = .symbol .rightParen) :
    Reads limit element.Readable tableElement 0 (Piece.kinds element.pieces ++ rest)
      (fun it => it.erase = element.erase) 0 rest := by
  cases element with
  | column column =>
    have reads : Reads limit (Outline.ofColumnDef column).Readable columnDef 0
        (Piece.kinds (Canonical.ofColumnDef column) ++ rest) (fun it => it.erase = column.erase)
        0 rest :=
      columnDef_reads sound.1 (by simpa using sound.2) (by simpa using room column rfl) closes
    show Reads limit _ tableElement 0 (Piece.kinds (Canonical.ofColumnDef column) ++ rest) _ 0 rest
    rw [ColumnDef.tokens_eq] at reads ⊢
    refine word?_looks.reads.step ?_
    exact reads.bind id fun holds it same => .pure holds (by simp [TableElement.erase, same])
  | constraint constraint =>
    have reads : Reads limit True (do return TableElement.constraint (← tableConstraint)) 0
        (Piece.kinds (Canonical.ofTableConstraint constraint) ++ rest)
        (fun it => it.erase = (TableElement.constraint constraint).erase) 0 rest := by
      refine (tableConstraint_reads sound ?_).after fun it same => .pure trivial ?_
      · rcases closes with isComma | isParen
        · simp [isComma]
        · simp [isParen]
      · simp [TableElement.erase, same]
    refine word?_looks.reads.step ?_
    obtain ⟨name, kind, span⟩ := constraint
    cases name with
    | some name => exact reads
    | none => cases kind <;> exact reads

end Parse

end CanonicalSql
