import CanonicalSql.Grammar.Statement
import CanonicalSql.Proofs.Reading.Definition

/-!
# Reading statements

The tokens of the canonical text of a statement are read back as a statement that differs in
its places alone, unless the statement has a shape whose text is refused; then an unexpected
token is what the reading ends with (`statement_reads`). The depth is refused in neither
case: the tree that is read back is as deep as the one that was written.
-/
namespace CanonicalSql

/-- A table definition is read back if it has columns and they are read back. -/
theorem Outline.readable_create {definition : Create} :
    (Outline.ofStatement (.create definition)).Readable ↔
      definition.columns ≠ [] ∧ ∀ element ∈ definition.elements, element.Readable := by
  have columns : Outline.AllReadable (definition.columns.map Outline.ofColumnDef) ↔
      ∀ element ∈ definition.elements, element.Readable := by
    simp only [Outline.AllReadable, Create.elements, List.mem_append, List.mem_map]
    constructor
    · rintro columns element (⟨column, member, rfl⟩ | ⟨constraint, -, rfl⟩)
      · exact columns _ ⟨column, member, rfl⟩
      · exact trivial
    · rintro elements outline ⟨column, member, rfl⟩
      exact elements _ (.inl ⟨column, member, rfl⟩)
  have nonempty : (Node.create definition).isUnreadable = false ↔ definition.columns ≠ [] := by
    simp [Node.isUnreadable]
  rw [Outline.ofStatement, Outline.plain, Outline.readable_node, Outline.allReadable_cons,
    Outline.plain, Outline.readable_node, columns, nonempty]
  simp [Node.isUnreadable]

/-- The depth of a table definition is that of its columns. -/
theorem Outline.depth_create (definition : Create) :
    (Outline.ofStatement (.create definition)).depth =
      Outline.depthAll (definition.columns.map Outline.ofColumnDef) := by
  simp [Outline.ofStatement, Outline.depth_plain, Node.isLevel]

theorem Outline.depth_insert {insertion : Insert} {rows : Query}
    (isQuery : insertion.source = .query rows) :
    (Outline.ofStatement (.insert insertion)).depth = (Outline.ofQuery rows).depth := by
  simp [Outline.ofStatement, Outline.depth_plain, Node.isLevel, isQuery]

theorem Outline.depth_delete {deletion : Delete} {selection : Expr}
    (member : selection ∈ deletion.selection) :
    (Outline.ofStatement (.delete deletion)).depth = (Outline.ofExpr selection).depth := by
  obtain ⟨table, only, condition, span⟩ := deletion
  cases member
  simp [Outline.ofStatement, Outline.depth_plain, Node.isLevel]

theorem Outline.depth_select (query : Query) (span : Span) :
    (Outline.ofStatement (.select query span)).depth = (Outline.ofQuery query).depth := by
  simp [Outline.ofStatement, Outline.depth_plain, Node.isLevel]

/-- The rows of an insertion are all that may be in the way of reading it back. -/
theorem Outline.readable_insert {insertion : Insert} :
    (Outline.ofStatement (.insert insertion)).Readable ↔
      ∀ rows, insertion.source = .query rows → (Outline.ofQuery rows).Readable := by
  obtain ⟨table, columns, overriding, source, span⟩ := insertion
  cases source <;> simp [Outline.ofStatement, Outline.plain, Outline.readable_node,
    Node.isUnreadable]

/-- The condition of a deletion is all that may be in the way of reading it back. -/
theorem Outline.readable_delete {deletion : Delete} :
    (Outline.ofStatement (.delete deletion)).Readable ↔
      ∀ selection ∈ deletion.selection, (Outline.ofExpr selection).Readable := by
  obtain ⟨table, only, selection, span⟩ := deletion
  cases selection <;> simp [Outline.ofStatement, Outline.plain, Outline.readable_node,
    Node.isUnreadable]

theorem Outline.readable_select {query : Query} {span : Span} :
    (Outline.ofStatement (.select query span)).Readable ↔ (Outline.ofQuery query).Readable := by
  simp [Outline.ofStatement, Outline.plain, Outline.readable_node, Node.isUnreadable]

/-- No query begins with a name. -/
theorem Query.noName {query : Query} (formed : query.Formed) (more : List Kind) :
    (lead (query.tokens ++ more)).name? = none := by
  cases enclosed : query.beginsEnclosed with
  | true =>
    rw [Query.tokens_enclosed formed enclosed]
    rfl
  | false =>
    have starts := Query.starts formed enclosed more
    unfold Parse.isQueryStart at starts
    split at starts
    · next isSelect => rw [isSelect]; rfl
    · next isValues => rw [isValues]; rfl
    · next isTable => rw [isTable]; rfl
    · next isWith => rw [isWith]; rfl
    · cases starts

/-- The tokens of the rows of an insertion. -/
abbrev InsertSource.tokens : InsertSource → List Kind
  | .defaultValues => [.keyword .DEFAULT, .keyword .VALUES]
  | .query rows => rows.tokens

/-- Rows that the grammar can build. -/
abbrev InsertSource.Formed : InsertSource → Prop
  | .defaultValues => True
  | .query rows => rows.Formed

/-- Rows begin with `DEFAULT`, with the first word of a query or with a parenthesis before a
query. -/
theorem InsertSource.opens {source : InsertSource} (formed : source.Formed) (more : List Kind) :
    lead (source.tokens ++ more) = .keyword .DEFAULT ∨
      Parse.isQueryStart (lead (source.tokens ++ more)) = true ∨
      ∃ (query : Query) (others : List Kind), query.Formed ∧
        source.tokens ++ more = .symbol .leftParen :: (query.tokens ++ others) := by
  cases source with
  | defaultValues => exact .inl rfl
  | query rows =>
    cases enclosed : rows.beginsEnclosed with
    | true =>
      have first := Rel.firstOperand_formed (Query.formed_iff.mp formed).2.1
      refine .inr (.inr ⟨_, .symbol .rightParen :: (rows.furtherTokens ++ more),
        Rel.enclosedQuery_formed first, ?_⟩)
      rw [InsertSource.tokens, Query.tokens_enclosed formed enclosed]
      simp
    | false => exact .inr (.inl (Query.starts formed enclosed more))

/-- The tokens of what is said of identity columns. -/
abbrev Overriding.tokens (policy : Option Overriding) : List Kind :=
  policy.toList.flatMap fun policy => policy.words.map .keyword

/-- What stands after the columns of an insertion goes on neither with the table's name nor
with a list of names. -/
structure EndsColumns (kinds : List Kind) : Prop where
  dot : lead kinds ≠ .symbol .dot
  noName : lead kinds = .symbol .leftParen → (lead (kinds.drop 1)).name? = none

theorem InsertSource.noOverriding {source : InsertSource} (formed : source.Formed)
    (more : List Kind) : lead (source.tokens ++ more) ≠ .keyword .OVERRIDING := by
  intro isOverriding
  rcases source.opens formed more with isDefault | starts | ⟨query, others, -, text⟩
  · rw [isOverriding] at isDefault
    cases isDefault
  · rw [isOverriding] at starts
    cases starts
  · rw [text] at isOverriding
    cases isOverriding

theorem InsertSource.endsColumns {source : InsertSource} (formed : source.Formed)
    (policy : Option Overriding) (more : List Kind) :
    EndsColumns (Overriding.tokens policy ++ (source.tokens ++ more)) := by
  rcases policy with _ | _ | _
  · rcases source.opens formed more with isDefault | starts | ⟨query, others, isQuery, text⟩
    · refine ⟨?_, fun opens => ?_⟩
      · simp [Overriding.tokens, isDefault]
      · simp [Overriding.tokens, isDefault] at opens
    · have noSign (sign : Symbol) : lead (source.tokens ++ more) ≠ .symbol sign := by
        intro isSign
        rw [isSign] at starts
        cases starts
      exact ⟨noSign _, fun opens => absurd opens (noSign _)⟩
    · refine ⟨?_, fun _ => ?_⟩
      · simp [Overriding.tokens, text]
      · simpa [Overriding.tokens, text] using Query.noName isQuery others
  · exact ⟨by simp [Overriding.tokens, Overriding.words], fun opens => by
      simp [Overriding.tokens, Overriding.words] at opens⟩
  · exact ⟨by simp [Overriding.tokens, Overriding.words], fun opens => by
      simp [Overriding.tokens, Overriding.words] at opens⟩

/-- A statement that the cap leaves room for. -/
structure Statement.Fits (limit : Nat) (statement : Statement) : Prop where
  formed : statement.Formed
  types : statement.TypesFit limit
  room : 2 * (Outline.ofStatement statement).depth ≤ capOf limit

namespace Parse

variable {limit : Nat} {rest : List Kind}

/-! ## Table definitions -/

/-- The list of a table definition with columns is the list of its elements. -/
theorem kinds_elements {definition : Create} (nonempty : definition.columns ≠ []) :
    Piece.kinds (Piece.commaSeparated (definition.columns.map Canonical.ofColumnDef) ++
      definition.constraints.flatMap fun constraint =>
        Piece.sign .comma :: Piece.after (Canonical.ofTableConstraint constraint)) =
      Piece.kinds (Piece.commaSeparated (definition.elements.map TableElement.pieces)) := by
  obtain ⟨name, temporary, policy, columns, constraints, span⟩ := definition
  cases columns with
  | nil => exact absurd rfl nonempty
  | cons column columns =>
    simp [Create.elements, TableElement.pieces, commaRows, Function.comp_def, List.flatMap_map]

theorem elements_read {definition : Create} (formed : definition.Formed)
    (fits : ∀ column ∈ definition.columns, column.dataType.levels ≤ capOf limit)
    (room : ∀ column ∈ definition.columns,
      2 * (Outline.ofColumnDef column).depth ≤ capOf limit)
    (nonempty : definition.columns ≠ []) :
    Reads limit (∀ element ∈ definition.elements, element.Readable) (commaSeparated tableElement)
      0 (Piece.kinds (Piece.commaSeparated (definition.elements.map TableElement.pieces)) ++
        .symbol .rightParen :: rest)
      (fun them => them.map TableElement.erase = definition.elements.map TableElement.erase) 0
      (.symbol .rightParen :: rest) := by
  refine Reads.list (by simp [Create.elements, nonempty]) (by simp) fun element member more next => ?_
  refine tableElement_reads ?_ ?_ (next.imp id fun ends => by rw [ends]; rfl)
  · rcases List.mem_append.mp member with isColumn | isConstraint
    · obtain ⟨column, isMember, rfl⟩ := List.mem_map.mp isColumn
      exact ⟨formed.columns column isMember, fits column isMember⟩
    · obtain ⟨constraint, isMember, rfl⟩ := List.mem_map.mp isConstraint
      exact formed.constraints constraint isMember
  · rintro column rfl
    exact room column (by simpa [Create.elements] using member)

/-- No element begins with a comma. -/
theorem tableElement_refuses {kinds : List Kind} {accepts : Prop} (fails : ¬ accepts)
    {good : List TableElement → Prop} :
    Reads limit accepts (parenthesized (commaSeparated tableElement)) 0
      (.symbol .leftParen :: .symbol .comma :: kinds) good 0 rest := by
  have noName {good : Name → Prop} {rest : List Kind} : Reads limit False identifier 0
      (.symbol .comma :: kinds) good 0 rest := kind_reads.step (unexpected_reads id _)
  have noElement : Reads limit False tableElement 0 (.symbol .comma :: kinds)
      (fun _ => False) 0 (.symbol .comma :: kinds) := by
    refine word?_looks.reads.step (Reads.refused ?_ id)
    exact .still here_still fun _ => noName.refused id
  exact (expectSign_reads _).step
    ((noElement.refused id : Reads limit False (commaSeparated tableElement) 0 _
      (fun _ => False) 0 (.symbol .comma :: kinds)).refused fails)

theorem create_reads {definition : Create} (formed : definition.Formed)
    (fits : ∀ column ∈ definition.columns, column.dataType.levels ≤ capOf limit)
    (room : ∀ column ∈ definition.columns,
      2 * (Outline.ofColumnDef column).depth ≤ capOf limit)
    (stops : lead rest ≠ .keyword .ON) :
    Reads limit (Outline.ofStatement (.create definition)).Readable create 0
      (Piece.kinds (Canonical.ofCreate definition) ++ rest)
      (fun it => it.erase = definition.erase) 0 rest := by
  have text : Piece.kinds (Canonical.ofCreate definition) ++ rest =
      .keyword .CREATE :: (((definition.temporary.map Temporary.words).getD []).map .keyword ++
        .keyword .TABLE :: (Piece.kinds (Piece.qualified definition.name) ++
          .symbol .leftParen :: (Piece.kinds
            (Piece.commaSeparated (definition.columns.map Canonical.ofColumnDef) ++
              definition.constraints.flatMap fun constraint =>
                Piece.sign .comma :: Piece.after (Canonical.ofTableConstraint constraint)) ++
            .symbol .rightParen :: (definition.onCommit.toList.flatMap
              (fun policy => policy.words.map .keyword) ++ rest)))) := by
    cases isPolicy : definition.onCommit <;>
      simp [Canonical.ofCreate, Canonical.optional, isPolicy]
  rw [text]
  refine .still here_still fun start => (expectWord_reads _).step ?_
  refine (temporary_reads definition.temporary).step ((expectWord_reads _).step ?_)
  refine (qualifiedName_reads definition.name (by simp)).step ?_
  -- without columns the text begins its elements with a comma, which is refused
  by_cases nonempty : definition.columns = []
  · have unreadable : ¬ (Outline.ofStatement (.create definition)).Readable :=
      fun readable => (Outline.readable_create.mp readable).1 nonempty
    obtain ⟨constraint, constraints, isConstraints⟩ :=
      List.exists_cons_of_ne_nil (formed.nonempty.resolve_left (· nonempty))
    simp only [nonempty, isConstraints, List.map_nil, Piece.kinds_commaSeparated_nil,
      Piece.kinds_append, List.flatMap_cons, List.nil_append, List.cons_append,
      Piece.kinds_sign_cons]
    exact (tableElement_refuses id : Reads limit False _ 0 _ (fun _ => False) 0 _).refused unreadable
  · rw [kinds_elements nonempty]
    refine (elements_read formed fits room nonempty).parenthesized.bind
      (fun readable => (Outline.readable_create.mp readable).2) fun hold elements same => ?_
    refine (onCommit_reads definition.onCommit stops).step (.still (spanFrom_still start) ?_)
    exact fun span => .pure (Outline.readable_create.mpr ⟨nonempty, hold⟩)
      (Create.erase_ofElements formed same span)

/-! ## Insertions -/

theorem overriding_reads (policy : Option Overriding) (stops : lead rest ≠ .keyword .OVERRIDING) :
    Reads limit True overriding 0 (Overriding.tokens policy ++ rest) (· = policy) 0 rest := by
  rcases policy with _ | _ | _
  · exact (takeWord_no stops).step (.pure trivial rfl)
  · refine (takeWord_yes .OVERRIDING).step ((takeWord_yes .USER).step ?_)
    exact (expectWord_reads .VALUE).step (.pure trivial rfl)
  · refine (takeWord_yes .OVERRIDING).step ((takeWord_no (by simp)).step ?_)
    exact (expectWord_reads .SYSTEM).step ((expectWord_reads .VALUE).step (.pure trivial rfl))

/-- A parenthesis before the rows of an insertion opens its columns only if a name stands
after it. -/
theorem insertColumns_reads (columns : List Name)
    (noName : lead rest = .symbol .leftParen → (lead (rest.drop 1)).name? = none) :
    Reads limit True insertColumns 0
      (Piece.kinds (Canonical.when (!columns.isEmpty) (Piece.names columns)) ++ rest)
      (· = columns) 0 rest := by
  cases columns with
  | nil =>
    show Reads limit True insertColumns 0 rest (· = []) 0 rest
    by_cases opens : lead rest = .symbol .leftParen
    · refine (atSign_yes opens).step (peek_reads.step ?_)
      rw [noName opens]
      exact .pure trivial rfl
    · exact (atSign_no opens).step (.pure trivial rfl)
  | cons column columns =>
    show Reads limit True insertColumns 0
      (Piece.kinds (Piece.names (column :: columns)) ++ rest) (· = column :: columns) 0 rest
    refine (atSign_yes (by simp [Piece.names])).step (peek_reads.step ?_)
    have isName : (lead ((Piece.kinds (Piece.names (column :: columns)) ++ rest).drop 1)).name? =
        some column := by
      simp [Piece.names, Kind.name?]
    rw [isName]
    exact names_reads (by simp)

theorem insertSource_reads {source : InsertSource} (formed : source.Formed)
    (room : ∀ rows, source = .query rows →
      2 * (Outline.ofQuery rows).depth ≤ capOf limit) (past : Past 10 rest) :
    Reads limit (∀ rows, source = .query rows → (Outline.ofQuery rows).Readable) insertSource 0
      (source.tokens ++ rest) (fun it => it.erase = source.erase) 0 rest := by
  cases source with
  | defaultValues =>
    refine (takeWord_yes .DEFAULT).step ((expectWord_reads .VALUES).step (.pure ?_ rfl))
    intro rows isQuery
    cases isQuery
  | query rows =>
    have whole : Reads limit (∀ it, InsertSource.query rows = .query it →
        (Outline.ofQuery it).Readable) (do return InsertSource.query (← wholeQuery)) 0 (rows.tokens ++ rest)
        (fun it => it.erase = (InsertSource.query rows).erase) 0 rest := by
      refine (wholeQuery_reads formed (by have := room rows rfl; omega) past).bind
        (fun all => all rows rfl) fun readable query same => .pure ?_ ?_
      · rintro it ⟨⟩
        exact readable
      · simp [InsertSource.erase, same]
    cases enclosed : rows.beginsEnclosed with
    | true =>
      have opens : lead (rows.tokens ++ rest) = .symbol .leftParen := by
        rw [Query.tokens_enclosed formed enclosed]
        rfl
      refine (takeWord_no (by simp [opens])).step ((startsQuery_no (by rw [opens]; rfl)).step ?_)
      exact (atSign_yes opens).step whole
    | false =>
      have starts := Query.starts formed enclosed rest
      have noDefault : lead (rows.tokens ++ rest) ≠ .keyword .DEFAULT := by
        intro isDefault
        rw [isDefault] at starts
        cases starts
      exact (takeWord_no noDefault).step ((startsQuery_yes starts).step whole)

theorem insert_reads {insertion : Insert} (formed : insertion.source.Formed)
    (room : ∀ rows, insertion.source = .query rows →
      2 * (Outline.ofQuery rows).depth ≤ capOf limit) (past : Past 10 rest) :
    Reads limit (Outline.ofStatement (.insert insertion)).Readable insert 0
      (Piece.kinds (Canonical.ofInsert insertion) ++ rest)
      (fun it => (Statement.insert it).erase = (Statement.insert insertion).erase) 0 rest := by
  obtain ⟨table, columns, policy, source, span⟩ := insertion
  have text : Piece.kinds (Canonical.ofInsert ⟨table, columns, policy, source, span⟩) ++ rest =
      .keyword .INSERT :: .keyword .INTO :: (Piece.kinds (Piece.qualified table) ++
        (Piece.kinds (Canonical.when (!columns.isEmpty) (Piece.names columns)) ++
          (Overriding.tokens policy ++ (source.tokens ++ rest)))) := by
    cases columns <;> cases policy <;> cases source <;>
      simp [Canonical.ofInsert, Canonical.when, Canonical.optional, Overriding.tokens]
  rw [text]
  refine .still here_still fun start => (expectWord_reads _).step ((expectWord_reads _).step ?_)
  have ends := source.endsColumns formed policy rest
  refine (qualifiedName_reads table ?_).step ((insertColumns_reads columns ends.noName).step ?_)
  · cases columns with
    | nil => exact ends.dot
    | cons column columns => simp [Canonical.when, Piece.names]
  refine (overriding_reads policy (source.noOverriding formed rest)).step ?_
  refine (insertSource_reads formed room past).bind Outline.readable_insert.mp
    fun readable rows same => .still (spanFrom_still start) fun _ => .pure ?_ ?_
  · exact Outline.readable_insert.mpr readable
  · simp [Statement.erase, same]

/-! ## Deletions -/

theorem deleteCondition_reads {selection : Option Expr} (formed : Expr.OptionFormed selection)
    (room : ∀ expr ∈ selection, 2 * (Outline.ofExpr expr).depth ≤ capOf limit)
    (past : Past 10 rest) :
    Reads limit (∀ expr ∈ selection, (Outline.ofExpr expr).Readable) deleteCondition 0
      (Piece.kinds (Canonical.optional (fun selection => Piece.after [.word .WHERE] ++
        Piece.after (Canonical.ofExpr selection)) selection) ++ rest)
      (fun it => Expr.eraseOption it = Expr.eraseOption selection) 0 rest := by
  cases selection with
  | none => exact (takeWord_no (past.ne (by decide))).step (.pure nofun rfl)
  | some expr =>
    have text : Piece.kinds (Canonical.optional (fun selection => Piece.after [.word .WHERE] ++
        Piece.after (Canonical.ofExpr selection)) (some expr)) ++ rest =
        .keyword .WHERE :: (expr.tokens ++ rest) := by
      simp [Canonical.optional]
    rw [text]
    refine (takeWord_yes .WHERE).step ?_
    refine (wholeExpression_reads formed (by have := room expr rfl; omega)
      (.of_quiet past.quiet)).bind (fun all => all expr rfl) fun readable it same => .pure ?_ ?_
    · rintro other ⟨⟩
      exact readable
    · simp [Expr.eraseOption, same]

theorem delete_reads {deletion : Delete} (formed : Expr.OptionFormed deletion.selection)
    (room : ∀ expr ∈ deletion.selection, 2 * (Outline.ofExpr expr).depth ≤ capOf limit)
    (past : Past 10 rest) :
    Reads limit (Outline.ofStatement (.delete deletion)).Readable delete 0
      (Piece.kinds (Canonical.ofDelete deletion) ++ rest)
      (fun it => (Statement.delete it).erase = (Statement.delete deletion).erase) 0 rest := by
  obtain ⟨table, only, selection, span⟩ := deletion
  have text : Piece.kinds (Canonical.ofDelete ⟨table, only, selection, span⟩) ++ rest =
      .keyword .DELETE :: .keyword .FROM :: ((if only then [Kind.keyword .ONLY] else []) ++
        (Piece.kinds (Piece.qualified table) ++
          (Piece.kinds (Canonical.optional (fun selection => Piece.after [Piece.word .WHERE] ++
            Piece.after (Canonical.ofExpr selection)) selection) ++ rest))) := by
    cases only <;> simp [Canonical.ofDelete]
  rw [text]
  refine .still here_still fun start => (expectWord_reads _).step ((expectWord_reads _).step ?_)
  have single : Reads limit True (takeWord .ONLY) 0
      ((if only then [Kind.keyword .ONLY] else []) ++ (Piece.kinds (Piece.qualified table) ++
        (Piece.kinds (Canonical.optional (fun selection => Piece.after [Piece.word .WHERE] ++
          Piece.after (Canonical.ofExpr selection)) selection) ++ rest)))
      (· = only) 0 (Piece.kinds (Piece.qualified table) ++
        (Piece.kinds (Canonical.optional (fun selection => Piece.after [Piece.word .WHERE] ++
          Piece.after (Canonical.ofExpr selection)) selection) ++ rest)) := by
    cases only with
    | true => exact takeWord_yes .ONLY
    | false =>
      refine takeWord_no ?_
      obtain ⟨part, more, isName⟩ := Piece.lead_qualified table
        (Piece.kinds (Canonical.optional (fun selection => Piece.after [Piece.word .WHERE] ++
          Piece.after (Canonical.ofExpr selection)) selection) ++ rest)
      simp [isName]
  refine single.step ((qualifiedName_reads table ?_).step ?_)
  · cases selection with
    | none => exact past.ne (by decide)
    | some expr => simp [Canonical.optional]
  refine (deleteCondition_reads formed room past).bind Outline.readable_delete.mp
    fun readable it same => .still (spanFrom_still start) fun _ => .pure ?_ ?_
  · exact Outline.readable_delete.mpr readable
  · simp [Statement.erase, same]

/-! ## Statements -/

theorem selectStatement_reads {query : Query} (formed : query.Formed)
    (room : 2 * (Outline.ofQuery query).depth ≤ capOf limit) (past : Past 10 rest) :
    Reads limit (Outline.ofQuery query).Readable selectStatement 0 (query.tokens ++ rest)
      (fun it => it.erase = .select query.erase default) 0 rest := by
  refine .still here_still fun start => ?_
  refine (wholeQuery_reads formed (by omega) past).bind id fun readable it same => ?_
  exact .still (spanFrom_still start) fun _ => .pure readable (by simp [Statement.erase, same])

/-- The kind of a statement is told by its first token. -/
theorem bareStatement_select {accepts : Prop} {kinds : List Kind} {good : Statement → Prop}
    (starts : isQueryStart (lead kinds) = true ∨ lead kinds = .symbol .leftParen)
    (reads : Reads limit accepts selectStatement 0 kinds good 0 rest) :
    Reads limit accepts bareStatement 0 kinds good 0 rest := by
  refine kind_reads.step ?_
  rcases starts with starts | opens
  · unfold isQueryStart at starts
    split at starts
    · next isSelect => rwa [isSelect]
    · next isValues => rwa [isValues]
    · next isTable => rwa [isTable]
    · next isWith => rwa [isWith]
    · cases starts
  · rwa [opens]

theorem bareStatement_reads {statement : Statement} (fits : statement.Fits limit)
    (past : Past 10 rest) :
    Reads limit (Outline.ofStatement statement).Readable bareStatement 0
      (Piece.kinds (Canonical.ofStatement statement) ++ rest)
      (fun it => it.erase = statement.erase) 0 rest := by
  obtain ⟨formed, types, room⟩ := fits
  cases statement with
  | create definition =>
    have columns (column : ColumnDef) (member : column ∈ definition.columns) :
        2 * (Outline.ofColumnDef column).depth ≤ capOf limit := by
      rw [Outline.depth_create] at room
      have lower := Outline.depth_le_depthAll
        (List.mem_map_of_mem (f := Outline.ofColumnDef) member)
      omega
    have reads : Reads limit _ create 0 (Piece.kinds (Canonical.ofCreate definition) ++ rest) _ 0
        rest := create_reads formed types columns (past.ne (by decide))
    refine kind_reads.step ?_
    have opens : lead (Piece.kinds (Canonical.ofCreate definition) ++ rest) =
        .keyword .CREATE := by
      simp [Canonical.ofCreate]
    rw [Canonical.ofStatement, opens]
    exact reads.bind id fun readable it same => .pure readable (by simp [Statement.erase, same])
  | insert insertion =>
    have rows (query : Query) (isQuery : insertion.source = .query query) :
        2 * (Outline.ofQuery query).depth ≤ capOf limit := by
      rwa [Outline.depth_insert isQuery] at room
    have reads : Reads limit _ insert 0 (Piece.kinds (Canonical.ofInsert insertion) ++ rest) _ 0
        rest := insert_reads formed.2.2 rows past
    refine kind_reads.step ?_
    have opens : lead (Piece.kinds (Canonical.ofInsert insertion) ++ rest) =
        .keyword .INSERT := by
      simp [Canonical.ofInsert]
    rw [Canonical.ofStatement, opens]
    exact reads.bind id fun readable it same => .pure readable same
  | delete deletion =>
    have condition (expr : Expr) (member : expr ∈ deletion.selection) :
        2 * (Outline.ofExpr expr).depth ≤ capOf limit := by
      rwa [Outline.depth_delete member] at room
    have reads := delete_reads formed.2 condition past
    refine kind_reads.step ?_
    have opens : lead (Piece.kinds (Canonical.ofDelete deletion) ++ rest) =
        .keyword .DELETE := by
      simp [Canonical.ofDelete]
    rw [Canonical.ofStatement, opens]
    exact reads.bind id fun readable it same => .pure readable same
  | select query span =>
    rw [Outline.depth_select] at room
    have reads : Reads limit _ selectStatement 0 (query.tokens ++ rest) _ 0 rest :=
      selectStatement_reads formed room past
    have starts : isQueryStart (lead (query.tokens ++ rest)) = true ∨
        lead (query.tokens ++ rest) = .symbol .leftParen := by
      cases enclosed : query.beginsEnclosed with
      | true => exact .inr (by rw [Query.tokens_enclosed formed enclosed]; rfl)
      | false => exact .inl (Query.starts formed enclosed rest)
    exact (bareStatement_select starts reads).mono Outline.readable_select.symm fun _ same => same

theorem endOfText_reads : Reads limit True endOfText 0 [] (· = ()) 0 [] :=
  (takeSign_no (by simp)).step (kind_reads.step (.pure trivial rfl))

/-- A tree that is within the limit is let through. -/
theorem checkDepth_reads {statement : Statement}
    (within : (Outline.ofStatement statement).depth ≤ limit) {depth : Nat} {kinds : List Kind} :
    Reads limit True (checkDepth statement) depth kinds (· = ()) depth kinds := by
  have passes (s : State) (shows : s.Shows limit depth kinds) :
      checkDepth statement s = .ok () s := by
    have none := (Outline.firstBeyond_eq_none _ _).mpr within
    rw [checkDepth_eq, shows.limit, none]
  refine ⟨fun s a s' shows run => ?_, fun s failure s' shows run => ?_⟩
  · rw [passes s shows] at run
    cases run
    exact ⟨trivial, rfl, shows⟩
  · rw [passes s shows] at run
    cases run

/-- The tokens of the canonical text of a statement are read back as the statement itself,
but for its places, if it is readable, and an unexpected token is refused if it is not. -/
theorem statement_reads {statement : Statement} (fits : statement.Fits limit)
    (within : (Outline.ofStatement statement).depth ≤ limit) :
    Reads limit (Outline.ofStatement statement).Readable Parse.statement 0
      (Piece.kinds (Canonical.ofStatement statement)) (fun it => it.erase = statement.erase) 0
      [] := by
  have past : Past 10 [] := Nat.le_refl 10
  have bare := bareStatement_reads fits past
  rw [List.append_nil] at bare
  refine bare.bind id fun readable it same => endOfText_reads.step ?_
  have depth : (Outline.ofStatement it).depth ≤ limit := by
    rwa [← Outline.ofStatement_erase, same, Outline.ofStatement_erase]
  exact (checkDepth_reads depth).step (.pure readable same)

end Parse

end CanonicalSql
