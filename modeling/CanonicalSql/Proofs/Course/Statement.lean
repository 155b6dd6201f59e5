import CanonicalSql.Grammar.Statement
import CanonicalSql.Proofs.Course.DataType
import CanonicalSql.Proofs.Course.Query

/-!
# The course of statements

Definitions of tables and the other statements. The clauses of a column and the elements of a
table come in any order, while the tree keeps those of a kind together, so that what lies in the
text is a permutation of what is below the node; the columns of a table are still in order.

`statement_proceeds` is the upshot for a whole text: the statement takes up the tokens from the first
one up to the semicolon, or to the end of input if there is none.
-/
namespace CanonicalSql

/-- Some of the extents in their order lie within the stretch if all of them do. -/
theorem Laid.sublist {tokens : List Token} {i j : Nat} {extents some : List Extent}
    (laid : Laid tokens i j extents) (chosen : some.Sublist extents) : Laid tokens i j some := by
  induction laid generalizing some with
  | nil ordered =>
    rw [List.sublist_nil.mp chosen]
    exact .nil ordered
  | cons low covers inner arranged _ _ ih =>
    have := covers.lt
    rcases List.sublist_cons_iff.mp chosen with skipped | ⟨others, rfl, chosen⟩
    · exact (ih skipped).mono (by omega) (Nat.le_refl _)
    · exact .cons low covers inner arranged (ih (List.cons_sublist_cons.mp chosen))

/-- The extent takes up the whole stretch. -/
def Fills (tokens : List Token) (i j : Nat) (extent : Extent) : Prop :=
  Covers tokens i j extent.span ∧ Laid tokens i j [extent]

/-- What lies in the stretch, in whatever order, is below the mixed extent. -/
theorem Fills.mixed {tokens : List Token} {i j : Nat} {span : Span} {parts below : List Extent}
    (covers : Covers tokens i j span) (laid : Laid tokens i j parts) (perm : parts.Perm below) :
    Fills tokens i j (.node span below true) :=
  ⟨covers, .cons (Nat.le_refl i) covers laid ⟨perm, by simp⟩ (.nil (Nat.le_refl j))⟩

theorem Fills.node {tokens : List Token} {i j : Nat} {span : Span} {below : List Extent}
    (covers : Covers tokens i j span) (laid : Laid tokens i j below) :
    Fills tokens i j (.node span below) :=
  ⟨covers, .node covers laid⟩

namespace Parse

variable {tokens : List Token} {i a b : Nat}

/-! ## Whole phrases -/

/-- The tokens ahead are bound enough for the phrases. -/
theorem Runs.forState {α : Type} {read : Phrases → Parse α} {good : Nat → α → Prop}
    (runs : ∀ phrases : Phrases, phrases.Course tokens i → Runs tokens i (read phrases) good) :
    Runs tokens i (do read (← Phrases.forState)) good := by
  have whole (s : State) (stands : s.At tokens i) :
      (Phrases.within (Phrases.boundFor s)).Course tokens i := by
    have := stands.length
    refine (Phrases.within_course _ i).1 ?_
    simp only [Phrases.boundFor]
    omega
  exact ⟨⟨fun s value s' stands run => (runs _ (whole s stands)).ok s value s' stands run,
    fun s failure s' stands run => (runs _ (whole s stands)).error s failure s' stands run⟩,
    fun s value s' stands run => (runs _ (whole s stands)).inside s value s' stands run⟩

theorem wholeExpression_runs :
    Runs tokens i wholeExpression fun j expr => Laid tokens i j [.ofExpr expr] :=
  .forState fun _ course => expression_runs course

theorem wholeQuery_runs :
    Runs tokens i wholeQuery fun j query => Laid tokens i j [.ofQuery query] :=
  .forState fun _ course => course.query

/-! ## References -/

theorem referentialAction_runs : Passes tokens i referentialAction := by
  refine .look word?_looks ?_
  split
  · next isWord => exact .advanceWord isWord (.pure trivial)
  · next isWord => exact .advanceWord isWord (.pure trivial)
  · next isWord =>
    refine .advanceWord isWord (.look word?_looks ?_)
    split
    · next isWord => exact .advanceWord isWord (.pure trivial)
    · next isWord => exact .advanceWord isWord (.pure trivial)
    · exact unexpected_runs _
  · next isWord => exact .advanceWord isWord (.expectWord (.pure trivial))
  · exact unexpected_runs _

/-- Each triggered action takes `ON` at least. -/
theorem triggerStep_rounds : Rounds tokens i triggerStep fun _ _ => True := by
  intro k triggers past _
  have action {word : Keyword} (named : kindAt tokens (k + 1) = .keyword word)
      (record : ReferentialAction → Triggers) :
      Runs tokens (k + 1) (do advance; return some (record (← referentialAction)))
        fun j next => (next = none → True) ∧ ∀ more, next = some more → k < j ∧ True := by
    refine .advance (by rw [named]; rfl) (referentialAction_runs.andThen fun found j past => ?_)
    exact .pure ⟨fun _ => trivial, fun _ _ => ⟨by omega, trivial⟩⟩
  refine .takeWord ?_ (.pure ⟨fun _ => trivial, by simp⟩)
  refine .look (atWord_looks _) (.ite (fun named => ?_) fun _ => ?_)
  · exact action (of_decide_eq_true (Bool.and_eq_true_iff.mp named).2) _
  refine .look (atWord_looks _) (.ite (fun named => ?_) fun _ => unexpected_runs _)
  exact action (of_decide_eq_true (Bool.and_eq_true_iff.mp named).2) _

theorem matchOption_runs : Passes tokens i matchOption := by
  refine .takeWord (.look word?_looks ?_) (.pure trivial)
  split
  · next isWord => exact .advanceWord isWord (.pure trivial)
  · next isWord => exact .advanceWord isWord (.pure trivial)
  · next isWord => exact .advanceWord isWord (.pure trivial)
  · exact unexpected_runs _

theorem references_runs :
    Runs tokens i references fun j found => Covers tokens i j found.span := by
  refine .here fun start begins => .expectWord (anyName_runs.andThen fun table j _ => ?_)
  refine optionalNames_runs.andThen fun columns m _ => matchOption_runs.andThen fun option n _ => ?_
  refine (triggerStep_rounds.loop trivial).andThen fun triggers o _ => ?_
  exact .spanFrom begins (by omega) fun span covers => .pure covers

/-! ## Constraints -/

theorem constraintName_runs : Passes tokens i constraintName :=
  .takeWord (anyName_runs.andThen fun _ _ _ => .pure trivial) (.pure trivial)

/-- The extent of what a column constraint refers to. -/
def referredByColumn : ColumnConstraintKind → List Extent
  | .foreignKey references => [.node references.span []]
  | _ => []

theorem columnConstraintKind_runs : Runs tokens i columnConstraintKind fun j kind =>
    i < j ∧ Laid tokens i j (referredByColumn kind) := by
  refine .look word?_looks ?_
  split
  · next isWord => exact .advanceWord isWord (.expectWord (.pure ⟨by omega, .nil (by omega)⟩))
  · next isWord => exact .advanceWord isWord (.pure ⟨by omega, .nil (by omega)⟩)
  · next isWord => exact .advanceWord isWord (.expectWord (.pure ⟨by omega, .nil (by omega)⟩))
  · exact references_runs.bind fun references j _ covers => .pure ⟨covers.lt, .leaf covers⟩
  · exact unexpected_runs _

theorem columnConstraint_runs : Runs tokens i columnConstraint fun j constraint =>
    Laid tokens i j [Extent.ofColumnConstraint constraint] := by
  refine .here fun start begins => constraintName_runs.andThen fun name j _ => ?_
  refine columnConstraintKind_runs.bind fun kind m _ laid => ?_
  refine .spanFrom begins (by omega) fun span covers => .pure ?_
  cases kind with
  | foreignKey references => exact .node covers (laid.2.mono (by omega) (Nat.le_refl m))
  | _ => exact .leaf covers

/-- The extent of what a table constraint refers to. -/
def referredByTable : TableConstraintKind → List Extent
  | .foreignKey _ references => [.node references.span []]
  | _ => []

theorem tableConstraintKind_runs : Runs tokens i tableConstraintKind fun j kind =>
    i < j ∧ Laid tokens i j (referredByTable kind) := by
  refine .look word?_looks ?_
  split
  · next isWord =>
    exact .advanceWord isWord (names_runs.bind fun _ _ _ _ => .pure ⟨by omega, .nil (by omega)⟩)
  · next isWord =>
    exact .advanceWord isWord (.expectWord (names_runs.bind fun _ _ _ _ =>
      .pure ⟨by omega, .nil (by omega)⟩))
  · next isWord =>
    refine .advanceWord isWord (.expectWord (names_runs.bind fun columns j _ _ => ?_))
    refine references_runs.bind fun references m _ covers => .pure ⟨by omega, ?_⟩
    exact (Laid.leaf covers).mono (by omega) (Nat.le_refl m)
  · exact unexpected_runs _

theorem tableConstraint_runs : Runs tokens i tableConstraint fun j constraint =>
    Laid tokens i j [Extent.ofTableConstraint constraint] := by
  refine .here fun start begins => constraintName_runs.andThen fun name j _ => ?_
  refine tableConstraintKind_runs.bind fun kind m _ laid => ?_
  refine .spanFrom begins (by omega) fun span covers => .pure ?_
  cases kind with
  | foreignKey columns references => exact .node covers (laid.2.mono (by omega) (Nat.le_refl m))
  | _ => exact .leaf covers

/-! ## Columns -/

theorem columnDefault_runs : Runs tokens i columnDefault fun j default =>
    Laid tokens i j (Extent.ofDefault (some default)) := by
  refine .look word?_looks ?_
  split
  · next user isUser =>
    obtain ⟨word, isWord, -⟩ := Option.bind_eq_some_iff.mp isUser
    exact .advanceWord isWord (.pure (.nil (Nat.le_succ i)))
  · refine .atWordBefore (fun named _ => ?_) ?_
    · exact .advance (by rw [named]; rfl) (.pure (.nil (Nat.le_succ i)))
    · exact wholeExpression_runs.bind fun value _ _ laid => .pure laid

/-- What is below a column lies from the `a`-th token on, if maybe in another order. -/
def ColumnLaid (tokens : List Token) (a j : Nat) (column : ColumnDef) : Prop :=
  ∃ parts, Laid tokens a j parts ∧ parts.Perm (Extent.belowColumnDef column)

/-- Each clause of a column takes a token, and adds to what lies below the column. -/
theorem columnClause_rounds :
    Rounds tokens i columnClause fun j column => ColumnLaid tokens a j column := by
  rintro k column further ⟨parts, laid, perm⟩
  have constrained : Runs tokens k
      (do return some { column with
            constraints := column.constraints ++ [← columnConstraint] })
      fun j next => (next = none → ColumnLaid tokens a j column) ∧
        ∀ more, next = some more → k < j ∧ ColumnLaid tokens a j more := by
    refine columnConstraint_runs.bind fun constraint j _ laidMore => .pure ⟨by simp, ?_⟩
    rintro more ⟨⟩
    refine ⟨laidMore.lt, parts ++ [.ofColumnConstraint constraint], laid.append laidMore, ?_⟩
    simp only [Extent.belowColumnDef, List.map_append, ← List.append_assoc]
    exact perm.append_right _
  refine .look word?_looks ?_
  split
  · next isWord =>
    refine .ite (fun _ => unexpected_runs _) fun noDefault => .advanceWord isWord ?_
    refine columnDefault_runs.bind fun default j _ laidMore => .pure ⟨by simp, ?_⟩
    rintro more ⟨⟩
    refine ⟨by omega, parts ++ Extent.ofDefault (some default), ?_, ?_⟩
    · exact laid.append (laidMore.mono (Nat.le_succ k) (Nat.le_refl j))
    · have isNone : column.default = none := by simpa using noDefault
      simp only [Extent.belowColumnDef, isNone, Extent.ofDefault, List.nil_append] at perm
      exact (perm.append_right _).trans List.perm_append_comm
  · next isWord =>
    refine .ite (fun _ => unexpected_runs _) fun _ => .advanceWord isWord ?_
    refine qualifiedName_runs.bind fun collation j some _ => .pure ⟨by simp, ?_⟩
    rintro more ⟨⟩
    exact ⟨by omega, parts, laid.mono (Nat.le_refl a) (by omega), perm⟩
  · exact constrained
  · exact constrained
  · exact constrained
  · exact constrained
  · exact constrained
  · exact .pure ⟨fun _ => ⟨parts, laid, perm⟩, by simp⟩

theorem columnDef_runs : Runs tokens i columnDef fun j column =>
    Laid tokens i j [Extent.ofColumnDef column] := by
  refine .here fun start begins => .identifier fun name => dataType_runs.andThen fun type j _ => ?_
  have below : ColumnLaid tokens i j { name, dataType := type } :=
    ⟨[], .nil (by omega), .refl _⟩
  refine (columnClause_rounds.loop below).bind fun column m _ found => ?_
  obtain ⟨parts, laid, perm⟩ := found
  exact .spanFrom begins (by omega) fun span covers => .pure (Fills.mixed covers laid perm).2

theorem tableElement_runs : Runs tokens i tableElement fun j element =>
    Laid tokens i j [Extent.ofTableElement element] := by
  have constraint : Runs tokens i (do return TableElement.constraint (← tableConstraint))
      fun j element => Laid tokens i j [Extent.ofTableElement element] :=
    tableConstraint_runs.bind fun _ _ _ laid => .pure laid
  refine .look word?_looks ?_
  split
  · exact constraint
  · exact constraint
  · exact constraint
  · exact constraint
  · exact columnDef_runs.bind fun _ _ _ laid => .pure laid

/-! ## Tables -/

theorem temporary_runs : Passes tokens i temporary := by
  have scope : Passes tokens i temporaryScope :=
    .takeWord (.pure trivial) (.takeWord (.pure trivial) (.pure trivial))
  have word (k : Nat) : Passes tokens k takeTemporary :=
    .takeWord (.pure trivial) ((takeWord_runs _).mono fun _ _ _ _ => trivial)
  refine scope.andThen fun scope j _ => (word j).andThen fun found m _ => ?_
  exact .ite (fun _ => .pure trivial) fun _ => .ite (fun _ => unexpected_runs _) fun _ => .pure trivial

theorem onCommit_runs : Passes tokens i onCommit := by
  have policy (k : Nat) : Passes tokens k commitPolicy :=
    .takeWord (.pure trivial) (.takeWord (.pure trivial) (unexpected_runs _))
  exact .takeWord (.expectWord ((policy _).andThen fun _ _ _ => .expectWord (.pure trivial)))
    (.pure trivial)

/-- The columns of a table are in the order of its elements. -/
theorem columns_sublist (name : QualifiedName) (temporary : Option Temporary)
    (policy : Option OnCommit) (elements : List TableElement) (span : Span) :
    ((Create.ofElements name temporary policy elements span).columns.map
      Extent.ofColumnDef).Sublist (elements.map Extent.ofTableElement) := by
  induction elements with
  | nil => exact .refl _
  | cons element rest ih =>
    cases element with
    | column column => exact ih.cons_cons _
    | constraint constraint => exact ih.cons _

/-- The elements of a table are its columns and its constraints. -/
theorem elements_perm (name : QualifiedName) (temporary : Option Temporary)
    (policy : Option OnCommit) (elements : List TableElement) (span : Span) :
    (elements.map Extent.ofTableElement).Perm
      ((Create.ofElements name temporary policy elements span).columns.map Extent.ofColumnDef ++
        (Create.ofElements name temporary policy elements span).constraints.map
          Extent.ofTableConstraint) := by
  induction elements with
  | nil => exact .refl _
  | cons element rest ih =>
    cases element with
    | column column => exact ih.cons _
    | constraint constraint => exact (ih.cons _).trans List.perm_middle.symm

/-- A definition takes up all that was read of it, and its columns are in order. -/
theorem create_runs : Runs tokens i create fun j definition =>
    Fills tokens i j (.ofCreate definition) ∧
      Laid tokens i j (definition.columns.map Extent.ofColumnDef) := by
  refine .here fun start begins => .expectWord (temporary_runs.andThen fun temporary j _ => ?_)
  refine .expectWord (anyName_runs.andThen fun name m _ => ?_)
  have elements : Runs tokens m (parenthesized (commaSeparated tableElement))
      fun n elements => Laid tokens m n (elements.map Extent.ofTableElement) :=
    parenthesized_runs ((Runs.commaSeparated fun k _ => tableElement_runs).mono fun _ _ _ laid =>
      laid.2.mono (by omega) (by omega))
  refine elements.bind fun elements n _ laid => onCommit_runs.andThen fun policy o _ => ?_
  refine .spanFrom begins (by omega) fun span covers => .pure ?_
  have laid := laid.mono (i := i) (j := o) (by omega) (by omega)
  exact ⟨.mixed covers laid (elements_perm ..), laid.sublist (columns_sublist ..)⟩

/-! ## Statements -/

theorem overriding_runs : Passes tokens i overriding :=
  .takeWord (.takeWord (.expectWord (.pure trivial)) (.expectWord (.expectWord (.pure trivial))))
    (.pure trivial)

theorem insertColumns_runs : Passes tokens i insertColumns := by
  refine .look (atSign_looks _) (.ite (fun _ => .peek (.ite (fun _ => ?_) fun _ => .pure trivial))
    fun _ => .pure trivial)
  exact names_runs.mono fun _ _ _ _ => trivial

theorem insertSource_runs : Runs tokens i insertSource fun j source =>
    Laid tokens i j (Extent.ofInsertSource source) := by
  have query : Runs tokens i (do return InsertSource.query (← wholeQuery))
      fun j source => Laid tokens i j (Extent.ofInsertSource source) :=
    wholeQuery_runs.bind fun _ _ _ laid => .pure laid
  refine .takeWord (.expectWord (.pure (.nil (by omega)))) ?_
  refine .look startsQuery_looks (.ite (fun _ => query) fun _ => ?_)
  exact .look (atSign_looks _) (.ite (fun _ => query) fun _ => unexpected_runs _)

theorem insert_runs : Runs tokens i insert fun j insertion =>
    Fills tokens i j (.ofStatement (.insert insertion)) := by
  refine .here fun start begins => .expectWord (.expectWord ?_)
  refine anyName_runs.andThen fun table j _ => insertColumns_runs.andThen fun columns m _ => ?_
  refine overriding_runs.andThen fun overriding n _ => ?_
  refine insertSource_runs.bind fun source o _ laid => ?_
  exact .spanFrom begins (by omega) fun span covers =>
    .pure (.node covers (laid.mono (by omega) (Nat.le_refl o)))

theorem delete_runs : Runs tokens i delete fun j deletion =>
    Fills tokens i j (.ofStatement (.delete deletion)) := by
  have condition (k : Nat) : Runs tokens k deleteCondition fun j selection =>
      Laid tokens k j (Extent.ofOption selection) :=
    .takeWord (wholeExpression_runs.bind fun _ j _ laid =>
      .pure (laid.mono (by omega) (Nat.le_refl j))) (.pure (.nil (Nat.le_refl k)))
  refine .here fun start begins => .expectWord (.expectWord ?_)
  refine ((takeWord_runs _).mono fun _ _ _ _ => trivial).andThen fun only j _ => ?_
  refine anyName_runs.andThen fun table m _ => (condition m).bind fun selection n _ laid => ?_
  exact .spanFrom begins (by omega) fun span covers =>
    .pure (.node covers (laid.mono (by omega) (Nat.le_refl n)))

theorem selectStatement_runs : Runs tokens i selectStatement fun j statement =>
    ∃ query span, statement = .select query span ∧ Fills tokens i j (.ofStatement statement) := by
  refine .here fun start begins => wholeQuery_runs.bind fun query j _ laid => ?_
  have some := laid.lt
  exact .spanFrom begins (by omega) fun span covers =>
    .pure ⟨query, span, rfl, .node covers laid⟩

/-- The columns that a statement defines. -/
def definedColumns : Statement → List ColumnDef
  | .create definition => definition.columns
  | _ => []

/-- A statement takes up the stretch, and the columns that it defines are in order. -/
def StatementLaid (tokens : List Token) (i j : Nat) (statement : Statement) : Prop :=
  Fills tokens i j (.ofStatement statement) ∧
    Laid tokens i j ((definedColumns statement).map Extent.ofColumnDef)

theorem bareStatement_runs : Runs tokens i bareStatement (StatementLaid tokens i) := by
  have selected : Runs tokens i selectStatement (StatementLaid tokens i) := by
    refine selectStatement_runs.mono fun statement j past found => ?_
    obtain ⟨query, span, rfl, fills⟩ := found
    exact ⟨fills, .nil past⟩
  refine .look kind_looks ?_
  split
  · exact create_runs.bind fun _ _ _ laid => .pure laid
  · exact insert_runs.bind fun _ _ past fills => .pure ⟨fills, .nil (Nat.le_of_lt fills.1.lt)⟩
  · exact delete_runs.bind fun _ _ past fills => .pure ⟨fills, .nil (Nat.le_of_lt fills.1.lt)⟩
  all_goals first
    | exact selected
    | exact unexpected_runs _

/-- The end of input is the `m`-th token, and between the `j`-th token and it there is nothing but
perhaps a semicolon. -/
def EndsText (tokens : List Token) (j m : Nat) : Prop :=
  kindAt tokens m = .endOfInput ∧ (m = j ∨ m = j + 1 ∧ kindAt tokens j = .symbol .semicolon)

/-- The one rule that takes a semicolon. -/
theorem endOfText_proceeds : Proceeds tokens i endOfText fun m _ => EndsText tokens i m := by
  have ended {k : Nat} (before : kindAt tokens k = .endOfInput → EndsText tokens i k) :
      Runs tokens k (do if (← kind) = .endOfInput then return () else unexpected "end of input")
        fun m _ => EndsText tokens i m :=
    .look kind_looks (.ite (fun ends => .pure (before ends)) fun _ => unexpected_runs _)
  refine (takeSign_proceeds .semicolon).bind fun taken j _ either => ?_
  rcases either with ⟨-, semicolon, rfl⟩ | ⟨-, rfl⟩
  · exact (ended fun ends => ⟨ends, .inr ⟨rfl, semicolon⟩⟩).toProceeds
  · exact (ended fun ends => ⟨ends, .inl rfl⟩).toProceeds

theorem checkDepth_runs (statement : Statement) :
    Runs tokens i (checkDepth statement) fun j _ => j = i := by
  refine Proceeds.still ⟨fun s value s' stands run => ?_, fun s failure s' stands run => ?_⟩
    fun _ _ same => same
  · rw [checkDepth_eq] at run
    cases beyond : (Outline.ofStatement statement).firstBeyond s.limit with
    | some span =>
      simp only [beyond] at run
      cases run
    | none =>
      simp only [beyond] at run
      cases run
      exact ⟨i, Nat.le_refl i, stands, rfl⟩
  · rw [checkDepth_eq] at run
    cases beyond : (Outline.ofStatement statement).firstBeyond s.limit with
    | some span =>
      simp only [beyond] at run
      cases run
      have := stands.length
      have := stands.taken
      exact ⟨by simp, by omega⟩
    | none =>
      simp only [beyond] at run
      cases run

/-- A whole text: the statement, none of whose tokens is a semicolon, and what may follow it. -/
theorem statement_proceeds : Proceeds tokens i statement fun m statement =>
    ∃ j, StatementLaid tokens i j statement ∧
      (∀ k, i ≤ k → k < j → (kindAt tokens k).endsStatement = false) ∧ EndsText tokens j m := by
  refine bareStatement_runs.unclosed.toProceeds.bind fun result j _ found => ?_
  obtain ⟨laid, inside⟩ := found
  refine endOfText_proceeds.bind fun _ m _ ends => ?_
  refine (checkDepth_runs result).toProceeds.bind fun _ n _ same => ?_
  exact (Runs.pure ⟨j, laid, inside, same ▸ ends⟩).toProceeds

end Parse

end CanonicalSql
