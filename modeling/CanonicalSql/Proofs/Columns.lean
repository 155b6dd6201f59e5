import CanonicalSql.Proofs.Elsewhere.Definition
import CanonicalSql.Proofs.Reading.Spelled

/-!
# The clauses of a column

After its type, a column may have a default value, a collation and constraints in any order. Each
clause is a text that its own rule reads alone, and the column is the same for all orders that
keep the constraints in theirs (`Statement.parse_clauses`). One pair is left out: `COLLATE`
directly behind a default value that is an expression is read as an operator of that expression.
-/
namespace CanonicalSql

/-- A clause of a column, written as a text and meant as what its own rule reads. -/
inductive ColumnClause
  | default (text : String) (value : ColumnDefault)
  | collation (text : String) (name : QualifiedName)
  | constraint (text : String) (constraint : ColumnConstraint)

namespace ColumnClause

/-- The text of a clause with the word that it begins with. -/
def text : ColumnClause → String
  | .default text _ => "DEFAULT " ++ text
  | .collation text _ => "COLLATE " ++ text
  | .constraint text _ => text

/-- The text of the clause is read alone as what it means. -/
def IsRead : ColumnClause → Prop
  | .default text value => Parse.Alone Parse.columnDefault text value
  | .collation text name => Parse.Alone Parse.qualifiedName text name
  | .constraint text it => Parse.Alone Parse.columnConstraint text it

/-- The default value that the clause gives. -/
def default? : ColumnClause → Option ColumnDefault
  | .default _ value => some value
  | _ => none

/-- The collation that the clause gives. -/
def collation? : ColumnClause → Option QualifiedName
  | .collation _ name => some name
  | _ => none

/-- The constraint that the clause is. -/
def constraint? : ColumnClause → Option ColumnConstraint
  | .constraint _ it => some it
  | _ => none

/-- The second clause can be told from the first one: it is no collation behind an expression. -/
def Apart : ColumnClause → ColumnClause → Prop
  | .default _ (.expr _), .collation .. => False
  | _, _ => True

/-- The clauses can stand in a column in this order. -/
structure Ordered (clauses : List ColumnClause) : Prop where
  one_default : (clauses.filterMap default?).length ≤ 1
  one_collation : (clauses.filterMap collation?).length ≤ 1
  apart : clauses.IsChain Apart

end ColumnClause

/-- The column with clauses. Their order matters among the constraints alone. -/
def ColumnDef.ofClauses (name : Name) (dataType : DataType) (clauses : List ColumnClause) :
    ColumnDef where
  name
  dataType
  default := (clauses.filterMap ColumnClause.default?).head?
  collation := (clauses.filterMap ColumnClause.collation?).head?
  constraints := clauses.filterMap ColumnClause.constraint?

/-- A column does not hang on the order of its clauses, but for that of the constraints. -/
theorem ColumnDef.ofClauses_perm (name : Name) (dataType : DataType)
    {clauses clauses' : List ColumnClause} (ordered : ColumnClause.Ordered clauses)
    (perm : clauses'.Perm clauses)
    (keeps : clauses'.filterMap ColumnClause.constraint? =
      clauses.filterMap ColumnClause.constraint?) :
    ofClauses name dataType clauses' = ofClauses name dataType clauses := by
  have single {α : Type} {get : ColumnClause → Option α}
      (one : (clauses.filterMap get).length ≤ 1) :
      clauses'.filterMap get = clauses.filterMap get := by
    have perm := perm.filterMap get
    generalize clauses.filterMap get = found at one perm
    match found with
    | [] => exact perm.eq_nil
    | [it] => exact List.perm_singleton.mp perm
  rw [ofClauses, ofClauses, single ordered.one_default, single ordered.one_collation, keeps]

namespace Parse

variable {limit depth : Nat} {row rest : List Kind}

/-! ## What clauses begin with -/

/-- Whether a constraint begins with the tokens. -/
def beginsConstraint : List Kind → Bool
  | .keyword .NOT :: kinds => decide (lead kinds = .keyword .NULL)
  | .keyword .CONSTRAINT :: _ | .keyword .UNIQUE :: _ | .keyword .PRIMARY :: _
  | .keyword .REFERENCES :: _ => true
  | _ => false

/-- The tokens begin with a clause of a column, or end the column. -/
def BeginsClause (kinds : List Kind) : Prop :=
  lead kinds = .keyword .DEFAULT ∨ lead kinds = .keyword .COLLATE ∨ lead kinds = .symbol .comma ∨
    lead kinds = .symbol .rightParen ∨ beginsConstraint kinds = true

theorem lead_of_beginsConstraint {kinds : List Kind} (begins : beginsConstraint kinds = true) :
    (∃ more, kinds = .keyword .NOT :: more ∧ lead more = .keyword .NULL) ∨
      lead kinds = .keyword .CONSTRAINT ∨ lead kinds = .keyword .UNIQUE ∨
      lead kinds = .keyword .PRIMARY ∨ lead kinds = .keyword .REFERENCES := by
  unfold beginsConstraint at begins
  split at begins
  · exact .inl ⟨_, rfl, of_decide_eq_true begins⟩
  all_goals simp at begins ⊢

namespace BeginsClause

variable {kinds : List Kind}

/-- The first token of a clause is one of a few. -/
theorem of_lead (test : Kind → Bool) (begins : BeginsClause kinds)
    (few : ∀ kind ∈ [Kind.keyword .DEFAULT, .keyword .COLLATE, .symbol .comma, .symbol .rightParen,
      .keyword .NOT, .keyword .CONSTRAINT, .keyword .UNIQUE, .keyword .PRIMARY, .keyword .REFERENCES],
      test kind = true) : test (lead kinds) = true := by
  rcases begins with isLead | isLead | isLead | isLead | begins
  · exact few _ (by simp [isLead])
  · exact few _ (by simp [isLead])
  · exact few _ (by simp [isLead])
  · exact few _ (by simp [isLead])
  · rcases lead_of_beginsConstraint begins with ⟨more, rfl, -⟩ | isLead | isLead | isLead | isLead
    · exact few _ (by simp)
    all_goals exact few _ (by simp [isLead])

theorem endsType (begins : BeginsClause kinds) : EndsType kinds where
  longer := by simpa using begins.of_lead (fun kind => !kind.extendsType) (by decide)
  suffix := by simpa using begins.of_lead (fun kind => !kind.isSuffix) (by decide)

theorem ne (begins : BeginsClause kinds) {other : Kind}
    (none : [Kind.keyword .DEFAULT, .keyword .COLLATE, .symbol .comma, .symbol .rightParen,
      .keyword .NOT, .keyword .CONSTRAINT, .keyword .UNIQUE, .keyword .PRIMARY,
      .keyword .REFERENCES].all (fun kind => decide (kind ≠ other)) = true) : lead kinds ≠ other :=
  of_decide_eq_true (begins.of_lead (fun kind => decide (kind ≠ other))
    (List.all_eq_true.mp none))

theorem endsReference (begins : BeginsClause kinds) : EndsReference kinds :=
  ⟨begins.ne rfl, begins.ne rfl, begins.ne rfl, begins.ne rfl⟩

theorem apart (begins : BeginsClause kinds) : isJoint (lead kinds) = false := by
  simpa using begins.of_lead (fun kind => !isJoint kind) (by decide)

theorem noDefault (begins : BeginsClause kinds) : continuesDefault (lead kinds) = false := by
  simpa using begins.of_lead (fun kind => !continuesDefault kind) (by decide)

/-- A clause ends every expression before it, but for the word `COLLATE`, which is an operator,
too. -/
theorem closes (begins : BeginsClause kinds) (noCollate : lead kinds ≠ .keyword .COLLATE) :
    Closes 0 kinds := by
  refine ⟨⟨⟨begins.ne rfl, begins.ne rfl, begins.ne rfl⟩, fun power isAhead => ?_⟩, begins.ne rfl⟩
  rcases begins with isLead | isLead | isLead | isLead | begins
  · simp [Power.ahead, isLead, Power.ofKind?] at isAhead
  · exact absurd isLead noCollate
  · simp [Power.ahead, isLead, Power.ofKind?] at isAhead
  · simp [Power.ahead, isLead, Power.ofKind?] at isAhead
  · rcases lead_of_beginsConstraint begins with ⟨more, rfl, isNull⟩ | isLead | isLead | isLead | isLead
    · simp [Power.ahead, isNull, isNegatable] at isAhead
    all_goals simp [Power.ahead, isLead, Power.ofKind?] at isAhead

end BeginsClause

theorem constraintName_none (nameless : lead row ≠ .keyword .CONSTRAINT) :
    Reads limit True constraintName depth row (· = none) depth row :=
  (takeWord_no nameless).step (.pure trivial rfl)

/-- A text that is read as a constraint begins with one of its words. -/
theorem Takes.beginsConstraint {constraint : ColumnConstraint}
    (takes : Takes columnConstraint row constraint) : beginsConstraint row = true := by
  obtain ⟨start, takes⟩ := takes.still here_still
  -- a name in front is its first word; without one the word tells what is demanded
  rcases Classical.em (lead row = .keyword .CONSTRAINT) with named | nameless
  · obtain ⟨more, rfl⟩ := eq_cons_of_lead named (by simp)
    rfl
  · have begins : Takes (columnConstraintKind >>= fun kind => do
        return ⟨none, kind, ← spanFrom start⟩) row constraint :=
      takes.step fun _ _ => constraintName_none nameless
    simp only [columnConstraintKind, bind_assoc] at begins
    have begins := begins.step fun _ _ => word?_looks.reads
    have first {word : Keyword} (isWord : (lead row).word? = some word) :
        ∃ more, row = .keyword word :: more :=
      eq_cons_of_lead (Kind.eq_of_word? isWord) (by simp)
    split at begins
    · next isWord =>
      obtain ⟨more, rfl⟩ := first isWord
      simp only [bind_assoc] at begins
      obtain ⟨_, -, others⟩ := begins.after fun _ _ => advance_reads
      refine decide_eq_true (Classical.byContradiction fun other => ?_)
      have refused (limit depth : Nat) : Reads limit False (expectWord .NULL) depth more
          (fun _ => False) depth more := expectWord_refuses id other
      obtain ⟨s, t, ⟨limit, depth, shows⟩, -, run⟩ := others
      exact (((refused limit depth).refused id : Reads limit False _ depth more (fun _ => False)
        depth more).ok s _ t shows run).1
    · next isWord => obtain ⟨more, rfl⟩ := first isWord; rfl
    · next isWord => obtain ⟨more, rfl⟩ := first isWord; rfl
    · next isWord => obtain ⟨more, rfl⟩ := first isWord; rfl
    · obtain ⟨s, t, -, -, run⟩ := begins
      cases run

/-! ## Default values -/

/-- A default value that is no expression is one word. -/
theorem Takes.columnDefault_cases {value : ColumnDefault} (takes : Takes columnDefault row value) :
    (∃ word user, row = [.keyword word] ∧ userKind? word = some user ∧ value = .user user) ∨
      row = [.keyword .NULL] ∧ value = .null ∨
      ∃ expr, value = .expr expr := by
  have takes := takes.step fun _ _ => word?_looks.reads
  cases isUser : (lead row).word?.bind userKind? with
  | some user =>
    rw [isUser] at takes
    obtain ⟨word, isWord, isKind⟩ := Option.bind_eq_some_iff.mp isUser
    obtain ⟨more, rfl⟩ := eq_cons_of_lead (Kind.eq_of_word? isWord) (by simp)
    obtain ⟨_, -, takes⟩ := takes.after fun _ _ => advance_reads
    have done (limit depth : Nat) : Reads limit True (pure (ColumnDefault.user user)) depth more
        (· = .user user) depth more := .pure trivial rfl
    obtain ⟨rfl, rfl⟩ := takes.of_reads done
    exact .inl ⟨word, user, rfl, isKind, rfl⟩
  | none =>
    rw [isUser] at takes
    -- the rule takes `NULL` alone only if it does not see it go on
    by_cases isNull : lead row = .keyword .NULL ∧ continuesDefault (lead (row.drop 1)) = false
    · obtain ⟨more, rfl⟩ := eq_cons_of_lead isNull.1 (by simp)
      have takes := takes.step fun _ _ => atWordBefore_yes (by simpa using isNull.2)
      obtain ⟨_, -, takes⟩ := takes.after fun _ _ => advance_reads
      have done (limit depth : Nat) : Reads limit True (pure ColumnDefault.null) depth more
          (· = .null) depth more := .pure trivial rfl
      obtain ⟨rfl, rfl⟩ := takes.of_reads done
      exact .inr (.inl ⟨rfl, rfl⟩)
    · have takes : Takes (do return ColumnDefault.expr (← wholeExpression)) row value :=
        takes.step fun _ _ => atWordBefore_no fun isLead => by simpa using not_and.mp isNull isLead
      obtain ⟨expr, isExpr, -⟩ := takes.map
      exact .inr (.inr ⟨expr, isExpr⟩)

theorem columnDefault_repeats (begins : BeginsClause rest) (row : List Kind) :
    Repeats rest (lead rest ≠ .keyword .COLLATE) (2 * row.length + 1) (Keyed ColumnDefault.erase)
      columnDefault columnDefault row := by
  have refuses : Refuses wholeExpression := fun s a t faces run =>
    Refuses.nested ((Phrases.within_shuns _).operand 0) s a t faces run
  refine .lookInside word?_looks (.past (fun _ _ => atWordBefore_no (by simp)) (refuses.bind _))
    fun opens => ?_
  obtain ⟨kind, left, rfl⟩ := List.exists_cons_of_ne_nil opens
  rw [lead_cons]
  cases isUser : kind.word?.bind userKind? with
  | some user =>
    refine .advance (fun _ => .inl ?_) (.done rfl)
    rintro rfl
    cases isUser
  | none =>
    refine .atWordBefore (by simp) (fun _ _ => ?_) (fun more isRow _ => ?_) fun _ => ?_
    · rw [begins.noDefault]
      rfl
    · obtain ⟨rfl, rfl⟩ := List.cons.inj isRow
      exact .advance (fun _ => .inl (by simp)) (.done rfl)
    · exact .bind wholeExpression_again begins.closes fun _ _ _ same _ =>
        .done (congrArg ColumnDefault.expr same)

/-- An expression is read as a default value if it does not begin like another one. -/
theorem columnDefault_expr {expr : Expr} (takes : Takes wholeExpression row expr)
    (noUser : (lead row).word?.bind userKind? = none)
    (longer : lead row = .keyword .NULL → continuesDefault (lead (row.drop 1)) = true)
    (closes : Closes 0 rest) (apart : isJoint (lead rest) = false)
    (room : depth + (2 * row.length + 1) ≤ capOf limit) :
    Reads limit True columnDefault depth (row ++ rest)
      (fun value => value.erase = (ColumnDefault.expr expr).erase) depth rest := by
  have opens : row ≠ [] := by
    rintro rfl
    exact takes.within.elim (.nested ((Phrases.within_shuns _).operand 0))
  refine word?_looks.reads.step ?_
  rw [lead_append_of_ne_nil opens, noUser]
  refine (atWordBefore_no fun isNull => ?_).step ?_
  · rw [lead_append_of_ne_nil opens] at isNull
    obtain ⟨left, rfl⟩ := eq_cons_of_lead isNull (by simp)
    have goesOn := longer isNull
    cases left with
    | nil => cases goesOn
    | cons kind left => simpa using goesOn
  · refine (Reads.forState (takes.expression ?_ closes apart room)).after
      fun e same => .pure trivial (congrArg ColumnDefault.expr same)
    rw [List.length_append]
    omega

/-- A default value is read again in front of another clause, which is no collation if the value
is an expression. -/
theorem Takes.columnDefault {value : ColumnDefault} (takes : Takes columnDefault row value)
    (begins : BeginsClause rest)
    (apart : (∃ expr, value = .expr expr) → lead rest ≠ .keyword .COLLATE)
    (room : depth + (2 * row.length + 1) ≤ capOf limit) :
    Reads limit True Parse.columnDefault depth (row ++ rest) (fun it => it.erase = value.erase) depth
      rest := by
  rcases takes.columnDefault_cases with ⟨word, user, rfl, isKind, rfl⟩ | ⟨rfl, rfl⟩ |
    ⟨expr, rfl⟩
  · refine word?_looks.reads.step ?_
    simp only [List.cons_append, List.nil_append, lead_cons, Kind.word?, Option.bind_some, isKind]
    exact advance_reads.after fun _ _ => .pure trivial rfl
  · refine word?_looks.reads.step ((atWordBefore_yes ?_).step ?_)
    · simp [begins.noDefault]
    · exact advance_reads.after fun _ _ => .pure trivial rfl
  · exact (columnDefault_repeats begins row).reads takes (apart ⟨expr, rfl⟩) begins.apart room

end Parse

/-! ## Clauses -/

namespace ColumnClause

/-- The tokens of a clause. -/
def row : ColumnClause → List Kind
  | .default text _ => .keyword .DEFAULT :: Lexer.kindsOf text
  | .collation text _ => .keyword .COLLATE :: Lexer.kindsOf text
  | .constraint text _ => Lexer.kindsOf text

/-- The rule of the clause takes its tokens. -/
def IsTaken : ColumnClause → Prop
  | .default text value => Parse.Takes Parse.columnDefault (Lexer.kindsOf text) value
  | .collation text name => Parse.Takes Parse.qualifiedName (Lexer.kindsOf text) name
  | .constraint text it => Parse.Takes Parse.columnConstraint (Lexer.kindsOf text) it

/-- The tokens of clauses. -/
def rows (clauses : List ColumnClause) : List Kind := clauses.flatMap row

theorem rows_cons (clause : ColumnClause) (clauses : List ColumnClause) :
    rows (clause :: clauses) = clause.row ++ rows clauses := rfl

open Parse

variable {limit : Nat} {rest : List Kind} {name : Name} {dataType : DataType}

theorem IsTaken.begins {clause : ColumnClause} (taken : clause.IsTaken) (rest : List Kind) :
    BeginsClause (clause.row ++ rest) := by
  cases clause with
  | default text value => exact .inl rfl
  | collation text name => exact .inr (.inl rfl)
  | constraint text it =>
    refine .inr (.inr (.inr (.inr ?_)))
    have begins : beginsConstraint (Lexer.kindsOf text) = true := Takes.beginsConstraint taken
    rw [row]
    generalize Lexer.kindsOf text = kinds at begins
    unfold beginsConstraint at begins
    split at begins
    · next kinds =>
      cases kinds with
      | nil => simp at begins
      | cons kind kinds => exact begins
    all_goals first | rfl | cases begins

/-- Clauses, and what ends a table. -/
theorem begins_rows {clauses : List ColumnClause} (taken : ∀ clause ∈ clauses, clause.IsTaken)
    (closes : lead rest = .symbol .rightParen) : BeginsClause (rows clauses ++ rest) := by
  cases clauses with
  | nil => exact .inr (.inr (.inr (.inl closes)))
  | cons clause clauses =>
    rw [rows_cons, List.append_assoc]
    exact (taken clause List.mem_cons_self).begins _

/-- A clause that is no collation does not begin like one. -/
theorem IsTaken.noCollate {clause : ColumnClause} (taken : clause.IsTaken)
    (other : clause.collation? = none) (rest : List Kind) :
    lead (clause.row ++ rest) ≠ .keyword .COLLATE := by
  cases clause with
  | default text value => simp [row]
  | collation text name => cases other
  | constraint text it =>
    have begins : beginsConstraint (Lexer.kindsOf text) = true := Takes.beginsConstraint taken
    rw [row]
    generalize Lexer.kindsOf text = kinds at begins
    unfold beginsConstraint at begins
    split at begins <;> first | cases begins; done | simp

theorem IsTaken.row_ne_nil {clause : ColumnClause} (taken : clause.IsTaken) : clause.row ≠ [] := by
  intro none
  have begins := taken.begins []
  simp [none, BeginsClause, beginsConstraint] at begins

/-- No collation stands directly behind an expression. -/
theorem noCollate_rows {clause : ColumnClause} {clauses : List ColumnClause}
    (taken : ∀ clause ∈ clauses, clause.IsTaken) (apart : (clause :: clauses).IsChain Apart)
    (closes : lead rest = .symbol .rightParen)
    (isExpr : ∃ expr, clause.default? = some (.expr expr)) :
    lead (rows clauses ++ rest) ≠ .keyword .COLLATE := by
  cases clauses with
  | nil => simp [rows, closes]
  | cons next clauses =>
    rw [rows_cons, List.append_assoc]
    refine (taken next List.mem_cons_self).noCollate ?_ _
    have told : clause.Apart next := (List.isChain_cons_cons.mp apart).1
    obtain ⟨expr, isDefault⟩ := isExpr
    cases clause with
    | default text value =>
      cases isDefault
      cases next with
      | collation => exact told.elim
      | _ => rfl
    | _ => cases isDefault

/-- One more clause of a column, the default value and the collation of which are still absent. -/
theorem clause_reads {clause : ColumnClause} (taken : clause.IsTaken) (column : ColumnDef)
    (noDefault : clause.default?.isSome = true → column.default = none)
    (noCollation : clause.collation?.isSome = true → column.collation = none)
    (begins : BeginsClause rest)
    (apart : (∃ expr, clause.default? = some (.expr expr)) → lead rest ≠ .keyword .COLLATE)
    (room : 2 * clause.row.length + 1 ≤ capOf limit) :
    Reads limit True (columnClause column) 0 (clause.row ++ rest)
      (fun next => ∃ it, next = some it ∧ it.erase = { column.erase with
        default := (clause.default?.map ColumnDefault.erase).or column.erase.default
        collation := clause.collation?.or column.collation
        constraints := column.erase.constraints ++
          clause.constraint?.toList.map ColumnConstraint.erase }) 0 rest := by
  refine word?_looks.reads.step ?_
  cases clause with
  | default text value =>
    -- the rule takes `DEFAULT` for the beginning of a clause only while there is no default value
    have absent := noDefault rfl
    simp only [row, List.cons_append, lead_cons, Kind.word?, absent, Option.isSome_none,
      Bool.false_eq_true, ↓reduceIte]
    refine advance_reads.after fun _ _ => ?_
    simp only [row, List.length_cons] at room
    refine (Takes.columnDefault taken begins ?_ (by omega)).after fun it same => .pure trivial ?_
    · rintro ⟨expr, rfl⟩
      exact apart ⟨expr, rfl⟩
    · exact ⟨_, rfl, by simp [ColumnDef.erase, default?, collation?, constraint?, same]⟩
  | collation text name =>
    have absent := noCollation rfl
    simp only [row, List.cons_append, lead_cons, Kind.word?, absent, Option.isSome_none,
      Bool.false_eq_true, ↓reduceIte]
    refine advance_reads.after fun _ _ => ?_
    simp only [row, List.length_cons] at room
    have reads : Reads limit True qualifiedName 0 (Lexer.kindsOf text ++ rest) (name = ·) 0 rest :=
      (qualifiedName_repeats id).reads taken (begins.ne rfl : lead rest ≠ .symbol .dot) begins.apart
        (by omega)
    refine reads.after fun it same => .pure trivial ?_
    exact ⟨_, rfl, by simp [ColumnDef.erase, default?, collation?, constraint?, ← same]⟩
  | constraint text it =>
    have first : beginsConstraint (Lexer.kindsOf text) = true := Takes.beginsConstraint taken
    have reads : Reads limit True columnConstraint 0 (Lexer.kindsOf text ++ rest)
        (Keyed ColumnConstraint.erase it) 0 rest :=
      (columnConstraint_repeats _).reads taken begins.endsReference begins.apart
        (by rw [row] at room; omega)
    have clause : Reads limit True
        (do return some { column with constraints := column.constraints ++ [← columnConstraint] })
        0 (Lexer.kindsOf text ++ rest)
        (fun next => ∃ found, next = some found ∧ found.erase = { column.erase with
          default := (none : Option ColumnDefault).or column.erase.default
          collation := (none : Option QualifiedName).or column.collation
          constraints := column.erase.constraints ++ [it.erase] }) 0 rest :=
      reads.after fun found same => .pure trivial
        ⟨_, rfl, by simp only [Keyed] at same; simp [ColumnDef.erase, same]⟩
    rw [row]
    -- the rule looks at the first token, and each that begins a constraint leads to the same
    -- branch
    generalize Lexer.kindsOf text = kinds at first clause
    unfold beginsConstraint at first
    split at first <;> first | exact clause | cases first

/-- Where there is one clause of a sort at most, none of them is before one of that sort. -/
theorem filterMap_eq_nil_of_one {α : Type} {part? : ColumnClause → Option α}
    {done clauses : List ColumnClause} {clause : ColumnClause}
    (one : ((done ++ clause :: clauses).filterMap part?).length ≤ 1)
    (isSome : (part? clause).isSome = true) : done.filterMap part? = [] := by
  obtain ⟨value, isValue⟩ := Option.isSome_iff_exists.mp isSome
  simp only [List.filterMap_append, List.filterMap_cons, isValue, List.length_append,
    List.length_cons] at one
  exact List.length_eq_zero_iff.mp (by omega)

/-- The clauses of a column are read one by one. Those in `done` have been read. -/
theorem clauses_loops (closes : lead rest = .symbol .rightParen) (done clauses : List ColumnClause)
    (taken : ∀ clause ∈ clauses, clause.IsTaken)
    (one_default : ((done ++ clauses).filterMap default?).length ≤ 1)
    (one_collation : ((done ++ clauses).filterMap collation?).length ≤ 1)
    (apart : clauses.IsChain Apart) {column : ColumnDef}
    (same : column.erase = (ColumnDef.ofClauses name dataType done).erase)
    (room : 2 * (rows clauses).length + 1 ≤ capOf limit) :
    Loops limit True columnClause column 0 (rows clauses ++ rest)
      (fun it => it.erase = (ColumnDef.ofClauses name dataType (done ++ clauses)).erase) 0 rest := by
  induction clauses generalizing done column with
  | nil =>
    rw [List.append_nil]
    refine .stop (word?_looks.reads.step ?_) trivial same
    rw [rows, List.flatMap_nil, List.nil_append, closes]
    exact .pure trivial rfl
  | cons clause clauses ih =>
    obtain ⟨isTaken, others⟩ := List.forall_mem_cons.mp taken
    rw [rows_cons, List.append_assoc]
    rw [rows_cons, List.length_append] at room
    have noDefault := filterMap_eq_nil_of_one one_default
    have noCollation := filterMap_eq_nil_of_one one_collation
    have default_same : column.default.map ColumnDefault.erase =
        (done.filterMap default?).head?.map ColumnDefault.erase :=
      congrArg (fun it : ColumnDef => it.default) same
    have collation_same : column.collation = (done.filterMap collation?).head? :=
      congrArg (fun it : ColumnDef => it.collation) same
    have few : 2 * clause.row.length + 1 ≤ capOf limit := by omega
    have round := clause_reads isTaken column
      (fun isSome => by simpa [noDefault isSome] using default_same)
      (fun isSome => by simpa [noCollation isSome] using collation_same)
      (begins_rows others closes) (noCollate_rows others apart closes) few
    refine .next round id ?_ fun _ it isSame => ?_
    · have token := List.length_pos_iff.mpr isTaken.row_ne_nil
      simp only [List.length_append]
      omega
    · -- the clause that was read joins those in `done`, and the rest is the induction hypothesis
      suffices read : it.erase = (ColumnDef.ofClauses name dataType (done ++ [clause])).erase by
        have later := ih (done ++ [clause]) others (by simpa using one_default)
          (by simpa using one_collation) apart.tail read (by omega)
        rwa [List.append_assoc, List.singleton_append] at later
      rw [isSame, same, collation_same]
      cases clause with
      | default text value =>
        have none := noDefault rfl
        simp [ColumnDef.erase, ColumnDef.ofClauses, default?, collation?, constraint?, none]
      | collation text name =>
        have none := noCollation rfl
        simp [ColumnDef.erase, ColumnDef.ofClauses, default?, collation?, constraint?, none]
      | constraint text it =>
        simp [ColumnDef.erase, ColumnDef.ofClauses, default?, collation?, constraint?]

/-- A column with its clauses. -/
theorem columnDef_reads {kind : Kind} (isName : kind.name? = some name) {type : List Kind}
    (types : Takes Parse.dataType type dataType) {clauses : List ColumnClause}
    (ordered : Ordered clauses) (taken : ∀ clause ∈ clauses, clause.IsTaken)
    (closes : lead rest = .symbol .rightParen)
    (room : 2 * (type ++ rows clauses).length + 1 ≤ capOf limit) :
    Reads limit True columnDef 0 (kind :: (type ++ (rows clauses ++ rest)))
      (fun it => it.erase = (ColumnDef.ofClauses name dataType clauses).erase) 0 rest := by
  have begins := begins_rows taken closes
  rw [List.length_append] at room
  refine .still here_still fun start => ?_
  refine (identifier_spelled isName).step ?_
  have typed : Reads limit True Parse.dataType 0 (type ++ (rows clauses ++ rest)) (dataType = ·) 0
      (rows clauses ++ rest) :=
    (dataType_repeats type).reads types begins.endsType begins.apart (by omega)
  refine typed.after fun it same => ?_
  subst same
  have few : 2 * (rows clauses).length + 1 ≤ capOf limit := by omega
  have same : ColumnDef.erase { name, dataType } = (ColumnDef.ofClauses name dataType []).erase := rfl
  have loops := clauses_loops closes [] clauses taken ordered.one_default ordered.one_collation
    ordered.apart same few
  refine loops.loop.after fun column same => .still (spanFrom_still _) fun _ => .pure trivial ?_
  exact same

/-! ## Texts -/

/-- The text of clauses, each after a space. -/
def texts (clauses : List ColumnClause) : String :=
  String.join (clauses.map fun clause => " " ++ clause.text)

theorem texts_cons (clause : ColumnClause) (clauses : List ColumnClause) :
    (texts (clause :: clauses)).toList =
      ' ' :: (clause.text.toList ++ (texts clauses).toList) := by
  simp [texts, String.join_cons]

/-- A clause that is read alone has its tokens in front of another one. -/
theorem IsRead.splits {clause : ColumnClause} (isRead : clause.IsRead) {more : List Char}
    {others : List Kind} (closes : ∀ c ∈ more.head?, Scan.isClose c = true)
    (splits : Scan.Splits more others) :
    Scan.Splits (clause.text.toList ++ more) (clause.row ++ others) := by
  cases clause with
  | default text value =>
    have word : Scan.Spaced "DEFAULT".toList [.keyword .DEFAULT] :=
      Scan.spaced_of_spaced? 8 (by decide +kernel)
    simpa [ColumnClause.text, row] using
      word.before ((Parse.Alone.spaced_kindsOf isRead).splits_append closes splits)
  | collation text name =>
    have word : Scan.Spaced "COLLATE".toList [.keyword .COLLATE] :=
      Scan.spaced_of_spaced? 8 (by decide +kernel)
    simpa [ColumnClause.text, row] using
      word.before ((Parse.Alone.spaced_kindsOf isRead).splits_append closes splits)
  | constraint text it => exact (Parse.Alone.spaced_kindsOf isRead).splits_append closes splits

theorem splits_texts {clauses : List ColumnClause} (read : ∀ clause ∈ clauses, clause.IsRead)
    {more : List Char} {others : List Kind} (closes : ∀ c ∈ more.head?, Scan.isClose c = true)
    (splits : Scan.Splits more others) :
    Scan.Splits ((texts clauses).toList ++ more) (rows clauses ++ others) ∧
      ∀ c ∈ ((texts clauses).toList ++ more).head?, Scan.isClose c = true := by
  induction clauses with
  | nil => exact ⟨splits, closes⟩
  | cons clause clauses ih =>
    obtain ⟨first, later⟩ := List.forall_mem_cons.mp read
    obtain ⟨behind, ends⟩ := ih later
    rw [texts_cons, rows_cons, List.cons_append, List.append_assoc, List.append_assoc]
    exact ⟨(first.splits ends behind).blank rfl, by simp; decide⟩

theorem IsRead.isTaken {clause : ColumnClause} (isRead : clause.IsRead) : clause.IsTaken := by
  cases clause with
  | default text value =>
    exact isRead.takes [.symbol .rightParen] (columnDefault_repeats (.inr (.inr (.inr (.inl rfl)))) _)
  | collation text name => exact isRead.takes [] (qualifiedName_repeats False.elim)
  | constraint text it => exact isRead.takes [] (columnConstraint_repeats _)

end ColumnClause

namespace Parse

variable {limit : Nat} {rest : List Kind} {accepts : Prop} {name : Name} {kind : Kind}

/-- The table `t` with elements. -/
theorem bareStatement_elements {kinds : List Kind} {good : List TableElement → Prop}
    (reads : Reads limit accepts (parenthesized (commaSeparated tableElement)) 0
      (.symbol .leftParen :: kinds) good 0 []) :
    Reads limit accepts bareStatement 0
      (.keyword .CREATE :: .keyword .TABLE :: .identifier "t" :: .symbol .leftParen :: kinds)
      (fun it => ∃ elements span,
        it = .create (.ofElements (.ofParts ["t"]) none none elements span) ∧ good elements) 0 [] := by
  have created : Reads limit accepts create 0
      (.keyword .CREATE :: .keyword .TABLE :: .identifier "t" :: .symbol .leftParen :: kinds)
      (fun it => ∃ elements span,
        it = .ofElements (.ofParts ["t"]) none none elements span ∧ good elements) 0 [] := by
    refine .still here_still fun start => (expectWord_reads _).step ?_
    refine (temporary_reads none).step ((expectWord_reads _).step ?_)
    refine (qualifiedName_reads (.ofParts ["t"]) (by simp)).step ?_
    refine reads.bind id fun holds elements isGood => (onCommit_reads none (by simp)).step ?_
    exact .still (spanFrom_still _) fun span => .pure holds ⟨elements, span, rfl, isGood⟩
  refine kind_reads.step (created.bind id fun holds it isGood => .pure holds ?_)
  obtain ⟨elements, span, rfl, isGood⟩ := isGood
  exact ⟨elements, span, rfl, isGood⟩

/-- A column is an element of a table, whatever its name is. -/
theorem tableElement_column {kinds : List Kind} {good : ColumnDef → Prop}
    (isName : kind.name? = some name)
    (reads : Reads limit accepts columnDef 0 (kind :: kinds) good 0 rest) :
    Reads limit accepts tableElement 0 (kind :: kinds)
      (fun element => ∃ column, element = .column column ∧ good column) 0 rest := by
  refine word?_looks.reads.step ?_
  have column : Reads limit accepts (do return TableElement.column (← columnDef)) 0
      (kind :: kinds) (fun element => ∃ column, element = .column column ∧ good column) 0 rest :=
    reads.bind id fun holds column isGood => .pure holds ⟨column, rfl, isGood⟩
  rw [lead_cons]
  split
  case h_5 => exact column
  all_goals
    next isWord =>
      rw [Kind.eq_of_word? isWord] at isName
      cases isName

end Parse

namespace Statement

/-- The text of a table of one column with clauses. -/
def columnText (name type : String) (clauses : List ColumnClause) : String :=
  "CREATE TABLE t (" ++ name ++ " " ++ type ++ ColumnClause.texts clauses ++ ")"

/-- A name written as one token. -/
def IsName (text : String) (name : Name) : Prop :=
  ∃ kind, Scan.Spaced text.toList [kind] ∧ kind.name? = some name

/-- The tokens of the text of a table of one column. -/
theorem splits_columnText {nameText typeText : String} {dataType : DataType} {kind : Kind}
    {clauses : List ColumnClause} (isKind : Scan.Spaced nameText.toList [kind])
    (isType : Parse.Alone Parse.dataType typeText dataType)
    (read : ∀ clause ∈ clauses, clause.IsRead) :
    Scan.Splits (columnText nameText typeText clauses).toList
      ([.keyword .CREATE, .keyword .TABLE, .identifier "t"] ++ .symbol .leftParen ::
        ([kind] ++ (Lexer.kindsOf typeText ++
          (ColumnClause.rows clauses ++ [.symbol .rightParen])))) := by
  have opening : Scan.Spaced "CREATE TABLE t".toList
      [.keyword .CREATE, .keyword .TABLE, .identifier "t"] :=
    Scan.spaced_of_spaced? 15 (by decide +kernel)
  have closing : Scan.Splits [')'] [.symbol .rightParen] := .token rfl rfl (.done rfl)
  obtain ⟨behind, closes⟩ := ColumnClause.splits_texts read (by simp; decide) closing
  have text : (columnText nameText typeText clauses).toList = "CREATE TABLE t".toList ++
      ' ' :: '(' :: (nameText.toList ++ ' ' :: (typeText.toList ++
        ((ColumnClause.texts clauses).toList ++ [')']))) := by
    unfold columnText
    simp only [String.toList_append, String.reduceToList, List.append_assoc, List.cons_append,
      List.nil_append]
  rw [text]
  exact opening.before
    (isKind.before (isType.spaced_kindsOf.splits_append closes behind)).opened

/-- Tables of one column are as deep as each other if the columns are alike. -/
theorem depth_of_column {table : QualifiedName} {column other : ColumnDef} {span span' : Span}
    (same : column.erase = other.erase) :
    (Outline.ofStatement (.create (.ofElements table none none [.column column] span))).depth =
      (Outline.ofStatement (.create (.ofElements table none none [.column other] span'))).depth := by
  rw [← Outline.ofStatement_erase, ← Outline.ofStatement_erase
    (.create (.ofElements table none none [.column other] span'))]
  simp [Statement.erase, Create.erase, Create.ofElements, same]

/-- A column with its clauses in any order. -/
theorem parse_column {nameText typeText : String} {name : Name} {dataType : DataType}
    {clauses : List ColumnClause} (isName : IsName nameText name)
    (isType : Parse.Alone Parse.dataType typeText dataType)
    (read : ∀ clause ∈ clauses, clause.IsRead) (ordered : ColumnClause.Ordered clauses)
    (holds : (columnText nameText typeText clauses).utf8ByteSize < 2 ^ 63) :
    ∃ least, ∀ limit ≥ least, ∃ definition column,
      parse limit (columnText nameText typeText clauses) = .ok (.create definition) ∧
        definition.columns = [column] ∧
        column.alike (.ofClauses name dataType clauses) = true := by
  obtain ⟨kind, isKind, isName⟩ := isName
  have splits := splits_columnText isKind isType read
  generalize columnText nameText typeText clauses = text at splits holds ⊢
  simp only [List.cons_append, List.nil_append] at splits
  let target : Statement := .create (.ofElements (.ofParts ["t"]) none none
    [.column (.ofClauses name dataType clauses)] default)
  refine ⟨max (Outline.ofStatement target).depth (Lexer.kindsOf text).length + 1,
    fun limit enough => ?_⟩
  rw [Lexer.kindsOf_eq splits] at enough
  have room := room_of_length splits holds limit (by omega)
  simp only [List.length_cons, List.length_append, List.length_nil] at room
  have few : 2 * (Lexer.kindsOf typeText ++ ColumnClause.rows clauses).length + 1 ≤ capOf limit := by
    rw [List.length_append]
    omega
  have closed : lead [.symbol .rightParen] = .symbol .rightParen := rfl
  have column := ColumnClause.columnDef_reads isName (isType.takes [] (Parse.dataType_repeats _))
    ordered (fun clause member => (read clause member).isTaken) closed few
  have elements := ((Parse.tableElement_column isName column).single (by simp)).parenthesized
  have bare := Parse.bareStatement_elements elements
  -- a tree within the limit is all that is left to ask for, and depth does not see places
  have shallow (it : Statement) : (∃ elements span,
      it = .create (.ofElements (.ofParts ["t"]) none none elements span) ∧
        ∃ element, elements = [element] ∧ ∃ column, element = .column column ∧
          column.erase = (ColumnDef.ofClauses name dataType clauses).erase) →
      (Outline.ofStatement it).depth ≤ limit := by
    rintro ⟨elements, span, rfl, element, rfl, column, rfl, same⟩
    have depth : (Outline.ofStatement (.create (.ofElements (.ofParts ["t"]) none none
        [.column column] span))).depth = (Outline.ofStatement target).depth := depth_of_column same
    omega
  obtain ⟨it, parsed, elements, span, rfl, element, rfl, column, rfl, same⟩ :=
    parse_of_parts splits bare shallow
  exact ⟨_, column, parsed, rfl, (ColumnDef.alike_iff _ _).mpr same⟩

theorem texts_size (clauses : List ColumnClause) : (ColumnClause.texts clauses).utf8ByteSize =
    (clauses.map fun clause => (" " ++ clause.text).utf8ByteSize).sum := by
  induction clauses with
  | nil => rfl
  | cons clause clauses ih =>
    rw [List.map_cons, List.sum_cons, ← ih, ColumnClause.texts, List.map_cons, String.join_cons,
      String.utf8ByteSize_append, ColumnClause.texts]

theorem columnText_size (name type : String) {clauses clauses' : List ColumnClause}
    (perm : clauses'.Perm clauses) :
    (columnText name type clauses').utf8ByteSize = (columnText name type clauses).utf8ByteSize := by
  unfold columnText
  simp only [String.utf8ByteSize_append, texts_size, (perm.map _).sum_eq]

/-- The clauses of a column may change their places, as long as the constraints keep their order
and no collation comes to stand behind a default value that is an expression. -/
theorem parse_clauses {nameText typeText : String} {name : Name} {dataType : DataType}
    {clauses clauses' : List ColumnClause} (isName : IsName nameText name)
    (isType : Parse.Alone Parse.dataType typeText dataType)
    (read : ∀ clause ∈ clauses, clause.IsRead) (ordered : ColumnClause.Ordered clauses)
    (perm : clauses'.Perm clauses)
    (keeps : clauses'.filterMap ColumnClause.constraint? = clauses.filterMap ColumnClause.constraint?)
    (apart : clauses'.IsChain ColumnClause.Apart)
    (holds : (columnText nameText typeText clauses).utf8ByteSize < 2 ^ 63) :
    ∃ least, ∀ limit ≥ least, ∃ definition column definition' column',
      parse limit (columnText nameText typeText clauses) = .ok (.create definition) ∧
        definition.columns = [column] ∧
        parse limit (columnText nameText typeText clauses') = .ok (.create definition') ∧
        definition'.columns = [column'] ∧ column'.alike column = true ∧
        column.alike (.ofClauses name dataType clauses) = true := by
  have ordered' : ColumnClause.Ordered clauses' :=
    ⟨(perm.filterMap _).length_eq ▸ ordered.one_default,
      (perm.filterMap _).length_eq ▸ ordered.one_collation, apart⟩
  have same := ColumnDef.ofClauses_perm name dataType ordered perm keeps
  obtain ⟨least, reads⟩ := parse_column isName isType read ordered holds
  obtain ⟨least', reads'⟩ := parse_column isName isType (fun clause member =>
    read clause (perm.mem_iff.mp member)) ordered' (columnText_size _ _ perm ▸ holds)
  refine ⟨max least least', fun limit enough => ?_⟩
  obtain ⟨definition, column, parsed, columns, alike⟩ := reads limit (by omega)
  obtain ⟨definition', column', parsed', columns', alike'⟩ := reads' limit (by omega)
  refine ⟨definition, column, definition', column', parsed, columns, parsed', columns', ?_, alike⟩
  rw [ColumnDef.alike_iff] at alike alike' ⊢
  rw [alike, alike', same]

theorem isName_c : IsName "c" "c" :=
  ⟨.identifier "c", Scan.spaced_of_spaced? 2 (by decide +kernel), rfl⟩

/-- Three clauses in two orders. -/
theorem parse_clauses_three :
    ∃ value notNull,
      (ColumnClause.default "'x'" value).IsRead ∧ (ColumnClause.constraint "NOT NULL" notNull).IsRead ∧
      (ColumnClause.collation "\"C\"" (.ofParts ["C"])).IsRead ∧
      ∃ least, ∀ limit ≥ least, ∃ definition column definition' column',
        parse limit (columnText "c" "VARCHAR(5)" [.default "'x'" value, .constraint "NOT NULL" notNull,
          .collation "\"C\"" (.ofParts ["C"])]) = .ok (.create definition) ∧
        definition.columns = [column] ∧
        parse limit (columnText "c" "VARCHAR(5)" [.collation "\"C\"" (.ofParts ["C"]),
          .default "'x'" value, .constraint "NOT NULL" notNull]) = .ok (.create definition') ∧
        definition'.columns = [column'] ∧ column'.alike column = true ∧
        column.alike (.ofClauses "c" (.varChar (some ⟨5, none⟩)) [.default "'x'" value,
          .constraint "NOT NULL" notNull, .collation "\"C\"" (.ofParts ["C"])]) = true := by
  obtain ⟨type, isType, isVarChar⟩ := Parse.exists_alone Parse.dataType 2 "VARCHAR(5)"
    (DataType.varChar (some ⟨5, none⟩)).same (by decide +kernel)
  obtain ⟨value, isDefault, -⟩ := Parse.exists_alone Parse.columnDefault 2 "'x'" (fun _ => true)
    (by decide +kernel)
  obtain ⟨notNull, isConstraint, -⟩ := Parse.exists_alone Parse.columnConstraint 2 "NOT NULL"
    (fun _ => true) (by decide +kernel)
  obtain ⟨collation, isCollation, isC⟩ := Parse.exists_alone Parse.qualifiedName 2 "\"C\""
    (fun name => decide (name = .ofParts ["C"])) (by decide +kernel)
  obtain rfl := of_decide_eq_true isC
  obtain rfl := (DataType.same_iff _ _).mp isVarChar
  have read : ∀ clause ∈ [ColumnClause.default "'x'" value, .constraint "NOT NULL" notNull,
      .collation "\"C\"" (.ofParts ["C"])], clause.IsRead := by
    simpa using ⟨isDefault, isConstraint, isCollation⟩
  refine ⟨value, notNull, isDefault, isConstraint, isCollation, parse_clauses isName_c isType read
    ⟨Nat.le_refl 1, Nat.le_refl 1, ?_⟩ ?_ rfl ?_ ?_⟩
  · cases value <;> simp [ColumnClause.Apart]
  · exact (List.perm_append_singleton _ [_, _]).symm
  · cases value <;> simp [ColumnClause.Apart]
  · unfold columnText ColumnClause.texts
    simp only [List.map_cons, List.map_nil, ColumnClause.text]
    decide +kernel

/-- The column of a table that has one. -/
def column? : Except Failure Statement → Option ColumnDef
  | .ok (.create definition) =>
    match definition.columns with
    | [column] => some column
    | _ => none
  | _ => none

theorem exists_column {result : Except Failure Statement} (test : ColumnDef → Bool)
    (passes : (column? result).any test = true) :
    ∃ definition column, result = .ok (.create definition) ∧ definition.columns = [column] ∧
      test column = true := by
  unfold column? at passes
  split at passes
  · next definition =>
    split at passes
    · next column isColumn => exact ⟨definition, column, rfl, isColumn, passes⟩
    · cases passes
  · cases passes

/-- A collation directly behind an expression becomes a part of the default value, and none is
left to the column. In the other order the column has it. -/
theorem parse_collate_behind_default :
    ∃ definition column definition' column',
      parse 8 "CREATE TABLE t (c VARCHAR(5) DEFAULT 'x' COLLATE \"C\")" = .ok (.create definition) ∧
      definition.columns = [column] ∧
      parse 8 "CREATE TABLE t (c VARCHAR(5) COLLATE \"C\" DEFAULT 'x')" = .ok (.create definition') ∧
      definition'.columns = [column'] ∧
      column.collation = none ∧ column'.collation = some (.ofParts ["C"]) ∧
      column'.alike column = false := by
  obtain ⟨definition, column, parsed, columns, isNone⟩ := exists_column
    (fun column => decide (column.collation = none)) (by decide +kernel :
      (column? (parse 8 "CREATE TABLE t (c VARCHAR(5) DEFAULT 'x' COLLATE \"C\")")).any _ = true)
  obtain ⟨definition', column', parsed', columns', isC⟩ := exists_column
    (fun column => decide (column.collation = some (.ofParts ["C"]))) (by decide +kernel :
      (column? (parse 8 "CREATE TABLE t (c VARCHAR(5) COLLATE \"C\" DEFAULT 'x')")).any _ = true)
  rw [decide_eq_true_eq] at isNone isC
  refine ⟨definition, column, definition', column', parsed, columns, parsed', columns', isNone, isC, ?_⟩
  simp [ColumnDef.alike, isNone, isC]

end Statement

end CanonicalSql
