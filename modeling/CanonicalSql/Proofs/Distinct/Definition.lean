import CanonicalSql.Proofs.Distinct.Tree
import CanonicalSql.Proofs.Reading.Statement

/-!
# Table definitions told apart

The types, constraints and references of a definition are told from each other because the grammar
reads them back. Default values are not all read back, and are told by their first tokens: the null
default is the word `NULL` alone, and the expression `NULL` stands in parentheses, where no other
value has it alone. A definition without columns is told by the comma that its list begins with.
-/
namespace CanonicalSql

/-- A comma or a closing parenthesis follows. -/
def EndsElement (rest : List Kind) : Prop :=
  lead rest = .symbol .comma ∨ lead rest = .symbol .rightParen

theorem EndsElement.ne {rest : List Kind} (closes : EndsElement rest) {word : Keyword} :
    lead rest ≠ .keyword word := by
  rcases closes with isComma | isParen
  · simp [isComma]
  · simp [isParen]

/-! ## Default values -/

/-- What the first tokens of a default value tell of it. -/
inductive ColumnDefault.Form
  | user
  | null
  | enclosedNull
  | expr

namespace ColumnDefault

/-- The tokens of a default value. -/
abbrev tokens (value : ColumnDefault) : List Kind := Piece.kinds (Canonical.ofColumnDefault value)

/-- The form of a default value. -/
def form : ColumnDefault → Form
  | .user _ => .user
  | .null => .null
  | .expr (.null _) => .enclosedNull
  | .expr _ => .expr

/-- The form of a default value with which the row begins. -/
def formOf : List Kind → Form
  | .keyword .CURRENT_USER :: _ | .keyword .SESSION_USER :: _ | .keyword .SYSTEM_USER :: _ => .user
  | .keyword .NULL :: _ => .null
  | .symbol .leftParen :: .keyword .NULL :: .symbol .rightParen :: _ => .enclosedNull
  | _ => .expr

end ColumnDefault

/-- No value is written as the word `NULL` in parentheses. -/
theorem Expr.ne_enclosedNull {expr : Expr} {rest more : List Kind} (formed : expr.Formed .value) :
    expr.tokens ++ rest ≠ .symbol .leftParen :: .keyword .NULL :: .symbol .rightParen :: more := by
  intro eq
  rcases encloses_or formed with ⟨row, encloses⟩ | ⟨query, span, rfl⟩ | noGroup
  · rw [encloses.tokens_eq, List.cons_append, List.append_assoc] at eq
    have eq := (List.cons.inj eq).2
    cases encloses with
    | unary op operand span => cases op <;> cases eq
    | existence | uniqueness => cases eq
    | @after _ first others follows =>
      have firstFormed := follows.first_formed formed
      have isNull : first.form = .literal (.keyword .NULL) := by
        rw [List.append_assoc] at eq
        rw [← form_of_lead firstFormed _, eq]
        rfl
      rw [(eq_of_literal isNull).1] at eq
      have isParen := congrArg lead (List.cons.inj eq).2
      cases follows with
      | binary _ op right span => cases op <;> cases isParen
      | _ => cases isParen
  · have inside : query.tokens ++ .symbol .rightParen :: rest =
        .keyword .NULL :: .symbol .rightParen :: more := by
      simpa [tokens, Canonical.ofExpr] using eq
    exact Query.lead_ne formed.2.1 _ rfl (by simp) (congrArg lead inside)
  · exact noGroup rest (congrArg lead eq)

namespace ColumnDefault

variable {value value' : ColumnDefault}

theorem tokens_expr {expr : Expr} (other : ∀ span, expr ≠ .null span) :
    tokens (.expr expr) = expr.tokens ∧ form (.expr expr) = .expr := by
  cases expr with
  | null span => exact absurd rfl (other span)
  | _ => exact ⟨rfl, rfl⟩

theorem null_or (expr : Expr) : (∃ span, expr = .null span) ∨ ∀ span, expr ≠ .null span := by
  cases expr with
  | null span => exact .inl ⟨span, rfl⟩
  | _ => exact .inr nofun

theorem formOf_tokens (formed : value.Formed) (rest : List Kind) :
    formOf (value.tokens ++ rest) = value.form := by
  cases value with
  | user user => cases user <;> rfl
  | null => rfl
  | expr expr =>
    rcases null_or expr with ⟨span, rfl⟩ | other
    · rfl
    · obtain ⟨text, isForm⟩ := tokens_expr other
      rw [text, isForm]
      have noWord {word : Keyword} (closed : (Kind.keyword word).opensValue = false)
          (noRow : Kind.keyword word ≠ .keyword .ROW) (more : List Kind) :
          expr.tokens ++ rest ≠ .keyword word :: more :=
        fun eq => Expr.lead_ne formed rest closed noRow (congrArg lead eq)
      unfold formOf
      split
      · next more eq => exact absurd eq (noWord rfl (by simp) more)
      · next more eq => exact absurd eq (noWord rfl (by simp) more)
      · next more eq => exact absurd eq (noWord rfl (by simp) more)
      · next more eq => exact absurd (congrArg lead eq) (Expr.lead_ne_null formed other rest)
      · next more eq => exact absurd eq (Expr.ne_enclosedNull formed)
      · rfl

theorem agree (formed : value.Formed) (formed' : value'.Formed) :
    Agree EndsClause value.tokens value'.tokens (value.erase = value'.erase) := by
  intro rest rest' ends ends' eq
  -- the first tokens show which of the forms the value has
  have same : value.form = value'.form := by
    rw [← formOf_tokens formed rest, eq, formOf_tokens formed' rest']
  cases value with
  | user user =>
    cases value' with
    | user user' =>
      have isUser := congrArg lead eq
      cases user <;> cases user' <;> first | exact ⟨rfl, (List.cons.inj eq).2⟩ | cases isUser
    | null => cases same
    | expr expr => cases expr <;> cases same
  | null =>
    cases value' with
    | user user' => cases same
    | null => exact ⟨rfl, (List.cons.inj eq).2⟩
    | expr expr => cases expr <;> cases same
  | expr expr =>
    cases value' with
    | user | null => cases expr <;> cases same
    | expr expr' =>
      rcases null_or expr with ⟨span, rfl⟩ | other
      · rcases null_or expr' with ⟨span', rfl⟩ | other'
        · exact ⟨rfl, (List.cons.inj (List.cons.inj (List.cons.inj eq).2).2).2⟩
        · rw [(tokens_expr other').2] at same
          cases same
      · rcases null_or expr' with ⟨span', rfl⟩ | other'
        · rw [(tokens_expr other).2] at same
          cases same
        · rw [(tokens_expr other).1, (tokens_expr other').1] at eq
          obtain ⟨sameExpr, left⟩ := Expr.distinct_of_formed formed expr' formed' ends.ends.toStops
            ends'.ends.toStops eq
          exact ⟨by rw [erase, erase, sameExpr], left⟩

end ColumnDefault

/-! ## Columns -/

/-- Whether a constraint at a column begins with the token. -/
def Kind.opensConstraint : Kind → Bool
  | .keyword .CONSTRAINT | .keyword .NOT | .keyword .UNIQUE | .keyword .PRIMARY
  | .keyword .REFERENCES => true
  | _ => false

theorem Kind.ne_of_opensConstraint {kind other : Kind} (opens : kind.opensConstraint = true)
    (closed : other.opensConstraint = false) : kind ≠ other := by
  rintro rfl
  rw [opens] at closed
  cases closed

namespace ColumnConstraint

theorem opens (constraint : ColumnConstraint) (rest : List Kind) :
    (lead (Piece.kinds (Canonical.ofColumnConstraint constraint) ++ rest)).opensConstraint = true := by
  obtain ⟨name, kind, span⟩ := constraint
  cases name with
  | some name => rfl
  | none => cases kind <;> rfl

/-- After the clauses before them, constraints begin with words of their own, or none follow. -/
theorem lead_rows_ne (constraints : List ColumnConstraint) {rest : List Kind} (closes : EndsElement rest)
    {word : Keyword} (other : (Kind.keyword word).opensConstraint = false) :
    lead (rows constraints ++ rest) ≠ .keyword word := by
  cases constraints with
  | nil => exact closes.ne
  | cons constraint constraints =>
    rw [rows_cons]
    exact Kind.ne_of_opensConstraint (opens constraint _) other

theorem agree (constraint constraint' : ColumnConstraint) :
    Agree (fun rest => lead rest ≠ .keyword .ON)
      (Piece.kinds (Canonical.ofColumnConstraint constraint))
      (Piece.kinds (Canonical.ofColumnConstraint constraint'))
      (constraint.erase = constraint'.erase) :=
  Parse.agree_of_views 0 0 (fun _ => Parse.columnConstraint_reads constraint)
    fun _ => Parse.columnConstraint_reads constraint'

/-- The constraints of a column stand one behind another. The induction is on both lists at once. -/
theorem rows_agree (constraints constraints' : List ColumnConstraint) :
    Agree EndsElement (rows constraints) (rows constraints')
      (constraints.map erase = constraints'.map erase) := by
  have noConstraint (constraint : ColumnConstraint) (constraints : List ColumnConstraint)
      (rest : List Kind) : ¬ EndsElement (rows (constraint :: constraints) ++ rest) := by
    rw [rows_cons]
    have isOpen := opens constraint (rows constraints ++ rest)
    rintro (isComma | isParen)
    · rw [isComma] at isOpen
      cases isOpen
    · rw [isParen] at isOpen
      cases isOpen
  induction constraints generalizing constraints' with
  | nil =>
    cases constraints' with
    | nil => exact Agree.nil.mono (fun _ _ => trivial) fun _ => rfl
    | cons constraint' constraints' =>
      rintro _ rest' closes _ rfl
      exact absurd closes (noConstraint constraint' constraints' rest')
  | cons constraint constraints ih =>
    cases constraints' with
    | nil =>
      rintro rest _ _ closes rfl
      exact absurd closes (noConstraint constraint constraints rest)
    | cons constraint' constraints' =>
      refine ((agree constraint constraint').append (ih constraints')
        (fun _ closes => lead_rows_ne constraints closes rfl)
        fun _ closes => lead_rows_ne constraints' closes rfl).mono (fun _ => id) ?_
      rintro ⟨same, others⟩
      rw [List.map_cons, List.map_cons, same, others]

end ColumnConstraint

theorem DataType.agree {limit : Nat} {type type' : DataType} (formed : type.Formed)
    (formed' : type'.Formed) (fits : type.levels ≤ capOf limit) (fits' : type'.levels ≤ capOf limit) :
    Agree (fun rest => (lead rest).endsClause = true) type.tokens type'.tokens (type = type') := by
  have reads {type : DataType} (formed : type.Formed) (fits : type.levels ≤ capOf limit)
      (rest : List Kind) (calm : (lead rest).endsClause = true) :
      Parse.Reads limit True Parse.dataType 0 (type.tokens ++ rest) (· = type) 0 rest :=
    Parse.dataType_reads formed (by omega) (Kind.noType_of_endsClause calm)
      (Kind.noSuffix_of_endsClause calm)
  exact Parse.agree_of_reads limit 0 (reads formed fits) (reads formed' fits')

theorem ColumnDef.agree {limit : Nat} {column column' : ColumnDef} (formed : column.Formed)
    (formed' : column'.Formed) (fits : column.dataType.levels ≤ capOf limit)
    (fits' : column'.dataType.levels ≤ capOf limit) :
    Agree EndsElement (Piece.kinds (Canonical.ofColumnDef column))
      (Piece.kinds (Canonical.ofColumnDef column')) (column.erase = column'.erase) := by
  have constraints := ColumnConstraint.rows_agree column.constraints column'.constraints
  have defaultRow (default : Option ColumnDefault) : ColumnDefault.row default =
      default.elim [] fun value => .keyword .DEFAULT :: value.tokens := by
    cases default <;> simp [ColumnDefault.row]
  have defaults : Agree (fun rest => EndsClause rest ∧ lead rest ≠ .keyword .DEFAULT)
      (ColumnDefault.row column.default) (ColumnDefault.row column'.default)
      (column.default.map ColumnDefault.erase = column'.default.map ColumnDefault.erase) := by
    rw [defaultRow, defaultRow]
    exact option_agree fun value member value' member' =>
      ColumnDefault.agree (formed.default value member) (formed'.default value' member')
  have clauses := defaults.append constraints
    (fun _ closes => ⟨.constraints _ (.of_closes closes),
      ColumnConstraint.lead_rows_ne _ closes rfl⟩)
    fun _ closes => ⟨.constraints _ (.of_closes closes),
      ColumnConstraint.lead_rows_ne _ closes rfl⟩
  have collationText (collation : Option QualifiedName) : QualifiedName.collationRow collation =
      collation.elim [] fun name => .keyword .COLLATE :: Piece.kinds (Piece.qualified name) := by
    cases collation <;> simp [QualifiedName.collationRow]
  have collations : Agree (fun rest => EndsName rest ∧ lead rest ≠ .keyword .COLLATE)
      (QualifiedName.collationRow column.collation) (QualifiedName.collationRow column'.collation)
      (column.collation.map id = column'.collation.map id) := by
    rw [collationText, collationText]
    exact option_agree fun name _ name' _ => Piece.qualified_agree name name'
  have follow (column : ColumnDef) (rest : List Kind) (closes : EndsElement rest) :
      (fun rest => EndsName rest ∧ lead rest ≠ .keyword .COLLATE)
        ((ColumnDefault.row column.default ++ ColumnConstraint.rows column.constraints) ++ rest) := by
    have calm := (Parse.calm_clauses column closes).1
    rw [List.append_assoc]
    refine ⟨.of_lead (Kind.ne_of_extendsType (Kind.noType_of_endsClause calm) rfl), ?_⟩
    cases column.default with
    | none => exact ColumnConstraint.lead_rows_ne _ closes rfl
    | some value => simp [ColumnDefault.row]
  have further := collations.append clauses (follow column) (follow column')
  have types := DataType.agree formed.dataType formed'.dataType fits fits'
  have calm (column : ColumnDef) (rest : List Kind) (closes : EndsElement rest) :
      (lead ((QualifiedName.collationRow column.collation ++ (ColumnDefault.row column.default ++
        ColumnConstraint.rows column.constraints)) ++ rest)).endsClause = true := by
    simpa using (Parse.calm_clauses column closes).2
  have text (column : ColumnDef) : Piece.kinds (Canonical.ofColumnDef column) =
      .identifier column.name :: (column.dataType.tokens ++
        (QualifiedName.collationRow column.collation ++ (ColumnDefault.row column.default ++
          ColumnConstraint.rows column.constraints))) := by
    simpa using ColumnDef.tokens_eq column []
  rw [text, text]
  refine (types.append further (calm column) (calm column')).cons.mono (fun _ => id) ?_
  rintro ⟨sameName, sameType, sameCollation, sameDefault, sameConstraints⟩
  rw [Option.map_id_fun, id, id] at sameCollation
  rw [ColumnDef.erase, ColumnDef.erase, Kind.identifier.inj sameName, sameType, sameCollation,
    sameDefault, sameConstraints]

/-! ## Tables -/

namespace TableElement

theorem agree {limit : Nat} {element element' : TableElement}
    (sound : Parse.SoundElement limit element) (sound' : Parse.SoundElement limit element') :
    Agree EndsElement (Piece.kinds element.pieces) (Piece.kinds element'.pieces)
      (element.erase = element'.erase) := by
  have differ (column : ColumnDef) (constraint : TableConstraint) (rest rest' : List Kind) :
      lead (Piece.kinds (Canonical.ofColumnDef column) ++ rest) ≠
        lead (Piece.kinds (Canonical.ofTableConstraint constraint) ++ rest') := by
    obtain ⟨name, kind, span⟩ := constraint
    rw [ColumnDef.tokens_eq]
    cases name with
    | some name => simp [Canonical.ofTableConstraint, Canonical.ofConstraintName, Canonical.optional]
    | none =>
      cases kind <;> simp [Canonical.ofTableConstraint, Canonical.ofConstraintName,
        Canonical.optional, Canonical.ofTableConstraintKind]
  cases element with
  | column column =>
    cases element' with
    | column column' =>
      exact (ColumnDef.agree sound.1 sound'.1 (by simpa using sound.2) (by simpa using sound'.2)).mono
        (fun _ => id) (congrArg TableElement.column)
    | constraint constraint => exact .of_lead (differ column constraint)
  | constraint constraint =>
    cases element' with
    | column column => exact .of_lead fun rest rest' => (differ column constraint rest' rest).symm
    | constraint constraint' =>
      have agree := Parse.agree_of_views 0 0 (fun _ => Parse.tableConstraint_reads sound)
        fun _ => Parse.tableConstraint_reads sound'
      exact agree.mono (fun _ closes => closes.ne) (congrArg TableElement.constraint)

end TableElement

namespace Create

/-- The tokens of the list of a definition. -/
def listTokens (definition : Create) : List Kind :=
  Piece.kinds (Piece.commaSeparated (definition.columns.map Canonical.ofColumnDef) ++
    definition.constraints.flatMap fun constraint =>
      Piece.sign .comma :: Piece.after (Canonical.ofTableConstraint constraint))

/-- The list with a comma before each element: without columns it is written so. -/
theorem listTokens_eq (definition : Create) :
    (if definition.columns = [] then definition.listTokens
      else .symbol .comma :: definition.listTokens) =
        Parse.commaRows (definition.elements.map fun element => Piece.kinds element.pieces) := by
  obtain ⟨name, temporary, policy, columns, constraints, span⟩ := definition
  cases columns <;>
    simp [listTokens, elements, TableElement.pieces, Parse.commaRows, Function.comp_def,
      List.flatMap_map]

theorem lead_listTokens {definition : Create} (nonempty : definition.columns ≠ [])
    (rest : List Kind) : lead (definition.listTokens ++ rest) ≠ .symbol .comma := by
  obtain ⟨name, temporary, policy, columns, constraints, span⟩ := definition
  obtain ⟨column, columns, rfl⟩ := List.exists_cons_of_ne_nil nonempty
  simp [listTokens, Canonical.ofColumnDef]

/-- Without columns there is a comma before the first constraint. -/
theorem listTokens_of_empty {definition : Create} (formed : definition.Formed)
    (empty : definition.columns = []) (rest : List Kind) :
    lead (definition.listTokens ++ rest) = .symbol .comma := by
  have nonempty := formed.nonempty.resolve_left (· empty)
  obtain ⟨name, temporary, policy, columns, constraints, span⟩ := definition
  obtain ⟨constraint, constraints, rfl⟩ := List.exists_cons_of_ne_nil nonempty
  obtain rfl : columns = [] := empty
  simp [listTokens]

theorem list_agree {definition definition' : Create} (formed : definition.Formed)
    (formed' : definition'.Formed)
    (each : ∀ element ∈ definition.elements, ∀ element' ∈ definition'.elements,
      Agree EndsElement (Piece.kinds element.pieces) (Piece.kinds element'.pieces)
        (element.erase = element'.erase)) :
    Agree Closed definition.listTokens definition'.listTokens
      (definition.elements.map TableElement.erase = definition'.elements.map TableElement.erase) := by
  have rows := (commaRows_agree (fun _ => .inl rfl) each).mono
    (fun rest (closed : Closed rest) => ⟨.inr closed, by rw [closed]; simp⟩) id
  rw [← listTokens_eq, ← listTokens_eq] at rows
  by_cases empty : definition.columns = []
  · by_cases empty' : definition'.columns = []
    · rwa [if_pos empty, if_pos empty'] at rows
    · refine .of_lead fun rest rest' => ?_
      rw [listTokens_of_empty formed empty]
      exact (lead_listTokens empty' rest').symm
  · by_cases empty' : definition'.columns = []
    · refine .of_lead fun rest rest' => ?_
      rw [listTokens_of_empty formed' empty']
      exact lead_listTokens empty rest
    · rw [if_neg empty, if_neg empty'] at rows
      intro rest rest' closed closed' eq
      exact rows closed closed' (congrArg (Kind.symbol .comma :: ·) eq)

theorem elements_sound {limit : Nat} {definition : Create} (formed : definition.Formed)
    (fits : (Statement.create definition).TypesFit limit) :
    ∀ element ∈ definition.elements, Parse.SoundElement limit element := by
  intro element member
  rcases List.mem_append.mp member with isColumn | isConstraint
  · obtain ⟨column, isMember, rfl⟩ := List.mem_map.mp isColumn
    exact ⟨formed.columns column isMember, fits column isMember⟩
  · obtain ⟨constraint, isMember, rfl⟩ := List.mem_map.mp isConstraint
    exact formed.constraints constraint isMember

theorem agree {limit : Nat} {definition definition' : Create} (formed : definition.Formed)
    (formed' : definition'.Formed) (fits : (Statement.create definition).TypesFit limit)
    (fits' : (Statement.create definition').TypesFit limit) :
    Agree (fun rest => lead rest ≠ .keyword .ON) (Piece.kinds (Canonical.ofCreate definition))
      (Piece.kinds (Canonical.ofCreate definition')) (definition.erase = definition'.erase) := by
  have lists : Agree (fun _ => True) _ _ _ := (list_agree formed formed' fun element member
    element' member' => TableElement.agree (elements_sound formed fits element member)
      (elements_sound formed' fits' element' member')).parenthesized
  have policies := Parse.agree_of_reads 0 0
    (fun _ => Parse.onCommit_reads definition.onCommit) fun _ =>
      Parse.onCommit_reads definition'.onCommit
  have names := (Piece.qualified_agree definition.name definition'.name).append
    (lists.append policies (fun _ _ => trivial) fun _ _ => trivial)
    (fun _ _ => .of_lead (by simp)) fun _ _ => .of_lead (by simp)
  have scopes (scope scope' : Option Temporary) :
      Agree (fun rest => ∃ more, rest = .keyword .TABLE :: more)
        (((scope.map Temporary.words).getD []).map Kind.keyword)
        (((scope'.map Temporary.words).getD []).map Kind.keyword) (scope = scope') := by
    have reads (scope : Option Temporary) (rest : List Kind)
        (isTable : ∃ more, rest = .keyword .TABLE :: more) :
        Parse.Reads 0 True Parse.temporary 0
          (((scope.map Temporary.words).getD []).map Kind.keyword ++ rest) (· = scope) 0 rest := by
      obtain ⟨more, rfl⟩ := isTable
      exact Parse.temporary_reads scope
    exact Parse.agree_of_reads 0 0 (reads scope) (reads scope')
  have text (definition : Create) : Piece.kinds (Canonical.ofCreate definition) =
      .keyword .CREATE :: (((definition.temporary.map Temporary.words).getD []).map .keyword ++
        .keyword .TABLE :: (Piece.kinds (Piece.qualified definition.name) ++
          (.symbol .leftParen :: (definition.listTokens ++ [Kind.symbol .rightParen]) ++
            definition.onCommit.toList.flatMap (fun policy => policy.words.map .keyword)))) := by
    cases isPolicy : definition.onCommit <;>
      simp [Canonical.ofCreate, Canonical.optional, isPolicy, listTokens]
  rw [text, text]
  refine ((scopes definition.temporary definition'.temporary).append names.tail
    (fun _ _ => ⟨_, rfl⟩) fun _ _ => ⟨_, rfl⟩).tail.mono (fun _ => id) ?_
  rintro ⟨sameScope, sameName, sameElements, samePolicy⟩
  have same := erase_ofElements formed sameElements.symm definition'.span
  rwa [sameName, sameScope, samePolicy, ofElements_elements formed', eq_comm] at same

end Create

end CanonicalSql
