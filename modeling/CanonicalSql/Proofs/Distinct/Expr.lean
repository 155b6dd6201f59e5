import CanonicalSql.Proofs.Distinct.Basic
import CanonicalSql.Proofs.Distinct.Nesting
import CanonicalSql.Proofs.Reading.Tokens

/-!
# Expressions told apart

The canonical row of a value can be told from that of any other value, whatever stops it
(`Expr.Distinct`), if those of its parts can. There is one lemma for each form of value. The form
is told by the first token, except for what begins with a parenthesis: an operator or a predicate
is then told by what follows its first operand, and from a subquery by the fact that no group in
parentheses is followed both by an operator and by what goes on with a query.
-/
namespace CanonicalSql

/-! ## What is to be shown of each sort -/

/-- No other value has a row with which the same text begins. -/
def Expr.Distinct (expr : Expr) : Prop :=
  ∀ other : Expr, other.Formed .value →
    Agree Stops expr.tokens other.tokens (expr.erase = other.erase)

/-- The value is told from all others, and so is the operand of an operator or a predicate that it
begins with. -/
structure Expr.Told (expr : Expr) : Prop where
  distinct : expr.Distinct
  first : ∀ {first : Expr} {more : List Kind}, expr.Follows first more → first.Distinct

/-- No other query has a row with which the same text begins. -/
def Query.Distinct (query : Query) : Prop :=
  ∀ other : Query, other.Formed →
    Agree (Past 10) query.tokens other.tokens (query.erase = other.erase)

/-- No other source has a row with which the same text begins, with its alias or without one. -/
def Rel.DistinctSource (rel : Rel) : Prop :=
  ∀ other : Rel, other.Formed .source →
    Agree EndsSource (rel.tokens .source) (other.tokens .source) (rel.erase = other.erase)

/-- No other rows after `IN` are written alike. -/
def Rel.DistinctMembers (rows : Rel) : Prop :=
  ∀ other : Rel, other.Formed .members →
    Agree Closed (rows.tokens .members) (other.tokens .members) (rows.erase = other.erase)

theorem Stops.comma (rest : List Kind) : Stops (.symbol .comma :: rest) := .of_quiet rfl

theorem EndsSource.comma (rest : List Kind) : EndsSource (.symbol .comma :: rest) :=
  ⟨by simp, by simp, by simp, rfl⟩

theorem Closed.stops {rest : List Kind} (closed : Closed rest) : Stops rest :=
  .of_quiet (by rw [closed]; rfl)

theorem Closed.past {rest : List Kind} (closed : Closed rest) : Past 10 rest := by
  rw [Past, closed]
  exact Nat.le_refl 10

/-! ## Forms -/

/-- What the first token of a value tells of it. -/
inductive Expr.Form
  | star
  | name
  | literal (kind : Kind)
  | row
  | aggregate (function : AggregateFunction)
  | enclosed

/-- The form of a value that begins with the token. -/
def Kind.form : Kind → Expr.Form
  | .symbol .star => .star
  | .identifier _ => .name
  | .symbol .leftParen => .enclosed
  | .keyword .ROW => .row
  | .keyword word =>
    match AggregateFunction.ofWord? word with
    | some function => .aggregate function
    | none => .literal (.keyword word)
  | kind => .literal kind

/-- The form of a value. -/
def Expr.form : Expr → Expr.Form
  | .asterisk none _ => .star
  | .asterisk (some _) _ | .column .. => .name
  | .integer value _ => .literal (.integer value)
  | .float value _ => .literal (.float value)
  | .string value kind _ => .literal (.string value kind)
  | .truth value _ => .literal (.keyword value.word)
  | .null _ => .literal (.keyword .NULL)
  | .row .. => .row
  | .aggregate function .. => .aggregate function
  | _ => .enclosed

theorem Kind.form_aggregate (function : AggregateFunction) :
    (Kind.keyword function.word).form = .aggregate function := by
  cases function <;> rfl

/-- The first token of a value tells its form. -/
theorem Expr.form_of_lead {expr : Expr} (formed : expr.Formed .value) (rest : List Kind) :
    (lead (expr.tokens ++ rest)).form = expr.form := by
  cases expr with
  | asterisk qualifier span =>
    cases qualifier with
    | none => rfl
    | some name =>
      obtain ⟨part, more, text⟩ := Piece.lead_qualified name (.symbol .dot :: .symbol .star :: rest)
      simp [tokens, Canonical.ofExpr, Canonical.optional, text, Kind.form, form]
  | column name span =>
    obtain ⟨part, more, text⟩ := Piece.lead_qualified name rest
    simp [tokens, Canonical.ofExpr, text, Kind.form, form]
  | truth value span => cases value <;> rfl
  | aggregate function quantifier argument filter span => exact Kind.form_aggregate function
  | named name expr span => exact absurd formed.1 (by simp)
  | sortKey key => exact formed.elim
  | groupingSet set => exact absurd formed.1 (by simp)
  | groupingSets sets span => exact absurd formed.1 (by simp)
  | rollup sets span => exact absurd formed.1 (by simp)
  | cube sets span => exact absurd formed.1 (by simp)
  | _ => rfl

/-- Values with which the same text begins have one form. -/
theorem Expr.form_eq {one other : Expr} {rest rest' : List Kind} (formed : one.Formed .value)
    (formed' : other.Formed .value) (eq : one.tokens ++ rest = other.tokens ++ rest') :
    one.form = other.form := by
  rw [← form_of_lead formed rest, eq, form_of_lead formed' rest']

/-- The literal that is written as the token. -/
def Kind.literal : Kind → Expr
  | .integer value => .integer value default
  | .float value => .float value default
  | .string value kind => .string value kind default
  | .keyword .TRUE => .truth .true default
  | .keyword .FALSE => .truth .false default
  | .keyword .UNKNOWN => .truth .unknown default
  | _ => .null default

/-- A literal is one token, which tells its value. -/
theorem Expr.eq_of_literal {expr : Expr} {kind : Kind} (isLiteral : expr.form = .literal kind) :
    expr.tokens = [kind] ∧ expr.erase = kind.literal := by
  cases expr with
  | asterisk qualifier span => cases qualifier <;> cases isLiteral
  | truth value span => cases value <;> cases isLiteral <;> exact ⟨rfl, rfl⟩
  | integer | float | string | null =>
    cases isLiteral
    exact ⟨rfl, rfl⟩
  | _ => cases isLiteral

namespace Expr

variable {expr other : Expr} {row row' rest rest' : List Kind}

/-! ## Values without parts -/

theorem distinct_of_literal {kind : Kind} (formed : expr.Formed .value)
    (isLiteral : expr.form = .literal kind) : expr.Distinct := by
  intro other formed' rest rest' _ _ eq
  have same := form_eq formed formed' eq
  rw [isLiteral] at same
  obtain ⟨text, isErased⟩ := eq_of_literal isLiteral
  obtain ⟨text', isErased'⟩ := eq_of_literal same.symm
  rw [text, text'] at eq
  exact ⟨isErased.trans isErased'.symm, (List.cons.inj eq).2⟩

/-- A value that begins with a name is the name of a column, or an asterisk after a name. -/
theorem column_or (isName : expr.form = .name) :
    (∃ name span, expr = .column name span) ∨ ∃ name span, expr = .asterisk (some name) span := by
  cases expr with
  | asterisk qualifier span =>
    cases qualifier with
    | none => cases isName
    | some name => exact .inr ⟨name, span, rfl⟩
  | column name span => exact .inl ⟨name, span, rfl⟩
  | _ => cases isName

theorem tokens_column (name : QualifiedName) (span : Span) :
    (Expr.column name span).tokens = Piece.kinds (Piece.qualified name) := rfl

theorem tokens_asterisk (name : QualifiedName) (span : Span) :
    (Expr.asterisk (some name) span).tokens =
      Piece.kinds (Piece.qualified name) ++ [.symbol .dot, .symbol .star] := by
  simp [tokens, Canonical.ofExpr, Canonical.optional]

theorem endsName_star (rest : List Kind) : EndsName (.symbol .dot :: .symbol .star :: rest) := by
  rintro part more ⟨⟩

theorem column_distinct {name : QualifiedName} {span : Span}
    (formed : (Expr.column name span).Formed .value) : (Expr.column name span).Distinct := by
  intro other formed' rest rest' stops stops' eq
  rw [tokens_column] at eq
  rcases column_or (form_eq formed formed' eq).symm with ⟨name', span', rfl⟩ | ⟨name', span', rfl⟩
  · rw [tokens_column] at eq
    obtain ⟨rfl, left⟩ :=
      Piece.qualified_agree name name' (.of_lead stops.dot) (.of_lead stops'.dot) eq
    exact ⟨rfl, left⟩
  · rw [tokens_asterisk, List.append_assoc] at eq
    obtain ⟨-, rfl⟩ := Piece.qualified_agree name name' (.of_lead stops.dot) (endsName_star _) eq
    exact absurd rfl stops.dot

theorem asterisk_distinct {qualifier : Option QualifiedName} {span : Span}
    (formed : (Expr.asterisk qualifier span).Formed .value) :
    (Expr.asterisk qualifier span).Distinct := by
  intro other formed' rest rest' stops stops' eq
  have same := (form_eq formed formed' eq).symm
  cases qualifier with
  | none =>
    have isStar : ∃ span', other = .asterisk none span' := by
      cases other with
      | asterisk qualifier' span' =>
        cases qualifier' with
        | none => exact ⟨span', rfl⟩
        | some name => cases same
      | _ => cases same
    obtain ⟨span', rfl⟩ := isStar
    exact ⟨rfl, (List.cons.inj eq).2⟩
  | some name =>
    rw [tokens_asterisk, List.append_assoc] at eq
    rcases column_or same with ⟨name', span', rfl⟩ | ⟨name', span', rfl⟩
    · rw [tokens_column] at eq
      obtain ⟨-, rfl⟩ :=
        Piece.qualified_agree name name' (endsName_star _) (.of_lead stops'.dot) eq
      exact absurd rfl stops'.dot
    · rw [tokens_asterisk, List.append_assoc] at eq
      obtain ⟨rfl, left⟩ := Piece.qualified_agree name name' (endsName_star _) (endsName_star _) eq
      exact ⟨rfl, (List.cons.inj (List.cons.inj left).2).2⟩

/-! ## Rows and aggregates -/

/-- Lists of values up to a closing parenthesis. -/
theorem closedList_agree {values values' : List Expr} (formed : ∀ it ∈ values, it.Formed .value)
    (formed' : ∀ it ∈ values', it.Formed .value) (distinct : ∀ it ∈ values, it.Distinct) :
    Agree Closed (Piece.kinds (Piece.commaSeparated (values.map Canonical.ofExpr)))
      (Piece.kinds (Piece.commaSeparated (values'.map Canonical.ofExpr)))
      (values.map erase = values'.map erase) := by
  refine CanonicalSql.closedList_agree Stops.comma (fun _ => Closed.stops) ?_ ?_
  · intro value member more
    rcases List.mem_append.mp member with member | member
    · exact lead_ne (formed value member) more rfl (by simp)
    · exact lead_ne (formed' value member) more rfl (by simp)
  · intro value member value' member'
    exact distinct value member value' (formed' value' member')

theorem row_distinct {values : List Expr} {span : Span}
    (formed : (Expr.row values span).Formed .value) (distinct : ∀ value ∈ values, value.Distinct) :
    (Expr.row values span).Distinct := by
  intro other formed' rest rest' stops stops' eq
  have isRow : ∃ values' span', other = .row values' span' := by
    have same := (form_eq formed formed' eq).symm
    cases other with
    | asterisk qualifier span => cases qualifier <;> cases same
    | row values' span' => exact ⟨values', span', rfl⟩
    | _ => cases same
  obtain ⟨values', span', rfl⟩ := isRow
  have list := closedList_agree (allFormed_iff.mp formed.2) (allFormed_iff.mp formed'.2) distinct
  have text (values : List Expr) (span : Span) : (Expr.row values span).tokens =
      .keyword .ROW :: .symbol .leftParen ::
        (Piece.kinds (Piece.commaSeparated (values.map Canonical.ofExpr)) ++
          [Kind.symbol .rightParen]) := by
    simp [tokens, Canonical.ofExpr, Canonical.ofExprs_eq_map]
  rw [text, text] at eq
  obtain ⟨same, eq⟩ := list.parenthesized.tail stops stops' eq
  refine ⟨?_, eq⟩
  rw [erase, erase, eraseAll_eq_map, eraseAll_eq_map, same]

theorem eraseOption_eq_map (expr : Option Expr) : eraseOption expr = expr.map erase := by
  cases expr <;> rfl

theorem optionFormed_iff {expr : Option Expr} :
    OptionFormed expr ↔ ∀ it ∈ expr, it.Formed .value := by
  cases expr <;> simp [OptionFormed]

/-- The tokens of a filter. -/
theorem kinds_ofFilter (filter : Option Expr) :
    Piece.kinds (Canonical.ofFilter filter) = filter.elim [] fun it => .keyword .FILTER ::
      .symbol .leftParen :: (.keyword .WHERE :: it.tokens ++ [.symbol .rightParen]) := by
  cases filter <;> simp [Canonical.ofFilter, tokens]

theorem filter_agree {filter filter' : Option Expr} (formed' : OptionFormed filter')
    (distinct : ∀ it ∈ filter, it.Distinct) :
    Agree Stops (Piece.kinds (Canonical.ofFilter filter)) (Piece.kinds (Canonical.ofFilter filter'))
      (eraseOption filter = eraseOption filter') := by
  rw [kinds_ofFilter, kinds_ofFilter, eraseOption_eq_map, eraseOption_eq_map]
  have each (it : Expr) (member : it ∈ filter) (it' : Expr) (member' : it' ∈ filter') :
      Agree (fun _ => True)
        (.symbol .leftParen :: (.keyword .WHERE :: it.tokens ++ [Kind.symbol .rightParen]))
        (.symbol .leftParen :: (.keyword .WHERE :: it'.tokens ++ [Kind.symbol .rightParen]))
        (it.erase = it'.erase) := by
    have inside := distinct it member it' (optionFormed_iff.mp formed' it' member')
    exact (inside.mono (fun _ => Closed.stops) id).tail.parenthesized
  exact (option_agree each).mono (fun _ stops => ⟨trivial, stops.filter⟩) id

theorem aggregate_distinct {function : AggregateFunction} {quantifier : Option SetQuantifier}
    {argument : Expr} {filter : Option Expr} {span : Span}
    (formed : (Expr.aggregate function quantifier argument filter span).Formed .value)
    (argumentDistinct : argument.Distinct) (filterDistinct : ∀ it ∈ filter, it.Distinct) :
    (Expr.aggregate function quantifier argument filter span).Distinct := by
  intro other formed' rest rest' stops stops' eq
  have isAggregate : ∃ quantifier' argument' filter' span',
      other = .aggregate function quantifier' argument' filter' span' := by
    have same := (form_eq formed formed' eq).symm
    cases other with
    | asterisk qualifier span => cases qualifier <;> cases same
    | aggregate function' quantifier' argument' filter' span' =>
      cases same
      exact ⟨quantifier', argument', filter', span', rfl⟩
    | _ => cases same
  obtain ⟨quantifier', argument', filter', span', rfl⟩ := isAggregate
  have noQuantifier {argument : Expr} (formed : argument.Formed .value) (rest : List Kind) :
      lead (argument.tokens ++ rest) ≠ .keyword .ALL ∧
        lead (argument.tokens ++ rest) ≠ .keyword .DISTINCT :=
    ⟨lead_ne formed rest rfl (by simp), lead_ne formed rest rfl (by simp)⟩
  have arguments : Agree Closed argument.tokens argument'.tokens (argument.erase = argument'.erase) :=
    (argumentDistinct argument' formed'.2.1).mono (fun _ => Closed.stops) id
  have inside := (quantifier_agree quantifier quantifier').append arguments
    (fun rest _ => noQuantifier formed.2.1 rest) fun rest _ => noQuantifier formed'.2.1 rest
  have arguments : Agree (fun _ => True) _ _ _ := inside.parenthesized
  have agree := arguments.append (filter_agree formed'.2.2 filterDistinct) (fun _ _ => trivial)
    fun _ _ => trivial
  have text (quantifier : Option SetQuantifier) (argument : Expr) (filter : Option Expr)
      (span : Span) : (Expr.aggregate function quantifier argument filter span).tokens =
        .keyword function.word :: (.symbol .leftParen ::
          (Piece.kinds (Canonical.ofQuantifier quantifier) ++ argument.tokens ++
            [Kind.symbol .rightParen]) ++ Piece.kinds (Canonical.ofFilter filter)) := by
    simp [tokens, Canonical.ofExpr]
  rw [text, text] at eq
  obtain ⟨⟨⟨rfl, sameArgument⟩, sameFilter⟩, left⟩ := agree.tail stops stops' eq
  refine ⟨?_, left⟩
  rw [erase, erase, sameArgument, sameFilter]

/-! ## Operators and predicates -/

namespace Follows

variable {first : Expr} {more : List Kind}

theorem nests (follows : expr.Follows first more) : Nests more := by
  cases follows with
  | binary _ op right span => exact Nested.binary op (Canonical.nested_ofExpr right)
  | collate _ collation span => exact .word .COLLATE (Nested.qualified collation)
  | isTruth _ value span => exact .word .IS (.word value.word Nested.nil)
  | isNull => exact .word .IS (.word .NULL Nested.nil)
  | between _ low high symmetric span =>
    have bounds : Nests (low.tokens ++ .keyword .AND :: high.tokens) :=
      .append (Canonical.nested_ofExpr low) (.word .AND (Canonical.nested_ofExpr high))
    cases symmetric with
    | false => exact .word .BETWEEN bounds
    | true => exact .word .BETWEEN (.word .SYMMETRIC bounds)
  | within _ rows span => exact .word .IN (.parenthesized (Canonical.nested_ofRel rows .members))
  | like _ pattern escape span =>
    exact .word .LIKE (.append (Canonical.nested_ofExpr pattern) (Canonical.nested_ofEscape escape))

/-- What follows the first operand goes on with no query. -/
theorem noQuery (follows : expr.Follows first more) (rest : List Kind) :
    Parse.isQueryNext (lead (more ++ rest)) = false := by
  cases follows with
  | binary _ op right span => cases op <;> rfl
  | _ => rfl

end Follows

namespace Encloses

theorem nests (encloses : expr.Encloses row) : Nests row := by
  cases encloses with
  | unary op operand span => exact Nested.unary op (Canonical.nested_ofExpr operand)
  | existence query span => exact .word .EXISTS (.parenthesized (Canonical.nested_ofQuery query))
  | uniqueness query span => exact .word .UNIQUE (.parenthesized (Canonical.nested_ofQuery query))
  | @after _ first _ follows => exact .append (Canonical.nested_ofExpr first) follows.nests

end Encloses

/-- A value that begins with a parenthesis is one group. -/
theorem exists_group (formed : expr.Formed .value) (more : List Kind)
    (isGroup : lead (expr.tokens ++ more) = .symbol .leftParen) :
    ∃ row, Nests row ∧ expr.tokens = .symbol .leftParen :: (row ++ [.symbol .rightParen]) := by
  rcases encloses_or formed with ⟨row, encloses⟩ | ⟨query, span, rfl⟩ | noGroup
  · exact ⟨row, encloses.nests, encloses.tokens_eq⟩
  · exact ⟨query.tokens, Canonical.nested_ofQuery query, by simp [tokens, Canonical.ofExpr]⟩
  · exact absurd isGroup (noGroup more)

/-- A value and an operand in parentheses with which the same text begins are followed by the same:
they are one group. -/
theorem rest_eq_of_enclosed {rel : Rel} (formed : expr.Formed .value)
    (enclosed : rel.isEnclosed = true)
    (eq : expr.tokens ++ rest = rel.tokens .operand ++ rest') : rest = rest' := by
  rw [Rel.tokens_enclosed enclosed] at eq
  obtain ⟨row, nests, isGroup⟩ := exists_group formed rest (by rw [eq]; rfl)
  rw [isGroup, List.cons_append, List.cons_append, List.append_assoc, List.append_assoc] at eq
  exact nests.eq_rest (Canonical.nested_ofQuery _) (List.cons.inj eq).2

/-- An operator or a predicate between parentheses is no query: what begins as a query is followed
by what goes on with it. -/
theorem Encloses.ne_query {query : Query} (encloses : expr.Encloses row)
    (formed : expr.Formed .value) (queryFormed : query.Formed) (more : ¬ query.Wraps) :
    row ++ rest ≠ query.tokens ++ rest' := by
  intro eq
  cases enclosed : query.beginsEnclosed with
  | false =>
    have starts := Query.starts queryFormed enclosed rest'
    rw [← eq, encloses.noQuery formed] at starts
    cases starts
  | true =>
    have body := (Query.formed_iff.mp queryFormed).2.1
    have isEnclosed : query.body.firstOperand.isEnclosed = true := by
      simp only [Query.beginsEnclosed, Bool.and_eq_true, Rel.beginsEnclosed_eq] at enclosed
      exact enclosed.2
    rw [Query.tokens_enclosed queryFormed enclosed] at eq
    cases encloses with
    | unary op operand span => cases op <;> simp [UnaryOp.kind] at eq
    | existence | uniqueness => simp at eq
    | @after _ first more' follows =>
      have same : more' ++ rest = query.furtherTokens ++ rest' := by
        refine rest_eq_of_enclosed (follows.first_formed formed) isEnclosed ?_
        rw [Rel.tokens_enclosed isEnclosed]
        simpa using eq
      have goesOn := Query.goesOn enclosed more rest'
      rw [← same, follows.noQuery] at goesOn
      cases goesOn

/-- A value with which the text of an operator or a predicate begins is one itself. -/
theorem Encloses.exists_other (encloses : expr.Encloses row) (formed : expr.Formed .value)
    (formed' : other.Formed .value) (eq : expr.tokens ++ rest = other.tokens ++ rest') :
    ∃ row', other.Encloses row' ∧
      row ++ .symbol .rightParen :: rest = row' ++ .symbol .rightParen :: rest' := by
  rw [encloses.tokens_eq] at eq
  rcases encloses_or formed' with ⟨row', encloses'⟩ | ⟨query, span, rfl⟩ | noGroup
  · rw [encloses'.tokens_eq] at eq
    exact ⟨row', encloses', by simpa using eq⟩
  · have inside : row ++ .symbol .rightParen :: rest = query.tokens ++ .symbol .rightParen :: rest' := by
      simpa [tokens, Canonical.ofExpr] using eq
    exact absurd inside (encloses.ne_query formed formed'.2.1 formed'.2.2)
  · exact absurd (congrArg lead eq).symm (noGroup rest')

/-- What follows an operator or a predicate from its first operand on. -/
theorem Follows.exists_other {first : Expr} {more : List Kind} (follows : expr.Follows first more)
    (formed : expr.Formed .value) (distinct : first.Distinct) (formed' : other.Formed .value)
    (eq : expr.tokens ++ rest = other.tokens ++ rest') :
    ∃ first' more', other.Follows first' more' ∧ first.erase = first'.erase ∧
      more ++ .symbol .rightParen :: rest = more' ++ .symbol .rightParen :: rest' := by
  obtain ⟨row', encloses', eq⟩ := (Encloses.after follows).exists_other formed formed' eq
  have firstFormed := follows.first_formed formed
  rw [List.append_assoc] at eq
  cases encloses' with
  | unary op operand span =>
    have isLead := congrArg lead eq
    exact absurd isLead (lead_ne firstFormed _ (by cases op <;> rfl) (by cases op <;> simp [UnaryOp.kind]))
  | existence | uniqueness => exact absurd (congrArg lead eq) (lead_ne firstFormed _ rfl (by simp))
  | @after _ first' more' follows' =>
    rw [List.append_assoc] at eq
    obtain ⟨same, left⟩ := distinct first' (follows'.first_formed formed') (follows.stops _)
      (follows'.stops _) eq
    exact ⟨first', more', follows', same, left⟩

theorem unary_distinct {op : UnaryOp} {operand : Expr} {span : Span}
    (formed : (Expr.unary op operand span).Formed .value) (distinct : operand.Distinct) :
    (Expr.unary op operand span).Distinct := by
  intro other formed' rest rest' stops stops' eq
  obtain ⟨row', encloses', eq⟩ :=
    (Encloses.unary op operand span).exists_other formed formed' eq
  cases encloses' with
  | unary op' operand' span' =>
    obtain ⟨isOp, eq⟩ := List.cons.inj eq
    have sameOp : op = op' := by cases op <;> cases op' <;> first | rfl | cases isOp
    obtain ⟨same, left⟩ := distinct operand' formed'.2 (Closed.close rest).stops
      (Closed.close rest').stops eq
    exact ⟨by rw [erase, erase, sameOp, same], (List.cons.inj left).2⟩
  | existence | uniqueness => cases op <;> cases eq
  | @after _ first more follows =>
    rw [List.append_assoc] at eq
    refine absurd (congrArg lead eq).symm (lead_ne (follows.first_formed formed') _ ?_ ?_)
    · cases op <;> rfl
    · cases op <;> simp [UnaryOp.kind]

theorem existence_distinct {query : Query} {span : Span}
    (formed : (Expr.existence query span).Formed .value) (distinct : query.Distinct) :
    (Expr.existence query span).Distinct := by
  intro other formed' rest rest' stops stops' eq
  obtain ⟨row', encloses', eq⟩ :=
    (Encloses.existence query span).exists_other formed formed' eq
  cases encloses' with
  | unary op operand span' => cases op <;> cases eq
  | existence query' span' =>
    have inside := ((distinct query' formed'.2).mono (fun _ => Closed.past) id).parenthesized.tail
      (Closed.close rest) (.close rest') eq
    exact ⟨by rw [erase, erase, inside.1], (List.cons.inj inside.2).2⟩
  | uniqueness => cases eq
  | @after _ first more follows =>
    rw [List.append_assoc] at eq
    exact absurd (congrArg lead eq).symm (lead_ne (follows.first_formed formed') _ rfl (by simp))

theorem uniqueness_distinct {query : Query} {span : Span}
    (formed : (Expr.uniqueness query span).Formed .value) (distinct : query.Distinct) :
    (Expr.uniqueness query span).Distinct := by
  intro other formed' rest rest' stops stops' eq
  obtain ⟨row', encloses', eq⟩ :=
    (Encloses.uniqueness query span).exists_other formed formed' eq
  cases encloses' with
  | unary op operand span' => cases op <;> cases eq
  | existence => cases eq
  | uniqueness query' span' =>
    have inside := ((distinct query' formed'.2).mono (fun _ => Closed.past) id).parenthesized.tail
      (Closed.close rest) (.close rest') eq
    exact ⟨by rw [erase, erase, inside.1], (List.cons.inj inside.2).2⟩
  | @after _ first more follows =>
    rw [List.append_assoc] at eq
    exact absurd (congrArg lead eq).symm (lead_ne (follows.first_formed formed') _ rfl (by simp))

theorem subquery_distinct {query : Query} {span : Span}
    (formed : (Expr.subquery query span).Formed .value) (distinct : query.Distinct) :
    (Expr.subquery query span).Distinct := by
  intro other formed' rest rest' stops stops' eq
  have text (query : Query) (span : Span) : (Expr.subquery query span).tokens =
      .symbol .leftParen :: (query.tokens ++ [Kind.symbol .rightParen]) := by
    simp [tokens, Canonical.ofExpr]
  rcases encloses_or formed' with ⟨row', encloses'⟩ | ⟨query', span', rfl⟩ | noGroup
  · rw [text, encloses'.tokens_eq] at eq
    have inside : row' ++ .symbol .rightParen :: rest' =
        query.tokens ++ .symbol .rightParen :: rest := by
      simpa using eq.symm
    exact absurd inside (encloses'.ne_query formed' formed.2.1 formed.2.2)
  · rw [text, text] at eq
    have inside := ((distinct query' formed'.2.1).mono (fun _ => Closed.past) id).parenthesized
      stops stops' eq
    exact ⟨by rw [erase, erase, inside.1], inside.2⟩
  · rw [text] at eq
    exact absurd (congrArg lead eq).symm (noGroup rest')

/-! Each operator and each predicate is told by what follows its first operand. -/

theorem binary_distinct {left right : Expr} {op : BinaryOp} {span : Span}
    (formed : (Expr.binary left op right span).Formed .value) (leftDistinct : left.Distinct)
    (rightDistinct : right.Distinct) : (Expr.binary left op right span).Distinct := by
  intro other formed' rest rest' stops stops' eq
  obtain ⟨first', more', follows', sameLeft, eq⟩ :=
    (Follows.binary left op right span).exists_other formed leftDistinct formed' eq
  cases follows' with
  | binary _ op' right' span' =>
    obtain ⟨isOp, eq⟩ := List.cons.inj eq
    have sameOp : op = op' := by
      have found := BinaryOp.ofKind?_kind op
      rw [isOp, BinaryOp.ofKind?_kind] at found
      exact (Option.some.inj found).symm
    obtain ⟨sameRight, eq⟩ := rightDistinct right' formed'.2.2 (Closed.close rest).stops
      (Closed.close rest').stops eq
    exact ⟨by rw [erase, erase, sameLeft, sameOp, sameRight], (List.cons.inj eq).2⟩
  | _ => cases op <;> cases eq

theorem collate_distinct {expr : Expr} {collation : QualifiedName} {span : Span}
    (formed : (Expr.collate expr collation span).Formed .value) (distinct : expr.Distinct) :
    (Expr.collate expr collation span).Distinct := by
  intro other formed' rest rest' stops stops' eq
  obtain ⟨first', more', follows', same, eq⟩ :=
    (Follows.collate expr collation span).exists_other formed distinct formed' eq
  cases follows' with
  | binary _ op right span' => cases op <;> cases eq
  | collate _ collation' span' =>
    obtain ⟨rfl, left⟩ := (Piece.qualified_agree collation collation').tail
      (EndsName.of_lead (by simp)) (.of_lead (by simp)) eq
    exact ⟨by rw [erase, erase, same], (List.cons.inj left).2⟩
  | _ => cases eq

theorem isTruth_distinct {expr : Expr} {value : TruthValue} {span : Span}
    (formed : (Expr.isTruth expr value span).Formed .value) (distinct : expr.Distinct) :
    (Expr.isTruth expr value span).Distinct := by
  intro other formed' rest rest' stops stops' eq
  obtain ⟨first', more', follows', same, eq⟩ :=
    (Follows.isTruth expr value span).exists_other formed distinct formed' eq
  cases follows' with
  | binary _ op right span' => cases op <;> cases eq
  | isTruth _ value' span' =>
    have sameValue : value = value' := by cases value <;> cases value' <;> first | rfl | cases eq
    cases value <;> cases sameValue <;> cases eq <;> exact ⟨by rw [erase, erase, same], rfl⟩
  | isNull _ span' => cases value <;> cases eq
  | _ => cases eq

theorem isNull_distinct {expr : Expr} {span : Span} (formed : (Expr.isNull expr span).Formed .value)
    (distinct : expr.Distinct) : (Expr.isNull expr span).Distinct := by
  intro other formed' rest rest' stops stops' eq
  obtain ⟨first', more', follows', same, eq⟩ :=
    (Follows.isNull expr span).exists_other formed distinct formed' eq
  cases follows' with
  | binary _ op right span' => cases op <;> cases eq
  | isTruth _ value' span' => cases value' <;> cases eq
  | isNull _ span' =>
    cases eq
    exact ⟨by rw [erase, erase, same], rfl⟩
  | _ => cases eq

theorem between_distinct {expr low high : Expr} {symmetric : Bool} {span : Span}
    (formed : (Expr.between expr low high symmetric span).Formed .value)
    (distinct : expr.Distinct) (lowDistinct : low.Distinct) (highDistinct : high.Distinct) :
    (Expr.between expr low high symmetric span).Distinct := by
  intro other formed' rest rest' stops stops' eq
  obtain ⟨first', more', follows', same, eq⟩ :=
    (Follows.between expr low high symmetric span).exists_other formed distinct formed' eq
  cases follows' with
  | binary _ op right span' => cases op <;> cases eq
  | between _ low' high' symmetric' span' =>
    have stopsLow (high : Expr) (rest : List Kind) :
        Stops ((.keyword .AND :: high.tokens) ++ rest) :=
      ⟨by simp, by simp, by simp⟩
    have bounds : Agree Closed (low.tokens ++ .keyword .AND :: high.tokens)
        (low'.tokens ++ .keyword .AND :: high'.tokens)
        (low.erase = low'.erase ∧ high.erase = high'.erase) :=
      (lowDistinct low' formed'.2.2.1).append
        ((highDistinct high' formed'.2.2.2).mono (fun _ => Closed.stops) id).tail
        (fun rest _ => stopsLow high rest) fun rest _ => stopsLow high' rest
    have noMark {low high : Expr} (formed : low.Formed .value) (rest : List Kind) :
        lead ((low.tokens ++ .keyword .AND :: high.tokens) ++ rest) ≠ .keyword .SYMMETRIC := by
      rw [List.append_assoc]
      exact lead_ne formed _ rfl (by simp)
    have sameMark : symmetric = symmetric' := by
      cases symmetric <;> cases symmetric'
      · rfl
      · exact absurd (congrArg lead (List.cons.inj eq).2) (noMark formed.2.2.1 _)
      · exact absurd (congrArg lead (List.cons.inj eq).2).symm (noMark formed'.2.2.1 _)
      · rfl
    subst sameMark
    have eq : (low.tokens ++ .keyword .AND :: high.tokens) ++ .symbol .rightParen :: rest =
        (low'.tokens ++ .keyword .AND :: high'.tokens) ++ .symbol .rightParen :: rest' := by
      cases symmetric <;> simpa using eq
    obtain ⟨⟨sameLow, sameHigh⟩, left⟩ := bounds (.close rest) (.close rest') eq
    exact ⟨by rw [erase, erase, same, sameLow, sameHigh], (List.cons.inj left).2⟩
  | _ => cases eq

theorem within_distinct {expr : Expr} {rows : Rel} {span : Span}
    (formed : (Expr.within expr rows span).Formed .value) (distinct : expr.Distinct)
    (rowsDistinct : rows.DistinctMembers) : (Expr.within expr rows span).Distinct := by
  intro other formed' rest rest' stops stops' eq
  obtain ⟨first', more', follows', same, eq⟩ :=
    (Follows.within expr rows span).exists_other formed distinct formed' eq
  cases follows' with
  | binary _ op right span' => cases op <;> cases eq
  | within _ rows' span' =>
    obtain ⟨sameRows, left⟩ := (rowsDistinct rows' formed'.2.2).parenthesized.tail
      (Closed.close rest) (.close rest') eq
    exact ⟨by rw [erase, erase, same, sameRows], (List.cons.inj left).2⟩
  | _ => cases eq

theorem kinds_ofEscape (escape : Option Expr) :
    Piece.kinds (Canonical.ofEscape escape) =
      escape.elim [] fun it => .keyword .ESCAPE :: it.tokens := by
  cases escape <;> simp [Canonical.ofEscape, tokens]

theorem like_distinct {expr pattern : Expr} {escape : Option Expr} {span : Span}
    (formed : (Expr.like expr pattern escape span).Formed .value) (distinct : expr.Distinct)
    (patternDistinct : pattern.Distinct) (escapeDistinct : ∀ it ∈ escape, it.Distinct) :
    (Expr.like expr pattern escape span).Distinct := by
  intro other formed' rest rest' stops stops' eq
  obtain ⟨first', more', follows', same, eq⟩ :=
    (Follows.like expr pattern escape span).exists_other formed distinct formed' eq
  cases follows' with
  | binary _ op right span' => cases op <;> cases eq
  | like _ pattern' escape' span' =>
    have escapes : Agree Closed (Piece.kinds (Canonical.ofEscape escape))
        (Piece.kinds (Canonical.ofEscape escape')) (escape.map erase = escape'.map erase) := by
      rw [kinds_ofEscape, kinds_ofEscape]
      have each (it : Expr) (member : it ∈ escape) (it' : Expr) (member' : it' ∈ escape') :
          Agree Closed it.tokens it'.tokens (it.erase = it'.erase) := by
        have formedEscape := optionFormed_iff.mp formed'.2.2.2 it' member'
        exact (escapeDistinct it member it' formedEscape).mono (fun _ => Closed.stops) id
      exact (option_agree each).mono (fun _ closed => ⟨closed, by rw [closed]; simp⟩) id
    have stopsPattern (escape : Option Expr) (rest : List Kind) (closed : Closed rest) :
        Stops (Piece.kinds (Canonical.ofEscape escape) ++ rest) := by
      cases escape with
      | none => exact closed.stops
      | some escape => exact .of_quiet rfl
    obtain ⟨⟨samePattern, sameEscape⟩, left⟩ := ((patternDistinct pattern' formed'.2.2.1).append
      escapes (stopsPattern escape) (stopsPattern escape')).tail (.close rest) (.close rest') eq
    rw [← eraseOption_eq_map, ← eraseOption_eq_map] at sameEscape
    exact ⟨by rw [erase, erase, same, samePattern, sameEscape], (List.cons.inj left).2⟩
  | _ => cases eq

end Expr

end CanonicalSql
