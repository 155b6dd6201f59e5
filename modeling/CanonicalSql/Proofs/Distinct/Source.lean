import CanonicalSql.Proofs.Distinct.Expr
import CanonicalSql.Proofs.Reading.Source

/-!
# Sources told apart

A source without an alias is told from one with an alias by the word `AS`. What stands between
parentheses among the sources is a join, a source with an alias, or a query. A query is told by its
first word, or it begins with a group in parentheses; the first source may then be the same group,
but what follows goes on with a query or with a source, and not with both.
-/
namespace CanonicalSql.Rel

open Canonical (Place)

variable {rel other relation left right : Rel} {query : Query} {rest rest' : List Kind}

/-- No other source has a row with which the same text begins, where each is written as it is before
an alias. -/
def DistinctAliased (rel : Rel) : Prop :=
  ∀ other : Rel, other.Formed .source →
    Agree (fun rest => lead rest ≠ .symbol .dot) (rel.tokens .aliased) (other.tokens .aliased)
      (rel.erase = other.erase)

/-! ## Aliases -/

theorem alias_agree (name name' : Name) (columns columns' : List Name) :
    Agree EndsSource (aliasTokens name columns) (aliasTokens name' columns')
      (name = name' ∧ columns = columns') := by
  refine ((columns_agree columns columns').cons.tail).mono (fun _ ends => ends.paren) ?_
  rintro ⟨sameName, sameColumns⟩
  exact ⟨Kind.identifier.inj sameName, sameColumns⟩

theorem noDot_alias (name : Name) (columns : List Name) (rest : List Kind) :
    lead (aliasTokens name columns ++ rest) ≠ .symbol .dot := by
  simp [aliasTokens]

theorem distinctSource_of_aliased (formed : rel.Formed .source) (unnamed : rel.isNamed = false)
    (distinct : rel.DistinctAliased) : rel.DistinctSource := by
  intro other formed' rest rest' ends ends' eq
  rw [tokens_source formed unnamed] at eq
  cases named : other.isNamed with
  | false =>
    rw [tokens_source formed' named] at eq
    exact distinct other formed' ends.dot ends'.dot eq
  | true =>
    cases other with
    | named name columns relation span =>
      rw [tokens_named, List.append_assoc] at eq
      obtain ⟨-, rfl⟩ := distinct relation formed'.2.2.2 ends.dot (noDot_alias _ _ _) eq
      exact absurd rfl ends.noAs
    | _ => cases named

theorem named_distinctSource {name : Name} {columns : List Name} {span : Span}
    (distinct : relation.DistinctAliased) :
    (Rel.named name columns relation span).DistinctSource := by
  intro other formed' rest rest' ends ends' eq
  rw [tokens_named, List.append_assoc] at eq
  cases named : other.isNamed with
  | false =>
    rw [tokens_source formed' named] at eq
    obtain ⟨-, rfl⟩ := distinct other formed' (noDot_alias _ _ _) ends'.dot eq
    exact absurd rfl ends'.noAs
  | true =>
    cases other with
    | named name' columns' relation' span' =>
      rw [tokens_named, List.append_assoc] at eq
      obtain ⟨same, eq⟩ :=
        distinct relation' formed'.2.2.2 (noDot_alias _ _ _) (noDot_alias _ _ _) eq
      obtain ⟨⟨rfl, rfl⟩, left⟩ := alias_agree name name' columns columns' ends ends' eq
      exact ⟨by rw [erase, erase, same], left⟩
    | _ => cases named

/-! ## Sources and queries between parentheses -/

/-- The tokens of a join between its parentheses. -/
def joinTokens (kind : JoinKind) (natural : Bool) (condition : JoinCondition) (left right : Rel) :
    List Kind :=
  left.tokens .source ++ (Piece.kinds (Canonical.ofJoinWords kind natural condition) ++
    (right.tokens .source ++ Piece.kinds (Canonical.ofCondition condition)))

theorem tokens_join_aliased (kind : JoinKind) (natural : Bool) (condition : JoinCondition)
    (left right : Rel) (span : Span) :
    (Rel.join kind natural condition left right span).tokens .aliased = .symbol .leftParen ::
      (joinTokens kind natural condition left right ++ [.symbol .rightParen]) := by
  rw [tokens_join _ _ _ _ _ _ .aliased rfl]
  simp [joinTokens]

/-- A source that begins with a parenthesis is one group. -/
theorem exists_group (formed : rel.Formed .source) (more : List Kind)
    (isGroup : lead (rel.tokens .aliased ++ more) = .symbol .leftParen) :
    ∃ row, Nests row ∧
      rel.tokens .aliased = .symbol .leftParen :: (row ++ [.symbol .rightParen]) := by
  cases rel with
  | join kind natural condition left right span =>
    have words := Canonical.nested_ofJoinWords kind natural condition
    have further := (Canonical.nested_ofRel right .source).append
      (Canonical.nested_ofCondition condition)
    have nested := (Canonical.nested_ofRel left .source).append (words.append further)
    refine ⟨joinTokens kind natural condition left right, ?_, tokens_join_aliased ..⟩
    simpa [joinTokens, Nested] using nested
  | table name span =>
    obtain ⟨part, others, text⟩ := Piece.lead_qualified name more
    simp [tokens, Canonical.ofRel, Place.isSource, text] at isGroup
  | named name columns relation span =>
    exact ⟨_, Canonical.nested_ofRel _ .source, tokens_aliased_named name columns relation span⟩
  | query query =>
    exact ⟨_, Canonical.nested_ofQuery query, tokens_query query .aliased rfl⟩
  | select | values | setOp => simp [Formed] at formed

/-- A source is what it is without an alias, and then perhaps an alias. -/
theorem exists_aliased (formed : rel.Formed .source) :
    ∃ (core : Rel) (more : List Kind), core.Formed .source ∧ rel.tokens .source = core.tokens .aliased ++ more ∧
      ∀ rest, Parse.isQueryNext (lead rest) = false →
        Parse.isQueryNext (lead (more ++ rest)) = false := by
  cases named : rel.isNamed with
  | false => exact ⟨rel, [], formed, by rw [tokens_source formed named, List.append_nil], fun _ => id⟩
  | true =>
    cases rel with
    | named name columns relation span =>
      exact ⟨relation, aliasTokens name columns, formed.2.2.2, tokens_named .., fun _ _ => rfl⟩
    | _ => cases named

/-- What begins with a source is no query, if what follows does not go on with one. -/
theorem source_ne_query (formed : rel.Formed .source) (queryFormed : query.Formed)
    (more : ¬ query.Wraps) (noNext : Parse.isQueryNext (lead rest) = false) :
    rel.tokens .source ++ rest ≠ query.tokens ++ rest' := by
  intro eq
  cases enclosed : query.beginsEnclosed with
  | false =>
    have starts := Query.starts queryFormed enclosed rest'
    rw [← eq, source_noQuery formed] at starts
    cases starts
  | true =>
    have goesOn := Query.goesOn enclosed more rest'
    obtain ⟨core, further, coreFormed, text, noFurther⟩ := exists_aliased formed
    rw [text, List.append_assoc, Query.tokens_enclosed queryFormed enclosed] at eq
    obtain ⟨row, nests, isGroup⟩ := exists_group coreFormed _ (congrArg lead eq)
    have inside : row ++ .symbol .rightParen :: (further ++ rest) =
        query.body.firstOperand.enclosedQuery.tokens ++ .symbol .rightParen ::
          (query.furtherTokens ++ rest') := by
      rw [isGroup] at eq
      simpa using eq
    have same := nests.eq_rest (Canonical.nested_ofQuery _) inside
    rw [← same, noFurther rest noNext] at goesOn
    cases goesOn

/-! ## Joins -/

theorem joinWords_agree (kind kind' : JoinKind) (natural natural' : Bool)
    (condition condition' : JoinCondition) :
    Agree (fun _ => True) (Piece.kinds (Canonical.ofJoinWords kind natural condition))
      (Piece.kinds (Canonical.ofJoinWords kind' natural' condition'))
      (kind = kind' ∧ natural = natural') := by
  have isCross {kind : JoinKind} {natural : Bool} {condition : JoinCondition}
      (cross : condition.isCross kind natural = true) : kind = .inner ∧ natural = false := by
    cases condition with
    | absent => simpa [JoinCondition.isCross] using cross
    | _ => cases cross
  have crossText {kind : JoinKind} {natural : Bool} {condition : JoinCondition}
      (cross : condition.isCross kind natural = true) :
      Piece.kinds (Canonical.ofJoinWords kind natural condition) =
        [.keyword .CROSS, .keyword .JOIN] := by
    simp [Canonical.ofJoinWords, cross]
  have text {kind : JoinKind} {natural : Bool} {condition : JoinCondition}
      (other : condition.isCross kind natural = false) :
      Piece.kinds (Canonical.ofJoinWords kind natural condition) =
        (if natural then [Kind.keyword .NATURAL] else []) ++
          (kind.words.map .keyword ++ [Kind.keyword .JOIN]) := by
    cases natural <;> simp [Canonical.ofJoinWords, other]
  have notCross {kind : JoinKind} {natural : Bool} {condition : JoinCondition}
      (other : condition.isCross kind natural = false) (rest : List Kind) :
      lead (Piece.kinds (Canonical.ofJoinWords kind natural condition) ++ rest) ≠
        .keyword .CROSS := by
    rw [text other]
    cases natural <;> cases kind <;> simp [JoinKind.words]
  cases cross : condition.isCross kind natural with
  | true =>
    cases cross' : condition'.isCross kind' natural' with
    | true =>
      obtain ⟨rfl, rfl⟩ := isCross cross
      obtain ⟨rfl, rfl⟩ := isCross cross'
      rw [crossText cross, crossText cross']
      exact Agree.nil.tail.tail.mono (fun _ => id) fun _ => ⟨rfl, rfl⟩
    | false =>
      rw [crossText cross]
      exact .of_lead fun _ rest' => (notCross cross' rest').symm
  | false =>
    cases cross' : condition'.isCross kind' natural' with
    | true =>
      rw [crossText cross']
      exact .of_lead fun rest _ => notCross cross rest
    | false =>
      have naturals := Parse.agree_of_reads 0 0 (fun _ => Parse.takeNatural_reads natural)
        fun _ => Parse.takeNatural_reads natural'
      have reads (kind : JoinKind) (rest : List Kind) : Parse.Reads 0 True Parse.joinKind 0
          ((kind.words.map Kind.keyword ++ [.keyword .JOIN]) ++ rest) (· = kind) 0 rest := by
        simpa using Parse.joinKind_reads kind
      have kinds : Agree (fun _ => True) _ _ _ :=
        Parse.agree_of_reads 0 0 (fun rest _ => reads kind rest) fun rest _ => reads kind' rest
      have notNatural (kind : JoinKind) (rest : List Kind) :
          lead ((kind.words.map Kind.keyword ++ [Kind.keyword .JOIN]) ++ rest) ≠
            .keyword .NATURAL := by
        cases kind <;> simp [JoinKind.words]
      rw [text cross, text cross']
      refine (naturals.append kinds (fun rest _ => notNatural kind rest)
        fun rest _ => notNatural kind' rest).mono (fun _ => id) And.symm

theorem condition_agree {condition condition' : JoinCondition} (formed : condition.Formed)
    (formed' : condition'.Formed) (distinct : ∀ expr, condition = .onExpr expr → expr.Distinct) :
    Agree Closed (Piece.kinds (Canonical.ofCondition condition))
      (Piece.kinds (Canonical.ofCondition condition')) (condition.erase = condition'.erase) := by
  have onText (expr : Expr) : Piece.kinds (Canonical.ofCondition (.onExpr expr)) =
      .keyword .ON :: expr.tokens := by
    simp [Canonical.ofCondition]
  have usingText (columns : List Name) :
      Piece.kinds (Canonical.ofCondition (.usingColumns columns)) =
        .keyword .USING :: Piece.kinds (Piece.names columns) := by
    simp [Canonical.ofCondition]
  cases condition with
  | absent =>
    cases condition' with
    | absent => exact Agree.nil.mono (fun _ _ => trivial) fun _ => rfl
    | onExpr | usingColumns =>
      rintro _ _ closed _ rfl
      cases closed
  | onExpr expr =>
    rw [onText]
    cases condition' with
    | absent =>
      rintro _ _ _ closed rfl
      cases closed
    | onExpr expr' =>
      rw [onText]
      exact ((distinct expr rfl expr' formed').mono (fun _ => Closed.stops)
        (congrArg JoinCondition.onExpr)).tail
    | usingColumns columns =>
      rw [usingText]
      exact .of_lead fun _ _ => by simp
  | usingColumns columns =>
    rw [usingText]
    cases condition' with
    | absent =>
      rintro _ _ _ closed rfl
      cases closed
    | onExpr expr =>
      rw [onText]
      exact .of_lead fun _ _ => by simp
    | usingColumns columns' =>
      rw [usingText]
      exact (Parse.agree_of_reads 0 0 (fun _ _ => Parse.names_reads formed.1)
        fun _ _ => Parse.names_reads formed'.1).tail.mono (fun _ => id)
          (congrArg JoinCondition.usingColumns)

section

variable {kind : JoinKind} {natural : Bool} {condition : JoinCondition} {span : Span}

theorem endsSource_join (kind : JoinKind) (natural : Bool) (condition : JoinCondition)
    (more : List Kind) :
    EndsSource (Piece.kinds (Canonical.ofJoinWords kind natural condition) ++ more) :=
  (Parse.joinWords_follow kind natural condition more).1

theorem joinTokens_agree {kind' : JoinKind} {natural' : Bool} {condition' : JoinCondition}
    {left' right' : Rel} {span' : Span}
    (formed : (Rel.join kind natural condition left right span).Formed .source)
    (formed' : (Rel.join kind' natural' condition' left' right' span').Formed .source)
    (leftDistinct : left.DistinctSource) (rightDistinct : right.DistinctSource)
    (distinct : ∀ expr, condition = .onExpr expr → expr.Distinct) :
    Agree Closed (joinTokens kind natural condition left right)
      (joinTokens kind' natural' condition' left' right')
      ((Rel.join kind natural condition left right span).erase =
        (Rel.join kind' natural' condition' left' right' span').erase) := by
  have conditions := condition_agree formed.2.2.1 formed'.2.2.1 distinct
  have ends (condition : JoinCondition) (rest : List Kind) (closed : Closed rest) :
      EndsSource (Piece.kinds (Canonical.ofCondition condition) ++ rest) := by
    cases condition with
    | absent => exact .of_past closed.past
    | onExpr | usingColumns =>
      exact ⟨by simp [Canonical.ofCondition], by simp [Canonical.ofCondition],
        by simp [Canonical.ofCondition], rfl⟩
  have rights := (rightDistinct right' formed'.2.2.2.2).append conditions (ends condition)
    (ends condition')
  have words := joinWords_agree kind kind' natural natural' condition condition'
  have further := words.append rights (fun _ _ => trivial) fun _ _ => trivial
  have follow (kind : JoinKind) (natural : Bool) (condition : JoinCondition) (right : Rel)
      (rest : List Kind) : EndsSource ((Piece.kinds (Canonical.ofJoinWords kind natural condition) ++
        (right.tokens .source ++ Piece.kinds (Canonical.ofCondition condition))) ++ rest) := by
    rw [List.append_assoc]
    exact endsSource_join kind natural condition _
  refine ((leftDistinct left' formed'.2.2.2.1).append further (fun rest _ => follow _ _ _ _ rest)
    fun rest _ => follow _ _ _ _ rest).mono (fun _ => id) ?_
  rintro ⟨sameLeft, ⟨rfl, rfl⟩, sameRight, sameCondition⟩
  rw [erase, erase, sameLeft, sameRight, sameCondition]

/-- A join is no source alone: the words of a join follow its left operand. -/
theorem join_ne_source {same : Prop}
    (agree : Agree EndsSource (left.tokens .source) (other.tokens .source) same) :
    joinTokens kind natural condition left right ++ .symbol .rightParen :: rest ≠
      other.tokens .source ++ .symbol .rightParen :: rest' := by
  intro eq
  rw [joinTokens, List.append_assoc, List.append_assoc] at eq
  have close : EndsSource (.symbol .rightParen :: rest') := .of_past (Past.close rest')
  obtain ⟨-, same⟩ := agree (endsSource_join kind natural condition _) close eq
  have starts := (Parse.joinWords_follow kind natural condition
    (right.tokens .source ++ Piece.kinds (Canonical.ofCondition condition) ++
      .symbol .rightParen :: rest)).2.2
  rw [same] at starts
  cases starts

theorem join_ne_query (formed : left.Formed .source) (queryFormed : query.Formed)
    (more : ¬ query.Wraps) :
    joinTokens kind natural condition left right ++ rest ≠ query.tokens ++ rest' := by
  rw [joinTokens, List.append_assoc, List.append_assoc]
  exact source_ne_query formed queryFormed more
    (Parse.joinWords_follow kind natural condition _).2.1

end

/-! ## Sources before an alias -/

theorem lead_table (name : QualifiedName) (span : Span) (rest : List Kind) :
    lead ((Rel.table name span).tokens .aliased ++ rest) ≠ .symbol .leftParen := by
  obtain ⟨part, others, text⟩ := Piece.lead_qualified name rest
  simp [tokens, Canonical.ofRel, Place.isSource, text]

theorem table_distinctAliased {name : QualifiedName} {span : Span} :
    (Rel.table name span).DistinctAliased := by
  intro other formed'
  cases other with
  | table name' span' =>
    have text (name : QualifiedName) (span : Span) :
        (Rel.table name span).tokens .aliased = Piece.kinds (Piece.qualified name) := by
      simp [tokens, Canonical.ofRel, Place.isSource]
    rw [text, text]
    refine (Piece.qualified_agree name name').mono (fun _ => EndsName.of_lead) ?_
    rintro rfl
    rw [erase, erase]
  | join =>
    rw [tokens_join_aliased]
    exact .of_lead fun rest _ => lead_table name span rest
  | named =>
    rw [tokens_aliased_named]
    exact .of_lead fun rest _ => lead_table name span rest
  | query query =>
    rw [tokens_query query .aliased rfl]
    exact .of_lead fun rest _ => lead_table name span rest
  | select | values | setOp => simp [Formed] at formed'

/-- Two groups in parentheses begin no text together if what is within them does not. -/
theorem agree_of_never {ends : List Kind → Prop} {row row' : List Kind} {same : Prop}
    (never : ∀ rest rest', row ++ .symbol .rightParen :: rest ≠
      row' ++ .symbol .rightParen :: rest') :
    Agree ends (.symbol .leftParen :: (row ++ [.symbol .rightParen]))
      (.symbol .leftParen :: (row' ++ [.symbol .rightParen])) same := by
  intro rest rest' _ _ eq
  exact absurd (by simpa using eq) (never rest rest')

theorem query_distinctAliased (formed : (Rel.query query).Formed .source)
    (distinct : query.Distinct) : (Rel.query query).DistinctAliased := by
  intro other formed'
  have more : ¬ query.Wraps := by simpa using formed.2
  rw [tokens_query query .aliased rfl]
  cases other with
  | table name span => exact .of_lead fun _ rest' => (lead_table name span rest').symm
  | join =>
    rw [tokens_join_aliased]
    exact agree_of_never fun _ _ eq => join_ne_query formed'.2.2.2.1 formed.1 more eq.symm
  | named =>
    rw [tokens_aliased_named]
    exact agree_of_never fun _ _ eq => source_ne_query formed' formed.1 more rfl eq.symm
  | query query' =>
    rw [tokens_query query' .aliased rfl]
    refine ((distinct query' formed'.1).mono (fun _ => Closed.past) ?_).parenthesized
    exact fun same => by rw [erase, erase, same]
  | select | values | setOp => simp [Formed] at formed'

theorem named_distinctAliased {name : Name} {columns : List Name} {span : Span}
    (formed : (Rel.named name columns relation span).Formed .source)
    (distinct : (Rel.named name columns relation span).DistinctSource) :
    (Rel.named name columns relation span).DistinctAliased := by
  intro other formed'
  rw [tokens_aliased_named]
  cases other with
  | table name' span' => exact .of_lead fun _ rest' => (lead_table name' span' rest').symm
  | join kind natural condition left right span' =>
    rw [tokens_join_aliased]
    have lefts := (distinct left formed'.2.2.2.1).symm
    exact agree_of_never fun _ _ eq => join_ne_source lefts eq.symm
  | named =>
    rw [tokens_aliased_named]
    exact ((distinct _ formed').mono (fun _ closed => .of_past closed.past) id).parenthesized
  | query query =>
    have more : ¬ query.Wraps := by simpa using formed'.2
    rw [tokens_query query .aliased rfl]
    exact agree_of_never fun _ _ => source_ne_query formed formed'.1 more rfl
  | select | values | setOp => simp [Formed] at formed'

theorem join_distinctAliased {kind : JoinKind} {natural : Bool} {condition : JoinCondition}
    {span : Span} (formed : (Rel.join kind natural condition left right span).Formed .source)
    (leftDistinct : left.DistinctSource) (rightDistinct : right.DistinctSource)
    (distinct : ∀ expr, condition = .onExpr expr → expr.Distinct) :
    (Rel.join kind natural condition left right span).DistinctAliased := by
  intro other formed'
  rw [tokens_join_aliased]
  cases other with
  | table name' span' => exact .of_lead fun _ rest' => (lead_table name' span' rest').symm
  | join kind' natural' condition' left' right' span' =>
    rw [tokens_join_aliased]
    exact ((joinTokens_agree formed formed' leftDistinct rightDistinct distinct)).parenthesized
  | named =>
    rw [tokens_aliased_named]
    exact agree_of_never fun _ _ => join_ne_source (leftDistinct _ formed')
  | query query =>
    have more : ¬ query.Wraps := by simpa using formed'.2
    rw [tokens_query query .aliased rfl]
    exact agree_of_never fun _ _ => join_ne_query formed.2.2.2.1 formed'.1 more
  | select | values | setOp => simp [Formed] at formed'

end CanonicalSql.Rel
