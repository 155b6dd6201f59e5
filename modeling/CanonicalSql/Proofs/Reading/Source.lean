import CanonicalSql.Proofs.Reading.Tail

/-!
# Reading sources

Tables, queries and joins in `FROM`. A join is always in parentheses of its own, so that
between them there is one join, and after the closing parenthesis there is none. A query
that begins with an operand in parentheses is read as a table first, and then gone on with.
-/
namespace CanonicalSql

/-! ## The tokens of sources -/

/-- The tokens of an alias after the relation that it names. -/
def aliasTokens (name : Name) (columns : List Name) : List Kind :=
  .keyword .AS :: .identifier name ::
    Piece.kinds (Canonical.when (!columns.isEmpty) (Piece.names columns))

namespace Rel

theorem tokens_named (name : Name) (columns : List Name) (relation : Rel) (span : Span) :
    (Rel.named name columns relation span).tokens .source =
      relation.tokens .aliased ++ aliasTokens name columns := by
  simp [tokens, Canonical.ofRel, Canonical.asQuery, Canonical.Place.isSource,
    Canonical.parenthesizedWhen, Canonical.withColumns, aliasTokens]

theorem tokens_aliased_named (name : Name) (columns : List Name) (relation : Rel) (span : Span) :
    (Rel.named name columns relation span).tokens .aliased = .symbol .leftParen ::
      ((Rel.named name columns relation span).tokens .source ++ [.symbol .rightParen]) := by
  simp [tokens, Canonical.ofRel, Canonical.asQuery, Canonical.Place.isSource,
    Canonical.parenthesizedWhen]

theorem tokens_join (kind : JoinKind) (natural : Bool) (condition : JoinCondition)
    (left right : Rel) (span : Span) (place : Canonical.Place) (isSource : place.isSource = true) :
    (Rel.join kind natural condition left right span).tokens place = .symbol .leftParen ::
      (left.tokens .source ++ (Piece.kinds (Canonical.ofJoinWords kind natural condition) ++
        (right.tokens .source ++ (Piece.kinds (Canonical.ofCondition condition) ++
          [.symbol .rightParen])))) := by
  simp [tokens, Canonical.ofRel, Canonical.asQuery, isSource]

theorem tokens_query (query : Query) (place : Canonical.Place) (isSource : place.isSource = true) :
    (Rel.query query).tokens place =
      .symbol .leftParen :: (query.tokens ++ [.symbol .rightParen]) := by
  cases place with
  | source | aliased => simp [tokens, Canonical.ofRel, Canonical.parenthesizedWhen]
  | _ => cases isSource

/-- Whether the relation has a name, which takes parentheses before another name. -/
def isNamed : Rel → Bool
  | .named .. => true
  | _ => false

theorem tokens_source {rel : Rel} (formed : rel.Formed .source) (other : rel.isNamed = false) :
    rel.tokens .source = rel.tokens .aliased := by
  cases rel with
  | join kind natural condition left right span =>
    rw [tokens_join _ _ _ _ _ _ .source rfl, tokens_join _ _ _ _ _ _ .aliased rfl]
  | table name span => simp [tokens, Canonical.ofRel, Canonical.Place.isSource]
  | query query => rw [tokens_query query .source rfl, tokens_query query .aliased rfl]
  | named => cases other
  | select | values | setOp => simp [Rel.Formed] at formed

/-- The text of a source begins with a name or with a parenthesis. -/
theorem lead_aliased {rel : Rel} (formed : rel.Formed .source) (more : List Kind) :
    lead (rel.tokens .aliased ++ more) = .symbol .leftParen ∨
      ∃ name, lead (rel.tokens .aliased ++ more) = .identifier name := by
  cases rel with
  | join kind natural condition left right span =>
    rw [tokens_join _ _ _ _ _ _ .aliased rfl]
    exact .inl rfl
  | table name span =>
    obtain ⟨part, others, text⟩ := Piece.lead_qualified name more
    refine .inr ⟨part, ?_⟩
    simp [tokens, Canonical.ofRel, Canonical.Place.isSource, text]
  | named name columns relation span =>
    rw [tokens_aliased_named]
    exact .inl rfl
  | query query =>
    rw [tokens_query query .aliased rfl]
    exact .inl rfl
  | select | values | setOp => simp [Rel.Formed] at formed

theorem lead_source {rel : Rel} (formed : rel.Formed .source) (more : List Kind) :
    lead (rel.tokens .source ++ more) = .symbol .leftParen ∨
      ∃ name, lead (rel.tokens .source ++ more) = .identifier name := by
  cases named : rel.isNamed with
  | false =>
    rw [tokens_source formed named]
    exact lead_aliased formed more
  | true =>
    cases rel with
    | named name columns relation span =>
      rw [tokens_named, List.append_assoc]
      exact lead_aliased formed.2.2.2 _
    | _ => cases named

theorem source_noQuery {rel : Rel} (formed : rel.Formed .source) (more : List Kind) :
    Parse.isQueryStart (lead (rel.tokens .source ++ more)) = false := by
  rcases lead_source formed more with isParen | ⟨name, isName⟩
  · rw [isParen]
    rfl
  · rw [isName]
    rfl

/-- A relation that looks like a query without its places is one. -/
theorem eq_query_of_erase {rel : Rel} {query : Query} (same : rel.erase = (Rel.query query).erase) :
    ∃ found, rel = .query found ∧ found.erase = query.erase := by
  cases rel with
  | query found => exact ⟨found, rfl, by simpa [Rel.erase] using same⟩
  | _ => simp [Rel.erase] at same

end Rel

namespace Parse

variable {limit bound depth : Nat} {phrases : Phrases} {rest : List Kind}

/-! ## Joins -/

theorem joinWords_reads (kind : JoinKind) :
    Reads limit True joinWords depth (kind.words.map .keyword ++ .keyword .JOIN :: rest)
      (· = kind) depth (.keyword .JOIN :: rest) := by
  refine word?_looks.reads.step ?_
  cases kind with
  | inner => exact advance_reads.after fun _ _ => .pure trivial rfl
  | left | right | full =>
    exact advance_reads.after fun _ _ => (takeWord_yes .OUTER).step (.pure trivial rfl)

theorem joinKind_reads (kind : JoinKind) :
    Reads limit True joinKind depth (kind.words.map .keyword ++ .keyword .JOIN :: rest)
      (· = kind) depth rest :=
  (joinWords_reads kind).step ((expectWord_reads .JOIN).step (.pure trivial rfl))

theorem takeNatural_reads (natural : Bool) (stops : lead rest ≠ .keyword .NATURAL) :
    Reads limit True (takeWord .NATURAL) depth
      ((if natural then [.keyword .NATURAL] else []) ++ rest) (· = natural) depth rest := by
  cases natural with
  | true => exact takeWord_yes .NATURAL
  | false => exact takeWord_no stops

/-- The condition of a join that has one. -/
theorem joinCondition_reads (reads : phrases.ReadBack limit bound) {condition : JoinCondition}
    (present : condition ≠ .absent) (formed : condition.Formed)
    (fits : 2 * (Piece.kinds (Canonical.ofCondition condition)).length ≤ bound + 1)
    (room : depth + 2 * Outline.depthAll (Outline.belowCondition condition) ≤ capOf limit + 1) :
    Reads limit (Outline.AllReadable (Outline.belowCondition condition)) (joinCondition phrases)
      depth (Piece.kinds (Canonical.ofCondition condition) ++ .symbol .rightParen :: rest)
      (fun it => it.erase = condition.erase) depth (.symbol .rightParen :: rest) := by
  cases condition with
  | absent => exact absurd rfl present
  | onExpr condition =>
    have text : Piece.kinds (Canonical.ofCondition (.onExpr condition)) =
        .keyword .ON :: condition.tokens := by
      simp [Canonical.ofCondition]
    rw [text] at fits ⊢
    simp only [List.length_cons] at fits
    simp only [Outline.belowCondition, Outline.plain_expr, Outline.depthAll_cons] at room
    simp only [Outline.belowCondition, Outline.plain_expr, Outline.allReadable_cons,
      Outline.allReadable_nil, and_true]
    refine (takeWord_yes .ON).step ?_
    refine (expression_reads reads formed (by omega) (by omega) rfl).bind id
      fun holds e same => .pure holds (by simp [JoinCondition.erase, same])
  | usingColumns columns =>
    have text : Piece.kinds (Canonical.ofCondition (.usingColumns columns)) =
        .keyword .USING :: Piece.kinds (Piece.names columns) := by
      simp [Canonical.ofCondition]
    rw [text, List.cons_append]
    refine (takeWord_no (by simp)).step ((takeWord_yes .USING).step ?_)
    exact (names_reads formed.1).step (.pure (by simp [Outline.belowCondition]) rfl)

theorem startsJoin_looks : Looks startsJoin isJoinStart := fun _ => rfl

/-- Before what begins no join there is no round. -/
theorem joinStep_none (other : isJoinStart (lead rest) = false) (done : Rel × Nat) :
    Reads limit True (joinStep phrases done) depth rest (· = none) depth rest := by
  refine startsJoin_looks.reads.step ?_
  rw [other]
  exact .pure trivial rfl

theorem noJoin_reads (left : Rel) (other : isJoinStart (lead rest) = false) :
    Reads limit True (joins phrases left) depth rest (· = left) depth rest := by
  have rounds : Loops limit True (joinStep phrases) (left, 0) depth rest (· = (left, 0)) depth
      rest :=
    .stop (joinStep_none other _) trivial rfl
  exact rounds.loop.step ((leave_reads 0).step (.pure trivial rfl))

/-! ## Tables and queries -/

/-- What stands in parentheses, and begins with a source. -/
theorem enclosedTable_reads {accepts needed : Prop} {kinds mid : List Kind}
    {found good : Rel → Prop} {start : Span} (noQuery : isQueryStart (lead kinds) = false)
    (noNext : isQueryNext (lead mid) = false)
    (first : Reads limit needed phrases.tablePrimary depth kinds found depth mid)
    (needs : accepts → needed)
    (others : needed → ∀ rel, found rel →
      Reads limit accepts (phrases.joins rel) depth mid good depth rest) :
    Reads limit accepts (enclosedTable phrases start) depth kinds good depth rest := by
  refine (startsQuery_no noQuery).step ?_
  have goesOn : Reads limit accepts (do phrases.joins (← phrases.tablePrimary)) depth kinds good
      depth rest :=
    first.bind needs others
  rcases Classical.em (lead kinds = .symbol .leftParen) with isParen | other
  · refine (atSign_yes isParen).step (first.bind needs fun holds rel isFound => ?_)
    exact (continuesQuery_no noNext).step (others holds rel isFound)
  · exact (atSign_no other).step goesOn

theorem parenthesizedTable_reads {accepts : Prop} {kinds : List Kind} {good : Rel → Prop}
    (room : depth < capOf limit)
    (inside : ∀ start, Reads limit accepts (enclosedTable phrases start) (depth + 1) kinds good
      (depth + 1) (.symbol .rightParen :: rest)) :
    Reads limit accepts (tableFactor phrases) depth (.symbol .leftParen :: kinds) good depth
      rest := by
  refine (atSign_yes (lead_cons _ _)).step (.nested room ?_)
  refine .still here_still fun start => (expectSign_reads _).step ?_
  exact (inside start).bind id fun holds rel isGood =>
    (expectSign_reads _).step (.pure holds isGood)

/-- The operand in parentheses that a query begins with is read as a table. -/
theorem firstTable_reads (reads : phrases.ReadBack limit bound) {query : Query}
    (formed : query.Formed) (wraps : ¬ query.Wraps) (enclosed : query.beginsEnclosed = true)
    (fits : 2 * query.tokens.length + 1 ≤ bound)
    (room : depth + 2 * (Outline.ofQuery query).depth ≤ capOf limit + 1) :
    Reads limit (Outline.ofQuery query.body.firstOperand.enclosedQuery).Readable
      phrases.tablePrimary depth (query.tokens ++ rest)
      (fun r => ∃ found, r = .query found ∧
        found.erase = query.body.firstOperand.enclosedQuery.erase)
      depth (query.furtherTokens ++ rest) := by
  have text := Query.tokens_enclosed formed enclosed
  have lower := Query.firstOperand_depth enclosed
  have goesOn := Query.goesOn enclosed wraps rest
  have operandFormed := Rel.firstOperand_formed (Query.formed_iff.mp formed).2.1
  generalize query.body.firstOperand = first at text lower operandFormed
  have firstFormed : (Rel.query first.enclosedQuery).Formed .source :=
    ⟨Rel.enclosedQuery_formed operandFormed,
      by simpa using Rel.enclosedQuery_not_wraps operandFormed⟩
  have split : query.tokens = (Rel.query first.enclosedQuery).tokens .source ++
      query.furtherTokens := by
    rw [text, Rel.tokens_query _ .source rfl]
    simp
  have firstDepth : (Outline.ofRel (.query first.enclosedQuery)).depth =
      1 + (Outline.ofQuery first.enclosedQuery).depth := by
    rw [Outline.depth_ofRel]
    simp [Outline.belowRel, Outline.plain_query]
  rw [split, List.length_append] at fits
  rw [split, List.append_assoc]
  refine (reads.tablePrimary firstFormed (by omega) (by omega)
    (.of_isQueryNext goesOn)).mono ?_ fun r same => Rel.eq_query_of_erase same
  rw [Outline.readable_ofRel]
  simp [Outline.belowRel, Outline.plain_query]

/-- Going on with a query in place of a table is going on with it. -/
theorem longerTableQuery_eq (phrases : Phrases) (found : Query) (start : Span) :
    longerTableQuery phrases (.query found) start =
      (do return .query (← reopened phrases found start)) := by
  simp [longerTableQuery, reopened, Rel.isQueryLike]

/-- A query in the place of a table. If its text begins with an operand in parentheses,
that operand is read as a table of its own, and what goes on from it follows. -/
theorem tableQuery_reads (reads : phrases.ReadBack limit bound) {query : Query}
    (formed : query.Formed) (wraps : ¬ query.Wraps) (fits : 2 * query.tokens.length + 1 ≤ bound)
    (room : depth + 2 * (Outline.ofQuery query).depth ≤ capOf limit + 1) (start : Span) :
    Reads limit (Outline.ofQuery query).Readable (enclosedTable phrases start) depth
      (query.tokens ++ .symbol .rightParen :: rest)
      (fun r => r.erase = (Rel.query query).erase) depth (.symbol .rightParen :: rest) := by
  cases enclosed : query.beginsEnclosed with
  | false =>
    refine (startsQuery_yes (query.starts formed enclosed _)).step ?_
    exact (reads.query formed fits room (Past.close _)).bind id
      fun holds q same => .pure holds (by simp [Rel.erase, same])
  | true =>
    have text := Query.tokens_enclosed formed enclosed
    have starts : isQueryStart (lead (query.tokens ++ .symbol .rightParen :: rest)) = false := by
      rw [text]
      rfl
    have isParen : lead (query.tokens ++ .symbol .rightParen :: rest) = .symbol .leftParen := by
      rw [text]
      rfl
    have shorter : query.furtherTokens.length ≤ query.tokens.length := by
      rw [text]
      simp only [List.length_cons, List.length_append]
      omega
    refine (startsQuery_no starts).step ((atSign_yes isParen).step ?_)
    refine (firstTable_reads reads formed wraps enclosed fits room).bind
      (fun all => ((Query.readable_enclosed enclosed).mp all).1) fun firstHolds r isFirst => ?_
    obtain ⟨found, rfl, same⟩ := isFirst
    refine (continuesQuery_yes (Query.goesOn enclosed wraps _)).step ?_
    rw [if_pos rfl, longerTableQuery_eq]
    refine (reopened_reads reads formed enclosed (by omega) room (Past.close _) same start).bind
      (fun all => ((Query.readable_enclosed enclosed).mp all).2) fun holds q same => .pure ?_ ?_
    · exact (Query.readable_enclosed enclosed).mpr ⟨firstHolds, holds⟩
    · simp [Rel.erase, same]

/-! ## Sources -/

theorem withAlias_none (ends : EndsSource rest) (relation : Rel) (start : Span) :
    Reads limit True (withAlias relation start) depth rest (· = relation) depth rest :=
  (optionalAlias_none ends.noAs ends.noName).step (.pure trivial rfl)

theorem withAlias_reads (name : Name) (columns : List Name) (relation : Rel) (start : Span)
    (stops : lead rest ≠ .symbol .leftParen) :
    Reads limit True (withAlias relation start) depth (aliasTokens name columns ++ rest)
      (fun r => r.erase = .named name columns relation.erase default) depth rest := by
  refine (optionalAlias_reads name).step ((optionalNames_reads columns stops).step ?_)
  exact .still (spanFrom_still start) fun _ => .pure trivial (by simp [Rel.erase])

/-- The words of a join follow a source. -/
theorem joinWords_follow (kind : JoinKind) (natural : Bool) (condition : JoinCondition)
    (more : List Kind) :
    EndsSource (Piece.kinds (Canonical.ofJoinWords kind natural condition) ++ more) ∧
      isQueryNext
        (lead (Piece.kinds (Canonical.ofJoinWords kind natural condition) ++ more)) = false ∧
      isJoinStart
        (lead (Piece.kinds (Canonical.ofJoinWords kind natural condition) ++ more)) = true := by
  unfold Canonical.ofJoinWords
  split
  · exact ⟨⟨by simp, by simp, by simp, rfl⟩, rfl, rfl⟩
  · cases natural <;> cases kind <;> exact ⟨⟨by simp [JoinKind.words], by simp [JoinKind.words],
      by simp [JoinKind.words], rfl⟩, rfl, rfl⟩

/-- A relation with a name, in parentheses in front of a further name. -/
theorem enclosedNamed_reads (reads : phrases.ReadBack limit bound) {name : Name}
    {columns : List Name} {relation : Rel} {span : Span}
    (formed : (Rel.named name columns relation span).Formed .source)
    (fits : 2 * ((Rel.named name columns relation span).tokens .aliased).length ≤ bound)
    (room : depth + 2 * (Outline.ofRel (.named name columns relation span)).depth ≤ capOf limit) :
    Reads limit (Outline.ofRel (.named name columns relation span)).Readable (tableFactor phrases)
      depth ((Rel.named name columns relation span).tokens .aliased ++ rest)
      (fun r => r.erase = (Rel.named name columns relation span).erase) depth rest := by
  have level := Outline.depth_ofRel (.named name columns relation span)
  rw [Rel.tokens_aliased_named] at fits ⊢
  simp only [List.length_cons, List.length_append] at fits
  simp only [List.cons_append, List.append_assoc, List.nil_append]
  refine parenthesizedTable_reads (by omega) fun start => ?_
  refine enclosedTable_reads (Rel.source_noQuery formed _) rfl
    (reads.tablePrimary formed (by omega) (by omega) ⟨by simp, by simp, by simp, rfl⟩) id
    fun holds r same => ?_
  -- the parenthesis that follows begins no join
  exact (reads.noJoin (by omega) rfl).mono ⟨fun _ => holds, fun _ => trivial⟩
    fun it isFound => by rw [isFound, same]

/-- A join, which always stands in parentheses. -/
theorem enclosedJoin_reads (reads : phrases.ReadBack limit bound) {kind : JoinKind}
    {natural : Bool} {condition : JoinCondition} {left right : Rel} {span : Span}
    (formed : (Rel.join kind natural condition left right span).Formed .source)
    (fits : 2 * ((Rel.join kind natural condition left right span).tokens .aliased).length ≤ bound)
    (room : depth + 2 * (Outline.ofRel (.join kind natural condition left right span)).depth ≤
      capOf limit + 1) :
    Reads limit (Outline.ofRel (.join kind natural condition left right span)).Readable
      (tableFactor phrases) depth
      ((Rel.join kind natural condition left right span).tokens .aliased ++ rest)
      (fun r => r.erase = (Rel.join kind natural condition left right span).erase) depth rest := by
  have level := Outline.depth_ofRel (.join kind natural condition left right span)
  rw [Rel.tokens_join _ _ _ _ _ _ .aliased rfl] at fits ⊢
  simp only [List.length_cons, List.length_append] at fits
  have below : Outline.belowRel (.join kind natural condition left right span) =
      [Outline.plain (.join kind natural condition left right span)
        ([Outline.ofRel left, Outline.ofRel right] ++ Outline.belowCondition condition)] := rfl
  have leftLevel := Outline.depth_ofRel left
  rw [below] at level
  simp only [Outline.depthAll_cons, Outline.depthAll_nil, Outline.depth_plain,
    Outline.depthAll_append, Node.isLevel] at level
  have readable : (Outline.ofRel (.join kind natural condition left right span)).Readable ↔
      (Outline.ofRel left).Readable ∧ (Outline.ofRel right).Readable ∧
        Outline.AllReadable (Outline.belowCondition condition) := by
    rw [Outline.readable_ofRel, below]
    simp [Outline.plain, Outline.readable_node, Node.isUnreadable]
  obtain ⟨ends, noNext, -⟩ := joinWords_follow kind natural condition
    (right.tokens .source ++ (Piece.kinds (Canonical.ofCondition condition) ++
      .symbol .rightParen :: rest))
  simp only [List.cons_append, List.append_assoc, List.nil_append]
  rw [readable]
  refine parenthesizedTable_reads (by omega) fun start => ?_
  -- the left operand is read as a table, and the rest as a join of that table
  refine enclosedTable_reads (Rel.source_noQuery formed.2.2.2.1 _) noNext
    (reads.tablePrimary formed.2.2.2.1 (by omega) (by omega) ends) And.left
    fun leftHolds r same => ?_
  refine (reads.join same formed ?_ (by omega)).mono
    ⟨fun others => ⟨leftHolds, others⟩, And.right⟩ fun it isJoin => ?_
  · simp only [List.length_append]
    omega
  · rw [isJoin]
    simp [Rel.erase]

/-- A table or what stands in its place, as it is written before an alias. A relation that
has a name already is in parentheses there, and a level more is entered for it. -/
theorem tableFactor_reads (reads : phrases.ReadBack limit bound) {rel : Rel}
    (formed : rel.Formed .source) (fits : 2 * (rel.tokens .aliased).length ≤ bound)
    (room : depth + 2 * (Outline.ofRel rel).depth ≤ capOf limit + 1)
    (roomNamed : rel.isNamed = true → depth + 2 * (Outline.ofRel rel).depth ≤ capOf limit)
    (stops : lead rest ≠ .symbol .dot) :
    Reads limit (Outline.ofRel rel).Readable (tableFactor phrases) depth
      (rel.tokens .aliased ++ rest) (fun r => r.erase = rel.erase) depth rest := by
  have level := Outline.depth_ofRel rel
  cases rel with
  | table name span =>
    have text : (Rel.table name span).tokens .aliased = Piece.kinds (Piece.qualified name) := by
      simp [Rel.tokens, Canonical.ofRel, Canonical.Place.isSource]
    obtain ⟨part, others, isName⟩ := Piece.lead_qualified name rest
    rw [text]
    refine (atSign_no (by simp [isName])).step (.still here_still fun start => ?_)
    refine (qualifiedName_reads name stops).step (.still (spanFrom_still start) fun _ => ?_)
    refine .pure (Outline.readable_ofRel.mpr ?_) (by simp [Rel.erase])
    simp [Outline.belowRel, Outline.plain, Outline.readable_node, Node.isUnreadable]
  | query query =>
    rw [Rel.tokens_query query .aliased rfl] at fits ⊢
    simp only [List.length_cons, List.length_append] at fits
    simp only [Outline.belowRel, Outline.plain_query, Outline.depthAll_cons] at level
    simp only [List.cons_append, List.append_assoc, List.nil_append]
    have queryLevel := Outline.depth_ofQuery query
    have wraps : ¬ query.Wraps := by simpa using formed.2
    rw [Outline.readable_ofRel]
    simp only [Outline.belowRel, Outline.plain_query, Outline.allReadable_cons,
      Outline.allReadable_nil, and_true]
    exact parenthesizedTable_reads (by omega)
      (tableQuery_reads reads formed.1 wraps (by omega) (by omega))
  | named name columns relation span => exact enclosedNamed_reads reads formed fits (roomNamed rfl)
  | join kind natural condition left right span => exact enclosedJoin_reads reads formed fits room
  | select | values | setOp => simp [Rel.Formed] at formed

theorem tablePrimary_reads (reads : phrases.ReadBack limit bound) {rel : Rel}
    (formed : rel.Formed .source) (fits : 2 * (rel.tokens .source).length ≤ bound)
    (room : depth + 2 * (Outline.ofRel rel).depth ≤ capOf limit + 1) (ends : EndsSource rest) :
    Reads limit (Outline.ofRel rel).Readable (tablePrimary phrases) depth
      (rel.tokens .source ++ rest) (fun r => r.erase = rel.erase) depth rest := by
  refine .still here_still fun start => ?_
  cases named : rel.isNamed with
  | false =>
    rw [Rel.tokens_source formed named] at fits ⊢
    refine (tableFactor_reads reads formed fits room (by simp [named]) ends.dot).bind id
      fun holds r same => ?_
    exact (withAlias_none ends r start).mono ⟨fun _ => holds, fun _ => trivial⟩
      fun it isFound => by rw [isFound, same]
  | true =>
    cases rel with
    | named name columns relation span =>
      have level := Outline.depth_ofRel (.named name columns relation span)
      simp only [Outline.belowRel, Outline.plain_rel, Outline.depthAll_cons] at level
      rw [Rel.tokens_named] at fits ⊢
      simp only [List.length_append] at fits
      rw [List.append_assoc, Outline.readable_ofRel]
      simp only [Outline.belowRel, Outline.plain_rel, Outline.allReadable_cons,
        Outline.allReadable_nil, and_true]
      refine (tableFactor_reads reads formed.2.2.2 (by omega) (by omega) (fun _ => by omega)
        (by simp [aliasTokens])).bind id fun holds r same => ?_
      refine (withAlias_reads name columns r start ends.paren).mono
        ⟨fun _ => holds, fun _ => trivial⟩ fun it isNamed => ?_
      rw [isNamed, same]
      simp [Rel.erase]
    | _ => cases named

/-! ## Joins of two sources -/

theorem joinWords_nonempty (kind : JoinKind) (natural : Bool) (condition : JoinCondition) :
    0 < (Piece.kinds (Canonical.ofJoinWords kind natural condition)).length := by
  unfold Canonical.ofJoinWords
  split
  · simp
  · cases natural <;> cases kind <;> simp [JoinKind.words]

/-- The words of a join that is no cross join. -/
theorem kinds_ofJoinWords {kind : JoinKind} {natural : Bool} {condition : JoinCondition}
    (notCross : condition.isCross kind natural = false) :
    Piece.kinds (Canonical.ofJoinWords kind natural condition) =
      (if natural then [.keyword .NATURAL] else []) ++
        (kind.words.map .keyword ++ [.keyword .JOIN]) := by
  cases natural <;> simp [Canonical.ofJoinWords, notCross]

theorem lead_ofJoinWords_ne {kind : JoinKind} {natural : Bool} {condition : JoinCondition}
    (notCross : condition.isCross kind natural = false) (more : List Kind) :
    lead (Piece.kinds (Canonical.ofJoinWords kind natural condition) ++ more) ≠
      .keyword .CROSS := by
  rw [kinds_ofJoinWords notCross]
  cases natural <;> cases kind <;> simp [JoinKind.words]

theorem lead_words_ne (kind : JoinKind) (more : List Kind) :
    lead (kind.words.map Kind.keyword ++ more) ≠ .keyword .NATURAL := by
  cases kind <;> simp [JoinKind.words]

/-- What follows the right operand of a join. -/
theorem condition_follows (condition : JoinCondition) (more : List Kind) :
    EndsSource (Piece.kinds (Canonical.ofCondition condition) ++ .symbol .rightParen :: more) ∧
      isJoinStart (lead (Piece.kinds (Canonical.ofCondition condition) ++
        .symbol .rightParen :: more)) = false := by
  cases condition <;> exact ⟨⟨by simp [Canonical.ofCondition], by simp [Canonical.ofCondition],
    by simp [Canonical.ofCondition], rfl⟩, rfl⟩

section

variable {kind : JoinKind} {natural : Bool} {condition : JoinCondition} {span : Span}
  {found left right : Rel}

/-- One join, within the level that it counts. -/
theorem join_reads (reads : phrases.ReadBack limit bound) (same : found.erase = left.erase)
    (formed : (Rel.join kind natural condition left right span).Formed .source)
    (fits : 2 * (Piece.kinds (Canonical.ofJoinWords kind natural condition) ++
      (right.tokens .source ++ Piece.kinds (Canonical.ofCondition condition))).length ≤ bound)
    (room : depth + 2 * (Outline.ofRel (.join kind natural condition left right span)).depth
      ≤ capOf limit + 3) :
    Reads limit
      ((Outline.ofRel right).Readable ∧ Outline.AllReadable (Outline.belowCondition condition))
      (join phrases found) depth
      (Piece.kinds (Canonical.ofJoinWords kind natural condition) ++
        (right.tokens .source ++ (Piece.kinds (Canonical.ofCondition condition) ++
          .symbol .rightParen :: rest)))
      (fun r => r.erase = .join kind natural condition.erase left.erase right.erase default)
      depth (.symbol .rightParen :: rest) := by
  obtain ⟨-, suits, conditionFormed, -, rightFormed⟩ := formed
  rw [Outline.depth_ofRel] at room
  simp only [Outline.belowRel, Outline.plain_rel, Outline.depthAll_cons, Outline.depth_plain,
    Outline.depthAll_append, Node.isLevel] at room
  simp only [List.length_append] at fits
  have nonempty := joinWords_nonempty kind natural condition
  obtain ⟨ends, noJoin⟩ := condition_follows condition rest
  have operand : Reads limit (Outline.ofRel right).Readable (tablePrimary phrases) depth
      (right.tokens .source ++ (Piece.kinds (Canonical.ofCondition condition) ++
        .symbol .rightParen :: rest)) (fun r => r.erase = right.erase) depth
      (Piece.kinds (Canonical.ofCondition condition) ++ .symbol .rightParen :: rest) :=
    tablePrimary_reads reads rightFormed (by omega) (by omega) ends
  have absent : condition = .absent → Outline.AllReadable (Outline.belowCondition condition) := by
    rintro rfl
    simp [Outline.belowCondition]
  -- only a cross join has a word in front of all others, and it has no condition
  cases cross : condition.isCross kind natural with
  | true =>
    obtain ⟨rfl, rfl, rfl⟩ : condition = .absent ∧ kind = .inner ∧ natural = false := by
      cases condition with
      | absent => simpa [JoinCondition.isCross] using cross
      | _ => cases cross
    refine (takeWord_yes .CROSS).step ((expectWord_reads .JOIN).step ?_)
    refine operand.bind And.left fun holds r sameRight => .still (spanFrom_still _) fun _ => ?_
    exact .pure ⟨holds, absent rfl⟩ (by simp [Rel.erase, JoinCondition.erase, same, sameRight])
  | false =>
    refine (takeWord_no (lead_ofJoinWords_ne cross _)).step ?_
    rw [kinds_ofJoinWords cross]
    simp only [List.append_assoc, List.cons_append, List.nil_append]
    refine (takeNatural_reads natural (lead_words_ne kind _)).step ((joinKind_reads kind).step ?_)
    refine operand.bind And.left fun holds r sameRight => ?_
    cases natural with
    | true =>
      obtain rfl : condition = .absent := by
        cases condition with
        | absent => rfl
        | _ => cases suits
      refine .still (spanFrom_still _) fun _ => .pure ⟨holds, absent rfl⟩ ?_
      simp [Rel.erase, JoinCondition.erase, same, sameRight]
    | false =>
      have present : condition ≠ .absent := by
        rintro rfl
        rcases suits with isNatural | rfl
        · cases isNatural
        · cases cross
      refine (reads.noJoin (by omega) noJoin).step ?_
      refine (joinCondition_reads reads present conditionFormed (by omega) (by omega)).bind
        And.right fun conditionHolds it sameCondition => ?_
      refine .still (spanFrom_still _) fun _ => .pure ⟨holds, conditionHolds⟩ ?_
      simp [Rel.erase, same, sameRight, sameCondition]

/-- One join, after which the closing parenthesis follows. -/
theorem joins_reads (reads : phrases.ReadBack limit bound) (same : found.erase = left.erase)
    (formed : (Rel.join kind natural condition left right span).Formed .source)
    (fits : 2 * (Piece.kinds (Canonical.ofJoinWords kind natural condition) ++
      (right.tokens .source ++ Piece.kinds (Canonical.ofCondition condition))).length ≤ bound)
    (room : depth + 2 * (Outline.ofRel (.join kind natural condition left right span)).depth
      ≤ capOf limit + 2) :
    Reads limit
      ((Outline.ofRel right).Readable ∧ Outline.AllReadable (Outline.belowCondition condition))
      (joins phrases found) depth
      (Piece.kinds (Canonical.ofJoinWords kind natural condition) ++
        (right.tokens .source ++ (Piece.kinds (Canonical.ofCondition condition) ++
          .symbol .rightParen :: rest)))
      (fun r => r.erase = .join kind natural condition.erase left.erase right.erase default)
      depth (.symbol .rightParen :: rest) := by
  have level := Outline.depth_ofRel (.join kind natural condition left right span)
  have leftLevel := Outline.depth_ofRel left
  simp only [Outline.belowRel, Outline.plain_rel, Outline.depthAll_cons, Outline.depth_plain,
    Outline.depthAll_append, Node.isLevel, List.cons_append] at level
  obtain ⟨-, -, starts⟩ := joinWords_follow kind natural condition
    (right.tokens .source ++ (Piece.kinds (Canonical.ofCondition condition) ++
      .symbol .rightParen :: rest))
  have round : Reads limit
      ((Outline.ofRel right).Readable ∧ Outline.AllReadable (Outline.belowCondition condition))
      (joinStep phrases (found, 0)) depth
      (Piece.kinds (Canonical.ofJoinWords kind natural condition) ++
        (right.tokens .source ++ (Piece.kinds (Canonical.ofCondition condition) ++
          .symbol .rightParen :: rest)))
      (fun next => ∃ done, next = some done ∧ done.2 = 1 ∧ done.1.erase =
        .join kind natural condition.erase left.erase right.erase default)
      (depth + 1) (.symbol .rightParen :: rest) := by
    refine startsJoin_looks.reads.step ?_
    rw [starts]
    refine (enter_reads (by omega)).step ?_
    exact (join_reads reads same formed fits (by omega)).bind id
      fun holds r isJoin => .pure holds ⟨_, rfl, rfl, isJoin⟩
  have nonempty := joinWords_nonempty kind natural condition
  have rounds : Loops limit
      ((Outline.ofRel right).Readable ∧ Outline.AllReadable (Outline.belowCondition condition))
      (joinStep phrases) (found, 0) depth
      (Piece.kinds (Canonical.ofJoinWords kind natural condition) ++
        (right.tokens .source ++ (Piece.kinds (Canonical.ofCondition condition) ++
          .symbol .rightParen :: rest)))
      (fun done => done.2 = 1 ∧ done.1.erase =
        .join kind natural condition.erase left.erase right.erase default)
      (depth + 1) (.symbol .rightParen :: rest) := by
    -- the closing parenthesis ends the loop in the second round
    refine .next round id ?_ fun holds done isDone =>
      .stop (joinStep_none rfl done) holds isDone
    simp only [List.length_append, List.length_cons]
    omega
  refine rounds.loop.bind id fun holds done isDone => ?_
  obtain ⟨joined, levels⟩ := done
  obtain ⟨rfl, isJoin⟩ := isDone
  exact (leave_reads 1).step (.pure holds isJoin)

end

/-! ## The clause -/

theorem source_reads (reads : phrases.ReadBack limit bound) {rel : Rel}
    (formed : rel.Formed .source) (fits : 2 * (rel.tokens .source).length ≤ bound)
    (room : depth + 2 * (Outline.ofRel rel).depth ≤ capOf limit + 1) (ends : EndsSource rest)
    (noJoin : isJoinStart (lead rest) = false) :
    Reads limit (Outline.ofRel rel).Readable (source phrases) depth
      (rel.tokens .source ++ rest) (fun r => r.erase = rel.erase) depth rest := by
  refine (tablePrimary_reads reads formed fits room ends).bind id fun holds r same => ?_
  exact (noJoin_reads r noJoin).mono ⟨fun _ => holds, fun _ => trivial⟩
    fun it isFound => by rw [isFound, same]

end Parse

end CanonicalSql
