import CanonicalSql.Proofs.Elsewhere.Statement
import CanonicalSql.Proofs.Precedence

/-!
# One query in all its places

A query that begins with a parenthesis is read in four ways. Where a query is expected, its first
operand is read as an operand. In an expression and after `IN` the operand is read as a subquery of
its own, and in `FROM` as a table, and the query is taken up again behind it. All of them come to
the same query (`Statement.parse_queryPlace`), unless there is nothing to take up: then the
parentheses are those of another subquery or table.

The operand may itself begin with a parenthesis. Whether it is a subquery of its own or not makes
no difference to what it is as an operand, which is what the induction on the levels of recursion
carries (`Parse.inParentheses_operand`, `Parse.enclosedTable_operand`).
-/
namespace CanonicalSql

namespace Parse

variable {row mid left rest others : List Kind} {query : Query} {levels more limit depth : Nat}

/-! ## Queries that go on behind their first operand -/

/-- A whole query in parentheses. -/
def enclosedQuery : Parse Query := do parenthesized (← Phrases.forState).query

/-- What a query reads behind its first operand. -/
def further (phrases : Phrases) (first : Rel) (start : Span) : Parse Query := do
  let body ← setOperations phrases first 0
  queryTail phrases none body start

/-- A query that is taken up again reads what it reads behind its first operand. -/
theorem further_repeats {first : Rel} {found : Query} {start start' : Span}
    (same : found.operand.erase = first.erase) (enough : levels + 1 ≤ more) :
    Repeats rest (Past 10 rest) (2 * row.length) (Keyed Query.erase)
      (further (Phrases.within levels) first start)
      (reopened (Phrases.within more) found start') row := by
  obtain ⟨more, rfl⟩ : ∃ fewer, more = fewer + 1 := ⟨more - 1, by omega⟩
  refine .bind (setOperations_repeats (Phrases.within_repeats (by omega) rest)
    (Phrases.within_shuns levels) 0 same row) ?_ fun body body' left same₁ few => ?_
  · exact fun past => Past.closesBody (past.mono (by omega)) 0
  · exact (queryTail_repeats (Phrases.within_repeats (by omega) rest) (Phrases.within_shuns levels) rfl
      same₁ left).within id (by omega)

/-- Behind its first operand a query goes on, or it is no more than the operand. -/
theorem Gives.further_cases {phrases : Phrases} {first : Rel} {start : Span}
    (gives : Gives (further phrases first start) mid query left) :
    isQueryNext (lead mid) = true ∨ mid = left ∧ ∃ span, query = bareQuery first span := by
  cases next : isQueryNext (lead mid) with
  | true => exact .inl rfl
  | false =>
    have other {word : Keyword} (goesOn : isQueryNext (.keyword word) = true) :
        lead mid ≠ .keyword word := by
      intro isWord
      rw [isWord, goesOn] at next
      cases next
    -- each operator and each clause begins with one of the tokens that are excluded
    have noOperator : SetOperator.ofKind? (lead mid) = none := by
      unfold SetOperator.ofKind?
      split
      · next isUnion => exact absurd isUnion (other rfl)
      · next isExcept => exact absurd isExcept (other rfl)
      · next isIntersect => exact absurd isIntersect (other rfl)
      · rfl
    have nothing (limit depth : Nat) : Reads limit True (further phrases first start) depth mid
        (fun q => ∃ span, q = bareQuery first span) depth mid := by
      refine (noSetOperation_reads noOperator first).step ?_
      rw [queryTail_eq]
      refine (noClauses_reads (other rfl) (other rfl) (other rfl)).step ?_
      exact .still (spanFrom_still start) fun span => .pure trivial ⟨span, rfl⟩
    obtain ⟨isBare, isLeft⟩ := gives.of_reads nothing
    exact .inr ⟨isLeft, isBare⟩

/-- The row begins with a query whose first operand is in parentheses and ends in front of `mid`. -/
inductive BeginsEnclosed : (levels : Nat) → (row : List Kind) → Query → (mid left : List Kind) → Prop
  | intro {levels : Nat} {inner mid left : List Kind} {first query : Query} {start : Span}
    (operand : Gives (Phrases.within levels).query inner first (.symbol .rightParen :: mid))
    (others : Gives (further (Phrases.within levels) first.operand start) mid query left) :
    BeginsEnclosed (levels + 1) (.symbol .leftParen :: inner) query mid left

/-- An operand of set operations that begins with a parenthesis is a query up to the closing one. -/
theorem Gives.queryPrimary_enclosed {rel : Rel}
    (gives : Gives (queryPrimary (Phrases.within levels)) row rel mid)
    (isParen : lead row = .symbol .leftParen) :
    ∃ inner first, row = .symbol .leftParen :: inner ∧ rel = first.operand ∧
      Gives (Phrases.within levels).query inner first (.symbol .rightParen :: mid) := by
  have gives := gives.step fun _ _ => kind_reads
  rw [isParen] at gives
  obtain ⟨first, rfl, enclosed⟩ := gives.map
  obtain ⟨inner, rfl, opened⟩ := enclosed.expectSign
  obtain ⟨first', behind, operand, closing⟩ := opened.split
    ((Phrases.within_repeats (Nat.le_refl levels) []).query inner)
  obtain ⟨behind, rfl, closed⟩ := closing.expectSign
  obtain ⟨rfl, rfl⟩ := closed.pure
  exact ⟨inner, first, rfl, rfl, operand⟩

/-- A query begins with a word of its own or with an operand in parentheses. -/
theorem Gives.query_cases (gives : Gives (Phrases.within levels).query row query left) :
    isQueryStart (lead row) = true ∨ ∃ mid, BeginsEnclosed levels row query mid left := by
  cases starts : isQueryStart (lead row) with
  | true => exact .inl rfl
  | false =>
    refine .inr ?_
    cases levels with
    | zero =>
      obtain ⟨s, t, -, -, run⟩ := gives
      cases run
    | succ levels =>
      -- without `WITH` the query begins with an operand, and of the operands only one is left
      have body : Gives (queryBody (Phrases.within levels)) row query left := gives.nested
      obtain ⟨start, body⟩ := body.still here_still
      -- `WITH` would be the start of a query
      have noWith : lead row ≠ .keyword .WITH := by
        intro isWith
        rw [isWith] at starts
        cases starts
      have body := body.step fun _ _ => noWith_reads noWith
      obtain ⟨rel, mid, first, others⟩ := body.split
        (queryPrimary_repeats (Phrases.within_repeats (Nat.le_refl levels) [])
          (Phrases.within_shuns levels) row)
      have isParen : lead row = .symbol .leftParen := by
        have first := first.step fun _ _ => kind_reads
        split at first
        · next isSelect => simp [isSelect, isQueryStart] at starts
        · next isValues => simp [isValues, isQueryStart] at starts
        · next isTable => simp [isTable, isQueryStart] at starts
        · next isParen => exact isParen
        · obtain ⟨s, t, -, -, run⟩ := first
          cases run
      obtain ⟨inner, found, rfl, rfl, operand⟩ := first.queryPrimary_enclosed isParen
      exact ⟨_, operand, others⟩

/-! ## The same query in parentheses -/

/-- What a query has left and what follows it are a closing parenthesis and the tokens behind. -/
structure Closing (left rest behind : List Kind) : Prop where
  closes : left ++ rest = .symbol .rightParen :: behind
  noPredicate : isNegatable (lead rest) = false
  apart : isJoint (lead rest) = false

namespace Closing

variable {behind : List Kind}

theorem past (closing : Closing left rest behind) (isEnd : left = []) : Past 10 rest := by
  have closes := closing.closes
  rw [isEnd, List.nil_append] at closes
  exact closes ▸ Past.close behind

/-- A query is read alike with no fewer levels of recursion, and before what closes it. -/
theorem reads_query (closing : Closing left rest behind)
    (gives : Gives (Phrases.within levels).query row query left) (enough : levels ≤ more)
    (room : depth + 2 * row.length + 1 ≤ capOf limit) :
    Reads limit True (Phrases.within more).query depth (row ++ rest)
      (fun found => found.erase = query.erase) depth (.symbol .rightParen :: behind) := by
  have taken := gives.reads ((Phrases.within_repeats enough rest).query row) closing.past
    closing.noPredicate closing.apart room
  rwa [closing.closes] at taken

/-- A query that is taken up again behind its first operand is read up to what closes it. -/
theorem reads_reopened (closing : Closing left rest behind) {first found : Query} {start : Span}
    (gives : Gives (further (Phrases.within levels) first.operand start) mid query left)
    (same : found.operand.erase = first.operand.erase) (enough : levels + 1 ≤ more)
    (room : depth + 2 * mid.length ≤ capOf limit) (start' : Span) :
    Reads limit True (reopened (Phrases.within more) found start') depth (mid ++ rest)
      (fun found => found.erase = query.erase) depth (.symbol .rightParen :: behind) := by
  have again : Repeats rest (Past 10 rest) (2 * mid.length) (Keyed Query.erase)
      (further (Phrases.within levels) first.operand start)
      (reopened (Phrases.within more) found start') mid := further_repeats same enough
  have taken := gives.reads again closing.past closing.noPredicate closing.apart room
  rwa [closing.closes] at taken

end Closing

theorem operand_of_erase {found : Query} (same : found.erase = query.erase) :
    found.operand.erase = query.operand.erase := by
  rw [Query.operand_erase, same, ← Query.operand_erase]

/-- No more tokens are left behind an operand than there are in it. -/
theorem Gives.operand_length {inner : List Kind} {first : Query}
    (operand : Gives (Phrases.within levels).query inner first (.symbol .rightParen :: mid)) :
    mid.length < inner.length := by
  have shorter := (operand.suffix ((Phrases.within_repeats (Nat.le_refl levels) []).query _)).length_le
  simpa using shorter

/-! ## Subqueries -/

/-- The expression is a subquery with the property. -/
def IsSubquery (good : Query → Prop) (expr : Expr) : Prop :=
  ∃ found span, expr = .subquery found span ∧ good found

theorem IsSubquery.mono {good better : Query → Prop} {expr : Expr} (given : IsSubquery good expr)
    (weaker : ∀ found, good found → better found) : IsSubquery better expr := by
  obtain ⟨found, span, rfl, isGood⟩ := given
  exact ⟨found, span, rfl, weaker found isGood⟩

/-- An expression that is one pair of parentheses. -/
theorem enclosed_expression {good : Expr → Prop} (room : depth < capOf limit)
    (inside : Reads limit True (inParentheses (Phrases.within more)) (depth + 1)
      (.symbol .leftParen :: row) good (depth + 1) mid)
    (quiet : (lead mid).isQuiet = true) :
    Reads limit True (Phrases.within (more + 1)).expression depth (.symbol .leftParen :: row) good
      depth mid := by
  refine .nested room (.still here_still fun start => ?_)
  have first : Reads limit True (leading (Phrases.within more)) (depth + 1)
      (.symbol .leftParen :: row) good (depth + 1) mid :=
    .still here_still fun _ => kind_reads.step (.still here_still fun _ => kind_reads.step inside)
  refine first.after fun expr isGood => ?_
  have ends : Ends 0 mid := .of_quiet quiet
  exact (operators_none ends.power expr start).weaken fun _ same => same ▸ isGood

/-- A query that begins with a word is a subquery in parentheses. -/
theorem inParentheses_plain {behind : List Kind} (starts : isQueryStart (lead row) = true)
    (gives : Gives (Phrases.within levels).query row query left) (closing : Closing left rest behind)
    (enough : levels ≤ more) (room : depth + 2 * row.length + 1 ≤ capOf limit) :
    Reads limit True (inParentheses (Phrases.within more)) depth
      (.symbol .leftParen :: (row ++ rest)) (IsSubquery fun found => found.erase = query.erase) depth
      behind := by
  have starts : isQueryStart (lead (row ++ rest)) = true := by
    rwa [lead_append_of_ne_nil (by rintro rfl; cases starts)]
  refine .still here_still fun start => (expectSign_reads _).step ((startsQuery_yes starts).step ?_)
  refine (closing.reads_query gives enough room).after fun found same => (expectSign_reads _).step ?_
  exact .still (spanFrom_still start) fun span => .pure trivial ⟨found, span, rfl, same⟩

/-- With so many levels of recursion, what is read as a query is read in parentheses as a subquery
that is the same as an operand. -/
def ReadsSubquery (levels : Nat) : Prop :=
  ∀ {row left rest behind : List Kind} {query : Query} {more limit depth : Nat},
    Gives (Phrases.within levels).query row query left → Closing left rest behind → levels ≤ more →
    depth + 2 * row.length + 1 ≤ capOf limit →
    Reads limit True (inParentheses (Phrases.within more)) depth
      (.symbol .leftParen :: (row ++ rest))
      (IsSubquery fun found => found.operand.erase = query.operand.erase) depth behind

/-- The operand in parentheses is an expression of its own. -/
theorem ReadsSubquery.expression {inner : List Kind} {first : Query} (given : ReadsSubquery levels)
    (operand : Gives (Phrases.within levels).query inner first (.symbol .rightParen :: mid))
    (noPredicate : isNegatable (lead rest) = false) (apart : isJoint (lead rest) = false)
    (enough : levels + 1 ≤ more) (room : depth + 2 * (inner.length + 1) + 1 ≤ capOf limit)
    (quiet : (lead (mid ++ rest)).isQuiet = true) :
    Reads limit True (Phrases.within more).expression depth
      (.symbol .leftParen :: (inner ++ rest))
      (IsSubquery fun found => found.operand.erase = first.operand.erase) depth (mid ++ rest) := by
  obtain ⟨more, rfl⟩ : ∃ fewer, more = fewer + 1 := ⟨more - 1, by omega⟩
  have closes : Closing (.symbol .rightParen :: mid) rest (mid ++ rest) := ⟨rfl, noPredicate, apart⟩
  exact enclosed_expression (by omega) (given operand closes (by omega) (by omega)) quiet

/-- A query that goes on behind an operand in parentheses is a subquery in parentheses. -/
theorem inParentheses_longer {behind : List Kind} (below : ∀ fewer < levels, ReadsSubquery fewer)
    (begins : BeginsEnclosed levels row query mid left) (next : isQueryNext (lead mid) = true)
    (closing : Closing left rest behind) (enough : levels ≤ more)
    (room : depth + 2 * row.length + 1 ≤ capOf limit) :
    Reads limit True (inParentheses (Phrases.within more)) depth
      (.symbol .leftParen :: (row ++ rest)) (IsSubquery fun found => found.erase = query.erase) depth
      behind := by
  obtain @⟨levels, inner, mid, left, first, query, begin, operand, others⟩ := begins
  have next : isQueryNext (lead (mid ++ rest)) = true := by
    rwa [lead_append_of_ne_nil (by rintro rfl; cases next)]
  have few := operand.operand_length
  rw [List.length_cons] at room
  refine .still here_still fun start => (expectSign_reads _).step ((startsQuery_no rfl).step ?_)
  refine (ReadsSubquery.expression (below levels (by omega)) operand closing.noPredicate
    closing.apart enough room (Kind.isQuiet_of_isQueryNext next)).after fun expr isSubquery => ?_
  obtain ⟨found, span, rfl, same⟩ := isSubquery
  refine (continuesQuery_yes next).step ?_
  refine (closing.reads_reopened others same enough (by omega) start).after fun longer same' => ?_
  refine (expectSign_reads _).step (.still (spanFrom_still start) fun span => ?_)
  exact .pure trivial ⟨longer, span, rfl, same'⟩

/-- What is read as a query is read in parentheses as a subquery that is the same as an operand:
the query, or another one that it is in parentheses. -/
theorem inParentheses_operand (levels : Nat) : ReadsSubquery levels := by
  induction levels using Nat.strong_induction_on with
  | _ levels below =>
    intro row left rest behind query more limit depth gives closing enough room
    rcases gives.query_cases with starts | ⟨mid, begins⟩
    · exact (inParentheses_plain starts gives closing enough room).weaken
        fun _ isSubquery => isSubquery.mono fun _ => operand_of_erase
    by_cases next : isQueryNext (lead mid) = true
    · exact (inParentheses_longer below begins next closing enough room).weaken
        fun _ isSubquery => isSubquery.mono fun _ => operand_of_erase
    -- Nothing follows the operand, which is therefore the subquery that is found.
    · obtain @⟨levels, inner, mid, left, first, query, begin, operand, others⟩ := begins
      obtain ⟨rfl, span, rfl⟩ := others.further_cases.resolve_left next
      rw [List.length_cons] at room
      refine .still here_still fun start => (expectSign_reads _).step ((startsQuery_no rfl).step ?_)
      refine (ReadsSubquery.expression (below levels (by omega)) operand closing.noPredicate
        closing.apart enough room ?_).after fun expr isSubquery => ?_
      · rw [closing.closes]
        rfl
      obtain ⟨found, span, rfl, same⟩ := isSubquery
      rw [closing.closes]
      refine (continuesQuery_no rfl).step ((atSign_no (by simp)).step ((expectSign_reads _).step ?_))
      exact .pure trivial ⟨found, span, rfl, same⟩

/-! ## The rows of `IN` -/

/-- A query that goes on behind an operand in parentheses is read after `IN (`. -/
theorem inRows_longer {behind : List Kind} (begins : BeginsEnclosed levels row query mid left)
    (next : isQueryNext (lead mid) = true) (closing : Closing left rest behind)
    (enough : levels ≤ more) (room : depth + 2 * row.length + 1 ≤ capOf limit) (opening : Span) :
    Reads limit True (inRows (Phrases.within more) opening) depth (row ++ rest)
      (fun rel => rel.erase = (Rel.query query).erase) depth (.symbol .rightParen :: behind) := by
  obtain @⟨levels, inner, mid, left, first, query, begin, operand, others⟩ := begins
  have next : isQueryNext (lead (mid ++ rest)) = true := by
    rwa [lead_append_of_ne_nil (by rintro rfl; cases next)]
  have few := operand.operand_length
  rw [List.length_cons] at room
  refine (startsQuery_no rfl).step (.still here_still fun start => ?_)
  have one := (ReadsSubquery.expression (inParentheses_operand levels) operand closing.noPredicate
    closing.apart enough room (Kind.isQuiet_of_isQueryNext next)).single
      (Kind.ne_of_isQueryNext next rfl)
  refine one.after fun values isOne => ?_
  obtain ⟨_, rfl, found, span, rfl, same⟩ := isOne
  refine (continuesQuery_yes next).step ?_
  refine (closing.reads_reopened others same enough (by omega) start).after fun longer same' => ?_
  exact .pure trivial (by rw [Rel.erase, Rel.erase, same'])

/-! ## Tables -/

/-- The relation is a query with the property. -/
def IsQuery (good : Query → Prop) (rel : Rel) : Prop := ∃ found, rel = .query found ∧ good found

theorem IsQuery.mono {good better : Query → Prop} {rel : Rel} (given : IsQuery good rel)
    (weaker : ∀ found, good found → better found) : IsQuery better rel := by
  obtain ⟨found, rfl, isGood⟩ := given
  exact ⟨found, rfl, weaker found isGood⟩

/-- A query that begins with a word is a table in parentheses. -/
theorem enclosedTable_plain {behind : List Kind} (starts : isQueryStart (lead row) = true)
    (gives : Gives (Phrases.within levels).query row query left) (closing : Closing left rest behind)
    (enough : levels ≤ more) (room : depth + 2 * row.length + 1 ≤ capOf limit) (start : Span) :
    Reads limit True (enclosedTable (Phrases.within more) start) depth (row ++ rest)
      (IsQuery fun found => found.erase = query.erase) depth (.symbol .rightParen :: behind) := by
  have starts : isQueryStart (lead (row ++ rest)) = true := by
    rwa [lead_append_of_ne_nil (by rintro rfl; cases starts)]
  refine (startsQuery_yes starts).step ?_
  exact (closing.reads_query gives enough room).after fun found same => .pure trivial ⟨found, rfl, same⟩

/-- With so many levels of recursion, what is read as a query is read in the place of a table as a
query that is the same as an operand. -/
def ReadsTableQuery (levels : Nat) : Prop :=
  ∀ {row left rest behind : List Kind} {query : Query} {more limit depth : Nat} {start : Span},
    Gives (Phrases.within levels).query row query left → Closing left rest behind → levels ≤ more →
    depth + 2 * row.length + 1 ≤ capOf limit →
    Reads limit True (enclosedTable (Phrases.within more) start) depth (row ++ rest)
      (IsQuery fun found => found.operand.erase = query.operand.erase) depth
      (.symbol .rightParen :: behind)

/-- The operand in parentheses is a table of its own. -/
theorem ReadsTableQuery.tablePrimary {inner : List Kind} {first : Query}
    (given : ReadsTableQuery levels)
    (operand : Gives (Phrases.within levels).query inner first (.symbol .rightParen :: mid))
    (noPredicate : isNegatable (lead rest) = false) (apart : isJoint (lead rest) = false)
    (enough : levels + 1 ≤ more) (room : depth + 2 * (inner.length + 1) + 1 ≤ capOf limit)
    (ends : EndsSource (mid ++ rest)) :
    Reads limit True (Phrases.within more).tablePrimary depth
      (.symbol .leftParen :: (inner ++ rest))
      (IsQuery fun found => found.operand.erase = first.operand.erase) depth (mid ++ rest) := by
  obtain ⟨more, rfl⟩ : ∃ fewer, more = fewer + 1 := ⟨more - 1, by omega⟩
  have closes : Closing (.symbol .rightParen :: mid) rest (mid ++ rest) := ⟨rfl, noPredicate, apart⟩
  refine .still here_still fun start => ?_
  refine (parenthesizedTable_reads (by omega) fun start => given operand closes (by omega)
    (by omega)).after fun rel isQuery => ?_
  exact (withAlias_none ends rel start).weaken fun _ same => same ▸ isQuery

/-- A query that goes on behind an operand in parentheses is a table in parentheses. -/
theorem enclosedTable_longer {behind : List Kind} (below : ∀ fewer < levels, ReadsTableQuery fewer)
    (begins : BeginsEnclosed levels row query mid left) (next : isQueryNext (lead mid) = true)
    (closing : Closing left rest behind) (enough : levels ≤ more)
    (room : depth + 2 * row.length + 1 ≤ capOf limit) (start : Span) :
    Reads limit True (enclosedTable (Phrases.within more) start) depth (row ++ rest)
      (IsQuery fun found => found.erase = query.erase) depth (.symbol .rightParen :: behind) := by
  obtain @⟨levels, inner, mid, left, first, query, begin, operand, others⟩ := begins
  have next : isQueryNext (lead (mid ++ rest)) = true := by
    rwa [lead_append_of_ne_nil (by rintro rfl; cases next)]
  have few := operand.operand_length
  rw [List.length_cons] at room
  refine (startsQuery_no rfl).step ((atSign_yes rfl).step ?_)
  refine (ReadsTableQuery.tablePrimary (below levels (by omega)) operand closing.noPredicate
    closing.apart enough room (.of_isQueryNext next)).after fun rel isQuery => ?_
  obtain ⟨found, rfl, same⟩ := isQuery
  refine (continuesQuery_yes next).step ?_
  rw [if_pos rfl, longerTableQuery_eq]
  exact (closing.reads_reopened others same enough (by omega) start).after
    fun longer same' => .pure trivial ⟨longer, rfl, same'⟩

/-- What is read as a query is read in the place of a table as a query that is the same as an
operand: the query, or another one that it is in parentheses. -/
theorem enclosedTable_operand (levels : Nat) : ReadsTableQuery levels := by
  induction levels using Nat.strong_induction_on with
  | _ levels below =>
    intro row left rest behind query more limit depth start gives closing enough room
    rcases gives.query_cases with starts | ⟨mid, begins⟩
    · exact (enclosedTable_plain starts gives closing enough room start).weaken
        fun _ isQuery => isQuery.mono fun _ => operand_of_erase
    by_cases next : isQueryNext (lead mid) = true
    · exact (enclosedTable_longer below begins next closing enough room start).weaken
        fun _ isQuery => isQuery.mono fun _ => operand_of_erase
    -- Nothing follows the operand, which is therefore the table that is found.
    · obtain @⟨levels, inner, mid, left, first, query, begin, operand, others⟩ := begins
      obtain ⟨rfl, span, rfl⟩ := others.further_cases.resolve_left next
      rw [List.length_cons] at room
      obtain ⟨more, rfl⟩ : ∃ fewer, more = fewer + 1 := ⟨more - 1, by omega⟩
      refine (startsQuery_no rfl).step ((atSign_yes rfl).step ?_)
      refine (ReadsTableQuery.tablePrimary (below levels (by omega)) operand closing.noPredicate
        closing.apart enough room ?_).after fun rel isQuery => ?_
      · rw [closing.closes]
        exact .of_past (Past.close behind)
      rw [closing.closes]
      refine (continuesQuery_no rfl).step ?_
      exact (noJoin_reads rel rfl).weaken fun _ same => same ▸ isQuery

/-! ## A query of its own -/

/-- The row is a query that is not just another one in parentheses. -/
inductive Unwrapped (levels : Nat) (row : List Kind) (query : Query) : Prop
  | plain (starts : isQueryStart (lead row) = true)
    (gives : Gives (Phrases.within levels).query row query [])
  | longer {mid : List Kind} (begins : BeginsEnclosed levels row query mid [])
    (next : isQueryNext (lead mid) = true)

/-- A query behind whose first operand nothing follows is another one in parentheses. -/
theorem unwrapped_of_takes {text : String} (splits : Scan.Splits text.toList row)
    (takes : Takes wholeQuery row query) (room : 2 * row.length + 1 ≤ capOf limit)
    (unwrapped : ∀ found, ¬ Accepts enclosedQuery text found) :
    Unwrapped (8 * row.length + 16) row query := by
  have gives : Gives (Phrases.within (8 * row.length + 16)).query row query [] := Gives.forState takes
  rcases gives.query_cases with starts | ⟨mid, begins⟩
  · exact .plain starts gives
  by_cases next : isQueryNext (lead mid) = true
  · exact .longer begins next
  exfalso
  -- nothing goes on behind the operand, so the whole is a query in parentheses after all
  generalize isBound : 8 * row.length + 16 = bound at begins
  obtain @⟨fewer, inner, mid, left, first, query, begin, operand, others⟩ := begins
  obtain ⟨rfl, -⟩ := others.further_cases.resolve_left next
  rw [List.length_cons] at isBound room
  have inside : Reads limit True (Phrases.within (8 * (inner.length + 1) + 16)).query 0 (inner ++ [])
      (Keyed Query.erase first) 0 [.symbol .rightParen] :=
    operand.reads ((Phrases.within_repeats (by omega) []).query inner) (by simp) rfl rfl (by omega)
  rw [List.append_nil] at inside
  have whole : Reads limit True enclosedQuery 0 (.symbol .leftParen :: inner)
      (Keyed Query.erase first) 0 [] := by
    refine .forState ?_
    exact inside.parenthesized
  obtain ⟨start, found, last, begins, run, -, shows⟩ := whole.ofText splits
  exact unwrapped found ⟨limit, start, last, begins, run, shows.current⟩

/-- What is accepted within some limit is accepted within each that leaves room for it. -/
theorem Accepts.alone? {α β : Type} {text : String} {a : α} {ends : Prop} {need : Nat}
    {same : α → β → Prop} {p : Parse α} {q : Parse β} (accepts : Accepts p text a)
    (spaced : (Scan.spaced? (text.length + 1) text.toList).isSome = true)
    (given : Repeats [] ends need same p q (Lexer.kindsOf text)) (holds : ends)
    (room : need ≤ capOf limit) : (Parse.alone? q limit text).isSome = true := by
  obtain ⟨kinds, isSpaced⟩ := Option.isSome_iff_exists.mp spaced
  have splits := (Scan.spaced_of_spaced? _ isSpaced).splits
  rw [Lexer.kindsOf_eq splits] at given
  have taken := (accepts.takes splits given).reads given (fun _ => holds) rfl rfl
    (show 0 + need ≤ capOf limit by omega)
  rw [List.append_nil] at taken
  obtain ⟨start, b, last, begins, run, -, shows⟩ := taken.ofText splits
  have isEnd : last.current.kind = .endOfInput := shows.current
  simp [Parse.alone?, spaced, begins, run, isEnd]

theorem enclosedQuery_again :
    Repeats rest True (2 * row.length + 1) (Keyed Query.erase) enclosedQuery enclosedQuery row := by
  refine .again fun more enough => parenthesized_repeats fun left isRow => ?_
  refine ((Phrases.within_repeats enough rest).query left).within False.elim ?_
  rw [isRow, List.length_cons]
  omega

namespace Unwrapped

/-- A scalar subquery. -/
theorem subquery (given : Unwrapped (8 * row.length + 16) row query) (span : Span) :
    (Expr.subquery query span).ReadsPrimary
      (.symbol .leftParen :: (row ++ [.symbol .rightParen])) where
  nonempty := by simp
  opens := rfl
  noPrefix := rfl
  reads {limit depth more rest} enough room _ _ := by
    simp only [List.length_append, List.length_cons, List.length_nil] at enough room
    simp only [List.cons_append, List.append_assoc, List.nil_append]
    have closing : Closing [] (.symbol .rightParen :: rest) rest := ⟨rfl, rfl, rfl⟩
    refine .still here_still fun start => kind_reads.step ?_
    have found : Reads limit True (inParentheses (Phrases.within more)) depth
        (.symbol .leftParen :: (row ++ .symbol .rightParen :: rest))
        (IsSubquery fun found => found.erase = query.erase) depth rest := by
      cases given with
      | plain starts gives => exact inParentheses_plain starts gives closing (by omega) (by omega)
      | longer begins next =>
        exact inParentheses_longer (fun fewer _ => inParentheses_operand fewer) begins next closing
          (by omega) (by omega)
    refine found.weaken fun expr isSubquery => ?_
    obtain ⟨found, span', rfl, same⟩ := isSubquery
    rw [Expr.erase, Expr.erase, same]

/-- `IN` with a query. -/
theorem membership (given : Unwrapped (8 * row.length + 16) row query) (left : Expr) (span : Span) :
    Expr.ReadsPredicate left (.within left (.query query) span)
      (.keyword .IN :: .symbol .leftParen :: (row ++ [.symbol .rightParen])) where
  opens := ⟨by simp, rfl⟩
  reads {limit depth more found start rest} same enough room ends := by
    simp only [List.length_append, List.length_cons, List.length_nil] at enough room
    simp only [List.cons_append, List.append_assoc, List.nil_append]
    have closing : Closing [] (.symbol .rightParen :: rest) rest := ⟨rfl, rfl, rfl⟩
    refine word?_looks.reads.step (advance_reads.after fun _ _ => .still here_still fun opening => ?_)
    refine (expectSign_reads _).step ?_
    have rows : Reads limit True (inRows (Phrases.within more) opening) depth
        (row ++ .symbol .rightParen :: rest) (fun rel => rel.erase = (Rel.query query).erase) depth
        (.symbol .rightParen :: rest) := by
      cases given with
      | plain starts gives =>
        have starts : isQueryStart (lead (row ++ .symbol .rightParen :: rest)) = true := by
          rwa [lead_append_of_ne_nil (by rintro rfl; cases starts)]
        refine (startsQuery_yes starts).step ?_
        refine (closing.reads_query gives (by omega) (by omega)).after fun found same => ?_
        exact .pure trivial (by rw [Rel.erase, Rel.erase, same])
      | longer begins next => exact inRows_longer begins next closing (by omega) (by omega) opening
    refine rows.after fun rel isRows => (expectSign_reads _).step ?_
    refine .still (spanFrom_still start) fun _ => .pure trivial ?_
    simp only [Expr.erase, same, isRows]

/-- A query in the place of a table. -/
theorem source (given : Unwrapped (8 * row.length + 16) row query) (enough : 8 * row.length + 16 ≤ more)
    (room : depth + 2 * row.length + 2 ≤ capOf limit) :
    Reads limit True (Parse.source (Phrases.within more)) depth
      (.symbol .leftParen :: (row ++ [.symbol .rightParen]))
      (fun rel => rel.erase = (Rel.query query).erase) depth [] := by
  have closing : Closing [] [.symbol .rightParen] [] := ⟨rfl, rfl, rfl⟩
  have inside (start : Span) : Reads limit True (enclosedTable (Phrases.within more) start) (depth + 1)
      (row ++ [Kind.symbol .rightParen]) (IsQuery fun found => found.erase = query.erase)
      (depth + 1) [.symbol .rightParen] := by
    cases given with
    | plain starts gives => exact enclosedTable_plain starts gives closing enough (by omega) start
    | longer begins next =>
      exact enclosedTable_longer (fun fewer _ => enclosedTable_operand fewer) begins next closing enough
        (by omega) start
  have table : Reads limit True (tablePrimary (Phrases.within more)) depth
      (.symbol .leftParen :: (row ++ [Kind.symbol .rightParen]))
      (IsQuery fun found => found.erase = query.erase) depth [] := by
    refine .still here_still fun start => ?_
    refine (parenthesizedTable_reads (by omega) inside).after fun rel isQuery => ?_
    have ends : EndsSource [] := ⟨by simp, by simp, by simp, rfl⟩
    exact (withAlias_none ends rel start).weaken fun _ same => same ▸ isQuery
  refine table.after fun rel isQuery => ?_
  obtain ⟨found, rfl, same⟩ := isQuery
  exact (noJoin_reads (.query found) rfl).weaken fun rel isRel => by
    rw [isRel, Rel.erase, Rel.erase, same]

end Unwrapped

/-- `EXISTS` with a query. -/
theorem Takes.existence (takes : Takes wholeQuery row query) (span : Span) :
    (Expr.existence query span).ReadsPrimary
      (.keyword .EXISTS :: .symbol .leftParen :: (row ++ [.symbol .rightParen])) where
  nonempty := by simp
  opens := rfl
  noPrefix := rfl
  reads {limit depth more rest} enough room _ _ := by
    simp only [List.length_append, List.length_cons, List.length_nil] at enough room
    simp only [List.cons_append, List.append_assoc, List.nil_append]
    refine .still here_still fun _ => kind_reads.step (.still here_still fun start => ?_)
    refine advance_reads.after fun _ _ => ?_
    have inner : Reads limit True (Phrases.within more).query depth
        (row ++ .symbol .rightParen :: rest) (fun q => q.erase = query.erase) depth
        (.symbol .rightParen :: rest) :=
      takes.query (by omega) (Past.close rest) rfl (by omega)
    refine inner.parenthesized.after fun found same => ?_
    refine .still (spanFrom_still start) fun _ => .pure trivial ?_
    rw [Expr.erase, Expr.erase, same]

/-- `WITH` with one query, under the name `c`. -/
theorem Takes.withClause (takes : Takes wholeQuery row query) (enough : 8 * row.length + 16 ≤ more)
    (room : depth + 2 * row.length + 1 ≤ capOf limit) (stops : lead rest ≠ .symbol .comma) :
    Reads limit True (withClause (Phrases.within more)) depth
      (.keyword .WITH :: .identifier "c" :: .keyword .AS :: .symbol .leftParen ::
        (row ++ .symbol .rightParen :: rest))
      (fun clause => WithClause.eraseOption clause =
        WithClause.eraseOption (some ⟨false, [⟨"c", [], query, default⟩], default⟩)) depth rest := by
  have inner : Reads limit True (Phrases.within more).query depth
      (row ++ .symbol .rightParen :: rest) (fun q => q.erase = query.erase) depth
      (.symbol .rightParen :: rest) :=
    takes.query enough (Past.close rest) rfl (by omega)
  have item : Reads limit True (cte (Phrases.within more)) depth
      (.identifier "c" :: .keyword .AS :: .symbol .leftParen :: (row ++ .symbol .rightParen :: rest))
      (fun it => it.erase = (Cte.mk "c" [] query default).erase) depth rest := by
    refine .still here_still fun start => (identifier_reads "c").step ?_
    refine (optionalNames_reads [] (by simp)).step ((expectWord_reads .AS).step ?_)
    refine inner.parenthesized.after fun found same => ?_
    refine .still (spanFrom_still start) fun _ => .pure trivial ?_
    rw [Cte.erase, Cte.erase, same]
  refine .still here_still fun start => (takeWord_yes .WITH).step ((takeWord_no (by simp)).step ?_)
  refine (item.single stops).after fun ctes isOne => ?_
  obtain ⟨cte, rfl, same⟩ := isOne
  refine .still (spanFrom_still start) fun _ => .pure trivial ?_
  simp only [WithClause.eraseOption, Cte.eraseAll_eq_map, List.map_cons, List.map_nil, same]

/-- A common table expression and the table that is named after it. -/
theorem Takes.cte_statement (takes : Takes wholeQuery row query)
    (room : 2 * row.length + 3 ≤ capOf limit) :
    Reads limit True bareStatement 0
      (.keyword .WITH :: .identifier "c" :: .keyword .AS :: .symbol .leftParen ::
        (row ++ [.symbol .rightParen, .keyword .TABLE, .identifier "c"]))
      (fun it => it.erase = (Statement.select ⟨some ⟨false, [⟨"c", [], query, default⟩], default⟩,
        .table ⟨[], "c"⟩ default, [], none, none, default⟩ default).erase) 0 [] := by
  have table (phrases : Phrases) : Reads limit True (queryPrimary phrases) 1
      [.keyword .TABLE, .identifier "c"] (fun rel => rel.erase = .table ⟨[], "c"⟩ default) 1 [] := by
    refine kind_reads.step (.still here_still fun start => (expectWord_reads .TABLE).step ?_)
    have name : Reads limit True qualifiedName 1 ([Kind.identifier "c"] ++ [])
        (· = ⟨[], "c"⟩) 1 [] :=
      qualifiedName_spelled (QualifiedName.isSpelled_qualified ⟨[], "c"⟩) (by simp)
    refine name.step (.still (spanFrom_still start) fun _ => .pure trivial ?_)
    rw [Rel.erase]
  have body {bound : Nat} (enough : 8 * row.length + 16 ≤ bound) :
      Reads limit True (Parse.query (Phrases.within bound)) 0
        (.keyword .WITH :: .identifier "c" :: .keyword .AS :: .symbol .leftParen ::
          (row ++ [Kind.symbol .rightParen, .keyword .TABLE, .identifier "c"]))
        (fun q => q.erase = (Query.mk (some ⟨false, [⟨"c", [], query, default⟩], default⟩)
          (.table ⟨[], "c"⟩ default) [] none none default).erase) 0 [] := by
    refine .nested (by omega) (.still here_still fun start => ?_)
    refine (takes.withClause enough (by omega) (by simp)).after fun clause same => ?_
    refine (table _).after fun rel isTable => (noSetOperation_reads rfl rel).step ?_
    have past : Past 10 [] := Nat.le_refl 10
    refine (noTail_reads past clause rel start).weaken ?_
    rintro _ ⟨span, rfl⟩
    simp only [Query.erase, same, isTable, Rel.erase]
  refine (query_statement_reads (.inl rfl) (wholeQuery_of_query rfl (body ?_))).weaken ?_
  · simp only [List.length_cons, List.length_append]
    omega
  · rintro _ ⟨found, span, rfl, same⟩
    rw [Statement.erase, Statement.erase, same]

end Parse

/-! ## Statements -/

namespace Statement

open Parse

/-- A statement that is a query is read as a whole query. -/
theorem wholeQuery_of_bareStatement {query : Query} {span : Span} {start middle : State}
    (run : bareStatement start = .ok (.select query span) middle) :
    wholeQuery start = .ok query middle := by
  obtain ⟨kind, same, isKind, chosen⟩ := ok_of_bind run
  obtain rfl : start = same := by
    cases isKind
    rfl
  have selected (ran : selectStatement start = .ok (.select query span) middle) :
      wholeQuery start = .ok query middle := by
    obtain ⟨begin, same, isHere, others⟩ := ok_of_bind ran
    cases isHere
    obtain ⟨found, same, isQuery, made⟩ := ok_of_bind others
    cases made
    exact isQuery
  split at chosen
  · obtain ⟨_, _, _, made⟩ := ok_of_bind chosen
    cases made
  · obtain ⟨_, _, _, made⟩ := ok_of_bind chosen
    cases made
  · obtain ⟨_, _, _, made⟩ := ok_of_bind chosen
    cases made
  · exact selected chosen
  · exact selected chosen
  · exact selected chosen
  · exact selected chosen
  · exact selected chosen
  · cases chosen

/-- At the end of a text there is nothing or a semicolon. -/
theorem left_of_endOfText {left : List Kind} {middle last : State} (faces : middle.Faces left)
    (noEnd : Kind.endOfInput ∉ left) (run : endOfText middle = .ok () last) :
    left = [] ∨ left = [.symbol .semicolon] := by
  obtain ⟨limit, depth, shows⟩ := faces
  have refuses {next : Kind} {others : List Kind} (notEnd : next ≠ .endOfInput) :
      Reads limit False (do if (← kind) = .endOfInput then return () else unexpected "end of input")
        depth (next :: others) (fun _ => True) depth (next :: others) := by
    refine kind_reads.step ?_
    rw [lead_cons, if_neg notEnd]
    exact unexpected_reads id _
  cases left with
  | nil => exact .inl rfl
  | cons kind others =>
    have notEnd : kind ≠ .endOfInput := fun isEnd => noEnd (by simp [isEnd])
    -- one semicolon is taken if there is one, and no token may follow
    by_cases isSemicolon : kind = .symbol .semicolon
    · subst isSemicolon
      cases others with
      | nil => exact .inr rfl
      | cons kind others =>
        have notEnd : kind ≠ .endOfInput := fun isEnd => noEnd (by simp [isEnd])
        have refused : Reads limit False endOfText depth (.symbol .semicolon :: kind :: others) _ depth _ :=
          (takeSign_yes .semicolon).step (refuses notEnd)
        exact (refused.ok middle () last shows run).1.elim
    · have other : lead (kind :: others) ≠ .symbol .semicolon := isSemicolon
      have refused : Reads limit False endOfText depth (kind :: others) _ depth _ :=
        (takeSign_no other).step (refuses notEnd)
      exact (refused.ok middle () last shows run).1.elim

/-- The query of a text that is a query and does not end in a semicolon takes all tokens of it. -/
theorem takes_of_parse {text : String} {row : List Kind} {query : Query} {span : Span} {limit : Nat}
    (splits : Scan.Splits text.toList row) (parsed : parse limit text = .ok (.select query span))
    (noSemicolon : row.getLast? ≠ some (.symbol .semicolon)) : Takes wholeQuery row query := by
  obtain ⟨start, begins, shows⟩ := State.ofStream_shows splits limit
  simp only [parse, TokenStream.statement, begins] at parsed
  split at parsed
  case h_2 => cases parsed
  next it last run =>
  obtain rfl := Except.ok.inj parsed
  obtain ⟨found, middle, isFound, others⟩ := ok_of_bind run
  obtain ⟨_, behind, ended, others⟩ := ok_of_bind others
  obtain ⟨_, checked, _, made⟩ := ok_of_bind others
  cases made
  have whole := wholeQuery_of_bareStatement isFound
  have again : Repeats [] (Past 10 []) (2 * row.length + 1) (Keyed Query.erase) wholeQuery
      (Phrases.within (8 * row.length + 16)).query row := wholeQuery_repeats (Nat.le_refl _)
  obtain ⟨left, faces, ⟨taken, rfl⟩, -⟩ := again.there start query middle shows.faces whole
  have noEnd : Kind.endOfInput ∉ left := fun member =>
    splits.noEnd (List.mem_append_right taken member)
  rcases left_of_endOfText faces noEnd ended with rfl | rfl
  · exact ⟨start, middle, shows.faces, faces, whole⟩
  · simp at noSemicolon

/-- Where a query may stand. -/
inductive QueryPlace
  | statement | subquery | membership | existence | cte | source

namespace QueryPlace

/-- The text of a statement with the query in its place. -/
def text (query : String) : QueryPlace → String
  | statement => query
  | subquery => "SELECT (" ++ query ++ ")"
  | membership => "SELECT x IN (" ++ query ++ ")"
  | existence => "SELECT EXISTS (" ++ query ++ ")"
  | cte => "WITH c AS (" ++ query ++ ") TABLE c"
  | source => "SELECT * FROM (" ++ query ++ ")"

/-- The tokens of this text. -/
def tokens (row : List Kind) : QueryPlace → List Kind
  | statement => row
  | subquery => .keyword .SELECT :: .symbol .leftParen :: (row ++ [.symbol .rightParen])
  | membership => .keyword .SELECT :: .identifier "x" :: .keyword .IN :: .symbol .leftParen ::
      (row ++ [.symbol .rightParen])
  | existence => .keyword .SELECT :: .keyword .EXISTS :: .symbol .leftParen ::
      (row ++ [.symbol .rightParen])
  | cte => .keyword .WITH :: .identifier "c" :: .keyword .AS :: .symbol .leftParen ::
      (row ++ [.symbol .rightParen, .keyword .TABLE, .identifier "c"])
  | source => .keyword .SELECT :: .symbol .star :: .keyword .FROM :: .symbol .leftParen ::
      (row ++ [.symbol .rightParen])

/-- A statement that selects a value. -/
def ofValue (expr : Expr) : Statement :=
  .select (bareQuery (.select (projection [expr] [] default)) default) default

/-- The statement with the query in its place. -/
def tree (query : Query) : QueryPlace → Statement
  | statement => .select query default
  | subquery => ofValue (.subquery query default)
  | membership => ofValue (.within (.column ⟨[], "x"⟩ default) (.query query) default)
  | existence => ofValue (.existence query default)
  | cte => .select ⟨some ⟨false, [⟨"c", [], query, default⟩], default⟩, .table ⟨[], "c"⟩ default,
      [], none, none, default⟩ default
  | source => .select (bareQuery (.select (projection [.asterisk none default] [.query query] default))
      default) default

/-- There are finitely many places. -/
theorem exists_ge (measure : QueryPlace → Nat) : ∃ bound, ∀ place, measure place ≤ bound :=
  ⟨measure statement + measure subquery + measure membership + measure existence + measure cte +
    measure source, fun place => by cases place <;> omega⟩

/-- A text without comments between parentheses. -/
theorem splits_enclosed {text : List Char} {query : String} {front back : List Char}
    {row before behind : List Kind} (opening : Scan.Spaced front before)
    (spaced : Scan.Spaced query.toList row) (closing : Scan.Splits back behind)
    (isText : text = front ++ ' ' :: '(' :: (query.toList ++ ')' :: back)) :
    Scan.Splits text (before ++ .symbol .leftParen :: (row ++ .symbol .rightParen :: behind)) := by
  rw [isText]
  exact opening.before (spaced.closed closing).opened

theorem splits {query : String} {row : List Kind} (spaced : Scan.Spaced query.toList row)
    (place : QueryPlace) : Scan.Splits (place.text query).toList (place.tokens row) := by
  have nothing : Scan.Splits [] [] := .done rfl
  cases place with
  | statement => exact spaced.splits
  | subquery =>
    have opening : Scan.Spaced "SELECT".toList [.keyword .SELECT] :=
      Scan.spaced_of_spaced? 8 (by decide +kernel)
    refine splits_enclosed opening spaced nothing ?_
    show ("SELECT (" ++ query ++ ")").toList = _
    simp
  | membership =>
    have opening : Scan.Spaced "SELECT x IN".toList [.keyword .SELECT, .identifier "x", .keyword .IN] :=
      Scan.spaced_of_spaced? 12 (by decide +kernel)
    refine splits_enclosed opening spaced nothing ?_
    show ("SELECT x IN (" ++ query ++ ")").toList = _
    simp
  | existence =>
    have opening : Scan.Spaced "SELECT EXISTS".toList [.keyword .SELECT, .keyword .EXISTS] :=
      Scan.spaced_of_spaced? 14 (by decide +kernel)
    refine splits_enclosed opening spaced nothing ?_
    show ("SELECT EXISTS (" ++ query ++ ")").toList = _
    simp
  | cte =>
    have opening : Scan.Spaced "WITH c AS".toList [.keyword .WITH, .identifier "c", .keyword .AS] :=
      Scan.spaced_of_spaced? 10 (by decide +kernel)
    have table : Scan.Splits " TABLE c".toList [.keyword .TABLE, .identifier "c"] :=
      (Scan.spaced_of_spaced? 10 (by decide +kernel)).splits
    refine splits_enclosed opening spaced table ?_
    show ("WITH c AS (" ++ query ++ ") TABLE c").toList = _
    simp
  | source =>
    have opening : Scan.Spaced "SELECT * FROM".toList [.keyword .SELECT, .symbol .star, .keyword .FROM] :=
      Scan.spaced_of_spaced? 14 (by decide +kernel)
    refine splits_enclosed opening spaced nothing ?_
    show ("SELECT * FROM (" ++ query ++ ")").toList = _
    simp

end QueryPlace

/-- A statement selects the value that its text writes. -/
theorem ofValue_reads {expr : Expr} {row : List Kind} {limit : Nat} (operand : expr.ReadsOperand 0 row)
    (noAll : lead row ≠ .keyword .ALL) (noDistinct : lead row ≠ .keyword .DISTINCT)
    (room : 2 * row.length + 2 ≤ capOf limit) :
    Reads limit True bareStatement 0 (.keyword .SELECT :: row)
      (fun it => it.erase = (QueryPlace.ofValue expr).erase) 0 [] := by
  have value : Reads limit True (Phrases.within (8 * row.length + 23)).expression 1 (row ++ [])
      (fun e => e.erase = expr.erase) 1 [] :=
    operand.expression (by omega) (by omega) (.of_quiet rfl rfl (.inr (by simp)))
  rw [List.append_nil] at value
  refine (value_statement_reads (by omega) noAll noDistinct value (Nat.le_refl 10)).weaken ?_
  rintro _ ⟨found, targetSpan, span, span', rfl, same⟩
  simp [QueryPlace.ofValue, bareQuery, projection, Statement.erase, Query.erase, Rel.erase,
    Select.erase, Expr.eraseAll, same]

/-- A query is read in each of its places as it is read alone. -/
theorem queryPlace_reads {text : String} {query : Query} {row : List Kind} {limit : Nat}
    (splits : Scan.Splits text.toList row) (takes : Takes wholeQuery row query)
    (unwrapped : ∀ found, ¬ Accepts enclosedQuery text found)
    (room : 2 * row.length + 15 ≤ capOf limit) (place : QueryPlace) :
    Reads limit True bareStatement 0 (place.tokens row) (fun it => it.erase = (place.tree query).erase)
      0 [] := by
  have fits : 2 * row.length + 1 ≤ capOf limit := by omega
  have own := unwrapped_of_takes splits takes fits unwrapped
  cases place with
  | statement =>
    have starts : isQueryStart (lead row) = true ∨ lead row = .symbol .leftParen := by
      cases own with
      | plain starts => exact .inl starts
      | longer begins =>
        generalize 8 * row.length + 16 = levels at begins
        cases begins
        exact .inr rfl
    have whole : Reads limit True (Phrases.within (8 * row.length + 16)).query 0 (row ++ [])
        (fun q => q.erase = query.erase) 0 [] :=
      takes.query (Nat.le_refl _) (Nat.le_refl 10) rfl (by omega)
    rw [List.append_nil] at whole
    refine (query_statement_reads starts (.forState whole)).weaken ?_
    rintro _ ⟨found, span, rfl, same⟩
    simp only [QueryPlace.tree, Statement.erase, same]
  | subquery =>
    have operand := ((own.subquery default).begins 0).operand
    rw [List.append_nil] at operand
    exact ofValue_reads operand (by simp) (by simp) (by simp; omega)
  | membership =>
    have column := (Expr.IsAtom.column default
      (QualifiedName.isSpelled_qualified ⟨[], "x"⟩)).readsPrimary.begins 5
    have operator := (own.membership (.column ⟨[], "x"⟩ default) default).operator false default
    have operand := (column.step (Nat.zero_le 4) (by decide) (by decide) (by decide) operator).operand
    exact ofValue_reads operand (by simp) (by simp) (by simp; omega)
  | existence =>
    have operand := ((takes.existence default).begins 0).operand
    rw [List.append_nil] at operand
    exact ofValue_reads operand (by simp) (by simp) (by simp; omega)
  | cte => exact takes.cte_statement (by omega)
  | source =>
    have item : Reads limit True (Parse.source (Phrases.within
        (8 * (.symbol .leftParen :: (row ++ [.symbol .rightParen]) : List Kind).length + 39))) 1
        (.symbol .leftParen :: (row ++ [.symbol .rightParen]))
        (fun rel => rel.erase = (Rel.query query).erase) 1 [] :=
      own.source (by simp only [List.length_cons, List.length_append]; omega) (by omega)
    refine (source_statement_reads (by omega) item (Nat.le_refl 10)).weaken ?_
    rintro _ ⟨star, rel, targetSpan, span, span', rfl, isStar, same⟩
    simp [QueryPlace.tree, bareQuery, projection, Statement.erase, Query.erase, Rel.erase,
      Select.erase, Expr.eraseAll, Rel.eraseAll, isStar, same, Expr.erase]

/-- A query that is read alone, and is not just another one in parentheses, is the same query in all
its places. -/
theorem parse_queryPlace {text : String} {query : Query} {span : Span} {alone : Nat}
    (spaced : ∃ kinds, Scan.Spaced text.toList kinds)
    (parsed : parse alone text = .ok (.select query span))
    (noSemicolon : (Lexer.kindsOf text).getLast? ≠ some (.symbol .semicolon))
    (unwrapped : ∀ found, ¬ Accepts enclosedQuery text found)
    (holds : ∀ place : QueryPlace, (place.text text).utf8ByteSize < 2 ^ 63) :
    ∃ least, ∀ limit ≥ least, ∀ place : QueryPlace, ∃ it,
      parse limit (place.text text) = .ok it ∧ (place.tree query).alike it = true := by
  obtain ⟨row, spaced⟩ := spaced
  rw [Lexer.kindsOf_eq spaced.splits] at noSemicolon
  have takes := takes_of_parse spaced.splits parsed noSemicolon
  obtain ⟨depth, shallow⟩ := QueryPlace.exists_ge fun place => (Outline.ofStatement (place.tree query)).depth
  refine ⟨max depth (row.length + 8), fun limit enough place => ?_⟩
  have room := room_of_length (QueryPlace.cte.splits spaced) (holds .cte) limit (by
    simp only [QueryPlace.tokens, List.length_cons, List.length_append, List.length_nil]
    omega)
  simp only [QueryPlace.tokens, List.length_cons, List.length_append, List.length_nil] at room
  have reads : Reads limit True bareStatement 0 (place.tokens row) _ 0 [] :=
    queryPlace_reads spaced.splits takes unwrapped (by omega) place
  obtain ⟨it, read, same⟩ := parse_of_parts (place.splits spaced) reads fun it same => by
    rw [← Outline.ofStatement_erase, same, Outline.ofStatement_erase]
    exact (shallow place).trans (by omega)
  exact ⟨it, read, (alike_iff_erase _ _).mpr same.symm⟩

/-- Whether the statement is a query. -/
def isQuery : Statement → Bool
  | .select .. => true
  | _ => false

/-- Two operands in parentheses, one within the other. -/
theorem parse_queryPlace_nested :
    ∃ query span, parse 9 "((TABLE a) UNION TABLE b) EXCEPT TABLE c ORDER BY 1" =
        .ok (.select query span) ∧
      ∃ least, ∀ limit ≥ least, ∀ place : QueryPlace, ∃ it,
        parse limit (place.text "((TABLE a) UNION TABLE b) EXCEPT TABLE c ORDER BY 1") = .ok it ∧
          (place.tree query).alike it = true := by
  obtain ⟨it, parsed, isQuery⟩ := exists_of_passes
    (parse 9 "((TABLE a) UNION TABLE b) EXCEPT TABLE c ORDER BY 1") isQuery (by decide +kernel)
  have spaced : (Scan.spaced? ("((TABLE a) UNION TABLE b) EXCEPT TABLE c ORDER BY 1".length + 1)
      "((TABLE a) UNION TABLE b) EXCEPT TABLE c ORDER BY 1".toList).isSome = true := by decide +kernel
  obtain ⟨kinds, isSpaced⟩ := Option.isSome_iff_exists.mp spaced
  have tokens : Lexer.kindsOf "((TABLE a) UNION TABLE b) EXCEPT TABLE c ORDER BY 1" =
      [.symbol .leftParen, .symbol .leftParen, .keyword .TABLE, .identifier "a", .symbol .rightParen,
        .keyword .UNION, .keyword .TABLE, .identifier "b", .symbol .rightParen, .keyword .EXCEPT,
        .keyword .TABLE, .identifier "c", .keyword .ORDER, .keyword .BY, .integer 1] := by
    decide +kernel
  have refused : alone? enclosedQuery 20 "((TABLE a) UNION TABLE b) EXCEPT TABLE c ORDER BY 1" = none := by
    decide +kernel
  cases it with
  | select query span =>
    refine ⟨query, span, parsed, parse_queryPlace ⟨kinds, Scan.spaced_of_spaced? _ isSpaced⟩ parsed ?_
      (fun found accepts => ?_) fun place => ?_⟩
    · rw [tokens]
      decide
    · have again := accepts.alone? spaced enclosedQuery_again trivial
        (show 2 * (Lexer.kindsOf _).length + 1 ≤ capOf 20 by rw [tokens]; decide)
      rw [refused] at again
      cases again
    · cases place <;> decide +kernel
  | _ => cases isQuery

end Statement

end CanonicalSql
