import CanonicalSql.Proofs.Failing.Projection
import CanonicalSql.Proofs.Failing.Tail

/-!
# Failing queries

What fails in an operand of set operations, or in the tail of a query, makes the query fail. If the
query begins with an operand in parentheses, it may be read up to there in another way, and is
taken up again behind it: what fails is then known as what fails behind the operand
(`FailsOperations`, `FailsFurther`).
-/
namespace CanonicalSql

open Parse

variable {tokens : List Token} {failure : Failure} {row mid rest : List Kind}
  {limit depth more levels fewer tier : Nat} {first : Rel}

/-! ## Behind the first operand -/

/-- Behind its first operand, a body goes on with the row and fails within it. The levels of
recursion must be enough for the tokens of the operand too. -/
structure FailsOperations (tokens : List Token) (failure : Failure) (levels tier : Nat) (first : Rel)
    (row : List Kind) : Prop where
  next : isQueryNext (lead row) = true
  fails : ∀ {limit depth more least : Nat} {found : Rel}, found.erase = first.erase →
    least ≤ 2 * tier - 1 → levels ≤ more → depth + 2 * row.length ≤ capOf limit →
    Fails tokens failure limit depth (setOperations (Phrases.within more) found least) row

theorem FailsOperations.further (given : FailsOperations tokens failure levels tier first row) :
    FailsFurther tokens failure levels first row :=
  ⟨given.next, fun _ _ same _ enough room => (given.fails same (Nat.zero_le _) enough room).bind⟩

namespace Parse

theorem past_of_isQueryNext (next : isQueryNext (lead row) = true) : Past 6 row := by
  rw [Past]
  generalize lead row = kind at next
  unfold isQueryNext at next
  split at next <;> first | decide | cases next

theorem noName_of_isQueryNext {kind : Kind} (next : isQueryNext kind = true) : kind.name? = none := by
  unfold isQueryNext at next
  split at next <;> first | rfl | cases next

theorem next_append (starts : mid = [] ∨ isQueryNext (lead mid) = true)
    (next : isQueryNext (lead rest) = true) : isQueryNext (lead (mid ++ rest)) = true := by
  rcases starts with rfl | starts
  · exact next
  · rwa [lead_append_of_ne_nil (by rintro rfl; cases starts)]

theorem Still.passes {α : Type} {p : Parse α} (isStill : Still p) {i : Nat} : Passes tokens i p := by
  have stays : Proceeds tokens i p fun j _ => j = i := by
    refine ⟨fun s a t stands run => ?_, fun s failure t _ run => ?_⟩ <;>
      obtain ⟨b, ran⟩ := isStill s <;> cases ran.symm.trans run
    exact ⟨i, Nat.le_refl i, stands, rfl⟩
  exact (stays.still fun _ _ same => same).mono fun _ _ _ _ => trivial

/-- Each set operation takes a token, whatever is on its left. -/
theorem setOperationStep_passes {phrases : Phrases} {i least : Nat}
    (course : phrases.From tokens (i + 1)) :
    Rounds tokens i (setOperationStep phrases least) fun _ _ => True := by
  rintro k ⟨left, levels⟩ past -
  refine .look kind_looks ?_
  split
  · exact .pure ⟨fun _ => trivial, by simp⟩
  · next op power isOp =>
    refine .ite (fun _ => .pure ⟨fun _ => trivial, by simp⟩) fun _ =>
      .enter (.advance (Kind.inner_of_some SetOperator.ofKind? isOp rfl rfl) ?_)
    refine setQuantifier_runs.andThen fun quantifier j _ => ?_
    refine (queryPrimary_runs (course.later (by omega))).bind fun first m _ laid => ?_
    refine ((course.later (by omega)).here.setOperations j first _ laid).bind fun right n _ _ => ?_
    refine (spanFrom_still left.span).passes.bind fun span o _ _ => .pure ⟨by simp, fun _ _ => ?_⟩
    exact ⟨by omega, trivial⟩

theorem setOperations_passes {phrases : Phrases} {i least : Nat} {left : Rel}
    (course : phrases.From tokens (i + 1)) : Passes tokens i (setOperations phrases left least) :=
  ((setOperationStep_passes course).loop trivial).bind fun _ _ _ _ => .leave (.pure trivial)

end Parse

/-- Where set operations of the tier at least are expected, the step fails within the row. -/
structure FailsBody (tokens : List Token) (failure : Failure) (tier : Nat) (row : List Kind) :
    Prop where
  opens : OpensOperand row
  enclosed : lead row = .symbol .leftParen → FailsEnclosed tokens failure row
  fails : ∀ {limit depth more fewer least : Nat}, least ≤ 2 * tier - 1 →
    8 * row.length + 15 ≤ more → 8 * row.length + 15 ≤ fewer →
    depth + 2 * row.length ≤ capOf limit →
    Fails tokens failure limit depth
      (do setOperations (Phrases.within fewer) (← queryPrimary (Phrases.within more)) least) row

/-- Where a query without a `WITH` clause is expected, the step fails within the row. -/
structure FailsUnprefixed (tokens : List Token) (failure : Failure) (row : List Kind) : Prop where
  opens : OpensOperand row
  enclosed : lead row = .symbol .leftParen → FailsEnclosed tokens failure row
  fails : ∀ {limit depth more : Nat} (withClause : Option WithClause) (start : Span),
    8 * row.length + 15 ≤ more → depth + 2 * row.length ≤ capOf limit →
    Fails tokens failure limit depth (do
      let first ← queryPrimary (Phrases.within more)
      let body ← setOperations (Phrases.within more) first 0
      queryTail (Phrases.within more) withClause body start) row

theorem FailsTerm.body (given : FailsTerm tokens failure row) (tier : Nat) :
    FailsBody tokens failure tier row :=
  ⟨given.opens, given.enclosed, fun _ enough _ room => (given.fails enough room).bind⟩

theorem FailsBody.unprefixed (given : FailsBody tokens failure 0 row) :
    FailsUnprefixed tokens failure row where
  opens := given.opens
  enclosed := given.enclosed
  fails _ _ enough room := .pair (given.fails (Nat.zero_le _) enough enough room)

/-! ## First operands -/

section

variable (operand : Gives (queryPrimary (Phrases.within fewer)) row first mid)
include operand

theorem Parse.Gives.opens_operand : OpensOperand row := by
  refine ⟨operand.queryPrimary_opens, fun isParen => ?_⟩
  obtain ⟨inner, query, rfl, -, opened⟩ := operand.queryPrimary_enclosed isParen
  exact opened.query_opens.name?

theorem Parse.Gives.operand_nonempty : row ≠ [] := by
  have opens := operand.queryPrimary_opens
  rintro rfl
  cases opens

theorem Parse.Gives.operand_shorter : mid.length ≤ row.length :=
  (operand.suffix (queryPrimary_repeats (Phrases.within_repeats (Nat.le_refl fewer) [])
    (Phrases.within_shuns fewer) row)).length_le

variable (few : fewer ≤ 8 * row.length + 16) (next : isQueryNext (lead rest) = true)
include few next

theorem Parse.Gives.reads_operand (enough : 8 * row.length + 16 ≤ more)
    (room : depth + 2 * row.length ≤ capOf limit) :
    Reads limit True (queryPrimary (Phrases.within more)) depth (row ++ rest)
      (fun found => found.erase = first.erase) depth (mid ++ rest) :=
  operand.reads (queryPrimary_repeats (Phrases.within_repeats (by omega) rest)
    (Phrases.within_shuns fewer) row) (fun _ => past_of_isQueryNext next)
    (isNegatable_of_isQueryNext next) (isJoint_of_isQueryNext next) room

/-- An operand in parentheses may be read in another way, but the query goes on behind it. -/
theorem FailsFurther.enclosed_of_operand
    (given : FailsFurther tokens failure levels first (mid ++ rest))
    (low : levels ≤ 8 * (row ++ rest).length + 15)
    (isParen : lead (row ++ rest) = .symbol .leftParen) :
    FailsEnclosed tokens failure (row ++ rest) := by
  rw [lead_append_of_ne_nil operand.operand_nonempty] at isParen
  obtain ⟨inner, query, rfl, rfl, opened⟩ := operand.queryPrimary_enclosed isParen
  rw [List.length_cons] at few
  rw [List.cons_append, List.length_cons] at low
  exact given.enclosed opened (by omega) next (by omega)

/-- What fails behind the first operand fails behind all that is read as the operand. -/
theorem Parse.Fails.behind_operand {α : Type} {f : Rel → Parse α}
    (enough : 8 * (row ++ rest).length + 15 ≤ more)
    (room : depth + 2 * (row ++ rest).length ≤ capOf limit)
    (fails : ∀ found, found.erase = first.erase → depth + 2 * (mid ++ rest).length ≤ capOf limit →
      Fails tokens failure limit depth (f found) (mid ++ rest)) :
    Fails tokens failure limit depth (queryPrimary (Phrases.within more) >>= f) (row ++ rest) := by
  have shorter := operand.operand_shorter
  have some : rest ≠ [] := by
    rintro rfl
    cases next
  have some := List.length_pos_iff.mpr some
  rw [List.length_append] at enough room
  refine .after (operand.reads_operand few next (by omega) (by omega)) (fun i placed => ?_)
    fun found same => fails found same (by rw [List.length_append]; omega)
  have course : (Phrases.within more).From tokens i :=
    Phrases.within_from (by rw [List.length_append]; omega) placed.ge
  exact (queryPrimary_runs (course.later (Nat.le_succ i))).passes

/-- A body fails behind its first operand. -/
theorem FailsOperations.body (given : FailsOperations tokens failure levels tier first (mid ++ rest))
    (low : levels ≤ 8 * (row ++ rest).length + 15) : FailsBody tokens failure tier (row ++ rest) where
  opens := operand.opens_operand.append (noName_of_isQueryNext next)
  enclosed := given.further.enclosed_of_operand operand few next low
  fails strong enough enough' room := .behind_operand operand few next enough room
    fun _ same room => given.fails same strong (low.trans enough') room

/-- A query fails behind its first operand. -/
theorem FailsFurther.unprefixed (given : FailsFurther tokens failure levels first (mid ++ rest))
    (low : levels ≤ 8 * (row ++ rest).length + 15) :
    FailsUnprefixed tokens failure (row ++ rest) where
  opens := operand.opens_operand.append (noName_of_isQueryNext next)
  enclosed := given.enclosed_of_operand operand few next low
  fails withClause start enough room := .behind_operand operand few next enough room
    fun _ same room => given.fails withClause start same (low.trans enough) (low.trans enough) room

end

/-! ## Set operations and tails -/

/-- The right operand of a set operation, behind the operations on its left. -/
theorem FailsBody.operation {op : SetOperator}
    (given : FailsBody tokens failure (op.tier + 1) row) (quantifier : Option SetQuantifier)
    {left : Rel}
    (takes : Takes (setOperations (Phrases.within fewer) first (2 * op.tier - 1)) mid left)
    (few : fewer ≤ levels) (low : 8 * (mid ++ .keyword op.word ::
      (Piece.kinds (Canonical.ofQuantifier quantifier) ++ row)).length + 15 ≤ levels)
    (tight : tier ≤ op.tier) :
    FailsOperations tokens failure levels tier first (mid ++ .keyword op.word ::
      (Piece.kinds (Canonical.ofQuantifier quantifier) ++ row)) := by
  have next : isQueryNext (.keyword op.word) = true := by cases op <;> rfl
  refine ⟨next_append takes.operations_start next,
    fun {limit depth more least found} same strong enough room => ?_⟩
  have positive := op.tier_pos
  simp only [List.length_append, List.length_cons] at low room
  obtain ⟨more, rfl⟩ : ∃ fewer, more = fewer + 1 := ⟨more - 1, by omega⟩
  have closes : ClosesBody (2 * op.tier - 1 + 1) (.keyword op.word ::
      (Piece.kinds (Canonical.ofQuantifier quantifier) ++ row)) := by
    refine ⟨past_of_isQueryNext next, fun other power isOther => ?_⟩
    cases (SetOperator.ofKind?_word op).symm.trans isOther
    exact Nat.lt_succ_self _
  -- the operations on the left are done, and the failure is that of the next one
  obtain ⟨up, fewest, leads⟩ := takes.operations_lead same (few.trans enough)
    (show least ≤ 2 * op.tier - 1 by omega) closes (isNegatable_of_isQueryNext next)
    (isJoint_of_isQueryNext next)
  refine Fails.bind (.loop (leads limit depth (by omega)) (fun i placed => ?_) ?_ rfl)
  · have course : (Phrases.within (more + 1)).From tokens i :=
      Phrases.within_from (by simp only [List.length_append, List.length_cons]; omega) placed
    exact setOperationStep_passes (course.later (Nat.le_succ i))
  rintro ⟨done, count⟩ -
  refine .look kind_looks ?_
  rw [lead_cons, id, SetOperator.ofKind?_word]
  dsimp only
  rw [if_neg (by omega)]
  refine .enter (by omega) (.advance (by simp) ?_)
  refine .step (setQuantifier_reads quantifier (Kind.ne_of_opensOperand given.opens.opens rfl)
    (Kind.ne_of_opensOperand given.opens.opens rfl)) (fun _ _ => setQuantifier_runs) ?_
  exact .pair (given.fails (by omega) (by omega) (by omega) (by omega))

theorem FailsBody.setOp {op : SetOperator} (given : FailsBody tokens failure (op.tier + 1) row)
    (quantifier : Option SetQuantifier) {left : Rel} {others : List Kind}
    (takes : Takes (bodyOfPower (2 * op.tier - 1)) others left) (tight : tier ≤ op.tier) :
    FailsBody tokens failure tier (others ++ .keyword op.word ::
      (Piece.kinds (Canonical.ofQuantifier quantifier) ++ row)) := by
  obtain ⟨first, mid, operand, operations⟩ := takes.body_split
  have shorter := operand.operand_shorter
  have next : isQueryNext (.keyword op.word) = true := by cases op <;> rfl
  have behind : FailsOperations tokens failure (8 * (others ++ .keyword op.word ::
      (Piece.kinds (Canonical.ofQuantifier quantifier) ++ row)).length + 15) tier first
      (mid ++ .keyword op.word :: (Piece.kinds (Canonical.ofQuantifier quantifier) ++ row)) := by
    refine given.operation quantifier operations ?_ ?_ tight <;>
    · simp only [List.length_append, List.length_cons]
      omega
  exact behind.body operand (Nat.le_refl _) next (Nat.le_refl _)

/-- The tail of a query, behind the body. -/
theorem FailsTail.unprefixed (given : FailsTail tokens failure row) {others : List Kind} {body : Rel}
    (takes : Takes (bodyOfPower 0) others body) : FailsUnprefixed tokens failure (others ++ row) := by
  obtain ⟨first, mid, operand, operations⟩ := takes.body_split
  have shorter := operand.operand_shorter
  have some : row ≠ [] := by
    rintro rfl
    cases given.next
  have some := List.length_pos_iff.mpr some
  have behind : FailsFurther tokens failure (8 * (others ++ row).length + 15) first (mid ++ row) := by
    refine ⟨next_append operations.operations_start given.next,
      fun {limit depth more fewer found} withClause start same enough enough' room => ?_⟩
    rw [List.length_append] at enough enough' room
    have again : Repeats row (ClosesBody 0 row) (2 * mid.length) (Keyed Rel.erase)
        (setOperations (Phrases.within (8 * others.length + 16)) first 0)
        (setOperations (Phrases.within fewer) found 0) mid :=
      setOperations_repeats (Phrases.within_repeats (by omega) row) (Phrases.within_shuns _) 0 same
        mid
    refine .given operations again (fun _ => given.past.closesBody 0)
      (isNegatable_of_isQueryNext given.next) (isJoint_of_isQueryNext given.next) (by omega)
      (fun i few => ?_) fun body _ => given.fails withClause body start (by omega) (by omega)
    have course : (Phrases.within fewer).From tokens i :=
      Phrases.within_from (by rw [List.length_append]; omega) few
    exact setOperations_passes (course.later (Nat.le_succ i))
  exact behind.unprefixed operand (Nat.le_refl _) given.next (Nat.le_refl _)

/-! ## Queries -/

/-- A query fails behind its `WITH` clause, if it has one. -/
theorem FailsUnprefixed.query_of_reads (given : FailsUnprefixed tokens failure row)
    {front : List Kind} (opens : OpensQuery (front ++ row))
    (enclosed : lead (front ++ row) = .symbol .leftParen →
      FailsEnclosed tokens failure (front ++ row))
    (clause : ∀ {limit depth more : Nat}, 8 * (front ++ row).length + 15 ≤ more →
      depth + 2 * (front ++ row).length ≤ capOf limit →
      Reads limit True (withClause (Phrases.within more)) depth (front ++ row) (fun _ => True) depth
        row) : FailsQuery tokens failure (front ++ row) where
  opens := opens
  enclosed := enclosed
  fails {limit depth more} enough room := by
    refine .nested (by omega) (.still here_still fun start => ?_)
    refine .after (clause enough (by omega)) (fun i placed => ?_) fun found _ => ?_
    · have course : (Phrases.within more).From tokens i :=
        Phrases.within_from (by omega) placed.ge
      exact (withClause_runs (course.later (Nat.le_succ i))).passes
    · rw [List.length_append] at enough room
      exact given.fails found start (by omega) (by omega)

theorem FailsUnprefixed.query (given : FailsUnprefixed tokens failure row) :
    FailsQuery tokens failure row := by
  have noWith {limit depth more : Nat} :
      Reads limit True (withClause (Phrases.within more)) depth row (fun _ => True) depth row :=
    (noWith_reads (Kind.ne_of_opensOperand given.opens.opens rfl)).weaken fun _ _ => trivial
  change FailsQuery tokens failure ([] ++ row)
  exact given.query_of_reads given.opens.query given.enclosed fun _ _ => noWith

/-- The name of a common table expression, and those of its columns. -/
def Parse.cteHead : Parse (Name × List Name) := do
  let name ← identifier
  return (name, ← optionalNames)

/-- A common table expression, with as many levels as the tokens left may need. -/
def Parse.wholeCte : Parse Cte := do cte (← Phrases.forState)

/-- What a `WITH` clause begins with, up to the parenthesis before the query of one of its
expressions. A name that is spelled `RECURSIVE` cannot come first. -/
inductive Parse.OpensCte : List Kind → Prop
  | intro (recursive : Bool) {rows : List (List Kind)} {head : List Kind} {name : Name × List Name}
    (each : ∀ other ∈ rows, ∃ c, Takes wholeCte other c) (takes : Takes cteHead head name)
    (first : recursive = false → lead (beforeCommas rows ++ head) ≠ .keyword .RECURSIVE) :
    OpensCte (.keyword .WITH :: ((if recursive then [.keyword .RECURSIVE] else []) ++
      (beforeCommas rows ++ (head ++ [.keyword .AS, .symbol .leftParen]))))

section

variable {others : List Kind}

theorem Parse.cte_item : IsClause cte (lead · = .symbol .comma) where
  runs course := (cte_runs (course.later (Nat.le_succ _))).passes
  repeats below _ row := (cte_repeats below row).mono (fun isComma => isComma) (Nat.le_succ _)
    fun _ _ _ => ⟨trivial, rfl⟩

theorem Parse.cteHead_reads {name : Name × List Name} (takes : Takes cteHead others name)
    (room : depth + 2 * others.length ≤ capOf limit) :
    Reads limit True cteHead depth (others ++ .keyword .AS :: rest) (fun _ => True) depth
      (.keyword .AS :: rest) := by
  have again : Repeats (.keyword .AS :: rest) True (2 * others.length) (fun _ _ => True) cteHead
      cteHead others := by
    refine .after identifier_repeats fun _ _ left _ few => ?_
    exact .bind ((optionalNames_repeats (by simp)).within id (by omega)) id
      fun _ _ _ _ _ => .done trivial
  exact again.reads takes trivial rfl room

theorem Parse.cteHead_runs {i : Nat} : Passes tokens i cteHead :=
  .identifier fun _ => optionalNames_runs.andThen fun _ _ _ => .pure trivial

theorem Parse.cte_eq (phrases : Phrases) : cte phrases = (do
    let start ← here
    let (name, columns) ← cteHead
    expectWord .AS
    let query ← parenthesized phrases.query
    return ⟨name, columns, query, ← spanFrom start⟩) := by
  simp only [cte, cteHead, bind_assoc, pure_bind]

theorem Parse.Takes.cteHead_nonempty {name : Name × List Name} (takes : Takes cteHead others name) :
    others ≠ [] := by
  rintro rfl
  exact Gives.elim takes (Refuses.identifier.bind _)

variable {front head behind : List Kind} {rows : List (List Kind)} {name : Name × List Name}
  {recursive : Bool}

theorem Parse.Takes.noRecursive (takes : Takes cteHead head name)
    (first : recursive = false → lead (beforeCommas rows ++ head) ≠ .keyword .RECURSIVE)
    (isFalse : recursive = false) :
    lead (beforeCommas rows ++ (head ++ behind)) ≠ .keyword .RECURSIVE := by
  rw [← List.append_assoc, lead_append_of_ne_nil (by simp [takes.cteHead_nonempty])]
  exact first isFalse

/-- The query of a common table expression. -/
theorem FailsQuery.cte (given : FailsQuery tokens failure row) (begins : OpensCte front) :
    FailsQuery tokens failure (front ++ row) := by
  cases begins with
  | @intro recursive rows head name each takes first =>
  simp only [List.cons_append, List.append_assoc, List.nil_append]
  refine ⟨.inl rfl, nofun, fun {limit depth more} enough room => ?_⟩
  simp only [List.length_append, List.length_cons] at enough room
  have last : Fails tokens failure limit (depth + 1) (Parse.cte (Phrases.within more))
      (head ++ .keyword .AS :: .symbol .leftParen :: row) := by
    rw [cte_eq]
    refine .still here_still fun _ => .after (cteHead_reads takes (by omega))
      (fun _ _ => cteHead_runs) fun found _ => .expectWord (Fails.bind (.expectSign ?_))
    exact (given.query (by omega) (by omega)).bind
  refine .nested (by omega) (.still here_still fun _ => Fails.bind ?_)
  refine .still here_still fun _ => .takeWord ?_
  refine .step (takeWord_mark recursive (takes.noRecursive first))
    (fun _ _ => (takeWord_runs _).passes) (Fails.bind ?_)
  refine cte_item.commaSeparated each (by simp) ?_ ?_ last <;>
  · simp only [List.length_append, List.length_cons]
    omega

/-- What follows a `WITH` clause. -/
theorem FailsUnprefixed.behindWith (given : FailsUnprefixed tokens failure row)
    (begins : OpensCte front) {query : Query} (takes : Takes wholeQuery others query) :
    FailsQuery tokens failure (front ++ (others ++ .symbol .rightParen :: row)) := by
  cases begins with
  | @intro recursive rows head name each ofHead first =>
  have regroup (front : List Kind) : front ++ (others ++ .symbol .rightParen :: row) =
      (front ++ (others ++ [.symbol .rightParen])) ++ row := by simp
  rw [regroup]
  refine given.query_of_reads (.inl rfl) nofun fun {limit depth more} enough room => ?_
  rw [← regroup]
  simp only [List.length_append, List.length_cons] at enough room
  simp only [List.cons_append, List.append_assoc, List.nil_append]
  have last : Reads limit True (Parse.cte (Phrases.within more)) depth
      ((head ++ .keyword .AS :: .symbol .leftParen :: (others ++ [Kind.symbol .rightParen])) ++ row)
      (fun _ => True) depth row := by
    rw [cte_eq]
    simp only [List.cons_append, List.append_assoc, List.nil_append]
    refine .still here_still fun _ => (cteHead_reads ofHead (by omega)).after fun found _ => ?_
    refine (expectWord_reads _).step ?_
    have inner : Reads limit True (Phrases.within more).query depth
        (others ++ .symbol .rightParen :: row) (fun q => q.erase = query.erase) depth
        (.symbol .rightParen :: row) := takes.query (by omega) (Past.close row) rfl (by omega)
    refine (Reads.parenthesized inner).after fun _ _ => ?_
    exact .still (spanFrom_still _) fun _ => .pure trivial trivial
  have before : ∀ other ∈ rows, ∀ behind, lead behind = .symbol .comma →
      Reads limit True (Parse.cte (Phrases.within more)) depth (other ++ behind) (fun _ => True) depth
        behind := by
    intro other member behind isComma
    obtain ⟨c, takes⟩ := each other member
    have short := length_le_beforeCommas member
    exact cte_item.reads_item takes isComma (by omega) (by omega)
  have items := beforeCommas_reads before last (Kind.ne_of_opensOperand given.opens.opens rfl)
  simp only [List.cons_append, List.append_assoc, List.nil_append] at items
  refine .still here_still fun _ => (takeWord_yes .WITH).step ?_
  refine (takeWord_mark recursive (ofHead.noRecursive first)).step (items.after fun _ _ => ?_)
  exact .still (spanFrom_still _) fun _ => .pure trivial trivial

end

end CanonicalSql
