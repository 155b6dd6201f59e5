import CanonicalSql.Proofs.Elsewhere.Statement
import CanonicalSql.Proofs.Reading.Rounds

/-!
# Set operations as they may be written

A tree of set operations needs parentheses around a left operand of a lower tier and around a right
operand of a lower tier or of the same one. All other parentheses may be there or not. `Rel.SetText`
says which rows of tokens write a tree, and the body of a query is read from each of them as the
tree (`Parse.wholeQuery_setText`). The clauses behind the last operand apply to the whole: an
operand has clauses of its own only in parentheses.
-/
namespace CanonicalSql

/-- The tier of a set operator. The operators of the higher tier bind tighter. -/
def SetOperator.tier : SetOperator → Nat
  | .union | .except => 1
  | .intersect => 2

namespace Parse

/-- An operand, read with as many levels as a query of the tokens left would leave to it. -/
def wholeOperand : Parse Rel := do queryPrimary (.within (Phrases.boundFor (← get) - 1))

/-- The clauses behind the body of a query, read with as many levels as the tokens left may
need. -/
def wholeTail : Parse (List SortKey × Option Expr × Option Fetch) := do
  tailClauses (← Phrases.forState)

end Parse

/-- A row of tokens that writes a tree of set operations, where operators of the tier at least need
no parentheses. -/
inductive Rel.SetText : (least : Nat) → Rel → List Kind → Prop
  /-- `SELECT`, `VALUES` or `TABLE`. -/
  | body {least : Nat} {rel found : Rel} {row : List Kind}
    (takes : Parse.Takes Parse.wholeOperand row found) (noParen : lead row ≠ .symbol .leftParen)
    (same : rel.alike found = true) : SetText least rel row
  /-- A query with clauses of its own. -/
  | clauses {least : Nat} {query found : Query} {row : List Kind}
    (takes : Parse.Takes Parse.wholeQuery row found) (some : found.isBare = false)
    (same : query.alike found = true) :
    SetText least (.query query) (.symbol .leftParen :: (row ++ [.symbol .rightParen]))
  | enclosed {least : Nat} {rel : Rel} {row : List Kind} (inner : SetText 0 rel row) :
    SetText least rel (.symbol .leftParen :: (row ++ [.symbol .rightParen]))
  | setOp (least : Nat) (op : SetOperator) (quantifier : Option SetQuantifier) {left right : Rel}
    {row other : List Kind} (span : Span) (tight : least ≤ op.tier)
    (first : SetText op.tier left row) (second : SetText (op.tier + 1) right other) :
    SetText least (.setOp op quantifier left right span)
      (row ++ .keyword op.word :: (Piece.kinds (Canonical.ofQuantifier quantifier) ++ other))

/-! ## Powers and tiers -/

namespace SetOperator

theorem ofKind?_word (op : SetOperator) :
    ofKind? (.keyword op.word) = some (op, ⟨2 * op.tier - 1, 2 * op.tier⟩) := by
  cases op <;> rfl

theorem tier_pos (op : SetOperator) : 1 ≤ op.tier := by
  cases op <;> decide

theorem tier_le (op : SetOperator) : op.tier ≤ 2 := by
  cases op <;> decide

theorem left_of_ofKind? {kind : Kind} {op : SetOperator} {power : Power}
    (isOperator : ofKind? kind = some (op, power)) : power.left = 2 * op.tier - 1 := by
  unfold ofKind? at isOperator
  split at isOperator <;> cases isOperator <;> rfl

end SetOperator

/-- What may follow an operand: no operator of a tier above the given one. -/
structure EndsOperand (tier : Nat) (kinds : List Kind) : Prop where
  past : Past 6 kinds
  apart : Parse.isJoint (lead kinds) = false
  low : ∀ op power, SetOperator.ofKind? (lead kinds) = some (op, power) → op.tier ≤ tier

theorem EndsOperand.operator (op : SetOperator) (others : List Kind) :
    EndsOperand op.tier (.keyword op.word :: others) where
  past := by cases op <;> exact Nat.le_refl 6
  apart := by cases op <;> rfl
  low other power isOperator := by
    rw [lead_cons, SetOperator.ofKind?_word] at isOperator
    obtain ⟨rfl, -⟩ := Prod.mk.inj (Option.some.inj isOperator)
    exact Nat.le_refl _

theorem EndsOperand.mono {tier more : Nat} {kinds : List Kind} (ends : EndsOperand tier kinds)
    (less : tier ≤ more) : EndsOperand more kinds :=
  ⟨ends.past, ends.apart, fun op power isOperator => (ends.low op power isOperator).trans less⟩

theorem EndsOperand.any {tier : Nat} {kinds : List Kind} (ends : EndsOperand tier kinds) :
    EndsOperand 2 kinds :=
  ⟨ends.past, ends.apart, fun op _ _ => op.tier_le⟩

theorem EndsOperand.of_past {kinds : List Kind} (past : Past 7 kinds)
    (apart : Parse.isJoint (lead kinds) = false) (tier : Nat) : EndsOperand tier kinds where
  past := past.mono (by omega)
  apart := apart
  low op power isOperator := by
    rw [past.noOperator] at isOperator
    cases isOperator

namespace Parse

variable {limit depth more : Nat} {row rest : List Kind}

theorem wholeOperand_repeats (enough : 8 * row.length + 15 ≤ more) :
    Repeats rest (Past 6 rest) (2 * row.length) (Keyed Rel.erase) wholeOperand
      (queryPrimary (Phrases.within more)) row :=
  .belowState (queryPrimary_repeats (Phrases.within_repeats enough rest) (Phrases.within_shuns _) row)

/-- No operand begins with another token. -/
theorem Gives.queryPrimary_opens {phrases : Phrases} {found : Rel} {left : List Kind}
    (gives : Gives (queryPrimary phrases) row found left) : (lead row).opensOperand = true := by
  obtain ⟨kind, rfl, gives⟩ := gives.after fun _ _ => kind_reads
  split at gives
  case h_5 =>
    obtain ⟨s, t, -, -, run⟩ := gives
    cases run
  all_goals
    next isLead => rw [isLead]; rfl

theorem wholeOperand_opens {found : Rel} (takes : Takes wholeOperand row found) :
    (lead row).opensOperand = true := by
  obtain ⟨phrases, takes⟩ := takes.still fun s => ⟨_, rfl⟩
  exact takes.queryPrimary_opens

end Parse

namespace Rel

open Parse

/-- The row is read as the tree where an operand is expected. -/
def ReadsOperand (rel : Rel) (row : List Kind) : Prop :=
  ∀ {limit depth more : Nat} {rest : List Kind}, 8 * row.length + 15 ≤ more →
    depth + 2 * row.length ≤ capOf limit → EndsOperand 2 rest →
    Reads limit True (queryPrimary (Phrases.within more)) depth (row ++ rest)
      (fun r => r.erase = rel.erase) depth rest

/-- A tree, read in so many rounds. -/
def IsOperand (rel : Rel) (rounds : Nat) (done : Rel × Nat) : Prop :=
  done.1.erase = rel.erase ∧ done.2 = rounds

/-- The operations in the row turn the tree `first` into the tree `rel`, in so many rounds. Their
operators have the tier at least. -/
def ReadsOperations (tier : Nat) (first rel : Rel) (rounds : Nat) (row : List Kind) : Prop :=
  ∀ {limit depth more least : Nat} {rest : List Kind},
    (∀ op : SetOperator, tier ≤ op.tier → least ≤ 2 * op.tier - 1) → 8 * row.length + 15 ≤ more →
    depth + 2 * row.length ≤ capOf limit → EndsOperand tier rest →
    Leads limit (setOperationStep (Phrases.within more) least) (first.IsOperand 0) depth
      (row ++ rest) (rel.IsOperand rounds) (depth + rounds) rest

/-- The row begins with an operand, behind which it is read in some rounds. -/
structure ReadsBody (tier : Nat) (rel first : Rel) (begin row : List Kind) (rounds : Nat) :
    Prop where
  opens : begin ≠ [] ∧ (lead begin).opensOperand = true
  operand : first.ReadsOperand begin
  starts : row ≠ [] → ∃ op : SetOperator, lead row = .keyword op.word
  few : rounds ≤ row.length
  operations : ReadsOperations tier first rel rounds row

variable {rel first : Rel} {begin row : List Kind} {tier rounds limit depth more : Nat}
  {rest : List Kind}

/-- One operand, and no operator behind it. -/
theorem ReadsOperand.body (opens : row ≠ [] ∧ (lead row).opensOperand = true)
    (operand : rel.ReadsOperand row) (tier : Nat) : ReadsBody tier rel rel row [] 0 where
  opens := opens
  operand := operand
  starts := fun some => absurd rfl some
  few := Nat.zero_le _
  operations := fun _ _ _ _ => .none fun _ => id

namespace ReadsBody

theorem ends (given : ReadsBody tier rel first begin row rounds) (ends : EndsOperand 2 rest) :
    EndsOperand 2 (row ++ rest) := by
  cases row with
  | nil => exact ends
  | cons kind others =>
    obtain ⟨op, isOperator⟩ := given.starts (by simp)
    rw [lead_cons] at isOperator
    rw [isOperator]
    exact (EndsOperand.operator op _).any

/-- The operators of the row are taken if they are powerful enough, and what follows is not. -/
theorem operations_read (given : ReadsBody tier rel first begin row rounds) {least : Nat}
    {found : Rel} (same : found.erase = first.erase)
    (strong : ∀ op : SetOperator, tier ≤ op.tier → least ≤ 2 * op.tier - 1)
    (enough : 8 * row.length + 15 ≤ more) (room : depth + 2 * row.length ≤ capOf limit)
    (ends : EndsOperand tier rest)
    (weak : ∀ op power, SetOperator.ofKind? (lead rest) = some (op, power) → power.left < least) :
    Reads limit True (setOperations (Phrases.within more) found least) depth (row ++ rest)
      (fun r => r.erase = rel.erase) depth rest := by
  have last (done : Rel × Nat) {depth : Nat} :
      Reads limit True (setOperationStep (Phrases.within more) least done) depth rest (· = none)
        depth rest := by
    refine kind_reads.step ?_
    cases isOperator : SetOperator.ofKind? (lead rest) with
    | none => exact .pure trivial rfl
    | some operator =>
      simp only [if_pos (weak operator.1 operator.2 isOperator)]
      exact .pure trivial rfl
  refine ((given.operations strong enough room ends).loop (fun v _ => last v)
    ⟨same, rfl⟩).after fun done isDone => ?_
  obtain ⟨joined, levels⟩ := done
  obtain ⟨isThere, rfl⟩ := isDone
  exact (leave_reads levels).step (.pure trivial isThere)

/-- One more operation is one more round. Its right operand takes the operators of higher tiers. -/
theorem step {op : SetOperator} {left right first' : Rel} {begin' row' : List Kind}
    {rounds' : Nat} (quantifier : Option SetQuantifier) (span : Span) (tight : tier ≤ op.tier)
    (given : ReadsBody op.tier left first begin row rounds)
    (operand : ReadsBody (op.tier + 1) right first' begin' row' rounds') :
    ReadsBody tier (.setOp op quantifier left right span) first begin
      (row ++ .keyword op.word ::
        (Piece.kinds (Canonical.ofQuantifier quantifier) ++ (begin' ++ row'))) (rounds + 1) := by
  have few := given.few
  refine ⟨given.opens, given.operand, fun _ => ?_, ?_, ?_⟩
  · cases row with
    | nil => exact ⟨op, rfl⟩
    | cons kind others => exact given.starts (by simp)
  · rw [List.length_append, List.length_cons]
    omega
  intro limit depth more least rest strong enough room ends
  simp only [List.length_append, List.length_cons] at enough room
  simp only [List.append_assoc, List.cons_append]
  -- the rounds of the left operand come first, and one more round takes this operator
  refine (given.operations (fun op' atLeast => strong op' (tight.trans atLeast)) (by omega)
    (by omega) (.operator op _)).trans ?_
  refine .one (by simp only [List.length_append, List.length_cons]; omega) fun done isDone => ?_
  obtain ⟨v, levels⟩ := done
  obtain ⟨isLeft, rfl⟩ := isDone
  have powerful := strong op tight
  have positive := op.tier_pos
  have higher : EndsOperand (op.tier + 1) rest := ends.mono (by omega)
  have opens := operand.opens.2
  rw [← lead_append_of_ne_nil operand.opens.1 (row' ++ rest)] at opens
  obtain ⟨more, rfl⟩ : ∃ fewer, more = fewer + 1 := ⟨more - 1, by omega⟩
  refine kind_reads.step ?_
  rw [lead_cons, SetOperator.ofKind?_word]
  simp only [show ¬ 2 * op.tier - 1 < least by omega, ↓reduceIte]
  refine (enter_reads (by omega)).step (advance_reads.after fun _ _ => ?_)
  refine (setQuantifier_reads quantifier (Kind.ne_of_opensOperand opens rfl)
    (Kind.ne_of_opensOperand opens rfl)).step ?_
  refine (operand.operand (by omega) (by omega) (operand.ends ends.any)).after fun r isFirst => ?_
  -- an operator behind the right operand binds no tighter than this one, so the operand ends
  -- there
  have weak (op' : SetOperator) (power : Power)
      (isOperator : SetOperator.ofKind? (lead rest) = some (op', power)) :
      power.left < 2 * op.tier := by
    have low := ends.low op' power isOperator
    rw [SetOperator.left_of_ofKind? isOperator]
    omega
  refine (operand.operations_read isFirst (fun op' atLeast => by omega) (by omega) (by omega) higher
    weak).after fun joined sameRight => .still (spanFrom_still _) fun _ => ?_
  exact .pure trivial ⟨_, rfl, by simp [Rel.erase, isLeft, sameRight], rfl⟩

/-- A query with this body, and with the clauses behind it. -/
theorem query_read (given : ReadsBody 0 rel first begin row rounds) {good : Query → Prop}
    {tail : List Kind} (enough : 8 * (begin ++ row).length + 15 ≤ more)
    (room : depth + 2 * (begin ++ row).length + 1 ≤ capOf limit) (past : Past 7 tail)
    (apart : isJoint (lead tail) = false)
    (clauses : ∀ body start, body.erase = rel.erase → Reads limit True
      (queryTail (Phrases.within more) none body start) (depth + 1) tail good (depth + 1) rest) :
    Reads limit True (Parse.query (Phrases.within more)) depth (begin ++ row ++ tail) good depth
      rest := by
  rw [List.length_append] at enough room
  have opens := given.opens.2
  rw [← lead_append_of_ne_nil given.opens.1 (row ++ tail)] at opens
  have ends (tier : Nat) : EndsOperand tier tail := .of_past past apart tier
  rw [List.append_assoc]
  refine .nested (by omega) (.still here_still fun start => ?_)
  refine (noWith_reads (Kind.ne_of_opensOperand opens rfl)).step ?_
  refine (given.operand (by omega) (by omega) (given.ends (ends 2))).after fun found isFirst => ?_
  refine (given.operations_read isFirst (fun op _ => Nat.zero_le _) (by omega) (by omega) (ends 0)
    fun op power isOperator => ?_).after fun body isBody => clauses body start isBody
  rw [past.noOperator] at isOperator
  cases isOperator

end ReadsBody

/-- A query without clauses in parentheses is no more than its body. -/
theorem ReadsBody.enclosed (given : ReadsBody 0 rel first begin row rounds) :
    rel.ReadsOperand (.symbol .leftParen :: (begin ++ row ++ [.symbol .rightParen])) := by
  intro limit depth more rest enough room ends
  simp only [List.length_append, List.length_cons, List.length_nil] at enough room
  obtain ⟨more, rfl⟩ : ∃ fewer, more = fewer + 1 := ⟨more - 1, by omega⟩
  have inner : Reads limit True (Parse.query (Phrases.within more)) depth
      (begin ++ row ++ .symbol .rightParen :: rest)
      (fun q => ∃ body span, q = bareQuery body span ∧ body.erase = rel.erase) depth
      (.symbol .rightParen :: rest) := by
    refine given.query_read (by rw [List.length_append]; omega)
      (by rw [List.length_append]; omega) ((Past.close rest).mono (by omega)) rfl
      fun body start same => ?_
    refine (noTail_reads (Past.close rest) none body start).weaken ?_
    rintro _ ⟨span, rfl⟩
    exact ⟨body, span, rfl, same⟩
  simp only [List.append_assoc, List.cons_append, List.nil_append] at inner ⊢
  refine kind_reads.step ((Reads.parenthesized inner).after ?_)
  rintro _ ⟨body, span, rfl, same⟩
  exact .pure trivial same

/-- The induction is on how the tree is written. -/
theorem SetText.reads {least : Nat} (text : SetText least rel row) :
    ∃ first begin others rounds, row = begin ++ others ∧
      ReadsBody least rel first begin others rounds := by
  -- operands of every shape are bodies without further operations
  have alone {least : Nat} {rel : Rel} {row : List Kind}
      (opens : row ≠ [] ∧ (lead row).opensOperand = true) (operand : rel.ReadsOperand row) :
      ∃ first begin others rounds, row = begin ++ others ∧
        ReadsBody least rel first begin others rounds :=
    ⟨rel, row, [], 0, (List.append_nil row).symm, operand.body opens least⟩
  induction text with
  | body takes noParen same =>
    have opens := wholeOperand_opens takes
    refine alone ⟨?_, opens⟩ fun enough room ends => ?_
    · rintro rfl
      cases opens
    · exact ((wholeOperand_repeats enough).reads takes ends.past ends.apart room).weaken fun r isFound =>
        isFound.trans ((Rel.alike_iff _ _).mp same).symm
  | @clauses least query found row takes some same =>
    refine alone ⟨by simp, rfl⟩ fun {limit depth more rest} enough room ends => ?_
    simp only [List.length_append, List.length_cons, List.length_nil] at enough room
    simp only [List.append_assoc, List.cons_append, List.nil_append]
    have same : found.erase = query.erase := ((Query.alike_iff _ _).mp same).symm
    have inner : Reads limit True (Phrases.within more).query depth
        (row ++ .symbol .rightParen :: rest) (fun q => q.erase = found.erase) depth
        (.symbol .rightParen :: rest) :=
      takes.query (by omega) (Past.close rest) rfl (by omega)
    refine kind_reads.step ((Reads.parenthesized inner).after fun q isFound => .pure trivial ?_)
    rw [Query.operand_erase, isFound, ← Query.operand_erase, Query.operand, some]
    exact congrArg Rel.query same
  | enclosed inner ih =>
    obtain ⟨first, begin, others, rounds, rfl, given⟩ := ih
    exact alone ⟨by simp, rfl⟩ given.enclosed
  | setOp least op quantifier span tight _ _ ih ih' =>
    obtain ⟨first, begin, others, rounds, rfl, given⟩ := ih
    obtain ⟨first', begin', others', rounds', rfl, operand⟩ := ih'
    exact ⟨first, begin, _, rounds + 1, List.append_assoc .., given.step quantifier span tight operand⟩

end Rel

namespace Parse

variable {rel : Rel} {tail : List Kind} {keys : List SortKey} {skipped : Option Expr}
  {fetched : Option Fetch}

theorem wholeTail_repeats (rel : Rel) (enough : 8 * tail.length + 16 ≤ more) :
    Repeats rest (Past 10 rest) (2 * tail.length)
      (Keyed fun it => (Query.mk none rel it.1 it.2.1 it.2.2 default).erase) wholeTail
      (tailClauses (Phrases.within more)) tail := by
  have below := Phrases.within_repeats enough rest
  refine .forState (.bind (orderBy_repeats below tail) (·.mono (by omega))
    fun keys keys' left same few => ?_)
  have offset := offset_repeats below (fun past : Past 10 rest => past.mono (by omega))
    (·.ne (by decide)) left
  refine .bind (offset.within id (by omega)) id fun skipped skipped' left' same₁ few₁ => ?_
  refine .bind ((fetch_repeats below (Phrases.within_shuns _) left').within id (by omega)) id
    fun fetched fetched' _ same₂ _ => .done ?_
  rw [Keyed, Query.erase, Query.erase, same, same₁, same₂]

/-- Clauses behind a body begin with one of three words. -/
theorem wholeTail_past (takes : Takes wholeTail tail (keys, skipped, fetched)) : Past 7 tail := by
  obtain ⟨phrases, takes⟩ := takes.still fun s => ⟨_, rfl⟩
  by_contra early
  have other {word : Keyword} (late : 7 ≤ (Kind.keyword word).rank) : lead tail ≠ .keyword word :=
    fun isLead => early (by rw [Past, isLead]; exact late)
  obtain ⟨-, rfl⟩ := takes.of_reads fun _ _ =>
    noClauses_reads (other (by decide)) (other (by decide)) (other (by decide))
  exact early (Nat.le_add_right 7 3)

theorem queryTail_taken {body : Rel} {start : Span}
    (takes : Takes wholeTail tail (keys, skipped, fetched)) (same : body.erase = rel.erase)
    (enough : 8 * tail.length + 16 ≤ more) (past : Past 10 rest)
    (apart : isJoint (lead rest) = false) (room : depth + 2 * tail.length ≤ capOf limit) :
    Reads limit True (queryTail (Phrases.within more) none body start) depth (tail ++ rest)
      (fun q => q.erase = (Query.mk none rel keys skipped fetched default).erase) depth rest := by
  rw [queryTail_eq]
  refine ((wholeTail_repeats rel enough).reads takes past apart room).after
    fun clauses isFound => .still (spanFrom_still start) fun span => .pure trivial ?_
  simp only [Keyed, Query.erase] at isFound ⊢
  rw [same, isFound]

/-- From each text of set operations with clauses behind it a query is read whose body is the tree
of the operations and whose clauses are those behind it. -/
theorem wholeQuery_setText {text : String} {body : List Kind} (written : Rel.SetText 0 rel body)
    (clauses : Takes wholeTail tail (keys, skipped, fetched))
    (splits : Scan.Splits text.toList (body ++ tail)) (holds : text.utf8ByteSize < 2 ^ 63) :
    ∃ least, ∀ limit ≥ least, ∃ start query last,
      State.ofStream limit (Lexer.ofText text).stream = .ok start ∧
        wholeQuery start = .ok query last ∧ last.current.kind = .endOfInput ∧
        Query.alike ⟨none, rel, keys, skipped, fetched, default⟩ query = true := by
  obtain ⟨first, begin, others, rounds, rfl, given⟩ := written.reads
  refine ⟨(begin ++ others ++ tail).length + 1, fun limit enough => ?_⟩
  have room := room_of_length splits holds limit (by omega)
  have total : (begin ++ others ++ tail).length = (begin ++ others).length + tail.length :=
    List.length_append
  have some : 1 ≤ (begin ++ others).length := by
    have some := List.length_pos_iff.mpr given.opens.1
    rw [List.length_append]
    omega
  -- what follows the body is a clause or nothing, and so no operator
  have past := wholeTail_past clauses
  have apart : isJoint (lead tail) = false := by
    unfold Past at past
    generalize lead tail = kind at past
    unfold isJoint
    split <;> first | rfl | exact absurd past (by decide)
  have whole : Reads limit True wholeQuery 0 (begin ++ others ++ tail)
      (fun q => q.erase = (Query.mk none rel keys skipped fetched default).erase) 0 [] := by
    have levels : 8 * (begin ++ others ++ tail).length + 15 + 1 =
        8 * (begin ++ others ++ tail).length + 16 := rfl
    refine wholeQuery_of_query levels ?_
    refine given.query_read (by omega) (by omega) past apart fun found start same => ?_
    have taken : Reads limit True
        (queryTail (Phrases.within (8 * (begin ++ others ++ tail).length + 15)) none found start) 1
        (tail ++ []) (fun q => q.erase = (Query.mk none rel keys skipped fetched default).erase) 1 [] :=
      queryTail_taken clauses same (by omega) (Nat.le_refl 10) rfl (by omega)
    rwa [List.append_nil] at taken
  obtain ⟨start, query, last, begins, run, same, shows⟩ := whole.ofText splits
  exact ⟨start, query, last, begins, run, shows.current, (Query.alike_iff _ _).mpr same.symm⟩

/-- Parentheses around a right operand of the same tier, which is a left operand of a higher one. -/
theorem wholeQuery_setText_mixed :
    ∃ least, ∀ limit ≥ least, ∃ start query last,
      State.ofStream limit (Lexer.ofText
          "TABLE a UNION ALL (TABLE b EXCEPT TABLE c) INTERSECT TABLE d ORDER BY 1").stream =
          .ok start ∧
        wholeQuery start = .ok query last ∧ last.current.kind = .endOfInput ∧
        Query.alike ⟨none,
          .setOp .union (some .all) (.table ⟨[], "a"⟩ default)
            (.setOp .intersect none
              (.setOp .except none (.table ⟨[], "b"⟩ default) (.table ⟨[], "c"⟩ default) default)
              (.table ⟨[], "d"⟩ default) default) default,
          [⟨.integer 1 default, .ascending, .unspecified, default⟩], none, none, default⟩ query =
            true := by
  have table (text : String) (name : Name) (row : List Kind) (least : Nat)
      (tokens : Lexer.kindsOf text = row) (isTable : lead row = .keyword .TABLE)
      (passes : (alone? wholeOperand 1 text).any
        (fun found => (Rel.table ⟨[], name⟩ default).alike found) = true) :
      Rel.SetText least (.table ⟨[], name⟩ default) row := by
    obtain ⟨found, alone, same⟩ := exists_alone wholeOperand 1 text _ passes
    have takes := alone.takes [] (wholeOperand_repeats (Nat.le_refl _))
    rw [tokens] at takes
    exact .body takes (by simp [isTable]) same
  have a := table "TABLE a" "a" [.keyword .TABLE, .identifier "a"] 1 (by decide +kernel) rfl
    (by decide +kernel)
  have b := table "TABLE b" "b" [.keyword .TABLE, .identifier "b"] 1 (by decide +kernel) rfl
    (by decide +kernel)
  have c := table "TABLE c" "c" [.keyword .TABLE, .identifier "c"] 2 (by decide +kernel) rfl
    (by decide +kernel)
  have d := table "TABLE d" "d" [.keyword .TABLE, .identifier "d"] 3 (by decide +kernel) rfl
    (by decide +kernel)
  have excepted := Rel.SetText.setOp 0 .except none default (by decide) b c
  have intersected := Rel.SetText.setOp 2 .intersect none default (by decide) excepted.enclosed d
  have written := Rel.SetText.setOp 0 .union (some .all) default (by decide) a intersected
  obtain ⟨⟨keys, skipped, fetched⟩, alone, same⟩ := exists_alone wholeTail 3 "ORDER BY 1"
    (fun it => (Query.mk none (.table ⟨[], "a"⟩ default)
      [⟨.integer 1 default, .ascending, .unspecified, default⟩] none none default).alike
      ⟨none, .table ⟨[], "a"⟩ default, it.1, it.2.1, it.2.2, default⟩) (by decide +kernel)
  have clauses := alone.takes [] (wholeTail_repeats default (Nat.le_refl _))
  have tokens : Lexer.kindsOf "ORDER BY 1" = [.keyword .ORDER, .keyword .BY, .integer 1] := by
    decide +kernel
  rw [tokens] at clauses
  have splits : Scan.Splits
      "TABLE a UNION ALL (TABLE b EXCEPT TABLE c) INTERSECT TABLE d ORDER BY 1".toList
      [.keyword .TABLE, .identifier "a", .keyword .UNION, .keyword .ALL, .symbol .leftParen,
        .keyword .TABLE, .identifier "b", .keyword .EXCEPT, .keyword .TABLE, .identifier "c",
        .symbol .rightParen, .keyword .INTERSECT, .keyword .TABLE, .identifier "d",
        .keyword .ORDER, .keyword .BY, .integer 1] :=
    (Scan.spaced_of_spaced? 80 (by decide +kernel)).splits
  obtain ⟨least, reads⟩ := wholeQuery_setText written clauses splits (by decide +kernel)
  refine ⟨least, fun limit enough => ?_⟩
  obtain ⟨start, query, last, begins, run, ends, found⟩ := reads limit enough
  refine ⟨start, query, last, begins, run, ends, ?_⟩
  rw [Query.alike_iff] at same found ⊢
  simp only [Query.erase, Query.mk.injEq] at same found ⊢
  obtain ⟨-, -, keys, skipped, fetched, -⟩ := same
  rw [keys, skipped, fetched]
  exact found

end Parse

end CanonicalSql
