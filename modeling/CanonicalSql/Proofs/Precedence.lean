import CanonicalSql.Proofs.Elsewhere.Whole
import CanonicalSql.Proofs.Reading.Rounds
import CanonicalSql.Proofs.Reading.Spelled

/-!
# Expressions as they may be written

Each operator has a tier, and an operand needs parentheses if its tier is below what its place asks
for. All other parentheses may be there or not, and `NOT` over a predicate may stand inside of it.
`Expr.OperatorText` says which rows of tokens write a tree. The operators that follow an operand are read
in one loop, whose rounds go up the left side of the tree (`Expr.ReadsOperators`), so each of these
rows is read as the tree (`Parse.wholeExpression_operatorText`).
-/
namespace CanonicalSql

/-! ## Tiers -/

/-- The tier of an operator between two expressions. The operators of a higher tier bind tighter. -/
def BinaryOp.tier : BinaryOp → Nat
  | .or => 1
  | .and => 2
  | .less | .lessEqual | .greater | .greaterEqual | .equal | .notEqual => 4
  | .concat => 5
  | .add | .subtract => 6
  | .multiply | .divide => 7

/-- The tier that the left operand needs. Comparisons do not chain. -/
def BinaryOp.leftTier (op : BinaryOp) : Nat :=
  if op.tier = 4 then 5 else op.tier

/-- The tier of an operator in front of an expression. -/
def UnaryOp.tier : UnaryOp → Nat
  | .not => 3
  | .negate => 8

/-- The powers of the operators of a tier. -/
def Power.ofTier (tier : Nat) : Power := ⟨2 * tier - 1, 2 * tier⟩

/-! ## Texts -/

/-- A literal or the name of a column, and the tokens that write it. -/
inductive Expr.IsAtom : Expr → List Kind → Prop
  | integer (value : Int) (span : Span) : IsAtom (.integer value span) [.integer value]
  | string (value : String) (kind : StringKind) (span : Span) :
    IsAtom (.string value kind span) [.string value kind]
  | truth (value : TruthValue) (span : Span) : IsAtom (.truth value span) [.keyword value.word]
  | null (span : Span) : IsAtom (.null span) [.keyword .NULL]
  | column {name : QualifiedName} {row : List Kind} (span : Span) (spelled : name.IsSpelled row) :
    IsAtom (.column name span) row

/-- A predicate or its negation. -/
def Expr.negatedIf (negative : Bool) (test : Expr) (span : Span) : Expr :=
  if negative then .unary .not test span else test

/-- `NOT` where it stands inside of a predicate. -/
def Expr.notIf (negative : Bool) : List Kind :=
  if negative then [.keyword .NOT] else []

/-- `expr IS value`, where no value stands for `NULL`. -/
def Expr.tested (expr : Expr) (value : Option TruthValue) (span : Span) : Expr :=
  match value with
  | none => .isNull expr span
  | some value => .isTruth expr value span

/-- The word behind `IS`. -/
def Expr.testedWord : Option TruthValue → Keyword
  | none => .NULL
  | some value => value.word

/-- The words behind `BETWEEN`. -/
def Expr.symmetrySpellings (symmetric : Bool) : List (List Kind) :=
  if symmetric then [[.keyword .SYMMETRIC]] else [[], [.keyword .ASYMMETRIC]]

/-- `ESCAPE` with its operand, or nothing. -/
def Expr.escapeRow : Option (Expr × List Kind) → List Kind
  | none => []
  | some it => .keyword .ESCAPE :: it.2

/-- A row of tokens that writes a tree, where operators of the tier at least need no parentheses.
What stands for the leaves of a tree is given by `atom`. -/
inductive Expr.OperatorText (atom : Expr → List Kind → Prop) : (tier : Nat) → Expr → List Kind → Prop
  | atom {tier : Nat} {expr : Expr} {row : List Kind} (isAtom : atom expr row) :
    OperatorText atom tier expr row
  | enclosed {tier : Nat} {expr : Expr} {row : List Kind} (inner : OperatorText atom 0 expr row) :
    OperatorText atom tier expr (.symbol .leftParen :: (row ++ [.symbol .rightParen]))
  | unary {tier : Nat} (op : UnaryOp) {operand : Expr} {row : List Kind} (span : Span)
    (tight : tier ≤ op.tier) (inner : OperatorText atom op.tier operand row) :
    OperatorText atom tier (.unary op operand span) (op.kind :: row)
  | binary {tier : Nat} (op : BinaryOp) {left right : Expr} {row other : List Kind} (span : Span)
    (tight : tier ≤ op.tier) (first : OperatorText atom op.leftTier left row)
    (second : OperatorText atom (op.tier + 1) right other) :
    OperatorText atom tier (.binary left op right span) (row ++ op.kind :: other)
  | collate {tier : Nat} {expr : Expr} {row other : List Kind} {collation : QualifiedName}
    (span : Span) (tight : tier ≤ 9) (first : OperatorText atom 9 expr row)
    (spelled : collation.IsSpelled other) :
    OperatorText atom tier (.collate expr collation span) (row ++ .keyword .COLLATE :: other)
  | tested {tier : Nat} (negative : Bool) (value : Option TruthValue) {expr : Expr} {row : List Kind}
    (span span' : Span) (tight : tier ≤ 4) (first : OperatorText atom 5 expr row) :
    OperatorText atom tier (.negatedIf negative (expr.tested value span) span')
      (row ++ .keyword .IS :: (notIf negative ++ [.keyword (testedWord value)]))
  | between {tier : Nat} (negative symmetric : Bool) {words : List Kind} {expr low high : Expr}
    {row lowRow highRow : List Kind} (span span' : Span) (tight : tier ≤ 4)
    (spelled : words ∈ symmetrySpellings symmetric) (first : OperatorText atom 5 expr row)
    (second : OperatorText atom 5 low lowRow) (third : OperatorText atom 5 high highRow) :
    OperatorText atom tier (.negatedIf negative (.between expr low high symmetric span) span')
      (row ++ (notIf negative ++ .keyword .BETWEEN ::
        (words ++ (lowRow ++ .keyword .AND :: highRow))))
  | within {tier : Nat} (negative : Bool) {expr : Expr} {row : List Kind} (it : Expr × List Kind)
    (items : List (Expr × List Kind)) (span span' span'' : Span) (tight : tier ≤ 4)
    (first : OperatorText atom 5 expr row) (each : ∀ other ∈ it :: items, OperatorText atom 0 other.1 other.2) :
    OperatorText atom tier
      (.negatedIf negative (.within expr (.values ((it :: items).map Prod.fst) span) span') span'')
      (row ++ (notIf negative ++ .keyword .IN :: .symbol .leftParen ::
        (it.2 ++ (Parse.commaRows (items.map Prod.snd) ++ [.symbol .rightParen]))))
  | like {tier : Nat} (negative : Bool) {expr pattern : Expr} {row patternRow : List Kind}
    (escape : Option (Expr × List Kind)) (span span' : Span) (tight : tier ≤ 4)
    (first : OperatorText atom 5 expr row) (second : OperatorText atom 5 pattern patternRow)
    (third : ∀ it ∈ escape, OperatorText atom 5 it.1 it.2) :
    OperatorText atom tier (.negatedIf negative (.like expr pattern (escape.map Prod.fst) span) span')
      (row ++ (notIf negative ++ .keyword .LIKE :: (patternRow ++ escapeRow escape)))

/-! ## Powers and tiers -/

theorem BinaryOp.ofKind?_power (op : BinaryOp) :
    Power.ofKind? op.kind = some (.ofTier op.tier) := by
  cases op <;> rfl

theorem BinaryOp.ahead (op : BinaryOp) (others : List Kind) :
    Power.ahead (op.kind :: others) = some (.ofTier op.tier) := by
  have noNot : op.kind ≠ .keyword .NOT := by cases op <;> simp [BinaryOp.kind]
  rw [Power.ahead, lead_cons, if_neg noNot, op.ofKind?_power]

/-- Of the two loosest tiers there are only operators between two operands. -/
theorem BinaryOp.of_ahead {kinds : List Kind} {tier : Nat}
    (isAhead : Power.ahead kinds = some (.ofTier tier)) (weak : tier ≤ 2) :
    ∃ (op : BinaryOp) (others : List Kind), kinds = op.kind :: others ∧ tier = op.tier := by
  have right {power : Power} (same : power = .ofTier tier) : power.right = 2 * tier :=
    congrArg Power.right same
  match kinds with
  | [] => cases isAhead
  | kind :: others =>
    unfold Power.ahead Power.ofKind? at isAhead
    rw [lead_cons] at isAhead
    split at isAhead
    · split at isAhead
      · have loose : 8 = 2 * tier := right (Option.some.inj isAhead)
        omega
      · cases isAhead
    · split at isAhead
      case h_1 =>
        have tiers : 2 = 2 * tier := right (Option.some.inj isAhead)
        exact ⟨.or, others, rfl, show tier = 1 by omega⟩
      case h_2 =>
        have tiers : 4 = 2 * tier := right (Option.some.inj isAhead)
        exact ⟨.and, others, rfl, show tier = 2 by omega⟩
      all_goals first
        | have tiers := right (Option.some.inj isAhead)
          dsimp only [Power.comparison] at tiers
          omega
        | cases isAhead

theorem BinaryOp.tier_pos (op : BinaryOp) : 1 ≤ op.tier := by
  cases op <;> decide

theorem UnaryOp.ofKind?_kind (op : UnaryOp) :
    UnaryOp.ofKind? op.kind = some (op, 2 * op.tier - 1) := by
  cases op <;> rfl

/-- The operators that follow an expression have all the powers of some tier, which is none of the
two tiers of operators in front. -/
theorem Power.eq_ofTier {kinds : List Kind} {power : Power}
    (isAhead : Power.ahead kinds = some power) :
    ∃ tier, power = .ofTier tier ∧ 1 ≤ tier ∧ ∀ op : UnaryOp, tier ≠ op.tier := by
  have found : power ∈ [.ofTier 1, .ofTier 2, .ofTier 4, .ofTier 5, .ofTier 6, .ofTier 7,
      .ofTier 9] := by
    unfold Power.ahead Power.ofKind? at isAhead
    split at isAhead
    · split at isAhead
      · cases isAhead
        decide
      · cases isAhead
    · split at isAhead <;> first | (cases isAhead; decide) | cases isAhead
  simp only [List.mem_cons, List.not_mem_nil, or_false] at found
  rcases found with rfl | rfl | rfl | rfl | rfl | rfl | rfl <;>
    exact ⟨_, rfl, by decide, fun op => by cases op <;> decide⟩

/-- An operator ends the name and the call before it. -/
theorem Stops.of_ahead {kinds : List Kind} {power : Power}
    (isAhead : Power.ahead kinds = some power) : Stops kinds := by
  have other {kind : Kind} (noNot : kind ≠ .keyword .NOT) (quiet : Power.ofKind? kind = none) :
      lead kinds ≠ kind := by
    rintro rfl
    rw [Power.ahead, if_neg noNot, quiet] at isAhead
    cases isAhead
  exact ⟨other (by simp) rfl, other (by simp) rfl, other (by simp) rfl⟩

/-- An operator is read by itself. -/
theorem Parse.isJoint_of_ahead {kinds : List Kind} {power : Power}
    (isAhead : Power.ahead kinds = some power) : isJoint (lead kinds) = false := by
  have quiet (kind : Kind) (joint : isJoint kind = true) :
      kind ≠ .keyword .NOT ∧ Power.ofKind? kind = none := by
    unfold isJoint at joint
    split at joint
    case h_4 => cases joint
    all_goals exact ⟨by simp, rfl⟩
  by_contra joint
  obtain ⟨noNot, none⟩ := quiet _ (Bool.not_eq_false _ ▸ joint)
  rw [Power.ahead, if_neg noNot, none] at isAhead
  cases isAhead

/-- What may follow an operand: no operator of a tier above the given one, and no `ESCAPE` if the
operand may end with a pattern. What follows is read by itself. -/
structure EndsTier (tier : Nat) (kinds : List Kind) : Prop extends Stops kinds where
  apart : Parse.isJoint (lead kinds) = false
  low : ∀ power, Power.ahead kinds = some power → power.left < 2 * tier
  escape : tier ≤ 4 → lead kinds ≠ .keyword .ESCAPE

namespace EndsTier

variable {tier more : Nat} {kinds : List Kind}

theorem mono (ends : EndsTier tier kinds) (less : tier ≤ more) : EndsTier more kinds where
  toStops := ends.toStops
  apart := ends.apart
  low power isAhead := Nat.lt_of_lt_of_le (ends.low power isAhead) (by omega)
  escape low := ends.escape (less.trans low)

theorem of_ahead {other : Nat} (isAhead : Power.ahead kinds = some (.ofTier other))
    (less : other ≤ tier) (some : 1 ≤ tier) : EndsTier tier kinds where
  toStops := .of_ahead isAhead
  apart := Parse.isJoint_of_ahead isAhead
  low power isOther := by
    rw [isAhead] at isOther
    cases isOther
    show 2 * other - 1 < 2 * tier
    omega
  escape _ isEscape := by
    have none : Power.ofKind? (.keyword .ESCAPE) = none := rfl
    rw [Power.ahead, if_neg (by simp [isEscape]), isEscape, none] at isAhead
    cases isAhead

theorem of_quiet (quiet : (lead kinds).isQuiet = true) (apart : Parse.isJoint (lead kinds) = false)
    (noEscape : 4 < tier ∨ lead kinds ≠ .keyword .ESCAPE) : EndsTier tier kinds where
  toStops := .of_quiet quiet
  apart := apart
  low power isAhead :=
    absurd ((Ends.of_quiet quiet).power power isAhead) (Nat.not_lt_zero _)
  escape low := noEscape.resolve_left (by omega)

/-- An operand is read up to what follows it, also where it is read with the power of a place that
asks for the tier. -/
theorem weak (ends : EndsTier tier kinds) {op : UnaryOp} (isTier : op.tier = tier) (power : Power)
    (isAhead : Power.ahead kinds = some power) : power.left < 2 * op.tier - 1 := by
  have low := ends.low power isAhead
  obtain ⟨other, rfl, some, apart⟩ := Power.eq_ofTier isAhead
  have apart := apart op
  change 2 * other - 1 < 2 * tier at low
  show 2 * other - 1 < 2 * op.tier - 1
  omega

end EndsTier

/-- Whether an expression may begin with the token. -/
def Kind.opensExpression : Kind → Bool
  | .integer _ | .float _ | .string .. | .identifier _ | .symbol .star | .symbol .leftParen
  | .symbol .minus | .keyword .NOT | .keyword .TRUE | .keyword .FALSE | .keyword .UNKNOWN
  | .keyword .NULL | .keyword .EXISTS | .keyword .UNIQUE | .keyword .ROW => true
  | .keyword word => !word.isReserved
  | _ => false

theorem Kind.ne_of_opensExpression {kind other : Kind} (opens : kind.opensExpression = true)
    (closed : other.opensExpression = false) : kind ≠ other := by
  rintro rfl
  rw [opens] at closed
  cases closed

theorem Kind.opensExpression_of_name? {kind : Kind} {name : Name} (spells : kind.name? = some name) :
    kind.opensExpression = true := by
  cases kind with
  | identifier => rfl
  | keyword word =>
    have free : word.isReserved = false := free_of_name? spells
    unfold opensExpression
    split <;> first | rfl | simp_all
  | _ => cases spells

theorem Kind.noUnary_of_name? {kind : Kind} {name : Name} (spells : kind.name? = some name) :
    UnaryOp.ofKind? kind = none := by
  unfold UnaryOp.ofKind?
  split
  · have free := free_of_name? spells
    cases free
  · cases spells
  · rfl

theorem Parse.noQuery_of_opensExpression {kind : Kind} (opens : kind.opensExpression = true) :
    isQueryStart kind = false := by
  unfold isQueryStart
  split <;> first | rfl | cases opens

/-! ## Operands and the operators behind them -/

namespace Expr

open Parse

/-- The row is read as the tree where a leading part without an operator in front is expected. -/
structure ReadsPrimary (expr : Expr) (row : List Kind) : Prop where
  nonempty : row ≠ []
  opens : (lead row).opensExpression = true
  noPrefix : UnaryOp.ofKind? (lead row) = none
  reads : ∀ {limit depth more : Nat} {rest : List Kind}, 8 * row.length + 15 ≤ more →
    depth + 2 * row.length ≤ capOf limit → Stops rest → isJoint (lead rest) = false →
    Reads limit True (primary (Phrases.within more)) depth (row ++ rest)
      (fun e => e.erase = expr.erase) depth rest

/-- The row is read as the tree where an operand of the tier at least is expected. -/
structure ReadsOperand (tier : Nat) (expr : Expr) (row : List Kind) : Prop where
  nonempty : row ≠ []
  opens : (lead row).opensExpression = true
  reads : ∀ {limit depth more least : Nat} {rest : List Kind}, least ≤ 2 * tier - 1 →
    8 * row.length + 15 ≤ more → depth + 2 * row.length ≤ capOf limit → EndsTier tier rest →
    (∀ power, Power.ahead rest = some power → power.left < least) →
    Reads limit True (operand (Phrases.within more) least) depth (row ++ rest)
      (fun e => e.erase = expr.erase) depth rest

/-- An operator of the tier and what it takes on its right turn the tree `left` into `expr`. -/
structure ReadsOperator (tier : Nat) (left expr : Expr) (row : List Kind) : Prop where
  ahead : ∀ rest, Power.ahead (row ++ rest) = some (.ofTier tier)
  reads : ∀ {limit depth more : Nat} {found : Expr} {start : Span} {rest : List Kind},
    found.erase = left.erase → 8 * row.length + 15 ≤ more →
    depth + 2 * row.length ≤ capOf limit + 1 → EndsTier tier rest →
    Reads limit True (applied (Phrases.within more) found (2 * tier) start) depth (row ++ rest)
      (fun e => e.erase = expr.erase) depth rest

/-- A tree, read in so many rounds. Behind a comparison no operator may follow that a place of a
higher tier could have. -/
structure IsApplied (expr : Expr) (tier rounds : Nat) (done : Applied) : Prop where
  left : done.left.erase = expr.erase
  levels : done.levels = rounds
  free : 5 ≤ tier → done.afterComparison = false

/-- The operators in the row turn the tree `first` into the tree `expr`, in so many rounds. They
have the tier at least. -/
def ReadsOperators (tier : Nat) (first expr : Expr) (rounds : Nat) (row : List Kind) : Prop :=
  ∀ {limit depth more least : Nat} {start : Span} {rest : List Kind}, least ≤ 2 * tier - 1 →
    8 * row.length + 15 ≤ more → depth + 2 * row.length ≤ capOf limit → EndsTier tier rest →
    Leads limit (operatorStep (Phrases.within more) least start)
      (fun done => done.left.erase = first.erase ∧ done.levels = 0 ∧ done.afterComparison = false)
      depth (row ++ rest) (expr.IsApplied tier rounds) (depth + rounds) rest

/-- The row begins with a leading part, behind which it is read in some rounds. -/
structure ReadsRounds (tier : Nat) (expr first : Expr) (begin row : List Kind) (rounds : Nat) :
    Prop where
  nonempty : begin ≠ []
  opens : (lead begin).opensExpression = true
  leading : ∀ {limit depth more : Nat} {rest : List Kind}, 8 * begin.length + 15 ≤ more →
    depth + 2 * begin.length ≤ capOf limit → EndsTier tier rest →
    Reads limit True (Parse.leading (Phrases.within more)) depth (begin ++ (row ++ rest))
      (fun e => e.erase = first.erase) depth (row ++ rest)
  few : rounds ≤ row.length
  operators : ReadsOperators tier first expr rounds row

variable {expr left first : Expr} {begin row other : List Kind} {tier rounds limit depth more : Nat}
  {rest : List Kind}

namespace ReadsRounds

/-- A leading part, and no operator behind it. -/
theorem of_leading (nonempty : row ≠ []) (opens : (lead row).opensExpression = true)
    (leading : ∀ {limit depth more : Nat} {rest : List Kind}, 8 * row.length + 15 ≤ more →
      depth + 2 * row.length ≤ capOf limit → EndsTier tier rest →
      Reads limit True (Parse.leading (Phrases.within more)) depth (row ++ rest)
        (fun e => e.erase = expr.erase) depth rest) :
    ReadsRounds tier expr expr row [] 0 where
  nonempty := nonempty
  opens := opens
  leading enough room ends := leading enough room ends
  few := Nat.le_refl 0
  operators _ _ _ _ := .none fun _ isFirst => ⟨isFirst.1, isFirst.2.1, fun _ => isFirst.2.2⟩

/-- One more operator is one more round. -/
theorem step {leftTier above : Nat} (given : ReadsRounds leftTier left first begin row rounds)
    (tight : tier ≤ above) (some : 1 ≤ above) (lower : above ≤ leftTier)
    (noChain : 4 ≤ above → 5 ≤ leftTier) (operator : ReadsOperator above left expr other) :
    ReadsRounds tier expr first begin (row ++ other) (rounds + 1) := by
  have follows (rest : List Kind) : EndsTier leftTier (other ++ rest) :=
    .of_ahead (operator.ahead rest) lower (some.trans lower)
  have taken : other ≠ [] := by
    rintro rfl
    cases operator.ahead []
  have taken := List.length_pos_iff.mpr taken
  have few := given.few
  refine ⟨given.nonempty, given.opens, fun enough room _ => ?_, ?_, ?_⟩
  · rw [List.append_assoc]
    exact given.leading enough room (follows _)
  · rw [List.length_append]
    omega
  intro limit depth more least start rest strong enough room ends
  rw [List.length_append] at enough room
  rw [List.append_assoc]
  -- the rounds of the left operand come first, and one more round takes this operator
  refine (given.operators (by omega) (by omega) (by omega) (follows rest)).trans ?_
  refine .one (by rw [List.length_append]; omega) fun done isDone => ?_
  -- two comparisons in a row are refused; an operator of a lower tier may follow one, and one of
  -- tier four or more follows no comparison
  have noFlag : ¬ (done.afterComparison &&
      decide (Power.comparison.left ≤ (Power.ofTier above).left)) = true := by
    rcases Nat.lt_or_ge above 4 with low | high
    · have weak : ¬ Power.comparison.left ≤ (Power.ofTier above).left := by
        change ¬ 7 ≤ 2 * above - 1
        omega
      simp [weak]
    · simp [isDone.free (noChain high)]
  refine operatorPower_reads.step ?_
  rw [operator.ahead rest]
  have strong : ¬ (Power.ofTier above).left < least := by
    change ¬ 2 * above - 1 < least
    omega
  dsimp only
  rw [if_neg strong, if_neg noFlag]
  refine (enter_reads (by omega)).step ?_
  refine (operator.reads isDone.left (by omega) (by omega) (ends.mono tight)).after
    fun e isExpr => .pure trivial ⟨_, rfl, isExpr, ?_, fun high => ?_⟩
  · rw [isDone.levels]
  · have other : Power.ofTier above ≠ Power.comparison := by
      intro same
      have left : 2 * above = 8 := congrArg Power.right same
      omega
    simpa using other

/-- The operators of the row are taken if they are powerful enough, and what follows is not. -/
theorem operand (given : ReadsRounds tier expr first begin row rounds) :
    ReadsOperand tier expr (begin ++ row) where
  nonempty := by simp [given.nonempty]
  opens := by
    rw [lead_append_of_ne_nil given.nonempty]
    exact given.opens
  reads {limit depth more least rest} strong enough room ends weak := by
    rw [List.length_append] at enough room
    rw [List.append_assoc]
    refine .still here_still fun start => ?_
    refine (given.leading (by omega) (by omega) ends).after fun e isFirst => ?_
    have run : Leads limit (operatorStep (Phrases.within more) least start) _ depth (row ++ rest)
        (expr.IsApplied tier rounds) (depth + rounds) rest :=
      given.operators strong (by omega) (by omega) ends
    have begun : e.erase = first.erase ∧ (⟨e, 0, false⟩ : Applied).levels = 0 ∧
        (⟨e, 0, false⟩ : Applied).afterComparison = false := ⟨isFirst, rfl, rfl⟩
    refine (run.loop (fun done _ => operatorStep_none weak start done) begun).after
      fun done isDone => ?_
    rw [isDone.levels]
    exact (leave_reads _).step (.pure trivial isDone.left)

end ReadsRounds

/-! ## What begins an operand -/

theorem ReadsPrimary.begins (given : expr.ReadsPrimary row) (tier : Nat) :
    ReadsRounds tier expr expr row [] 0 :=
  .of_leading given.nonempty given.opens fun enough room ends => by
    refine .still here_still fun start => kind_reads.step ?_
    rw [lead_append_of_ne_nil given.nonempty, given.noPrefix]
    exact given.reads enough room ends.toStops ends.apart

/-- An expression, which is an operand with all its operators. -/
theorem ReadsOperand.expression (given : ReadsOperand 0 expr row)
    (enough : 8 * row.length + 16 ≤ more) (room : depth + 2 * row.length + 1 ≤ capOf limit)
    (closes : EndsTier 0 rest) :
    Reads limit True (Phrases.within more).expression depth (row ++ rest)
      (fun e => e.erase = expr.erase) depth rest := by
  obtain ⟨more, rfl⟩ : ∃ fewer, more = fewer + 1 := ⟨more - 1, by omega⟩
  exact .nested (by omega) (given.reads (Nat.zero_le _) (by omega) (by omega) closes closes.low)

/-- What is read as an expression in front of a closing parenthesis may stand in parentheses. -/
theorem enclosed_reads (opens : (lead row).opensExpression = true)
    (inside : Reads limit True (Phrases.within more).expression depth
      (row ++ .symbol .rightParen :: rest) (fun e => e.erase = expr.erase) depth
      (.symbol .rightParen :: rest)) :
    Reads limit True (primary (Phrases.within more)) depth
      (.symbol .leftParen :: (row ++ .symbol .rightParen :: rest)) (fun e => e.erase = expr.erase) depth
      rest := by
  have nonempty : row ≠ [] := by
    rintro rfl
    cases opens
  refine .still here_still fun start => kind_reads.step ?_
  refine .still here_still fun start => (expectSign_reads _).step ?_
  refine (startsQuery_no ?_).step ?_
  · rw [lead_append_of_ne_nil nonempty]
    exact noQuery_of_opensExpression opens
  refine inside.after fun e isExpr => ?_
  have last : Reads limit True (afterFirst (Phrases.within more) start e) depth
      (.symbol .rightParen :: rest) (fun e => e.erase = expr.erase) depth rest :=
    (atSign_no (by simp)).step ((expectSign_reads _).step (.pure trivial isExpr))
  split
  · exact (continuesQuery_no rfl).step last
  · exact last

/-- Parentheses around an expression leave it as it is. -/
theorem ReadsOperand.enclosed (given : ReadsOperand 0 expr row) :
    expr.ReadsPrimary (.symbol .leftParen :: (row ++ [.symbol .rightParen])) where
  nonempty := by simp
  opens := rfl
  noPrefix := rfl
  reads {limit depth more rest} enough room _ _ := by
    simp only [List.length_append, List.length_cons, List.length_nil] at enough room
    simp only [List.cons_append, List.append_assoc, List.nil_append]
    exact enclosed_reads given.opens
      (given.expression (by omega) (by omega) (.of_quiet rfl rfl (.inr (by simp))))

/-- An operator in front of an operand. -/
theorem ReadsOperand.unary {op : UnaryOp} {operand : Expr} (given : ReadsOperand op.tier operand row)
    (tight : tier ≤ op.tier) (span : Span) :
    ReadsRounds tier (.unary op operand span) (.unary op operand span) (op.kind :: row) [] 0 := by
  refine .of_leading (by simp) (by cases op <;> rfl) fun {limit depth more rest} enough room ends => ?_
  rw [List.length_cons] at enough room
  refine .still here_still fun start => kind_reads.step ?_
  rw [List.cons_append, lead_cons, op.ofKind?_kind]
  refine advance_reads.after fun _ _ => ?_
  obtain ⟨more, rfl⟩ : ∃ fewer, more = fewer + 1 := ⟨more - 1, by omega⟩
  have ends := ends.mono tight
  have value : Reads limit True (nested ((Phrases.within (more + 1)).operand (2 * op.tier - 1))) depth
      (row ++ rest) (fun e => e.erase = operand.erase) depth rest :=
    .nested (by omega) (given.reads (Nat.le_refl _) (by omega) (by omega) ends (ends.weak rfl))
  refine value.after fun e isOperand => .still (spanFrom_still start) fun _ => .pure trivial ?_
  simp [Expr.erase, isOperand]

/-! ## The operators -/

theorem binary_operator {op : BinaryOp} {right : Expr} (given : ReadsOperand (op.tier + 1) right row)
    (left : Expr) (span : Span) :
    ReadsOperator op.tier left (.binary left op right span) (op.kind :: row) where
  ahead rest := op.ahead (row ++ rest)
  reads {limit depth more found start rest} same enough room ends := by
    rw [List.length_cons] at enough room
    obtain ⟨more, rfl⟩ : ∃ fewer, more = fewer + 1 := ⟨more - 1, by omega⟩
    have reads : Reads limit True (Parse.binary (Phrases.within (more + 1)) found (2 * op.tier) start) depth
        (op.kind :: (row ++ rest)) (fun e => e.erase = (Expr.binary left op right span).erase) depth
        rest := by
      refine kind_reads.step ?_
      rw [lead_cons, op.ofKind?_kind]
      refine advance_reads.after fun _ _ => ?_
      refine (given.reads (by omega) (by omega) (by omega) (ends.mono (Nat.le_succ _)) ends.low).after
        fun e isRight => .still (spanFrom_still start) fun _ => .pure trivial ?_
      simp [Expr.erase, same, isRight]
    refine word?_looks.reads.step ?_
    cases op <;> exact reads

theorem collate_operator {collation : QualifiedName} (spelled : collation.IsSpelled row) (left : Expr)
    (span : Span) : ReadsOperator 9 left (.collate left collation span) (.keyword .COLLATE :: row) where
  ahead _ := rfl
  reads same _ _ ends := by
    refine word?_looks.reads.step (advance_reads.after fun _ _ => ?_)
    refine (qualifiedName_spelled spelled ends.dot).step ?_
    exact .still (spanFrom_still _) fun _ => .pure trivial (by simp [Expr.erase, same])

/-- A test ends with its last word, whatever follows. -/
theorem tested_reads (negative : Bool) (value : Option TruthValue) {left found : Expr}
    (same : found.erase = left.erase) (span₀ span' start : Span) (power : Nat) {phrases : Phrases} :
    Reads limit True (applied phrases found power start) depth
      (.keyword .IS :: (notIf negative ++ [.keyword (testedWord value)]) ++ rest)
      (fun e => e.erase = (negatedIf negative (left.tested value span₀) span').erase) depth rest := by
  have found_tested (span' : Span) :
      (found.tested value span').erase = (left.tested value span₀).erase := by
    cases value <;> simp [tested, Expr.erase, same]
  have value_reads : Reads limit True testedValue depth (.keyword (testedWord value) :: rest)
      (· = value) depth rest := by
    cases value with
    | none => exact testedNull_reads
    | some value => exact testedValue_reads value
  refine word?_looks.reads.step ((expectWord_reads .IS).step ?_)
  cases negative with
  | false =>
    have noNot : lead (.keyword (testedWord value) :: rest) ≠ .keyword .NOT := by
      rcases value with _ | value
      · simp [testedWord]
      · cases value <;> simp [testedWord, TruthValue.word]
    refine (takeWord_no noNot).step (value_reads.step (.still (spanFrom_still start) fun span => ?_))
    cases value <;> exact .pure trivial (found_tested span)
  | true =>
    refine (takeWord_yes .NOT).step (value_reads.step (.still (spanFrom_still start) fun span => ?_))
    have negation (span'' span : Span) :
        (Expr.unary .not (found.tested value span) span'').erase =
          (negatedIf true (left.tested value span₀) span').erase := by
      simp [negatedIf, Expr.erase, found_tested]
    cases value <;>
      exact .still (spanFrom_still start) fun span'' => .pure trivial (negation span'' span)

theorem tested_operator (negative : Bool) (value : Option TruthValue) (left : Expr)
    (span₀ span' : Span) :
    ReadsOperator 4 left (negatedIf negative (left.tested value span₀) span')
      (.keyword .IS :: (notIf negative ++ [.keyword (testedWord value)])) where
  ahead _ := rfl
  reads same _ _ _ := tested_reads negative value same span₀ span' _ _

/-! ## The predicates that `NOT` may stand in -/

/-- A predicate behind `left`, without `NOT`. -/
structure ReadsPredicate (left test : Expr) (row : List Kind) : Prop where
  opens : row ≠ [] ∧ isNegatable (lead row) = true
  reads : ∀ {limit depth more : Nat} {found : Expr} {start : Span} {rest : List Kind},
    found.erase = left.erase → 8 * row.length + 15 ≤ more →
    depth + 2 * row.length ≤ capOf limit + 1 → EndsTier 4 rest →
    Reads limit True (predicate (Phrases.within more) found start) depth (row ++ rest)
      (fun e => e.erase = test.erase) depth rest

theorem predicate_ahead (negative : Bool) {kind : Kind} (opens : isNegatable kind = true)
    (others : List Kind) :
    Power.ahead (notIf negative ++ kind :: others) = some (.ofTier 4) := by
  cases negative with
  | false =>
    unfold isNegatable at opens
    split at opens <;> first | rfl | cases opens
  | true =>
    change (if isNegatable kind = true then some Power.comparison else none) = _
    rw [if_pos opens]
    rfl

/-- What is read as a predicate is one with `NOT` in it, too. -/
theorem applied_predicate (negative : Bool) {kind : Kind} (opens : isNegatable kind = true)
    {others : List Kind} {phrases : Phrases} {found : Expr} {power : Nat} {start : Span}
    {good better : Expr → Prop}
    (reads : Reads limit True (Parse.predicate phrases found start) depth (kind :: others) good depth
      rest) (weaker : ∀ test span, good test → better (negatedIf negative test span)) :
    Reads limit True (applied phrases found power start) depth (notIf negative ++ kind :: others)
      better depth rest := by
  cases negative with
  | false =>
    refine word?_looks.reads.step ?_
    unfold isNegatable at opens
    split at opens
    case h_4 => cases opens
    all_goals exact reads.weaken fun test => weaker test default
  | true =>
    refine word?_looks.reads.step (advance_reads.after fun _ _ => reads.after fun test isTest => ?_)
    exact .still (spanFrom_still start) fun span => .pure trivial (weaker test span isTest)

theorem ReadsPredicate.operator {test : Expr} (given : ReadsPredicate left test row) (negative : Bool)
    (span : Span) : ReadsOperator 4 left (negatedIf negative test span) (notIf negative ++ row) := by
  obtain ⟨nonempty, opens⟩ := given.opens
  obtain ⟨kind, others, rfl⟩ := List.exists_cons_of_ne_nil nonempty
  rw [lead_cons] at opens
  refine ⟨fun rest => ?_, fun {limit depth more found start rest} same enough room ends => ?_⟩
  · rw [List.append_assoc]
    exact predicate_ahead negative opens (others ++ rest)
  rw [List.length_append] at enough room
  have reads : Reads limit True (Parse.predicate (Phrases.within more) found start) depth
      (kind :: (others ++ rest)) (fun e => e.erase = test.erase) depth rest :=
    given.reads same (by omega) (by omega) ends
  rw [List.append_assoc]
  refine applied_predicate negative opens reads fun e span' isTest => ?_
  cases negative <;> simp [negatedIf, Expr.erase, isTest]

theorem symmetric_spelled {isSymmetric : Bool} {words : List Kind}
    (spelled : words ∈ symmetrySpellings isSymmetric) (opens : (lead rest).opensExpression = true) :
    Reads limit True symmetric depth (words ++ rest) (· = isSymmetric) depth rest := by
  have noSymmetric : lead rest ≠ .keyword .SYMMETRIC := Kind.ne_of_opensExpression opens rfl
  have noAsymmetric : lead rest ≠ .keyword .ASYMMETRIC := Kind.ne_of_opensExpression opens rfl
  cases isSymmetric with
  | true =>
    obtain rfl := List.mem_singleton.mp spelled
    exact (takeWord_yes .SYMMETRIC).step (.pure trivial rfl)
  | false =>
    rcases List.mem_cons.mp spelled with rfl | spelled
    · exact (takeWord_no noSymmetric).step ((takeWord_no noAsymmetric).step (.pure trivial rfl))
    · obtain rfl := List.mem_singleton.mp spelled
      exact (takeWord_no (by simp)).step ((takeWord_yes .ASYMMETRIC).step (.pure trivial rfl))

/-- An operand of a predicate, up to what may follow it. -/
theorem ReadsOperand.predicateOperand (given : ReadsOperand 5 expr row)
    (enough : 8 * row.length + 16 ≤ more) (room : depth + 2 * row.length ≤ capOf limit)
    (ends : EndsTier 5 rest) (weak : ∀ power, Power.ahead rest = some power → power.left < 8) :
    Reads limit True (Parse.predicateOperand (Phrases.within more)) depth (row ++ rest)
      (fun e => e.erase = expr.erase) depth rest := by
  obtain ⟨more, rfl⟩ : ∃ fewer, more = fewer + 1 := ⟨more - 1, by omega⟩
  exact given.reads (by decide) (by omega) room ends weak

theorem between_predicate {isSymmetric : Bool} {words lowRow highRow : List Kind} {low high : Expr}
    (spelled : words ∈ symmetrySpellings isSymmetric) (second : ReadsOperand 5 low lowRow)
    (third : ReadsOperand 5 high highRow) (left : Expr) (span : Span) :
    ReadsPredicate left (.between left low high isSymmetric span)
      (.keyword .BETWEEN :: (words ++ (lowRow ++ .keyword .AND :: highRow))) where
  opens := ⟨by simp, rfl⟩
  reads {limit depth more found start rest} same enough room ends := by
    simp only [List.length_cons, List.length_append] at enough room
    simp only [List.cons_append, List.append_assoc]
    refine word?_looks.reads.step (advance_reads.after fun _ _ => ?_)
    refine (symmetric_spelled spelled ?_).step ?_
    · rw [lead_append_of_ne_nil second.nonempty]
      exact second.opens
    -- the operand of `BETWEEN` stops at `AND`, which binds less tightly
    have isAnd (others : List Kind) :
        Power.ahead (.keyword .AND :: others) = some (.ofTier 2) := rfl
    refine (second.predicateOperand (by omega) (by omega) (.of_ahead (isAnd _) (by decide) (by decide))
      fun power isAhead => ?_).after fun l isLow => (expectWord_reads .AND).step ?_
    · cases (isAnd _).symm.trans isAhead
      decide
    refine (third.predicateOperand (by omega) (by omega) (ends.mono (by decide)) ends.low).after
      fun h isHigh => .still (spanFrom_still start) fun _ => .pure trivial ?_
    simp [Expr.erase, same, isLow, isHigh]

theorem length_le_commaRows {rows : List (List Kind)} (member : row ∈ rows) :
    row.length ≤ (commaRows rows).length := by
  obtain ⟨before, behind, rfl⟩ := List.append_of_mem member
  simp only [commaRows, List.flatMap_append, List.flatMap_cons, List.length_append, List.length_cons]
  omega

/-- One or more expressions between commas, up to a closing parenthesis. -/
theorem expressions_spelled {it : Expr × List Kind} {items : List (Expr × List Kind)}
    (each : ∀ other ∈ it :: items, ReadsOperand 0 other.1 other.2)
    (enough : 8 * (it.2 ++ commaRows (items.map Prod.snd)).length + 16 ≤ more)
    (room : depth + 2 * (it.2 ++ commaRows (items.map Prod.snd)).length + 1 ≤ capOf limit) :
    Reads limit True (Phrases.within more).expressions depth
      (it.2 ++ (commaRows (items.map Prod.snd) ++ .symbol .rightParen :: rest))
      (fun them => Expr.eraseAll them = Expr.eraseAll ((it :: items).map Prod.fst)) depth
      (.symbol .rightParen :: rest) := by
  -- each item is shorter than the list, so the room for the list is room for the item
  have shorter (other : Expr × List Kind) (member : other ∈ it :: items) :
      other.2.length ≤ (it.2 ++ commaRows (items.map Prod.snd)).length := by
    rw [List.length_append]
    rcases List.mem_cons.mp member with rfl | member
    · exact Nat.le_add_right _ _
    · have isRow : other.2 ∈ items.map Prod.snd := List.mem_map.mpr ⟨other, member, rfl⟩
      have listed := length_le_commaRows isRow
      omega
  have list : Reads limit (∀ other ∈ it :: items, True) (Phrases.within more).expressions depth
      (it.2 ++ (commaRows (items.map Prod.snd) ++ .symbol .rightParen :: rest))
      (List.Forall₂ (fun other e => e.erase = other.1.erase) (it :: items)) depth
      (.symbol .rightParen :: rest) := by
    refine items_reads (by simp) fun other member more' after => ?_
    have short := shorter other member
    have quiet : (lead more').isQuiet = true := test_after_item after rfl rfl
    have apart : isJoint (lead more') = false := test_after_item after rfl rfl
    refine (each other member).expression (by omega) (by omega) (.of_quiet quiet apart (.inr ?_))
    rcases after with isComma | rfl
    · simp [isComma]
    · simp
  refine list.mono (by simp) fun them agree => ?_
  rw [Expr.eraseAll_eq_map, Expr.eraseAll_eq_map, List.map_map]
  have same : List.Forall₂ Eq ((it :: items).map (Expr.erase ∘ Prod.fst)) (them.map Expr.erase) := by
    rw [List.forall₂_map_left_iff, List.forall₂_map_right_iff]
    exact agree.imp fun _ _ same => same.symm
  exact (List.forall₂_eq_eq_eq ▸ same).symm

theorem within_predicate {it : Expr × List Kind} {items : List (Expr × List Kind)}
    (each : ∀ other ∈ it :: items, ReadsOperand 0 other.1 other.2) (left : Expr) (span span' : Span) :
    ReadsPredicate left (.within left (.values ((it :: items).map Prod.fst) span) span')
      (.keyword .IN :: .symbol .leftParen ::
        (it.2 ++ (commaRows (items.map Prod.snd) ++ [.symbol .rightParen]))) where
  opens := ⟨by simp, rfl⟩
  reads {limit depth more found start rest} same enough room ends := by
    have isFirst := each it List.mem_cons_self
    simp only [List.length_cons, List.length_append, List.length_nil] at enough room
    simp only [List.cons_append, List.append_assoc, List.nil_append]
    refine word?_looks.reads.step (advance_reads.after fun _ _ => .still here_still fun opening => ?_)
    refine (expectSign_reads _).step ?_
    have rows : Reads limit True (inRows (Phrases.within more) opening) depth
        (it.2 ++ (commaRows (items.map Prod.snd) ++ .symbol .rightParen :: rest))
        (fun r => r.erase = (Rel.values ((it :: items).map Prod.fst) span).erase) depth
        (.symbol .rightParen :: rest) := by
      refine (startsQuery_no ?_).step (.still here_still fun _ => ?_)
      · rw [lead_append_of_ne_nil isFirst.nonempty]
        exact noQuery_of_opensExpression isFirst.opens
      refine (expressions_spelled each (by simp only [List.length_append]; omega)
        (by simp only [List.length_append]; omega)).after fun them agree => ?_
      have listed (them : List Expr)
          (agree : Expr.eraseAll them = Expr.eraseAll ((it :: items).map Prod.fst)) :
          Reads limit True (listedValues opening them) depth (.symbol .rightParen :: rest)
            (fun r => r.erase = (Rel.values ((it :: items).map Prod.fst) span).erase) depth
            (.symbol .rightParen :: rest) :=
        .still here_still fun _ => .pure trivial (by simp only [Rel.erase, agree])
      split
      · exact (continuesQuery_no rfl).step (listed _ agree)
      · exact listed _ agree
    refine rows.after fun r isRows => (expectSign_reads _).step ?_
    refine .still (spanFrom_still start) fun _ => .pure trivial ?_
    simp only [Expr.erase, same, isRows]

theorem like_predicate {pattern : Expr} {patternRow : List Kind} {escape : Option (Expr × List Kind)}
    (second : ReadsOperand 5 pattern patternRow)
    (third : ∀ it ∈ escape, ReadsOperand 5 it.1 it.2) (left : Expr) (span : Span) :
    ReadsPredicate left (.like left pattern (escape.map Prod.fst) span)
      (.keyword .LIKE :: (patternRow ++ escapeRow escape)) where
  opens := ⟨by simp, rfl⟩
  reads {limit depth more found start rest} same enough room ends := by
    simp only [List.length_cons, List.length_append] at enough room
    simp only [List.cons_append, List.append_assoc]
    refine word?_looks.reads.step (advance_reads.after fun _ _ => ?_)
    -- the pattern ends at `ESCAPE`, or where the predicate does
    have behind : EndsTier 5 (escapeRow escape ++ rest) ∧
        ∀ power, Power.ahead (escapeRow escape ++ rest) = some power → power.left < 8 := by
      cases escape with
      | none => exact ⟨ends.mono (by decide), ends.low⟩
      | some it =>
        exact ⟨.of_quiet rfl rfl (.inl (by decide)), fun power isAhead =>
          absurd ((Ends.of_quiet rfl).power power isAhead) (Nat.not_lt_zero _)⟩
    refine (second.predicateOperand (by omega) (by omega) behind.1 behind.2).after
      fun p isPattern => ?_
    have escapes : Reads limit True (likeEscape (Phrases.within more)) depth
        (escapeRow escape ++ rest)
        (fun e => Expr.eraseOption e = Expr.eraseOption (escape.map Prod.fst)) depth rest := by
      cases escape with
      | none => exact (takeWord_no (ends.escape (Nat.le_refl 4))).step (.pure trivial rfl)
      | some it =>
        simp only [escapeRow, List.length_cons] at enough room
        refine (takeWord_yes .ESCAPE).step ?_
        refine ((third it rfl).predicateOperand (by omega) (by omega) (ends.mono (by decide))
          ends.low).after fun e isEscape => .pure trivial ?_
        simp [Expr.eraseOption, isEscape]
    refine escapes.after fun e isEscape => .still (spanFrom_still start) fun _ => .pure trivial ?_
    simp [Expr.erase, same, isPattern, isEscape]

/-! ## All texts -/

/-- What writes a tree is read as the tree. The induction is on how the tree is written. -/
theorem OperatorText.reads {atom : Expr → List Kind → Prop}
    (atoms : ∀ expr row, atom expr row → expr.ReadsPrimary row)
    (text : OperatorText atom tier expr row) :
    ∃ first begin others rounds, row = begin ++ others ∧
      ReadsRounds tier expr first begin others rounds := by
  -- an operand that nothing follows yet is read in no round
  have alone {tier : Nat} {expr : Expr} {row : List Kind}
      (begins : ReadsRounds tier expr expr row [] 0) :
      ∃ first begin others rounds, row = begin ++ others ∧
        ReadsRounds tier expr first begin others rounds :=
    ⟨expr, row, [], 0, (List.append_nil row).symm, begins⟩
  -- an operator behind an operand is one more round
  have behind {tier leftTier above : Nat} {left expr : Expr} {row other : List Kind}
      (given : ∃ first begin others rounds, row = begin ++ others ∧
        ReadsRounds leftTier left first begin others rounds) (tight : tier ≤ above) (some : 1 ≤ above)
      (lower : above ≤ leftTier) (noChain : 4 ≤ above → 5 ≤ leftTier)
      (operator : ReadsOperator above left expr other) :
      ∃ first begin others rounds, row ++ other = begin ++ others ∧
        ReadsRounds tier expr first begin others rounds := by
    obtain ⟨first, begin, others, rounds, rfl, given⟩ := given
    exact ⟨first, begin, _, rounds + 1, List.append_assoc .., given.step tight some lower noChain operator⟩
  have operand {tier : Nat} {expr : Expr} {row : List Kind}
      (given : ∃ first begin others rounds, row = begin ++ others ∧
        ReadsRounds tier expr first begin others rounds) : ReadsOperand tier expr row := by
    obtain ⟨first, begin, others, rounds, rfl, given⟩ := given
    exact given.operand
  induction text with
  | atom isAtom => exact alone ((atoms _ _ isAtom).begins _)
  | enclosed _ ih => exact alone ((operand ih).enclosed.begins _)
  | unary op span tight _ ih => exact alone ((operand ih).unary tight span)
  | binary op span tight _ _ ih ih' =>
    refine behind ih tight op.tier_pos ?_ ?_ (binary_operator (operand ih') _ span) <;> cases op <;> decide
  | collate span tight _ spelled ih =>
    exact behind ih tight (by decide) (by decide) (by decide) (collate_operator spelled _ span)
  | tested negative value span span' tight _ ih =>
    exact behind ih tight (by decide) (by decide) (by decide)
      (tested_operator negative value _ span span')
  | between negative symmetric span span' tight spelled _ _ _ ih ih' ih'' =>
    exact behind ih tight (by decide) (by decide) (by decide)
      ((between_predicate spelled (operand ih') (operand ih'') _ span).operator negative span')
  | within negative it items span span' span'' tight _ _ ih each =>
    exact behind ih tight (by decide) (by decide) (by decide)
      ((within_predicate (fun other member => operand (each other member)) _ span span').operator
        negative span'')
  | like negative escape span span' tight _ _ _ ih ih' third =>
    exact behind ih tight (by decide) (by decide) (by decide)
      ((like_predicate (operand ih') (fun it isEscape => operand (third it isEscape)) _ span).operator
        negative span')

/-- A word that is not reserved calls an aggregate function or names a column. -/
theorem afterWord_free (phrases : Phrases) {word : Keyword} (free : word.isReserved = false) :
    afterWord phrases word = (do
      let _ ← here
      aggregateOrColumn phrases word) := by
  cases word <;> first | rfl | exact absurd free (by decide)

theorem column_primary {phrases : Phrases} {name : QualifiedName} (spelled : name.IsSpelled row)
    (stops : Stops rest) :
    Reads limit True (primary phrases) depth (row ++ rest) (fun e => e.erase = .column name default)
      depth rest := by
  have reads : Reads limit True Parse.column depth (row ++ rest) (fun e => e.erase = .column name default)
      depth rest := column_spelled spelled stops
  obtain ⟨part, isName⟩ := spelled.lead_name?
  obtain @⟨kind, others, -⟩ := spelled
  rw [lead_cons] at isName
  refine .still here_still fun _ => kind_reads.step ?_
  rw [List.cons_append, lead_cons]
  cases kind with
  | identifier => exact reads
  | keyword word =>
    have free : word.isReserved = false := Kind.free_of_name? isName
    -- a word that names an aggregate function is a column where no parenthesis follows
    have noCall : lead (dotted others ++ rest) ≠ .symbol .leftParen := by
      cases others with
      | nil => exact stops.paren
      | cons other others => simp [dotted]
    have names : Reads limit True (wordAsColumn word) depth (.keyword word :: (dotted others ++ rest))
        (fun e => e.erase = .column name default) depth rest := by
      unfold wordAsColumn
      rw [free]
      exact reads
    change Reads limit True (afterWord phrases word) depth _ _ depth rest
    rw [afterWord_free phrases free]
    refine .still here_still fun _ => ?_
    unfold aggregateOrColumn
    split
    · refine peek_reads.step ?_
      rw [List.drop_one, List.tail_cons, if_neg noCall]
      exact names
    · exact names
  | _ => cases isName

/-- A literal or a name is a leading part of its own. -/
theorem IsAtom.readsPrimary (isAtom : expr.IsAtom row) : expr.ReadsPrimary row := by
  cases isAtom with
  | integer | string =>
    refine ⟨by simp, rfl, rfl, fun _ _ _ _ => ?_⟩
    refine .still here_still fun start => kind_reads.step (advance_reads.after fun _ _ => ?_)
    exact .pure trivial (by simp [Expr.erase])
  | truth value =>
    refine ⟨by simp, by cases value <;> rfl, by cases value <;> rfl, fun _ _ _ _ => ?_⟩
    refine .still here_still fun start => kind_reads.step ?_
    cases value <;>
      exact .still here_still fun start => advance_reads.after fun _ _ =>
        .pure trivial (by simp [Expr.erase])
  | null =>
    refine ⟨by simp, rfl, rfl, fun _ _ _ _ => ?_⟩
    refine .still here_still fun start => kind_reads.step ?_
    exact .still here_still fun start => advance_reads.after fun _ _ =>
      .pure trivial (by simp [Expr.erase])
  | @column name row span spelled =>
    obtain ⟨part, isName⟩ := spelled.lead_name?
    refine ⟨spelled.nonempty, Kind.opensExpression_of_name? isName, Kind.noUnary_of_name? isName, ?_⟩
    intro limit depth more rest _ _ stops _
    exact (column_primary spelled stops).weaken fun e isColumn => by simp [Expr.erase, isColumn]

end Expr

namespace Parse

/-- From each text of an expression the whole of it is read as the tree of the expression. -/
theorem wholeExpression_operatorText {text : String} {expr : Expr} {row : List Kind}
    (written : Expr.OperatorText Expr.IsAtom 0 expr row) (splits : Scan.Splits text.toList row)
    (holds : text.utf8ByteSize < 2 ^ 63) :
    ∃ least, ∀ limit ≥ least, ∃ start found last,
      State.ofStream limit (Lexer.ofText text).stream = .ok start ∧
        wholeExpression start = .ok found last ∧ last.current.kind = .endOfInput ∧
        expr.alike found = true := by
  obtain ⟨first, begin, others, rounds, rfl, given⟩ :=
    written.reads fun expr row isAtom => isAtom.readsPrimary
  refine ⟨(begin ++ others).length + 1, fun limit enough => ?_⟩
  have room := room_of_length splits holds limit (by omega)
  have whole : Reads limit True wholeExpression 0 (begin ++ others)
      (fun e => e.erase = expr.erase) 0 [] := by
    have ends : EndsTier 0 [] := .of_quiet rfl rfl (.inr (by simp))
    have reads : Reads limit True (Phrases.within (8 * (begin ++ others).length + 16)).expression 0
        (begin ++ others ++ []) (fun e => e.erase = expr.erase) 0 [] :=
      given.operand.expression (Nat.le_refl _) (by omega) ends
    rw [List.append_nil] at reads
    exact .forState reads
  obtain ⟨start, found, last, begins, run, same, shows⟩ := whole.ofText splits
  exact ⟨start, found, last, begins, run, shows.current, (Expr.alike_iff _ _).mpr same.symm⟩

/-- `NOT` in front of a comparison and inside of a predicate, and a sum in parentheses. -/
theorem wholeExpression_operatorText_mixed :
    ∃ least, ∀ limit ≥ least, ∃ start found last,
      State.ofStream limit
          (Lexer.ofText "NOT a.b < (1 + 2) * - c AND x NOT IN (1, y OR z) OR x IS NOT NULL").stream =
          .ok start ∧
        wholeExpression start = .ok found last ∧ last.current.kind = .endOfInput ∧
        Expr.alike
          (.binary
            (.binary
              (.unary .not (.binary (.column ⟨["a"], "b"⟩ default) .less
                (.binary (.binary (.integer 1 default) .add (.integer 2 default) default) .multiply
                  (.unary .negate (.column ⟨[], "c"⟩ default) default) default) default) default)
              .and
              (.unary .not (.within (.column ⟨[], "x"⟩ default)
                (.values [.integer 1 default, .binary (.column ⟨[], "y"⟩ default) .or
                  (.column ⟨[], "z"⟩ default) default] default) default) default)
              default)
            .or (.unary .not (.isNull (.column ⟨[], "x"⟩ default) default) default) default) found =
          true := by
  have splits : Scan.Splits
      "NOT a.b < (1 + 2) * - c AND x NOT IN (1, y OR z) OR x IS NOT NULL".toList
      [.keyword .NOT, .identifier "a", .symbol .dot, .identifier "b", .symbol .less,
        .symbol .leftParen, .integer 1, .symbol .plus, .integer 2, .symbol .rightParen, .symbol .star,
        .symbol .minus, .identifier "c", .keyword .AND, .identifier "x", .keyword .NOT, .keyword .IN,
        .symbol .leftParen, .integer 1, .symbol .comma, .identifier "y", .keyword .OR, .identifier "z",
        .symbol .rightParen, .keyword .OR, .identifier "x", .keyword .IS, .keyword .NOT,
        .keyword .NULL] :=
    (Scan.spaced_of_spaced? 80 (by decide +kernel)).splits
  have number (tier : Nat) (value : Int) :
      Expr.OperatorText Expr.IsAtom tier (.integer value default) [.integer value] :=
    .atom (.integer value default)
  have column (tier : Nat) (name : Name) :
      Expr.OperatorText Expr.IsAtom tier (.column ⟨[], name⟩ default) [.identifier name] :=
    .atom (.column default (QualifiedName.isSpelled_qualified ⟨[], name⟩))
  have dotted : Expr.OperatorText Expr.IsAtom 5 (.column ⟨["a"], "b"⟩ default)
      [.identifier "a", .symbol .dot, .identifier "b"] :=
    .atom (.column default (QualifiedName.isSpelled_qualified ⟨["a"], "b"⟩))
  have sum : Expr.OperatorText Expr.IsAtom 0 _ _ :=
    .binary .add default (by decide) (number 6 1) (number 7 2)
  have product : Expr.OperatorText Expr.IsAtom 5 _ _ :=
    .binary .multiply default (by decide) sum.enclosed (.unary .negate default (by decide) (column 8 "c"))
  have comparison : Expr.OperatorText Expr.IsAtom 2 _ _ :=
    .unary .not default (by decide) (.binary .less default (by decide) dotted product)
  have disjunction : Expr.OperatorText Expr.IsAtom 0 _ _ :=
    .binary .or default (by decide) (column 1 "y") (column 2 "z")
  have listed : Expr.OperatorText Expr.IsAtom 3 _ _ :=
    .within true (.integer 1 default, [.integer 1]) [(_, _)] default default default (by decide)
      (column 5 "x") (by
        intro other member
        rcases List.mem_cons.mp member with rfl | member
        · exact number 0 1
        · obtain rfl := List.mem_singleton.mp member
          exact disjunction)
  have tested : Expr.OperatorText Expr.IsAtom 2 _ _ :=
    .tested true none default default (by decide) (column 5 "x")
  have conjunction : Expr.OperatorText Expr.IsAtom 1 _ _ :=
    .binary .and default (by decide) comparison listed
  have written : Expr.OperatorText Expr.IsAtom 0 _ _ :=
    .binary .or default (by decide) conjunction tested
  exact wholeExpression_operatorText written splits (by decide +kernel)

end Parse

end CanonicalSql
