import CanonicalSql.Proofs.Distinct.Basic
import CanonicalSql.Proofs.Elsewhere.Statement
import CanonicalSql.Proofs.Limits
import CanonicalSql.Proofs.Precedence

/-!
# Expressions as elements of `GROUP BY`

A grouping element that begins with a parenthesis is read as a list of columns first. If there is
one column in it and an operator follows the closing parenthesis, the column is taken for the first
operand of a longer expression. That comes to what is read as an expression anywhere else as long
as the first parenthesis holds one expression (`Parse.openedColumn`). It does not where the
parenthesis is that of a row of two values or more, or of a query that goes on behind an operand in
parentheses of its own: an expression may begin with those, and a grouping element cannot.
-/
namespace CanonicalSql

theorem State.Faces.at {kinds : List Kind} {s : State} (faces : s.Faces kinds) (limit depth : Nat) :
    ({ s with limit, depth } : State).Shows limit depth kinds := by
  obtain ⟨own, level, shows⟩ := faces
  exact ⟨shows.tokens, shows.failure, rfl, rfl⟩

namespace Parse

section

variable {α β γ δ : Type} {row left left' : List Kind} {need : Nat} {ends : Prop}

/-- The rule reads a beginning of the text, within some limit, and gives the value. -/
def Begins (p : Parse α) (text : String) (a : α) : Prop :=
  ∃ limit start middle, State.ofStream limit (Lexer.ofText text).stream = .ok start ∧
    p start = .ok a middle

/-- What the rule gives for a beginning of the text, within a limit. -/
def begins? (p : Parse α) (limit : Nat) (text : String) : Option α :=
  match State.ofStream limit (Lexer.ofText text).stream with
  | .ok start =>
    match p start with
    | .ok a _ => some a
    | .error .. => none
  | .error _ => none

theorem exists_begins {p : Parse α} {limit : Nat} {text : String}
    (given : (begins? p limit text).isSome = true) : ∃ a, Begins p text a := by
  unfold begins? at given
  split at given
  · next start begins =>
    split at given
    · next a middle run => exact ⟨a, limit, start, middle, begins, run⟩
    · cases given
  · cases given

theorem Begins.gives {text : String} {p : Parse α} {q : Parse β} {rest : List Kind}
    {same : α → β → Prop} {a : α} (begins : Begins p text a)
    (splits : Scan.Splits text.toList row) (given : Repeats rest ends need same p q row) :
    ∃ left, Gives p row a left := by
  obtain ⟨limit, start, middle, begins, run⟩ := begins
  obtain ⟨start', begins', shows⟩ := State.ofStream_shows splits limit
  obtain rfl := Except.ok.inj (begins.symm.trans begins')
  obtain ⟨left, faces, -⟩ := given.there start a middle shows.faces run
  exact ⟨left, start, middle, shows.faces, faces, run⟩

/-- What two rules have given for one row is the same, if one rule does both of them again. -/
theorem Gives.agree {p : Parse α} {p' : Parse γ} {q : Parse β} {same : α → β → Prop}
    {same' : γ → β → Prop} {a : α} {c : γ} {ends' : Prop} {limit : Nat} (gives : Gives p row a left)
    (given : Repeats [] ends need same p q row) (holds : ends) (gives' : Gives p' row c left')
    (given' : Repeats [] ends' need same' p' q row) (holds' : ends') (room : need ≤ capOf limit) :
    left = left' ∧ ∃ b, same a b ∧ same' c b := by
  have one : Reads limit True q 0 (row ++ []) (same a) 0 (left ++ []) :=
    gives.reads given (fun _ => holds) rfl rfl (by omega)
  have other : Reads limit True q 0 (row ++ []) (same' c) 0 (left' ++ []) :=
    gives'.reads given' (fun _ => holds') rfl rfl (by omega)
  simp only [List.append_nil] at one other
  exact (one.agree other).symm

end

variable {row rest inner mid left : List Kind} {e : Expr} {levels more limit depth : Nat}

/-! ## The first parenthesis -/

/-- Whether the row begins with a parenthesis that opens no query. -/
def opensColumns (kinds : List Kind) : Bool :=
  decide (lead kinds = .symbol .leftParen) && !isQueryStart (lead (kinds.drop 1))

/-- What stands in parentheses at the current token, if no query does: one expression. -/
def enclosedColumn (phrases : Phrases) : Parse (Option Expr) := do
  if ← opensList then return some (← parenthesized phrases.expression) else return none

/-- What stands in parentheses at the beginning of a text, if no query does: one expression. -/
def openedColumn : Parse (Option Expr) := do enclosedColumn (← Phrases.forState)

theorem opensColumns_append (single : row ≠ [.symbol .leftParen])
    (noParen : lead rest ≠ .symbol .leftParen) : opensColumns (row ++ rest) = opensColumns row := by
  match row with
  | [] => simp [opensColumns, noParen]
  | [kind] =>
    have other : kind ≠ .symbol .leftParen := fun isParen => single (by rw [isParen])
    simp [opensColumns, other]
  | kind :: other :: more => rfl

theorem enclosedColumn_repeats {phrases phrases' : Phrases} (below : phrases.Repeats phrases' rest)
    (shuns : phrases.Shuns) (row : List Kind) :
    Repeats rest True (2 * row.length + 1) (Keyed (Option.map Expr.erase)) (enclosedColumn phrases)
      (enclosedColumn phrases') row := by
  by_cases single : row = [.symbol .leftParen]
  · subst single
    refine .vacuous (Refuses.past (fun _ _ => opensList_reads) ?_)
    refine Refuses.bind (.past (a := ()) (fun _ _ => expectSign_reads _) ?_) _
    exact shuns.expression.bind _
  refine .sees opensColumns (fun _ _ _ => opensList_reads) (fun left _ _ meets => ?_) (.ite
    (fun _ => ?_) fun _ => .done rfl)
  · rw [opensColumns_append single (meets.ne _ rfl)]
  · refine .bind (parenthesized_repeats fun left isRow => ?_) id fun first first' _ same _ =>
      .done (congrArg some same)
    refine (expression_repeats below left).within False.elim ?_
    rw [isRow, List.length_cons]
    omega

theorem openedColumn_again :
    Repeats rest True (2 * row.length + 1) (Keyed (Option.map Expr.erase)) openedColumn openedColumn
      row :=
  .again fun _ enough => enclosedColumn_repeats (Phrases.within_repeats enough rest)
    (Phrases.within_shuns _) row

/-- An expression begins with a prefix operator or a leading part. -/
theorem Gives.not_begins {kind : Kind}
    (gives : Gives (Phrases.within levels).expression (kind :: inner) e left)
    (noUnary : UnaryOp.ofKind? kind = none)
    (refuses : ∀ phrases, Refuses (primary phrases) (kind :: inner)) : False := by
  cases levels with
  | zero =>
    obtain ⟨s, t, -, -, run⟩ := gives.nested
    cases run
  | succ levels =>
    have operand : Gives (operand (Phrases.within levels) 0) (kind :: inner) e left := gives.nested
    refine operand.elim (.still here_still fun _ => Refuses.bind (.still here_still fun _ => ?_) _)
    refine .past (fun _ _ => kind_reads) ?_
    rw [lead_cons, noUnary]
    exact refuses _

/-- No expression begins with a closing parenthesis. -/
theorem Gives.not_close
    (gives : Gives (Phrases.within levels).expression (.symbol .rightParen :: inner) e left) :
    False := by
  refine gives.not_begins rfl fun phrases => .still here_still fun _ => ?_
  refine .past (fun _ _ => kind_reads) fun s a t _ run => ?_
  cases run

/-- No expression begins with a quantifier of a set. -/
theorem Gives.not_quantifier {word : Keyword}
    (gives : Gives (Phrases.within levels).expression (.keyword word :: inner) e left)
    (isQuantifier : word = .ALL ∨ word = .DISTINCT) : False := by
  rcases isQuantifier with rfl | rfl <;>
  · refine gives.not_begins rfl fun phrases => .still here_still fun _ => ?_
    refine .past (fun _ _ => kind_reads) fun s a t _ run => ?_
    cases run

/-- The expression begins with one in parentheses and has nothing but operators behind it. -/
structure Enclosed (levels : Nat) (inner : List Kind) (e first : Expr) (mid : List Kind) : Prop where
  opened : Gives (Phrases.within levels).expression inner first (.symbol .rightParen :: mid)
  others : ∃ start, Gives (operators (Phrases.within levels) first 0 start) mid e []

/-- An expression that begins with a parenthesis reads another one behind it. If that is closed at
once, it is the first operand. -/
theorem Gives.opened
    (gives : Gives (Phrases.within (levels + 1)).expression (.symbol .leftParen :: inner) e [])
    (opens : isQueryStart (lead inner) = false) :
    ∃ first left, Gives (Phrases.within levels).expression inner first left ∧
      ∀ mid, left = .symbol .rightParen :: mid → Enclosed levels inner e first mid := by
  have whole : Gives (operand (Phrases.within levels) 0) (.symbol .leftParen :: inner) e [] :=
    gives.nested
  have below := Phrases.within_repeats (Nat.le_refl levels) []
  have shuns := Phrases.within_shuns levels
  have past : Past 10 [] := Nat.le_refl 10
  obtain ⟨start, whole⟩ := whole.still here_still
  obtain ⟨operand, behind, gives, others⟩ :=
    whole.split (leading_repeats below shuns (fun _ : True => past.closes 5) _)
  obtain ⟨_, gives⟩ := gives.still here_still
  have gives : Gives (primary (Phrases.within levels)) (.symbol .leftParen :: inner) operand behind :=
    gives.step fun _ _ => kind_reads
  obtain ⟨_, gives⟩ := gives.still here_still
  have gives : Gives (inParentheses (Phrases.within levels)) (.symbol .leftParen :: inner) operand
      behind := gives.step fun _ _ => kind_reads
  obtain ⟨begin, gives⟩ := gives.still here_still
  have gives := (gives.step fun _ _ => expectSign_reads _).step fun _ _ => startsQuery_no opens
  obtain ⟨first, left, opened, gives⟩ := gives.split (expression_repeats below inner)
  refine ⟨first, left, opened, fun mid isLeft => ⟨isLeft ▸ opened, start, ?_⟩⟩
  subst isLeft
  -- behind the first expression there is neither a comma nor an operator of queries
  have closed (gives : Gives (afterFirst (Phrases.within levels) begin first)
      (.symbol .rightParen :: mid) operand behind) : operand = first ∧ behind = mid := by
    have gives := (gives.step fun _ _ => atSign_no (by simp)).step fun _ _ => expectSign_reads _
    obtain ⟨s, t, faces, faces', run⟩ := gives
    cases run
    exact ⟨rfl, faces'.unique faces⟩
  have isFirst : operand = first ∧ behind = mid := by
    split at gives
    · exact closed (gives.step fun _ _ => continuesQuery_no rfl)
    · exact closed gives
  obtain ⟨rfl, rfl⟩ := isFirst
  exact others

/-- What may stand behind an element of a list. -/
structure EndsItem (kinds : List Kind) : Prop where
  closes : Closes 0 kinds
  noPredicate : isNegatable (lead kinds) = false
  apart : isJoint (lead kinds) = false

namespace EndsItem

theorem of_past (past : Past 10 rest) : EndsItem rest := by
  have quiet := past.quiet
  refine ⟨past.closes 0, ?_, ?_⟩
  · generalize lead rest = kind at quiet
    unfold isNegatable
    split <;> first | rfl | cases quiet
  · unfold Past at past
    generalize lead rest = kind at past
    unfold isJoint
    split <;> first | rfl | exact absurd past (by decide)

theorem of_comma (isComma : lead rest = .symbol .comma) : EndsItem rest where
  closes := ⟨.of_quiet (by rw [isComma]; rfl), by simp [isComma]⟩
  noPredicate := by rw [isComma]; rfl
  apart := by rw [isComma]; rfl

/-- No token that is read with the one before it follows. -/
theorem ne (ends : EndsItem rest) (kind : Kind) (joint : isJoint kind = true) : lead rest ≠ kind := by
  rintro rfl
  rw [ends.apart] at joint
  cases joint

end EndsItem

/-- The only column of a list goes on to be the whole expression. -/
theorem Enclosed.longerColumns {first first' : Expr} (enclosed : Enclosed levels inner e first mid)
    (same : first'.erase = first.erase) (enough : levels ≤ more) (ends : EndsItem rest)
    (room : depth + 2 * mid.length + 1 ≤ capOf limit) (start' : Span) :
    Reads limit True (longerColumns (Phrases.within more) [first'] start') depth (mid ++ rest)
      (fun columns => Expr.eraseAll columns = Expr.eraseAll [e]) depth rest := by
  obtain ⟨start, others⟩ := enclosed.others
  refine operatorPower_reads.step ?_
  cases isAhead : Power.ahead mid with
  | none =>
    obtain ⟨rfl, rfl⟩ := others.of_reads fun _ _ => operators_none (by simp [isAhead]) first start
    rw [List.nil_append, ends.closes.ahead_eq_none]
    exact .pure trivial (by simp [Expr.eraseAll, same])
  | some power =>
    rw [Power.ahead_append_of_some isAhead]
    -- the operators behind the parentheses are read again with the column as their operand
    have again : Repeats rest (Closes (min 0 5) rest) (2 * mid.length) (Keyed Expr.erase)
        (operators (Phrases.within levels) first 0 start)
        (operators (Phrases.within more) first' 0 start') mid :=
      operators_repeats (Phrases.within_repeats enough rest) (Phrases.within_shuns levels) same id mid
    have longer : Reads limit True (operators (Phrases.within more) first' 0 start') (depth + 1)
        (mid ++ rest) (Keyed Expr.erase e) (depth + 1) rest :=
      others.reads again (fun _ => ends.closes) ends.noPredicate ends.apart (by omega)
    refine Reads.after (.nested (by omega) longer) fun found same => .pure trivial ?_
    simp only [Expr.eraseAll, List.cons.injEq, and_true]
    exact same

/-- The first parenthesis of an expression holds what is read behind it. -/
theorem Takes.enclosed {found : Option Expr} (takes : Takes wholeExpression row e)
    (begins : Gives openedColumn row found left) (opens : opensColumns row = true)
    (room : 2 * row.length + 1 ≤ capOf limit) :
    ∃ levels inner first mid, row = .symbol .leftParen :: inner ∧ levels < 8 * row.length + 16 ∧
      isQueryStart (lead inner) = false ∧ Enclosed levels inner e first mid := by
  obtain ⟨isParen, noQuery⟩ := Bool.and_eq_true_iff.mp opens
  obtain ⟨inner, rfl⟩ := eq_cons_of_lead (of_decide_eq_true isParen) (by simp)
  have noQuery : isQueryStart (lead inner) = false := by simpa using noQuery
  have gives := takes.within
  have others : Gives (enclosedColumn (Phrases.within _)) (.symbol .leftParen :: inner) found left :=
    begins.forState
  obtain ⟨levels, isBound⟩ : ∃ levels, 8 * (.symbol .leftParen :: inner : List Kind).length + 16 =
    levels + 1 := ⟨_, rfl⟩
  rw [isBound] at gives others ⊢
  rw [List.length_cons] at room
  obtain ⟨first, left, opened, closed⟩ := gives.opened noQuery
  have opens := others.step fun _ _ => opensList_yes noQuery
  obtain ⟨column, -, others⟩ := opens.map
  have again (fewer : Nat) (enough : fewer ≤ levels + 1) :
      Repeats [] (Closes 0 []) (2 * inner.length + 1) (Keyed Expr.erase)
        (Phrases.within fewer).expression (Phrases.within (levels + 1)).expression inner :=
    expression_repeats (Phrases.within_repeats enough []) inner
  obtain ⟨column, mid, other, closing⟩ := (others.step fun _ _ => expectSign_reads _).split
    (again _ (Nat.le_refl _))
  obtain ⟨mid, rfl, -⟩ := closing.expectSign
  have past : Past 10 [] := Nat.le_refl 10
  -- both ways of reading come to the same parenthesis
  obtain ⟨isLeft, -⟩ := opened.agree (again _ (by omega)) (past.closes 0) other
    (again _ (Nat.le_refl _)) (past.closes 0) (show _ ≤ capOf limit by omega)
  exact ⟨levels, inner, first, mid, rfl, Nat.lt_succ_self levels, noQuery, closed mid isLeft⟩

/-- An expression that is accepted in full is the only column of a grouping set, if its first
parenthesis holds one expression. -/
theorem Takes.groupingSet {found : Option Expr} (takes : Takes wholeExpression row e)
    (begins : Gives openedColumn row found left) (enough : 8 * row.length + 16 ≤ more)
    (ends : EndsItem rest) (room : depth + 2 * row.length + 1 ≤ capOf limit) :
    Reads limit True (groupingSet (Phrases.within more)) depth (row ++ rest)
      (fun set => set.erase = (GroupingSet.mk [e] default).erase) depth rest := by
  cases opens : opensColumns row with
  | false =>
    have single : row ≠ [.symbol .leftParen] := by
      rintro rfl
      cases opens
    have seen : opensColumns (row ++ rest) = false :=
      (opensColumns_append single (ends.ne _ rfl)).trans opens
    have noList : Reads limit True opensList depth (row ++ rest) (· = false) depth (row ++ rest) :=
      opensList_reads.weaken fun _ isSeen => isSeen.trans seen
    have alone : Reads limit True (Phrases.within more).expression depth (row ++ rest)
        (fun expr => expr.erase = e.erase) depth rest :=
      takes.expression enough ends.closes ends.apart (by omega)
    refine .still here_still fun start => noList.step (alone.after fun expr same => ?_)
    refine .still (spanFrom_still start) fun _ => .pure trivial ?_
    simp only [GroupingSet.erase, Expr.eraseAll, same]
  | true =>
    obtain ⟨levels, inner, first, mid, rfl, few, noQuery, enclosed⟩ :=
      takes.enclosed begins opens (show _ ≤ capOf limit by omega)
    rw [List.length_cons] at room
    have shorter := (enclosed.opened.suffix
      (expression_repeats (Phrases.within_repeats (Nat.le_refl levels) []) inner)).length_le
    rw [List.length_cons] at shorter
    have nonempty : inner ≠ [] := by
      rintro rfl
      simp at shorter
    refine .still here_still fun start => (opensList_yes ?_).step ?_
    · show isQueryStart (lead (inner ++ rest)) = false
      rwa [lead_append_of_ne_nil nonempty]
    refine advance_reads.after fun _ _ => ?_
    have column : Reads limit True (Phrases.within more).expression depth (inner ++ rest)
        (Keyed Expr.erase first) depth (.symbol .rightParen :: (mid ++ rest)) :=
      enclosed.opened.reads (expression_repeats (Phrases.within_repeats (by omega) rest) inner)
        (by simp) ends.noPredicate ends.apart (by omega)
    -- the parenthesis is taken for that of a list, the first column of which is read alone
    have columns : Reads limit True (groupedColumns (Phrases.within more)) depth (inner ++ rest)
        (fun them => ∃ first', them = [first'] ∧ first'.erase = first.erase) depth
        (.symbol .rightParen :: (mid ++ rest)) := by
      refine (atSign_no fun isClose => ?_).step (column.single (by simp))
      rw [lead_append_of_ne_nil nonempty] at isClose
      obtain ⟨others, rfl⟩ := eq_cons_of_lead isClose (by simp)
      exact enclosed.opened.not_close
    refine columns.after fun them isOne => (expectSign_reads _).step ?_
    obtain ⟨first', rfl, same⟩ := isOne
    refine (enclosed.longerColumns same (by omega) ends (by omega) start).after fun them same => ?_
    refine .still (spanFrom_still start) fun _ => .pure trivial ?_
    simp only [GroupingSet.erase, same]

/-! ## Words that may begin an element -/

theorem name?_of_free {word : Keyword} (free : word.isReserved = false) :
    (Kind.keyword word).name? = some word.lowerSpelling := by
  simp [Kind.name?, free]

/-- A name in front of a parenthesis is no column. -/
theorem column_refuses_call {kind : Kind} {name : Name} (isName : kind.name? = some name) :
    Refuses column (kind :: .symbol .leftParen :: inner) := by
  have noPart (limit depth : Nat) : Reads limit True (loop columnPart ([name], false)) depth
      (.symbol .leftParen :: inner) (· = ([name], false)) depth (.symbol .leftParen :: inner) := by
    have none : Reads limit True (columnPart ([name], false)) depth (.symbol .leftParen :: inner)
        (· = none) depth (.symbol .leftParen :: inner) :=
      (takeSign_no (by simp)).step (.pure trivial rfl)
    have rounds : Loops limit True columnPart ([name], false) depth (.symbol .leftParen :: inner)
        (· = ([name], false)) depth (.symbol .leftParen :: inner) := .stop none trivial rfl
    exact rounds.loop
  refine .still here_still fun start => .past (fun _ _ => identifier_spelled isName) ?_
  refine .past noPart (.past (fun _ _ => atSign_yes rfl) fun s a t _ run => ?_)
  cases run

/-- An expression that begins with a word that only names columns begins with a column. -/
theorem Gives.column {word : Keyword} (free : word.isReserved = false)
    (noCall : AggregateFunction.ofWord? word = none)
    (gives : Gives (Phrases.within (levels + 1)).expression (.keyword word :: inner) e left) :
    ∃ first mid start, Gives Parse.column (.keyword word :: inner) first mid ∧
      Gives (operators (Phrases.within levels) first 0 start) mid e left := by
  have whole : Gives (operand (Phrases.within levels) 0) (.keyword word :: inner) e left :=
    gives.nested
  obtain ⟨start, whole⟩ := whole.still here_still
  have past : Past 10 [] := Nat.le_refl 10
  obtain ⟨first, mid, gives, others⟩ := whole.split
    (leading_repeats (Phrases.within_repeats (Nat.le_refl levels) []) (Phrases.within_shuns levels)
      (fun _ : True => past.closes 5) _)
  obtain ⟨_, gives⟩ := gives.still here_still
  have gives := gives.step fun _ _ => kind_reads
  have noUnary := Kind.noUnary_of_name? (name?_of_free free)
  rw [lead_cons, noUnary] at gives
  obtain ⟨_, gives⟩ := gives.still here_still
  have gives : Gives (afterWord (Phrases.within levels) word) (.keyword word :: inner) first mid :=
    gives.step fun _ _ => kind_reads
  rw [Expr.afterWord_free _ free] at gives
  obtain ⟨_, gives⟩ := gives.still here_still
  simp only [aggregateOrColumn, noCall, wordAsColumn, free] at gives
  exact ⟨first, mid, start, gives, others⟩

/-- A word that only names columns calls nothing, and no operator is another name. -/
theorem Takes.next_of_word {word : Keyword} (free : word.isReserved = false)
    (noCall : AggregateFunction.ofWord? word = none)
    (takes : Takes wholeExpression (.keyword word :: inner) e) :
    lead inner ≠ .symbol .leftParen ∧ lead inner ≠ .keyword .SETS := by
  obtain ⟨first, mid, start, isColumn, others⟩ := takes.within.column free noCall
  refine ⟨fun isParen => ?_, fun isSets => ?_⟩
  · obtain ⟨more, rfl⟩ := eq_cons_of_lead isParen (by simp)
    exact isColumn.elim (column_refuses_call (name?_of_free free))
  · obtain ⟨more, rfl⟩ := eq_cons_of_lead isSets (by simp)
    have parts : ([.keyword word] : List Kind).map Kind.name? =
        (QualifiedName.parts ⟨[], word.lowerSpelling⟩).map some := by
      simp [QualifiedName.parts, name?_of_free free]
    have spelled : QualifiedName.IsSpelled ⟨[], word.lowerSpelling⟩ [.keyword word] := .intro parts
    have stops : Stops (.keyword .SETS :: more) := .of_quiet rfl
    obtain ⟨-, rfl⟩ := isColumn.of_reads fun _ _ => column_spelled spelled stops
    have ends : Ends 0 (.keyword .SETS :: more) := .of_quiet rfl
    obtain ⟨-, isLeft⟩ := others.of_reads fun _ _ => operators_none ends.power first start
    cases isLeft

/-! ## Lists of elements -/

/-- The row is accepted in full as the expression, and its first parenthesis holds one. -/
structure IsColumn (row : List Kind) (e : Expr) : Prop where
  takes : Takes wholeExpression row e
  opened : ∃ found left, Gives openedColumn row found left

namespace IsColumn

theorem nonempty (isColumn : IsColumn row e) : row ≠ [] := by
  rintro rfl
  exact isColumn.takes.within.elim (.nested ((Phrases.within_shuns _).operand 0))

theorem noQuantifier (isColumn : IsColumn row e) {word : Keyword}
    (isQuantifier : word = .ALL ∨ word = .DISTINCT) (rest : List Kind) :
    lead (row ++ rest) ≠ .keyword word := by
  intro isWord
  rw [lead_append_of_ne_nil isColumn.nonempty] at isWord
  obtain ⟨inner, rfl⟩ := eq_cons_of_lead isWord (by simp)
  exact isColumn.takes.within.not_quantifier isQuantifier

/-- An expression is a grouping element of one column. -/
theorem groupingElement (isColumn : IsColumn row e) (enough : 8 * row.length + 16 ≤ more)
    (ends : EndsItem rest) (room : depth + 2 * row.length + 1 ≤ capOf limit) :
    Reads limit True (groupingElement (Phrases.within more)) depth (row ++ rest)
      (fun it => it.erase = (Expr.groupingSet ⟨[e], default⟩).erase) depth rest := by
  obtain ⟨found, left, begins⟩ := isColumn.opened
  have noWord {word : Keyword} (free : word.isReserved = false)
      (noCall : AggregateFunction.ofWord? word = none) (isWord : lead (row ++ rest) = .keyword word) :
      lead ((row ++ rest).drop 1) ≠ .symbol .leftParen ∧ lead ((row ++ rest).drop 1) ≠ .keyword .SETS := by
    rw [lead_append_of_ne_nil isColumn.nonempty] at isWord
    obtain ⟨inner, rfl⟩ := eq_cons_of_lead isWord (by simp)
    obtain ⟨noParen, noSets⟩ := isColumn.takes.next_of_word free noCall
    exact ⟨lead_append_ne noParen fun _ => ends.ne _ rfl, lead_append_ne noSets fun _ => ends.ne _ rfl⟩
  refine .still here_still fun start => ?_
  refine (atWordBefore_no fun isWord => ?_).step ((atWordBefore_no fun isWord => ?_).step
    ((atWordBefore_no fun isWord => ?_).step ?_))
  · exact decide_eq_false (noWord rfl rfl isWord).1
  · exact decide_eq_false (noWord rfl rfl isWord).1
  · exact decide_eq_false (noWord rfl rfl isWord).2
  refine (isColumn.takes.groupingSet begins enough ends room).after fun set same =>
    .pure trivial ?_
  simp only [Expr.erase, same]

end IsColumn

section

variable {it : List Kind × Expr} {items : List (List Kind × Expr)}

/-- The tokens of items with commas between them. -/
def listed (it : List Kind × Expr) (items : List (List Kind × Expr)) : List Kind :=
  it.1 ++ commaRows (items.map Prod.fst)

theorem length_le_listed {other : List Kind × Expr} (member : other ∈ it :: items) :
    other.1.length ≤ (listed it items).length := by
  unfold listed
  rw [List.length_append]
  rcases List.mem_cons.mp member with rfl | member
  · exact Nat.le_add_right _ _
  · have isRow : other.1 ∈ items.map Prod.fst := List.mem_map.mpr ⟨other, member, rfl⟩
    have shorter := Expr.length_le_commaRows isRow
    omega

/-- What reads one column up to what ends an item reads a list of them. -/
theorem columns_read {α : Type} {item : Parse α} (key : α → α) (make : Expr → α)
    (isColumn : ∀ other ∈ it :: items, IsColumn other.1 other.2) (past : Past 10 rest)
    (reads : ∀ {row : List Kind} {e : Expr} {rest : List Kind}, IsColumn row e → EndsItem rest →
      row.length ≤ (listed it items).length →
      Reads limit True item depth (row ++ rest) (fun a => key a = key (make e)) depth rest) :
    Reads limit True (commaSeparated item) depth (listed it items ++ rest)
      (fun them => them.map key = ((it :: items).map fun other => key (make other.2))) depth rest := by
  have list : Reads limit (∀ other ∈ it :: items, True) (commaSeparated item) depth
      (it.1 ++ (commaRows (items.map Prod.fst) ++ rest))
      (List.Forall₂ (fun other a => key a = key (make other.2)) (it :: items)) depth rest := by
    refine items_reads (past.ne (by decide)) fun other member more after => ?_
    have ends : EndsItem more := by
      rcases after with isComma | rfl
      · exact .of_comma isComma
      · exact .of_past past
    exact reads (isColumn other member) ends (length_le_listed member)
  rw [listed, List.append_assoc]
  refine list.mono (by simp) fun them agree => ?_
  have same : List.Forall₂ Eq ((it :: items).map fun other => key (make other.2)) (them.map key) := by
    rw [List.forall₂_map_left_iff, List.forall₂_map_right_iff]
    exact agree.imp fun _ _ same => same.symm
  exact (List.forall₂_eq_eq_eq ▸ same).symm

end

/-! ## Statements with a list of elements -/

/-- A projection that is grouped. -/
def groupedProjection (groupings : List Expr) : Select :=
  ⟨none, [.integer 1 default], [.table ⟨[], "t"⟩ default], none, some ⟨none, groupings, default⟩, none,
    [], default⟩

/-- The statement that selects a number from `t` for each group. -/
def groupedStatement (groupings : List Expr) : Statement :=
  .select (bareQuery (.select (groupedProjection groupings)) default) default

section

variable {phrases : Phrases} {bound : Nat}

/-- The only target is a number. -/
theorem numberTarget_reads (reads : phrases.ReadBack limit bound) (fits : 3 ≤ bound)
    (room : depth < capOf limit) :
    Reads limit True (commaSeparated (target phrases)) depth (.integer 1 :: .keyword .FROM :: row)
      (fun them => Expr.eraseAll them = Expr.eraseAll [.integer 1 default]) depth
      (.keyword .FROM :: row) := by
  have level : (Outline.ofExpr (.integer 1 default)).depth = 1 := by decide
  have readable : (Outline.ofExpr (.integer 1 default)).Readable := by
    rw [Outline.readable_ofExpr]
    simp [Outline.belowExpr, Node.isUnreadable]
  have target : Reads limit (Outline.ofExpr (.integer 1 default)).Readable (target phrases) depth
      (.integer 1 :: .keyword .FROM :: row) (fun e => e.erase = (Expr.integer 1 default).erase) depth
      (.keyword .FROM :: row) :=
    target_reads reads (by simp [Expr.Formed, Scan.maxInteger]) fits (by omega) rfl (by simp) rfl
  refine (target.single (by simp)).mono (iff_true_intro readable) ?_
  rintro _ ⟨e, rfl, same⟩
  simp only [Expr.eraseAll, same]

/-- The only source is a table. -/
theorem tableSource_reads (reads : phrases.ReadBack limit bound) (fits : 3 ≤ bound)
    (room : depth < capOf limit) (past : Past 2 row) :
    Reads limit True (sources phrases) depth (.keyword .FROM :: .identifier "t" :: row)
      (fun them => Rel.eraseAll them = Rel.eraseAll [.table ⟨[], "t"⟩ default]) depth row := by
  have length : ((Canonical.clause [.FROM] (Canonical.ofSources [.table ⟨[], "t"⟩ default])).flatMap
    Piece.kinds).length = 2 := by decide
  have level : Outline.depthAll (Outline.ofRels [.table ⟨[], "t"⟩ default]) = 1 := by decide
  have formed : Rel.AllFormed [.table ⟨[], "t"⟩ default] := by
    simp [Rel.AllFormed, Rel.Formed, QualifiedName.Proper, QualifiedName.parts, Name.Proper]
  have readable : Outline.AllReadable (Outline.ofRels [.table ⟨[], "t"⟩ default]) := by
    simp [Outline.ofRels, Outline.AllReadable, Outline.belowRel, Outline.plain,
      Outline.readable_node, Node.isUnreadable]
  exact (sources_reads reads formed (by omega) (by omega) past).mono (iff_true_intro readable)
    fun _ => id

/-- A `GROUP BY` clause with nothing behind it. -/
theorem lastGroup_reads {groupings : List Expr} (noAll : lead row ≠ .keyword .ALL)
    (noDistinct : lead row ≠ .keyword .DISTINCT)
    (groups : Reads limit True (commaSeparated (Parse.groupingElement phrases)) depth row
      (fun them => Expr.eraseAll them = Expr.eraseAll groupings) depth []) :
    Reads limit True (groupClause phrases) depth (.keyword .GROUP :: .keyword .BY :: row)
      (fun clause => GroupClause.eraseOption clause =
        GroupClause.eraseOption (some ⟨none, groupings, default⟩)) depth [] := by
  refine .still here_still fun start => (takeWord_yes .GROUP).step ((expectWord_reads .BY).step ?_)
  refine (setQuantifier_reads none noAll noDistinct).step (groups.after fun them same => ?_)
  refine .still (spanFrom_still start) fun _ => .pure trivial ?_
  simp only [GroupClause.eraseOption, same]

theorem noClause_reads {word : Keyword} (other : lead row ≠ .keyword word) :
    Reads limit True (phrases.optionalClause word) depth row (· = none) depth row :=
  (takeWord_no other).step (.pure trivial rfl)

theorem groupedProjection_reads {groupings : List Expr}
    (reads : phrases.ReadBack limit bound) (fits : 3 ≤ bound) (room : depth < capOf limit)
    (noAll : lead row ≠ .keyword .ALL) (noDistinct : lead row ≠ .keyword .DISTINCT)
    (groups : Reads limit True (commaSeparated (Parse.groupingElement phrases)) depth row
      (fun them => Expr.eraseAll them = Expr.eraseAll groupings) depth []) :
    Reads limit True (select phrases) depth
      (.keyword .SELECT :: .integer 1 :: .keyword .FROM :: .identifier "t" :: .keyword .GROUP ::
        .keyword .BY :: row)
      (fun it => it.erase = (groupedProjection groupings).erase) depth [] := by
  have isGroup : Past 2 (.keyword .GROUP :: .keyword .BY :: row) := show 2 ≤ 3 by decide
  have noWindows : Reads limit True (windows phrases) depth [] (· = []) depth [] :=
    (takeWord_no (by simp)).step (.pure trivial rfl)
  refine .still here_still fun start => (expectWord_reads .SELECT).step ?_
  refine (setQuantifier_reads none (by simp) (by simp)).step ?_
  refine (numberTarget_reads reads fits room).after fun targets sameTargets => ?_
  refine (tableSource_reads reads fits room isGroup).after fun items sameItems => ?_
  refine (noClause_reads (by simp)).step ?_
  refine (lastGroup_reads noAll noDistinct groups).after fun clause sameClause => ?_
  refine (noClause_reads (by simp)).step (noWindows.step (.still (spanFrom_still start) fun _ => ?_))
  refine .pure trivial ?_
  simp only [groupedProjection, Select.erase, sameTargets, sameItems, sameClause, WindowDef.eraseAll]

end

/-- A statement whose only query is grouped. -/
theorem groupedStatement_reads {groupings : List Expr} (room : 3 ≤ capOf limit)
    (noAll : lead row ≠ .keyword .ALL) (noDistinct : lead row ≠ .keyword .DISTINCT)
    (groups : Reads limit True (commaSeparated (Parse.groupingElement (Phrases.within
      (8 * row.length + 63)))) 1 row
      (fun them => Expr.eraseAll them = Expr.eraseAll groupings) 1 []) :
    Reads limit True bareStatement 0
      (.keyword .SELECT :: .integer 1 :: .keyword .FROM :: .identifier "t" :: .keyword .GROUP ::
        .keyword .BY :: row)
      (fun it => it.erase = (groupedStatement groupings).erase) 0 [] := by
  have past : Past 10 [] := Nat.le_refl 10
  have select := groupedProjection_reads (phrases_reads limit _) (by omega) (by omega) noAll noDistinct
    groups
  have whole := bareQuery_reads (by omega) (by simp) (select_operand_reads select) past
  refine (query_statement_reads (.inl rfl) (wholeQuery_of_query ?_ whole)).weaken ?_
  · simp only [List.length_cons]
    omega
  · rintro _ ⟨_, span, rfl, _, span', rfl, it, rfl, same⟩
    simp [groupedStatement, bareQuery, Statement.erase, Query.erase, Rel.erase, same]

end Parse

namespace Statement

open Parse

/-- Where grouping elements are listed. -/
inductive GroupingPlace
  | clause | rollup | cube | groupingSets

namespace GroupingPlace

/-- A statement with the elements in their place. -/
def text (elements : String) : GroupingPlace → String
  | clause => "SELECT 1 FROM t GROUP BY " ++ elements
  | rollup => "SELECT 1 FROM t GROUP BY ROLLUP (" ++ elements ++ ")"
  | cube => "SELECT 1 FROM t GROUP BY CUBE (" ++ elements ++ ")"
  | groupingSets => "SELECT 1 FROM t GROUP BY GROUPING SETS (" ++ elements ++ ")"

/-- The tokens behind `GROUP BY`. -/
def tokens (row : List Kind) : GroupingPlace → List Kind
  | clause => row
  | rollup => .keyword .ROLLUP :: .symbol .leftParen :: (row ++ [.symbol .rightParen])
  | cube => .keyword .CUBE :: .symbol .leftParen :: (row ++ [.symbol .rightParen])
  | groupingSets => .keyword .GROUPING :: .keyword .SETS :: .symbol .leftParen ::
      (row ++ [.symbol .rightParen])

/-- The grouping elements of a statement whose elements are one column each. -/
def groupings (columns : List Expr) : GroupingPlace → List Expr
  | clause => columns.map fun e => .groupingSet ⟨[e], default⟩
  | rollup => [.rollup (columns.map fun e => ⟨[e], default⟩) default]
  | cube => [.cube (columns.map fun e => ⟨[e], default⟩) default]
  | groupingSets => [.groupingSets (columns.map fun e => .groupingSet ⟨[e], default⟩) default]

end GroupingPlace

section

variable {limit depth more : Nat} {it : List Kind × Expr} {items : List (List Kind × Expr)}

/-- The grouping sets of `ROLLUP` and `CUBE`. -/
theorem groupingSets_listed (isColumn : ∀ other ∈ it :: items, IsColumn other.1 other.2)
    (enough : 8 * (listed it items).length + 16 ≤ more)
    (room : depth + 2 * (listed it items).length + 1 ≤ capOf limit) (kind : Kind) :
    Reads limit True (groupingSetList (Phrases.within more)) depth
      (kind :: .symbol .leftParen :: (listed it items ++ [.symbol .rightParen]))
      (fun sets => GroupingSet.eraseAll sets =
        GroupingSet.eraseAll ((it :: items).map fun other => ⟨[other.2], default⟩)) depth [] := by
  have sets : Reads limit True (commaSeparated (Parse.groupingSet (Phrases.within more))) depth
      (listed it items ++ [Kind.symbol .rightParen]) _ depth [.symbol .rightParen] :=
    columns_read GroupingSet.erase (fun e => ⟨[e], default⟩) isColumn (Past.close [])
      fun {row e rest} isColumn ends few => by
        obtain ⟨found, left, begins⟩ := isColumn.opened
        exact isColumn.takes.groupingSet begins (by omega) ends (by omega)
  refine advance_reads.after fun _ _ => sets.parenthesized.weaken fun them same => ?_
  rw [GroupingSet.eraseAll_eq_map, GroupingSet.eraseAll_eq_map, same, List.map_map]
  rfl

/-- Columns are read as grouping elements of one column each. -/
theorem columns_listed {rest : List Kind} (isColumn : ∀ other ∈ it :: items, IsColumn other.1 other.2)
    (past : Past 10 rest) (enough : 8 * (listed it items).length + 16 ≤ more)
    (room : depth + 2 * (listed it items).length + 1 ≤ capOf limit) :
    Reads limit True (commaSeparated (Parse.groupingElement (Phrases.within more))) depth
      (listed it items ++ rest)
      (fun them => Expr.eraseAll them = Expr.eraseAll (((it :: items).map Prod.snd).map
        fun e => .groupingSet ⟨[e], default⟩)) depth rest := by
  have list : Reads limit True (commaSeparated (Parse.groupingElement (Phrases.within more))) depth
      (listed it items ++ rest) _ depth rest :=
    columns_read Expr.erase (fun e => .groupingSet ⟨[e], default⟩) isColumn past
      fun {row e rest} isColumn ends few => isColumn.groupingElement (by omega) ends (by omega)
  refine list.weaken fun them same => ?_
  rw [Expr.eraseAll_eq_map, Expr.eraseAll_eq_map, same, List.map_map, List.map_map]
  rfl

/-- The columns are read as grouping elements wherever those may be listed. -/
theorem groupings_listed (isColumn : ∀ other ∈ it :: items, IsColumn other.1 other.2)
    (enough : 8 * (listed it items).length + 17 ≤ more)
    (room : depth + 2 * (listed it items).length + 2 ≤ capOf limit) (place : GroupingPlace) :
    Reads limit True (commaSeparated (Parse.groupingElement (Phrases.within more))) depth
      (place.tokens (listed it items))
      (fun them => Expr.eraseAll them =
        Expr.eraseAll (place.groupings ((it :: items).map Prod.snd))) depth [] := by
  -- outside of the clause itself, the columns are those of one element
  have alone {row : List Kind} {expr : Expr}
      (reads : Reads limit True (Parse.groupingElement (Phrases.within more)) depth row
        (fun e => e.erase = expr.erase) depth []) :
      Reads limit True (commaSeparated (Parse.groupingElement (Phrases.within more))) depth row
        (fun them => Expr.eraseAll them = Expr.eraseAll [expr]) depth [] := by
    refine (reads.single (by simp)).weaken ?_
    rintro _ ⟨e, rfl, same⟩
    simp only [Expr.eraseAll, same]
  cases place with
  | clause =>
    have past : Past 10 [] := Nat.le_refl 10
    have list : Reads limit True _ depth _ _ depth [] :=
      columns_listed isColumn past (by omega : _ ≤ more) (by omega)
    rwa [List.append_nil] at list
  | rollup =>
    refine alone (.still here_still fun start => (atWordBefore_yes rfl).step ?_)
    refine (groupingSets_listed isColumn (by omega) (by omega) _).after fun sets same => ?_
    refine .still (spanFrom_still start) fun _ => .pure trivial ?_
    simp only [Expr.erase, same, List.map_map]
    rfl
  | cube =>
    refine alone (.still here_still fun start => (atWordBefore_no (by simp [GroupingPlace.tokens])).step ?_)
    refine (atWordBefore_yes rfl).step ?_
    refine (groupingSets_listed isColumn (by omega) (by omega) _).after fun sets same => ?_
    refine .still (spanFrom_still start) fun _ => .pure trivial ?_
    simp only [Expr.erase, same, List.map_map]
    rfl
  | groupingSets =>
    obtain ⟨more, rfl⟩ : ∃ fewer, more = fewer + 1 := ⟨more - 1, by omega⟩
    refine alone (.still here_still fun start => (atWordBefore_no (by simp [GroupingPlace.tokens])).step ?_)
    refine (atWordBefore_no (by simp [GroupingPlace.tokens])).step ((atWordBefore_yes rfl).step ?_)
    have list : Reads limit True _ (depth + 1) _ _ (depth + 1) [.symbol .rightParen] :=
      columns_listed isColumn (Past.close []) (by omega : _ ≤ more) (by omega)
    have sets := Reads.nested (by omega) list.parenthesized
    refine Reads.after (advance_reads.after fun _ _ => advance_reads.after fun _ _ => sets)
      fun sets same => ?_
    refine .still (spanFrom_still start) fun _ => .pure trivial ?_
    simp only [Expr.erase, same]

end

/-! ## Texts -/

section

variable {it : String × Expr} {items : List (String × Expr)}

/-- The texts of elements, with commas between them. -/
def elements (it : String × Expr) (items : List (String × Expr)) : String :=
  it.1 ++ String.join (items.map fun other => " , " ++ other.1)

/-- The tokens of the text of an element, with its tree. -/
def rowOf (it : String × Expr) : List Kind × Expr := (Lexer.kindsOf it.1, it.2)

/-- Texts without comments keep their tokens behind commas. -/
theorem splits_behind (spaced : ∀ other ∈ items, Scan.Spaced other.1.toList (rowOf other).1)
    {more : List Char} {others : List Kind} (closes : ∀ c ∈ more.head?, Scan.isClose c = true)
    (splits : Scan.Splits more others) :
    Scan.Splits ((String.join (items.map fun other => " , " ++ other.1)).toList ++ more)
        (commaRows ((items.map rowOf).map Prod.fst) ++ others) ∧
      ∀ c ∈ ((String.join (items.map fun other => " , " ++ other.1)).toList ++ more).head?,
        Scan.isClose c = true := by
  induction items with
  | nil => simpa [commaRows] using ⟨splits, closes⟩
  | cons it items ih =>
    obtain ⟨first, later⟩ := List.forall_mem_cons.mp spaced
    obtain ⟨behind, ends⟩ := ih later
    have text : (String.join ((it :: items).map fun other => " , " ++ other.1)).toList ++ more =
        ' ' :: ',' :: ' ' :: (it.1.toList ++
          ((String.join (items.map fun other => " , " ++ other.1)).toList ++ more)) := by
      simp [String.join_cons]
    have row : commaRows (((it :: items).map rowOf).map Prod.fst) ++ others =
        .symbol .comma :: ((rowOf it).1 ++ (commaRows ((items.map rowOf).map Prod.fst) ++ others)) := by
      simp [commaRows]
    rw [text, row]
    have element := (first.splits_append ends behind).blank (show Unicode.isBlank ' ' = true from rfl)
    exact ⟨.blank rfl (.token rfl rfl element), by simp; decide⟩

theorem splits_elements (spaced : ∀ other ∈ it :: items, Scan.Spaced other.1.toList (rowOf other).1)
    {more : List Char} {others : List Kind} (closes : ∀ c ∈ more.head?, Scan.isClose c = true)
    (splits : Scan.Splits more others) :
    Scan.Splits ((elements it items).toList ++ more)
      (listed (rowOf it) (items.map rowOf) ++ others) := by
  obtain ⟨first, later⟩ := List.forall_mem_cons.mp spaced
  obtain ⟨behind, ends⟩ := splits_behind later closes splits
  have whole := first.splits_append ends behind
  simpa [elements, listed] using whole

theorem GroupingPlace.length_tokens (row : List Kind) (place : GroupingPlace) :
    row.length ≤ (place.tokens row).length ∧ (place.tokens row).length ≤ row.length + 4 := by
  cases place <;>
  · simp only [GroupingPlace.tokens, List.length_cons, List.length_append, List.length_nil]
    omega

/-- The tokens of a statement with its elements. -/
theorem GroupingPlace.splits
    (spaced : ∀ other ∈ it :: items, Scan.Spaced other.1.toList (rowOf other).1)
    (place : GroupingPlace) :
    Scan.Splits (place.text (elements it items)).toList
      (.keyword .SELECT :: .integer 1 :: .keyword .FROM :: .identifier "t" :: .keyword .GROUP ::
        .keyword .BY :: place.tokens (listed (rowOf it) (items.map rowOf))) := by
  have closing : Scan.Splits [')'] [.symbol .rightParen] := .token rfl rfl (.done rfl)
  have enclosed {text front : List Char} {before : List Kind} (opening : Scan.Spaced front before)
      (isText : text = front ++ ' ' :: '(' :: ((elements it items).toList ++ [')'])) :
      Scan.Splits text (before ++ .symbol .leftParen ::
        (listed (rowOf it) (items.map rowOf) ++ [Kind.symbol .rightParen])) := by
    rw [isText]
    exact opening.before (splits_elements spaced (by simp; decide) closing).opened
  cases place with
  | clause =>
    have opening : Scan.Spaced "SELECT 1 FROM t GROUP BY".toList [.keyword .SELECT, .integer 1,
        .keyword .FROM, .identifier "t", .keyword .GROUP, .keyword .BY] :=
      Scan.spaced_of_spaced? 25 (by decide +kernel)
    have bare := splits_elements spaced (by simp) (.done rfl : Scan.Splits [] [])
    rw [List.append_nil, List.append_nil] at bare
    have text : (GroupingPlace.clause.text (elements it items)).toList =
        "SELECT 1 FROM t GROUP BY".toList ++ ' ' :: (elements it items).toList := by
      show ("SELECT 1 FROM t GROUP BY " ++ elements it items).toList = _
      simp
    rw [text]
    exact opening.before bare
  | rollup =>
    have opening : Scan.Spaced "SELECT 1 FROM t GROUP BY ROLLUP".toList [.keyword .SELECT, .integer 1,
        .keyword .FROM, .identifier "t", .keyword .GROUP, .keyword .BY, .keyword .ROLLUP] :=
      Scan.spaced_of_spaced? 32 (by decide +kernel)
    refine enclosed opening ?_
    show ("SELECT 1 FROM t GROUP BY ROLLUP (" ++ elements it items ++ ")").toList = _
    simp
  | cube =>
    have opening : Scan.Spaced "SELECT 1 FROM t GROUP BY CUBE".toList [.keyword .SELECT, .integer 1,
        .keyword .FROM, .identifier "t", .keyword .GROUP, .keyword .BY, .keyword .CUBE] :=
      Scan.spaced_of_spaced? 30 (by decide +kernel)
    refine enclosed opening ?_
    show ("SELECT 1 FROM t GROUP BY CUBE (" ++ elements it items ++ ")").toList = _
    simp
  | groupingSets =>
    have opening : Scan.Spaced "SELECT 1 FROM t GROUP BY GROUPING SETS".toList [.keyword .SELECT,
        .integer 1, .keyword .FROM, .identifier "t", .keyword .GROUP, .keyword .BY, .keyword .GROUPING,
        .keyword .SETS] :=
      Scan.spaced_of_spaced? 39 (by decide +kernel)
    refine enclosed opening ?_
    show ("SELECT 1 FROM t GROUP BY GROUPING SETS (" ++ elements it items ++ ")").toList = _
    simp

/-- There are finitely many places. -/
theorem GroupingPlace.exists_ge (measure : GroupingPlace → Nat) :
    ∃ bound, ∀ place, measure place ≤ bound :=
  ⟨measure clause + measure rollup + measure cube + measure groupingSets,
    fun place => by cases place <;> omega⟩

theorem GroupingPlace.lead_tokens {row : List Kind} {word : Keyword}
    (isQuantifier : word = .ALL ∨ word = .DISTINCT) (other : lead row ≠ .keyword word)
    (place : GroupingPlace) : lead (place.tokens row) ≠ .keyword word := by
  rcases isQuantifier with rfl | rfl <;> cases place <;> simp_all [GroupingPlace.tokens]

/-- Expressions that are read alone are read as the columns of grouping elements, if the parenthesis
at the beginning of each, unless it opens a query, holds one expression. -/
theorem parse_groupings
    (alone : ∀ other ∈ it :: items, Alone wholeExpression other.1 other.2)
    (opened : ∀ other ∈ it :: items, ∃ found, Begins openedColumn other.1 found)
    (holds : ∀ place : GroupingPlace, (place.text (elements it items)).utf8ByteSize < 2 ^ 63) :
    ∃ least, ∀ limit ≥ least, ∀ place : GroupingPlace, ∃ found,
      parse limit (place.text (elements it items)) = .ok found ∧
        (groupedStatement (place.groupings ((it :: items).map Prod.snd))).alike found = true := by
  have spaced : ∀ other ∈ it :: items, Scan.Spaced other.1.toList (rowOf other).1 :=
    fun other member => (alone other member).spaced_kindsOf
  have again (row : List Kind) : Repeats [] True (2 * row.length + 1) (Keyed (Option.map Expr.erase))
      openedColumn openedColumn row := openedColumn_again
  have isColumn : ∀ other ∈ rowOf it :: items.map rowOf, IsColumn other.1 other.2 := by
    rw [← List.map_cons]
    simp only [List.mem_map]
    rintro _ ⟨other, member, rfl⟩
    refine ⟨(alone other member).takes [] wholeExpression_again, ?_⟩
    obtain ⟨found, begins⟩ := opened other member
    exact ⟨found, begins.gives (spaced other member).splits (again _)⟩
  obtain ⟨depth, shallow⟩ := GroupingPlace.exists_ge fun place =>
    (Outline.ofStatement (groupedStatement (place.groupings ((it :: items).map Prod.snd)))).depth
  refine ⟨max depth ((listed (rowOf it) (items.map rowOf)).length + 11), fun limit enough place => ?_⟩
  have splits := GroupingPlace.splits spaced place
  have few := place.length_tokens (listed (rowOf it) (items.map rowOf))
  have room := room_of_length splits (holds place) limit (by
    simp only [List.length_cons]
    omega)
  simp only [List.length_cons] at room
  have noQuantifier {word : Keyword} (isQuantifier : word = .ALL ∨ word = .DISTINCT) :
      lead (place.tokens (listed (rowOf it) (items.map rowOf))) ≠ .keyword word :=
    place.lead_tokens isQuantifier ((isColumn _ List.mem_cons_self).noQuantifier isQuantifier _)
  have columns : (rowOf it :: items.map rowOf).map Prod.snd = (it :: items).map Prod.snd := by
    simp [rowOf]
  have groups (levels : Nat) (enough : 8 * (listed (rowOf it) (items.map rowOf)).length + 17 ≤ levels) :
      Reads limit True (commaSeparated (Parse.groupingElement (Phrases.within levels))) 1
        (place.tokens (listed (rowOf it) (items.map rowOf)))
        (fun them => Expr.eraseAll them =
          Expr.eraseAll (place.groupings ((it :: items).map Prod.snd))) 1 [] := by
    rw [← columns]
    exact groupings_listed isColumn enough (by omega) place
  have reads := groupedStatement_reads (by omega) (noQuantifier (.inl rfl)) (noQuantifier (.inr rfl))
    (groups _ (by omega))
  obtain ⟨found, read, same⟩ := parse_of_parts splits reads fun found same => by
    rw [← Outline.ofStatement_erase, same, Outline.ofStatement_erase]
    exact (shallow place).trans (by omega)
  exact ⟨found, read, (alike_iff_erase _ _).mpr same.symm⟩

end

/-- Two elements, the first of which merely begins with a parenthesis. -/
theorem parse_groupings_product :
    ∃ product column, Alone wholeExpression "(a + b) * 2" product ∧ Alone wholeExpression "c" column ∧
      ∃ least, ∀ limit ≥ least, ∀ place : GroupingPlace, ∃ found,
        parse limit (place.text "(a + b) * 2 , c") = .ok found ∧
          (groupedStatement (place.groupings [product, column])).alike found = true := by
  obtain ⟨product, isProduct, -⟩ := exists_alone wholeExpression 9 "(a + b) * 2" (fun _ => true)
    (by decide +kernel)
  obtain ⟨column, isColumn, -⟩ := exists_alone wholeExpression 9 "c" (fun _ => true)
    (by decide +kernel)
  have alone : ∀ other ∈ [("(a + b) * 2", product), ("c", column)],
      Alone wholeExpression other.1 other.2 := by
    simpa using ⟨isProduct, isColumn⟩
  have opened : ∀ other ∈ [("(a + b) * 2", product), ("c", column)],
      ∃ found, Begins openedColumn other.1 found := by
    have first : ∃ found, Begins openedColumn "(a + b) * 2" found :=
      exists_begins (show (begins? openedColumn 9 "(a + b) * 2").isSome = true by decide +kernel)
    have second : ∃ found, Begins openedColumn "c" found :=
      exists_begins (show (begins? openedColumn 9 "c").isSome = true by decide +kernel)
    simpa using ⟨first, second⟩
  have isText : elements ("(a + b) * 2", product) [("c", column)] = "(a + b) * 2 , c" := by
    simp [elements]
  have read := parse_groupings alone opened fun place => by
    rw [isText]
    cases place <;> decide +kernel
  rw [isText] at read
  exact ⟨product, column, isProduct, isColumn, read⟩

/-- Whether a reading has failed at a token that is not expected. -/
def isUnexpected {α : Type} : Except Failure α → Bool
  | .error (.grammatical ⟨.unexpected .., _⟩) => true
  | _ => false

/-- No higher limit helps against a token that is not expected. -/
theorem refused_of_isUnexpected {text : String} {limit : Nat}
    (unexpected : isUnexpected (parse limit text) = true) :
    ∀ bound ≥ limit, ∃ failure, parse bound text = .error failure := by
  intro bound rises
  cases refused : parse limit text with
  | ok statement =>
    rw [refused] at unexpected
    cases unexpected
  | error failure =>
    rcases parse_raise_error rises refused with again | ⟨span, rfl⟩
    · exact ⟨failure, again⟩
    · rw [refused] at unexpected
      cases unexpected

/-- An expression that begins with a row, and one that begins with a query whose operand is in
parentheses: neither is a grouping element. -/
theorem parse_groupings_refused :
    (∃ expr, Alone wholeExpression "(a, b) = (1, 2)" expr ∧ ∀ limit ≥ 9, ∃ failure,
      parse limit "SELECT 1 FROM t GROUP BY (a, b) = (1, 2)" = .error failure) ∧
    ∃ expr, Alone wholeExpression "((SELECT 1) UNION SELECT 2)" expr ∧ ∀ limit ≥ 9, ∃ failure,
      parse limit "SELECT 1 FROM t GROUP BY ((SELECT 1) UNION SELECT 2)" = .error failure := by
  obtain ⟨comparison, isComparison, -⟩ := exists_alone wholeExpression 9 "(a, b) = (1, 2)"
    (fun _ => true) (by decide +kernel)
  obtain ⟨subquery, isSubquery, -⟩ := exists_alone wholeExpression 9 "((SELECT 1) UNION SELECT 2)"
    (fun _ => true) (by decide +kernel)
  exact ⟨⟨comparison, isComparison, refused_of_isUnexpected (by decide +kernel)⟩,
    subquery, isSubquery, refused_of_isUnexpected (by decide +kernel)⟩

end Statement

end CanonicalSql
