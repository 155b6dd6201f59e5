import CanonicalSql.Proofs.Columns
import CanonicalSql.Proofs.Elsewhere.Rounds

/-!
# Elements of a table elsewhere

A column or a constraint that has been read to its end is read again in front of a comma. The
clauses of a column are read again in front of another clause; a default value and a collation may
be given once, so that it counts which of them have been given (`Parse.GivenAlike`).
-/
namespace CanonicalSql.Parse

variable {rest row others : List Kind} {column column' : ColumnDef}

/-! ## Clauses of a column -/

/-- What may be given once has been given in both columns or in none of them. -/
structure GivenAlike (column column' : ColumnDef) : Prop where
  default : column'.default.isSome = column.default.isSome
  collation : column'.collation.isSome = column.collation.isSome

/-- The clause that begins with the word, if one does. -/
def clauseAfter? (column : ColumnDef) : Keyword → Option (Parse ColumnDef)
  | .DEFAULT => some do
    if column.default.isSome then unexpected "at most one DEFAULT clause"
    else
      advance
      return { column with default := some (← columnDefault) }
  | .COLLATE => some do
    if column.collation.isSome then unexpected "at most one COLLATE clause"
    else
      advance
      return { column with collation := some (← qualifiedName) }
  | .CONSTRAINT | .NOT | .UNIQUE | .PRIMARY | .REFERENCES => some do
    return { column with constraints := column.constraints ++ [← columnConstraint] }
  | _ => none

theorem columnClause_eq (column : ColumnDef) : columnClause column = (do
    match (← word?).bind (clauseAfter? column) with
    | some clause => return some (← clause)
    | none => return none) := by
  unfold columnClause
  congr 1
  funext word
  cases word with
  | none => rfl
  | some word =>
    rw [Option.bind_some]
    unfold clauseAfter?
    split
    case h_1 isWord =>
      obtain rfl := Option.some.inj isWord
      cases column.default with
      | none => simp only [Option.isSome_none, Bool.false_eq_true, ↓reduceIte, bind_assoc, pure_bind]
      | some _ => rfl
    case h_2 isWord =>
      obtain rfl := Option.some.inj isWord
      cases column.collation with
      | none => simp only [Option.isSome_none, Bool.false_eq_true, ↓reduceIte, bind_assoc, pure_bind]
      | some _ => rfl
    case h_8 =>
      split <;> simp_all
    all_goals
      next isWord =>
        obtain rfl := Option.some.inj isWord
        simp only [bind_assoc, pure_bind]

/-- A clause is read again in front of another clause or a comma. -/
theorem clauseAfter?_repeats {word : Keyword} {clause clause' : Parse ColumnDef}
    (begins : BeginsClause rest) (noCollate : lead rest ≠ .keyword .COLLATE)
    (alike : GivenAlike column column') (isClause : clauseAfter? column word = some clause)
    (isClause' : clauseAfter? column' word = some clause') (left : List Kind) :
    Repeats rest True (2 * (.keyword word :: left).length) GivenAlike clause clause'
      (.keyword word :: left) := by
  have few : (.keyword word :: left : List Kind).length = left.length + 1 := rfl
  unfold clauseAfter? at isClause isClause'
  split at isClause
  case h_1 =>
    cases isClause
    cases isClause'
    rw [alike.default]
    refine .ite (fun _ => .unexpected _) fun _ => .advance (fun _ => .inl (by simp)) ?_
    exact .bind ((columnDefault_repeats begins left).within (fun _ => noCollate) (by omega)) id
      fun _ _ _ _ _ => .done ⟨rfl, alike.collation⟩
  case h_2 =>
    cases isClause
    cases isClause'
    rw [alike.collation]
    refine .ite (fun _ => .unexpected _) fun _ => .advance (fun _ => .inl (by simp)) ?_
    exact .bind ((qualifiedName_repeats fun _ => begins.ne rfl).within id (by omega)) id
      fun _ _ _ _ _ => .done ⟨alike.default, rfl⟩
  case h_8 => cases isClause
  all_goals
    cases isClause
    cases isClause'
    refine .bind ((columnConstraint_repeats _).within (fun _ => begins.endsReference) ?_) id
      fun _ _ _ _ _ => .done ⟨alike.default, alike.collation⟩
    exact Nat.le_refl _

theorem clauseAfter?_isSome (column column' : ColumnDef) (word : Keyword) :
    (clauseAfter? column word).isSome = (clauseAfter? column' word).isSome := by
  unfold clauseAfter?
  split <;> rfl

/-- A clause of one column is one of the other, too. -/
theorem clauseAfter?_other {word : Option Keyword} {clause : Parse ColumnDef}
    (isClause : word.bind (clauseAfter? column) = some clause) (column' : ColumnDef) :
    ∃ first clause', word = some first ∧ clauseAfter? column first = some clause ∧
      clauseAfter? column' first = some clause' := by
  obtain ⟨first, isFirst, isClause⟩ := Option.bind_eq_some_iff.mp isClause
  have isSome := clauseAfter?_isSome column column' first
  rw [isClause, Option.isSome_some] at isSome
  obtain ⟨clause', isClause'⟩ := Option.isSome_iff_exists.mp isSome.symm
  exact ⟨first, clause', isFirst, isClause, isClause'⟩

theorem clauseAfter?_none {word : Option Keyword} (none : word.bind (clauseAfter? column) = none)
    (column' : ColumnDef) : word.bind (clauseAfter? column') = .none := by
  cases word with
  | none => rfl
  | some word =>
    have isSome := clauseAfter?_isSome column column' word
    rw [Option.bind_some] at none ⊢
    rw [none] at isSome
    exact Option.isNone_iff_eq_none.mp (Option.isSome_eq_false_iff.mp isSome.symm)

/-- A round of the clauses stops where it stands, or reads a clause. -/
theorem Gives.columnClause {next : Option ColumnDef} {mid : List Kind}
    (gives : Gives (columnClause column) row next mid) :
    next = none ∧ mid = row ∨ ∃ clause found, (lead row).word?.bind (clauseAfter? column) = some clause ∧
      Gives clause row found mid ∧ next = some found := by
  rw [columnClause_eq] at gives
  have gives := gives.step fun _ _ => word?_looks.reads
  cases isClause : (lead row).word?.bind (clauseAfter? column) with
  | none =>
    rw [isClause] at gives
    exact .inl gives.pure
  | some clause =>
    rw [isClause] at gives
    obtain ⟨found, isNext, gives⟩ := gives.map
    exact .inr ⟨clause, found, rfl, gives, isNext⟩

theorem columnClause_repeats (isComma : lead rest = .symbol .comma)
    (alike : GivenAlike column column') (row : List Kind) :
    Repeats rest True (2 * row.length + 1) (Option.Rel GivenAlike) (columnClause column)
      (columnClause column') row := by
  rw [columnClause_eq, columnClause_eq]
  refine .glance word?_looks (fun _ _ => by rw [isComma]; rfl) ?_
  cases isClause : (lead row).word?.bind (clauseAfter? column) with
  | none =>
    rw [clauseAfter?_none isClause]
    exact .done .none
  | some clause =>
    obtain ⟨word, clause', isWord, isFirst, isSecond⟩ := clauseAfter?_other isClause column'
    obtain ⟨left, rfl⟩ := eq_cons_of_lead (Kind.eq_of_word? isWord) (by simp)
    rw [isWord, Option.bind_some, isSecond]
    have begins : BeginsClause rest := .inr (.inr (.inl isComma))
    exact .bind ((clauseAfter?_repeats begins (by simp [isComma]) alike isFirst isSecond left).within id
      (Nat.le_succ _)) id fun _ _ _ alike _ => .done (.some alike)

/-- In front of a default value the clauses before it are read again. -/
theorem columnClause_again : GoesAgain (.keyword .DEFAULT :: others) 0 0 GivenAlike (fun _ => 0)
    columnClause columnClause where
  low := Nat.zero_le 1
  moves faces run :=
    (columnClause_repeats (lead_cons _ []) ⟨rfl, rfl⟩ _).moves faces run
  stays gives := by
    rcases gives.columnClause with ⟨-, isLeft⟩ | ⟨clause, found, -, -, none⟩
    · exact isLeft
    · cases none
  again {v next left mid} gives := by
    rcases gives.columnClause with ⟨none, -⟩ | ⟨clause, found, isClause, gives, isNext⟩
    · cases none
    obtain rfl := Option.some.inj isNext
    refine ⟨rfl, fun w limit depth alike room => ?_⟩
    obtain ⟨word, clause', isWord, isFirst, isSecond⟩ := clauseAfter?_other isClause w
    obtain ⟨left, rfl⟩ := eq_cons_of_lead (Kind.eq_of_word? isWord) (by simp)
    have begins : BeginsClause (.keyword .DEFAULT :: others) := .inl rfl
    have there := gives.reads (clauseAfter?_repeats begins (by simp) alike isFirst isSecond left)
      (fun _ => trivial) rfl rfl room
    rw [columnClause_eq]
    refine word?_looks.reads.step ?_
    rw [List.cons_append, lead_cons, Kind.word?, Option.bind_some, isSecond]
    exact there.after fun found alike => .pure trivial ⟨found, rfl, alike⟩

/-! ## Columns -/

/-- The name of a column and its type. -/
def columnTyped : Parse ColumnDef := do
  let name ← identifier
  let type ← dataType
  return { name, dataType := type }

/-- A column without what it takes up of the text. -/
def columnHead : Parse ColumnDef := do loop columnClause (← columnTyped)

theorem columnDef_eq : columnDef = (do
    let start ← here
    let column ← columnHead
    return { column with span := ← spanFrom start }) := by
  simp only [columnDef, columnHead, columnTyped, bind_assoc, pure_bind]

theorem columnTyped_repeats (row : List Kind) :
    Repeats rest (EndsType rest) (2 * row.length + 1) Eq columnTyped columnTyped row := by
  refine .after identifier_repeats fun name _ left same few => ?_
  subst same
  refine .bind ((dataType_repeats left).within id (by omega)) id fun type _ _ same _ => ?_
  subst same
  exact .done rfl

theorem columnDef_repeats (isComma : lead rest = .symbol .comma) (row : List Kind) :
    Repeats rest True (2 * row.length + 1) (fun _ _ => True) columnDef columnDef row := by
  have begins : BeginsClause rest := .inr (.inr (.inl isComma))
  rw [columnDef_eq]
  refine .still here_still here_still fun _ _ => .bind (R := GivenAlike) ?_ id fun _ _ _ _ _ => ?_
  · refine .bind ((columnTyped_repeats row).within (fun _ => begins.endsType) (Nat.le_refl _)) id
      fun typed _ left same few => ?_
    subst same
    have clauses : Repeats rest True (2 * left.length + 1) GivenAlike (loop columnClause typed)
        (loop columnClause typed) left :=
      loop_repeats 1 ⟨rfl, rfl⟩ fun _ _ more alike _ => columnClause_repeats isComma alike more
    exact clauses.within id (by omega)
  · exact .still (spanFrom_still _) (spanFrom_still _) fun _ _ => .done trivial

/-! ## Constraints -/

theorem tableConstraintKind_repeats (isComma : lead rest = .symbol .comma) (row : List Kind) :
    Repeats rest True (2 * row.length) (fun _ _ => True) tableConstraintKind tableConstraintKind
      row := by
  have ends : EndsReference rest := ⟨by simp [isComma], by simp [isComma], by simp [isComma],
    by simp [isComma]⟩
  have constrained {left : List Kind} {make : List Name → TableConstraintKind} :
      Repeats rest True (2 * left.length) (fun _ _ => True) (do return make (← names))
        (do return make (← names)) left :=
    .bind names_repeats id fun _ _ _ _ _ => .done trivial
  refine .lookInside word?_looks (.unexpected _) fun opens => ?_
  obtain ⟨kind, left, rfl⟩ := List.exists_cons_of_ne_nil opens
  have few : (kind :: left).length = left.length + 1 := rfl
  rw [lead_cons]
  split
  · next isWord =>
    exact .advance (fun _ => .inl (by simp [Kind.eq_of_word? isWord]))
      (constrained.within id (by omega))
  · next isWord =>
    refine .advance (fun _ => .inl (by simp [Kind.eq_of_word? isWord]))
      (.expectWord (by simp) fun left' isLeft => constrained.within id ?_)
    subst isLeft
    simp only [List.length_cons]
    omega
  · next isWord =>
    refine .advance (fun _ => .inl (by simp [Kind.eq_of_word? isWord]))
      (.expectWord (by simp) fun left' isLeft => ?_)
    have fewer : left.length = left'.length + 1 := by rw [isLeft, List.length_cons]
    refine .bind (names_repeats.within id (by omega)) id fun _ _ left same _ => ?_
    exact .bind ((references_repeats left).within (fun _ => ends) (by omega)) id
      fun _ _ _ _ _ => .done trivial
  · exact .unexpected _

theorem tableConstraint_repeats (isComma : lead rest = .symbol .comma) (row : List Kind) :
    Repeats rest True (2 * row.length) (fun _ _ => True) tableConstraint tableConstraint row := by
  refine .still here_still here_still fun _ _ => ?_
  refine .inside constraintName_repeats (fun _ => Refuses.bind (.look word?_looks (.unexpected _)) _)
    fun _ _ left _ few => ?_
  refine .bind ((tableConstraintKind_repeats isComma left).within id (by omega)) id
    fun _ _ _ _ _ => ?_
  exact .still (spanFrom_still _) (spanFrom_still _) fun _ _ => .done trivial

/-- An element of a table is read again in front of a comma. -/
theorem tableElement_repeats (isComma : lead rest = .symbol .comma) (row : List Kind) :
    Repeats rest True (2 * row.length + 1) (fun _ _ => True) tableElement tableElement row := by
  refine .look word?_looks (fun _ _ => by rw [isComma]; rfl) ?_
  split
  case h_5 =>
    exact .bind (columnDef_repeats isComma row) id fun _ _ _ _ _ => .done trivial
  all_goals
    exact .bind ((tableConstraint_repeats isComma row).within id (Nat.le_succ _)) id
      fun _ _ _ _ _ => .done trivial

end CanonicalSql.Parse
