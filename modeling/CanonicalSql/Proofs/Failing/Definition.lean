import CanonicalSql.Proofs.Elsewhere.Element
import CanonicalSql.Proofs.Failing.Statement

/-!
# Failing table definitions

What fails in the default value of a column makes the definition of the table fail. The elements
before the column are read in front of their commas, and the clauses of the column that stand before
the default value in front of it.
-/
namespace CanonicalSql

open Parse

variable {tokens : List Token} {failure : Failure} {row rest others : List Kind}
  {limit depth : Nat}

namespace Parse

/-! ## What begins a column -/

theorem Gives.columnTyped_opens {column : ColumnDef} {left : List Kind}
    (gives : Gives columnTyped row column left) : ∃ name, (lead row).name? = some name := by
  cases isName : (lead row).name? with
  | some name => exact ⟨name, rfl⟩
  | none =>
    refine (gives.elim (Refuses.bind (fun s a t faces run => ?_) _)).elim
    rw [identifier, bind_ok (kind_looks s), id, faces.current, isName] at run
    cases run

theorem columnTyped_runs {i : Nat} :
    Runs tokens i columnTyped fun j column => ColumnLaid tokens i j column :=
  .identifier fun _ => dataType_runs.andThen fun _ _ _ => .pure ⟨[], .nil (by omega), .refl _⟩

/-- A column up to its default value is read in front of it as a name and a type and the clauses
behind them. -/
theorem Takes.column_leads {column : ColumnDef} (takes : Takes columnHead row column)
    (rest : List Kind) :
    ∃ typed mid, (∃ name, (lead row).name? = some name) ∧ mid.length ≤ row.length ∧
      (∀ limit depth, depth + (2 * row.length + 1) ≤ capOf limit →
        Reads limit True columnTyped depth (row ++ .keyword .DEFAULT :: rest) (· = typed) depth
          (mid ++ .keyword .DEFAULT :: rest)) ∧
      ∀ limit depth, depth + 2 * mid.length ≤ capOf limit →
        Leads limit columnClause (· = typed) depth (mid ++ .keyword .DEFAULT :: rest)
          (fun last => last.default.isSome = column.default.isSome) depth
          (.keyword .DEFAULT :: rest) := by
  have begins : BeginsClause (.keyword .DEFAULT :: rest) := .inl rfl
  have again : Repeats (.keyword .DEFAULT :: rest) (EndsType (.keyword .DEFAULT :: rest))
      (2 * row.length + 1) Eq columnTyped columnTyped row := columnTyped_repeats row
  obtain ⟨typed, mid, isTyped, loops⟩ := Gives.split takes again
  refine ⟨typed, mid, isTyped.columnTyped_opens, (isTyped.suffix again).length_le,
    fun limit depth room => ?_, fun limit depth room => ?_⟩
  · exact (isTyped.reads again (fun _ => begins.endsType) rfl rfl room).weaken fun _ same => same.symm
  · obtain ⟨up, -, none, leads⟩ := columnClause_again.loop_leads loops
    obtain rfl : up = 0 := by omega
    intro v s same shows
    subst same
    obtain ⟨w, t, alike, shows', reaches⟩ := leads limit depth room v s ⟨rfl, rfl⟩ shows
    exact ⟨w, t, alike.default, shows', reaches⟩

/-- The words in front of `TABLE` are read there. -/
theorem temporary_repeats (row : List Kind) :
    Repeats (.keyword .TABLE :: rest) True 0 Eq temporary temporary row := by
  have scope : Repeats (.keyword .TABLE :: rest) True 0 Eq temporaryScope temporaryScope row :=
    .takeWord (by simp) (.inl (by simp)) (fun _ _ => .done rfl) fun _ =>
      .takeWord (by simp) (.inl (by simp)) (fun _ _ => .done rfl) fun _ => .done rfl
  have word (left : List Kind) :
      Repeats (.keyword .TABLE :: rest) True 0 Eq takeTemporary takeTemporary left :=
    .takeWord (by simp) (.inl (by simp)) (fun _ _ => .done rfl) fun _ =>
      takeWord_repeats (by simp) (by simp)
  refine scope.bind id fun scope _ left same _ => (word left).bind id fun taken _ left' same' _ => ?_
  subst same same'
  exact .ite (fun _ => .done rfl) fun _ => .ite (fun _ => .unexpected _) fun _ => .done rfl

end Parse

/-! ## Default values -/

theorem FailsOperand.columnDefault (given : FailsOperand tokens failure 0 row)
    (goesOn : lead row = .keyword .NULL → continuesDefault (lead (row.drop 1)) = true)
    (room : depth + 2 * row.length + 1 ≤ capOf limit) :
    Fails tokens failure limit depth columnDefault row := by
  have noUser : (lead row).word?.bind userKind? = none := by
    have opens := given.opens
    generalize lead row = kind at opens
    cases kind with
    | keyword word =>
      rw [Kind.word?, Option.bind_some]
      unfold userKind?
      split <;> first | rfl | cases opens
    | _ => rfl
  refine .look word?_looks ?_
  rw [noUser]
  refine .noWordBefore (fun isNull => ?_) (given.whole room).bind
  rw [goesOn isNull]
  rfl

/-- Where an element of a table is expected, the step fails within the row. -/
def FailsElement (tokens : List Token) (failure : Failure) (row : List Kind) : Prop :=
  ∀ {limit depth : Nat}, depth + 2 * row.length + 1 ≤ capOf limit →
    Fails tokens failure limit depth tableElement row

/-- The default value of a column. -/
theorem FailsOperand.element (given : FailsOperand tokens failure 0 row)
    (goesOn : lead row = .keyword .NULL → continuesDefault (lead (row.drop 1)) = true)
    {column : ColumnDef} (takes : Takes columnHead others column)
    (noDefault : column.default = none) :
    FailsElement tokens failure (others ++ .keyword .DEFAULT :: row) := by
  intro limit depth room
  rw [List.length_append, List.length_cons] at room
  obtain ⟨typed, mid, ⟨name, isName⟩, few, reads, leads⟩ := takes.column_leads row
  have nonempty : others ≠ [] := by
    rintro rfl
    cases isName
  have clauses (i j : Nat) (c : ColumnDef)
      (_ : tokens.length ≤ i + (others ++ .keyword .DEFAULT :: row).length + 1) (_ : i ≤ j)
      (isLaid : ColumnLaid tokens i j c) :
      Rounds tokens j columnClause (ColumnLaid tokens i) ∧ ColumnLaid tokens i j c :=
    ⟨columnClause_rounds, isLaid⟩
  have head : Fails tokens failure limit depth columnHead (others ++ .keyword .DEFAULT :: row) := by
    refine .rounds (reads limit depth (by omega)) (fun i _ => columnTyped_runs) clauses
      (fun _ same => same) (leads limit depth (by omega)) fun last isLast => ?_
    have absent : last.default.isSome = false := by rw [isLast, noDefault]; rfl
    refine .look word?_looks ?_
    rw [lead_cons, Kind.word?]
    dsimp only
    rw [absent, if_neg (by simp)]
    exact .advance (by simp) (given.columnDefault goesOn (by omega)).bind
  have column : Fails tokens failure limit depth columnDef (others ++ .keyword .DEFAULT :: row) := by
    rw [columnDef_eq]
    exact .still here_still fun _ => head.bind
  refine .look word?_looks ?_
  rw [lead_append_of_ne_nil nonempty]
  split
  case h_5 => exact column.bind
  all_goals
    next isWord =>
      rw [Kind.eq_of_word? isWord] at isName
      cases isName

/-- An element of a table. -/
theorem FailsElement.create (given : FailsElement tokens failure row)
    {words : List Kind} (takes : ∃ scope, Takes temporary words scope) {table : QualifiedName}
    {name : List Kind} (spelled : table.IsSpelled name) {rows : List (List Kind)}
    (each : ∀ other ∈ rows, ∃ element, Takes tableElement other element) :
    FailsStatement tokens failure (.keyword .CREATE :: (words ++ .keyword .TABLE ::
      (name ++ .symbol .leftParen :: (beforeCommas rows ++ row)))) := by
  intro limit room
  simp only [List.length_append, List.length_cons] at room
  obtain ⟨scope, takes⟩ := takes
  refine .look kind_looks (Fails.bind ?_)
  refine .still here_still fun _ => .expectWord ?_
  refine .given takes (temporary_repeats words) (fun _ => trivial) rfl rfl (by omega)
    (fun _ _ => temporary_runs) fun _ _ => .expectWord ?_
  refine .step (qualifiedName_spelled spelled (by simp)) (fun _ _ => anyName_runs) ?_
  refine Fails.bind (.expectSign (Fails.bind (.commaSeparated (fun other member behind isComma => ?_)
    (fun _ _ => tableElement_runs.passes) (given (by omega)))))
  obtain ⟨element, takes⟩ := each other member
  have short := length_le_beforeCommas member
  exact (tableElement_repeats isComma other).reads takes trivial (by rw [isComma]; rfl) (by omega)

end CanonicalSql
