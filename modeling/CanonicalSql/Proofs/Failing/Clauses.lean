import CanonicalSql.Proofs.Failing.Basic

/-!
# Failing clauses and items

Projections, the tails of queries and the bodies of windows are rules that read one clause after
the other, each of which may be absent. Such a rule fails in a clause if what is read before it is
read by the rules of the clauses there (`Parse.IsClause.fails`). A list fails in an item if the items
before it are read in front of their commas (`Parse.IsClause.commaSeparated`).
-/
namespace CanonicalSql.Parse

variable {α β γ : Type} {head : Phrases → Parse α} {clause : Phrases → Parse β}
  {ends further : List Kind → Prop}

/-- The beginning of a rule and one more clause. -/
def andClause (head : Phrases → Parse α) (clause : Phrases → Parse β) (phrases : Phrases) :
    Parse (α × β) := do
  let found ← head phrases
  return (found, ← clause phrases)

/-- What the rule reads alone it reads in front of tokens at which it may end. -/
structure IsClause (clause : Phrases → Parse α) (ends : List Kind → Prop) : Prop where
  runs : ∀ {tokens phrases i}, phrases.From tokens i → Passes tokens i (clause phrases)
  repeats : ∀ {phrases phrases' : Phrases} {rest}, phrases.Repeats phrases' rest → phrases.Shuns →
    ∀ row, Repeats rest (ends rest) (2 * row.length + 1) (fun _ _ => True) (clause phrases)
      (clause phrases') row

theorem IsClause.and (isHead : IsClause head ends) (isClause : IsClause clause further)
    (later : ∀ {rest}, further rest → ends rest) : IsClause (andClause head clause) further where
  runs course := (isHead.runs course).andThen fun _ _ past =>
    (isClause.runs (course.later past)).andThen fun _ _ _ => .pure trivial
  repeats below shuns row := by
    refine .bind ((isHead.repeats below shuns row).within later (Nat.le_refl _)) id
      fun _ _ left _ few => ?_
    exact .bind ((isClause.repeats below shuns left).within id (by omega)) id
      fun _ _ _ _ _ => .done trivial

theorem optionalClause_isClause {word : Keyword} {rank : Nat} (noNot : word ≠ .NOT)
    (low : (Kind.keyword word).rank < rank + 1) :
    IsClause (·.optionalClause word) (Past (rank + 1)) where
  runs course := (optionalClause_runs (course.later (Nat.le_succ _)) word).passes
  repeats below _ row := (optionalClause_repeats below noNot (·.ne low) (·.closes 0) row).alike
    fun _ _ _ => trivial

variable {tokens : List Token} {failure : Failure} {row others : List Kind}
  {limit depth more : Nat}

/-- A clause fails behind what is read before it. -/
theorem IsClause.fails (isHead : IsClause head ends) {next : α → β → Parse γ}
    (takes : ∃ found, Takes (do head (← Phrases.forState)) others found) (may : ends row)
    (noPredicate : isNegatable (lead row) = false) (apart : isJoint (lead row) = false)
    (enough : 8 * (others ++ row).length + 15 ≤ more) (nonempty : row ≠ [])
    (room : depth + 2 * (others ++ row).length ≤ capOf limit)
    (fails : Fails tokens failure limit depth (clause (Phrases.within more)) row) :
    Fails tokens failure limit depth (do
      let found ← head (Phrases.within more)
      next found (← clause (Phrases.within more))) (others ++ row) := by
  obtain ⟨found, takes⟩ := takes
  have longer := List.length_pos_iff.mpr nonempty
  rw [List.length_append] at enough room
  have again : Repeats row (ends row) (2 * others.length + 1) (fun _ _ => True)
      (do head (← Phrases.forState)) (head (Phrases.within more)) others :=
    .forState (isHead.repeats (Phrases.within_repeats (by omega) row) (Phrases.within_shuns _) others)
  refine .given takes again (fun _ => may) noPredicate apart (by omega) (fun i few => ?_)
    fun _ _ => fails.bind
  exact isHead.runs (Phrases.within_from (by rw [List.length_append]; omega) few)

/-! ## Items -/

section

variable {item : Phrases → Parse α} {rest : List Kind} {rows : List (List Kind)}

/-- An item is read in front of a comma. -/
theorem IsClause.reads_item (isItem : IsClause item (lead · = .symbol .comma)) {a : α}
    (takes : Takes (do item (← Phrases.forState)) others a) (isComma : lead rest = .symbol .comma)
    (enough : 8 * others.length + 16 ≤ more) (room : depth + 2 * others.length + 1 ≤ capOf limit) :
    Reads limit True (item (Phrases.within more)) depth (others ++ rest) (fun _ => True) depth
      rest := by
  have again : Repeats rest (lead rest = .symbol .comma) (2 * others.length + 1) (fun _ _ => True)
      (do item (← Phrases.forState)) (item (Phrases.within more)) others :=
    .forState (isItem.repeats (Phrases.within_repeats enough rest) (Phrases.within_shuns _) others)
  exact again.reads takes isComma (by rw [isComma]; rfl) (by omega)

/-- A list fails in an item behind those that are read. -/
theorem IsClause.commaSeparated (isItem : IsClause item (lead · = .symbol .comma))
    (each : ∀ other ∈ rows, ∃ a, Takes (do item (← Phrases.forState)) other a) (nonempty : row ≠ [])
    (enough : 8 * (beforeCommas rows ++ row).length + 8 ≤ more)
    (room : depth + 2 * (beforeCommas rows ++ row).length ≤ capOf limit + 1)
    (last : Fails tokens failure limit depth (item (Phrases.within more)) row) :
    Fails tokens failure limit depth (Parse.commaSeparated (item (Phrases.within more)))
      (beforeCommas rows ++ row) := by
  have longer := List.length_pos_iff.mpr nonempty
  rw [List.length_append] at enough room
  refine .commaSeparated (fun other member behind isComma => ?_) (fun i few => ?_) last
  · obtain ⟨a, takes⟩ := each other member
    have short := length_le_beforeCommas member
    exact isItem.reads_item takes isComma (by omega) (by omega)
  · exact isItem.runs (Phrases.within_from (by rw [List.length_append]; omega) few)

theorem closes_of_comma (isComma : lead rest = .symbol .comma) : Closes 0 rest :=
  ⟨.of_quiet (by rw [isComma]; rfl), by simp [isComma]⟩

theorem expression_item : IsClause Phrases.expression (lead · = .symbol .comma) where
  runs course := (expression_runs course.here).passes
  repeats below _ row := ((expression_repeats below row).within closes_of_comma (Nat.le_refl _)).alike
    fun _ _ _ => trivial

end

end CanonicalSql.Parse
