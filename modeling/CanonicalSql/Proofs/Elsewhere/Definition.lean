import CanonicalSql.Proofs.Elsewhere.Whole

/-!
# Column definitions elsewhere

Data types and constraints that have been read to their end are read again in front of other
clauses of a column. A data type goes on with a length, with the words of its name and with
suffixes, a constraint with the parts of a reference; a clause begins with none of these.
-/
namespace CanonicalSql

/-- What follows goes on with no data type. -/
structure EndsType (kinds : List Kind) : Prop where
  longer : (lead kinds).extendsType = false
  suffix : (lead kinds).isSuffix = false

theorem EndsType.ne {kinds : List Kind} (ends : EndsType kinds) {kind : Kind}
    (extending : kind.extendsType = true) : lead kinds ≠ kind :=
  Kind.ne_of_extendsType ends.longer extending

namespace Parse

variable {rest row : List Kind} {ends : Prop} {need : Nat}

/-! ## Parts of data types -/

theorem unsigned_repeats : Repeats rest ends need Eq unsigned unsigned row := by
  refine .lookInside kind_looks (.unexpected _) fun opens => ?_
  obtain ⟨kind, left, rfl⟩ := List.exists_cons_of_ne_nil opens
  rw [id_eq, lead_cons]
  split
  · exact .ite (fun _ => .advance (fun _ => .inl (by simp)) (.done rfl)) fun _ => .unexpected _
  · exact .unexpected _

theorem parenthesizedOr_repeats {α : Type} {p : Parse α} {none : α}
    (stops : ends → lead rest ≠ .symbol .leftParen)
    (inner : ∀ left, Repeats rest False need Eq p p left) :
    Repeats rest ends need Eq (do if ← atSign .leftParen then parenthesized p else return none)
      (do if ← atSign .leftParen then parenthesized p else return none) row :=
  .look (atSign_looks _) (fun _ holds => by simp [stops holds])
    (.ite (fun _ => parenthesized_repeats fun left _ => inner left) fun _ => .done rfl)

theorem optionalLength_repeats (stops : ends → lead rest ≠ .symbol .leftParen) :
    Repeats rest ends need Eq optionalLength optionalLength row := by
  refine .look (atSign_looks _) (fun _ holds => by simp [stops holds])
    (.ite (fun _ => ?_) fun _ => .done rfl)
  exact .after (parenthesized_repeats fun left _ => unsigned_repeats)
    fun _ _ _ same _ => .done (by rw [same])

theorem charUnit_repeats : Repeats rest False need Eq charUnit charUnit row :=
  .takeWord (by simp) (.inl False.elim) (fun _ _ => .done rfl) fun _ =>
    .takeWord (by simp) (.inl False.elim) (fun _ _ => .done rfl) fun _ => .done rfl

theorem charLength_repeats (stops : ends → lead rest ≠ .symbol .leftParen) :
    Repeats rest ends need Eq charLength charLength row := by
  refine parenthesizedOr_repeats stops fun left => .bind unsigned_repeats id fun _ _ _ same _ => ?_
  subst same
  exact .bind charUnit_repeats id fun _ _ _ same _ => .done (by rw [same])

theorem precisionScale_repeats (stops : ends → lead rest ≠ .symbol .leftParen) :
    Repeats rest ends need Eq precisionScale precisionScale row := by
  refine parenthesizedOr_repeats stops fun left => .bind unsigned_repeats id fun _ _ _ same _ => ?_
  subst same
  refine .bind (R := Eq) ?_ id fun _ _ _ same _ => .done (by rw [same])
  refine .takeSign (.inl False.elim) (fun _ _ => ?_) fun _ => .done rfl
  exact .bind unsigned_repeats id fun _ _ _ same _ => .done (by rw [same])

theorem zoneWords_repeats (zone : Bool) :
    Repeats rest ends need Eq (zoneWords zone) (zoneWords zone) row :=
  .expectWord (by simp) fun _ _ => .expectWord (by simp) fun _ _ => .done rfl

theorem timeZone_repeats (stops : ends → EndsType rest) :
    Repeats rest ends need Eq timeZone timeZone row :=
  .takeWord (by simp) (.inl fun holds => (stops holds).ne rfl) (fun _ _ => zoneWords_repeats _)
    fun _ => .takeWord (by simp) (.inl fun holds => (stops holds).ne rfl)
      (fun _ _ => zoneWords_repeats _) fun _ => .done rfl

theorem takeLargeObject_repeats (stops : ends → EndsType rest) :
    Repeats rest ends need Eq takeLargeObject takeLargeObject row :=
  .takeWord (by simp) (.inl fun holds => (stops holds).ne rfl)
    (fun _ _ => .expectWord (by simp) fun _ _ => .done rfl) fun _ => .done rfl

theorem characterType_repeats (stops : ends → EndsType rest) (nationalSet : Bool) :
    Repeats rest ends need Eq (characterType nationalSet) (characterType nationalSet) row := by
  have length {f : Option CharLength → DataType} {left : List Kind} :
      Repeats rest ends need Eq (do return f (← charLength)) (do return f (← charLength)) left :=
    .bind (charLength_repeats fun holds => (stops holds).ne rfl) id fun _ _ _ same _ =>
      .done (by rw [same])
  refine .takeWord (by simp) (.inl fun holds => (stops holds).ne rfl) (fun _ _ => length) fun _ => ?_
  refine .bind (takeLargeObject_repeats stops) id fun _ _ _ same _ => ?_
  subst same
  exact .ite (fun _ => length) fun _ => length

theorem binaryType_repeats (stops : ends → EndsType rest) :
    Repeats rest ends need Eq binaryType binaryType row := by
  have length {f : Option Nat → DataType} {left : List Kind} :
      Repeats rest ends need Eq (do return f (← optionalLength)) (do return f (← optionalLength))
        left :=
    .bind (optionalLength_repeats fun holds => (stops holds).ne rfl) id fun _ _ _ same _ =>
      .done (by rw [same])
  refine .takeWord (by simp) (.inl fun holds => (stops holds).ne rfl) (fun _ _ => length) fun _ => ?_
  refine .bind (takeLargeObject_repeats stops) id fun _ _ _ same _ => ?_
  subst same
  exact .ite (fun _ => length) fun _ => length

theorem referenceType_repeats (stops : ends → EndsType rest) :
    Repeats rest ends (2 * row.length) Eq referenceType referenceType row := by
  refine .after (R := Eq) (parenthesized_repeats fun left isRow => ?_)
    fun target _ left same few => ?_
  · refine (qualifiedName_repeats False.elim).within id ?_
    rw [isRow, List.length_cons]
    omega
  subst same
  refine .takeWord (by simp) (.inl fun holds => (stops holds).ne rfl) (fun left' isLeft => ?_)
    fun _ => .done rfl
  refine .bind ((qualifiedName_repeats fun holds => (stops holds).ne rfl).within id ?_) id
    fun _ _ _ same _ => .done (by rw [same])
  rw [isLeft, List.length_cons] at few
  omega

/-! ## Data types -/

theorem typeAfter?_isSome (type type' : Parse DataType) (word : Keyword) :
    (typeAfter? type word).isSome = (typeAfter? type' word).isSome := by
  -- comparing the types themselves would take the two ways to read them apart
  unfold typeAfter?
  split <;> simp only [Option.isSome_some]

section

variable {type type' : Parse DataType}
  (types : ∀ left : List Kind, Repeats rest (EndsType rest) (2 * left.length + 1) Eq type type' left)
include types

theorem rowFields_repeats :
    Repeats rest ends (2 * row.length) Eq (parenthesized (commaSeparated (rowField type)))
      (parenthesized (commaSeparated (rowField type'))) row := by
  refine parenthesized_repeats fun left isRow => ?_
  have field (left : List Kind) :
      Repeats rest False (2 * left.length + 1) Eq (rowField type) (rowField type') left := by
    refine .after identifier_repeats fun name _ more same few => ?_
    subst same
    exact .bind ((types more).within False.elim (by omega)) id fun _ _ _ same _ =>
      .done (by rw [same])
  have fields : Repeats rest False (2 * left.length + 1) (List.Forall₂ Eq)
      (commaSeparated (rowField type)) (commaSeparated (rowField type')) left :=
    commaSeparated_repeats False left 1 False.elim id fun left _ => field left
  refine (fields.within id ?_).alike fun these those agree => ?_
  · rw [isRow, List.length_cons]
    omega
  · rwa [List.forall₂_eq_eq_eq] at agree

theorem typeAfter?_repeats {word : Keyword} {after after' : Parse DataType}
    (begins : typeAfter? type word = some after) (begins' : typeAfter? type' word = some after') :
    Repeats rest (EndsType rest) (2 * row.length) Eq after after' row := by
  have length {f : Option Nat → DataType} :
      Repeats rest (EndsType rest) (2 * row.length) Eq (do return f (← optionalLength))
        (do return f (← optionalLength)) row :=
    .bind (optionalLength_repeats (·.ne rfl)) id fun _ _ _ same _ => .done (by rw [same])
  have charLength {f : Option CharLength → DataType} :
      Repeats rest (EndsType rest) (2 * row.length) Eq (do return f (← charLength))
        (do return f (← charLength)) row :=
    .bind (charLength_repeats (·.ne rfl)) id fun _ _ _ same _ => .done (by rw [same])
  have precision {f : Option Nat × Option Nat → DataType} :
      Repeats rest (EndsType rest) (2 * row.length) Eq (do return f (← precisionScale))
        (do return f (← precisionScale)) row :=
    .bind (precisionScale_repeats (·.ne rfl)) id fun _ _ _ same _ => .done (by rw [same])
  have zoned {f : Option Nat → Option Bool → DataType} :
      Repeats rest (EndsType rest) (2 * row.length) Eq
        (do return f (← optionalLength) (← timeZone))
        (do return f (← optionalLength) (← timeZone)) row := by
    refine .bind (optionalLength_repeats (·.ne rfl)) id fun _ _ _ same _ => ?_
    subst same
    exact .bind (timeZone_repeats id) id fun _ _ _ same _ => .done (by rw [same])
  have character (nationalSet : Bool) {left : List Kind} :
      Repeats rest (EndsType rest) (2 * row.length) Eq (characterType nationalSet)
        (characterType nationalSet) left :=
    characterType_repeats id nationalSet
  unfold typeAfter? at begins begins'
  split at begins
  all_goals cases begins
  all_goals cases begins'
  case h_1 => exact precision
  case h_2 | h_3 => exact precision
  case h_8 => exact length
  case h_10 => exact .expectWord (by simp) fun _ _ => .done rfl
  case h_11 => exact binaryType_repeats id
  case h_12 | h_13 => exact length
  case h_14 | h_15 => exact character false
  case h_16 | h_17 => exact charLength
  case h_18 =>
    refine .after (R := Eq) ?_ fun _ _ _ _ _ => character true
    exact .takeWord (by simp) (.inr (.expectWord _)) (fun _ _ => .done rfl) fun _ =>
      expectWord_repeats (by simp)
  case h_19 => exact character true
  case h_20 => exact charLength
  case h_23 | h_24 => exact zoned
  case h_25 => exact .bind (rowFields_repeats types) id fun _ _ _ same _ => .done (by rw [same])
  case h_26 => exact referenceType_repeats id
  all_goals exact .done rfl

theorem baseType_repeats (row : List Kind) :
    Repeats rest (EndsType rest) (2 * row.length) Eq (baseType type) (baseType type') row := by
  have named {left : List Kind} : Repeats rest (EndsType rest) (2 * left.length) Eq
      (do return DataType.named (← qualifiedName)) (do return DataType.named (← qualifiedName)) left :=
    .bind (qualifiedName_repeats (·.ne rfl)) id fun _ _ _ same _ => .done (by rw [same])
  refine .lookInside word?_looks (Refuses.qualifiedName.bind _) fun opens => ?_
  obtain ⟨kind, left, rfl⟩ := List.exists_cons_of_ne_nil opens
  rw [lead_cons]
  cases isWord : kind.word? with
  | none => exact named
  | some word =>
    have same := typeAfter?_isSome type type' word
    simp only
    cases begins : typeAfter? type word with
    | none =>
      rw [begins, Option.isSome_none] at same
      rw [Option.isSome_eq_false_iff.mp same.symm |> Option.isNone_iff_eq_none.mp]
      exact .ite (fun _ => .unexpected _) fun _ => named
    | some after =>
      rw [begins, Option.isSome_some] at same
      obtain ⟨after', begins'⟩ := Option.isSome_iff_exists.mp same.symm
      simp only [begins']
      refine .advance (fun _ => .inl ?_) ((typeAfter?_repeats types begins begins').within id ?_)
      · rintro rfl
        cases isWord
        cases begins
      · simp

end

theorem maxCardinality_repeats (stops : ends → lead rest ≠ .symbol .leftBracket) :
    Repeats rest ends need Eq maxCardinality maxCardinality row := by
  refine .takeSign (.inl stops) (fun _ _ => ?_) fun _ => .done rfl
  refine .bind unsigned_repeats id fun _ _ _ same _ => ?_
  subst same
  exact .expectSign fun _ _ => .done rfl

theorem typeSuffix_echoes (done : DataType × Nat) (row : List Kind) :
    Echoes rest (EndsType rest) (2 * row.length + 0) (Again Eq Prod.snd 1 done) (risen 1)
      (typeSuffix done) (typeSuffix done) row := by
  obtain ⟨element, levels⟩ := done
  have entered {type : DataType} {left : List Kind} :
      Echoes rest (EndsType rest) 1 (Again Eq Prod.snd 1 (element, levels)) (risen 1)
        (do enter; return some (type, levels + 1)) (do enter; return some (type, levels + 1))
        left := by
    have given : Repeats rest (EndsType rest) 0
        (fun next next' => Again Eq Prod.snd 1 (element, levels) next next' ∧ next.isSome = true)
        (return some (type, levels + 1)) (return some (type, levels + 1)) left :=
      .done ⟨.more rfl rfl, rfl⟩
    refine (Echoes.enter given).mono id (Nat.le_refl _) fun next next' given => ⟨given.1, ?_⟩
    rw [risen, if_pos given.2]
  have noSuffix {word : Keyword} (isSuffix : (Kind.keyword word).isSuffix = true)
      (holds : EndsType rest) : lead rest ≠ .keyword word :=
    Kind.ne_of_isSuffix holds.suffix isSuffix
  refine .takeWord (by simp) (.inl (noSuffix rfl)) (fun left isRow => ?_) fun _ =>
    .takeWord (by simp) (.inl (noSuffix rfl)) (fun left isRow => ?_) fun _ => .pure .stop rfl
  · refine .bind (maxCardinality_repeats (·.ne rfl)) id fun count _ _ same _ => ?_
    subst same
    exact entered.within id (by rw [isRow, List.length_cons]; omega)
  · exact entered.within id (by rw [isRow, List.length_cons]; omega)

theorem dataTypeWith_repeats {type type' : Parse DataType}
    (types : ∀ left : List Kind,
      Repeats rest (EndsType rest) (2 * left.length + 1) Eq type type' left)
    (row : List Kind) :
    Repeats rest (EndsType rest) (2 * row.length + 1) Eq (dataTypeWith type) (dataTypeWith type')
      row := by
  refine .bind (nested_repeats (baseType_repeats types row)) id fun base _ left same few => ?_
  subst same
  have rounds : Echoes rest (EndsType rest) (2 * left.length + 0) Eq Prod.snd
      (loop typeSuffix (base, 0)) (loop typeSuffix (base, 0)) left := by
    refine loop_echoes 1 0 (by omega) rfl rfl fun v w more same _ => ?_
    subst same
    exact typeSuffix_echoes v more
  exact (rounds.leaves fun done _ same => ⟨congrArg Prod.snd same.symm, congrArg Prod.fst same⟩).within
    id (by omega)

theorem dataTypeWithin_repeats {bound more : Nat} (less : bound ≤ more) (row : List Kind) :
    Repeats rest (EndsType rest) (2 * row.length + 1) Eq (dataTypeWithin bound)
      (dataTypeWithin more) row := by
  induction bound generalizing more row with
  | zero => exact .vacuous fun s a t _ run => by cases run
  | succ bound ih =>
    obtain ⟨more, rfl⟩ : ∃ fewer, more = fewer + 1 := ⟨more - 1, by omega⟩
    exact dataTypeWith_repeats (fun left => ih (by omega) left) row

/-- A data type is read again where it stands as the type of a column. -/
theorem dataType_repeats (row : List Kind) :
    Repeats rest (EndsType rest) (2 * row.length + 1) Eq dataType dataType row where
  there s a t faces run := by
    have less : s.ahead.length + 2 ≤ (row ++ rest).length + 2 := by
      rw [faces.ahead_length, List.length_append]
      omega
    obtain ⟨left, faces', shorter, last, isThere, reads⟩ :=
      (dataTypeWithin_repeats less row).there s a t faces run
    refine ⟨left, faces', shorter, last, isThere, fun meets limit depth room => ?_⟩
    exact (remaining_reads.step (reads meets limit depth room) :
      Reads _ _ (remaining >>= fun count => dataTypeWithin (count + 2)) _ _ _ _ _)

/-! ## Constraints -/

theorem referentialAction_repeats :
    Repeats rest ends need Eq referentialAction referentialAction row := by
  refine .lookInside word?_looks (.unexpected _) fun opens => ?_
  obtain ⟨kind, left, rfl⟩ := List.exists_cons_of_ne_nil opens
  have taken {α : Type} {word : Keyword} (isWord : kind.word? = some word) (other : word ≠ .NOT)
      {f g : Unit → Parse α} (next : Repeats rest ends need Eq (f ()) (g ()) left) :
      Repeats rest ends need Eq (advance >>= f) (advance >>= g) (kind :: left) :=
    .advance (fun _ => .inl (by simpa [Kind.eq_of_word? isWord] using other)) next
  rw [lead_cons]
  split
  · next isWord => exact taken isWord (by simp) (.done rfl)
  · next isWord => exact taken isWord (by simp) (.done rfl)
  · next isWord =>
    refine taken isWord (by simp) (.lookInside word?_looks (.unexpected _) fun opens => ?_)
    obtain ⟨kind, left, rfl⟩ := List.exists_cons_of_ne_nil opens
    rw [lead_cons]
    split
    · next isWord => exact .advance (fun _ => .inl (by simp [Kind.eq_of_word? isWord])) (.done rfl)
    · next isWord => exact .advance (fun _ => .inl (by simp [Kind.eq_of_word? isWord])) (.done rfl)
    · exact .unexpected _
  · next isWord => exact taken isWord (by simp) (.expectWord (by simp) fun _ _ => .done rfl)
  · exact .unexpected _

/-- What follows goes on with no reference. -/
structure EndsReference (kinds : List Kind) : Prop where
  dot : lead kinds ≠ .symbol .dot
  paren : lead kinds ≠ .symbol .leftParen
  noMatch : lead kinds ≠ .keyword .MATCH
  noOn : lead kinds ≠ .keyword .ON

theorem triggerStep_repeats (triggers : Triggers) :
    Repeats rest (EndsReference rest) need (Option.Rel Eq) (triggerStep triggers)
      (triggerStep triggers) row := by
  refine .takeWord (by simp) (.inl (·.noOn)) (fun left isRow => ?_) fun _ => .done .none
  have action {f : ReferentialAction → Triggers} {word : Keyword} (other : word ≠ .NOT)
      {left : List Kind} :
      Repeats rest (EndsReference rest) need (Option.Rel Eq)
        (do advance; return some (f (← referentialAction)))
        (do advance; return some (f (← referentialAction))) (.keyword word :: left) :=
    .advance (fun _ => .inl (by simpa using other)) (.bind referentialAction_repeats id
      fun _ _ _ same _ => .done (.some (by rw [same])))
  have seen {left : List Kind} {first : Bool} {word : Keyword}
      (isSeen : (first && decide (lead left = .keyword word)) = true) :
      ∃ more, left = .keyword word :: more :=
    eq_cons_of_lead (of_decide_eq_true (Bool.and_eq_true_iff.mp isSeen).2) (by simp)
  refine .lookInside (atWord_looks _) ?_ fun _ => .ite (fun isDelete => ?_) fun _ => ?_
  · simp only [reduceCtorEq, decide_false, Bool.and_false, Bool.false_eq_true, ↓reduceIte]
    exact .look (atWord_looks _) (by simpa using .unexpected _)
  · obtain ⟨more, rfl⟩ := seen isDelete
    exact action (by simp)
  refine .lookInside (atWord_looks _) (by simpa using .unexpected _) fun _ =>
    .ite (fun isUpdate => ?_) fun _ => .unexpected _
  obtain ⟨more, rfl⟩ := seen isUpdate
  exact action (by simp)

theorem matchOption_repeats : Repeats rest (EndsReference rest) need Eq matchOption matchOption row := by
  refine .takeWord (by simp) (.inl (·.noMatch)) (fun left isRow => ?_) fun _ => .done rfl
  refine .lookInside word?_looks (.unexpected _) fun opens => ?_
  obtain ⟨kind, left, rfl⟩ := List.exists_cons_of_ne_nil opens
  rw [lead_cons]
  split
  case h_4 => exact .unexpected _
  all_goals
    next isWord =>
      exact .advance (fun _ => .inl (by simp [Kind.eq_of_word? isWord])) (.done rfl)

theorem references_repeats (row : List Kind) :
    Repeats rest (EndsReference rest) (2 * row.length) (Keyed References.erase) references
      references row := by
  refine .still here_still here_still fun start start' => .expectWord (by simp) fun left isRow => ?_
  have few : left.length + 1 = row.length := by rw [isRow, List.length_cons]
  refine .bind ((qualifiedName_repeats (·.dot)).within id (by omega)) id fun table _ left₁ same few₁ => ?_
  subst same
  refine .bind ((optionalNames_repeats (·.paren)).within id (by omega)) id
    fun columns _ left₂ same few₂ => ?_
  subst same
  refine .bind matchOption_repeats id fun option _ left₃ same few₃ => ?_
  subst same
  have rounds : Repeats rest (EndsReference rest) (2 * left₃.length + 0) Eq (loop triggerStep {})
      (loop triggerStep {}) left₃ :=
    loop_repeats 0 rfl fun v w more same _ => by
      subst same
      exact triggerStep_repeats v
  refine .bind (rounds.within id (by omega)) id fun triggers _ _ same _ => ?_
  subst same
  exact .still (spanFrom_still _) (spanFrom_still _) fun _ _ => .done rfl

theorem constraintName_repeats :
    Repeats rest False (2 * row.length) Eq constraintName constraintName row := by
  refine .takeWord (by simp) (.inl False.elim) (fun left isRow => ?_) fun _ => .done rfl
  refine .bind ((qualifiedName_repeats False.elim).within id ?_) id fun _ _ _ same _ =>
    .done (by rw [same])
  rw [isRow, List.length_cons]
  omega

theorem columnConstraintKind_repeats (row : List Kind) :
    Repeats rest (EndsReference rest) (2 * row.length) (Keyed ColumnConstraintKind.erase)
      columnConstraintKind columnConstraintKind row := by
  refine .lookInside word?_looks (.unexpected _) fun opens => ?_
  obtain ⟨kind, left, rfl⟩ := List.exists_cons_of_ne_nil opens
  rw [lead_cons]
  split
  · next isWord =>
    exact .advance (fun _ => .inr ((Refuses.expectWord _).bind _))
      (.expectWord (by simp) fun _ _ => .done rfl)
  · next isWord => exact .advance (fun _ => .inl (by simp [Kind.eq_of_word? isWord])) (.done rfl)
  · next isWord =>
    exact .advance (fun _ => .inl (by simp [Kind.eq_of_word? isWord]))
      (.expectWord (by simp) fun _ _ => .done rfl)
  · exact .bind (references_repeats _) id fun _ _ _ same _ =>
      .done (congrArg ColumnConstraintKind.foreignKey same)
  · exact .unexpected _

theorem columnConstraintKind_refuses : Refuses columnConstraintKind :=
  .look word?_looks (.unexpected _)

/-- A constraint is read again where another clause follows it. -/
theorem columnConstraint_repeats (row : List Kind) :
    Repeats rest (EndsReference rest) (2 * row.length) (Keyed ColumnConstraint.erase)
      columnConstraint columnConstraint row := by
  refine .still here_still here_still fun start start' => ?_
  refine .inside constraintName_repeats (fun _ => columnConstraintKind_refuses.bind _)
    fun name _ left same few => ?_
  subst same
  refine .bind ((columnConstraintKind_repeats left).within id (by omega)) id
    fun kind kind' _ same _ => ?_
  exact .still (spanFrom_still _) (spanFrom_still _) fun _ _ =>
    .done (congrArg (ColumnConstraint.mk name · default) same)

end Parse

end CanonicalSql
