import CanonicalSql.Grammar.DataType
import CanonicalSql.Proofs.Course.Basic

/-!
# The course of data types

A data type carries no places, so nothing but the course itself is shown: a field of a row is
read behind the parenthesis that opens the row, and a suffix behind its keyword. Each level of
types within types thus has a token of its own, which is why the tokens ahead are bound enough
(`dataType_runs`).
-/
namespace CanonicalSql.Parse

variable {tokens : List Token} {i : Nat}

/-! ## Parts of data types -/

theorem unsigned_runs : Passes tokens i unsigned := by
  refine .look kind_looks ?_
  split
  · next value isInteger =>
    refine .ite (fun _ => ?_) fun _ => unexpected_runs _
    exact .advance (by rw [show kindAt tokens i = .integer value from isInteger]; rfl)
      (.pure trivial)
  · exact unexpected_runs _

theorem optionalLength_runs : Passes tokens i optionalLength :=
  .look (atSign_looks _) (.ite (fun _ => (parenthesized_runs unsigned_runs).andThen fun _ _ _ =>
    .pure trivial) fun _ => .pure trivial)

theorem charUnit_runs : Passes tokens i charUnit :=
  .takeWord (.pure trivial) (.takeWord (.pure trivial) (.pure trivial))

theorem charLength_runs : Passes tokens i charLength :=
  .look (atSign_looks _) (.ite (fun _ => parenthesized_runs (unsigned_runs.andThen fun _ _ _ =>
    charUnit_runs.andThen fun _ _ _ => .pure trivial)) fun _ => .pure trivial)

theorem scale_runs : Passes tokens i scale :=
  .takeSign rfl (fun _ => unsigned_runs.andThen fun _ _ _ => .pure trivial) (.pure trivial)

theorem precisionScale_runs : Passes tokens i precisionScale :=
  .look (atSign_looks _) (.ite (fun _ => parenthesized_runs (unsigned_runs.andThen fun _ _ _ =>
    scale_runs.andThen fun _ _ _ => .pure trivial)) fun _ => .pure trivial)

theorem zoneWords_runs (zone : Bool) : Passes tokens i (zoneWords zone) :=
  .expectWord (.expectWord (.pure trivial))

theorem timeZone_runs : Passes tokens i timeZone :=
  .takeWord (zoneWords_runs true) (.takeWord (zoneWords_runs false) (.pure trivial))

theorem takeLargeObject_runs : Passes tokens i takeLargeObject :=
  .takeWord (.expectWord (.pure trivial)) (.pure trivial)

theorem expectCharacter_runs : Passes tokens i expectCharacter :=
  .takeWord (.pure trivial) ((expectWord_runs _).mono fun _ _ _ _ => trivial)

theorem maxCardinality_runs : Passes tokens i maxCardinality :=
  .takeSign rfl (fun _ => unsigned_runs.andThen fun _ _ _ => .expectSign rfl (.pure trivial)) (.pure trivial)

theorem characterType_runs (nationalSet : Bool) : Passes tokens i (characterType nationalSet) := by
  refine .takeWord ?_ (takeLargeObject_runs.andThen fun _ _ _ => .ite (fun _ => ?_) fun _ => ?_)
  all_goals exact charLength_runs.andThen fun _ _ _ => .pure trivial

theorem binaryType_runs : Passes tokens i binaryType := by
  refine .takeWord ?_ (takeLargeObject_runs.andThen fun _ _ _ => .ite (fun _ => ?_) fun _ => ?_)
  all_goals exact optionalLength_runs.andThen fun _ _ _ => .pure trivial

theorem anyName_runs : Passes tokens i qualifiedName :=
  qualifiedName_runs.mono fun _ _ _ _ => trivial

theorem referenceType_runs : Passes tokens i referenceType := by
  refine (parenthesized_runs anyName_runs).andThen fun target _ _ => .takeWord ?_ (.pure trivial)
  exact anyName_runs.andThen fun _ _ _ => .pure trivial

/-! ## Data types -/

section

variable {type : Parse DataType} (types : ∀ k, i < k → Passes tokens k type)

include types

/-- The fields of a row stand behind its parenthesis. -/
theorem rowFields_runs : Passes tokens i (parenthesized (commaSeparated (rowField type))) := by
  have field : ∀ k, i < k → Passes tokens k (rowField type) := fun k past =>
    .identifier fun _ => (types (k + 1) (by omega)).andThen fun _ _ _ => .pure trivial
  refine parenthesized_runs (.items (field _ (Nat.lt_succ_self i)) ?_)
  exact fun k _ past _ => field k (by omega)

/-- Whatever a keyword begins, the types within it stand behind further tokens. -/
theorem typeAfter?_runs {word : Keyword} {rest : Parse DataType}
    (begins : typeAfter? type word = some rest) : Passes tokens i rest := by
  have length {f : Option Nat → DataType} :
      Passes tokens i (do return f (← optionalLength)) :=
    optionalLength_runs.andThen fun _ _ _ => .pure trivial
  have charLength {f : Option CharLength → DataType} :
      Passes tokens i (do return f (← charLength)) :=
    charLength_runs.andThen fun _ _ _ => .pure trivial
  have precision {f : Option Nat × Option Nat → Parse DataType}
      (given : ∀ found k, Passes tokens k (f found)) :
      Passes tokens i (precisionScale >>= f) :=
    precisionScale_runs.andThen fun found k _ => given found k
  unfold typeAfter? at begins
  split at begins
  all_goals cases begins
  · exact precision fun _ _ => .pure trivial
  · exact precision fun _ _ => .pure trivial
  · exact precision fun _ _ => .pure trivial
  · exact .pure trivial
  · exact .pure trivial
  · exact .pure trivial
  · exact .pure trivial
  · exact length
  · exact .pure trivial
  · exact .expectWord (.pure trivial)
  · exact binaryType_runs
  · exact length
  · exact length
  · exact characterType_runs _
  · exact characterType_runs _
  · exact charLength
  · exact charLength
  · exact expectCharacter_runs.andThen fun _ _ _ => characterType_runs _
  · exact characterType_runs _
  · exact charLength
  · exact .pure trivial
  · exact .pure trivial
  · exact optionalLength_runs.andThen fun _ _ _ => timeZone_runs.andThen fun _ _ _ => .pure trivial
  · exact optionalLength_runs.andThen fun _ _ _ => timeZone_runs.andThen fun _ _ _ => .pure trivial
  · exact (rowFields_runs types).andThen fun _ _ _ => .pure trivial
  · exact referenceType_runs

end

theorem baseType_runs {type : Parse DataType} (types : ∀ k, i < k → Passes tokens k type) :
    Passes tokens i (baseType type) := by
  have named : Passes tokens i (do return DataType.named (← qualifiedName)) :=
    anyName_runs.andThen fun _ _ _ => .pure trivial
  refine .look word?_looks ?_
  split
  · exact named
  · next word isWord =>
    split
    · next rest begins =>
      exact .advanceWord isWord (typeAfter?_runs (fun k past => types k (by omega)) begins)
    · exact .ite (fun _ => unexpected_runs _) fun _ => named

/-- Each suffix takes its keyword. -/
theorem typeSuffix_rounds : Rounds tokens i typeSuffix fun _ _ => True := by
  rintro k ⟨element, levels⟩ - -
  refine .takeWord ?_ (.takeWord ?_ (.pure ⟨fun _ => trivial, by simp⟩))
  · refine maxCardinality_runs.andThen fun _ j past => .enter (.pure ⟨by simp, ?_⟩)
    exact fun _ _ => ⟨by omega, trivial⟩
  · exact .enter (.pure ⟨by simp, fun _ _ => ⟨Nat.lt_succ_self k, trivial⟩⟩)

theorem dataTypeWith_runs {type : Parse DataType} (types : ∀ k, i < k → Passes tokens k type) :
    Passes tokens i (dataTypeWith type) := by
  refine (Runs.nested (baseType_runs types)).andThen fun base j _ => ?_
  exact (typeSuffix_rounds.loop trivial).andThen fun _ _ _ => .leave (.pure trivial)

/-- Types within types are bounded by the tokens that are left. -/
theorem dataTypeWithin_runs (bound : Nat) (enough : tokens.length < i + bound) :
    Passes tokens i (dataTypeWithin bound) := by
  induction bound generalizing i with
  | zero => exact .beyond (by omega)
  | succ bound ih => exact dataTypeWith_runs fun k past => ih (by omega)

/-- The tokens that are left are bound enough for a data type. -/
theorem dataType_runs : Passes tokens i dataType :=
  .remaining (f := fun count => dataTypeWithin (count + 2)) fun _ _ => dataTypeWithin_runs _ (by omega)

end CanonicalSql.Parse
