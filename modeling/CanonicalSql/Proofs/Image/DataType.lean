import CanonicalSql.Grammar.DataType
import CanonicalSql.Proofs.Image.Basic

/-!
# Data types that are read

Whatever data type the grammar reads is well formed (`dataType_yields`): its numbers are
numbers of literals, its scale has a precision, its names and lists are not empty.
-/
namespace CanonicalSql.Parse

variable {limit : Nat}

theorem unsigned_yields : Yields limit unsigned WritableNat := by
  refine kind_yields.bind fun kind lexical => ?_
  split
  · next value =>
    cases lexical with
    | integer nonnegative bounded =>
      refine .ite (fun _ => advance_yields.bind fun _ _ => .pure ?_) fun _ => ?_
      · unfold WritableNat
        omega
      · exact unexpected_yields _ _
  · exact unexpected_yields _ _

theorem optionalLength_yields : Yields limit optionalLength DataType.ProperLength := by
  refine (atSign_yields _).bind fun _ _ => .ite (fun _ => ?_) fun _ => .pure (by
    simp [DataType.ProperLength])
  exact unsigned_yields.parenthesized.bind fun _ writable => .pure (by
    simpa [DataType.ProperLength] using writable)

theorem charUnit_yields : Yields limit charUnit fun _ => True := by
  refine (takeWord_yields _).bind fun _ _ => .ite (fun _ => .pure trivial) fun _ => ?_
  exact (takeWord_yields _).bind fun _ _ =>
    .ite (fun _ => .pure trivial) fun _ => .pure trivial

theorem charLength_yields : Yields limit charLength DataType.ProperCharLength := by
  refine (atSign_yields _).bind fun _ _ => .ite (fun _ => ?_) fun _ => .pure (by
    simp [DataType.ProperCharLength])
  apply Yields.parenthesized
  refine unsigned_yields.bind fun _ writable => charUnit_yields.bind fun _ _ => .pure ?_
  simpa [DataType.ProperCharLength] using writable

theorem scale_yields : Yields limit scale DataType.ProperLength := by
  refine (takeSign_yields _).bind fun _ _ => .ite (fun _ => ?_) fun _ => .pure (by
    simp [DataType.ProperLength])
  exact unsigned_yields.bind fun _ writable => .pure (by
    simpa [DataType.ProperLength] using writable)

theorem precisionScale_yields :
    Yields limit precisionScale fun pair => DataType.ProperScale pair.1 pair.2 := by
  refine (atSign_yields _).bind fun _ _ => .ite (fun _ => ?_) fun _ => .pure (by
    simp [DataType.ProperScale])
  apply Yields.parenthesized
  refine unsigned_yields.bind fun precision writable => ?_
  refine scale_yields.bind fun scale proper => .pure ⟨?_, proper, fun _ => rfl⟩
  simpa using writable

theorem zoneWords_yields (zone : Bool) : Yields limit (zoneWords zone) fun _ => True :=
  (expectWord_yields _).bind fun _ _ => (expectWord_yields _).bind fun _ _ => .pure trivial

theorem timeZone_yields : Yields limit timeZone fun _ => True := by
  refine (takeWord_yields _).bind fun _ _ => .ite (fun _ => zoneWords_yields _) fun _ => ?_
  exact (takeWord_yields _).bind fun _ _ =>
    .ite (fun _ => zoneWords_yields _) fun _ => .pure trivial

theorem takeLargeObject_yields : Yields limit takeLargeObject fun _ => True := by
  refine (takeWord_yields _).bind fun _ _ => .ite (fun _ => ?_) fun _ => .pure trivial
  exact (expectWord_yields _).bind fun _ _ => .pure trivial

theorem characterType_yields (nationalSet : Bool) :
    Yields limit (characterType nationalSet) DataType.Formed := by
  refine (takeWord_yields _).bind fun _ _ => .ite (fun _ => ?_) fun _ => ?_
  · refine charLength_yields.bind fun length proper => .pure ?_
    cases nationalSet <;> exact proper
  refine takeLargeObject_yields.bind fun _ _ => .ite (fun _ => ?_) fun _ => ?_
  · refine charLength_yields.bind fun length proper => .pure ?_
    cases nationalSet <;> exact proper
  · refine charLength_yields.bind fun length proper => .pure ?_
    cases nationalSet <;> exact proper

theorem binaryType_yields : Yields limit binaryType DataType.Formed := by
  refine (takeWord_yields _).bind fun _ _ => .ite (fun _ => ?_) fun _ => ?_
  · exact optionalLength_yields.bind fun _ proper => .pure proper
  refine takeLargeObject_yields.bind fun _ _ => .ite (fun _ => ?_) fun _ => ?_
  · exact optionalLength_yields.bind fun _ proper => .pure proper
  · exact optionalLength_yields.bind fun _ proper => .pure proper

theorem expectCharacter_yields : Yields limit expectCharacter fun _ => True :=
  (takeWord_yields _).bind fun _ _ =>
    .ite (fun _ => .pure trivial) fun _ => expectWord_yields _

theorem referenceType_yields : Yields limit referenceType DataType.Formed := by
  refine qualifiedName_yields.parenthesized.bind fun target proper => ?_
  refine (takeWord_yields _).bind fun _ _ => .ite (fun _ => ?_) fun _ => ?_
  · exact qualifiedName_yields.bind fun scope properScope =>
      .pure ⟨proper, by simpa using properScope⟩
  · exact .pure ⟨proper, by simp⟩

section

variable {type : Parse DataType}

theorem rowType_yields (formed : Yields limit type DataType.Formed) :
    Yields limit (do return DataType.row (← parenthesized (commaSeparated (rowField type))))
      DataType.Formed := by
  have field : Yields limit (rowField type) fun field => field.1.Proper ∧ field.2.Formed :=
    identifier_yields.bind fun _ proper => formed.bind fun _ holds => .pure ⟨proper, holds⟩
  exact field.commaSeparated.parenthesized.bind fun _ all =>
    .pure ⟨all.1, DataType.fieldsFormed_iff.mpr all.2⟩

/-- Whatever a keyword begins, the type is well formed if the types within it are. -/
theorem typeAfter?_yields (formed : Yields limit type DataType.Formed) {word : Keyword}
    {rest : Parse DataType} (begins : typeAfter? type word = some rest) :
    Yields limit rest DataType.Formed := by
  unfold typeAfter? at begins
  split at begins
  all_goals cases begins
  · exact precisionScale_yields.bind fun _ proper => .pure proper
  · exact precisionScale_yields.bind fun _ proper => .pure proper
  · exact precisionScale_yields.bind fun _ proper => .pure proper
  · exact .pure trivial
  · exact .pure trivial
  · exact .pure trivial
  · exact .pure trivial
  · exact optionalLength_yields.bind fun _ proper => .pure proper
  · exact .pure trivial
  · exact (expectWord_yields _).bind fun _ _ => .pure trivial
  · exact binaryType_yields
  · exact optionalLength_yields.bind fun _ proper => .pure proper
  · exact optionalLength_yields.bind fun _ proper => .pure proper
  · exact characterType_yields _
  · exact characterType_yields _
  · exact charLength_yields.bind fun _ proper => .pure proper
  · exact charLength_yields.bind fun _ proper => .pure proper
  · exact expectCharacter_yields.bind fun _ _ => characterType_yields _
  · exact characterType_yields _
  · exact charLength_yields.bind fun _ proper => .pure proper
  · exact .pure trivial
  · exact .pure trivial
  · exact optionalLength_yields.bind fun _ proper =>
      timeZone_yields.bind fun _ _ => .pure proper
  · exact optionalLength_yields.bind fun _ proper =>
      timeZone_yields.bind fun _ _ => .pure proper
  · exact rowType_yields formed
  · exact referenceType_yields

theorem namedType_yields :
    Yields limit (do return DataType.named (← qualifiedName)) DataType.Formed :=
  qualifiedName_yields.bind fun _ proper => .pure proper

theorem baseType_yields (formed : Yields limit type DataType.Formed) :
    Yields limit (baseType type) DataType.Formed := by
  refine word?_yields.bind fun word _ => ?_
  split
  · exact namedType_yields
  · next word =>
    split
    · next rest begins => exact advance_yields.bind fun _ _ => typeAfter?_yields formed begins
    · exact .ite (fun _ => unexpected_yields _ _) fun _ => namedType_yields

theorem maxCardinality_yields : Yields limit maxCardinality DataType.ProperLength := by
  refine (takeSign_yields _).bind fun _ _ => .ite (fun _ => ?_) fun _ => .pure (by
    simp [DataType.ProperLength])
  refine unsigned_yields.bind fun count writable => (expectSign_yields _).bind fun _ _ => ?_
  exact .pure (by simpa [DataType.ProperLength] using writable)

/-- A suffix keeps a type well formed. -/
theorem typeSuffix_yields (progress : DataType × Nat) (formed : progress.1.Formed) :
    Yields limit (typeSuffix progress) fun next => ∀ it ∈ next, it.1.Formed := by
  refine (takeWord_yields _).bind fun _ _ => .ite (fun _ => ?_) fun _ => ?_
  · refine maxCardinality_yields.bind fun count proper => enter_yields.bind fun _ _ => ?_
    exact .pure (by simpa [DataType.Formed] using ⟨formed, proper⟩)
  · refine (takeWord_yields _).bind fun _ _ => .ite (fun _ => ?_) fun _ => .pure (by simp)
    exact enter_yields.bind fun _ _ => .pure (by simpa [DataType.Formed] using formed)

theorem dataTypeWith_yields (formed : Yields limit type DataType.Formed) :
    Yields limit (dataTypeWith type) DataType.Formed := by
  refine (baseType_yields formed).nested.bind fun base holds => ?_
  refine (Yields.loop typeSuffix_yields holds).bind fun result holds => ?_
  exact (leave_yields _).bind fun _ _ => .pure holds

end

theorem dataTypeWithin_yields (bound : Nat) : Yields limit (dataTypeWithin bound) DataType.Formed := by
  induction bound with
  | zero => exact .throw _ _
  | succ bound ih => exact dataTypeWith_yields ih

/-- Whatever data type is read is well formed. -/
theorem dataType_yields : Yields limit dataType DataType.Formed :=
  fun s sound a s' run => dataTypeWithin_yields (s.ahead.length + 2) s sound a s' run

end CanonicalSql.Parse
