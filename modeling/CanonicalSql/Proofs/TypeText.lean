import CanonicalSql.Proofs.Elsewhere.Whole
import CanonicalSql.Proofs.Height

/-!
# Data types read back

The text of a data type stands in front of a comma, if more columns or fields follow, or in front
of a closing parenthesis. There it is read back as just that type, and nothing behind it is taken
(`Parse.dataType_sql`). A bracket ends each token before it, whatever stands behind the bracket
(`Piece.splits_render_closed`), and a type has no more levels than its text has characters
(`DataType.levels_le_size`).
-/
namespace CanonicalSql

/-- Whether a token is read back hangs on the next character alone. -/
theorem Kind.ReadBefore.congr {kind : Kind} {rest rest' : List Char}
    (before : kind.ReadBefore rest) (same : rest.head? = rest'.head?) : kind.ReadBefore rest' := by
  unfold ReadBefore NoDigit Scan.Stopped at before ⊢
  rw [same] at before
  exact before

namespace Piece

/-- The text of a row in front of a bracket and of any text that splits. -/
theorem splits_render_closed {row : List Piece} {bracket : Symbol} {more : List Char}
    {others : List Kind} (isBracket : (Kind.symbol bracket).isBracket = true)
    (written : Written (row ++ [sign bracket])) (splits : Scan.Splits more others) :
    Scan.Splits ((render row).toList ++ ((Kind.symbol bracket).spelling.toList ++ more))
      (kinds row ++ .symbol bracket :: others) := by
  induction row with
  | nil =>
    have before : (Kind.symbol bracket).ReadBefore more := by
      cases bracket <;> first
        | exact trivial
        | cases isBracket
    obtain ⟨c, rest, text, skipped, scanned⟩ :=
      Kind.begins_spelling (.symbol bracket) nofun before
    exact .token skipped scanned splits
  | cons piece row ih =>
    rw [render_cons, List.append_assoc]
    cases piece with
    | space => exact (ih written).of_skip rfl
    | token kind =>
      obtain ⟨⟨lexical, notEnd⟩, told, behind⟩ := written
      have ends : (render (row ++ [sign bracket])).toList =
          (render row).toList ++ (Kind.symbol bracket).spelling.toList := by
        rw [render_append, String.toList_append]
        simp [render, sign, text]
      -- the row is written for the bracket alone behind it, and what follows the bracket is out
      -- of sight
      have same : (render (row ++ [sign bracket])).toList.head? =
          ((render row).toList ++ ((Kind.symbol bracket).spelling.toList ++ more)).head? := by
        obtain ⟨c, isText, -⟩ := spelling_of_isBracket isBracket
        rw [ends, isText]
        cases (render row).toList <;> rfl
      have before := (readBefore_of_tells told).congr same
      obtain ⟨c, rest, text, skipped, scanned⟩ := Kind.begins_spelling lexical notEnd before
      exact .token skipped scanned (ih behind)

end Piece

namespace DataType

mutual

/-- Each level of a type has a piece of its own. -/
theorem levels_le_length (type : DataType) :
    type.levels ≤ (Canonical.ofDataType type).length := by
  match type with
  | .row fields =>
    have inner := fieldLevels_le_length fields
    have commas := Piece.lengths_le_commaSeparated (Canonical.ofFields fields)
    simp only [levels, Canonical.ofDataType, List.length_cons, Piece.length_parenthesized]
    omega
  | .array element _ | .multiset element =>
    have inner := levels_le_length element
    have counted := element.suffixes_le_levels
    simp only [levels, Canonical.ofDataType, List.length_append, Piece.length_after,
      List.length_cons]
    omega
  | .named name => exact Piece.length_qualified name
  | .numeric .. | .decimal .. | .smallInt | .integer | .bigInt | .float _ | .real
  | .doublePrecision | .binary _ | .varBinary _ | .blob _ | .char _ | .varChar _ | .clob _
  | .nationalChar _ | .nationalVarChar _ | .nationalClob _ | .boolean | .date | .time ..
  | .timestamp .. | .reference .. =>
    simp [levels, Canonical.ofDataType, Piece.words]

theorem fieldLevels_le_length (fields : List (Name × DataType)) :
    fieldLevels fields ≤ Piece.lengths (Canonical.ofFields fields) := by
  match fields with
  | [] => exact Nat.zero_le _
  | (name, type) :: rest =>
    have first := levels_le_length type
    have others := fieldLevels_le_length rest
    simp only [fieldLevels, Canonical.ofFields, Piece.lengths_cons, List.length_cons,
      Piece.length_after]
    omega

end

theorem levels_le_size {type : DataType} (formed : type.Formed) :
    type.levels ≤ type.sql.utf8ByteSize :=
  type.levels_le_length.trans (Piece.length_le_render (Canonical.dataType_written type formed))

end DataType

namespace Parse

/-- A type that the grammar can build is read back from its text in front of a comma or of a
closing parenthesis, and reading stops right there. -/
theorem dataType_sql {type : DataType} (formed : type.Formed) {closing : Symbol}
    (closes : closing = .comma ∨ closing = .rightParen) {more : String} {others : List Kind}
    (splits : Scan.Splits more.toList others) (holds : type.sql.utf8ByteSize < 2 ^ 63) :
    ∃ least, ∀ limit, least ≤ limit → ∃ start last,
      State.ofStream limit
          (Lexer.ofText (type.sql ++ (Kind.symbol closing).spelling ++ more)).stream = .ok start ∧
        dataType start = .ok type last ∧ last.Shows limit 0 (.symbol closing :: others) := by
  refine ⟨type.levels, fun limit enough => ?_⟩
  have isBracket : (Kind.symbol closing).isBracket = true := by
    rcases closes with rfl | rfl <;> rfl
  have written : Piece.Written (Canonical.ofDataType type ++ [Piece.sign closing]) :=
    (Canonical.dataType_written type formed).append (.bracket isBracket trivial)
  have whole : Scan.Splits (type.sql ++ (Kind.symbol closing).spelling ++ more).toList
      (type.tokens ++ .symbol closing :: others) := by
    rw [String.toList_append, String.toList_append, List.append_assoc]
    exact Piece.splits_render_closed isBracket written splits
  have room : 0 + type.levels ≤ capOf limit := by
    have least := DataType.levels_le_size formed
    unfold capOf
    omega
  have reads : Reads limit True dataType 0 (type.tokens ++ .symbol closing :: others) (· = type) 0
      (.symbol closing :: others) := by
    refine dataType_reads formed room ?_ ?_ <;>
    · rcases closes with rfl | rfl <;> rfl
  obtain ⟨start, it, last, begins, run, rfl, shows⟩ := reads.ofText whole
  exact ⟨start, last, begins, run, shows⟩

/-- A multiset of references to a type that is named by a keyword, in front of another column. -/
theorem dataType_sql_reference :
    ∃ least, ∀ limit, least ≤ limit → ∃ start last,
      State.ofStream limit (Lexer.ofText
          "REF(\"INTEGER\") SCOPE s MULTISET, c DATE").stream = .ok start ∧
        dataType start = .ok (.multiset (.reference ⟨[], "INTEGER"⟩ (some ⟨[], "s"⟩))) last ∧
        last.Shows limit 0 [.symbol .comma, .identifier "c", .keyword .DATE] := by
  have formed : (DataType.multiset (.reference ⟨[], "INTEGER"⟩ (some ⟨[], "s"⟩))).Formed := by
    simp [DataType.Formed, QualifiedName.Proper, QualifiedName.parts, Name.Proper]
  have splits : Scan.Splits " c DATE".toList [.identifier "c", .keyword .DATE] :=
    (Scan.spaced_of_spaced? 8 (by decide +kernel)).splits
  have text : (DataType.multiset (.reference ⟨[], "INTEGER"⟩ (some ⟨[], "s"⟩))).sql ++
      (Kind.symbol .comma).spelling ++ " c DATE" = "REF(\"INTEGER\") SCOPE s MULTISET, c DATE" := by
    decide +kernel
  have reads := dataType_sql formed (.inl rfl) splits (by decide +kernel)
  rwa [text] at reads

end Parse

end CanonicalSql
