import CanonicalSql.Proofs.Formed
import CanonicalSql.Proofs.Lexing.Written

/-!
# Canonical text splits into its tokens

The rows of pieces of well-formed trees can be told apart, so that the canonical text of a
well-formed statement splits into the tokens that it is laid out with
(`Statement.splits_sql`). What stands behind another row always hangs on it by a space or a
bracket (`Piece.Hangs`).
-/
namespace CanonicalSql

namespace Piece

/-- A row that may stand right behind any other. -/
structure Hangs (row : List Piece) : Prop where
  written : Written row
  breaks : ∀ next ∈ row.head?, next.isBreak = true

variable {first second row : List Piece}

theorem tells_of_isBreak {kind : Kind} {next : Piece} (isBreak : next.isBreak = true) :
    tells kind next = true := by
  cases next with
  | space => rfl
  | token next =>
    have isBracket : next.isBracket = true := isBreak
    simp [tells, isBracket]

theorem Written.append (written : Written first) (hangs : Hangs second) :
    Written (first ++ second) := by
  induction first with
  | nil => exact hangs.written
  | cons piece first ih =>
    cases piece with
    | space => exact ih written
    | token kind =>
      obtain ⟨lexical, told, others⟩ := written
      refine ⟨lexical, ?_, ih others⟩
      cases first with
      | nil => exact fun next member => tells_of_isBreak (hangs.breaks next member)
      | cons next first => exact told

theorem Written.token {kind : Kind} (lexical : kind.Lexical) (notEnd : kind ≠ .endOfInput)
    (hangs : Hangs row) : Written (.token kind :: row) :=
  ⟨⟨lexical, notEnd⟩, fun next member => tells_of_isBreak (hangs.breaks next member),
    hangs.written⟩

theorem Written.word (keyword : Keyword) (hangs : Hangs row) : Written (word keyword :: row) :=
  .token (.keyword keyword) nofun hangs

theorem Written.sign (symbol : Symbol) (hangs : Hangs row) : Written (sign symbol :: row) :=
  .token (.symbol symbol) nofun hangs

theorem Written.name {name : Name} (proper : name.Proper) (hangs : Hangs row) :
    Written (Piece.name name :: row) :=
  .token (.identifier proper) nofun hangs

theorem Written.number {value : Nat} (writable : WritableNat value) (hangs : Hangs row) :
    Written (number value :: row) :=
  .token (.integer (Int.natCast_nonneg value) (Int.ofNat_le.mpr writable)) nofun hangs

namespace Hangs

theorem nil : Hangs [] := ⟨trivial, nofun⟩

theorem space (written : Written row) : Hangs (.space :: row) :=
  ⟨written, fun next member => by
    cases member
    rfl⟩

theorem after (written : Written row) : Hangs (after row) := .space written

theorem append (hangs : Hangs first) (others : Hangs second) : Hangs (first ++ second) := by
  refine ⟨hangs.written.append others, ?_⟩
  cases first with
  | nil => exact others.breaks
  | cons piece first => exact hangs.breaks

theorem bracket {symbol : Symbol} (isBracket : (Kind.symbol symbol).isBracket = true)
    (written : Written row) : Hangs (sign symbol :: row) where
  written := by
    refine ⟨⟨.symbol symbol, nofun⟩, fun next _ => ?_, written⟩
    cases next with
    | space => rfl
    | token next => simp [tells, isBracket]
  breaks := by
    rintro next ⟨⟩
    exact isBracket

theorem parenthesized (written : Written row) : Hangs (parenthesized row) :=
  .bracket rfl (written.append (.bracket rfl trivial))

theorem when (condition : Bool) (hangs : Hangs row) : Hangs (Canonical.when condition row) := by
  cases condition with
  | false => exact .nil
  | true => exact hangs

theorem optional {α : Type} {pieces : α → List Piece} {value : Option α}
    (hangs : ∀ it ∈ value, Hangs (pieces it)) : Hangs (Canonical.optional pieces value) := by
  cases value with
  | none => exact .nil
  | some it => exact hangs it rfl

theorem flatMap {α : Type} {pieces : α → List Piece} {items : List α}
    (hangs : ∀ it ∈ items, Hangs (pieces it)) : Hangs (items.flatMap pieces) := by
  induction items with
  | nil => exact .nil
  | cons it items ih =>
    rw [List.flatMap_cons]
    exact (hangs it List.mem_cons_self).append
      (ih fun other member => hangs other (List.mem_cons_of_mem _ member))

end Hangs

/-! ## Lists -/

theorem words_written (keywords : List Keyword) : Written (words keywords) := by
  induction keywords with
  | nil => trivial
  | cons word rest ih =>
    cases rest with
    | nil => exact .word word .nil
    | cons next rest => exact .word word (.space ih)

/-- Rows that are each written. -/
def AllWritten (rows : List (List Piece)) : Prop := ∀ row ∈ rows, Written row

theorem AllWritten.nil : AllWritten [] := nofun

theorem AllWritten.cons {rows : List (List Piece)} (written : Written row)
    (others : AllWritten rows) : AllWritten (row :: rows) :=
  List.forall_mem_cons.mpr ⟨written, others⟩

theorem AllWritten.append {rows others : List (List Piece)} (written : AllWritten rows)
    (all : AllWritten others) : AllWritten (rows ++ others) := by
  intro row member
  rcases List.mem_append.mp member with member | member
  · exact written row member
  · exact all row member

theorem commaSeparated_written {rows : List (List Piece)} (all : AllWritten rows) :
    Written (commaSeparated rows) := by
  induction rows with
  | nil => trivial
  | cons row rows ih =>
    obtain ⟨written, others⟩ := List.forall_mem_cons.mp all
    cases rows with
    | nil => exact written
    | cons next rows => exact written.append (.bracket rfl (ih others))

theorem spaced_written {rows : List (List Piece)} (all : AllWritten rows) :
    Written (spaced rows) := by
  induction rows with
  | nil => trivial
  | cons row rows ih =>
    obtain ⟨written, others⟩ := List.forall_mem_cons.mp all
    cases rows with
    | nil => exact written
    | cons next rows => exact written.append (.space (ih others))

theorem names_hangs {columns : List Name} (proper : ∀ name ∈ columns, name.Proper) :
    Hangs (names columns) := by
  refine .parenthesized (commaSeparated_written fun row member => ?_)
  obtain ⟨name, isName, rfl⟩ := List.mem_map.mp member
  exact .name (proper name isName) .nil

/-- The parts of a name with the dots between them, and what goes on after the last one, be
it with another dot. -/
theorem parts_written {parts : List Name} (proper : ∀ part ∈ parts, part.Proper)
    (written : Written row)
    (goesOn : ∀ next ∈ row.head?, next.isBreak = true ∨ next = sign .dot) :
    Written ((parts.map Piece.name).intersperse (sign .dot) ++ row) := by
  have told {part : Name} : ∀ next ∈ row.head?, tells (.identifier part) next = true := by
    intro next member
    rcases goesOn next member with isBreak | rfl
    · exact tells_of_isBreak isBreak
    · rfl
  induction parts with
  | nil => exact written
  | cons part parts ih =>
    obtain ⟨isProper, others⟩ := List.forall_mem_cons.mp proper
    cases parts with
    | nil => exact ⟨⟨.identifier isProper, nofun⟩, told, written⟩
    | cons next parts =>
      refine ⟨⟨.identifier isProper, nofun⟩, ?_, ⟨.symbol .dot, nofun⟩, ?_, ih others⟩
      · rintro piece ⟨⟩
        rfl
      · intro piece member
        cases parts <;>
        · cases member
          rfl

theorem qualified_written {name : QualifiedName} (proper : name.Proper) :
    Written (qualified name) := by
  have written : Written (qualified name ++ []) := parts_written proper trivial nofun
  rwa [List.append_nil] at written

/-- All columns of a table, under its name or not. -/
theorem asterisk_written {qualifier : Option QualifiedName}
    (proper : ∀ name ∈ qualifier, name.Proper) :
    Written (Canonical.optional (fun name => qualified name ++ [sign .dot]) qualifier ++
      [sign .star]) := by
  cases qualifier with
  | none => exact .sign .star .nil
  | some name =>
    have star : Written [sign .dot, sign .star] := by
      refine ⟨⟨.symbol .dot, nofun⟩, ?_, .sign .star .nil⟩
      rintro next ⟨⟩
      rfl
    have written : Written (qualified name ++ [sign .dot, sign .star]) :=
      parts_written (proper name rfl) star (by
        rintro next ⟨⟩
        exact .inr rfl)
    simpa [Canonical.optional] using written

end Piece

namespace Canonical

open Piece

/-! ## Data types -/

section

variable {first : List Piece}

theorem length_hangs {length : Option Nat} (proper : DataType.ProperLength length) :
    Hangs (ofLength length) := by
  cases length with
  | none => exact .nil
  | some length => exact .parenthesized (.number (proper length rfl) .nil)

theorem precisionScale_hangs {precision scale : Option Nat}
    (proper : DataType.ProperScale precision scale) : Hangs (ofPrecisionScale precision scale) := by
  obtain ⟨isPrecision, isScale, -⟩ := proper
  cases precision with
  | none => exact .nil
  | some precision =>
    cases scale with
    | none => exact .parenthesized (.number (isPrecision precision rfl) .nil)
    | some scale =>
      exact .parenthesized (commaSeparated_written
        (.cons (.number (isPrecision precision rfl) .nil)
          (.cons (.number (isScale scale rfl) .nil) .nil)))

theorem charLength_hangs {length : Option CharLength} (proper : DataType.ProperCharLength length) :
    Hangs (ofCharLength length) := by
  cases length with
  | none => exact .nil
  | some length =>
    obtain ⟨length, unit⟩ := length
    refine .parenthesized (.number (proper ⟨length, unit⟩ rfl) ?_)
    cases unit with
    | none => exact .nil
    | some unit => exact .after (.word _ .nil)

theorem timeZone_hangs (zone : Option Bool) : Hangs (ofTimeZone zone) := by
  rcases zone with _ | _ | _
  · exact .nil
  · exact .after (words_written _)
  · exact .after (words_written _)

theorem scope_hangs {scope : Option QualifiedName} (proper : ∀ name ∈ scope, name.Proper) :
    Hangs (ofScope scope) := by
  cases scope with
  | none => exact .nil
  | some scope => exact .after (.word _ (.after (qualified_written (proper scope rfl))))

theorem cardinality_hangs {count : Option Nat} (proper : DataType.ProperLength count) :
    Hangs (ofCardinality count) := by
  cases count with
  | none => exact .nil
  | some count => exact .bracket rfl (.number (proper count rfl) (.bracket rfl trivial))

end

mutual

theorem dataType_written : ∀ type : DataType, type.Formed → Written (ofDataType type)
  | .numeric .., formed | .decimal .., formed => .word _ (precisionScale_hangs formed)
  | .smallInt, _ | .integer, _ | .bigInt, _ | .real, _ | .boolean, _ | .date, _ => .word _ .nil
  | .doublePrecision, _ => words_written _
  | .float _, formed | .binary _, formed => .word _ (length_hangs formed)
  | .varBinary _, formed | .blob _, formed => (words_written _).append (length_hangs formed)
  | .char _, formed => .word _ (charLength_hangs formed)
  | .varChar _, formed | .clob _, formed | .nationalChar _, formed | .nationalVarChar _, formed
  | .nationalClob _, formed => (words_written _).append (charLength_hangs formed)
  | .time _ zone, formed | .timestamp _ zone, formed =>
    .word _ ((length_hangs formed).append (timeZone_hangs zone))
  | .named _, formed => qualified_written formed
  | .row fields, formed =>
    .word _ (.parenthesized (commaSeparated_written (fields_written fields formed.2)))
  | .reference _ _, formed =>
    .word _ ((Hangs.parenthesized (qualified_written formed.1)).append (scope_hangs formed.2))
  | .array element _, formed =>
    (dataType_written element formed.1).append
      (.after (.word _ (cardinality_hangs formed.2)))
  | .multiset element, formed =>
    (dataType_written element formed).append (.after (.word _ .nil))

theorem fields_written : ∀ fields : List (Name × DataType), DataType.FieldsFormed fields →
    AllWritten (ofFields fields)
  | [], _ => .nil
  | (_, type) :: rest, formed =>
    .cons (.name formed.1 (.after (dataType_written type formed.2.1)))
      (fields_written rest formed.2.2)

end

/-! ## Expressions, relations and queries -/

theorem quantifier_append {quantifier : Option SetQuantifier} {row : List Piece}
    (written : Written row) : Written (ofQuantifier quantifier ++ row) := by
  cases quantifier with
  | none => exact written
  | some quantifier => exact .word _ (.space written)

theorem nullOrder_hangs (nulls : NullOrder) : Hangs (ofNullOrder nulls) := by
  cases nulls with
  | unspecified => exact .nil
  | first | last => exact .after (words_written _)

theorem exclusion_hangs (exclusion : Option FrameExclusion) : Hangs (ofExclusion exclusion) :=
  .optional fun _ _ => .after (words_written _)

theorem joinWords_written (kind : JoinKind) (natural : Bool) (condition : JoinCondition) :
    Written (ofJoinWords kind natural condition) := by
  unfold ofJoinWords
  split <;> exact words_written _

theorem withColumns_written {name : Name} {columns : List Name} (proper : name.Proper)
    (all : ∀ column ∈ columns, column.Proper) : Written (withColumns name columns) :=
  .name proper (.when _ (names_hangs all))

theorem clause_written (keywords : List Keyword) {rows : List (List Piece)}
    (all : AllWritten rows) : AllWritten (clause keywords rows) := by
  cases rows with
  | nil => exact .nil
  | cons row rows =>
    exact .cons ((words_written keywords).append (.after (commaSeparated_written all))) .nil

theorem asQuery_written (place : Place) {source : List Piece} (written : Written source) :
    Written (asQuery place source) := by
  unfold asQuery
  split
  · exact written
  · exact (Hangs.parenthesized (.word _ (.space (.sign _ (.space (.word _ (.space written))))))).written

theorem asSource_written (place : Place) {body : List Piece} (written : Written body) :
    Written (asSource place body) := by
  unfold asSource
  split
  · exact (Hangs.parenthesized written).written
  · exact written

theorem parenthesizedWhen_written (condition : Bool) {row : List Piece} (written : Written row) :
    Written (parenthesizedWhen condition row) := by
  unfold parenthesizedWhen
  split
  · exact (Hangs.parenthesized written).written
  · exact written

theorem grouping_written {rows : List (List Piece)} (all : AllWritten rows) :
    Written (ofGrouping rows) := by
  have enclosed := (Hangs.parenthesized (commaSeparated_written all)).written
  unfold ofGrouping
  split
  · exact all _ List.mem_cons_self
  · exact enclosed

mutual

theorem expr_written : ∀ (expr : Expr) (role : Expr.Role), expr.Formed role → Written (ofExpr expr)
  | .asterisk .., _, formed => asterisk_written formed.2
  | .integer .., _, formed => .token (.integer formed.2.1 formed.2.2) nofun .nil
  | .float .., _, formed => .token (.float formed.2.1 formed.2.2) nofun .nil
  | .string .., _, formed => .token (.string formed.2) nofun .nil
  | .truth .., _, _ | .null _, _, _ => .word _ .nil
  | .column .., _, formed => qualified_written formed.2
  | .named _ expr _, _, formed =>
    (expr_written expr _ formed.2.2).append (.space (.word _ (.space (.name formed.2.1 .nil))))
  | .unary op operand _, _, formed => by
    refine (Hangs.parenthesized (.token ?_ ?_ (.after (expr_written operand _ formed.2)))).written
    · cases op <;> first | exact .keyword _ | exact .symbol _
    · cases op <;> nofun
  | .binary left op right _, _, formed => by
    refine (Hangs.parenthesized ((expr_written left _ formed.2.1).append
      (.space (.token ?_ ?_ (.after (expr_written right _ formed.2.2)))))).written
    · cases op <;> first | exact .keyword _ | exact .symbol _
    · cases op <;> nofun
  | .collate expr _ _, _, formed =>
    (Hangs.parenthesized ((expr_written expr _ formed.2.1).append
      (.space (.word _ (.after (qualified_written formed.2.2)))))).written
  | .isTruth expr _ _, _, formed | .isNull expr _, _, formed =>
    (Hangs.parenthesized ((expr_written expr _ formed.2).append
      (.after (words_written _)))).written
  | .between expr low high _ _, _, formed =>
    (Hangs.parenthesized ((((expr_written expr _ formed.2.1).append
      (.after (words_written _))).append (.after (expr_written low _ formed.2.2.1))).append
        (.after (.word _ .nil)) |>.append (.after (expr_written high _ formed.2.2.2)))).written
  | .within expr rows _, _, formed =>
    (Hangs.parenthesized (((expr_written expr _ formed.2.1).append (.after (.word _ .nil))).append
      (.after (Hangs.parenthesized (rel_written rows .members _ formed.2.2)).written))).written
  | .like expr pattern escape _, _, formed =>
    (Hangs.parenthesized ((((expr_written expr _ formed.2.1).append
      (.after (.word _ .nil))).append (.after (expr_written pattern _ formed.2.2.1))).append
        (escape_hangs escape formed.2.2.2))).written
  | .existence query _, _, formed | .uniqueness query _, _, formed =>
    (Hangs.parenthesized (.word _ (.after
      (Hangs.parenthesized (query_written query formed.2)).written))).written
  | .row values _, _, formed =>
    .word _ (.parenthesized (commaSeparated_written (exprs_written values _ formed.2)))
  | .subquery query _, _, formed => (Hangs.parenthesized (query_written query formed.2.1)).written
  | .sortKey _, _, formed => formed.elim
  | .groupingSet set, _, formed => groupingSet_written set formed.2
  | .groupingSets sets _, _, formed =>
    (words_written _).append (.after (Hangs.parenthesized
      (commaSeparated_written (exprs_written sets _ formed.2.2))).written)
  | .rollup sets _, _, formed | .cube sets _, _, formed =>
    .word _ (.after (Hangs.parenthesized
      (commaSeparated_written (groupingSets_written sets formed.2.2))).written)
  | .aggregate _ _ argument filter _, _, formed =>
    .word _ ((Hangs.parenthesized (quantifier_append (expr_written argument _ formed.2.1))).append
      (filter_hangs filter formed.2.2))

theorem escape_hangs : ∀ escape : Option Expr, Expr.OptionFormed escape → Hangs (ofEscape escape)
  | none, _ => .nil
  | some escape, formed =>
    (Hangs.after (.word _ .nil)).append (.after (expr_written escape _ formed))

theorem filter_hangs : ∀ filter : Option Expr, Expr.OptionFormed filter → Hangs (ofFilter filter)
  | none, _ => .nil
  | some filter, formed =>
    (Hangs.after (.word _ .nil)).append (.after (Hangs.parenthesized
      (.word _ (.after (expr_written filter _ formed)))).written)

theorem clauseOf_written : ∀ (expr : Option Expr) (keyword : Keyword), Expr.OptionFormed expr →
    AllWritten (ofClause keyword expr)
  | none, _, _ => .nil
  | some expr, _, formed => .cons (.word _ (.after (expr_written expr _ formed))) .nil

theorem exprs_written : ∀ (exprs : List Expr) (role : Expr.Role), Expr.AllFormed role exprs →
    AllWritten (ofExprs exprs)
  | [], _, _ => .nil
  | expr :: rest, role, formed =>
    .cons (expr_written expr role formed.1) (exprs_written rest role formed.2)

theorem sortKey_written : ∀ key : SortKey, key.Formed → Written (ofSortKey key)
  | ⟨expr, _, nulls, _⟩, formed =>
    ((expr_written expr _ formed).append (.after (.word _ .nil))).append (nullOrder_hangs nulls)

theorem sortKeys_written : ∀ keys : List SortKey, SortKey.AllFormed keys →
    AllWritten (ofSortKeys keys)
  | [], _ => .nil
  | key :: rest, formed => .cons (sortKey_written key formed.1) (sortKeys_written rest formed.2)

theorem groupingSet_written : ∀ set : GroupingSet, set.Formed → Written (ofGroupingSet set)
  | ⟨columns, _⟩, formed => grouping_written (exprs_written columns _ formed)

theorem groupingSets_written : ∀ sets : List GroupingSet, GroupingSet.AllFormed sets →
    AllWritten (ofGroupingSets sets)
  | [], _ => .nil
  | set :: rest, formed =>
    .cons (groupingSet_written set formed.1) (groupingSets_written rest formed.2)

theorem rel_written : ∀ (rel : Rel) (place : Place) (role : Rel.Role), rel.Formed role →
    Written (ofRel place rel)
  | .join kind natural condition left right _, place, _, formed =>
    asQuery_written place (Hangs.parenthesized ((((rel_written left _ _ formed.2.2.2.1).append
      (.after (joinWords_written kind natural condition))).append
        (.after (rel_written right _ _ formed.2.2.2.2))).append
          (condition_hangs condition formed.2.2.1))).written
  | .table _ _, place, _, formed => by
    rw [ofRel]
    split
    · exact qualified_written formed.2
    · exact .word _ (.after (qualified_written formed.2))
  | .named _ _ relation _, place, _, formed =>
    asQuery_written place (parenthesizedWhen_written _
      (((rel_written relation _ _ formed.2.2.2).append (.after (.word _ .nil))).append
        (.after (withColumns_written formed.2.1 formed.2.2.1))))
  | .select select, place, _, formed => asSource_written place (select_written select formed.2)
  | .values rows _, place, _, formed => by
    have all := exprs_written rows _ formed.2.2
    rw [ofRel]
    split
    · exact commaSeparated_written all
    · exact asSource_written place (.word _ (.after (commaSeparated_written all)))
  | .setOp _ _ left right _, _, _, formed =>
    parenthesizedWhen_written _ ((rel_written left _ _ formed.2.1).append
      (.space (.word _ (.space (quantifier_append (rel_written right _ _ formed.2.2))))))
  | .query query, _, _, formed => parenthesizedWhen_written _ (query_written query formed.1)

theorem condition_hangs : ∀ condition : JoinCondition, condition.Formed →
    Hangs (ofCondition condition)
  | .absent, _ => .nil
  | .onExpr condition, formed =>
    (Hangs.after (.word _ .nil)).append (.after (expr_written condition _ formed))
  | .usingColumns _, formed =>
    (Hangs.after (.word _ .nil)).append (.after (names_hangs formed.2).written)

theorem sources_written : ∀ rels : List Rel, Rel.AllFormed rels → AllWritten (ofSources rels)
  | [], _ => .nil
  | rel :: rest, formed =>
    .cons (rel_written rel _ _ formed.1) (sources_written rest formed.2)

theorem distance_written : ∀ value : Option Expr, Expr.OptionFormed value →
    Written (ofDistance value)
  | none, _ => .word _ .nil
  | some value, formed => expr_written value _ formed

theorem frameBound_written : ∀ bound : FrameBound, bound.Formed → Written (ofFrameBound bound)
  | ⟨.currentRow, _, _⟩, _ => words_written _
  | ⟨.preceding, value, _⟩, formed | ⟨.following, value, _⟩, formed =>
    (distance_written value formed.1).append (.after (.word _ .nil))

theorem frame_written : ∀ frame : Frame, frame.Formed → Written (ofFrame frame)
  | ⟨_, start, none, exclusion, _⟩, formed =>
    .word _ ((Hangs.after (frameBound_written start formed.1)).append (exclusion_hangs exclusion))
  | ⟨_, start, some stop, exclusion, _⟩, formed =>
    .word _ ((((((Hangs.after (.word _ .nil)).append
      (.after (frameBound_written start formed.1))).append (.after (.word _ .nil))).append
        (.after (frameBound_written stop formed.2))).append (exclusion_hangs exclusion)))

theorem frameOption_written : ∀ frame : Option Frame, Frame.OptionFormed frame →
    AllWritten (ofFrameOption frame)
  | none, _ => .nil
  | some frame, formed => .cons (frame_written frame formed) .nil

theorem windowSpec_written : ∀ spec : WindowSpec, spec.Formed → Written (ofWindowSpec spec)
  | ⟨existing, partitionBy, orderBy, frame, _⟩, formed => by
    have name : AllWritten (existing.toList.map fun existing => [Piece.name existing]) := by
      intro row member
      obtain ⟨existing, isName, rfl⟩ := List.mem_map.mp member
      exact .name (formed.1 existing (Option.mem_toList.mp isName)) .nil
    exact (Hangs.parenthesized (spaced_written (((name.append
      (clause_written _ (exprs_written partitionBy _ formed.2.1))).append
        (clause_written _ (sortKeys_written orderBy formed.2.2.1))).append
          (frameOption_written frame formed.2.2.2)))).written

theorem windows_written : ∀ windows : List WindowDef, WindowDef.AllFormed windows →
    AllWritten (ofWindows windows)
  | [], _ => .nil
  | ⟨_, spec, _⟩ :: rest, formed =>
    .cons (.name formed.1 ((Hangs.after (.word _ .nil)).append
      (.after (windowSpec_written spec formed.2.1)))) (windows_written rest formed.2.2)

theorem select_written : ∀ select : Select, select.Formed → Written (ofSelect select)
  | ⟨quantifier, targets, sources, selection, groupBy, having, windows, _⟩, formed => by
    obtain ⟨-, isTargets, isSources, isSelection, isGroupBy, isHaving, isWindows⟩ := formed
    have first : AllWritten [Piece.word .SELECT ::
        after (ofQuantifier quantifier ++ commaSeparated (ofExprs targets))] :=
      .cons (.word _ (.after (quantifier_append
        (commaSeparated_written (exprs_written targets _ isTargets))))) .nil
    exact spaced_written (((((first.append
      (clause_written _ (sources_written sources isSources))).append
        (clauseOf_written selection _ isSelection)).append
          (groupBy_written groupBy isGroupBy)).append
            (clauseOf_written having _ isHaving)).append
              (clause_written _ (windows_written windows isWindows)))

theorem groupBy_written : ∀ groupBy : Option GroupClause, GroupClause.OptionFormed groupBy →
    AllWritten (ofGroupBy groupBy)
  | none, _ => .nil
  | some ⟨_, groupings, _⟩, formed =>
    .cons ((words_written _).append (.after (quantifier_append
      (commaSeparated_written (exprs_written groupings _ formed.2))))) .nil

theorem ctes_written : ∀ ctes : List Cte, Cte.AllFormed ctes → AllWritten (ofCtes ctes)
  | [], _ => .nil
  | ⟨_, _, query, _⟩ :: rest, formed =>
    .cons (((withColumns_written formed.1 formed.2.1).append (.after (.word _ .nil))).append
      (.after (Hangs.parenthesized (query_written query formed.2.2.1)).written))
      (ctes_written rest formed.2.2.2)

theorem with_written : ∀ withClause : Option WithClause, WithClause.OptionFormed withClause →
    AllWritten (ofWith withClause)
  | none, _ => .nil
  | some ⟨recursive, ctes, _⟩, formed => by
    have all := commaSeparated_written (ctes_written ctes formed.2)
    refine .cons (.word _ (.after ?_)) .nil
    cases recursive with
    | false => exact all
    | true => exact .word _ (.space all)

theorem offset_written : ∀ offset : Option Expr, Expr.OptionFormed offset →
    AllWritten (ofOffset offset)
  | none, _ => .nil
  | some count, formed =>
    .cons ((Written.word _ (.after (expr_written count _ formed))).append
      (.after (.word _ .nil))) .nil

theorem count_hangs : ∀ count : Option Expr, Expr.OptionFormed count → Hangs (ofCount count)
  | none, _ => .nil
  | some count, formed => .after (expr_written count _ formed)

theorem fetch_written : ∀ fetch : Option Fetch, Fetch.OptionFormed fetch →
    AllWritten (ofFetch fetch)
  | none, _ => .nil
  | some ⟨_, count, _, _, _⟩, formed =>
    .cons ((((words_written _).append (count_hangs count formed.1)).append
      (.when _ (.after (.word _ .nil)))).append (.after (words_written _))) .nil

theorem query_written : ∀ query : Query, query.Formed → Written (ofQuery query)
  | ⟨withClause, body, orderBy, offset, fetch, _⟩, formed => by
    obtain ⟨isWith, isBody, isOrderBy, isOffset, isFetch⟩ := formed
    have first : AllWritten [ofRel .body body] := .cons (rel_written body _ _ isBody) .nil
    exact spaced_written (((((with_written withClause isWith).append first).append
      (clause_written _ (sortKeys_written orderBy isOrderBy))).append
        (offset_written offset isOffset)).append (fetch_written fetch isFetch))

end

/-! ## Statements -/

theorem references_written {references : References} (formed : references.Formed) :
    Written (ofReferences references) :=
  (((Written.word _ (.after (qualified_written formed.1))).append
    (.when _ (.after (names_hangs formed.2).written))).append
      (.after (words_written _))).append (.after (words_written _)) |>.append
        (.after (words_written _))

theorem constraintName_append {name : Option QualifiedName} {row : List Piece}
    (proper : ∀ it ∈ name, it.Proper) (written : Written row) :
    Written (ofConstraintName name ++ row) := by
  cases name with
  | none => exact written
  | some name =>
    have first : Written (word .CONSTRAINT :: after (qualified name)) :=
      .word _ (.after (qualified_written (proper name rfl)))
    have whole := first.append (.space written)
    simpa [ofConstraintName, optional] using whole

theorem columnConstraint_written {constraint : ColumnConstraint} (formed : constraint.Formed) :
    Written (ofColumnConstraint constraint) := by
  obtain ⟨name, kind, span⟩ := constraint
  refine constraintName_append formed.1 ?_
  cases kind with
  | notNull | primaryKey => exact words_written _
  | unique => exact .word _ .nil
  | foreignKey references => exact references_written formed.2

theorem tableConstraint_written {constraint : TableConstraint} (formed : constraint.Formed) :
    Written (ofTableConstraint constraint) := by
  obtain ⟨name, kind, span⟩ := constraint
  refine constraintName_append formed.1 ?_
  cases kind with
  | unique columns => exact .word _ (.after (names_hangs formed.2.2).written)
  | primaryKey columns => exact (words_written _).append (.after (names_hangs formed.2.2).written)
  | foreignKey columns references =>
    exact ((words_written _).append (.after (names_hangs formed.2.1.2).written)).append
      (.after (references_written formed.2.2))

theorem columnDefault_written {value : ColumnDefault} (formed : value.Formed) :
    Written (ofColumnDefault value) := by
  cases value with
  | user user => exact .word _ .nil
  | null => exact .word _ .nil
  | expr value =>
    cases value with
    | null span => exact (Hangs.parenthesized (.word _ .nil)).written
    | _ => exact expr_written _ .value formed

theorem columnDef_written {column : ColumnDef} (formed : column.Formed) :
    Written (ofColumnDef column) := by
  refine Written.append ?_ (.flatMap fun constraint member =>
    .after (columnConstraint_written (formed.constraints constraint member)))
  refine Written.append ?_ (.optional fun value member =>
    (Hangs.after (.word _ .nil)).append (.after (columnDefault_written (formed.default value member))))
  refine Written.append ?_ (.optional fun name member =>
    (Hangs.after (.word _ .nil)).append (.after (qualified_written (formed.collation name member))))
  exact .name formed.name (.after (dataType_written _ formed.dataType))

theorem create_written {definition : Create} (formed : definition.Formed) :
    Written (ofCreate definition) := by
  have columns : AllWritten (definition.columns.map ofColumnDef) := by
    intro row member
    obtain ⟨column, isColumn, rfl⟩ := List.mem_map.mp member
    exact columnDef_written (formed.columns column isColumn)
  have constraints : Hangs (definition.constraints.flatMap fun constraint =>
      sign .comma :: after (ofTableConstraint constraint)) :=
    .flatMap fun constraint member =>
      .bracket rfl (Hangs.after (tableConstraint_written (formed.constraints constraint member))).written
  exact (((words_written _).append (.after (qualified_written formed.name))).append
    (.after (Hangs.parenthesized ((commaSeparated_written columns).append constraints)).written)).append
      (.optional fun _ _ => .after (words_written _))

/-- The row of a well-formed statement can be told apart. -/
theorem statement_written {statement : Statement} (formed : statement.Formed) :
    Written (ofStatement statement) := by
  cases statement with
  | create definition => exact create_written formed
  | insert insertion =>
    obtain ⟨table, columns, policy, source, span⟩ := insertion
    refine Written.append ?_ ?_
    · exact (((words_written _).append (.after (qualified_written formed.1))).append
        (.when _ (.after (names_hangs formed.2.1).written))).append
          (.optional fun _ _ => .after (words_written _))
    · cases source with
      | defaultValues => exact .after (words_written _)
      | query rows => exact .after (query_written rows formed.2.2)
  | delete deletion =>
    obtain ⟨table, only, selection, span⟩ := deletion
    refine ((words_written _).append (.after (qualified_written formed.1))).append ?_
    cases selection with
    | none => exact .nil
    | some selection =>
      exact (Hangs.after (.word _ .nil)).append (.after (expr_written selection _ formed.2))
  | select query span => exact query_written query formed

end Canonical

/-- The canonical text of a well-formed statement splits into the tokens that it is laid out
with. -/
theorem Statement.splits_sql {statement : Statement} (formed : statement.Formed) :
    Scan.Splits statement.sql.toList (Piece.kinds (Canonical.ofStatement statement)) :=
  Piece.splits_render (Canonical.statement_written formed)

end CanonicalSql
