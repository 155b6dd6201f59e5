import CanonicalSql.Proofs.Reading.Names

/-!
# Parentheses in canonical rows

Every canonical row closes the parentheses that it opens, so that the parenthesis that closes a
group is found by counting, whatever stands within (`closing`). Two groups in parentheses that
begin the same text are therefore one (`Nests.eq_rest`), even where the grammar has yet to see what
follows them to tell what they are.
-/
namespace CanonicalSql

/-- What follows the closing parenthesis of a group, the given number of groups within it being
open. -/
def closing : Nat → List Kind → List Kind
  | _, [] => []
  | levels, .symbol .leftParen :: rest => closing (levels + 1) rest
  | 0, .symbol .rightParen :: rest => rest
  | levels + 1, .symbol .rightParen :: rest => closing levels rest
  | levels, _ :: rest => closing levels rest

/-- The row closes the parentheses that it opens, and no others. -/
def Nests (kinds : List Kind) : Prop :=
  ∀ levels rest, closing levels (kinds ++ rest) = closing levels rest

namespace Nests

variable {row further : List Kind}

/-- A token that is no parenthesis changes nothing. -/
theorem token {kind : Kind} (noOpen : kind ≠ .symbol .leftParen)
    (noClose : kind ≠ .symbol .rightParen) (nests : Nests row) : Nests (kind :: row) := by
  intro levels rest
  rw [List.cons_append, closing, nests levels rest]
  · exact noOpen
  · exact fun _ => noClose
  · exact fun _ _ => noClose

theorem word (keyword : Keyword) (nests : Nests row) : Nests (.keyword keyword :: row) :=
  token (by simp) (by simp) nests

theorem append (first : Nests row) (second : Nests further) : Nests (row ++ further) := by
  intro levels rest
  rw [List.append_assoc, first, second]

theorem parenthesized (nests : Nests row) :
    Nests (.symbol .leftParen :: (row ++ [.symbol .rightParen])) := by
  intro levels rest
  rw [List.cons_append, List.append_assoc]
  show closing (levels + 1) (row ++ .symbol .rightParen :: rest) = _
  rw [nests]
  rfl

end Nests

/-- The tokens of the pieces nest. -/
abbrev Nested (row : List Piece) : Prop := Nests (Piece.kinds row)

namespace Nested

variable {row further : List Piece} {rows : List (List Piece)}

theorem nil : Nested [] := fun _ _ => rfl

theorem space (nested : Nested row) : Nested (.space :: row) := nested

theorem token {kind : Kind} (noOpen : kind ≠ .symbol .leftParen)
    (noClose : kind ≠ .symbol .rightParen) (nested : Nested row) : Nested (.token kind :: row) :=
  Nests.token noOpen noClose nested

theorem word (keyword : Keyword) (nested : Nested row) :
    Nested (Piece.word keyword :: row) :=
  token (by simp) (by simp) nested

theorem name (name : Name) (nested : Nested row) : Nested (Piece.name name :: row) :=
  token (by simp) (by simp) nested

theorem sign {symbol : Symbol} (noOpen : symbol ≠ .leftParen)
    (noClose : symbol ≠ .rightParen) (nested : Nested row) : Nested (Piece.sign symbol :: row) :=
  token (by simpa using noOpen) (by simpa using noClose) nested

theorem unary (op : UnaryOp) (nested : Nested row) : Nested (.token op.kind :: row) := by
  cases op <;> exact token (by simp [UnaryOp.kind]) (by simp [UnaryOp.kind]) nested

theorem binary (op : BinaryOp) (nested : Nested row) : Nested (.token op.kind :: row) := by
  cases op <;> exact token (by simp [BinaryOp.kind]) (by simp [BinaryOp.kind]) nested

theorem append (first : Nested row) (second : Nested further) : Nested (row ++ further) := by
  rw [Nested, Piece.kinds_append]
  exact Nests.append first second

theorem after (nested : Nested row) : Nested (Piece.after row) := nested

theorem parenthesized (nested : Nested row) : Nested (Piece.parenthesized row) := by
  rw [Nested, Piece.kinds_parenthesized]
  exact Nests.parenthesized nested

theorem when (nested : Nested row) (condition : Bool) :
    Nested (Canonical.when condition row) := by
  cases condition
  · exact nil
  · exact nested

theorem parenthesizedWhen (nested : Nested row) (condition : Bool) :
    Nested (Canonical.parenthesizedWhen condition row) := by
  cases condition
  · exact nested
  · exact nested.parenthesized

theorem spaced (nested : ∀ row ∈ rows, Nested row) : Nested (Piece.spaced rows) := by
  induction rows with
  | nil => exact nil
  | cons row rows ih =>
    obtain ⟨first, others⟩ := List.forall_mem_cons.mp nested
    cases rows with
    | nil => exact first
    | cons next rows => exact first.append (ih others).space

theorem commaSeparated (nested : ∀ row ∈ rows, Nested row) :
    Nested (Piece.commaSeparated rows) := by
  induction rows with
  | nil => exact nil
  | cons row rows ih =>
    obtain ⟨first, others⟩ := List.forall_mem_cons.mp nested
    cases rows with
    | nil => exact first
    | cons next rows => exact first.append (sign (by simp) (by simp) (ih others).space)

theorem words (keywords : List Keyword) : Nested (Piece.words keywords) := by
  intro levels rest
  rw [Piece.kinds_words]
  induction keywords with
  | nil => rfl
  | cons keyword keywords ih => exact ih

theorem names_cons (first : Name) (parts : List Name) :
    Nested (((first :: parts).map Piece.name).intersperse (Piece.sign .dot)) := by
  induction parts generalizing first with
  | nil => exact name first nil
  | cons next parts ih => exact name first (sign (by simp) (by simp) (ih next))

theorem qualified (name : QualifiedName) : Nested (Piece.qualified name) := by
  obtain ⟨part, parts, isParts⟩ := name.parts_eq_cons
  rw [Piece.qualified, isParts]
  exact names_cons part parts

theorem names (columns : List Name) : Nested (Piece.names columns) := by
  refine (commaSeparated fun row member => ?_).parenthesized
  obtain ⟨column, -, rfl⟩ := List.mem_map.mp member
  exact name column nil

theorem clause (keywords : List Keyword) (nested : ∀ row ∈ rows, Nested row) :
    ∀ row ∈ Canonical.clause keywords rows, Nested row := by
  cases rows with
  | nil => exact nofun
  | cons row rows =>
    simp only [Canonical.clause, List.mem_singleton, forall_eq]
    exact (words keywords).append (commaSeparated nested).after

theorem quantifier (quantifier : Option SetQuantifier) :
    Nested (Canonical.ofQuantifier quantifier) := by
  cases quantifier with
  | none => exact nil
  | some quantifier => exact word _ (space nil)

theorem withColumns (name : Name) (columns : List Name) :
    Nested (Canonical.withColumns name columns) :=
  Nested.name name ((names columns).when _)

end Nested

namespace Canonical

theorem nested_ofNullOrder (nulls : NullOrder) : Nested (ofNullOrder nulls) := by
  cases nulls with
  | unspecified => exact .nil
  | first | last => exact (Nested.words _).after

theorem nested_ofExclusion (exclusion : Option FrameExclusion) :
    Nested (ofExclusion exclusion) := by
  cases exclusion with
  | none => exact .nil
  | some exclusion => exact (Nested.words _).after

theorem nested_ofJoinWords (kind : JoinKind) (natural : Bool) (condition : JoinCondition) :
    Nested (ofJoinWords kind natural condition) := by
  unfold ofJoinWords
  split <;> exact Nested.words _

theorem nested_asQuery {place : Place} {source : List Piece} (nested : Nested source) :
    Nested (asQuery place source) := by
  unfold asQuery
  split
  · exact nested
  · exact ((Nested.word .SELECT (.space (.sign (by simp) (by simp) (.space
      (.word .FROM nested.space)))))).parenthesized

theorem nested_asSource {place : Place} {body : List Piece} (nested : Nested body) :
    Nested (asSource place body) := by
  unfold asSource
  split
  · exact nested.parenthesized
  · exact nested

theorem nested_ofGrouping {rows : List (List Piece)} (nested : ∀ row ∈ rows, Nested row) :
    Nested (ofGrouping rows) := by
  unfold ofGrouping
  split
  · exact nested _ (List.mem_singleton_self _)
  · exact (Nested.commaSeparated nested).parenthesized

mutual

theorem nested_ofExpr : ∀ expr : Expr, Nested (ofExpr expr)
  | .asterisk none _ => .sign (by simp) (by simp) .nil
  | .asterisk (some name) _ => by
    have dot : Nested [Piece.sign .dot] := .sign (by simp) (by simp) .nil
    have star : Nested [Piece.sign .star] := .sign (by simp) (by simp) .nil
    exact ((Nested.qualified name).append dot).append star
  | .integer .. | .float .. | .string .. => .token (by simp) (by simp) .nil
  | .truth .. | .null _ => .word _ .nil
  | .column name _ => .qualified name
  | .named name expr _ => (nested_ofExpr expr).append (.space (.word _ (.space (.name name .nil))))
  | .unary op operand _ => (Nested.unary op (nested_ofExpr operand).after).parenthesized
  | .binary left op right _ =>
    ((nested_ofExpr left).append (.space (.binary op (nested_ofExpr right).after))).parenthesized
  | .collate expr collation _ =>
    ((nested_ofExpr expr).append (.space (.word _ (Nested.qualified collation).after))).parenthesized
  | .isTruth expr _ _ => ((nested_ofExpr expr).append (Nested.words _).after).parenthesized
  | .isNull expr _ => ((nested_ofExpr expr).append (Nested.words _).after).parenthesized
  | .between expr low high symmetric _ => by
    have one := (nested_ofExpr expr).append
      (Nested.words (.BETWEEN :: if symmetric then [.SYMMETRIC] else [])).after
    have two := one.append (nested_ofExpr low).after
    have three := two.append (Nested.after (.word .AND .nil))
    rw [ofExpr]
    exact (three.append (nested_ofExpr high).after).parenthesized
  | .within expr rows _ => by
    have one := (nested_ofExpr expr).append (Nested.after (.word .IN .nil))
    exact (one.append (nested_ofRel rows .members).parenthesized.after).parenthesized
  | .like expr pattern escape _ => by
    have one := (nested_ofExpr expr).append (Nested.after (.word .LIKE .nil))
    exact ((one.append (nested_ofExpr pattern).after).append (nested_ofEscape escape)).parenthesized
  | .existence query _ => (Nested.word _ (nested_ofQuery query).parenthesized.after).parenthesized
  | .uniqueness query _ => (Nested.word _ (nested_ofQuery query).parenthesized.after).parenthesized
  | .row values _ => .word _ (Nested.commaSeparated (nested_ofExprs values)).parenthesized
  | .subquery query _ => (nested_ofQuery query).parenthesized
  | .sortKey key => nested_ofSortKey key
  | .groupingSet set => nested_ofGroupingSet set
  | .groupingSets sets _ =>
    (Nested.words _).append (Nested.commaSeparated (nested_ofExprs sets)).parenthesized.after
  | .rollup sets _ =>
    .word _ (Nested.commaSeparated (nested_ofGroupingSets sets)).parenthesized.after
  | .cube sets _ =>
    .word _ (Nested.commaSeparated (nested_ofGroupingSets sets)).parenthesized.after
  | .aggregate _ quantifier argument filter _ => by
    have inside := (Nested.quantifier quantifier).append (nested_ofExpr argument)
    exact .word _ (inside.parenthesized.append (nested_ofFilter filter))

theorem nested_ofEscape : ∀ escape : Option Expr, Nested (ofEscape escape)
  | none => .nil
  | some escape => (Nested.after (.word _ .nil)).append (nested_ofExpr escape).after

theorem nested_ofFilter : ∀ filter : Option Expr, Nested (ofFilter filter)
  | none => .nil
  | some filter => by
    have inside := (Nested.word .WHERE (nested_ofExpr filter).after).parenthesized
    exact (Nested.after (.word _ .nil)).append inside.after

theorem nested_ofClause : ∀ (expr : Option Expr) (keyword : Keyword),
    ∀ row ∈ ofClause keyword expr, Nested row
  | none, _ => nofun
  | some expr, _ => List.forall_mem_singleton.mpr (.word _ (nested_ofExpr expr).after)

theorem nested_ofExprs : ∀ exprs : List Expr, ∀ row ∈ ofExprs exprs, Nested row
  | [] => nofun
  | expr :: rest => List.forall_mem_cons.mpr ⟨nested_ofExpr expr, nested_ofExprs rest⟩

theorem nested_ofSortKey : ∀ key : SortKey, Nested (ofSortKey key)
  | ⟨expr, _, nulls, _⟩ =>
    ((nested_ofExpr expr).append (Nested.after (.word _ .nil))).append (nested_ofNullOrder nulls)

theorem nested_ofSortKeys : ∀ keys : List SortKey, ∀ row ∈ ofSortKeys keys, Nested row
  | [] => nofun
  | key :: rest => List.forall_mem_cons.mpr ⟨nested_ofSortKey key, nested_ofSortKeys rest⟩

theorem nested_ofGroupingSet : ∀ set : GroupingSet, Nested (ofGroupingSet set)
  | ⟨columns, _⟩ => nested_ofGrouping (nested_ofExprs columns)

theorem nested_ofGroupingSets : ∀ sets : List GroupingSet, ∀ row ∈ ofGroupingSets sets, Nested row
  | [] => nofun
  | set :: rest => List.forall_mem_cons.mpr ⟨nested_ofGroupingSet set, nested_ofGroupingSets rest⟩

theorem nested_ofRel : ∀ (rel : Rel) (place : Place), Nested (ofRel place rel)
  | .join kind natural condition left right _, place => by
    have one := (nested_ofRel left .source).append (nested_ofJoinWords kind natural condition).after
    have two := one.append (nested_ofRel right .source).after
    exact nested_asQuery (two.append (nested_ofCondition condition)).parenthesized
  | .table name _, place => by
    unfold ofRel
    split
    · exact .qualified name
    · exact .word _ (Nested.qualified name).after
  | .named name columns relation _, place => by
    have one := (nested_ofRel relation .aliased).append (Nested.after (.word .AS .nil))
    have two := one.append (Nested.withColumns name columns).after
    exact nested_asQuery (two.parenthesizedWhen _)
  | .select select, place => nested_asSource (nested_ofSelect select)
  | .values rows _, place => by
    have list := Nested.commaSeparated (nested_ofExprs rows)
    unfold ofRel
    split
    · exact list
    · exact nested_asSource (.word _ list.after)
  | .setOp op quantifier left right _, place => by
    have further := (Nested.quantifier quantifier).append (nested_ofRel right .operand)
    have row := (nested_ofRel left .operand).append (.space (.word op.word (.space further)))
    exact row.parenthesizedWhen _
  | .query query, place => (nested_ofQuery query).parenthesizedWhen _

theorem nested_ofSources : ∀ rels : List Rel, ∀ row ∈ ofSources rels, Nested row
  | [] => nofun
  | rel :: rest => List.forall_mem_cons.mpr ⟨nested_ofRel rel _, nested_ofSources rest⟩

theorem nested_ofCondition : ∀ condition : JoinCondition, Nested (ofCondition condition)
  | .absent => .nil
  | .onExpr condition => (Nested.after (.word _ .nil)).append (nested_ofExpr condition).after
  | .usingColumns columns => (Nested.after (.word _ .nil)).append (Nested.names columns).after

theorem nested_ofDistance : ∀ value : Option Expr, Nested (ofDistance value)
  | none => .word _ .nil
  | some value => nested_ofExpr value

theorem nested_ofFrameBound : ∀ bound : FrameBound, Nested (ofFrameBound bound)
  | ⟨.currentRow, _, _⟩ => .words _
  | ⟨.preceding, value, _⟩ => (nested_ofDistance value).append (Nested.after (.word _ .nil))
  | ⟨.following, value, _⟩ => (nested_ofDistance value).append (Nested.after (.word _ .nil))

theorem nested_ofFrame : ∀ frame : Frame, Nested (ofFrame frame)
  | ⟨unit, start, none, exclusion, _⟩ => by
    have one := Nested.word unit.word (nested_ofFrameBound start).after
    exact one.append (nested_ofExclusion exclusion)
  | ⟨unit, start, some stop, exclusion, _⟩ => by
    have one := Nested.word unit.word (Nested.after (.word .BETWEEN .nil))
    have two := one.append (nested_ofFrameBound start).after
    have three := two.append (Nested.after (.word .AND .nil))
    have four := three.append (nested_ofFrameBound stop).after
    exact four.append (nested_ofExclusion exclusion)

theorem nested_ofFrameOption : ∀ frame : Option Frame, ∀ row ∈ ofFrameOption frame, Nested row
  | none => nofun
  | some frame => List.forall_mem_singleton.mpr (nested_ofFrame frame)

theorem nested_ofWindowSpec : ∀ spec : WindowSpec, Nested (ofWindowSpec spec)
  | ⟨existing, partitionBy, orderBy, frame, _⟩ => by
    refine (Nested.spaced ?_).parenthesized
    simp only [List.forall_mem_append]
    refine ⟨⟨⟨?_, ?_⟩, ?_⟩, nested_ofFrameOption frame⟩
    · cases existing with
      | none => exact nofun
      | some name => exact List.forall_mem_singleton.mpr (.name name .nil)
    · exact Nested.clause _ (nested_ofExprs partitionBy)
    · exact Nested.clause _ (nested_ofSortKeys orderBy)

theorem nested_ofWindows : ∀ windows : List WindowDef, ∀ row ∈ ofWindows windows, Nested row
  | [] => nofun
  | ⟨_, spec, _⟩ :: rest => by
    have window := (Nested.after (.word .AS .nil)).append (nested_ofWindowSpec spec).after
    exact List.forall_mem_cons.mpr ⟨.name _ window, nested_ofWindows rest⟩

theorem nested_ofSelect : ∀ select : Select, Nested (ofSelect select)
  | ⟨quantifier, targets, sources, selection, groupBy, having, windows, _⟩ => by
    refine Nested.spaced ?_
    simp only [List.forall_mem_append]
    refine ⟨⟨⟨⟨⟨?_, ?_⟩, ?_⟩, ?_⟩, ?_⟩, ?_⟩
    · have list := Nested.commaSeparated (nested_ofExprs targets)
      exact List.forall_mem_singleton.mpr (.word _ ((Nested.quantifier quantifier).append list).after)
    · exact Nested.clause _ (nested_ofSources sources)
    · exact nested_ofClause selection _
    · exact nested_ofGroupBy groupBy
    · exact nested_ofClause having _
    · exact Nested.clause _ (nested_ofWindows windows)

theorem nested_ofGroupBy : ∀ groupBy : Option GroupClause, ∀ row ∈ ofGroupBy groupBy, Nested row
  | none => nofun
  | some ⟨quantifier, groupings, _⟩ => by
    have list := Nested.commaSeparated (nested_ofExprs groupings)
    exact List.forall_mem_singleton.mpr
      ((Nested.words _).append ((Nested.quantifier quantifier).append list).after)

theorem nested_ofCtes : ∀ ctes : List Cte, ∀ row ∈ ofCtes ctes, Nested row
  | [] => nofun
  | ⟨name, columns, query, _⟩ :: rest => by
    have one := (Nested.withColumns name columns).append (Nested.after (.word .AS .nil))
    have cte := one.append (nested_ofQuery query).parenthesized.after
    exact List.forall_mem_cons.mpr ⟨cte, nested_ofCtes rest⟩

theorem nested_ofWith : ∀ withClause : Option WithClause, ∀ row ∈ ofWith withClause, Nested row
  | none => nofun
  | some ⟨recursive, ctes, _⟩ => by
    have list := Nested.commaSeparated (nested_ofCtes ctes)
    have mark := (Nested.word .RECURSIVE (.space .nil)).when recursive
    exact List.forall_mem_singleton.mpr (.word _ (mark.append list).after)

theorem nested_ofOffset : ∀ count : Option Expr, ∀ row ∈ ofOffset count, Nested row
  | none => nofun
  | some count => by
    have one := Nested.word .OFFSET (nested_ofExpr count).after
    exact List.forall_mem_singleton.mpr (one.append (Nested.after (.word .ROWS .nil)))

theorem nested_ofCount : ∀ count : Option Expr, Nested (ofCount count)
  | none => .nil
  | some count => (nested_ofExpr count).after

theorem nested_ofFetch : ∀ fetch : Option Fetch, ∀ row ∈ ofFetch fetch, Nested row
  | none => nofun
  | some ⟨kind, count, percent, withTies, _⟩ => by
    have one := (Nested.words [.FETCH, kind.word]).append (nested_ofCount count)
    have two := one.append ((Nested.word .PERCENT .nil).after.when percent)
    exact List.forall_mem_singleton.mpr (two.append (Nested.words _).after)

theorem nested_ofQuery : ∀ query : Query, Nested (ofQuery query)
  | ⟨withClause, body, orderBy, offset, fetch, _⟩ => by
    refine Nested.spaced ?_
    simp only [List.forall_mem_append]
    refine ⟨⟨⟨⟨nested_ofWith withClause, ?_⟩, ?_⟩, nested_ofOffset offset⟩, nested_ofFetch fetch⟩
    · exact List.forall_mem_singleton.mpr (nested_ofRel body _)
    · exact Nested.clause _ (nested_ofSortKeys orderBy)

end

end Canonical

/-- Two groups in parentheses that begin the same text are one. -/
theorem Nests.eq_rest {row row' rest rest' : List Kind} (nests : Nests row) (nests' : Nests row')
    (eq : row ++ .symbol .rightParen :: rest = row' ++ .symbol .rightParen :: rest') :
    rest = rest' := by
  have left := nests 0 (.symbol .rightParen :: rest)
  have left' := nests' 0 (.symbol .rightParen :: rest')
  rw [eq, left'] at left
  exact left.symm

end CanonicalSql
