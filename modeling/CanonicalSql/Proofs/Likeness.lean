import CanonicalSql.Proofs.Erase

/-!
# Likeness of all sorts of trees

Statements are compared part by part, and each sort of part has a comparison of its own. A
`TreeSort` names such a sort, with lists and options of every other one among them, so that what
holds of all comparisons is said once (`TreeSort.comparesAllButPlaces`): a comparison looks at every
value in its trees and at no span. Trees that are erased have nothing but values left, which makes
likeness the equality of erased trees, and an equivalence for that reason.
-/
namespace CanonicalSql

/-- The sorts of trees that a statement is made of. -/
inductive TreeSort
  | expr
  | sortKey
  | groupingSet
  | joinCondition
  | rel
  | groupClause
  | frameBound
  | frame
  | windowSpec
  | windowDef
  | select
  | cte
  | withClause
  | fetch
  | query
  | dataType
  | references
  | columnConstraintKind
  | columnConstraint
  | columnDefault
  | columnDef
  | tableConstraintKind
  | tableConstraint
  | create
  | insertSource
  | insert
  | delete
  | statement
  | list (member : TreeSort)
  | option (member : TreeSort)

namespace TreeSort

/-- The trees of a sort. -/
def Tree : TreeSort → Type
  | .expr => Expr
  | .sortKey => SortKey
  | .groupingSet => GroupingSet
  | .joinCondition => JoinCondition
  | .rel => Rel
  | .groupClause => GroupClause
  | .frameBound => FrameBound
  | .frame => Frame
  | .windowSpec => WindowSpec
  | .windowDef => WindowDef
  | .select => Select
  | .cte => Cte
  | .withClause => WithClause
  | .fetch => Fetch
  | .query => Query
  | .dataType => DataType
  | .references => References
  | .columnConstraintKind => ColumnConstraintKind
  | .columnConstraint => ColumnConstraint
  | .columnDefault => ColumnDefault
  | .columnDef => ColumnDef
  | .tableConstraintKind => TableConstraintKind
  | .tableConstraint => TableConstraint
  | .create => Create
  | .insertSource => InsertSource
  | .insert => Insert
  | .delete => Delete
  | .statement => Statement
  | .list member => List member.Tree
  | .option member => Option member.Tree

/-- Whether two trees of the sort differ in their spans only. Clauses that are compared where they
may be absent, and definitions that are compared in lists, are compared as present ones and as lists
of one. -/
def alike : (sort : TreeSort) → sort.Tree → sort.Tree → Bool
  | .expr => Expr.alike
  | .sortKey => SortKey.alike
  | .groupingSet => GroupingSet.alike
  | .joinCondition => JoinCondition.alike
  | .rel => Rel.alike
  | .groupClause => fun one other => GroupClause.optionAlike (some one) (some other)
  | .frameBound => FrameBound.alike
  | .frame => Frame.alike
  | .windowSpec => WindowSpec.alike
  | .windowDef => fun one other => WindowDef.allAlike [one] [other]
  | .select => Select.alike
  | .cte => fun one other => Cte.allAlike [one] [other]
  | .withClause => fun one other => WithClause.optionAlike (some one) (some other)
  | .fetch => fun one other => Fetch.optionAlike (some one) (some other)
  | .query => Query.alike
  | .dataType => DataType.same
  | .references => References.alike
  | .columnConstraintKind => ColumnConstraintKind.alike
  | .columnConstraint => ColumnConstraint.alike
  | .columnDefault => ColumnDefault.alike
  | .columnDef => ColumnDef.alike
  | .tableConstraintKind => TableConstraintKind.alike
  | .tableConstraint => TableConstraint.alike
  | .create => Create.alike
  | .insertSource => InsertSource.alike
  | .insert => Insert.alike
  | .delete => Delete.alike
  | .statement => Statement.alike
  | .list member => allAlike member.alike
  | .option member => optionAlike member.alike

/-- A tree of the sort with the same span at every node. -/
def erase : (sort : TreeSort) → sort.Tree → sort.Tree
  | .expr => Expr.erase
  | .sortKey => SortKey.erase
  | .groupingSet => GroupingSet.erase
  | .joinCondition => JoinCondition.erase
  | .rel => Rel.erase
  | .groupClause => fun clause => ⟨clause.quantifier, Expr.eraseAll clause.groupings, default⟩
  | .frameBound => FrameBound.erase
  | .frame => Frame.erase
  | .windowSpec => WindowSpec.erase
  | .windowDef => WindowDef.erase
  | .select => Select.erase
  | .cte => Cte.erase
  | .withClause => fun clause => ⟨clause.recursive, Cte.eraseAll clause.ctes, default⟩
  | .fetch => fun clause =>
    ⟨clause.kind, Expr.eraseOption clause.count, clause.percent, clause.withTies, default⟩
  | .query => Query.erase
  | .dataType => id
  | .references => References.erase
  | .columnConstraintKind => ColumnConstraintKind.erase
  | .columnConstraint => ColumnConstraint.erase
  | .columnDefault => ColumnDefault.erase
  | .columnDef => ColumnDef.erase
  | .tableConstraintKind => TableConstraintKind.erase
  | .tableConstraint => TableConstraint.erase
  | .create => Create.erase
  | .insertSource => InsertSource.erase
  | .insert => fun insertion => ⟨insertion.table, insertion.columns, insertion.overriding,
      insertion.source.erase, default⟩
  | .delete => fun deletion =>
    ⟨deletion.table, deletion.only, Expr.eraseOption deletion.selection, default⟩
  | .statement => Statement.erase
  | .list member => List.map member.erase
  | .option member => Option.map member.erase

/-- Which of its forms a tree has, for the sorts that have several. -/
def variant : (sort : TreeSort) → sort.Tree → Nat
  | .expr => Expr.ctorIdx
  | .joinCondition => JoinCondition.ctorIdx
  | .rel => Rel.ctorIdx
  | .dataType => DataType.ctorIdx
  | .columnConstraintKind => ColumnConstraintKind.ctorIdx
  | .columnDefault => ColumnDefault.ctorIdx
  | .tableConstraintKind => TableConstraintKind.ctorIdx
  | .insertSource => InsertSource.ctorIdx
  | .statement => Statement.ctorIdx
  | .option _ => fun tree => (Option.isSome tree).toNat
  | _ => fun _ => 0

/-! ## One sort at a time -/

theorem columnConstraintKind_alike_iff (one other : ColumnConstraintKind) :
    one.alike other = true ↔ one.erase = other.erase := by
  cases one <;> cases other <;>
    simp [ColumnConstraintKind.alike, ColumnConstraintKind.erase, References.alike_iff]

theorem tableConstraintKind_alike_iff (one other : TableConstraintKind) :
    one.alike other = true ↔ one.erase = other.erase := by
  cases one <;> cases other <;>
    simp [TableConstraintKind.alike, TableConstraintKind.erase, References.alike_iff]

theorem insertSource_alike_iff (one other : InsertSource) :
    one.alike other = true ↔ one.erase = other.erase := by
  cases one <;> cases other <;> simp [InsertSource.alike, InsertSource.erase, Query.alike_iff]

/-- An insertion is compared as the statement that it is. -/
theorem insert_alike_iff (one other : Insert) :
    one.alike other = true ↔ insert.erase one = insert.erase other := by
  have whole := Statement.alike_iff_erase (.insert one) (.insert other)
  exact whole.trans ⟨Statement.insert.inj, congrArg Statement.insert⟩

/-- A deletion is compared as the statement that it is. -/
theorem delete_alike_iff (one other : Delete) :
    one.alike other = true ↔ delete.erase one = delete.erase other := by
  have whole := Statement.alike_iff_erase (.delete one) (.delete other)
  exact whole.trans ⟨Statement.delete.inj, congrArg Statement.delete⟩

/-- Two trees of a sort are alike if and only if they are the same once they are erased. The
induction is on the sort: a list and an option are compared as their members are. -/
theorem alike_iff_erase_eq (sort : TreeSort) :
    ∀ one other : sort.Tree, sort.alike one other = true ↔ sort.erase one = sort.erase other := by
  induction sort with
  | expr => exact Expr.alike_iff
  | sortKey => exact SortKey.alike_iff
  | groupingSet => exact GroupingSet.alike_iff
  | joinCondition => exact JoinCondition.alike_iff
  | rel => exact Rel.alike_iff
  | groupClause =>
    intro one other
    -- the comparison of single clauses is a case of that of optional ones
    have same := GroupClause.optionAlike_iff (some one) (some other)
    cases one
    cases other
    exact same.trans Option.some_inj
  | frameBound => exact FrameBound.alike_iff
  | frame => exact Frame.alike_iff
  | windowSpec => exact WindowSpec.alike_iff
  | windowDef =>
    intro one other
    have same := WindowDef.allAlike_iff [one] [other]
    cases one
    cases other
    exact same.trans List.singleton_inj
  | select => exact Select.alike_iff
  | cte =>
    intro one other
    have same := Cte.allAlike_iff [one] [other]
    cases one
    cases other
    exact same.trans List.singleton_inj
  | withClause =>
    intro one other
    have same := WithClause.optionAlike_iff (some one) (some other)
    cases one
    cases other
    exact same.trans Option.some_inj
  | fetch =>
    intro one other
    have same := Fetch.optionAlike_iff (some one) (some other)
    cases one
    cases other
    exact same.trans Option.some_inj
  | query => exact Query.alike_iff
  | dataType => exact DataType.same_iff
  | references => exact References.alike_iff
  | columnConstraintKind => exact columnConstraintKind_alike_iff
  | columnConstraint => exact ColumnConstraint.alike_iff
  | columnDefault => exact ColumnDefault.alike_iff
  | columnDef => exact ColumnDef.alike_iff
  | tableConstraintKind => exact tableConstraintKind_alike_iff
  | tableConstraint => exact TableConstraint.alike_iff
  | create => exact Create.alike_iff
  | insertSource => exact insertSource_alike_iff
  | insert => exact insert_alike_iff
  | delete => exact delete_alike_iff
  | statement => exact Statement.alike_iff_erase
  | list member ih => exact allAlike_iff_map ih
  | option member ih => exact optionAlike_iff_map ih

/-- Erasing a tree leaves it the form that it has. -/
theorem variant_erase (sort : TreeSort) (tree : sort.Tree) :
    sort.variant (sort.erase tree) = sort.variant tree := by
  cases sort with
  | expr | joinCondition | rel | columnConstraintKind | columnDefault | tableConstraintKind
  | insertSource | statement | option => cases tree <;> rfl
  | _ => rfl

/-! ## All sorts at once -/

/-- What the comparison of a sort of trees tells apart, and what it does not. -/
structure ComparesAllButPlaces (sort : TreeSort) : Prop where
  /-- Trees are alike if nothing is left to tell them apart where all spans are the same. -/
  iff_erase : ∀ one other : sort.Tree, sort.alike one other = true ↔ sort.erase one = sort.erase other
  /-- A tree is alike to itself whatever numbers are in it, and the order of two or three trees does
  not matter. -/
  equivalence : Equivalence fun one other : sort.Tree => sort.alike one other = true
  /-- Trees of different forms are never alike. -/
  form : ∀ one other : sort.Tree, sort.variant one ≠ sort.variant other →
    sort.alike one other = false
  /-- Lists of different lengths are never alike. -/
  length : ∀ ones others : List sort.Tree, ones.length ≠ others.length →
    sort.list.alike ones others = false
  /-- What is absent is alike to nothing that is present. -/
  absent : ∀ present : sort.Tree, sort.option.alike none (some present) = false ∧
    sort.option.alike (some present) none = false

/-- Every sort of trees is compared by all there is in a tree but its places. -/
theorem comparesAllButPlaces (sort : TreeSort) : sort.ComparesAllButPlaces where
  iff_erase := sort.alike_iff_erase_eq
  equivalence := by
    simp only [sort.alike_iff_erase_eq]
    exact ⟨fun _ => rfl, Eq.symm, Eq.trans⟩
  form one other differ := by
    refine Bool.eq_false_iff.mpr fun alike => differ ?_
    have same := (sort.alike_iff_erase_eq one other).mp alike
    calc sort.variant one
        = sort.variant (sort.erase one) := (sort.variant_erase one).symm
      _ = sort.variant (sort.erase other) := congrArg sort.variant same
      _ = sort.variant other := sort.variant_erase other
  length ones others differ := by
    refine Bool.eq_false_iff.mpr fun alike => differ ?_
    have same : ones.map sort.erase = others.map sort.erase :=
      (sort.list.alike_iff_erase_eq ones others).mp alike
    simpa using congrArg List.length same
  absent _ := ⟨rfl, rfl⟩

/-- Zeros of different sign differ, and a number that is none is alike to itself at another place. -/
example : TreeSort.expr.alike (.float ⟨0⟩ {}) (.float ⟨0x8000000000000000⟩ {}) = false ∧
    TreeSort.expr.alike (.float ⟨0x7FF8000000000000⟩ {})
      (.float ⟨0x7FF8000000000000⟩ ⟨⟨0, 1, 1⟩, ⟨3, 1, 4⟩⟩) = true := by
  decide

end TreeSort

end CanonicalSql
