import CanonicalSql.Outline

/-!
# Depth of a tree

Queries, relations and expressions count one level each; what lies between them, such as
common table expressions and sort keys, counts none. The depth of a tree is the greatest
number of levels on one way down, and a limit on it is exceeded first at the first node
that has as many levels above it as the limit allows.
-/
namespace CanonicalSql.Outline

mutual

/-- The greatest number of levels on one way down. -/
def depth : Outline → Nat
  | .node subject _ below => (if subject.isLevel then 1 else 0) + depthAll below

/-- The greatest depth of several outlines. -/
def depthAll : List Outline → Nat
  | [] => 0
  | outline :: rest => max outline.depth (depthAll rest)

end

mutual

/-- The place of the first level that has `room` levels above it. -/
def firstBeyond (room : Nat) : Outline → Option Span
  | .node subject _ below =>
    if subject.isLevel then
      match room with
      | 0 => some subject.span
      | room + 1 => firstBeyondAll room below
    else firstBeyondAll room below

/-- The place of the first such level in several outlines. -/
def firstBeyondAll (room : Nat) : List Outline → Option Span
  | [] => none
  | outline :: rest => (outline.firstBeyond room).or (firstBeyondAll room rest)

end

end CanonicalSql.Outline
