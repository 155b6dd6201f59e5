/-!
# Places in a text

A position counts the bytes before it and names its line and column; a span is a stretch
between two positions, its end left out. Walking over a text moves a position character
by character, and only a line feed starts a new line.
-/
namespace CanonicalSql

/-- A place between two characters of a text. -/
structure Position where
  /-- Bytes of UTF-8 before the place. -/
  offset : Nat := 0
  /-- One more than the number of line feeds before the place. -/
  line : Nat := 1
  /-- One more than the number of characters since the line began. -/
  column : Nat := 1
deriving DecidableEq, Repr

namespace Position

instance : Inhabited Position := ⟨{}⟩

/-- The place after one more character. -/
def step (p : Position) (c : Char) : Position :=
  if c = '\n' then ⟨p.offset + c.utf8Size, p.line + 1, 1⟩
  else ⟨p.offset + c.utf8Size, p.line, p.column + 1⟩

/-- The place after all of `text`, which begins at `p`. -/
def after (p : Position) (text : List Char) : Position :=
  text.foldl step p

@[simp] theorem after_nil (p : Position) : p.after [] = p := rfl

@[simp] theorem after_cons (p : Position) (c : Char) (text : List Char) :
    p.after (c :: text) = (p.step c).after text := rfl

theorem after_append (p : Position) (first second : List Char) :
    p.after (first ++ second) = (p.after first).after second := by
  simp [after]

theorem offset_lt_offset_step (p : Position) (c : Char) : p.offset < (p.step c).offset := by
  have := c.utf8Size_pos
  unfold step
  split <;> simp <;> omega

/-- Earlier and later places: by offset, then by line, then by column. -/
protected def compare (a b : Position) : Ordering :=
  (compare a.offset b.offset).then
    ((compare a.line b.line).then (compare a.column b.column))

/-- Line and column, as messages give them. -/
def text (p : Position) : String :=
  toString p.line ++ ":" ++ toString p.column

end Position

/-- A stretch of a text from `start` up to `stop`, which is left out. -/
structure Span where
  start : Position := {}
  stop : Position := {}
deriving DecidableEq, Repr

namespace Span

instance : Inhabited Span := ⟨{}⟩

/-- The empty span at a place. -/
def point (p : Position) : Span := ⟨p, p⟩

/-- Bytes covered. -/
def length (s : Span) : Nat := s.stop.offset - s.start.offset

/-- Whether nothing is covered. -/
def isEmpty (s : Span) : Bool := s.start.offset == s.stop.offset

/-- The span that covers both. Where the two begin or end at one offset, the place is
taken from `b`. -/
def merge (a b : Span) : Span :=
  ⟨if a.start.offset < b.start.offset then a.start else b.start,
   if a.stop.offset > b.stop.offset then a.stop else b.stop⟩

/-- A span is shown by the place where it begins. -/
def text (s : Span) : String := s.start.text

end Span

end CanonicalSql
