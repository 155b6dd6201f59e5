import CanonicalSql.Proofs.Course.Stream

/-!
# The places of a tree

Every node of a statement that was read knows the stretch of text it stands for. Whatever the
rule that made it, the stretch begins where some token begins and ends where this token or a
later one ends, it contains the stretches of all nodes below, and the stretches of the nodes right
below it are apart from each other. The statement as a whole takes up all tokens in front of the
semicolon, or of the end of input if there is none, and none of its own tokens is a semicolon.
-/
namespace CanonicalSql

/-! ## Stretches within stretches -/

section

variable {tokens : List Token} {failure : Option LexError} {i j a b : Nat} {span inner : Span}
  {extent : Extent} {extents : List Extent}

/-- A token does not begin before an earlier one. -/
theorem Flows.start_le {first second : Token} (flows : Flows tokens failure)
    (isFirst : tokens[i]? = some first) (isSecond : tokens[j]? = some second) (before : i ≤ j) :
    first.span.start.offset ≤ second.span.start.offset := by
  rcases Nat.eq_or_lt_of_le before with rfl | earlier
  · obtain rfl : first = second := Option.some.inj (isFirst.symm.trans isSecond)
    exact Nat.le_refl _
  · have inRange := (List.getElem?_eq_some_iff.mp isSecond).1
    have some := flows.proper first (List.mem_of_getElem? isFirst)
      (flows.kind_ne isFirst (by omega))
    have := flows.later isFirst isSecond earlier
    omega

/-- A token does not end behind a later one, unless the later one is the end of input. -/
theorem Flows.stop_le {first second : Token} (flows : Flows tokens failure)
    (isFirst : tokens[i]? = some first) (isSecond : tokens[j]? = some second) (before : i ≤ j)
    (inside : j + 1 < tokens.length) : first.span.stop.offset ≤ second.span.stop.offset := by
  rcases Nat.eq_or_lt_of_le before with rfl | earlier
  · obtain rfl : first = second := Option.some.inj (isFirst.symm.trans isSecond)
    exact Nat.le_refl _
  · have some := flows.proper second (List.mem_of_getElem? isSecond) (flows.kind_ne isSecond inside)
    have := flows.later isFirst isSecond earlier
    omega

/-- The span covers no text that the other one does not cover. -/
def Span.Within (inner outer : Span) : Prop :=
  outer.start.offset ≤ inner.start.offset ∧ inner.stop.offset ≤ outer.stop.offset

/-- The spans share no text. -/
def Span.Apart (one other : Span) : Prop :=
  one.stop.offset ≤ other.start.offset ∨ other.stop.offset ≤ one.start.offset

/-- The span is not empty, begins with a token and ends with it or a later one. -/
def Span.OfTokens (tokens : List Token) (span : Span) : Prop :=
  span.start.offset < span.stop.offset ∧
    ∃ (i j : Nat) (first last : Token), i ≤ j ∧ tokens[i]? = some first ∧ tokens[j]? = some last ∧
      first.kind ≠ .endOfInput ∧ last.kind ≠ .endOfInput ∧
      span.start = first.span.start ∧ span.stop = last.span.stop

theorem Covers.within (flows : Flows tokens failure) (outer : Covers tokens i j span)
    (covers : Covers tokens a b inner) (low : i ≤ a) (high : b ≤ j) (inside : j < tokens.length) :
    inner.Within span := by
  obtain ⟨first, last, some, isFirst, isLast, rfl⟩ := outer
  obtain ⟨first', last', some', isFirst', isLast', rfl⟩ := covers
  exact ⟨flows.start_le isFirst isFirst' low,
    flows.stop_le isLast' isLast (by omega) (by omega)⟩

theorem Covers.ofTokens (flows : Flows tokens failure) (covers : Covers tokens i j span)
    (inside : j < tokens.length) : span.OfTokens tokens := by
  obtain ⟨first, last, some, isFirst, isLast, rfl⟩ := covers
  have notEnd := flows.kind_ne isLast (by omega)
  refine ⟨?_, i, j - 1, first, last, by omega, isFirst, isLast,
    flows.kind_ne isFirst (by omega), notEnd, rfl, rfl⟩
  have := flows.start_le isFirst isLast (by omega)
  have := flows.proper last (List.mem_of_getElem? isLast) notEnd
  simp only
  omega

/-- A stretch ends before the one behind it begins. -/
theorem Covers.before (flows : Flows tokens failure) (covers : Covers tokens i j span)
    (later : Covers tokens a b inner) (behind : j ≤ a) :
    span.stop.offset ≤ inner.start.offset := by
  obtain ⟨first, last, some, isFirst, isLast, rfl⟩ := covers
  obtain ⟨first', last', some', isFirst', isLast', rfl⟩ := later
  exact flows.later isLast isFirst' (by omega)

/-! ## All nodes of a tree -/

/-- Whatever lies within the stretch covers whole tokens of it, and what is right below it lies
within these tokens. -/
theorem Laid.of_mem_allOf (laid : Laid tokens i j extents) (member : extent ∈ Extent.allOf extents) :
    ∃ a b parts, i ≤ a ∧ b ≤ j ∧ Covers tokens a b extent.span ∧ Laid tokens a b [extent] ∧
      Laid tokens a b parts ∧ parts.Perm extent.parts := by
  induction laid with
  | nil => cases member
  | @cons i a b j span parts below rest mixed low covers inner arranged others ihInner ihOthers =>
    have some := covers.lt
    have high := others.le
    rw [Extent.allOf, Extent.all, List.cons_append, List.mem_cons, List.mem_append] at member
    rcases member with rfl | member | member
    · have tight := Laid.cons (Nat.le_refl a) covers inner arranged (.nil (Nat.le_refl b))
      exact ⟨a, b, parts, low, high, covers, tight, inner, arranged.1⟩
    · obtain ⟨top, isTop, member⟩ := Extent.mem_allOf.mp member
      -- within the parts; they are laid in the order of the text, which may not be that of the
      -- tree
      have member := Extent.mem_allOf.mpr ⟨top, arranged.1.mem_iff.mpr isTop, member⟩
      obtain ⟨c, d, parts', lower, higher, found⟩ := ihInner member
      exact ⟨c, d, parts', by omega, by omega, found⟩
    · obtain ⟨c, d, parts', lower, higher, found⟩ := ihOthers member
      exact ⟨c, d, parts', by omega, higher, found⟩

/-- What lies within a stretch begins behind the token at which the stretch begins. -/
theorem Laid.covers_of_mem (laid : Laid tokens i j extents) (member : extent ∈ extents) :
    ∃ a b, i ≤ a ∧ b ≤ j ∧ Covers tokens a b extent.span := by
  obtain ⟨a, b, -, low, high, covers, -⟩ :=
    laid.of_mem_allOf (Extent.mem_allOf.mpr ⟨extent, member, extent.self_mem_all⟩)
  exact ⟨a, b, low, high, covers⟩

/-- Extents that lie one behind another are in the order of their places. -/
theorem Laid.ordered (flows : Flows tokens failure) (laid : Laid tokens i j extents) :
    extents.Pairwise fun one other => one.span.stop.offset ≤ other.span.start.offset := by
  induction laid with
  | nil => exact .nil
  | cons low covers inner arranged others _ ih =>
    refine List.pairwise_cons.mpr ⟨fun other member => ?_, ih⟩
    obtain ⟨c, d, behind, -, later⟩ := others.covers_of_mem member
    exact covers.before flows later behind

/-- The tree of places is in good order: each node covers whole tokens and contains what is below
it, and the nodes right below it are apart. -/
structure Extent.Placed (tokens : List Token) (extent : Extent) : Prop where
  tokens : extent.span.OfTokens tokens
  contains : ∀ below ∈ extent.all, below.span.Within extent.span
  apart : extent.parts.Pairwise fun one other => one.span.Apart other.span

/-- Every node of what lies within a stretch is in good order. -/
theorem Laid.placed (flows : Flows tokens failure) (laid : Laid tokens i j extents)
    (inside : j < tokens.length) (member : extent ∈ Extent.allOf extents) :
    extent.Placed tokens := by
  obtain ⟨a, b, parts, low, high, covers, tight, inner, perm⟩ := laid.of_mem_allOf member
  refine ⟨covers.ofTokens flows (by omega), fun below isBelow => ?_, ?_⟩
  · obtain ⟨c, d, -, lower, higher, coversBelow, -⟩ :=
      tight.of_mem_allOf (Extent.mem_allOf.mpr ⟨extent, List.mem_singleton_self _, isBelow⟩)
    exact covers.within flows coversBelow lower higher (by omega)
  · have symmetric {one other : Extent} (apart : one.span.Apart other.span) :
        other.span.Apart one.span := apart.symm
    refine (perm.pairwise_iff symmetric).mp ?_
    exact (inner.ordered flows).imp fun before => .inl before

end

/-! ## Statements -/

namespace Statement

/-- A statement that is read from a text lies in front of the end of its tokens, which no token of
its own belongs to. -/
theorem laid_of_parse {limit : Nat} {text : String} {statement : Statement}
    (parsed : Statement.parse limit text = .ok statement) :
    ∃ j m, Parse.StatementLaid (Lexer.ofText text).stream.tokens 0 j statement ∧
      (∀ k < j, (kindAt (Lexer.ofText text).stream.tokens k).endsStatement = false) ∧
      Parse.EndsText (Lexer.ofText text).stream.tokens j m ∧
      m < (Lexer.ofText text).stream.tokens.length := by
  have flows := (Lexer.ofText text).stream_flows
  unfold Statement.parse TokenStream.statement at parsed
  split at parsed
  · cases parsed
  · next start begins =>
    split at parsed
    · next read last run =>
      obtain rfl := Except.ok.inj parsed
      have stands := State.ofStream_at flows begins
      obtain ⟨m, -, standsLast, j, laid, inside, ends⟩ :=
        Parse.statement_proceeds.ok start _ last stands run
      have := standsLast.length
      exact ⟨j, m, laid, fun k => inside k (Nat.zero_le k), ends, by omega⟩
    · cases parsed

/-- Each node of the statement is in its place among the tokens, and the statement runs from the
first of them to the last one before the semicolon, or before the end of input if there is no
semicolon. The semicolon is not the statement's own, whether there is one or not. -/
structure Placed (tokens : List Token) (statement : Statement) : Prop where
  nodes : ∀ extent ∈ (Extent.ofStatement statement).all, extent.Placed tokens
  whole : ∃ own ends first last, tokens = own ++ ends ∧ own.head? = some first ∧
    own.getLast? = some last ∧ statement.span = ⟨first.span.start, last.span.stop⟩ ∧
    (∀ token ∈ own, token.kind ≠ .symbol .semicolon) ∧
    (ends.map Token.kind = [.endOfInput] ∨
      ends.map Token.kind = [.symbol .semicolon, .endOfInput])

theorem span_ofStatement (statement : Statement) :
    (Extent.ofStatement statement).span = statement.span := by
  cases statement <;> rfl

/-- What ends a text is the end of input, or a semicolon and the end of input. -/
theorem drop_of_endsText {tokens : List Token} {failure : Option LexError} {j m : Nat}
    (flows : Flows tokens failure) (ends : Parse.EndsText tokens j m) (inside : m < tokens.length) :
    (tokens.drop j).map Token.kind = [.endOfInput] ∨
      (tokens.drop j).map Token.kind = [.symbol .semicolon, .endOfInput] := by
  obtain ⟨isEnd, between⟩ := ends
  have kind {k : Nat} (inRange : k < tokens.length) : tokens[k].kind = kindAt tokens k := by
    simp [kindAt, inRange]
  have isLast := flows.last m tokens[m] (List.getElem?_eq_getElem inside) ((kind inside).trans isEnd)
  have end_ : (tokens.drop m).map Token.kind = [.endOfInput] := by
    rw [List.drop_eq_getElem_cons inside, List.drop_eq_nil_of_le (by omega), List.map_singleton,
      kind inside, isEnd]
  rcases between with rfl | ⟨rfl, semicolon⟩
  · exact .inl end_
  · have inRange : j < tokens.length := by omega
    right
    rw [List.drop_eq_getElem_cons inRange, List.map_cons, kind inRange, semicolon, end_]

/-- Where no token ends a statement, none is a semicolon. -/
theorem own_of_inside {tokens : List Token} {j : Nat}
    (inside : ∀ k < j, (kindAt tokens k).endsStatement = false) :
    ∀ token ∈ tokens.take j, token.kind ≠ .symbol .semicolon := by
  intro token member isSign
  obtain ⟨k, before, isToken⟩ := List.mem_take_iff_getElem.mp member
  have own := inside k (by omega)
  rw [kindAt, List.getElem?_eq_getElem (by omega), isToken, Option.map_some, Option.getD_some,
    isSign] at own
  cases own

/-- The places of a statement that is read from a text are in good order. -/
theorem placed_of_parse {limit : Nat} {text : String} {statement : Statement}
    (parsed : Statement.parse limit text = .ok statement) :
    statement.Placed (Lexer.ofText text).stream.tokens := by
  have flows := (Lexer.ofText text).stream_flows
  obtain ⟨j, m, ⟨⟨covers, laid⟩, -⟩, unclosed, ends, inside⟩ := laid_of_parse parsed
  generalize (Lexer.ofText text).stream.tokens = tokens at *
  have before : j ≤ m := by
    obtain ⟨-, rfl | ⟨rfl, -⟩⟩ := ends
    · exact Nat.le_refl _
    · exact Nat.le_succ _
  refine ⟨fun extent member => ?_, tokens.take j, tokens.drop j, ?_⟩
  · exact laid.placed flows (by omega)
      (Extent.mem_allOf.mpr ⟨_, List.mem_singleton_self _, member⟩)
  · obtain ⟨first, last, some, isFirst, isLast, isSpan⟩ := covers
    refine ⟨first, last, (List.take_append_drop j tokens).symm, ?_, ?_,
      (span_ofStatement statement).symm.trans isSpan, own_of_inside unclosed,
      drop_of_endsText flows ends inside⟩
    · rw [List.head?_take, if_neg (by omega), List.head?_eq_getElem?, isFirst]
    · rw [List.getLast?_eq_getElem?, List.length_take, Nat.min_eq_left (by omega),
        List.getElem?_take_of_lt (by omega), isLast]

/-- An `IN` list, a taken-up subquery, a join and a set operation in parentheses, and a semicolon. -/
theorem placed_of_parse_nested :
    ∃ statement, Statement.parse 20 "SELECT a IN (1, (2)) FROM (t JOIN u ON (a) = b),
        ((SELECT 1) UNION (VALUES (2))) AS v;" = .ok statement ∧
      statement.Placed (Lexer.ofText "SELECT a IN (1, (2)) FROM (t JOIN u ON (a) = b),
        ((SELECT 1) UNION (VALUES (2))) AS v;").stream.tokens := by
  have accepted : (Statement.parse 20 "SELECT a IN (1, (2)) FROM (t JOIN u ON (a) = b),
        ((SELECT 1) UNION (VALUES (2))) AS v;").isOk = true := by decide +kernel
  cases parsed : Statement.parse 20 "SELECT a IN (1, (2)) FROM (t JOIN u ON (a) = b),
        ((SELECT 1) UNION (VALUES (2))) AS v;" with
  | ok statement => exact ⟨statement, rfl, Statement.placed_of_parse parsed⟩
  | error failure =>
    rw [parsed] at accepted
    cases accepted

end Statement

end CanonicalSql
