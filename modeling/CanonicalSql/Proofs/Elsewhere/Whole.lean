import CanonicalSql.Proofs.Elsewhere.Query
import CanonicalSql.Proofs.Lexing.Enclosed
import CanonicalSql.Proofs.RoundTrip

/-!
# Texts that a rule accepts in full

`Alone p text a` says that the rule `p`, which begins at the first token of a text without
comments, gives `a` at its end, within some limit. What a rule has read alone it reads again where
the text stands within a statement (`Takes.expression`, `Takes.query`), and a statement whose
parts are read is read itself (`Statement.parse_of_parts`).
-/
namespace CanonicalSql

/-- The tokens of a text, without the end of the input. -/
def Lexer.kindsOf (text : String) : List Kind :=
  ((ofText text).stream.tokens.map Token.kind).dropLast

theorem Lexer.kindsOf_eq {text : String} {kinds : List Kind}
    (splits : Scan.Splits text.toList kinds) : kindsOf text = kinds := by
  rw [kindsOf, (stream_of_splits splits).1, List.dropLast_concat]

namespace Parse

variable {α β : Type} {same : α → β → Prop} {ends : Prop} {need limit depth : Nat}
  {p : Parse α} {q : Parse β} {row rest : List Kind} {a : α}

/-- The rule reads the whole text, within some limit, and gives the value. -/
def Accepts (p : Parse α) (text : String) (a : α) : Prop :=
  ∃ limit start last, State.ofStream limit (Lexer.ofText text).stream = .ok start ∧
    p start = .ok a last ∧ last.current.kind = .endOfInput

/-- The text has no comments, and the rule reads the whole of it. -/
structure Alone (p : Parse α) (text : String) (a : α) : Prop where
  spaced : ∃ kinds, Scan.Spaced text.toList kinds
  accepts : Accepts p text a

theorem Alone.spaced_kindsOf {text : String} (alone : Alone p text a) :
    Scan.Spaced text.toList (Lexer.kindsOf text) := by
  obtain ⟨kinds, spaced⟩ := alone.spaced
  rwa [Lexer.kindsOf_eq spaced.splits]

/-- What the rule gives for the whole of a text without comments, within a limit. -/
def alone? (p : Parse α) (limit : Nat) (text : String) : Option α :=
  if (Scan.spaced? (text.length + 1) text.toList).isSome then
    match State.ofStream limit (Lexer.ofText text).stream with
    | .ok start =>
      match p start with
      | .ok a last => if last.current.kind = .endOfInput then some a else none
      | .error .. => none
    | .error _ => none
  else none

theorem alone_of_alone? {text : String} (given : alone? p limit text = some a) : Alone p text a := by
  unfold alone? at given
  split at given
  · next spaced =>
    obtain ⟨kinds, isSpaced⟩ := Option.isSome_iff_exists.mp spaced
    refine ⟨⟨kinds, Scan.spaced_of_spaced? _ isSpaced⟩, ?_⟩
    split at given
    · next start begins =>
      split at given
      · next a last run =>
        split at given
        · next isEnd =>
          cases given
          exact ⟨limit, start, last, begins, run, isEnd⟩
        · cases given
      · cases given
    · cases given
  · cases given

/-- A text at hand is read alone as something that passes a test. -/
theorem exists_alone (p : Parse α) (limit : Nat) (text : String) (test : α → Bool)
    (passes : (alone? p limit text).any test = true) : ∃ a, Alone p text a ∧ test a = true := by
  cases given : alone? p limit text with
  | none => simp [given] at passes
  | some a => exact ⟨a, alone_of_alone? given, by simpa [given] using passes⟩

/-- The rule gives the value for the beginning of the row, up to the tokens that are left. -/
def Gives (p : Parse α) (row : List Kind) (a : α) (left : List Kind) : Prop :=
  ∃ s t, s.Faces row ∧ t.Faces left ∧ p s = .ok a t

/-- The rule takes the whole row and gives the value. -/
abbrev Takes (p : Parse α) (row : List Kind) (a : α) : Prop := Gives p row a []

/-- A rule that accepts a text takes all its tokens. -/
theorem Accepts.takes {text : String} (accepts : Accepts p text a)
    (splits : Scan.Splits text.toList row) (given : Repeats rest ends need same p q row) :
    Takes p row a := by
  obtain ⟨limit, start, last, begins, run, isEnd⟩ := accepts
  obtain ⟨start', begins', shows⟩ := State.ofStream_shows splits limit
  obtain rfl := Except.ok.inj (begins.symm.trans begins')
  obtain ⟨left, faces, ⟨taken, rfl⟩, -⟩ := given.there start a last shows.faces run
  refine ⟨start, last, shows.faces, ?_, run⟩
  cases left with
  | nil => exact faces
  | cons kind left =>
    have isKind : Kind.endOfInput = kind := isEnd.symm.trans faces.current
    exact absurd (by simp [isKind]) splits.noEnd

/-- What has taken the whole row reads it in front of what may follow. -/
theorem Echoes.reads {up : α → Nat} (given : Echoes rest ends need same up p q row)
    (takes : Takes p row a) (holds : ends) (apart : isJoint (lead rest) = false)
    (room : depth + need ≤ capOf limit) :
    Reads limit True q depth (row ++ rest) (same a) (depth + up a) rest := by
  obtain ⟨s, t, faces, faces', run⟩ := takes
  obtain ⟨left, faces'', -, -, -, reads⟩ := given.there s a t faces run
  obtain rfl := faces'.unique faces''
  exact reads ⟨fun _ => holds, nofun, apart⟩ limit depth room

theorem Alone.takes {text : String} (alone : Alone p text a) (rest : List Kind)
    (given : Repeats rest ends need same p q (Lexer.kindsOf text)) :
    Takes p (Lexer.kindsOf text) a :=
  alone.accepts.takes alone.spaced_kindsOf.splits given

/-- What is read from the first token of a text on. -/
theorem Reads.ofText {text : String} (splits : Scan.Splits text.toList row) {good : α → Prop}
    (reads : Reads limit True p 0 row good 0 rest) :
    ∃ start a last, State.ofStream limit (Lexer.ofText text).stream = .ok start ∧
      p start = .ok a last ∧ good a ∧ last.Shows limit 0 rest := by
  obtain ⟨start, begins, shows⟩ := State.ofStream_shows splits limit
  cases run : p start with
  | ok a last =>
    obtain ⟨-, isGood, shows'⟩ := reads.ok start a last shows run
    exact ⟨start, a, last, begins, run, isGood, shows'⟩
  | error failure last => exact absurd trivial (reads.error start failure last shows run).1

/-- A text that is read alone by one rule is read alone by another one that reads its tokens to
the end. -/
theorem Alone.of_reads {text : String} {b : β} (alone : Alone q text b) {good : α → Prop}
    (reads : Reads limit True p 0 (Lexer.kindsOf text) good 0 []) : ∃ a, good a ∧ Alone p text a := by
  obtain ⟨start, a, last, begins, run, isGood, shows⟩ := reads.ofText alone.spaced_kindsOf.splits
  exact ⟨a, isGood, alone.spaced, limit, start, last, begins, run, shows.current⟩

namespace Gives

variable {γ : Type} {f : γ → Parse α} {good : γ → Prop} {mid left : List Kind}

/-- What is known of a rule at a row is known of what it has given. -/
theorem of_reads (gives : Gives p row a left) {good : α → Prop}
    (reads : ∀ limit depth, Reads limit True p depth row good depth mid) : good a ∧ mid = left := by
  obtain ⟨s, t, faces, faces', run⟩ := gives
  obtain ⟨isGood, faces''⟩ := Reads.faces reads faces run
  exact ⟨isGood, faces''.unique faces'⟩

/-- A first step whose effect on the row is known leaves the rest to what follows it. -/
theorem after {p : Parse γ} (gives : Gives (p >>= f) row a left)
    (first : ∀ limit depth, Reads limit True p depth row good depth mid) :
    ∃ c, good c ∧ Gives (f c) mid a left := by
  obtain ⟨s, t, faces, faces', run⟩ := gives
  obtain ⟨c, middle, ran, run⟩ := ok_of_bind run
  obtain ⟨isGood, faces''⟩ := Reads.faces first faces ran
  exact ⟨c, isGood, middle, t, faces'', faces', run⟩

theorem step {p : Parse γ} {c : γ} (gives : Gives (p >>= f) row a left)
    (first : ∀ limit depth, Reads limit True p depth row (· = c) depth mid) :
    Gives (f c) mid a left := by
  obtain ⟨d, rfl, others⟩ := gives.after first
  exact others

/-- A first step that reads a row leaves the end of it. -/
theorem split {p : Parse γ} {q : Parse β} {same : γ → β → Prop} (gives : Gives (p >>= f) row a left)
    (first : Repeats rest ends need same p q row) :
    ∃ c mid, Gives p row c mid ∧ Gives (f c) mid a left := by
  obtain ⟨s, t, faces, faces', run⟩ := gives
  obtain ⟨c, middle, ran, run⟩ := ok_of_bind run
  obtain ⟨mid, faces'', -⟩ := first.there s c middle faces ran
  exact ⟨c, mid, ⟨s, middle, faces, faces'', ran⟩, middle, t, faces'', faces', run⟩

theorem still {p : Parse γ} (gives : Gives (p >>= f) row a left) (isStill : Still p) :
    ∃ c, Gives (f c) row a left := by
  obtain ⟨s, t, faces, faces', run⟩ := gives
  obtain ⟨c, ran⟩ := isStill s
  rw [bind_ok ran] at run
  exact ⟨c, s, t, faces, faces', run⟩

/-- A last step that makes the result takes nothing. -/
theorem map {p : Parse γ} {make : γ → α} (gives : Gives (do return make (← p)) row a left) :
    ∃ c, a = make c ∧ Gives p row c left := by
  obtain ⟨s, t, faces, faces', run⟩ := gives
  obtain ⟨c, middle, ran, run⟩ := ok_of_bind run
  cases run
  exact ⟨c, rfl, s, t, faces, faces', ran⟩

/-- What is read one level deeper is read. -/
theorem nested (gives : Gives (nested p) row a left) : Gives p row a left := by
  obtain ⟨s, t, faces, faces', run⟩ := gives
  obtain ⟨u, entered, ran, run⟩ := ok_of_bind run
  obtain rfl := enter_eq ran
  obtain ⟨c, middle, ran, run⟩ := ok_of_bind run
  have result : EStateM.Result.ok c { middle with depth := middle.depth - 1 } = .ok a t := run
  obtain ⟨rfl, rfl⟩ := EStateM.Result.ok.inj result
  exact ⟨{ s with depth := s.depth + 1 }, middle, faces.congr rfl rfl rfl,
    faces'.congr rfl rfl rfl, ran⟩

/-- A rule that refuses a row gives nothing for it. -/
theorem elim (gives : Gives p row a left) (refuses : Refuses p row) : False := by
  obtain ⟨s, t, faces, -, run⟩ := gives
  exact refuses s a t faces run

/-- A sign that is expected is there. -/
theorem expectSign {sign : Symbol} {f : Unit → Parse α}
    (gives : Gives (expectSign sign >>= f) row a left) :
    ∃ others, row = .symbol sign :: others ∧ Gives (f ()) others a left := by
  by_cases isSign : lead row = .symbol sign
  · obtain ⟨others, rfl⟩ := eq_cons_of_lead isSign (by simp)
    exact ⟨others, rfl, gives.step fun _ _ => expectSign_reads sign⟩
  · refine (gives.elim (Refuses.bind (fun s a t faces run => ?_) f)).elim
    obtain ⟨limit, depth, shows⟩ := faces
    have refused : Reads limit False (Parse.expectSign sign) depth row (fun _ => False) depth row :=
      expectSign_refuses id isSign
    exact (refused.ok s a t shows run).1

/-- What is left is the end of the row. -/
theorem suffix {same : α → β → Prop} (gives : Gives p row a left)
    (given : Repeats rest ends need same p q row) : left <:+ row := by
  obtain ⟨s, t, faces, faces', run⟩ := gives
  obtain ⟨left', faces'', shorter, -⟩ := given.there s a t faces run
  rwa [faces'.unique faces'']

/-- What a rule has given it gives again in front of what follows, if it may end there. -/
theorem reads {same : α → β → Prop} (gives : Gives p row a left)
    (given : Repeats rest ends need same p q row) (last : left = [] → ends)
    (noPredicate : isNegatable (lead rest) = false) (apart : isJoint (lead rest) = false)
    (room : depth + need ≤ capOf limit) :
    Reads limit True q depth (row ++ rest) (same a) depth (left ++ rest) := by
  obtain ⟨s, t, faces, faces', run⟩ := gives
  obtain ⟨left', faces'', -, -, -, reads⟩ := given.there s a t faces run
  obtain rfl := faces'.unique faces''
  exact reads ⟨last, fun _ => noPredicate, apart⟩ limit depth room

end Gives

theorem Gives.pure {b : α} {left : List Kind} (gives : Gives (pure b : Parse α) row a left) :
    a = b ∧ left = row := by
  obtain ⟨s, t, faces, faces', run⟩ := gives
  cases run
  exact ⟨rfl, faces'.unique faces⟩

/-! ## Whole expressions and queries -/

theorem boundFor_eq {s : State} (ahead : s.ahead.length = row.length) :
    Phrases.boundFor s = 8 * row.length + 16 := by
  rw [Phrases.boundFor, ahead]
  omega

/-- What is read with as many levels as the tokens left may need. -/
theorem Reads.forState {accepts : Prop} {rule : Phrases → Parse α} {kinds : List Kind}
    {good : α → Prop} {depth' : Nat}
    (reads : Reads limit accepts (rule (Phrases.within (8 * kinds.length + 16))) depth kinds good
      depth' rest) :
    Reads limit accepts (do rule (← Phrases.forState)) depth kinds good depth' rest := by
  refine ⟨fun s a t shows run => ?_, fun s failure t shows run => ?_⟩ <;>
    rw [← boundFor_eq shows.ahead_length] at reads
  · exact reads.ok s a t shows run
  · exact reads.error s failure t shows run

theorem Echoes.forState {up : α → Nat} {rule : Phrases → Parse α}
    (given : Echoes rest ends need same up (rule (Phrases.within (8 * row.length + 16))) q row) :
    Echoes rest ends need same up (do rule (← Phrases.forState)) q row where
  there s a t faces run := by
    rw [← boundFor_eq faces.ahead_length] at given
    exact given.there s a t faces run

/-- With one level less. -/
theorem Echoes.belowState {up : α → Nat} {rule : Phrases → Parse α}
    (given : Echoes rest ends need same up (rule (Phrases.within (8 * row.length + 15))) q row) :
    Echoes rest ends need same up (do rule (.within (Phrases.boundFor (← get) - 1))) q row where
  there s a t faces run := by
    refine given.there s a t faces (.trans ?_ run)
    rw [← show Phrases.boundFor s - 1 = 8 * row.length + 15 by rw [boundFor_eq faces.ahead_length]; rfl]
    rfl

theorem wholeExpression_repeats {more : Nat} (enough : 8 * row.length + 16 ≤ more) :
    Repeats rest (Closes 0 rest) (2 * row.length + 1) (Keyed Expr.erase) wholeExpression
      (Phrases.within more).expression row :=
  .forState (expression_repeats (Phrases.within_repeats enough rest) row)

theorem wholeQuery_repeats {more : Nat} (enough : 8 * row.length + 16 ≤ more) :
    Repeats rest (Past 10 rest) (2 * row.length + 1) (Keyed Query.erase) wholeQuery
      (Phrases.within more).query row :=
  .forState ((Phrases.within_repeats enough rest).query row)

/-- What is read with as many levels as the tokens left may need is read with that many. -/
theorem Gives.forState {rule : Phrases → Parse α} {left : List Kind}
    (gives : Gives (do rule (← Phrases.forState)) row a left) :
    Gives (rule (Phrases.within (8 * row.length + 16))) row a left := by
  obtain ⟨s, t, faces, faces', run⟩ := gives
  refine ⟨s, t, faces, faces', ?_⟩
  rw [← boundFor_eq faces.ahead_length]
  exact run

/-- A whole expression is read with some number of levels. -/
theorem Takes.within {expr : Expr} (takes : Takes wholeExpression row expr) :
    Takes (Phrases.within (8 * row.length + 16)).expression row expr :=
  Gives.forState takes

/-- Where more tokens follow there are more levels of recursion. -/
theorem Echoes.again {up : α → Nat} {rule : Phrases → Parse α} {rule' : Phrases → Parse β}
    (given : ∀ more ≥ 8 * row.length + 16, Echoes rest ends need same up
      (rule (Phrases.within (8 * row.length + 16))) (rule' (Phrases.within more)) row) :
    Echoes rest ends need same up (do rule (← Phrases.forState)) (do rule' (← Phrases.forState)) row where
  there s a t faces run := by
    have enough : 8 * (row ++ rest).length + 16 ≥ 8 * row.length + 16 := by
      rw [List.length_append]
      omega
    obtain ⟨left, faces', shorter, last, isThere, reads⟩ :=
      (Echoes.forState (given _ enough)).there s a t faces run
    exact ⟨left, faces', shorter, last, isThere, fun meets limit depth room =>
      .forState (reads meets limit depth room)⟩

theorem wholeExpression_again :
    Repeats rest (Closes 0 rest) (2 * row.length + 1) (Keyed Expr.erase) wholeExpression
      wholeExpression row :=
  .again fun _ enough => expression_repeats (Phrases.within_repeats enough rest) row

/-- An expression that is accepted in full is read where it stands as an expression. -/
theorem Takes.expression {expr : Expr} (takes : Takes wholeExpression row expr) {more : Nat}
    (enough : 8 * row.length + 16 ≤ more) (closes : Closes 0 rest)
    (apart : isJoint (lead rest) = false) (room : depth + (2 * row.length + 1) ≤ capOf limit) :
    Reads limit True (Phrases.within more).expression depth (row ++ rest)
      (fun e => e.erase = expr.erase) depth rest :=
  (wholeExpression_repeats enough).reads takes closes apart room

/-- A query that is accepted in full is read where it stands as a query. -/
theorem Takes.query {query : Query} (takes : Takes wholeQuery row query) {more : Nat}
    (enough : 8 * row.length + 16 ≤ more) (past : Past 10 rest)
    (apart : isJoint (lead rest) = false) (room : depth + (2 * row.length + 1) ≤ capOf limit) :
    Reads limit True (Phrases.within more).query depth (row ++ rest)
      (fun q => q.erase = query.erase) depth rest :=
  (wholeQuery_repeats enough).reads takes past apart room

end Parse

/-! ## Statements -/

/-- Tokens are no more than the characters of their text. -/
theorem Scan.Splits.length_le {text : List Char} {kinds : List Kind} (splits : Splits text kinds) :
    kinds.length ≤ text.length := by
  induction splits with
  | done => exact Nat.zero_le _
  | @token text rest after c kind kinds skipped scanned others ih =>
    have shorter := (skip_suffix skipped).length_le
    have consumed := (token_suffix c rest).length_le
    rw [scanned] at consumed
    simp only [List.length_cons] at shorter consumed ⊢
    omega

theorem length_le_utf8Len (text : List Char) : text.length ≤ String.utf8Len text := by
  induction text with
  | nil => exact Nat.zero_le _
  | cons c text ih =>
    have byte := c.utf8Size_pos
    rw [String.utf8Len_cons, List.length_cons]
    omega

/-- The cap on the recursion leaves room for all tokens of a text that a machine can hold. -/
theorem room_of_length {text : String} {kinds : List Kind} (splits : Scan.Splits text.toList kinds)
    (holds : text.utf8ByteSize < 2 ^ 63) (limit : Nat) (enough : kinds.length < limit) :
    2 * kinds.length + 1 ≤ capOf limit := by
  have characters := splits.length_le
  have bytes := length_le_utf8Len text.toList
  rw [String.utf8Len_toList] at bytes
  unfold capOf
  omega

namespace Statement

/-- A text is read if its statement is read and is no deeper than the limit. -/
theorem parse_of_parts {limit : Nat} {text : String} {kinds : List Kind} {good : Statement → Prop}
    (splits : Scan.Splits text.toList kinds)
    (reads : Parse.Reads limit True Parse.bareStatement 0 kinds good 0 [])
    (shallow : ∀ it, good it → (Outline.ofStatement it).depth ≤ limit) :
    ∃ it, parse limit text = .ok it ∧ good it := by
  have whole : Parse.Reads limit True Parse.statement 0 kinds good 0 [] := by
    refine reads.after fun it isGood => Parse.endOfText_reads.step ?_
    exact (Parse.checkDepth_reads (shallow it isGood)).step (.pure trivial isGood)
  rcases parse_of_reads splits whole with ⟨it, read, -, isGood⟩ | ⟨-, -, refused, -⟩
  · exact ⟨it, read, isGood⟩
  · exact absurd trivial refused

/-- A text is refused if its statement is. -/
theorem parse_of_refused {limit : Nat} {text : String} {kinds rest : List Kind}
    {good : Statement → Prop} (splits : Scan.Splits text.toList kinds)
    (reads : Parse.Reads limit False Parse.bareStatement 0 kinds good 0 rest) :
    ∃ failure, parse limit text = .error failure ∧ failure.IsUnexpected := by
  have whole : Parse.Reads limit False Parse.statement 0 kinds (fun _ => False) 0 [] :=
    reads.bind id fun holds => holds.elim
  rcases parse_of_reads splits whole with ⟨-, -, accepted, -⟩ | ⟨failure, refused, -, unexpected⟩
  · exact accepted.elim
  · exact ⟨failure, refused, unexpected⟩

end Statement

end CanonicalSql
