import CanonicalSql.Proofs.Reading.Names

/-!
# Rows told apart

Two rows of tokens *agree* if something is the same in what they stand for wherever the same text
begins with both of them, and they then have the same rest (`Agree`). A row that agrees with all
others of its sort can be told whatever follows it, and rows that agree may be put together.

What follows a row is limited, since a name goes on with a dot and a list with a comma. Where a
step of the grammar is known to read both rows, they agree because a step has one result
(`Parse.Reads.agree`).
-/
namespace CanonicalSql

/-- If the same text begins with both rows, with what may follow behind them, then `same` holds and
what follows is the same. -/
def Agree (ends : List Kind → Prop) (row row' : List Kind) (same : Prop) : Prop :=
  ∀ ⦃rest rest'⦄, ends rest → ends rest' → row ++ rest = row' ++ rest' → same ∧ rest = rest'

variable {ends mid : List Kind → Prop} {row row' further further' : List Kind} {same more : Prop}

namespace Agree

theorem mono {ends' : List Kind → Prop} {same' : Prop} (agree : Agree ends row row' same)
    (fewer : ∀ rest, ends' rest → ends rest) (weaker : same → same') :
    Agree ends' row row' same' := by
  intro rest rest' isEnd isEnd' eq
  obtain ⟨holds, eq⟩ := agree (fewer _ isEnd) (fewer _ isEnd') eq
  exact ⟨weaker holds, eq⟩

theorem symm (agree : Agree ends row row' same) : Agree ends row' row same := by
  intro rest rest' isEnd isEnd' eq
  obtain ⟨holds, eq⟩ := agree isEnd' isEnd eq.symm
  exact ⟨holds, eq.symm⟩

/-- Rows that begin with different tokens do not begin one text. -/
theorem of_lead (differ : ∀ rest rest', lead (row ++ rest) ≠ lead (row' ++ rest')) :
    Agree ends row row' same := by
  intro rest rest' _ _ eq
  exact absurd (congrArg lead eq) (differ rest rest')

theorem append (first : Agree mid row row' same) (second : Agree ends further further' more)
    (follows : ∀ rest, ends rest → mid (further ++ rest))
    (follows' : ∀ rest, ends rest → mid (further' ++ rest)) :
    Agree ends (row ++ further) (row' ++ further') (same ∧ more) := by
  intro rest rest' isEnd isEnd' eq
  rw [List.append_assoc, List.append_assoc] at eq
  obtain ⟨holds, eq⟩ := first (follows _ isEnd) (follows' _ isEnd') eq
  obtain ⟨others, eq⟩ := second isEnd isEnd' eq
  exact ⟨⟨holds, others⟩, eq⟩

theorem cons {kind kind' : Kind} (agree : Agree ends row row' same) :
    Agree ends (kind :: row) (kind' :: row') (kind = kind' ∧ same) := by
  intro rest rest' isEnd isEnd' eq
  obtain ⟨isKind, eq⟩ := List.cons.inj eq
  obtain ⟨holds, eq⟩ := agree isEnd isEnd' eq
  exact ⟨⟨isKind, holds⟩, eq⟩

theorem tail {kind : Kind} (agree : Agree ends row row' same) :
    Agree ends (kind :: row) (kind :: row') same :=
  agree.cons.mono (fun _ isEnd => isEnd) And.right

theorem nil : Agree ends [] [] True := by
  intro rest rest' _ _ eq
  exact ⟨trivial, eq⟩

/-- One token alone is told by itself. -/
theorem token (kind kind' : Kind) : Agree ends [kind] [kind'] (kind = kind') := by
  have none : Agree ends [] [] True := nil
  exact none.cons.mono (fun _ isEnd => isEnd) And.left

end Agree

/-- A closing parenthesis follows. -/
def Closed (rest : List Kind) : Prop := lead rest = .symbol .rightParen

theorem Closed.close (rest : List Kind) : Closed (.symbol .rightParen :: rest) := rfl

/-- Between parentheses a row needs no care for what follows them. -/
theorem Agree.parenthesized (agree : Agree Closed row row' same) :
    Agree ends (.symbol .leftParen :: (row ++ [.symbol .rightParen]))
      (.symbol .leftParen :: (row' ++ [.symbol .rightParen])) same := by
  intro rest rest' _ _ eq
  have eq : row ++ .symbol .rightParen :: rest = row' ++ .symbol .rightParen :: rest' := by
    simpa using eq
  obtain ⟨holds, eq⟩ := agree (.close rest) (.close rest') eq
  exact ⟨holds, (List.cons.inj eq).2⟩

/-! ## Steps have one result -/

/-- What a state shows is fixed by its tokens. -/
theorem State.Shows.unique {limit depth depth' : Nat} {kinds kinds' : List Kind} {s : State}
    (shows : s.Shows limit depth kinds) (shows' : s.Shows limit depth' kinds') :
    kinds = kinds' :=
  List.append_cancel_right (shows.tokens.symm.trans shows'.tokens)

/-- There is a state for each row of tokens. -/
theorem State.exists_shows (limit depth : Nat) (kinds : List Kind) :
    ∃ s : State, s.Shows limit depth kinds := by
  cases kinds with
  | nil =>
    exact ⟨⟨⟨.endOfInput, default⟩, default, [], none, false, 0, depth, limit⟩, rfl, rfl, rfl, rfl⟩
  | cons kind more =>
    let ahead : List Token := (more ++ [Kind.endOfInput]).map fun other => ⟨other, default⟩
    refine ⟨⟨⟨kind, default⟩, default, ahead, none, false, 0, depth, limit⟩, ?_, rfl, rfl, rfl⟩
    simp [ahead, Function.comp_def]

namespace Parse

/-- Two accounts of one step on one row of tokens speak of the same result and the same rest. -/
theorem Reads.agree {α : Type} {p : Parse α} {limit depth depth' depth'' : Nat}
    {kinds rest rest' : List Kind} {good good' : α → Prop}
    (reads : Reads limit True p depth kinds good depth' rest)
    (reads' : Reads limit True p depth kinds good' depth'' rest') :
    (∃ it, good it ∧ good' it) ∧ rest = rest' := by
  obtain ⟨s, shows⟩ := State.exists_shows limit depth kinds
  cases run : p s with
  | error failure s' => exact absurd trivial (reads.error s failure s' shows run).1
  | ok it s' =>
    obtain ⟨-, holds, left⟩ := reads.ok s it s' shows run
    obtain ⟨-, holds', left'⟩ := reads'.ok s it s' shows run
    exact ⟨⟨it, holds, holds'⟩, left.unique left'⟩

/-- Rows agree from which a step reads values that are known as far as the view goes. -/
theorem agree_of_views {α β : Type} {p : Parse α} {view : α → β} (limit depth : Nat)
    {value value' : β}
    (reads : ∀ rest, ends rest →
      Reads limit True p depth (row ++ rest) (fun it => view it = value) depth rest)
    (reads' : ∀ rest, ends rest →
      Reads limit True p depth (row' ++ rest) (fun it => view it = value') depth rest) :
    Agree ends row row' (value = value') := by
  intro rest rest' isEnd isEnd' eq
  have one := reads rest isEnd
  rw [eq] at one
  obtain ⟨⟨_, rfl, rfl⟩, eq⟩ := one.agree (reads' rest' isEnd')
  exact ⟨rfl, eq⟩

/-- Rows agree from which a step reads known values. -/
theorem agree_of_reads {α : Type} {p : Parse α} (limit depth : Nat) {value value' : α}
    (reads : ∀ rest, ends rest → Reads limit True p depth (row ++ rest) (· = value) depth rest)
    (reads' : ∀ rest, ends rest → Reads limit True p depth (row' ++ rest) (· = value') depth rest) :
    Agree ends row row' (value = value') :=
  agree_of_views limit depth reads reads'

end Parse

/-! ## Names -/

/-- What follows does not go on with a qualified name. -/
def EndsName (rest : List Kind) : Prop :=
  ∀ part more, rest ≠ .symbol .dot :: .identifier part :: more

theorem EndsName.of_lead {rest : List Kind} (noDot : lead rest ≠ .symbol .dot) :
    EndsName rest := by
  rintro part more rfl
  exact noDot rfl

theorem Piece.dotRows_agree (parts parts' : List Name) :
    Agree EndsName (dotRows parts) (dotRows parts') (parts = parts') := by
  induction parts generalizing parts' with
  | nil =>
    cases parts' with
    | nil => exact Agree.nil.mono (fun _ isEnd => isEnd) fun _ => rfl
    | cons part' parts' =>
      intro rest rest' isEnd _ eq
      exact absurd eq (isEnd part' _)
  | cons part parts ih =>
    cases parts' with
    | nil =>
      intro rest rest' _ isEnd' eq
      exact absurd eq.symm (isEnd' part _)
    | cons part' parts' =>
      have further : Agree EndsName (.identifier part :: dotRows parts)
          (.identifier part' :: dotRows parts') (Kind.identifier part = .identifier part' ∧ parts = parts') :=
        (ih parts').cons
      exact further.tail.mono (fun _ isEnd => isEnd) (by simp)

theorem Piece.qualified_agree (name name' : QualifiedName) :
    Agree EndsName (kinds (qualified name)) (kinds (qualified name')) (name = name') := by
  obtain ⟨part, parts, isParts⟩ := name.parts_eq_cons
  obtain ⟨part', parts', isParts'⟩ := name'.parts_eq_cons
  rw [kinds_qualified isParts, kinds_qualified isParts']
  refine (dotRows_agree parts parts').cons.mono (fun _ isEnd => isEnd) ?_
  rintro ⟨isPart, rfl⟩
  cases isPart
  rw [← name.ofParts_parts, ← name'.ofParts_parts, isParts, isParts']

/-! ## Lists -/

section

variable {α β : Type} {text : α → List Kind} {view : α → β} {items items' : List α}

open Parse (commaRows)

/-- What may follow a list is what may follow its items, but no comma. -/
def EndsList (ends : List Kind → Prop) (rest : List Kind) : Prop :=
  ends rest ∧ lead rest ≠ .symbol .comma

/-- The items after the first one, each after its comma. The induction is on both lists at once. -/
theorem commaRows_agree (comma : ∀ rest, ends (.symbol .comma :: rest))
    (each : ∀ one ∈ items, ∀ other ∈ items',
      Agree ends (text one) (text other) (view one = view other)) :
    Agree (EndsList ends) (commaRows (items.map text)) (commaRows (items'.map text))
      (items.map view = items'.map view) := by
  induction items generalizing items' with
  | nil =>
    -- a list that ends first is followed by a comma in the other text, and by none here
    cases items' with
    | nil => exact Agree.nil.mono (fun _ isEnd => isEnd) fun _ => rfl
    | cons other items' =>
      rintro _ rest' ⟨-, noComma⟩ _ rfl
      exact absurd rfl noComma
  | cons one items ih =>
    cases items' with
    | nil =>
      rintro rest _ _ ⟨-, noComma⟩ rfl
      exact absurd rfl noComma
    | cons other items' =>
      have first := each one List.mem_cons_self other List.mem_cons_self
      have others := ih fun one member other member' =>
        each one (List.mem_cons_of_mem _ member) other (List.mem_cons_of_mem _ member')
      have both (items : List α) (rest : List Kind) (isEnd : EndsList ends rest) :
          ends (commaRows (items.map text) ++ rest) := by
        cases items with
        | nil => exact isEnd.1
        | cons it items => exact comma _
      refine (first.append others (both items) (both items')).tail.mono (fun _ isEnd => isEnd) ?_
      rintro ⟨sameFirst, sameOthers⟩
      rw [List.map_cons, List.map_cons, sameFirst, sameOthers]

variable {pieces : α → List Piece}

/-- Lists of one or more items. -/
theorem list_agree (nonempty : items ≠ []) (nonempty' : items' ≠ [])
    (comma : ∀ rest, ends (.symbol .comma :: rest))
    (each : ∀ one ∈ items, ∀ other ∈ items',
      Agree ends (Piece.kinds (pieces one)) (Piece.kinds (pieces other)) (view one = view other)) :
    Agree (EndsList ends) (Piece.kinds (Piece.commaSeparated (items.map pieces)))
      (Piece.kinds (Piece.commaSeparated (items'.map pieces)))
      (items.map view = items'.map view) := by
  -- with a comma in front the first item is one of those after a comma
  have text (items : List α) (nonempty : items ≠ []) :
      commaRows (items.map fun it => Piece.kinds (pieces it)) =
        .symbol .comma :: Piece.kinds (Piece.commaSeparated (items.map pieces)) := by
    obtain ⟨it, others, rfl⟩ := List.exists_cons_of_ne_nil nonempty
    simp [commaRows, Function.comp_def]
  have agree := commaRows_agree comma each
  rw [text items nonempty, text items' nonempty'] at agree
  intro rest rest' isEnd isEnd' eq
  exact agree isEnd isEnd' (congrArg (Kind.symbol .comma :: ·) eq)

/-- Lists that may be empty, up to a closing parenthesis, with which no item begins. -/
theorem closedList_agree (comma : ∀ rest, ends (.symbol .comma :: rest))
    (close : ∀ rest, Closed rest → ends rest)
    (begins : ∀ it ∈ items ++ items', ∀ rest,
      lead (Piece.kinds (pieces it) ++ rest) ≠ .symbol .rightParen)
    (each : ∀ one ∈ items, ∀ other ∈ items',
      Agree ends (Piece.kinds (pieces one)) (Piece.kinds (pieces other)) (view one = view other)) :
    Agree Closed (Piece.kinds (Piece.commaSeparated (items.map pieces)))
      (Piece.kinds (Piece.commaSeparated (items'.map pieces)))
      (items.map view = items'.map view) := by
  have opens (items : List α) (it : α) (rest : List Kind) :
      ∃ more, Piece.kinds (Piece.commaSeparated ((it :: items).map pieces)) ++ rest =
        Piece.kinds (pieces it) ++ more := by
    simp [List.append_assoc]
  cases items with
  | nil =>
    cases items' with
    | nil => exact Agree.nil.mono (fun _ isEnd => isEnd) fun _ => rfl
    | cons other items' =>
      rintro _ rest' closed _ rfl
      obtain ⟨more, isText⟩ := opens items' other rest'
      rw [isText] at closed
      exact absurd closed (begins other List.mem_cons_self more)
  | cons one items =>
    cases items' with
    | nil =>
      rintro rest _ _ closed rfl
      obtain ⟨more, isText⟩ := opens items one rest
      rw [isText] at closed
      exact absurd closed (begins one List.mem_cons_self more)
    | cons other items' =>
      refine (list_agree (by simp) (by simp) comma each).mono ?_ id
      intro rest closed
      exact ⟨close rest closed, by rw [closed]; simp⟩

/-- A clause that is left out if its list is empty. -/
theorem clause_agree {word : Keyword} {words : List Keyword}
    (comma : ∀ rest, ends (.symbol .comma :: rest))
    (each : ∀ one ∈ items, ∀ other ∈ items',
      Agree ends (Piece.kinds (pieces one)) (Piece.kinds (pieces other)) (view one = view other)) :
    Agree (fun rest => EndsList ends rest ∧ lead rest ≠ .keyword word)
      ((Canonical.clause (word :: words) (items.map pieces)).flatMap Piece.kinds)
      ((Canonical.clause (word :: words) (items'.map pieces)).flatMap Piece.kinds)
      (items.map view = items'.map view) := by
  have text (it : α) (items : List α) :
      (Canonical.clause (word :: words) ((it :: items).map pieces)).flatMap Piece.kinds =
        .keyword word :: (words.map .keyword ++
          Piece.kinds (Piece.commaSeparated ((it :: items).map pieces))) := by
    simp [Canonical.clause]
  cases items with
  | nil =>
    cases items' with
    | nil => exact Agree.nil.mono (fun _ isEnd => isEnd) fun _ => rfl
    | cons other items' =>
      rintro _ rest' ⟨-, noWord⟩ _ rfl
      rw [text] at noWord
      exact absurd rfl noWord
  | cons one items =>
    cases items' with
    | nil =>
      rintro rest _ _ ⟨-, noWord⟩ rfl
      rw [text] at noWord
      exact absurd rfl noWord
    | cons other items' =>
      rw [text, text]
      have list := list_agree (List.cons_ne_nil one items) (List.cons_ne_nil other items') comma each
      have both : ∀ words : List Kind, Agree (EndsList ends)
          (words ++ Piece.kinds (Piece.commaSeparated ((one :: items).map pieces)))
          (words ++ Piece.kinds (Piece.commaSeparated ((other :: items').map pieces)))
          ((one :: items).map view = (other :: items').map view) := by
        intro words
        induction words with
        | nil => exact list
        | cons word words ih => exact ih.tail
      exact (both _).tail.mono (fun _ isEnd => isEnd.1) id

end

/-- A row that is left out if the value is absent, and begins with a word of its own if not. -/
theorem option_agree {α β : Type} {word : Keyword} {text : α → List Kind} {view : α → β}
    {one other : Option α}
    (each : ∀ it ∈ one, ∀ it' ∈ other, Agree ends (text it) (text it') (view it = view it')) :
    Agree (fun rest => ends rest ∧ lead rest ≠ .keyword word)
      (one.elim [] fun it => .keyword word :: text it)
      (other.elim [] fun it => .keyword word :: text it) (one.map view = other.map view) := by
  cases one with
  | none =>
    cases other with
    | none => exact Agree.nil.mono (fun _ isEnd => isEnd) fun _ => rfl
    | some it' =>
      rintro _ rest' ⟨-, noWord⟩ _ rfl
      exact absurd rfl noWord
  | some it =>
    cases other with
    | none =>
      rintro rest _ _ ⟨-, noWord⟩ rfl
      exact absurd rfl noWord
    | some it' =>
      refine (each it rfl it' rfl).tail.mono (fun _ isEnd => isEnd.1) ?_
      intro same
      rw [Option.map_some, Option.map_some, same]

/-! ## Names between parentheses, and quantifiers -/

theorem columns_agree (columns columns' : List Name) :
    Agree (fun rest => lead rest ≠ .symbol .leftParen)
      (Piece.kinds (Canonical.when (!columns.isEmpty) (Piece.names columns)))
      (Piece.kinds (Canonical.when (!columns'.isEmpty) (Piece.names columns')))
      (columns = columns') :=
  Parse.agree_of_reads 0 0 (fun _ => Parse.optionalNames_reads columns)
    fun _ => Parse.optionalNames_reads columns'

theorem quantifier_agree (quantifier quantifier' : Option SetQuantifier) :
    Agree (fun rest => lead rest ≠ .keyword .ALL ∧ lead rest ≠ .keyword .DISTINCT)
      (Piece.kinds (Canonical.ofQuantifier quantifier))
      (Piece.kinds (Canonical.ofQuantifier quantifier')) (quantifier = quantifier') :=
  Parse.agree_of_reads 0 0 (fun _ ends => Parse.setQuantifier_reads quantifier ends.1 ends.2)
    fun _ ends => Parse.setQuantifier_reads quantifier' ends.1 ends.2

end CanonicalSql
