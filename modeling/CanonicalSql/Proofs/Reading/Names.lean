import CanonicalSql.Canonical.Expr
import CanonicalSql.Proofs.Reading.Basic

/-!
# Tokens of canonical rows, and names read from them

The tokens of a row of pieces, worked out for each way of putting rows together, and the
rules of the grammar that read names, quantifiers and aliases.
-/
namespace CanonicalSql

namespace Piece

/-! ## The tokens of rows -/

@[simp] theorem kinds_nil : kinds [] = [] := rfl

@[simp] theorem kinds_space_cons (row : List Piece) : kinds (.space :: row) = kinds row := rfl

@[simp] theorem kinds_token_cons (kind : Kind) (row : List Piece) :
    kinds (.token kind :: row) = kind :: kinds row := rfl

@[simp] theorem kinds_word_cons (keyword : Keyword) (row : List Piece) :
    kinds (word keyword :: row) = .keyword keyword :: kinds row := rfl

@[simp] theorem kinds_sign_cons (symbol : Symbol) (row : List Piece) :
    kinds (sign symbol :: row) = .symbol symbol :: kinds row := rfl

@[simp] theorem kinds_name_cons (name : Name) (row : List Piece) :
    kinds (Piece.name name :: row) = .identifier name :: kinds row := rfl

@[simp] theorem kinds_number_cons (value : Nat) (row : List Piece) :
    kinds (number value :: row) = .integer value :: kinds row := rfl

attribute [simp] kinds_append

@[simp] theorem kinds_after (row : List Piece) : kinds (after row) = kinds row := rfl

@[simp] theorem kinds_parenthesized (row : List Piece) :
    kinds (parenthesized row) = .symbol .leftParen :: (kinds row ++ [.symbol .rightParen]) := by
  simp [parenthesized]

@[simp] theorem kinds_words (keywords : List Keyword) :
    kinds (words keywords) = keywords.map .keyword := by
  induction keywords with
  | nil => rfl
  | cons word rest ih =>
    cases rest with
    | nil => rfl
    | cons next rest => exact congrArg (Kind.keyword word :: ·) ih

@[simp] theorem kinds_flatMap {α : Type} (pieces : α → List Piece) (items : List α) :
    kinds (items.flatMap pieces) = items.flatMap fun it => kinds (pieces it) := by
  induction items with
  | nil => rfl
  | cons it items ih => simp [ih]

@[simp] theorem kinds_spaced (rows : List (List Piece)) :
    kinds (spaced rows) = rows.flatMap kinds := by
  induction rows with
  | nil => rfl
  | cons row rest ih =>
    cases rest with
    | nil => simp [spaced]
    | cons next rest => simpa [spaced] using ih

@[simp] theorem kinds_commaSeparated_nil : kinds (commaSeparated []) = [] := rfl

@[simp] theorem kinds_commaSeparated_cons (row : List Piece) (rows : List (List Piece)) :
    kinds (commaSeparated (row :: rows)) = kinds row ++ Parse.commaRows (rows.map kinds) := by
  induction rows generalizing row with
  | nil => simp [commaSeparated, Parse.commaRows]
  | cons next rows ih => simp [commaSeparated, ih next, Parse.commaRows]

/-- An item is no longer than the list that it stands in. -/
theorem length_item_le {α : Type} (pieces : α → List Piece) {it : α} {items : List α}
    (member : it ∈ items) :
    (kinds (pieces it)).length ≤ (kinds (commaSeparated (items.map pieces))).length := by
  induction items with
  | nil => cases member
  | cons first items ih =>
    rcases List.mem_cons.mp member with rfl | member
    · simp
    · have shorter := ih member
      cases items with
      | nil => cases member
      | cons next items =>
        simp only [List.map_cons, kinds_commaSeparated_cons, List.length_append,
          Parse.commaRows, List.flatMap_cons, List.length_cons] at shorter ⊢
        omega

/-- The parts of a name after its first one, each with the dot before it. -/
def dotRows (parts : List Name) : List Kind :=
  parts.flatMap fun part => [.symbol .dot, .identifier part]

theorem kinds_dotted (part : Name) (parts : List Name) :
    kinds (((part :: parts).map Piece.name).intersperse (sign .dot)) =
      .identifier part :: dotRows parts := by
  induction parts generalizing part with
  | nil => rfl
  | cons next parts ih =>
    exact congrArg (fun rest => Kind.identifier part :: .symbol .dot :: rest) (ih next)

theorem kinds_qualified {name : QualifiedName} {part : Name} {parts : List Name}
    (isParts : name.parts = part :: parts) :
    kinds (qualified name) = .identifier part :: dotRows parts := by
  rw [qualified, isParts]
  exact kinds_dotted part parts

end Piece

theorem QualifiedName.parts_eq_cons (name : QualifiedName) :
    ∃ part parts, name.parts = part :: parts := by
  cases isParts : name.parts with
  | nil => simp [QualifiedName.parts] at isParts
  | cons part parts => exact ⟨part, parts, rfl⟩

/-- A qualified name begins with a name. -/
theorem Piece.lead_qualified (name : QualifiedName) (rest : List Kind) :
    ∃ part more, Piece.kinds (Piece.qualified name) ++ rest = .identifier part :: more := by
  obtain ⟨part, parts, isParts⟩ := name.parts_eq_cons
  exact ⟨part, _, by rw [kinds_qualified isParts]; rfl⟩

namespace Parse

variable {limit depth : Nat} {kinds rest : List Kind}

/-! ## Names -/

/-- The parts after dots. The induction is on the parts still to be read. -/
theorem partsAfterDot_loops (stops : lead rest ≠ .symbol .dot) (parts done : List Name) :
    Loops limit True partAfterDot done depth (Piece.dotRows parts ++ rest)
      (· = done ++ parts) depth rest := by
  induction parts generalizing done with
  | nil => exact .stop ((takeSign_no stops).step (.pure trivial rfl)) trivial (by simp)
  | cons part parts ih =>
    have text : Piece.dotRows (part :: parts) ++ rest =
        .symbol .dot :: .identifier part :: (Piece.dotRows parts ++ rest) := rfl
    rw [text]
    have round : Reads limit True (partAfterDot done) depth
        (.symbol .dot :: .identifier part :: (Piece.dotRows parts ++ rest))
        (fun next => ∃ them, next = some them ∧ them = done ++ [part]) depth
        (Piece.dotRows parts ++ rest) :=
      (takeSign_yes .dot).step ((identifier_reads part).step (.pure trivial ⟨_, rfl, rfl⟩))
    refine .next round id (by simp only [List.length_cons]; omega) ?_
    rintro - them rfl
    simpa using ih (done ++ [part])

theorem qualifiedName_reads (name : QualifiedName) (stops : lead rest ≠ .symbol .dot) :
    Reads limit True qualifiedName depth (Piece.kinds (Piece.qualified name) ++ rest)
      (· = name) depth rest := by
  obtain ⟨part, parts, isParts⟩ := name.parts_eq_cons
  rw [Piece.kinds_qualified isParts]
  refine (identifier_reads part).step ?_
  refine (partsAfterDot_loops stops parts [part]).loop.step (.pure trivial ?_)
  rw [List.singleton_append, ← isParts]
  exact name.ofParts_parts

/-- Rows of pieces between commas are read item by item, each item up to the comma after it
or up to the end of the list. -/
theorem Reads.list {α γ : Type} {accepts : α → Prop} {item : Parse α}
    {pieces : α → List Piece} {key : α → γ} {items : List α} (nonempty : items ≠ [])
    (stops : lead rest ≠ .symbol .comma)
    (reads : ∀ it ∈ items, ∀ more, lead more = .symbol .comma ∨ more = rest →
      Reads limit (accepts it) item depth (Piece.kinds (pieces it) ++ more)
        (fun a => key a = key it) depth more) :
    Reads limit (∀ it ∈ items, accepts it) (commaSeparated item) depth
      (Piece.kinds (Piece.commaSeparated (items.map pieces)) ++ rest)
      (fun them => them.map key = items.map key) depth rest := by
  cases items with
  | nil => exact absurd rfl nonempty
  | cons it items =>
    have text : Piece.kinds (Piece.commaSeparated ((it :: items).map pieces)) ++ rest =
        Piece.kinds (pieces it) ++
          (commaRows (items.map fun it => Piece.kinds (pieces it)) ++ rest) := by
      simp [Function.comp_def]
    rw [text]
    exact commaSeparated_reads stops fun other member =>
      ⟨fun more after => reads other member more after⟩

theorem names_reads {names : List Name} (nonempty : names ≠ []) :
    Reads limit True Parse.names depth (Piece.kinds (Piece.names names) ++ rest)
      (· = names) depth rest := by
  have list : Reads limit True (commaSeparated identifier) depth
      (Piece.kinds (Piece.commaSeparated (names.map fun name => [Piece.name name])) ++
        .symbol .rightParen :: rest) (· = names) depth (.symbol .rightParen :: rest) := by
    have items : Reads limit (∀ name ∈ names, True) (commaSeparated identifier) depth
        (Piece.kinds (Piece.commaSeparated (names.map fun name => [Piece.name name])) ++
          .symbol .rightParen :: rest) (fun them => them.map id = names.map id) depth
        (.symbol .rightParen :: rest) :=
      Reads.list nonempty (by simp) fun name _ more _ => identifier_reads name
    exact items.mono (by simp) fun them same => by simpa using same
  have text : Piece.kinds (Piece.names names) ++ rest = .symbol .leftParen ::
      (Piece.kinds (Piece.commaSeparated (names.map fun name => [Piece.name name])) ++
        .symbol .rightParen :: rest) := by
    simp [Piece.names]
  rw [text]
  exact list.parenthesized

/-- A list of columns is left out if it is empty. -/
theorem optionalNames_reads (names : List Name) (stops : lead rest ≠ .symbol .leftParen) :
    Reads limit True optionalNames depth
      (Piece.kinds (Canonical.when (!names.isEmpty) (Piece.names names)) ++ rest) (· = names)
      depth rest := by
  cases names with
  | nil => exact (atSign_no stops).step (.pure trivial rfl)
  | cons name names =>
    show Reads limit True optionalNames depth
      (Piece.kinds (Piece.names (name :: names)) ++ rest) (· = name :: names) depth rest
    exact (atSign_yes (by simp [Piece.names])).step (names_reads (by simp))

theorem setQuantifier_reads (quantifier : Option SetQuantifier)
    (notAll : lead rest ≠ .keyword .ALL) (notDistinct : lead rest ≠ .keyword .DISTINCT) :
    Reads limit True setQuantifier depth
      (Piece.kinds (Canonical.ofQuantifier quantifier) ++ rest) (· = quantifier) depth rest := by
  cases quantifier with
  | none =>
    exact (takeWord_no notAll).step ((takeWord_no notDistinct).step (.pure trivial rfl))
  | some quantifier =>
    cases quantifier with
    | all => exact (takeWord_yes .ALL).step (.pure trivial rfl)
    | distinct =>
      show Reads limit True setQuantifier depth (.keyword .DISTINCT :: rest)
        (· = some .distinct) depth rest
      exact (takeWord_no (by simp)).step ((takeWord_yes .DISTINCT).step (.pure trivial rfl))

/-- An alias stands after `AS` in canonical text. -/
theorem optionalAlias_reads (name : Name) :
    Reads limit True optionalAlias depth (.keyword .AS :: .identifier name :: rest)
      (· = some name) depth rest :=
  (takeWord_yes .AS).step ((identifier_reads name).step (.pure trivial rfl))

theorem optionalAlias_none (notAs : lead kinds ≠ .keyword .AS)
    (noName : (lead kinds).isIdentifier = false) :
    Reads limit True optionalAlias depth kinds (· = none) depth kinds := by
  refine (takeWord_no notAs).step (kind_reads.step ?_)
  rw [noName]
  exact .pure trivial rfl

end Parse

end CanonicalSql
