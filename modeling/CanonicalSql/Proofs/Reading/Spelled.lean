import CanonicalSql.Proofs.Reading.Primary

/-!
# Names as they may be spelled

A name is spelled by an identifier, or by a keyword that is not reserved. Canonical text has
identifiers only; a text that is not canonical may have both.
-/
namespace CanonicalSql

namespace Parse

/-- The tokens behind the first one of a qualified name, each with the dot before it. -/
def dotted (kinds : List Kind) : List Kind :=
  kinds.flatMap fun kind => [.symbol .dot, kind]

end Parse

/-- A row of tokens that spells a qualified name. -/
inductive QualifiedName.IsSpelled (name : QualifiedName) : List Kind → Prop
  | intro {kind : Kind} {others : List Kind}
    (parts : (kind :: others).map Kind.name? = name.parts.map some) :
    IsSpelled name (kind :: Parse.dotted others)

/-- A row of tokens that spells names in parentheses, one at least. -/
inductive Name.AreListed (names : List Name) : List Kind → Prop
  | intro {kind : Kind} {others : List Kind} (each : (kind :: others).map Kind.name? = names.map some) :
    AreListed names (.symbol .leftParen :: kind ::
      (Parse.commaRows (others.map ([·])) ++ [.symbol .rightParen]))

/-- Names in parentheses, or nothing if there are none. -/
def Name.MayBeListed (names : List Name) (row : List Kind) : Prop :=
  names = [] ∧ row = [] ∨ Name.AreListed names row

theorem Kind.free_of_name? {word : Keyword} {name : Name}
    (spells : (Kind.keyword word).name? = some name) : word.isReserved = false := by
  by_contra isReserved
  simp [name?, isReserved] at spells

namespace QualifiedName.IsSpelled

variable {name : QualifiedName} {row : List Kind}

theorem nonempty (spelled : name.IsSpelled row) : row ≠ [] := by
  cases spelled
  simp

theorem lead_name? (spelled : name.IsSpelled row) : ∃ part, (lead row).name? = some part := by
  obtain @⟨kind, others, spells⟩ := spelled
  obtain ⟨part, parts, isParts⟩ := name.parts_eq_cons
  rw [isParts] at spells
  exact ⟨part, (List.cons.inj spells).1⟩

end QualifiedName.IsSpelled

/-- A name as canonical text has it. -/
theorem QualifiedName.isSpelled_qualified (name : QualifiedName) :
    name.IsSpelled (Piece.kinds (Piece.qualified name)) := by
  obtain ⟨part, parts, isParts⟩ := name.parts_eq_cons
  have others : Piece.dotRows parts = Parse.dotted (parts.map .identifier) := by
    simp [Piece.dotRows, Parse.dotted, List.flatMap_map]
  rw [Piece.kinds_qualified isParts, others]
  refine .intro ?_
  simp [isParts, Function.comp_def, Kind.name?]

namespace Parse

variable {limit depth : Nat} {rest : List Kind}

theorem identifier_spelled {kind : Kind} {name : Name} (spells : kind.name? = some name) :
    Reads limit True identifier depth (kind :: rest) (· = name) depth rest := by
  refine kind_reads.step ?_
  rw [lead_cons, spells]
  exact advance_reads.after fun _ _ => .pure trivial rfl

/-- Names between commas. Which names they are is told by the tokens one by one. -/
theorem names_listed {names : List Name} {row : List Kind} (listed : Name.AreListed names row) :
    Reads limit True Parse.names depth (row ++ rest) (· = names) depth rest := by
  obtain @⟨kind, others, each⟩ := listed
  have isName : ∀ other ∈ kind :: others, ∃ name, other.name? = some name := by
    intro other member
    have spells : other.name? ∈ names.map some := each ▸ List.mem_map_of_mem member
    obtain ⟨name, -, same⟩ := List.mem_map.mp spells
    exact ⟨name, same.symm⟩
  have item : ∀ other ∈ kind :: others, ∀ more,
      lead more = .symbol .comma ∨ more = .symbol .rightParen :: rest →
      Reads limit True identifier depth ([other] ++ more) (fun name => other.name? = some name) depth
        more := by
    intro other member more _
    obtain ⟨name, spells⟩ := isName other member
    exact (identifier_spelled spells).mono Iff.rfl fun found same => by rw [spells, same]
  have list : Reads limit True (commaSeparated identifier) depth
      (kind :: (commaRows (others.map ([·])) ++ .symbol .rightParen :: rest)) (· = names) depth
      (.symbol .rightParen :: rest) := by
    refine (items_reads (by simp) item).mono (by simp) fun found agree => ?_
    have same : (kind :: others).map Kind.name? = found.map some := by
      rw [← List.forall₂_eq_eq_eq, List.forall₂_map_left_iff, List.forall₂_map_right_iff]
      exact agree
    exact List.map_injective_iff.mpr (Option.some_injective Name) (same.symm.trans each)
  simp only [List.cons_append, List.append_assoc, List.nil_append]
  exact list.parenthesized

theorem optionalNames_listed {names : List Name} {row : List Kind}
    (listed : Name.MayBeListed names row) (stops : lead rest ≠ .symbol .leftParen) :
    Reads limit True optionalNames depth (row ++ rest) (· = names) depth rest := by
  rcases listed with ⟨rfl, rfl⟩ | listed
  · exact (atSign_no stops).step (.pure trivial rfl)
  · have opens : lead (row ++ rest) = .symbol .leftParen := by
      cases listed
      rfl
    exact (atSign_yes opens).step (names_listed listed)

theorem ne_of_spells {kind other : Kind} {name : Name} (spells : kind.name? = some name)
    (noName : other.name? = none) : kind ≠ other := by
  rintro rfl
  rw [spells] at noName
  cases noName

/-- The parts behind the first one are read one by one, by a rule for one more part. The induction
is on the parts still to be read. -/
theorem dotted_loops {σ : Type} {step : σ → Parse (Option σ)} (done : List Name → σ)
    (part : ∀ {kind name rest before}, kind.name? = some name →
      Reads limit True (step (done before)) depth (.symbol .dot :: kind :: rest)
        (· = some (done (before ++ [name]))) depth rest)
    (last : ∀ before, Reads limit True (step (done before)) depth rest (· = none) depth rest)
    {kinds : List Kind} {parts : List Name} (spelled : kinds.map Kind.name? = parts.map some)
    (before : List Name) :
    Loops limit True step (done before) depth (dotted kinds ++ rest) (· = done (before ++ parts))
      depth rest := by
  induction kinds generalizing parts before with
  | nil =>
    obtain rfl : parts = [] := by simpa using spelled.symm
    exact .stop (last before) trivial (by rw [List.append_nil])
  | cons kind kinds ih =>
    obtain _ | ⟨name, parts⟩ := parts
    · cases spelled
    obtain ⟨isName, others⟩ := List.cons.inj spelled
    have round : Reads limit True (step (done before)) depth
        (.symbol .dot :: kind :: (dotted kinds ++ rest))
        (fun next => ∃ them, next = some them ∧ them = done (before ++ [name])) depth
        (dotted kinds ++ rest) :=
      (part isName).mono Iff.rfl fun next isNext => ⟨_, isNext, rfl⟩
    change Loops limit True step (done before) depth (.symbol .dot :: kind :: (dotted kinds ++ rest))
      (· = done (before ++ name :: parts)) depth rest
    refine .next round id (by simp only [List.length_cons]; omega) ?_
    rintro - them rfl
    have further := ih others (before ++ [name])
    rwa [List.append_assoc] at further

theorem qualifiedName_spelled {name : QualifiedName} {row : List Kind} (spelled : name.IsSpelled row)
    (stops : lead rest ≠ .symbol .dot) :
    Reads limit True qualifiedName depth (row ++ rest) (· = name) depth rest := by
  obtain ⟨part, parts, isParts⟩ := name.parts_eq_cons
  obtain @⟨kind, others, spells⟩ := spelled
  rw [isParts] at spells
  obtain ⟨isFirst, areOthers⟩ := List.cons.inj spells
  refine (identifier_spelled isFirst).step ?_
  have loops : Loops limit True partAfterDot [part] depth (dotted others ++ rest)
      (· = [part] ++ parts) depth rest := by
    refine dotted_loops id (fun isName => ?_) (fun before => ?_) areOthers [part]
    · exact (takeSign_yes .dot).step ((identifier_spelled isName).step (.pure trivial rfl))
    · exact (takeSign_no stops).step (.pure trivial rfl)
  refine loops.loop.step (.pure trivial ?_)
  rw [List.singleton_append, ← isParts]
  exact name.ofParts_parts

theorem column_spelled {name : QualifiedName} {row : List Kind} (spelled : name.IsSpelled row)
    (stops : Stops rest) :
    Reads limit True column depth (row ++ rest) (fun e => e.erase = .column name default) depth
      rest := by
  obtain ⟨part, parts, isParts⟩ := name.parts_eq_cons
  obtain @⟨kind, others, spells⟩ := spelled
  rw [isParts] at spells
  obtain ⟨isFirst, areOthers⟩ := List.cons.inj spells
  refine .still here_still fun start => (identifier_spelled isFirst).step ?_
  have loops : Loops limit True columnPart ([part], false) depth (dotted others ++ rest)
      (· = ([part] ++ parts, false)) depth rest := by
    refine dotted_loops (·, false) (fun {kind _ more _} isName => ?_) (fun before => ?_) areOthers
      [part]
    · have noStar : lead (kind :: more) ≠ .symbol .star := ne_of_spells isName rfl
      exact (takeSign_yes .dot).step ((takeSign_no noStar).step
        ((identifier_spelled isName).step (.pure trivial rfl)))
    · exact (takeSign_no stops.dot).step (.pure trivial rfl)
  refine loops.loop.step ?_
  refine (atSign_no stops.paren).step (.still (spanFrom_still start) fun _ => ?_)
  rw [List.singleton_append, ← isParts, name.ofParts_parts]
  exact .pure trivial (by simp [Expr.erase])

end Parse

end CanonicalSql
