import CanonicalSql.Grammar.DataType
import CanonicalSql.Proofs.Image.Basic
import CanonicalSql.Tree.Statement

/-!
# Levels of data types

A data type is no part of the depth of a tree, yet the grammar enters a level of recursion
for each type, for the types of the fields of a row, and for each suffix. `DataType.levels`
counts the levels that are entered at the same time, and a type that has been read has no
more of them than the cap allows (`dataType_climbs`).
-/
namespace CanonicalSql

namespace DataType

/-- The number of `ARRAY` and `MULTISET` at the end of a type. -/
def suffixes : DataType → Nat
  | .array element _ | .multiset element => element.suffixes + 1
  | _ => 0

mutual

/-- The levels of recursion that a type needs. -/
def levels : DataType → Nat
  | .row fields => fieldLevels fields + 1
  | .array element _ | .multiset element => max element.levels (element.suffixes + 1)
  | _ => 1

/-- The levels of recursion that the fields of a row need. -/
def fieldLevels : List (Name × DataType) → Nat
  | [] => 0
  | (_, type) :: rest => max type.levels (fieldLevels rest)

end

theorem levels_le_fieldLevels {field : Name × DataType} {fields : List (Name × DataType)}
    (member : field ∈ fields) : field.2.levels ≤ fieldLevels fields := by
  induction fields with
  | nil => cases member
  | cons other rest ih =>
    simp only [fieldLevels]
    rcases List.mem_cons.mp member with rfl | member
    · omega
    · have := ih member
      omega

theorem fieldLevels_le {fields : List (Name × DataType)} {bound : Nat}
    (all : ∀ field ∈ fields, field.2.levels ≤ bound) : fieldLevels fields ≤ bound := by
  induction fields with
  | nil => exact Nat.zero_le _
  | cons field rest ih =>
    have first := all field List.mem_cons_self
    have others := ih fun other member => all other (List.mem_cons_of_mem _ member)
    simp only [fieldLevels]
    omega

end DataType

/-- The types of all columns are no higher than the limit allows. -/
def Statement.TypesFit (limit : Nat) : Statement → Prop
  | .create definition => ∀ column ∈ definition.columns, column.dataType.levels ≤ capOf limit
  | _ => True

namespace Parse

variable {α β σ : Type} {limit depth : Nat}

/-- From the depth the step gives something good, if it gives anything; what is good may
hang on the depth at which it leaves. -/
def Climbs (limit depth : Nat) (p : Parse α) (good : α → Nat → Prop) : Prop :=
  ∀ s a s', s.limit = limit → s.depth = depth → p s = .ok a s' →
    s'.limit = limit ∧ good a s'.depth

/-- The step leaves at the depth at which it begins. -/
def Level (p : Parse α) : Prop :=
  ∀ limit depth, Climbs limit depth p fun _ after => after = depth

namespace Climbs

theorem pure {a : α} {good : α → Nat → Prop} (holds : good a depth) :
    Climbs limit depth (pure a) good := by
  rintro s b s' sameLimit rfl run
  cases run
  exact ⟨sameLimit, holds⟩

theorem bind {p : Parse α} {f : α → Parse β} {good : α → Nat → Prop}
    {better : β → Nat → Prop} (first : Climbs limit depth p good)
    (next : ∀ a after, good a after → Climbs limit after (f a) better) :
    Climbs limit depth (p >>= f) better := by
  intro s b s' sameLimit sameDepth run
  obtain ⟨a, middle, ran, run⟩ := ok_of_bind run
  obtain ⟨limitMiddle, holds⟩ := first s a middle sameLimit sameDepth ran
  exact next a _ holds middle b s' limitMiddle rfl run

theorem mono {p : Parse α} {good better : α → Nat → Prop} (given : Climbs limit depth p good)
    (weaker : ∀ a after, good a after → better a after) : Climbs limit depth p better := by
  intro s a s' sameLimit sameDepth run
  obtain ⟨limitAfter, holds⟩ := given s a s' sameLimit sameDepth run
  exact ⟨limitAfter, weaker a _ holds⟩

theorem ite {condition : Prop} [Decidable condition] {p q : Parse α} {good : α → Nat → Prop}
    (yes : Climbs limit depth p good) (no : Climbs limit depth q good) :
    Climbs limit depth (if condition then p else q) good := by
  split
  · exact yes
  · exact no

end Climbs

/-- A first step that stays at its depth. -/
theorem Level.then {p : Parse α} {f : α → Parse β} {better : β → Nat → Prop}
    (first : Level p) (next : ∀ a, Climbs limit depth (f a) better) :
    Climbs limit depth (p >>= f) better :=
  (first limit depth).bind fun a after same => by
    rw [same]
    exact next a

theorem Level.pure {a : α} : Level (pure a : Parse α) := fun _ _ => .pure rfl

theorem Level.bind {p : Parse α} {f : α → Parse β} (first : Level p)
    (next : ∀ a, Level (f a)) : Level (p >>= f) :=
  fun limit depth => first.then fun a => next a limit depth

theorem Level.ite {condition : Prop} [Decidable condition] {p q : Parse α} (yes : Level p)
    (no : Level q) : Level (if condition then p else q) :=
  fun limit depth => .ite (yes limit depth) (no limit depth)

/-! ## Looking and taking -/

theorem Looks.level {p : Parse α} {found : Kind → α} (looks : Looks p found) : Level p := by
  rintro limit depth s a s' sameLimit sameDepth run
  rw [looks s] at run
  cases run
  exact ⟨sameLimit, sameDepth⟩

theorem advance_level : Level advance := by
  rintro limit depth s a s' sameLimit sameDepth run
  unfold advance at run
  split at run
  · cases run
    exact ⟨sameLimit, sameDepth⟩
  · cases run
  · cases run
    exact ⟨sameLimit, sameDepth⟩

theorem unexpected_climbs (expected : String) {good : α → Nat → Prop} :
    Climbs limit depth (unexpected expected) good := by
  rintro s a s' - - run
  cases run

theorem unexpected_level (expected : String) : Level (unexpected expected : Parse α) :=
  fun _ _ => unexpected_climbs expected

theorem atSign_level (sign : Symbol) : Level (atSign sign) := kind_looks.level.bind fun _ => .pure

theorem takeSign_level (sign : Symbol) : Level (takeSign sign) :=
  (atSign_level sign).bind fun _ => .ite (advance_level.bind fun _ => .pure) .pure

theorem takeWord_level (word : Keyword) : Level (takeWord word) :=
  (atWord_looks word).level.bind fun _ => .ite (advance_level.bind fun _ => .pure) .pure

theorem expectSign_level (sign : Symbol) : Level (expectSign sign) :=
  (atSign_level sign).bind fun _ => .ite advance_level (unexpected_level _)

theorem expectWord_level (word : Keyword) : Level (expectWord word) :=
  (atWord_looks word).level.bind fun _ => .ite advance_level (unexpected_level _)

theorem word?_level : Level word? := by
  refine kind_looks.level.bind fun kind => ?_
  split <;> exact .pure

theorem identifier_level : Level identifier := by
  refine kind_looks.level.bind fun kind => ?_
  split
  · exact advance_level.bind fun _ => .pure
  · exact unexpected_level _

theorem Climbs.parenthesized {p : Parse α} {good : α → Prop}
    (inner : Climbs limit depth p fun a after => after = depth ∧ good a) :
    Climbs limit depth (parenthesized p) fun a after => after = depth ∧ good a := by
  refine (expectSign_level _).then fun _ => inner.bind fun a after holds => ?_
  obtain ⟨rfl, isGood⟩ := holds
  exact (expectSign_level _).then fun _ => .pure ⟨rfl, isGood⟩

theorem Level.parenthesized {p : Parse α} (inner : Level p) : Level (parenthesized p) :=
  (expectSign_level _).bind fun _ => inner.bind fun _ => (expectSign_level _).bind fun _ => .pure

/-! ## Recursion -/

theorem enter_climbs :
    Climbs limit depth enter fun _ after => after = depth + 1 ∧ depth < capOf limit := by
  rintro s a s' rfl rfl run
  have entered := enter_eq run
  rw [enter_run] at run
  split at run
  · next below =>
    rw [entered]
    exact ⟨rfl, rfl, below⟩
  · cases run

theorem leave_climbs (levels : Nat) :
    Climbs limit (depth + levels) (leave levels) fun _ after => after = depth := by
  rintro s a s' rfl sameDepth run
  cases run
  refine ⟨rfl, ?_⟩
  show s.depth - levels = depth
  omega

theorem moved_climbs (ahead : Nat) {next : Option σ} {good : Option σ → Nat → Prop}
    (holds : good next depth) : Climbs limit depth (moved ahead next) good := by
  cases next with
  | none => exact .pure holds
  | some next =>
    have refused : Climbs limit depth (throw .exhausted : Parse (Option σ)) good := by
      rintro s a s' - - run
      cases run
    exact fun s => Climbs.ite (.pure holds) refused s

/-- A round leaves at the depth at which its step leaves. -/
theorem Climbs.round {step : σ → Parse (Option σ)} {value : σ} {good : Option σ → Nat → Prop}
    (given : Climbs limit depth (step value) good) : Climbs limit depth (round step value) good :=
  fun s => given.bind (fun _ _ holds => moved_climbs s.ahead.length holds) s

/-- A loop keeps what holds at its start and is kept by each round, at depths that hang on
what has been found so far. -/
theorem Climbs.loop {step : σ → Parse (Option σ)} {good : σ → Prop} (height : σ → Nat)
    (round : ∀ value, good value → Climbs limit (height value) (step value) fun next after =>
      (next = none → after = height value) ∧ ∀ v ∈ next, good v ∧ after = height v)
    {value : σ} (start : good value) :
    Climbs limit (height value) (loop step value) fun v after => good v ∧ after = height v := by
  -- the bound on the rounds is fixed by the tokens ahead at the start, and the induction needs
  -- any
  have rounds : ∀ bound value, good value →
      Climbs limit (height value) (iterate (Parse.round step) bound value)
        fun v after => good v ∧ after = height v := by
    intro bound
    induction bound with
    | zero =>
      rintro value start s a s' - - run
      cases run
    | succ bound ih =>
      intro value start
      refine (round value start).round.bind fun next after holds => ?_
      cases next with
      | none =>
        rw [holds.1 rfl]
        exact .pure ⟨start, rfl⟩
      | some v =>
        obtain ⟨isGood, rfl⟩ := holds.2 v rfl
        exact ih v isGood
  intro s a s' sameLimit sameDepth run
  exact rounds (s.ahead.length + 2) value start s a s' sameLimit sameDepth run

theorem Level.loop {step : σ → Parse (Option σ)} (round : ∀ value, Level (step value))
    (value : σ) : Level (loop step value) := by
  intro limit depth
  have rounds : Climbs limit depth (Parse.loop step value) fun _ after => True ∧ after = depth :=
    Climbs.loop (fun _ => depth)
      (fun value _ => (round value limit depth).mono fun next after same =>
        ⟨fun _ => same, fun _ _ => ⟨trivial, same⟩⟩) trivial
  exact rounds.mono fun _ _ holds => holds.2

/-- Items between commas are all good if each is. -/
theorem Climbs.commaSeparated {p : Parse α} {good : α → Prop}
    (item : Climbs limit depth p fun a after => after = depth ∧ good a) :
    Climbs limit depth (commaSeparated p) fun items after =>
      after = depth ∧ ∀ it ∈ items, good it := by
  refine item.bind fun first after holds => ?_
  rw [holds.1]
  have rounds : Climbs limit depth (Parse.loop (itemAfterComma p) [first]) fun items after =>
      (∀ it ∈ items, good it) ∧ after = depth := by
    refine Climbs.loop (fun _ => depth) (fun items all => ?_)
      (by simpa using holds.2)
    refine (takeSign_level _).then fun _ => .ite ?_ (.pure (by simp))
    refine item.bind fun last after found => ?_
    obtain ⟨same, isGood⟩ := found
    refine .pure ⟨nofun, ?_⟩
    rintro more ⟨⟩
    refine ⟨fun it member => ?_, same⟩
    rcases List.mem_append.mp member with member | member
    · exact all it member
    · rw [List.mem_singleton.mp member]
      exact isGood
  exact rounds.mono fun _ _ holds => ⟨holds.2, holds.1⟩

/-! ## Parts of data types -/

theorem qualifiedName_level : Level qualifiedName := by
  refine identifier_level.bind fun first => Level.bind (.loop (fun parts => ?_) _) fun _ => .pure
  refine (takeSign_level _).bind fun _ => .ite ?_ .pure
  exact identifier_level.bind fun _ => .pure

theorem unsigned_level : Level unsigned := by
  refine kind_looks.level.bind fun kind => ?_
  split
  · exact .ite (advance_level.bind fun _ => .pure) (unexpected_level _)
  · exact unexpected_level _

theorem optionalLength_level : Level optionalLength :=
  (atSign_level _).bind fun _ => .ite (unsigned_level.parenthesized.bind fun _ => .pure) .pure

theorem charUnit_level : Level charUnit :=
  (takeWord_level _).bind fun _ => .ite .pure ((takeWord_level _).bind fun _ => .ite .pure .pure)

theorem charLength_level : Level charLength := by
  refine (atSign_level _).bind fun _ => .ite (Level.parenthesized ?_) .pure
  exact unsigned_level.bind fun _ => charUnit_level.bind fun _ => .pure

theorem scale_level : Level scale :=
  (takeSign_level _).bind fun _ => .ite (unsigned_level.bind fun _ => .pure) .pure

theorem precisionScale_level : Level precisionScale := by
  refine (atSign_level _).bind fun _ => .ite (Level.parenthesized ?_) .pure
  exact unsigned_level.bind fun _ => scale_level.bind fun _ => .pure

theorem zoneWords_level (zone : Bool) : Level (zoneWords zone) :=
  (expectWord_level _).bind fun _ => (expectWord_level _).bind fun _ => .pure

theorem timeZone_level : Level timeZone :=
  (takeWord_level _).bind fun _ => .ite (zoneWords_level _)
    ((takeWord_level _).bind fun _ => .ite (zoneWords_level _) .pure)

theorem takeLargeObject_level : Level takeLargeObject :=
  (takeWord_level _).bind fun _ => .ite ((expectWord_level _).bind fun _ => .pure) .pure

theorem expectCharacter_level : Level expectCharacter :=
  (takeWord_level _).bind fun _ => .ite .pure (expectWord_level _)

theorem maxCardinality_level : Level maxCardinality := by
  refine (takeSign_level _).bind fun _ => .ite ?_ .pure
  exact unsigned_level.bind fun _ => (expectSign_level _).bind fun _ => .pure

/-! ## Data types -/

/-- A type without suffixes that is not higher than the cap allows, one level having been
entered for it. -/
def IsBase (limit depth : Nat) (type : DataType) (after : Nat) : Prop :=
  after = depth ∧ type.suffixes = 0 ∧ depth + type.levels ≤ capOf limit + 1

section

variable {type : Parse DataType} (entered : depth ≤ capOf limit)

include entered

/-- A type without parts that are types needs one level. -/
theorem flat_climbs {type : DataType} (noSuffix : type.suffixes = 0) (flat : type.levels = 1) :
    Climbs limit depth (pure type) (IsBase limit depth) :=
  .pure ⟨rfl, noSuffix, by omega⟩

theorem characterType_climbs (nationalSet : Bool) :
    Climbs limit depth (characterType nationalSet) (IsBase limit depth) := by
  refine (takeWord_level _).then fun _ => .ite ?_ (takeLargeObject_level.then fun _ => .ite ?_ ?_)
  all_goals
    refine charLength_level.then fun _ => ?_
    cases nationalSet <;> exact flat_climbs entered rfl rfl

theorem binaryType_climbs : Climbs limit depth binaryType (IsBase limit depth) := by
  refine (takeWord_level _).then fun _ => .ite ?_ (takeLargeObject_level.then fun _ => .ite ?_ ?_)
  all_goals exact optionalLength_level.then fun _ => flat_climbs entered rfl rfl

theorem referenceType_climbs : Climbs limit depth referenceType (IsBase limit depth) := by
  refine qualifiedName_level.parenthesized.then fun target => ?_
  refine (takeWord_level _).then fun _ => .ite ?_ (flat_climbs entered rfl rfl)
  exact qualifiedName_level.then fun _ => flat_climbs entered rfl rfl

theorem namedType_climbs :
    Climbs limit depth (do return DataType.named (← qualifiedName)) (IsBase limit depth) :=
  qualifiedName_level.then fun _ => flat_climbs entered rfl rfl

theorem rowType_climbs
    (climbs : Climbs limit depth type fun it after =>
      after = depth ∧ depth + it.levels ≤ capOf limit) :
    Climbs limit depth (do return DataType.row (← parenthesized (commaSeparated (rowField type))))
      (IsBase limit depth) := by
  have field : Climbs limit depth (rowField type) fun field after =>
      after = depth ∧ depth + field.2.levels ≤ capOf limit :=
    identifier_level.then fun _ => climbs.bind fun _ _ holds => .pure holds
  refine field.commaSeparated.parenthesized.bind fun fields after holds => ?_
  obtain ⟨same, all⟩ := holds
  have least : DataType.fieldLevels fields ≤ capOf limit - depth :=
    DataType.fieldLevels_le fun field member => by
      have := all field member
      omega
  refine .pure ⟨same, rfl, ?_⟩
  simp only [DataType.levels]
  omega

/-- Whatever a keyword begins, the type is as high as the cap allows if the types within it
are. -/
theorem typeAfter?_climbs
    (climbs : Climbs limit depth type fun it after =>
      after = depth ∧ depth + it.levels ≤ capOf limit)
    {word : Keyword} {rest : Parse DataType} (begins : typeAfter? type word = some rest) :
    Climbs limit depth rest (IsBase limit depth) := by
  unfold typeAfter? at begins
  split at begins
  all_goals cases begins
  · exact precisionScale_level.then fun _ => flat_climbs entered rfl rfl
  · exact precisionScale_level.then fun _ => flat_climbs entered rfl rfl
  · exact precisionScale_level.then fun _ => flat_climbs entered rfl rfl
  · exact flat_climbs entered rfl rfl
  · exact flat_climbs entered rfl rfl
  · exact flat_climbs entered rfl rfl
  · exact flat_climbs entered rfl rfl
  · exact optionalLength_level.then fun _ => flat_climbs entered rfl rfl
  · exact flat_climbs entered rfl rfl
  · exact (expectWord_level _).then fun _ => flat_climbs entered rfl rfl
  · exact binaryType_climbs entered
  · exact optionalLength_level.then fun _ => flat_climbs entered rfl rfl
  · exact optionalLength_level.then fun _ => flat_climbs entered rfl rfl
  · exact characterType_climbs entered _
  · exact characterType_climbs entered _
  · exact charLength_level.then fun _ => flat_climbs entered rfl rfl
  · exact charLength_level.then fun _ => flat_climbs entered rfl rfl
  · exact expectCharacter_level.then fun _ => characterType_climbs entered _
  · exact characterType_climbs entered _
  · exact charLength_level.then fun _ => flat_climbs entered rfl rfl
  · exact flat_climbs entered rfl rfl
  · exact flat_climbs entered rfl rfl
  · exact optionalLength_level.then fun _ => timeZone_level.then fun _ =>
      flat_climbs entered rfl rfl
  · exact optionalLength_level.then fun _ => timeZone_level.then fun _ =>
      flat_climbs entered rfl rfl
  · exact rowType_climbs entered climbs
  · exact referenceType_climbs entered

theorem baseType_climbs
    (climbs : Climbs limit depth type fun it after =>
      after = depth ∧ depth + it.levels ≤ capOf limit) :
    Climbs limit depth (baseType type) (IsBase limit depth) := by
  refine word?_level.then fun word => ?_
  split
  · exact namedType_climbs entered
  · next word =>
    split
    · next rest begins =>
      exact advance_level.then fun _ => typeAfter?_climbs entered climbs begins
    · exact .ite (unexpected_climbs _) (namedType_climbs entered)

end

/-- A suffix adds a level to those of the suffixes before it. -/
theorem typeSuffix_climbs (progress : DataType × Nat)
    (counts : progress.1.suffixes = progress.2 ∧ depth + progress.1.levels ≤ capOf limit) :
    Climbs limit (depth + progress.2) (typeSuffix progress) fun next after =>
      (next = none → after = depth + progress.2) ∧
        ∀ it ∈ next, (it.1.suffixes = it.2 ∧ depth + it.1.levels ≤ capOf limit) ∧
          after = depth + it.2 := by
  obtain ⟨element, count⟩ := progress
  obtain ⟨counts, fits⟩ : element.suffixes = count ∧ depth + element.levels ≤ capOf limit := counts
  refine (takeWord_level _).then fun _ => .ite ?_ ((takeWord_level _).then fun _ => .ite ?_ ?_)
  · refine maxCardinality_level.then fun size => enter_climbs.bind fun _ after holds => ?_
    refine .pure ⟨nofun, ?_⟩
    rintro it ⟨⟩
    refine ⟨⟨congrArg (· + 1) counts, ?_⟩, holds.1⟩
    simp only [DataType.levels]
    omega
  · refine enter_climbs.bind fun _ after holds => .pure ⟨nofun, ?_⟩
    rintro it ⟨⟩
    refine ⟨⟨congrArg (· + 1) counts, ?_⟩, holds.1⟩
    simp only [DataType.levels]
    omega
  · exact .pure ⟨fun _ => rfl, nofun⟩

theorem dataTypeWith_climbs {type : Parse DataType}
    (climbs : ∀ depth, Climbs limit depth type fun it after =>
      after = depth ∧ depth + it.levels ≤ capOf limit) (depth : Nat) :
    Climbs limit depth (dataTypeWith type) fun it after =>
      after = depth ∧ depth + it.levels ≤ capOf limit := by
  have base : Climbs limit depth (nested (baseType type)) fun it after =>
      after = depth ∧ it.suffixes = 0 ∧ depth + it.levels ≤ capOf limit := by
    refine enter_climbs.bind fun _ after entered => ?_
    obtain ⟨rfl, below⟩ := entered
    refine (baseType_climbs below (climbs _)).bind fun it after holds => ?_
    obtain ⟨rfl, noSuffix, fits⟩ := holds
    refine (leave_climbs 1).bind fun _ after same => .pure ⟨same, noSuffix, ?_⟩
    omega
  refine base.bind fun it after holds => ?_
  obtain ⟨same, noSuffix, fits⟩ := holds
  rw [same]
  have suffixed : Climbs limit (depth + (it, 0).2) (loop typeSuffix (it, 0)) fun found after =>
      (found.1.suffixes = found.2 ∧ depth + found.1.levels ≤ capOf limit) ∧
        after = depth + found.2 :=
    .loop _ typeSuffix_climbs ⟨noSuffix, fits⟩
  refine suffixed.bind fun result after found => ?_
  obtain ⟨⟨-, resultFits⟩, rfl⟩ := found
  exact (leave_climbs _).bind fun _ after same => .pure ⟨same, resultFits⟩

theorem dataTypeWithin_climbs (bound depth : Nat) :
    Climbs limit depth (dataTypeWithin bound) fun it after =>
      after = depth ∧ depth + it.levels ≤ capOf limit := by
  induction bound generalizing depth with
  | zero =>
    rintro s a s' - - run
    cases run
  | succ bound ih => exact dataTypeWith_climbs ih depth

/-- A data type that is read is no higher than the cap allows. -/
theorem dataType_climbs :
    Climbs limit depth dataType fun it after =>
      after = depth ∧ depth + it.levels ≤ capOf limit :=
  fun s a s' sameLimit sameDepth run =>
    dataTypeWithin_climbs (s.ahead.length + 2) depth s a s' sameLimit sameDepth run

end Parse

end CanonicalSql
