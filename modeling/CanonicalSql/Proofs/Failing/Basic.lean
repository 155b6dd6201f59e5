import CanonicalSql.Proofs.Course.Statement
import CanonicalSql.Proofs.Elsewhere.Rounds

/-!
# Where a reading fails

`Fails tokens failure limit depth p kinds` says that the step `p` comes to the failure wherever it
stands in front of the row `kinds` at the end of the tokens. What `Reads` says of the kinds of
tokens does not say which token stands where, and a failure names the place of one. The place
is known by the number of tokens that are left, and `Runs` keeps count of them.

A step fails if its first step does (`Fails.bind`), or if its first step reads a beginning of the
row and the next one fails on what is left (`Fails.after`, and `Fails.given` where the beginning is
known to be read alone). A loop fails if some rounds lead to one that fails (`Leads.fails`).
-/
namespace CanonicalSql

/-- The number of tokens that are left says where a state stands. -/
theorem State.Shows.placed {limit depth i : Nat} {kinds : List Kind} {tokens : List Token} {s : State}
    (shows : s.Shows limit depth kinds) (stands : s.At tokens i) :
    i + kinds.length + 1 = tokens.length := by
  have behind := stands.length
  rw [shows.ahead_length] at behind
  omega

/-- Two levels of recursion for each token that is left are enough. -/
theorem Phrases.within_from {more i : Nat} {kinds : List Kind} {tokens : List Token}
    (enough : 2 * kinds.length + 4 ≤ more) (few : tokens.length ≤ i + kinds.length + 1) :
    (within more).From tokens i :=
  fun k past => (within_course more k).2 (by omega)

namespace Parse

/-- Where the row is all that is left of the tokens, the step comes to the failure. -/
def Fails {α : Type} (tokens : List Token) (failure : Failure) (limit depth : Nat) (p : Parse α)
    (kinds : List Kind) : Prop :=
  ∀ s i, s.Shows limit depth kinds → s.At tokens i → ∃ t, p s = .error failure t

variable {α β σ : Type} {tokens : List Token} {failure : Failure} {limit depth depth' middle : Nat}
  {kinds mid rest : List Kind}

theorem Runs.passes {p : Parse α} {good : Nat → α → Prop} {i : Nat} (given : Runs tokens i p good) :
    Passes tokens i p :=
  given.mono fun _ _ _ _ => trivial

theorem atWordBefore_runs {word : Keyword} {before : Kind → Bool} {i : Nat} :
    Passes tokens i (atWordBefore word before) := by
  have whole : Runs tokens i (atWordBefore word before >>= pure) fun _ _ => True :=
    .atWordBefore (fun _ _ => .pure trivial) (.pure trivial)
  rwa [bind_pure] at whole

namespace Fails

variable {p : Parse α} {f : α → Parse β} {good : α → Prop}

theorem bind (first : Fails tokens failure limit depth p kinds) :
    Fails tokens failure limit depth (p >>= f) kinds := by
  intro s i shows stands
  obtain ⟨t, run⟩ := first s i shows stands
  exact ⟨t, bind_error run⟩

/-- Where two steps fail together, they do so with more steps behind them. -/
theorem pair {γ : Type} {g : β → Parse γ}
    (both : Fails tokens failure limit depth (p >>= f) kinds) :
    Fails tokens failure limit depth (p >>= fun a => f a >>= g) kinds := by
  rw [← bind_assoc]
  exact both.bind

/-- The first step reads a beginning of the row, and the next one fails. What the first step finds is
laid out between its places among the tokens. -/
theorem afterProceeds {laid : Nat → Nat → α → Prop}
    (first : Reads limit True p depth kinds good middle mid)
    (proceeds : ∀ i, i + kinds.length + 1 = tokens.length → Proceeds tokens i p (laid i))
    (next : ∀ i j a, i + kinds.length + 1 = tokens.length → j + mid.length + 1 = tokens.length →
      laid i j a → good a → Fails tokens failure limit middle (f a) mid) :
    Fails tokens failure limit depth (p >>= f) kinds := by
  intro s i shows stands
  have placed := shows.placed stands
  have course := proceeds i placed
  cases run : p s with
  | ok a s₁ =>
    obtain ⟨-, isGood, shows₁⟩ := first.ok s a s₁ shows run
    obtain ⟨j, -, stands₁, isLaid⟩ := course.ok s a s₁ stands run
    obtain ⟨t, fails⟩ := next i j a placed (shows₁.placed stands₁) isLaid isGood s₁ j shows₁ stands₁
    exact ⟨t, (bind_ok run).trans fails⟩
  | error other s₁ => exact absurd trivial (first.error s other s₁ shows run).1

theorem afterRuns {laid : Nat → Nat → α → Prop}
    (first : Reads limit True p depth kinds good middle mid)
    (runs : ∀ i, i + kinds.length + 1 = tokens.length → Runs tokens i p (laid i))
    (next : ∀ i j a, i + kinds.length + 1 = tokens.length → j + mid.length + 1 = tokens.length →
      laid i j a → good a → Fails tokens failure limit middle (f a) mid) :
    Fails tokens failure limit depth (p >>= f) kinds :=
  afterProceeds first (fun i placed => (runs i placed).toProceeds) next

theorem after (first : Reads limit True p depth kinds good middle mid)
    (runs : ∀ i, i + kinds.length + 1 = tokens.length → Passes tokens i p)
    (next : ∀ a, good a → Fails tokens failure limit middle (f a) mid) :
    Fails tokens failure limit depth (p >>= f) kinds :=
  afterRuns first runs fun _ _ a _ _ _ isGood => next a isGood

/-- The stretch of the current token. -/
theorem here {f : Span → Parse β}
    (next : ∀ i start, i + kinds.length + 1 = tokens.length → Covers tokens i (i + 1) start →
      Fails tokens failure limit depth (f start) kinds) :
    Fails tokens failure limit depth (Parse.here >>= f) kinds := by
  intro s i shows stands
  obtain ⟨t, fails⟩ :=
    next i s.current.span (shows.placed stands) stands.covers s i shows stands
  exact ⟨t, fails⟩

/-- A row that no state shows is of no account. -/
theorem shown {p : Parse α} (fails : ∀ (s : State) (i : Nat), s.Shows limit depth kinds →
      s.At tokens i → Fails tokens failure limit depth p kinds) :
    Fails tokens failure limit depth p kinds :=
  fun s i shows stands => fails s i shows stands s i shows stands

/-- What is read does not fail. -/
theorem not_reads {p : Parse α} (fails : Fails tokens failure limit depth p kinds)
    (reads : Reads limit True p depth kinds good middle mid) {s : State} {i : Nat}
    (shows : s.Shows limit depth kinds) (stands : s.At tokens i) : False := by
  obtain ⟨t, run⟩ := fails s i shows stands
  exact (reads.error s failure t shows run).1 trivial

theorem step {a : α}
    (first : Reads limit True p depth kinds (· = a) middle mid)
    (runs : ∀ i, i + kinds.length + 1 = tokens.length → Passes tokens i p)
    (next : Fails tokens failure limit middle (f a) mid) :
    Fails tokens failure limit depth (p >>= f) kinds :=
  after first runs fun b same => by
    rw [same]
    exact next

/-- The first step reads in front of `rest` what it has read of a row alone, and the next one
fails. -/
theorem given {γ : Type} {p : Parse γ} {q : Parse α} {same : γ → α → Prop} {ends : Prop}
    {need : Nat} {a : γ} {row left : List Kind} (gives : Gives p row a left)
    (again : Repeats rest ends need same p q row) (last : left = [] → ends)
    (noPredicate : isNegatable (lead rest) = false) (apart : isJoint (lead rest) = false)
    (room : depth + need ≤ capOf limit)
    (runs : ∀ i, tokens.length ≤ i + (row ++ rest).length + 1 → Passes tokens i q)
    (next : ∀ b, same a b → Fails tokens failure limit depth (f b) (left ++ rest)) :
    Fails tokens failure limit depth (q >>= f) (row ++ rest) :=
  after (gives.reads again last noPredicate apart room) (fun i placed => runs i placed.ge) next

/-- A first step that changes nothing. -/
theorem still (isStill : Still p) (next : ∀ a, Fails tokens failure limit depth (f a) kinds) :
    Fails tokens failure limit depth (p >>= f) kinds := by
  intro s i shows stands
  obtain ⟨a, run⟩ := isStill s
  obtain ⟨t, fails⟩ := next a s i shows stands
  exact ⟨t, (bind_ok run).trans fails⟩

theorem look {found : Kind → α} (looks : Looks p found)
    (next : Fails tokens failure limit depth (f (found (lead kinds))) kinds) :
    Fails tokens failure limit depth (p >>= f) kinds := by
  intro s i shows stands
  obtain ⟨t, fails⟩ := next s i shows stands
  refine ⟨t, ?_⟩
  rw [bind_ok (looks s), shows.current]
  exact fails

theorem peek {f : Kind → Parse β}
    (next : Fails tokens failure limit depth (f (lead (kinds.drop 1))) kinds) :
    Fails tokens failure limit depth (Parse.peek >>= f) kinds :=
  step peek_reads (fun _ _ => peek_runs.passes) next

theorem advance {f : Unit → Parse β} {kind : Kind} (inner : kind.endsStatement = false)
    (next : Fails tokens failure limit depth (f ()) rest) :
    Fails tokens failure limit depth (Parse.advance >>= f) (kind :: rest) := by
  intro s i shows stands
  have isKind : kindAt tokens i = kind := stands.kind.symm.trans shows.current
  refine step (advance_reads.weaken fun _ _ => rfl) (fun j placed => ?_) next s i shows stands
  obtain rfl : j = i := by
    have here := shows.placed stands
    omega
  exact (advance_runs (isKind ▸ inner)).passes

theorem expectSign {f : Unit → Parse β} {sign : Symbol}
    (next : Fails tokens failure limit depth (f ()) rest) :
    Fails tokens failure limit depth (Parse.expectSign sign >>= f) (.symbol sign :: rest) :=
  afterProceeds (expectSign_reads sign) (fun _ _ => expectSign_proceeds sign)
    fun _ _ _ _ _ _ _ => next

theorem expectWord {f : Unit → Parse β} {word : Keyword}
    (next : Fails tokens failure limit depth (f ()) rest) :
    Fails tokens failure limit depth (Parse.expectWord word >>= f) (.keyword word :: rest) :=
  step (expectWord_reads word) (fun _ _ => (expectWord_runs word).passes) next

theorem takeWord {f : Bool → Parse β} {word : Keyword}
    (next : Fails tokens failure limit depth (f true) rest) :
    Fails tokens failure limit depth (Parse.takeWord word >>= f) (.keyword word :: rest) :=
  step (takeWord_yes word) (fun _ _ => (takeWord_runs word).passes) next

theorem passWord {f : Bool → Parse β} {word : Keyword} (other : lead kinds ≠ .keyword word)
    (next : Fails tokens failure limit depth (f false) kinds) :
    Fails tokens failure limit depth (Parse.takeWord word >>= f) kinds :=
  step (takeWord_no other) (fun _ _ => (takeWord_runs word).passes) next

theorem wordBefore {f : Bool → Parse β} {word : Keyword} {before : Kind → Bool}
    (follows : before (lead rest) = true)
    (next : Fails tokens failure limit depth (f true) (.keyword word :: rest)) :
    Fails tokens failure limit depth (atWordBefore word before >>= f) (.keyword word :: rest) :=
  step (atWordBefore_yes follows) (fun _ _ => atWordBefore_runs) next

theorem noWordBefore {f : Bool → Parse β} {word : Keyword} {before : Kind → Bool}
    (other : lead kinds = .keyword word → before (lead (kinds.drop 1)) = false)
    (next : Fails tokens failure limit depth (f false) kinds) :
    Fails tokens failure limit depth (atWordBefore word before >>= f) kinds :=
  step (atWordBefore_no other) (fun _ _ => atWordBefore_runs) next

theorem enter {f : Unit → Parse β} (room : depth < capOf limit)
    (next : Fails tokens failure limit (depth + 1) (f ()) kinds) :
    Fails tokens failure limit depth (Parse.enter >>= f) kinds := by
  have runs (i : Nat) : Runs tokens i Parse.enter fun _ _ => True := by
    have whole : Runs tokens i (Parse.enter >>= Pure.pure) fun _ _ => True := .enter (.pure trivial)
    rwa [bind_pure] at whole
  exact step (enter_reads room) (fun i _ => runs i) next

theorem nested {p : Parse α} (room : depth < capOf limit)
    (inner : Fails tokens failure limit (depth + 1) p kinds) :
    Fails tokens failure limit depth (nested p) kinds :=
  .enter room inner.bind

/-- With as many levels of recursion as the tokens left may need. -/
theorem forState {rule : Phrases → Parse α}
    (fails : Fails tokens failure limit depth (rule (Phrases.within (8 * kinds.length + 16))) kinds) :
    Fails tokens failure limit depth (do rule (← Phrases.forState)) kinds := by
  intro s i shows stands
  obtain ⟨t, run⟩ := fails s i shows stands
  rw [← boundFor_eq shows.ahead_length] at run
  exact ⟨t, run⟩

end Fails

/-! ## Loops -/

section

variable {step : σ → Parse (Option σ)} {before after : σ → Prop} {inv : Nat → σ → Prop} {i : Nat}

/-- Rounds that lead from one state to another one keep what each round keeps. -/
theorem Reaches.at {v v' : σ} {s s' : State} (reaches : Reaches step v s v' s')
    (rounds : Rounds tokens i step inv) {k : Nat} (past : i ≤ k) (holds : inv k v)
    (stands : s.At tokens k) : ∃ j, k ≤ j ∧ s'.At tokens j ∧ inv j v' := by
  induction reaches generalizing k with
  | refl => exact ⟨k, Nat.le_refl k, stands, holds⟩
  | @next v w v' s middle s' run _ ih =>
    obtain ⟨j, -, stands₁, kept⟩ := (rounds.round k v past holds).ok s (some w) middle stands run
    obtain ⟨further, holds₁⟩ := kept.2 w rfl
    obtain ⟨m, furthest, rest⟩ := ih (by omega) holds₁ stands₁
    exact ⟨m, by omega, rest⟩

/-- A loop fails where some rounds lead to one that fails. -/
theorem Leads.fails (leads : Leads limit step before depth kinds after depth' rest)
    (rounds : Rounds tokens i step inv)
    (last : ∀ w, after w → Fails tokens failure limit depth' (step w) rest) {v : σ} {s : State}
    (isBefore : before v) (holds : inv i v) (shows : s.Shows limit depth kinds)
    (stands : s.At tokens i) : ∃ t, Parse.loop step v s = .error failure t := by
  obtain ⟨w, s', isAfter, shows', reaches⟩ := leads v s isBefore shows
  obtain ⟨j, -, stands', -⟩ := reaches.at rounds (Nat.le_refl i) holds stands
  obtain ⟨bound, enough, same⟩ :=
    reaches.iterate (show s.ahead.length < s.ahead.length + 2 by omega)
  obtain ⟨bound, rfl⟩ : ∃ fewer, bound = fewer + 1 := ⟨bound - 1, by omega⟩
  have round : Fails tokens failure limit depth' (round step w) rest :=
    .still (fun s => ⟨_, rfl⟩) fun _ => (last w isAfter).bind
  have fails : Fails tokens failure limit depth' (iterate (Parse.round step) (bound + 1) w) rest :=
    round.bind
  obtain ⟨t, run⟩ := fails s' j shows' stands'
  exact ⟨t, same.trans run⟩

/-- A loop of which nothing is known but that each round that gives something takes a token. -/
theorem Fails.loop (leads : Leads limit step before depth kinds after depth' rest)
    (rounds : ∀ i, tokens.length ≤ i + kinds.length + 1 → Rounds tokens i step fun _ _ => True)
    (last : ∀ w, after w → Fails tokens failure limit depth' (step w) rest) {v : σ}
    (isBefore : before v) : Fails tokens failure limit depth (loop step v) kinds :=
  fun _ i shows stands =>
    leads.fails (rounds i (shows.placed stands).ge) last isBefore trivial shows stands

end

/-- A loop behind a first step fails if some rounds lead to one that fails. -/
theorem Fails.rounds {p : Parse α} {make : α → σ} {step : σ → Parse (Option σ)}
    {good : α → Prop} {before after : σ → Prop} {laid : Nat → Nat → α → Prop}
    {inv : Nat → Nat → σ → Prop}
    (first : Reads limit True p depth kinds good depth mid)
    (runs : ∀ i, tokens.length ≤ i + kinds.length + 1 → Runs tokens i p (laid i))
    (rounds : ∀ i j a, tokens.length ≤ i + kinds.length + 1 → i ≤ j → laid i j a →
      Rounds tokens j step (inv i) ∧ inv i j (make a))
    (begins : ∀ a, good a → before (make a))
    (leads : Leads limit step before depth mid after depth' rest)
    (last : ∀ v, after v → Fails tokens failure limit depth' (step v) rest) :
    Fails tokens failure limit depth (do Parse.loop step (make (← p))) kinds := by
  intro s i shows stands
  have few := (shows.placed stands).ge
  cases run : p s with
  | ok a s₁ =>
    obtain ⟨-, isGood, shows₁⟩ := first.ok s a s₁ shows run
    obtain ⟨j, past, stands₁, isLaid⟩ := (runs i few).ok s a s₁ stands run
    obtain ⟨rounds, holds⟩ := rounds i j a few past isLaid
    obtain ⟨t, ran⟩ := leads.fails rounds last (begins a isGood) holds shows₁ stands₁
    exact ⟨t, (bind_ok run).trans ran⟩
  | error other s₁ => exact absurd trivial (first.error s other s₁ shows run).1

/-! ## Lists -/

/-- Rows of tokens with a comma behind each. -/
def beforeCommas (rows : List (List Kind)) : List Kind :=
  rows.flatMap fun row => row ++ [.symbol .comma]

theorem beforeCommas_cons (first : List Kind) (rows : List (List Kind)) (row : List Kind) :
    beforeCommas (first :: rows) ++ row =
      first ++ .symbol .comma :: (beforeCommas rows ++ row) := by
  simp [beforeCommas]

theorem length_le_beforeCommas {rows : List (List Kind)} {row : List Kind} (member : row ∈ rows) :
    row.length ≤ (beforeCommas rows).length := by
  obtain ⟨before, behind, rfl⟩ := List.append_of_mem member
  simp only [beforeCommas, List.flatMap_append, List.flatMap_cons, List.length_append]
  omega

section

variable {item : Parse α} {rows : List (List Kind)} {row : List Kind}

/-- The items up to the last comma are read. The induction is on the items that follow the first
one. -/
theorem itemAfterComma_leads
    (each : ∀ other ∈ rows, ∀ behind, lead behind = .symbol .comma →
      Reads limit True item depth (other ++ behind) (fun _ => True) depth behind) :
    Leads limit (itemAfterComma item) (fun _ => True) depth
      (.symbol .comma :: (beforeCommas rows ++ row)) (fun _ => True) depth
      (.symbol .comma :: row) := by
  induction rows with
  | nil => exact .none fun _ => id
  | cons other rows ih =>
    rw [beforeCommas_cons]
    refine Leads.trans ?_ (ih fun other member => each other (List.mem_cons_of_mem _ member))
    refine .one (by simp only [List.length_cons, List.length_append]; omega) fun v _ => ?_
    refine (takeSign_yes .comma).step ((each other List.mem_cons_self _ rfl).after fun a _ => ?_)
    exact .pure trivial ⟨_, rfl, trivial⟩

/-- A list is read if its items are, the last of them in front of what follows the list. -/
theorem beforeCommas_reads
    (each : ∀ other ∈ rows, ∀ behind, lead behind = .symbol .comma →
      Reads limit True item depth (other ++ behind) (fun _ => True) depth behind)
    (last : Reads limit True item depth (row ++ rest) (fun _ => True) depth rest)
    (stops : lead rest ≠ .symbol .comma) :
    Reads limit True (commaSeparated item) depth (beforeCommas rows ++ (row ++ rest))
      (fun _ => True) depth rest := by
  have ends (v : List α) :
      Reads limit True (itemAfterComma item v) depth rest (· = none) depth rest :=
    (takeSign_no stops).step (.pure trivial rfl)
  cases rows with
  | nil => exact last.after fun a _ => (Leads.none fun _ => id).loop (fun v _ => ends v) trivial
  | cons first rows =>
    rw [beforeCommas_cons]
    have leads : Leads limit (itemAfterComma item) (fun _ => True) depth
        (.symbol .comma :: (beforeCommas rows ++ (row ++ rest))) (fun _ => True) depth rest := by
      refine (itemAfterComma_leads fun other member =>
        each other (List.mem_cons_of_mem _ member)).trans ?_
      refine .one (by simp only [List.length_cons, List.length_append]; omega) fun v _ => ?_
      refine (takeSign_yes .comma).step (last.after fun a _ => ?_)
      exact .pure trivial ⟨_, rfl, trivial⟩
    exact (each first List.mem_cons_self _ rfl).after fun a _ =>
      leads.loop (fun v _ => ends v) trivial

/-- An item of a list fails if those before it are read. -/
theorem Fails.commaSeparated
    (each : ∀ other ∈ rows, ∀ behind, lead behind = .symbol .comma →
      Reads limit True item depth (other ++ behind) (fun _ => True) depth behind)
    (runs : ∀ i, tokens.length ≤ i + (beforeCommas rows ++ row).length + 1 → Passes tokens i item)
    (last : Fails tokens failure limit depth item row) :
    Fails tokens failure limit depth (commaSeparated item) (beforeCommas rows ++ row) := by
  cases rows with
  | nil => exact last.bind
  | cons first rows =>
    rw [beforeCommas_cons, List.length_append] at runs
    rw [beforeCommas_cons]
    have begins := each first List.mem_cons_self (.symbol .comma :: (beforeCommas rows ++ row)) rfl
    refine .after begins (fun i placed => runs i (by rw [← List.length_append]; omega)) fun a _ => ?_
    refine .loop (itemAfterComma_leads fun other member => each other (List.mem_cons_of_mem _ member))
      (fun i few k v past _ => ?_) (fun v _ => ?_) trivial
    · refine .takeSign rfl (fun _ => ?_) (.pure ⟨fun _ => trivial, by simp⟩)
      refine (runs (k + 1) (by omega)).bind fun a j further _ => ?_
      exact .pure ⟨by simp, fun more isMore => ⟨by omega, trivial⟩⟩
    · exact .step (takeSign_yes .comma) (fun _ _ => (takeSign_runs rfl).passes) last.bind

end

end Parse

end CanonicalSql
