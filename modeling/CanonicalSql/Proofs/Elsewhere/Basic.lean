import CanonicalSql.Proofs.Reading.Tokens

/-!
# What is read elsewhere

A text that a rule has read to its end can stand elsewhere: deeper, within another limit, and in
front of tokens instead of at the end of the input. `Repeats rest ends need same p q row` says
that the step `q` does on `row ++ rest` what the step `p` did on `row` alone, as far as `p`
succeeded: it takes the same tokens and gives the same, up to places.

The end of the input is the one token that the two places do not share. A step that came to it
saw no operator, no comma and no clause there, and `ends` says that `rest` begins with none of
them either. A step that stopped before the end saw nothing but the row, and nothing is asked of
`rest` then (`Meets`). Room is counted by tokens: each level of recursion that is entered is paid
for by a token taken soon after it.
-/
namespace CanonicalSql

/-- The state shows a row of tokens and nothing after it. -/
def State.Faces (kinds : List Kind) (s : State) : Prop := ∃ limit depth, s.Shows limit depth kinds

theorem State.Shows.faces {limit depth : Nat} {kinds : List Kind} {s : State}
    (shows : s.Shows limit depth kinds) : s.Faces kinds := ⟨limit, depth, shows⟩

namespace State.Faces

variable {kinds other : List Kind} {s : State}

theorem current (faces : s.Faces kinds) : s.current.kind = lead kinds := by
  obtain ⟨limit, depth, shows⟩ := faces
  exact shows.current

theorem ahead_length (faces : s.Faces kinds) : s.ahead.length = kinds.length := by
  obtain ⟨limit, depth, shows⟩ := faces
  exact shows.ahead_length

/-- A state shows one row. -/
theorem unique (faces : s.Faces kinds) (faces' : s.Faces other) : kinds = other := by
  obtain ⟨limit, depth, shows⟩ := faces
  obtain ⟨limit', depth', shows'⟩ := faces'
  exact List.append_cancel_right (shows.tokens.symm.trans shows'.tokens)

/-- The row does not hang on how deep the state is. -/
theorem congr {s' : State} (faces : s.Faces kinds) (current : s'.current = s.current)
    (ahead : s'.ahead = s.ahead) (failure : s'.failure = s.failure) : s'.Faces kinds := by
  obtain ⟨limit, depth, shows⟩ := faces
  refine ⟨s'.limit, s'.depth, ?_, ?_, rfl, rfl⟩
  · rw [current, ahead]
    exact shows.tokens
  · rw [failure]
    exact shows.failure

end State.Faces

namespace Parse

variable {α β γ δ σ τ : Type} {rest row : List Kind} {ends : Prop} {need : Nat}

/-- Whether a token can be read as one with the token before it: a parenthesis after the name of a
function, and the second words of `GROUPING SETS` and `CURRENT ROW`. -/
def isJoint : Kind → Bool
  | .symbol .leftParen | .keyword .SETS | .keyword .ROW => true
  | _ => false

/-- What is asked of the tokens behind a step that leaves the row `left`: that the step may end
there, if it has taken its whole row, that `NOT` is no part of a predicate, if it has left just
that, and that the first of the tokens is read by itself. -/
structure Meets (rest : List Kind) (ends : Prop) (left : List Kind) : Prop where
  last : left = [] → ends
  before : left = [.keyword .NOT] → isNegatable (lead rest) = false
  apart : isJoint (lead rest) = false

/-- The tokens behind do not begin with one that is read with the token before it. -/
theorem Meets.ne {rest left : List Kind} {ends : Prop} (meets : Meets rest ends left) (kind : Kind)
    (joint : isJoint kind = true) : lead rest ≠ kind := by
  rintro rfl
  rw [meets.apart] at joint
  cases joint

/-- What `p` has done on the row alone, `q` does in front of `rest`, and the depth rises by
`up`. -/
structure Echoes (rest : List Kind) (ends : Prop) (need : Nat) (same : α → β → Prop)
    (up : α → Nat) (p : Parse α) (q : Parse β) (row : List Kind) : Prop where
  there : ∀ s a t, s.Faces row → p s = .ok a t → ∃ left, t.Faces left ∧ left <:+ row ∧
    (left = [] → row.getLast? ≠ some (.keyword .NOT)) ∧ (∃ b, same a b) ∧
    (Meets rest ends left → ∀ limit depth, depth + need ≤ capOf limit →
      Reads limit True q depth (row ++ rest) (same a) (depth + up a) (left ++ rest))

/-- What `p` has done on the row alone, `q` does in front of `rest`, at the same depth. -/
abbrev Repeats (rest : List Kind) (ends : Prop) (need : Nat) (same : α → β → Prop)
    (p : Parse α) (q : Parse β) (row : List Kind) : Prop :=
  Echoes rest ends need same (fun _ => 0) p q row

/-- Two values are the same up to what `key` leaves out. -/
def Keyed (key : α → γ) (a b : α) : Prop := key b = key a

/-- The step refuses the row, which is the end of the input if no other is named. -/
def Refuses (p : Parse α) (row : List Kind := []) : Prop := ∀ s a t, s.Faces row → p s ≠ .ok a t

section

variable {limit depth depth' : Nat} {kinds left : List Kind} {p : Parse α} {good : α → Prop}

theorem Reads.weaken {better : α → Prop} (given : Reads limit True p depth kinds good depth' left)
    (weaker : ∀ a, good a → better a) : Reads limit True p depth kinds better depth' left :=
  given.mono Iff.rfl weaker

end

/-! ## Steps that refuse the end -/

namespace Refuses

theorem look {p : Parse γ} {found : Kind → γ} {f : γ → Parse α} (looks : Looks p found)
    (refuses : Refuses (f (found .endOfInput))) : Refuses (p >>= f) := by
  intro s a t faces run
  rw [bind_ok (looks s), faces.current] at run
  exact refuses s a t faces run

theorem still {p : Parse γ} {f : γ → Parse α} (isStill : Still p)
    (refuses : ∀ a, Refuses (f a) row) : Refuses (p >>= f) row := by
  intro s a t faces run
  obtain ⟨c, ran⟩ := isStill s
  rw [bind_ok ran] at run
  exact refuses c s a t faces run

theorem bind {p : Parse γ} (refuses : Refuses p row) (f : γ → Parse α) : Refuses (p >>= f) row := by
  intro s a t faces run
  obtain ⟨c, middle, ran, run⟩ := ok_of_bind run
  exact refuses s c middle faces ran

theorem throw (failure : Failure) : Refuses (throw failure : Parse α) := by
  intro s a t _ run
  cases run

theorem fail (cause : ParseCause) : Refuses (fail cause : Parse α) := by
  intro s a t _ run
  cases run

theorem unexpected (expected : String) : Refuses (unexpected expected : Parse α) :=
  look kind_looks (fail _)

theorem expectSign (sign : Symbol) : Refuses (expectSign sign) :=
  look (atSign_looks sign) (unexpected _)

theorem expectWord (word : Keyword) : Refuses (expectWord word) :=
  look (atWord_looks word) (unexpected _)

theorem identifier : Refuses identifier :=
  look kind_looks (unexpected _)

/-- A first step whose effect on the row is known. -/
theorem past {p : Parse γ} {f : γ → Parse α} {a : γ} {left : List Kind}
    (passes : ∀ limit depth, Reads limit True p depth row (· = a) depth left)
    (refuses : Refuses (f a) left) : Refuses (p >>= f) row := by
  intro s b t faces run
  obtain ⟨limit, depth, shows⟩ := faces
  obtain ⟨c, middle, ran, run⟩ := ok_of_bind run
  obtain ⟨-, rfl, shows'⟩ := (passes limit depth).ok s c middle shows ran
  exact refuses middle b t shows'.faces run

theorem takeWord {word : Keyword} {f : Bool → Parse α} (refuses : Refuses (f false)) :
    Refuses (takeWord word >>= f) :=
  past (fun _ _ => takeWord_no (by simp)) refuses

theorem enter {f : Unit → Parse α} (refuses : Refuses (f ())) : Refuses (enter >>= f) := by
  intro s a t faces run
  obtain ⟨u, middle, ran, run⟩ := ok_of_bind run
  obtain rfl := enter_eq ran
  cases u
  exact refuses { s with depth := s.depth + 1 } a t (faces.congr rfl rfl rfl) run

theorem nested {p : Parse α} (refuses : Refuses p) : Refuses (nested p) :=
  enter (refuses.bind _)

theorem commaSeparated {item : Parse α} (refuses : Refuses item) :
    Refuses (commaSeparated item) :=
  refuses.bind _

theorem qualifiedName : Refuses qualifiedName := identifier.bind _

end Refuses

/-! ## Putting steps together -/

/-- A step that is asked to end at a token is asked no less by what comes after it. -/
theorem Meets.earlier {ends₁ : Prop} {left middle : List Kind} (meets : Meets rest ends left)
    (shorter : left <:+ middle) (weaker : ends → ends₁)
    (last : left = [] → middle.getLast? ≠ some (.keyword .NOT)) : Meets rest ends₁ middle where
  last := by
    rintro rfl
    exact weaker (meets.last (List.suffix_nil.mp shorter))
  before := by
    rintro rfl
    rcases List.suffix_cons_iff.mp shorter with rfl | none
    · exact meets.before rfl
    · exact absurd rfl (last (List.suffix_nil.mp none))
  apart := meets.apart

/-- If all of a row has been taken in two parts, its last token is in the second part, unless
that is empty. -/
theorem last_of_suffix {left middle : List Kind} (shorter : middle <:+ row)
    (first : middle = [] → row.getLast? ≠ some (.keyword .NOT))
    (second : left = [] → middle.getLast? ≠ some (.keyword .NOT)) :
    left = [] → row.getLast? ≠ some (.keyword .NOT) := by
  intro none
  cases isMiddle : middle with
  | nil => exact first isMiddle
  | cons kind more =>
    obtain ⟨taken, rfl⟩ := shorter
    have last := second none
    rw [isMiddle] at last ⊢
    rwa [List.getLast?_append_of_ne_nil _ (List.cons_ne_nil _ _)]

namespace Echoes

variable {same : α → β → Prop} {up : α → Nat} {p : Parse α} {q : Parse β}

theorem mono {ends₁ : Prop} {need₁ : Nat} {same₁ : α → β → Prop} {up₁ : α → Nat}
    (given : Echoes rest ends₁ need₁ same₁ up₁ p q row) (stronger : ends → ends₁)
    (less : need₁ ≤ need) (weaker : ∀ a b, same₁ a b → same a b ∧ up₁ a = up a) :
    Echoes rest ends need same up p q row where
  there := by
    intro s a t faces run
    obtain ⟨left, faces', shorter, last, ⟨b, isSame⟩, reads⟩ := given.there s a t faces run
    refine ⟨left, faces', shorter, last, ⟨b, (weaker a b isSame).1⟩, fun meets limit depth room => ?_⟩
    have meets₁ : Meets rest ends₁ left :=
      ⟨fun none => stronger (meets.last none), meets.before, meets.apart⟩
    rw [← (weaker a b isSame).2]
    exact (reads meets₁ limit depth (by omega)).weaken fun b isSame => (weaker a b isSame).1

/-- Less may be asked of what follows, and more room may be given. -/
theorem within {ends₁ : Prop} {need₁ : Nat} (given : Echoes rest ends₁ need₁ same up p q row)
    (stronger : ends → ends₁) (less : need₁ ≤ need) : Echoes rest ends need same up p q row :=
  given.mono stronger less fun _ _ isSame => ⟨isSame, rfl⟩

theorem alike {same₁ : α → β → Prop} (given : Echoes rest ends need same₁ up p q row)
    (weaker : ∀ a b, same₁ a b → same a b) : Echoes rest ends need same up p q row :=
  given.mono id (Nat.le_refl _) fun a b isSame => ⟨weaker a b isSame, rfl⟩

theorem pure {a : α} {b : β} (isSame : same a b) (isUp : up a = 0) :
    Echoes rest ends need same up (pure a) (pure b) row where
  there := by
    intro s c t faces run
    cases run
    refine ⟨row, faces, List.suffix_refl row, ?_, ⟨b, isSame⟩, fun _ _ _ _ => ?_⟩
    · rintro rfl
      simp
    · rw [isUp]
      exact .pure trivial isSame

/-- The result of a step that leaves the depth as it is. -/
theorem done {a : α} {b : β} (isSame : same a b) :
    Repeats rest ends need same (Pure.pure a) (Pure.pure b) row :=
  .pure isSame rfl

theorem bind {ends₁ : Prop} {R : γ → δ → Prop} {p : Parse γ} {q : Parse δ} {f : γ → Parse α}
    {g : δ → Parse β} (first : Repeats rest ends₁ need R p q row) (weaker : ends → ends₁)
    (next : ∀ a b left, R a b → left.length ≤ row.length →
      Echoes rest ends need same up (f a) (g b) left) :
    Echoes rest ends need same up (p >>= f) (q >>= g) row where
  there := by
    intro s a t faces run
    obtain ⟨c, middle, ran, run⟩ := ok_of_bind run
    obtain ⟨mid, faces₁, shorter₁, last₁, ⟨b, isSame⟩, reads₁⟩ := first.there s c middle faces ran
    have there b isSame := (next c b mid isSame shorter₁.length_le).there middle a t faces₁ run
    obtain ⟨left, faces₂, shorter₂, last₂, isThere, -⟩ := there b isSame
    refine ⟨left, faces₂, shorter₂.trans shorter₁, last_of_suffix shorter₁ last₁ last₂, isThere,
      fun meets limit depth room => ?_⟩
    refine (reads₁ (meets.earlier shorter₂ weaker last₂) limit depth room).after fun b isSame => ?_
    obtain ⟨left', faces', -, -, -, reads⟩ := there b isSame
    obtain rfl := faces₂.unique faces'
    exact reads meets limit depth room

/-- A first step of which it is known what it reads, whatever follows. -/
theorem after {R : γ → δ → Prop} {p : Parse γ} {q : Parse δ} {f : γ → Parse α} {g : δ → Parse β}
    (first : Repeats rest True need R p q row)
    (next : ∀ a b left, R a b → left.length ≤ row.length →
      Echoes rest ends need same up (f a) (g b) left) :
    Echoes rest ends need same up (p >>= f) (q >>= g) row :=
  first.bind (fun _ => trivial) next

/-- A first step at whose end the second one refuses the end of the input: nothing is asked of
what follows the first. -/
theorem inside {same₁ : γ → δ → Prop} {p : Parse γ} {q : Parse δ} {f : γ → Parse α}
    {g : δ → Parse β} (first : Repeats rest False need same₁ p q row)
    (refuses : ∀ a, Refuses (f a))
    (next : ∀ a b left, same₁ a b → left.length ≤ row.length →
      Echoes rest ends need same up (f a) (g b) left) :
    Echoes rest ends need same up (p >>= f) (q >>= g) row where
  there := by
    intro s a t faces run
    obtain ⟨c, middle, ran, run⟩ := ok_of_bind run
    obtain ⟨mid, faces₁, shorter₁, last₁, ⟨b, isSame⟩, reads₁⟩ := first.there s c middle faces ran
    have there b isSame := (next c b mid isSame shorter₁.length_le).there middle a t faces₁ run
    obtain ⟨left, faces₂, shorter₂, last₂, isThere, -⟩ := there b isSame
    refine ⟨left, faces₂, shorter₂.trans shorter₁, last_of_suffix shorter₁ last₁ last₂, isThere,
      fun meets limit depth room => ?_⟩
    have open' : mid ≠ [] := by
      rintro rfl
      exact refuses c middle a t faces₁ run
    have meets₁ : Meets rest False mid :=
      ⟨open', (meets.earlier shorter₂ id last₂).before, meets.apart⟩
    refine (reads₁ meets₁ limit depth room).after fun b isSame => ?_
    obtain ⟨left', faces', -, -, -, reads⟩ := there b isSame
    obtain rfl := faces₂.unique faces'
    exact reads meets limit depth room

/-- First steps that change nothing. -/
theorem still {p : Parse γ} {q : Parse δ} {f : γ → Parse α} {g : δ → Parse β} (isStill : Still p)
    (isStill' : Still q) (next : ∀ a b, Echoes rest ends need same up (f a) (g b) row) :
    Echoes rest ends need same up (p >>= f) (q >>= g) row where
  there := by
    intro s a t faces run
    obtain ⟨c, ran⟩ := isStill s
    rw [bind_ok ran] at run
    obtain ⟨d, -⟩ := isStill' s
    obtain ⟨left, faces', shorter, last, isThere, -⟩ := (next c d).there s a t faces run
    refine ⟨left, faces', shorter, last, isThere, fun meets limit depth room => ?_⟩
    refine .still isStill' fun d => ?_
    obtain ⟨left', faces'', -, -, -, reads⟩ := (next c d).there s a t faces run
    obtain rfl := faces'.unique faces''
    exact reads meets limit depth room

/-- A first step that only looks ahead. In both places it must see the same. -/
theorem sees (seen : List Kind → γ) {p : Parse γ} {f : γ → Parse α} {g : γ → Parse β}
    (looks : ∀ limit depth kinds, Reads limit True p depth kinds (· = seen kinds) depth kinds)
    (agrees : ∀ left, left <:+ row → (left = [] → row.getLast? ≠ some (.keyword .NOT)) →
      Meets rest ends left → g (seen (row ++ rest)) = g (seen row))
    (next : Echoes rest ends need same up (f (seen row)) (g (seen row)) row) :
    Echoes rest ends need same up (p >>= f) (p >>= g) row where
  there := by
    intro s a t faces run
    obtain ⟨c, middle, ran, run⟩ := ok_of_bind run
    obtain ⟨limit, depth, shows⟩ := faces
    obtain ⟨-, rfl, shows₁⟩ := (looks limit depth row).ok s c middle shows ran
    obtain ⟨left, faces', shorter, last, isThere, reads⟩ := next.there middle a t shows₁.faces run
    refine ⟨left, faces', shorter, last, isThere, fun meets limit depth room => ?_⟩
    refine (looks limit depth _).step ?_
    rw [agrees left shorter last meets]
    exact reads meets limit depth room

/-- A first look at the current token. At the end of the row the second step must do what it would
do at the end of the input. -/
theorem glance {p : Parse γ} {found : Kind → γ} {f : γ → Parse α} {g : γ → Parse β}
    (looks : Looks p found)
    (last : row = [] → ends → g (found (lead rest)) = g (found .endOfInput))
    (next : Echoes rest ends need same up (f (found (lead row))) (g (found (lead row))) row) :
    Echoes rest ends need same up (p >>= f) (p >>= g) row := by
  refine sees (fun kinds => found (lead kinds)) (fun limit depth kinds => looks.reads) ?_ next
  intro left shorter _ meets
  cases row with
  | nil => exact last rfl (meets.last (List.suffix_nil.mp shorter))
  | cons kind more => rfl

/-- A first look at the current token. At the end of the row the two steps must see the same. -/
theorem look {p : Parse γ} {found : Kind → γ} {f : γ → Parse α} {g : γ → Parse β}
    (looks : Looks p found) (last : row = [] → ends → found (lead rest) = found .endOfInput)
    (next : Echoes rest ends need same up (f (found (lead row))) (g (found (lead row))) row) :
    Echoes rest ends need same up (p >>= f) (p >>= g) row :=
  glance looks (fun none holds => congrArg g (last none holds)) next

/-- A step that refuses the end of the input succeeds only on a token at least. -/
theorem opens (refuses : Refuses p) (next : row ≠ [] → Echoes rest ends need same up p q row) :
    Echoes rest ends need same up p q row where
  there := by
    intro s a t faces run
    have opens : row ≠ [] := by
      rintro rfl
      exact refuses s a t faces run
    exact (next opens).there s a t faces run

/-- A first look, after which the end of the input is refused. -/
theorem lookInside {p : Parse γ} {found : Kind → γ} {f : γ → Parse α} {g : γ → Parse β}
    (looks : Looks p found) (refuses : Refuses (f (found .endOfInput)))
    (next : row ≠ [] → Echoes rest ends need same up (f (found (lead row))) (g (found (lead row))) row) :
    Echoes rest ends need same up (p >>= f) (p >>= g) row :=
  opens (.look looks refuses) fun opens => look looks (fun none => absurd none opens) (next opens)

theorem ite {condition : Prop} [Decidable condition] {p' : Parse α} {q' : Parse β}
    (yes : condition → Echoes rest ends need same up p q row)
    (no : ¬ condition → Echoes rest ends need same up p' q' row) :
    Echoes rest ends need same up (if condition then p else p') (if condition then q else q') row := by
  split
  · next holds => exact yes holds
  · next fails => exact no fails

/-- A step that does not succeed on the row has nothing to repeat. -/
theorem vacuous (fails : ∀ s a t, s.Faces row → p s ≠ .ok a t) :
    Echoes rest ends need same up p q row where
  there s a t faces run := absurd run (fails s a t faces)

theorem unexpected (expected : String) :
    Echoes rest ends need same up (unexpected expected) q row :=
  vacuous fun s a t _ run => by cases run

/-- A first step whose effect on the row is known. -/
theorem step {p : Parse γ} {q : Parse δ} {f : γ → Parse α} {g : δ → Parse β} {a : γ} {b : δ}
    {left : List Kind} (here : ∀ s c t, s.Faces row → p s = .ok c t → c = a ∧ t.Faces left)
    (there : ∀ limit depth, Reads limit True q depth (row ++ rest) (· = b) depth (left ++ rest))
    (shorter : left <:+ row)
    (last : left = [] → row.getLast? ≠ some (.keyword .NOT) ∨ Refuses (f a))
    (next : Echoes rest ends need same up (f a) (g b) left) :
    Echoes rest ends need same up (p >>= f) (q >>= g) row where
  there := by
    intro s c t faces run
    obtain ⟨d, middle, ran, run⟩ := ok_of_bind run
    obtain ⟨rfl, faces₁⟩ := here s d middle faces ran
    obtain ⟨left', faces₂, shorter₂, last₂, isThere, reads⟩ := next.there middle c t faces₁ run
    refine ⟨left', faces₂, shorter₂.trans shorter, last_of_suffix shorter ?_ last₂, isThere,
      fun meets limit depth room => (there limit depth).step (reads meets limit depth room)⟩
    intro none
    refine (last none).resolve_right fun refuses => ?_
    subst none
    exact refuses middle c t faces₁ run

end Echoes

/-! ## Taking tokens -/

/-- What is known of a step at a row does not hang on the depth. -/
theorem Reads.faces {p : Parse α} {good : α → Prop} {left : List Kind} {s t : State} {a : α}
    (given : ∀ limit depth, Reads limit True p depth row good depth left) (faces : s.Faces row)
    (run : p s = .ok a t) : good a ∧ t.Faces left := by
  obtain ⟨limit, depth, shows⟩ := faces
  obtain ⟨-, isGood, shows'⟩ := (given limit depth).ok s a t shows run
  exact ⟨isGood, shows'.faces⟩

/-- A row with a first token that is no end of the input is that token and the others. -/
theorem eq_cons_of_lead {kind : Kind} (isLead : lead row = kind) (noEnd : kind ≠ .endOfInput) :
    ∃ left, row = kind :: left := by
  cases row with
  | nil => exact absurd isLead.symm noEnd
  | cons other left => exact ⟨left, by rw [← isLead]; rfl⟩

theorem lead_append_ne {kind : Kind} (other : lead row ≠ kind) (last : row = [] → lead rest ≠ kind) :
    lead (row ++ rest) ≠ kind := by
  cases row with
  | nil => exact last rfl
  | cons first left => exact other

namespace Echoes

variable {same : α → β → Prop} {up : α → Nat}

section

variable {f : Unit → Parse α} {g : Unit → Parse β}

theorem advance {kind : Kind} {left : List Kind}
    (last : left = [] → kind ≠ .keyword .NOT ∨ Refuses (f ()))
    (next : Echoes rest ends need same up (f ()) (g ()) left) :
    Echoes rest ends need same up (Parse.advance >>= f) (Parse.advance >>= g) (kind :: left) := by
  refine step (fun s c t => Reads.faces fun limit depth => advance_reads.weaken fun _ _ => rfl)
    (fun limit depth => advance_reads.weaken fun _ _ => rfl) (List.suffix_cons kind left) ?_ next
  rintro rfl
  simpa using last rfl

/-- Takes what must be the current token. -/
theorem expect {p : Parse Unit} {kind : Kind} (noEnd : kind ≠ .endOfInput)
    (noNot : kind ≠ .keyword .NOT)
    (taken : ∀ limit depth left, Reads limit True p depth (kind :: left) (· = ()) depth left)
    (refused : ∀ limit depth kinds, lead kinds ≠ kind →
      Reads limit False p depth kinds (fun _ => False) depth kinds)
    (next : ∀ left, row = kind :: left → Echoes rest ends need same up (f ()) (g ()) left) :
    Echoes rest ends need same up (p >>= f) (p >>= g) row := by
  by_cases here : lead row = kind
  · obtain ⟨left, rfl⟩ := eq_cons_of_lead here noEnd
    refine step (fun s c t => Reads.faces fun limit depth => taken limit depth left)
      (fun limit depth => taken limit depth _) (List.suffix_cons _ left) ?_ (next left rfl)
    rintro rfl
    exact .inl (by simpa using noNot)
  · refine vacuous fun s a t faces run => ?_
    obtain ⟨limit, depth, shows⟩ := faces
    have fails : Reads limit False (p >>= f) depth row (fun _ => False) depth row :=
      .refused (refused limit depth row here) id
    exact (fails.ok s a t shows run).1

theorem expectSign {sign : Symbol} (next : ∀ left, row = .symbol sign :: left →
      Echoes rest ends need same up (f ()) (g ()) left) :
    Echoes rest ends need same up (Parse.expectSign sign >>= f) (Parse.expectSign sign >>= g) row :=
  expect (by simp) (by simp) (fun _ _ _ => expectSign_reads sign)
    (fun _ _ _ other => expectSign_refuses id other) next

theorem expectWord {word : Keyword} (other : word ≠ .NOT)
    (next : ∀ left, row = .keyword word :: left → Echoes rest ends need same up (f ()) (g ()) left) :
    Echoes rest ends need same up (Parse.expectWord word >>= f) (Parse.expectWord word >>= g) row :=
  expect (by simp) (by simpa using other) (fun _ _ _ => expectWord_reads word)
    (fun _ _ _ other => expectWord_refuses id other) next

end

section

variable {f : Bool → Parse α} {g : Bool → Parse β}

/-- Takes what may be the current token. At the end of the row the token must not follow, or going
on without it must fail. -/
theorem take {p : Parse Bool} {kind : Kind} (noEnd : kind ≠ .endOfInput)
    (taken : ∀ limit depth left, Reads limit True p depth (kind :: left) (· = true) depth left)
    (passed : ∀ limit depth kinds, lead kinds ≠ kind →
      Reads limit True p depth kinds (· = false) depth kinds)
    (other : kind ≠ .keyword .NOT ∨ Refuses (f true))
    (last : (ends → lead rest ≠ kind) ∨ Refuses (f false))
    (yes : ∀ left, row = kind :: left → Echoes rest ends need same up (f true) (g true) left)
    (no : lead row ≠ kind → Echoes rest ends need same up (f false) (g false) row) :
    Echoes rest ends need same up (p >>= f) (p >>= g) row := by
  by_cases here : lead row = kind
  · obtain ⟨left, rfl⟩ := eq_cons_of_lead here noEnd
    refine step (fun s c t => Reads.faces fun limit depth => taken limit depth left)
      (fun limit depth => taken limit depth _) (List.suffix_cons _ left) ?_ (yes left rfl)
    rintro rfl
    exact other.imp_left fun other => by simpa using other
  · refine ⟨fun s a t faces run => ?_⟩
    obtain ⟨found, middle, ran, run⟩ := ok_of_bind run
    obtain ⟨rfl, faces₁⟩ := Reads.faces (fun limit depth => passed limit depth row here) faces ran
    obtain ⟨left, faces₂, shorter, last₂, isThere, reads⟩ := (no here).there middle a t faces₁ run
    refine ⟨left, faces₂, shorter, last₂, isThere, fun meets limit depth room => ?_⟩
    refine (passed limit depth _ (lead_append_ne here fun none => ?_)).step
      (reads meets limit depth room)
    subst none
    exact last.resolve_right (fun refuses => refuses middle a t faces₁ run)
      (meets.last (List.suffix_nil.mp shorter))

theorem takeWordOr {word : Keyword} (other : word ≠ .NOT ∨ Refuses (f true))
    (last : (ends → lead rest ≠ .keyword word) ∨ Refuses (f false))
    (yes : ∀ left, row = .keyword word :: left → Echoes rest ends need same up (f true) (g true) left)
    (no : lead row ≠ .keyword word → Echoes rest ends need same up (f false) (g false) row) :
    Echoes rest ends need same up (Parse.takeWord word >>= f) (Parse.takeWord word >>= g) row :=
  take (by simp) (fun _ _ _ => takeWord_yes word) (fun _ _ _ => takeWord_no)
    (other.imp_left fun other => by simpa using other) last yes no

theorem takeWord {word : Keyword} (other : word ≠ .NOT)
    (last : (ends → lead rest ≠ .keyword word) ∨ Refuses (f false))
    (yes : ∀ left, row = .keyword word :: left → Echoes rest ends need same up (f true) (g true) left)
    (no : lead row ≠ .keyword word → Echoes rest ends need same up (f false) (g false) row) :
    Echoes rest ends need same up (Parse.takeWord word >>= f) (Parse.takeWord word >>= g) row :=
  takeWordOr (.inl other) last yes no

theorem takeSign {sign : Symbol} (last : (ends → lead rest ≠ .symbol sign) ∨ Refuses (f false))
    (yes : ∀ left, row = .symbol sign :: left → Echoes rest ends need same up (f true) (g true) left)
    (no : lead row ≠ .symbol sign → Echoes rest ends need same up (f false) (g false) row) :
    Echoes rest ends need same up (Parse.takeSign sign >>= f) (Parse.takeSign sign >>= g) row :=
  take (by simp) (fun _ _ _ => takeSign_yes sign) (fun _ _ _ => takeSign_no) (.inl (by simp)) last
    yes no

end

end Echoes

theorem expectWord_repeats {word : Keyword} (other : word ≠ .NOT) :
    Repeats rest ends need Eq (expectWord word) (expectWord word) row := by
  have whole : Repeats rest ends need Eq (expectWord word >>= pure) (expectWord word >>= pure) row :=
    .expectWord other fun _ _ => .done rfl
  rwa [bind_pure] at whole

theorem takeWord_repeats {word : Keyword} (other : word ≠ .NOT)
    (last : ends → lead rest ≠ .keyword word) :
    Repeats rest ends need Eq (takeWord word) (takeWord word) row := by
  have whole : Repeats rest ends need Eq (takeWord word >>= pure) (takeWord word >>= pure) row :=
    .takeWord other (.inl last) (fun _ _ => .done rfl) fun _ => .done rfl
  rwa [bind_pure] at whole

/-- No name is spelled as a reserved word. -/
theorem ne_not_of_name {kind : Kind} {name : Name} (isName : kind.name? = some name) :
    kind ≠ .keyword .NOT := by
  rintro rfl
  cases isName

theorem identifier_repeats : Repeats rest ends need Eq identifier identifier row := by
  refine .lookInside kind_looks (Refuses.unexpected _) fun opens => ?_
  obtain ⟨kind, left, rfl⟩ := List.exists_cons_of_ne_nil opens
  rw [lead_cons, id_eq]
  split
  · next name isName => exact .advance (fun _ => .inl (ne_not_of_name isName)) (.done rfl)
  · exact .vacuous fun s a t _ run => by cases run

/-- A look at the current token and the one after it. The second look of the row alone sees its
end if the word is all that is left. -/
theorem Echoes.atWordBefore {same : α → β → Prop} {up : α → Nat} {word : Keyword}
    {next : Kind → Bool} {f : Bool → Parse α} {g : Bool → Parse β}
    (last : row = [] → ends → lead rest ≠ .keyword word)
    (single : ∀ left, Meets rest ends left → next (lead rest) = next .endOfInput)
    (yes : ∀ more, row = .keyword word :: more → next (lead more) = true →
      Echoes rest ends need same up (f true) (g true) row)
    (no : (lead row = .keyword word → next (lead (row.drop 1)) = false) →
      Echoes rest ends need same up (f false) (g false) row) :
    Echoes rest ends need same up (Parse.atWordBefore word next >>= f)
      (Parse.atWordBefore word next >>= g) row := by
  let seen (kinds : List Kind) : Bool :=
    decide (lead kinds = .keyword word) && next (lead (kinds.drop 1))
  have looks (limit depth : Nat) (kinds : List Kind) :
      Reads limit True (Parse.atWordBefore word next) depth kinds (· = seen kinds) depth kinds := by
    rcases Classical.em (lead kinds = .keyword word) with here | elsewhere
    · exact (atWord_yes here).step (peek_reads.step (.pure trivial (by simp [seen, here])))
    · exact (atWord_no elsewhere).step (.pure trivial (by simp [seen, elsewhere]))
  refine .sees seen looks (fun left shorter _ meets => congrArg g ?_) ?_
  · match row with
    | [] => simp [seen, last rfl (meets.last (List.suffix_nil.mp shorter))]
    | [kind] =>
      by_cases here : kind = .keyword word
      · simp [seen, here, single left meets]
      · simp [seen, here]
    | kind :: other :: more => rfl
  · cases isSeen : seen row with
    | true =>
      simp only [seen, Bool.and_eq_true, decide_eq_true_eq] at isSeen
      obtain ⟨more, rfl⟩ := eq_cons_of_lead isSeen.1 (by simp)
      exact yes more rfl isSeen.2
    | false => exact no fun here => by simpa [seen, here] using isSeen

/-! ## Recursion -/

/-- The depth that `enter` gives up is counted. -/
theorem Echoes.enter {same : α → β → Prop} {up : α → Nat} {f : Unit → Parse α} {g : Unit → Parse β}
    (next : Echoes rest ends need same up (f ()) (g ()) row) :
    Echoes rest ends (need + 1) same (fun a => up a + 1) (Parse.enter >>= f) (Parse.enter >>= g)
      row where
  there := by
    intro s a t faces run
    obtain ⟨u, middle, ran, run⟩ := ok_of_bind run
    obtain rfl := enter_eq ran
    cases u
    obtain ⟨left, faces', shorter, last, isThere, reads⟩ :=
      next.there { s with depth := s.depth + 1 } a t (faces.congr rfl rfl rfl) run
    refine ⟨left, faces', shorter, last, isThere, fun meets limit depth room => ?_⟩
    refine (enter_reads (by omega)).step ?_
    have there := reads meets limit (depth + 1) (by omega)
    rwa [show depth + 1 + up a = depth + (up a + 1) by omega] at there

/-- A step that comes back from the levels it has entered, and gives a part of its result. -/
theorem Echoes.leaves {same₁ : γ → δ → Prop} {up₁ : γ → Nat} {same : α → β → Prop} {p : Parse γ}
    {q : Parse δ} {levels : γ → Nat} {levels' : δ → Nat} {value : γ → α} {value' : δ → β}
    (first : Echoes rest ends need same₁ up₁ p q row)
    (right : ∀ a b, same₁ a b → levels' b = up₁ a ∧ same (value a) (value' b)) :
    Repeats rest ends need same
      (do let a ← p; leave (levels a); return value a)
      (do let b ← q; leave (levels' b); return value' b) row where
  there := by
    intro s a t faces run
    obtain ⟨c, middle, ran, run⟩ := ok_of_bind run
    obtain ⟨left, faces', shorter, last, ⟨d, isSame⟩, reads⟩ := first.there s c middle faces ran
    have result : EStateM.Result.ok (value c) { middle with depth := middle.depth - levels c } =
      .ok a t := run
    obtain ⟨rfl, rfl⟩ := EStateM.Result.ok.inj result
    refine ⟨left, faces'.congr rfl rfl rfl, shorter, last, ⟨value' d, (right c d isSame).2⟩,
      fun meets limit depth room => ?_⟩
    refine (reads meets limit depth room).after fun d isSame => ?_
    rw [← (right c d isSame).1]
    exact (leave_reads (levels' d)).step (.pure trivial (right c d isSame).2)

theorem nested_repeats {same : α → β → Prop} {p : Parse α} {q : Parse β}
    (inner : Repeats rest ends need same p q row) :
    Repeats rest ends (need + 1) same (nested p) (nested q) row where
  there := by
    intro s a t faces run
    obtain ⟨u, entered, ran, run⟩ := ok_of_bind run
    obtain rfl := enter_eq ran
    obtain ⟨c, middle, ran, run⟩ := ok_of_bind run
    obtain ⟨left, faces', shorter, last, isThere, reads⟩ :=
      inner.there { s with depth := s.depth + 1 } c middle (faces.congr rfl rfl rfl) ran
    have result : EStateM.Result.ok c { middle with depth := middle.depth - 1 } = .ok a t := run
    obtain ⟨rfl, rfl⟩ := EStateM.Result.ok.inj result
    exact ⟨left, faces'.congr rfl rfl rfl, shorter, last, isThere, fun meets limit depth room =>
      .nested (by omega) (reads meets limit (depth + 1) (by omega))⟩

/-! ## Loops -/

/-- What a round gives in the two places: an end, or values that agree, at a level that has
risen. -/
inductive Again (same : σ → τ → Prop) (level : σ → Nat) (rise : Nat) (value : σ) :
    Option σ → Option τ → Prop
  | stop : Again same level rise value none none
  | more {next : σ} {next' : τ} (isSame : same next next') (rises : level next = level value + rise) :
    Again same level rise value (some next) (some next')

/-- The levels that a round enters. -/
def risen (rise : Nat) (next : Option σ) : Nat := if next.isSome then rise else 0

/-- The rounds of a loop, each of which takes a token and enters two levels at most. The induction
is on the rounds that were made on the row alone. -/
theorem iterate_loops {step : σ → Parse (Option σ)} {step' : τ → Parse (Option τ)}
    {same : σ → τ → Prop} {level : σ → Nat} {rise spare : Nat} (low : rise ≤ 2) (bound : Nat)
    {value : σ} {value' : τ} (begin : same value value')
    (rounds : ∀ v w left, same v w → left.length ≤ row.length →
      Echoes rest ends (2 * left.length + spare) (Again same level rise v) (risen rise) (step v)
        (step' w) left)
    {s t : State} {a : σ} (faces : s.Faces row)
    (run : iterate (round step) bound value s = .ok a t) :
    ∃ left, t.Faces left ∧ left <:+ row ∧
      (left = [] → row.getLast? ≠ some (.keyword .NOT)) ∧ (∃ b, same a b) ∧ level value ≤ level a ∧
      (Meets rest ends left → ∀ limit depth, depth + (2 * row.length + spare) ≤ capOf limit →
        Loops limit True step' value' depth (row ++ rest) (same a)
          (depth + (level a - level value)) (left ++ rest)) := by
  induction bound generalizing row value value' s with
  | zero => cases run
  | succ bound ih =>
    obtain ⟨next, middle, ran, run⟩ := ok_of_bind run
    obtain ⟨ran, fewer⟩ := round_ok ran
    have isThere := rounds value value' row begin (Nat.le_refl _)
    obtain ⟨mid, faces₁, shorter₁, last₁, ⟨next', isSame⟩, reads₁⟩ :=
      isThere.there s next middle faces ran
    cases next with
    | none =>
      -- a round that stops on the row alone stops here too
      cases run
      refine ⟨mid, faces₁, shorter₁, last₁, ⟨value', begin⟩, Nat.le_refl _,
        fun meets limit depth room => ?_⟩
      rw [Nat.sub_self]
      refine .stop ((reads₁ meets limit depth room).weaken ?_) trivial begin
      rintro _ ⟨⟩
      rfl
    | some next =>
      cases isSame with
      | more isSame rises =>
      have fewer : mid.length < row.length := by
        have fewer := fewer (by simp)
        rwa [faces₁.ahead_length, faces.ahead_length] at fewer
      have others v w left (same : same v w) (few : left.length ≤ mid.length) :=
        rounds v w left same (by omega)
      -- the rounds that follow are made on what this one left, which is shorter
      obtain ⟨left, faces₂, shorter₂, last₂, isThere, above, -⟩ := ih isSame others faces₁ run
      refine ⟨left, faces₂, shorter₂.trans shorter₁, last_of_suffix shorter₁ last₁ last₂, isThere,
        by omega, fun meets limit depth room => ?_⟩
      have first := reads₁ (meets.earlier shorter₂ id last₂) limit depth room
      have found : Reads limit True (step' value') depth (row ++ rest)
          (fun other => ∃ v, other = some v ∧ same next v) (depth + risen rise (some next))
          (mid ++ rest) := by
        refine first.weaken ?_
        rintro _ ⟨⟩
        exact ⟨_, rfl, ‹_›⟩
      -- the round here gives a value of its own, which agrees with the one on the row alone
      refine .next found (fun _ => trivial) (by simpa using fewer) fun _ v isSame => ?_
      obtain ⟨left', faces', -, -, -, -, loops⟩ := ih isSame others faces₁ run
      obtain rfl := faces₂.unique faces'
      have rose : risen rise (some next) = rise := rfl
      have there := loops meets limit (depth + risen rise (some next)) (by omega)
      rwa [show depth + (level a - level value) =
        depth + risen rise (some next) + (level a - level next) by omega]

/-- A loop whose rounds take a token each and enter two levels at most. -/
theorem loop_echoes (rise spare : Nat) {step : σ → Parse (Option σ)} {step' : τ → Parse (Option τ)}
    {same : σ → τ → Prop} {level : σ → Nat} (low : rise ≤ 2)
    {value : σ} {value' : τ} (begin : same value value') (ground : level value = 0)
    (rounds : ∀ v w left, same v w → left.length ≤ row.length →
      Echoes rest ends (2 * left.length + spare) (Again same level rise v) (risen rise) (step v)
        (step' w) left) :
    Echoes rest ends (2 * row.length + spare) same level (loop step value) (loop step' value')
      row where
  there := by
    intro s a t faces run
    obtain ⟨left, faces', shorter, last, isThere, -, loops⟩ :=
      iterate_loops low _ begin rounds faces run
    refine ⟨left, faces', shorter, last, isThere, fun meets limit depth room => ?_⟩
    have there := (loops meets limit depth room).loop
    rwa [ground, Nat.sub_zero] at there

/-- A loop that enters no level. -/
theorem loop_repeats (spare : Nat) {step : σ → Parse (Option σ)} {step' : τ → Parse (Option τ)}
    {same : σ → τ → Prop} {value : σ} {value' : τ} (begin : same value value')
    (rounds : ∀ v w left, same v w → left.length ≤ row.length →
      Repeats rest ends (2 * left.length + spare) (Option.Rel same) (step v) (step' w) left) :
    Repeats rest ends (2 * row.length + spare) same (loop step value) (loop step' value') row := by
  refine loop_echoes 0 spare (Nat.zero_le 2) begin rfl fun v w left isSame few => ?_
  refine (rounds v w left isSame few).mono id (Nat.le_refl _) fun a b agree => ?_
  cases agree with
  | none => exact ⟨.stop, rfl⟩
  | some isSame => exact ⟨.more isSame rfl, rfl⟩

/-! ## Lists and names -/

theorem commaSeparated_repeats (ends : Prop) (row : List Kind) (spare : Nat) {same : α → β → Prop}
    {p : Parse α} {q : Parse β} {ends₁ : Prop} (stops : ends → lead rest ≠ .symbol .comma) (weaker : ends → ends₁)
    (item : ∀ left, left.length ≤ row.length →
      Repeats rest ends₁ (2 * left.length + spare) same p q left) :
    Repeats rest ends (2 * row.length + spare) (List.Forall₂ same) (commaSeparated p)
      (commaSeparated q) row := by
  refine (item row (Nat.le_refl _)).bind weaker fun a b left isSame shorter => ?_
  have rounds (v : List α) (w : List β) (left' : List Kind) (agree : List.Forall₂ same v w)
      (few : left'.length ≤ left.length) :
      Repeats rest ends (2 * left'.length + spare) (Option.Rel (List.Forall₂ same))
        (itemAfterComma p v) (itemAfterComma q w) left' := by
    refine .takeSign (.inl stops) (fun more isMore => ?_) fun _ => .done .none
    subst isMore
    have few : more.length + 1 ≤ left.length := few
    refine .within (.bind (item more (by omega)) weaker fun a b more' isSame _ => .done (.some ?_))
      id (by simp only [List.length_cons]; omega)
    exact List.rel_append agree (.cons isSame .nil)
  exact (loop_repeats spare (.cons isSame .nil) rounds).within id (by omega)

theorem parenthesized_repeats {same : α → β → Prop} {p : Parse α} {q : Parse β}
    (inner : ∀ left, row = .symbol .leftParen :: left → Repeats rest False need same p q left) :
    Repeats rest ends need same (parenthesized p) (parenthesized q) row := by
  refine .expectSign fun left isRow => .inside (inner left isRow) ?_ fun a b more isSame _ => ?_
  · exact fun _ => (Refuses.expectSign _).bind _
  · exact .expectSign fun _ _ => .done isSame

theorem qualifiedName_repeats (stops : ends → lead rest ≠ .symbol .dot) :
    Repeats rest ends (2 * row.length) Eq qualifiedName qualifiedName row := by
  refine .after identifier_repeats fun name _ left same few => ?_
  subst same
  refine Echoes.bind (R := Eq) ?_ id fun parts _ _ same _ => ?_
  · refine .within (loop_repeats 0 rfl fun v w more same _ => ?_) id (by omega)
    subst same
    refine .takeSign (.inl stops) (fun more _ => ?_) fun _ => .done .none
    exact .after identifier_repeats fun name _ _ same _ =>
      .done (.some (by rw [same]))
  · exact .done (by rw [same])

theorem names_repeats : Repeats rest ends (2 * row.length) Eq names names row := by
  refine parenthesized_repeats fun left isRow => ?_
  have items : Repeats rest False (2 * left.length + 0) (List.Forall₂ Eq)
      (commaSeparated identifier) (commaSeparated identifier) left :=
    commaSeparated_repeats False left 0 False.elim (fun _ => trivial) fun _ _ => identifier_repeats
  refine (items.within id ?_).alike fun them them' agree => ?_
  · rw [isRow, List.length_cons]
    omega
  · rwa [List.forall₂_eq_eq_eq] at agree

theorem optionalNames_repeats (stops : ends → lead rest ≠ .symbol .leftParen) :
    Repeats rest ends (2 * row.length) Eq optionalNames optionalNames row := by
  refine .look (atSign_looks _) (fun _ holds => by simp [stops holds]) (.ite (fun _ => names_repeats)
    fun _ => .done rfl)

theorem setQuantifier_repeats (noAll : ends → lead rest ≠ .keyword .ALL)
    (noDistinct : ends → lead rest ≠ .keyword .DISTINCT) :
    Repeats rest ends need Eq setQuantifier setQuantifier row :=
  .takeWord (by simp) (.inl noAll) (fun _ _ => .done rfl) fun _ =>
    .takeWord (by simp) (.inl noDistinct) (fun _ _ => .done rfl) fun _ => .done rfl

theorem optionalAlias_repeats (noAs : ends → lead rest ≠ .keyword .AS)
    (noName : ends → (lead rest).isIdentifier = false) :
    Repeats rest ends need Eq optionalAlias optionalAlias row := by
  have named (left : List Kind) : Repeats rest ends need Eq (do return some (← identifier))
      (do return some (← identifier)) left :=
    .after identifier_repeats fun _ _ _ same _ =>
      .done (by rw [same])
  refine .takeWord (by simp) (.inl noAs) (fun _ _ => ?_) fun _ => .glance kind_looks ?_ (.ite
    (fun _ => named _) fun _ => .done rfl)
  · exact named _
  · intro _ holds
    rw [id_eq, noName holds]
    rfl

end Parse

end CanonicalSql
