import CanonicalSql.Proofs.Reading.Basic

/-!
# Rounds that follow each other

`Leads limit step before depth kinds after depth' rest` says that some rounds of a loop lead from
each value with the property `before`, where the state shows the row `kinds`, to a value with the
property `after`, where it shows `rest`. What the loop does from there is left open: it may stop,
go on or fail. So what is known of the rounds for one operand can be put in front of what is known
of the rounds for the next one (`Leads.trans`), and a tree that leans to the left is read from its
left end on.
-/
namespace CanonicalSql.Parse

variable {σ : Type} {limit depth middle depth' : Nat} {kinds mid rest : List Kind}
  {step : σ → Parse (Option σ)} {before between after : σ → Prop}

/-- Some rounds lead from a value and a state to others. -/
inductive Reaches (step : σ → Parse (Option σ)) : σ → State → σ → State → Prop
  | refl (v : σ) (s : State) : Reaches step v s v s
  | next {v w v' : σ} {s middle s' : State} (run : round step v s = .ok (some w) middle)
    (others : Reaches step w middle v' s') : Reaches step v s v' s'

namespace Reaches

variable {v w v' : σ} {s t s' : State}

theorem trans (first : Reaches step v s w t) (second : Reaches step w t v' s') :
    Reaches step v s v' s' := by
  induction first with
  | refl => exact second
  | next run _ ih => exact .next run (ih second)

/-- The loop does what it does from where the rounds lead to. -/
theorem iterate (reaches : Reaches step v s v' s') {bound : Nat} (enough : s.ahead.length < bound) :
    ∃ bound', s'.ahead.length < bound' ∧
      iterate (round step) bound v s = Parse.iterate (round step) bound' v' s' := by
  induction reaches generalizing bound with
  | refl => exact ⟨bound, enough, rfl⟩
  | @next v w v' s middle s' run _ ih =>
    obtain ⟨bound, rfl⟩ : ∃ fewer, bound = fewer + 1 := ⟨bound - 1, by omega⟩
    have shorter := (round_ok run).2 (by simp)
    obtain ⟨bound', enough', same⟩ := ih (show middle.ahead.length < bound by omega)
    exact ⟨bound', enough', .trans (bind_ok run) same⟩

end Reaches

/-- Some rounds lead from one kind of value and row to another one. -/
def Leads (limit : Nat) (step : σ → Parse (Option σ)) (before : σ → Prop) (depth : Nat)
    (kinds : List Kind) (after : σ → Prop) (depth' : Nat) (rest : List Kind) : Prop :=
  ∀ v s, before v → s.Shows limit depth kinds →
    ∃ v' s', after v' ∧ s'.Shows limit depth' rest ∧ Reaches step v s v' s'

namespace Leads

theorem none (weaker : ∀ v, before v → after v) :
    Leads limit step before depth kinds after depth kinds :=
  fun v s isBefore shows => ⟨v, s, weaker v isBefore, shows, .refl v s⟩

theorem trans (first : Leads limit step before depth kinds between middle mid)
    (second : Leads limit step between middle mid after depth' rest) :
    Leads limit step before depth kinds after depth' rest := by
  intro v s isBefore shows
  obtain ⟨v₁, s₁, isBetween, shows₁, reaches₁⟩ := first v s isBefore shows
  obtain ⟨v₂, s₂, isAfter, shows₂, reaches₂⟩ := second v₁ s₁ isBetween shows₁
  exact ⟨v₂, s₂, isAfter, shows₂, reaches₁.trans reaches₂⟩

/-- One round takes a token at least. -/
theorem one (shorter : rest.length < kinds.length)
    (reads : ∀ v, before v → Reads limit True (step v) depth kinds
      (fun next => ∃ w, next = some w ∧ after w) depth' rest) :
    Leads limit step before depth kinds after depth' rest := by
  intro v s isBefore shows
  have given := (reads v isBefore).round fun _ _ => .inr shorter
  cases run : round step v s with
  | ok next s' =>
    obtain ⟨-, ⟨w, rfl, isAfter⟩, shows'⟩ := given.ok s next s' shows run
    exact ⟨w, s', isAfter, shows', .next run (.refl w s')⟩
  | error failure s' => exact absurd trivial (given.error s failure s' shows run).1

/-- The loop ends behind the rounds. -/
theorem loop (leads : Leads limit step before depth kinds after depth' rest)
    (last : ∀ v, after v → Reads limit True (step v) depth' rest (· = Option.none) depth' rest)
    {v : σ} (isBefore : before v) :
    Reads limit True (loop step v) depth kinds after depth' rest := by
  have runs (s : State) (shows : s.Shows limit depth kinds) :
      ∃ v' s' bound', after v' ∧ s'.Shows limit depth' rest ∧ rest.length < bound' ∧
        Parse.loop step v s = iterate (round step) bound' v' s' := by
    obtain ⟨v', s', isAfter, shows', reaches⟩ := leads v s isBefore shows
    obtain ⟨bound', enough, same⟩ :=
      reaches.iterate (show s.ahead.length < s.ahead.length + 2 by omega)
    rw [shows'.ahead_length] at enough
    exact ⟨v', s', bound', isAfter, shows', enough, same⟩
  have stops {v' : σ} (isAfter : after v') : Loops limit True step v' depth' rest after depth' rest :=
    .stop (last v' isAfter) trivial isAfter
  refine ⟨fun s a t shows run => ?_, fun s failure t shows run => ?_⟩ <;>
    obtain ⟨v', s', bound, isAfter, shows', enough, same⟩ := runs s shows <;>
    rw [same] at run
  · exact ((stops isAfter).rounds bound enough).ok s' a t shows' run
  · exact ((stops isAfter).rounds bound enough).error s' failure t shows' run

end Leads

end CanonicalSql.Parse
