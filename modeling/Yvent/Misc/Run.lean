import Mathlib.Data.List.Basic

/-!
# Runs of a labelled step function

A concurrent component is a partial step function `step : State → Label → Option State`: the
label says which thread moves and what its environment answers, and `none` means that the step
is not enabled. `Reaches step ok s t` is the set of states reached from `s` by steps that each
meet the side condition `ok` in the state they are taken from; `ok` is how a statement speaks
about some of the runs only.
-/

namespace Yvent

universe u v

variable {State : Type u} {Label : Type v} {step : State → Label → Option State}
  {ok ok' : State → Label → Prop} {s t u : State}

/-- The states reached from `s` by steps that meet `ok`. -/
inductive Reaches (step : State → Label → Option State) (ok : State → Label → Prop) (s : State) :
    State → Prop
  | refl : Reaches step ok s s
  | tail {t u : State} (l : Label) : Reaches step ok s t → ok t l → step t l = some u →
      Reaches step ok s u

/-- The side condition that every step meets. -/
def anyStep : State → Label → Prop := fun _ _ => True

theorem Reaches.trans (first : Reaches step ok s t) (second : Reaches step ok t u) :
    Reaches step ok s u := by
  induction second with
  | refl => exact first
  | tail l _ good taken ih => exact ih.tail l good taken

/-- A weaker side condition allows more runs. -/
theorem Reaches.mono (weaker : ∀ s l, ok s l → ok' s l) (reached : Reaches step ok s t) :
    Reaches step ok' s t := by
  induction reached with
  | refl => exact .refl
  | tail l _ good taken ih => exact ih.tail l (weaker _ l good) taken

/-- What holds at the start and is kept by every step of a run holds at its end. The state a step
is taken from is itself reached, so an invariant proved earlier may be used. -/
theorem Reaches.invariant {I : State → Prop} (start : I s)
    (kept : ∀ t l u, Reaches step ok s t → I t → ok t l → step t l = some u → I u)
    (reached : Reaches step ok s t) : I t := by
  induction reached with
  | refl => exact start
  | tail l before good taken ih => exact kept _ l _ before ih good taken

/-- Take the labels of a list in order. -/
def exec (step : State → Label → Option State) : List Label → State → Option State
  | [], s => some s
  | l :: ls, s => (step s l).bind (exec step ls)

theorem exec_append (labels labels' : List Label) (s : State) :
    exec step (labels ++ labels') s = (exec step labels s).bind (exec step labels') := by
  induction labels generalizing s with
  | nil => rfl
  | cons l ls ih =>
    rw [List.cons_append, exec, exec, Option.bind_assoc]
    exact congrArg _ (funext ih)

/-- The step function restricted to the steps that meet `ok`. -/
def guarded (step : State → Label → Option State) (ok : State → Label → Prop)
    [∀ s l, Decidable (ok s l)] (s : State) (l : Label) : Option State :=
  if ok s l then step s l else none

/-- A concrete list of labels is a run when it executes. -/
theorem reaches_of_exec (labels : List Label) (run : exec step labels s = some t) :
    Reaches step anyStep s t := by
  induction labels generalizing s with
  | nil =>
    cases run
    exact .refl
  | cons l ls ih =>
    obtain ⟨u, taken, rest⟩ := Option.bind_eq_some_iff.mp run
    exact (Reaches.refl.tail l trivial taken).trans (ih rest)

theorem Reaches.of_guarded [∀ s l, Decidable (ok s l)] {P : State → Label → Prop}
    (reached : Reaches (guarded step ok) P s t) : Reaches step ok s t := by
  induction reached with
  | refl => exact .refl
  | @tail t u l _ _ taken ih =>
    by_cases good : ok t l
    · rw [guarded, if_pos good] at taken
      exact ih.tail l good taken
    · rw [guarded, if_neg good] at taken
      cases taken

/-- A concrete list of labels is a run of good steps when it executes under the guard. -/
theorem reaches_of_exec_guarded [∀ s l, Decidable (ok s l)] (labels : List Label)
    (run : exec (guarded step ok) labels s = some t) : Reaches step ok s t := by
  have plain : Reaches (guarded step ok) anyStep s t := reaches_of_exec labels run
  exact plain.of_guarded

/-- A run of good steps whose last state was computed and found to satisfy `p`. -/
theorem exists_reaches_of_exec [∀ s l, Decidable (ok s l)] {p : State → Prop} [DecidablePred p]
    (labels : List Label)
    (run : (exec (guarded step ok) labels s).any (fun t => decide (p t)) = true) :
    ∃ t, Reaches step ok s t ∧ p t := by
  obtain ⟨t, executed, holds⟩ := (Option.any_eq_true _ _).mp run
  exact ⟨t, reaches_of_exec_guarded labels executed, of_decide_eq_true holds⟩

instance : ∀ (s : State) (l : Label), Decidable (anyStep s l) := fun _ _ => isTrue trivial

/-- How many of the steps that a list of labels takes are of the kind `kind`. -/
def countSteps (step : State → Label → Option State) (kind : State → Label → Bool) :
    List Label → State → Nat
  | [], _ => 0
  | l :: ls, s => (if kind s l then 1 else 0) + (step s l).elim 0 (countSteps step kind ls)

theorem guarded_anyStep : guarded step anyStep = step := by
  funext s l
  exact if_pos trivial

theorem exec_cons_guarded [∀ s l, Decidable (ok s l)] {l : Label} {ls : List Label}
    (good : ok s l) (taken : step s l = some t) :
    exec (guarded step ok) (l :: ls) s = exec (guarded step ok) ls t := by
  rw [exec, guarded, if_pos good, taken]
  rfl

theorem countSteps_cons {kind : State → Label → Bool} {l : Label} {ls : List Label}
    (taken : step s l = some t) :
    countSteps step kind (l :: ls) s = (if kind s l then 1 else 0) + countSteps step kind ls t := by
  rw [countSteps, taken]
  rfl

/-- Steps of the kind `kind` that each use up one unit of a budget, where each step of the kind
`refills` brings `refill` new ones. -/
theorem countSteps_le_refill [∀ s l, Decidable (ok s l)] {I : State → Prop}
    (kind refills : State → Label → Bool) (budget : State → Nat) (refill : Nat)
    (kept : ∀ s l t, I s → ok s l → step s l = some t → I t ∧
      (if kind s l then 1 else 0) + budget t ≤ budget s + refill * if refills s l then 1 else 0)
    {labels : List Label} (start : I s) (run : exec (guarded step ok) labels s = some t) :
    countSteps step kind labels s ≤ budget s + refill * countSteps step refills labels s := by
  induction labels generalizing s with
  | nil => exact Nat.zero_le _
  | cons l ls ih =>
    obtain ⟨u, guard, rest⟩ := Option.bind_eq_some_iff.mp run
    unfold guarded at guard
    split at guard
    · next good =>
      obtain ⟨next, used⟩ := kept s l u start good guard
      have later := ih next rest
      rw [countSteps_cons guard, countSteps_cons guard, Nat.mul_add]
      omega
    · cases guard

/-- Steps of a kind that each use up one unit of a budget, which no step refills. -/
theorem countSteps_le {kind : State → Label → Bool} {I : State → Prop} (budget : State → Nat)
    (kept : ∀ s l t, I s → step s l = some t →
      I t ∧ (if kind s l then 1 else 0) + budget t ≤ budget s)
    {labels : List Label} (start : I s) (run : exec step labels s = some t) :
    countSteps step kind labels s ≤ budget s := by
  have run' : exec (guarded step anyStep) labels s = some t := by rwa [guarded_anyStep]
  have bound := countSteps_le_refill kind (fun _ _ => false) budget 0
    (fun s l t start _ taken => ?_) start run'
  · simpa using bound
  · simpa using kept s l t start taken

end Yvent
