import Mathlib.Tactic

/-!
# Runs of a system of events

A system is a function that says what an event makes of a state, or that it fails.
-/

namespace Vesal.Library

variable {σ ε φ : Type} {step : σ → ε → Except φ σ} {allowed : σ → ε → Prop}

/-- A state leads to another by events that are all allowed where they happen. -/
def Runs (step : σ → ε → Except φ σ) (allowed : σ → ε → Prop) : σ → σ → Prop :=
  Relation.ReflTransGen fun s s' => ∃ ev, allowed s ev ∧ step s ev = .ok s'

/-- The state after a list of events. -/
def runEvents (step : σ → ε → Except φ σ) (s : σ) (events : List ε) : Except φ σ := events.foldlM step s

lemma exists_of_bind_eq_ok {α β : Type} {x : Except φ α} {f : α → Except φ β} {b : β} (h : x >>= f = .ok b) :
    ∃ a, x = .ok a ∧ f a = .ok b := by
  cases x with
  | error fault => cases h
  | ok a => exact ⟨a, rfl, h⟩

/-- What holds at first and is kept by every event holds in every state of a run. -/
theorem Runs.invariant {P : σ → Prop} {s s' : σ} (h : Runs step allowed s s') (hinit : P s)
    (hstep : ∀ s ev s', P s → allowed s ev → step s ev = .ok s' → P s') : P s' := by
  induction h with
  | refl => exact hinit
  | tail _ hnext ih =>
    obtain ⟨ev, hallowed, hev⟩ := hnext
    exact hstep _ ev _ ih hallowed hev

lemma Runs.mono {allowed' : σ → ε → Prop} {s s' : σ} (h : Runs step allowed s s')
    (hallowed : ∀ s ev, allowed s ev → allowed' s ev) : Runs step allowed' s s' := by
  refine h.lift id ?_
  rintro s s' ⟨ev, hev, hstep⟩
  exact ⟨ev, hallowed s ev hev, hstep⟩

theorem runEvents_cons {s s' : σ} {ev : ε} (h : step s ev = .ok s') (events : List ε) :
    runEvents step s (ev :: events) = runEvents step s' events := by
  unfold runEvents
  rw [List.foldlM_cons, h]
  rfl

/-- Whether every event passes a check where it happens, and the last state has a property. -/
def reaches (step : σ → ε → Except φ σ) (check : σ → ε → Bool) (goal : σ → Bool) : σ → List ε → Bool
  | s, [] => goal s
  | s, ev :: events => check s ev &&
    match step s ev with
    | .ok s' => reaches step check goal s' events
    | .error _ => false

/-- A run that was computed is a run. -/
theorem exists_runs_of_reaches (step : σ → ε → Except φ σ) (s : σ) (events : List ε) (check : σ → ε → Bool)
    (goal : σ → Bool) (hcheck : ∀ s ev, check s ev = true → allowed s ev)
    (h : reaches step check goal s events = true) :
    ∃ s', Runs step allowed s s' ∧ runEvents step s events = .ok s' ∧ goal s' = true := by
  induction events generalizing s with
  | nil => exact ⟨s, Relation.ReflTransGen.refl, rfl, h⟩
  | cons ev events ih =>
    unfold reaches at h
    rw [Bool.and_eq_true] at h
    cases hev : step s ev with
    | error fault => simp [hev] at h
    | ok s₁ =>
      obtain ⟨s', hruns, hrun, hgoal⟩ := ih s₁ (by simpa [hev] using h.2)
      refine ⟨s', Relation.ReflTransGen.head ⟨ev, hcheck s ev h.1, hev⟩ hruns, ?_, hgoal⟩
      rw [runEvents_cons hev]
      exact hrun

end Vesal.Library
