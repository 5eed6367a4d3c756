import Mathlib.Data.List.Forall2
import Mathlib.Data.Option.Basic

/-!
# Guarded runs of a partial step function

A system is a partial function `step : σ → α → Option σ`; `none` means that the
action is not enabled.
-/

namespace GuardedRun

open List

universe u v w

variable {σ : Type u} {τ : Type v} {α : Type w}

/-- A run of `step` in which every step meets `guard`. -/
inductive Run (step : σ → α → Option σ) (guard : σ → α → Prop) : σ → List α → σ → Prop
  | nil (state : σ) : Run step guard state [] state
  | cons {source middle target : σ} {action : α} {rest : List α} :
      guard source action → step source action = some middle →
      Run step guard middle rest target → Run step guard source (action :: rest) target

def anyStep : σ → α → Prop := fun _ _ => True

def Reachable (step : σ → α → Option σ) (initial : σ → Prop) (state : σ) : Prop :=
  ∃ source actions, initial source ∧ Run step anyStep source actions state

instance (state : σ) (action : α) : Decidable (anyStep state action) :=
  inferInstanceAs (Decidable True)

def exec (step : σ → α → Option σ) (guard : σ → α → Prop)
    [∀ state action, Decidable (guard state action)] :
    σ → List α → Option σ
  | state, [] => some state
  | state, action :: rest =>
    if guard state action then
      match step state action with
      | none => none
      | some next => exec step guard next rest
    else none

variable {step : σ → α → Option σ} {guard : σ → α → Prop}

namespace Run

variable {source target : σ} {actions : List α}

theorem append {middle : σ} {first second : List α} (firstRun : Run step guard source first middle)
    (secondRun : Run step guard middle second target) :
    Run step guard source (first ++ second) target := by
  induction firstRun with
  | nil => exact secondRun
  | cons allowed enabled _ ih => exact .cons allowed enabled (ih secondRun)

variable (run : Run step guard source actions target)

include run

theorem guard_of_mem {action : α} (mem : action ∈ actions) : ∃ state, guard state action := by
  induction run with
  | nil => cases mem
  | cons allowed _ _ ih =>
    rcases mem_cons.mp mem with rfl | later
    · exact ⟨_, allowed⟩
    · exact ih later

theorem restrict {admitted : α → Prop} (all : ∀ action ∈ actions, admitted action) :
    Run step (fun _ action => admitted action) source actions target := by
  induction run with
  | nil state => exact .nil state
  | cons _ enabled _ ih =>
    obtain ⟨first, rest⟩ := forall_mem_cons.mp all
    exact .cons first enabled (ih rest)

theorem invariant (inv : σ → Prop)
    (stepInvariant : ∀ state action next,
        inv state → guard state action → step state action = some next → inv next)
    (initially : inv source) : inv target := by
  induction run with
  | nil => exact initially
  | cons allowed enabled _ ih => exact ih (stepInvariant _ _ _ initially allowed enabled)

theorem observation {β : Type*} (inv : σ → Prop) (observe : σ → β)
    (stepInvariant : ∀ state action next, inv state → guard state action →
          step state action = some next → inv next ∧ observe next = observe state)
    (initially : inv source) : observe target = observe source := by
  induction run with
  | nil => rfl
  | cons allowed enabled _ ih =>
    obtain ⟨nextHolds, nextSame⟩ := stepInvariant _ _ _ initially allowed enabled
    exact (ih nextHolds).trans nextSame

/-- Forward simulation: if related states answer every guarded step of the
left system by a step of the right one, they answer every run. -/
theorem simulate {β : Type*} (rightStep : τ → β → Option τ)
    (rightGuard : τ → β → Prop) (translate : α → β) (related : σ → τ → Prop) {rightSource : τ}
    (stepSimulation : ∀ state action next rightState,
        related state rightState → guard state action → step state action = some next → ∃ rightNext,
              rightGuard rightState (translate action) ∧
                rightStep rightState (translate action) = some rightNext ∧ related next rightNext)
    (initially : related source rightSource) :
    ∃ rightTarget, Run rightStep rightGuard rightSource (actions.map translate) rightTarget ∧
      related target rightTarget := by
  induction run generalizing rightSource with
  | nil => exact ⟨rightSource, .nil rightSource, initially⟩
  | cons allowed enabled _ ih =>
    obtain ⟨rightNext, rightAllowed, rightEnabled, nextRelated⟩ :=
      stepSimulation _ _ _ _ initially allowed enabled
    obtain ⟨rightTarget, rightRun, targetRelated⟩ := ih nextRelated
    exact ⟨rightTarget, .cons rightAllowed rightEnabled rightRun, targetRelated⟩

/-- A run can be told by labels of its steps when every step has a label that
extends what is known of the state. -/
theorem labelled {β : Type*} (label : α → β → Prop) (known : σ → List β → Prop) {told : List β}
    (stepLabelled : ∀ state action next told, known state told → guard state action →
          step state action = some next →
          ∃ found, label action found ∧ known next (told ++ [found]))
    (initially : known source told) :
    ∃ labels, List.Forall₂ label actions labels ∧ known target (told ++ labels) := by
  induction run generalizing told with
  | nil =>
    refine ⟨[], .nil, ?_⟩
    rw [append_nil]
    exact initially
  | cons allowed enabled _ ih =>
    obtain ⟨found, isLabel, nextKnown⟩ := stepLabelled _ _ _ _ initially allowed enabled
    obtain ⟨labels, areLabels, targetKnown⟩ := ih nextKnown
    refine ⟨found :: labels, .cons isLabel areLabels, ?_⟩
    rw [append_cons]
    exact targetKnown

/-- Induction over runs with the actions so far. -/
theorem tracked (known : List α → σ → Prop) {earlier : List α}
    (stepKnown : ∀ earlier state action next, known earlier state → guard state action →
          step state action = some next → known (earlier ++ [action]) next)
    (initially : known earlier source) : known (earlier ++ actions) target := by
  induction run generalizing earlier with
  | nil =>
    rw [append_nil]
    exact initially
  | cons allowed enabled _ ih =>
    rw [append_cons]
    exact ih (stepKnown _ _ _ _ initially allowed enabled)

end Run

theorem exec_eq_some_iff [∀ state action, Decidable (guard state action)]
    {source target : σ} {actions : List α} :
    exec step guard source actions = some target ↔ Run step guard source actions target := by
  constructor
  · intro ran
    induction actions generalizing source with
    | nil =>
      cases ran
      exact .nil _
    | cons action rest ih =>
      simp only [exec] at ran
      split at ran
      · next allowed =>
        split at ran
        · cases ran
        · next middle enabled => exact .cons allowed enabled (ih ran)
      · cases ran
  · intro run
    induction run with
    | nil => rfl
    | cons allowed enabled _ ih => simp only [exec, if_pos allowed, enabled, ih]

theorem Reachable.of_exec {initial : σ → Prop} {source target : σ} {actions : List α}
    (start : initial source) (ran : exec step anyStep source actions = some target) :
    Reachable step initial target :=
  ⟨source, actions, start, exec_eq_some_iff.mp ran⟩

theorem Reachable.invariant {initial inv : σ → Prop} {state : σ}
    (reachable : Reachable step initial state) (initially : ∀ source, initial source → inv source)
    (stepInvariant : ∀ state action next, inv state → step state action = some next → inv next) :
    inv state := by
  obtain ⟨source, actions, start, run⟩ := reachable
  exact run.invariant inv
      (fun state action next holds _ enabled => stepInvariant state action next holds enabled)
      (initially source start)

end GuardedRun
