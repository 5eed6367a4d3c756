import TurboGP.Lib.Effect

/-!
# Crash points

A program that changes a disk by single operations, over a state that says how
many more of them succeed.
-/

namespace CrashPoints

open Effect List

universe u

variable {ε σ δ μ α β : Type u}

/-- What a state shows: the disk, how many more operations succeed (all of
them when `none`), and what the program keeps in memory. -/
structure View (σ δ μ : Type u) where
  disk : σ → δ
  left : σ → Option Nat
  kept : σ → μ

def apply (ops : List (δ → δ)) (disk : δ) : δ := ops.foldl (fun disk op => op disk) disk

theorem apply_append (first second : List (δ → δ)) (disk : δ) :
    apply (first ++ second) disk = apply second (apply first disk) :=
  foldl_append

/-- From this state the program does these operations, one after the other,
and stops at the first that fails. -/
def Performs (view : View σ δ μ) (prog : EStateM ε σ α) (state : σ)
    (ops : List (δ → δ)) : Prop :=
  match prog state with
  | .ok _ next =>
    view.disk next = apply ops (view.disk state) ∧
      view.left next = (view.left state).map (· - ops.length) ∧
      view.kept next = view.kept state ∧ ∀ n ∈ view.left state, ops.length ≤ n
  | .error _ next =>
    ∃ n, view.left state = some n ∧ n < ops.length ∧
      view.disk next = apply (ops.take n) (view.disk state)

namespace Performs

variable {view : View σ δ μ} {prog : EStateM ε σ α} {state : σ}
  {ops : List (δ → δ)}

theorem crashed (performs : Performs view prog state ops) {n : Nat}
    (left : view.left state = some n) :
    view.disk (finalState prog state) = apply (ops.take n) (view.disk state) := by
  unfold Performs at performs
  unfold finalState
  cases out : prog state with
  | ok value next =>
    rw [out] at performs
    obtain ⟨disk, -, -, enough⟩ := performs
    rw [take_of_length_le (enough n left)]
    exact disk
  | error fault next =>
    rw [out] at performs
    obtain ⟨m, isLeft, -, disk⟩ := performs
    cases left.symm.trans isLeft
    exact disk

theorem silent {value : α} {next : σ} (run : prog state = .ok value next)
    (disk : view.disk next = view.disk state) (left : view.left next = view.left state)
    (kept : view.kept next = view.kept state) : Performs view prog state [] := by
  unfold Performs
  rw [run]
  refine ⟨disk, ?_, kept, fun n _ => Nat.zero_le n⟩
  rw [left]
  exact Option.map_id'.symm

variable {rest : α → EStateM ε σ β}

theorem bind {more : List (δ → δ)} (first : Performs view prog state ops)
    (second : ∀ value next, view.disk next = apply ops (view.disk state) →
          view.kept next = view.kept state →
          prog state = .ok value next → Performs view (rest value) next more) :
    Performs view (prog >>= rest) state (ops ++ more) := by
  unfold Performs at first
  cases out : prog state with
  | error fault next =>
    rw [out] at first
    obtain ⟨n, left, few, disk⟩ := first
    unfold Performs
    rw [bind_run_error out]
    refine ⟨n, left, ?_, ?_⟩
    · rw [length_append]
      omega
    · rw [take_append_of_le_length (Nat.le_of_lt few)]
      exact disk
  | ok value middle =>
    rw [out] at first
    obtain ⟨disk, left, kept, enough⟩ := first
    have after := second value middle disk kept out
    unfold Performs at after ⊢
    rw [bind_run_ok out]
    cases last : rest value middle with
    | ok res next =>
      rw [last] at after
      obtain ⟨nextDisk, nextLeft, nextKept, nextEnough⟩ := after
      refine ⟨?_, ?_, nextKept.trans kept, ?_⟩
      · rw [apply_append, nextDisk, disk]
      · rw [nextLeft, left, Option.map_map, length_append]
        congr 1
        funext n
        exact Nat.sub_sub n _ _
      · intro n isLeft
        have firstFew := enough n isLeft
        have secondFew := nextEnough (n - ops.length) (by
          rw [left, isLeft]
          rfl)
        rw [length_append]
        omega
    | error fault next =>
      rw [last] at after
      obtain ⟨m, isLeft, few, nextDisk⟩ := after
      rw [left] at isLeft
      obtain ⟨n, atStart, rfl⟩ := Option.map_eq_some_iff.mp isLeft
      have firstFew := enough n atStart
      refine ⟨n, atStart, ?_, ?_⟩
      · rw [length_append]
        omega
      · rw [take_append, take_of_length_le firstFew, apply_append, nextDisk, disk]

theorem step {op : δ → δ} {more : List (δ → δ)} (first : Performs view prog state [op])
    (second : ∀ value next, view.disk next = op (view.disk state) →
          view.kept next = view.kept state → Performs view (rest value) next more) :
    Performs view (prog >>= rest) state (op :: more) :=
  first.bind fun value next disk kept _ => second value next disk kept

theorem silent_bind {value : α} {next : σ}
    (run : prog state = .ok value next) (disk : view.disk next = view.disk state)
    (left : view.left next = view.left state) (kept : view.kept next = view.kept state)
    (second : Performs view (rest value) next ops) : Performs view (prog >>= rest) state ops := by
  refine (silent run disk left kept).bind fun other after _ _ reached => ?_
  cases run.symm.trans reached
  exact second

theorem get_bind {rest : σ → EStateM ε σ α} (performs : Performs view (rest state) state ops) :
    Performs view (get >>= rest) state ops := by
  unfold Performs at performs ⊢
  rwa [get_bind_run]

end Performs

end CrashPoints
