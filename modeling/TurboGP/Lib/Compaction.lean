import Mathlib.Data.List.Range
import Mathlib.Data.List.Sort
import Mathlib.Data.List.Nodup

/-!
# Compaction of numbered rows

Rows are numbered from zero and some are kept.
-/

namespace Compaction

open List

variable {keeps : Nat → Bool} {n : Nat}

/-- The kept rows among the first `n`, in order. -/
def kept (keeps : Nat → Bool) (n : Nat) : List Nat := (range n).filter keeps

/-- The number of kept rows before a row: its position after compaction. -/
def rank (keeps : Nat → Bool) (row : Nat) : Nat := (kept keeps row).length

theorem mem_kept {row : Nat} : row ∈ kept keeps n ↔ row < n ∧ keeps row = true := by
  simp [kept]

theorem kept_succ (keeps : Nat → Bool) (n : Nat) :
    kept keeps (n + 1) = if keeps n then kept keeps n ++ [n] else kept keeps n := by
  unfold kept
  rw [range_succ, filter_append]
  split
  · next isKept => simp [isKept]
  · next dropped => simp [dropped]

theorem pairwise_kept (keeps : Nat → Bool) (n : Nat) : (kept keeps n).Pairwise (· < ·) :=
  pairwise_lt_range.sublist filter_sublist

theorem kept_before_iff {pos row : Nat} (notLast : keeps n = true → rank keeps n ≠ pos) :
    row < n ∧ keeps row = true ∧ rank keeps row = pos ↔
      row < n + 1 ∧ keeps row = true ∧ rank keeps row = pos := by
  refine and_congr_left fun ⟨keeping, ranked⟩ => ?_
  have notSame : row ≠ n := by
    rintro rfl
    exact notLast keeping ranked
  omega

theorem getElem?_kept_iff {pos row : Nat} : (kept keeps n)[pos]? = some row ↔
      row < n ∧ keeps row = true ∧ rank keeps row = pos := by
  induction n with
  | zero => simp [kept]
  | succ n ih =>
    rw [kept_succ]
    split
    · next isKept =>
      rw [getElem?_append]
      split
      · next earlier =>
        rw [ih]
        exact kept_before_iff fun _ => Nat.ne_of_gt earlier
      · next later =>
        have sameRank : rank keeps n = (kept keeps n).length := rfl
        constructor
        · intro found
          obtain ⟨small, same⟩ := List.getElem?_eq_some_iff.mp found
          simp only [getElem_singleton] at same
          simp only [length_singleton] at small
          subst same
          exact ⟨Nat.lt_succ_self n, isKept, by omega⟩
        · rintro ⟨below, keeping, ranked⟩
          rcases Nat.lt_succ_iff_lt_or_eq.mp below with small | rfl
          · have found := ih.mpr ⟨small, keeping, ranked⟩
            exact absurd (List.getElem?_eq_some_iff.mp found).1 later
          · have isFirst : pos - (kept keeps row).length = 0 := by
              omega
            rw [isFirst]
            rfl
    · next dropped =>
      rw [ih]
      exact kept_before_iff fun keeping => absurd keeping dropped

theorem length_kept_lt_iff : (kept keeps n).length < n ↔ ∃ row < n, keeps row = false := by
  have filtered := @List.length_filter_lt_length_iff_exists Nat keeps (range n)
  rw [length_range] at filtered
  unfold kept
  rw [filtered]
  simp [mem_range]

theorem kept_eq_range (every : ∀ row < n, keeps row = true) : kept keeps n = range n :=
  filter_eq_self.mpr (fun row mem => every row (mem_range.mp mem))

theorem kept_eq_of_le {m : Nat} (within : m ≤ n)
    (none : ∀ row, m ≤ row → row < n → keeps row = false) : kept keeps n = kept keeps m := by
  induction n, within using Nat.le_induction with
  | base => rfl
  | succ n above ih =>
    have dropped := none n above (Nat.lt_succ_self n)
    rw [kept_succ, if_neg (by simp [dropped])]
    exact ih fun row past below =>
        none row past (Nat.lt_succ_of_lt below)

theorem eq_kept {rows : List Nat} (increasing : rows.Pairwise (· < ·))
    (within : ∀ row ∈ rows, row < n ∧ keeps row = true)
    (complete : rows.length = (kept keeps n).length) : rows = kept keeps n := by
  have distinct : rows.Nodup := increasing.imp (fun below => Nat.ne_of_lt below)
  have covered : rows ⊆ kept keeps n := fun row mem => mem_kept.mpr (within row mem)
  have permuted : rows.Perm (kept keeps n) :=
    (subperm_of_subset distinct covered).perm_of_length_le complete.ge
  refine permuted.eq_of_pairwise ?_ increasing (pairwise_kept keeps n)
  intro first second _ _ below above
  omega

end Compaction
