import Mathlib.Data.List.Basic
import Mathlib.Data.List.Nodup

/-!
# Selecting by row numbers

A list is read through the numbers of its rows: a mask flags rows, the flagged
numbers are sorted or cut, and the items are picked at the end.
-/

namespace RowSelection

open List

variable {α β : Type*}

/-- The numbers below `count` that a mask flags. -/
def flagged (mask : List Bool) (count : Nat) : List Nat :=
  (range count).filter (fun row => mask[row]?.getD false)

theorem mem_flagged_iff {mask : List Bool} {count row : Nat} :
    row ∈ flagged mask count ↔ row < count ∧ mask[row]? = some true := by
  unfold flagged
  rw [mem_filter, mem_range]
  cases mask[row]? with
  | none => simp
  | some flag => simp

theorem foldl_set_flagged (mask : List Bool) :
    (flagged mask mask.length).foldl (fun flags row => flags.set row true)
        (replicate mask.length false) = mask := by
  have entry : ∀ (rows : List Nat) (flags : List Bool) (pos : Nat),
        (rows.foldl (fun flags row => flags.set row true) flags)[pos]? =
          if pos ∈ rows ∧ pos < flags.length then some true else flags[pos]? := by
    intro rows
    induction rows with
    | nil => simp
    | cons row rest ih =>
      intro flags pos
      rw [foldl_cons, ih, length_set, getElem?_set]
      by_cases inside : pos < flags.length
      · by_cases same : row = pos
        · simp [same, inside]
        · have other : pos ≠ row := fun equal => same equal.symm
          simp [same, other]
      · by_cases same : row = pos
        · simp [same, inside]
        · simp [same, inside]
  apply ext_getElem?
  intro pos
  rw [entry]
  simp only [mem_flagged_iff, length_replicate]
  by_cases inside : pos < mask.length
  · rw [getElem?_replicate, getElem?_eq_getElem inside]
    cases mask[pos] <;> simp [inside]
  · rw [getElem?_eq_none (Nat.le_of_not_lt inside)]
    simp [inside]

theorem forall_take_iff {items : List α} (nodup : items.Nodup) (bound : Nat) (holds : α → Prop) :
    ((∀ item ∈ items.take bound, holds item) ∧
        ∀ item ∈ items, holds item → item ∈ items.take bound) ↔
      ∀ position item, items[position]? = some item → (holds item ↔ position < bound) := by
  have memTake : ∀ position item, items[position]? = some item →
      (item ∈ items.take bound ↔ position < bound) := by
    intro position item found
    obtain ⟨inside, isItem⟩ := List.getElem?_eq_some_iff.mp found
    rw [mem_take_iff_getElem]
    constructor
    · rintro ⟨other, below, same⟩
      have equal : other = position :=
        (List.Nodup.getElem_inj_iff nodup).mp (same.trans isItem.symm)
      omega
    · intro below
      exact ⟨position, by omega, isItem⟩
  constructor
  · rintro ⟨sound, complete⟩ position item found
    have member := mem_of_getElem? found
    rw [← memTake position item found]
    exact ⟨complete item member, sound item⟩
  · intro exactly
    constructor
    · intro item member
      obtain ⟨position, found⟩ := mem_iff_getElem?.mp (mem_of_mem_take member)
      exact (exactly position item found).mpr ((memTake position item found).mp member)
    · intro item member itemHolds
      obtain ⟨position, found⟩ := mem_iff_getElem?.mp member
      exact (memTake position item found).mpr ((exactly position item found).mp itemHolds)

theorem getElem?_flagged_positions (mask : List Bool) (items : List α)
    (same : mask.length = items.length) :
    (mask.zipIdx.filterMap (fun entry => if entry.1 then some entry.2 else none)).map
        (fun pos => items[pos]?) =
      ((items.zip mask).filter (fun entry => entry.2)).map (fun entry => some entry.1) := by
  suffices general : ∀ before : List α, ((mask.zipIdx before.length).filterMap
      (fun entry => if entry.1 then some entry.2 else none)).map
      (fun pos => (before ++ items)[pos]?) =
    ((items.zip mask).filter (fun entry => entry.2)).map (fun entry => some entry.1) from
    general []
  induction mask generalizing items with
  | nil =>
    intro before
    rw [zip_nil_right]
    rfl
  | cons flag rest ih =>
    intro before
    cases items with
    | nil => cases same
    | cons item others =>
      have restSame : rest.length = others.length := Nat.succ.inj same
      have ofRest := ih others restSame (before ++ [item])
      rw [length_append, append_assoc] at ofRest
      rw [zipIdx_cons, zip_cons_cons]
      cases flag with
      | false => exact ofRest
      | true =>
        have here : (before ++ item :: others)[before.length]? = some item := by
          rw [getElem?_append_right (Nat.le_refl _), Nat.sub_self]
          rfl
        simp only [filterMap_cons, if_true, map_cons, filter_cons, here]
        exact congrArg _ ofRest

variable [Inhabited α]

def pick (items : List α) (rows : List Nat) : List α :=
  rows.map (fun row => items[row]?.getD default)

@[simp]
theorem length_pick (items : List α) (rows : List Nat) : (pick items rows).length = rows.length :=
  length_map _

theorem pick_take (items : List α) (rows : List Nat) (count : Nat) :
    pick items (rows.take count) = (pick items rows).take count :=
  map_take

theorem pick_range (items : List α) : pick items (range items.length) = items := by
  apply ext_getElem
  · simp
  · intro pos _ inside
    simp [pick, inside]

theorem pick_flagged (items : List α) (test : α → Bool) :
    pick items (flagged (items.map test) items.length) = items.filter test := by
  have flags : flagged (items.map test) items.length =
      (range items.length).filter (fun row => test (items[row]?.getD default)) := by
    apply filter_congr
    intro row mem
    have inside := mem_range.mp mem
    simp [inside]
  calc
    pick items (flagged (items.map test) items.length) =
        (pick items (range items.length)).filter test := by
      rw [flags]
      unfold pick
      rw [filter_map]
      rfl
    _ = items.filter test := by rw [pick_range]

theorem pick_mergeSort {items : List α} {rows : List Nat} {rowLe : Nat → Nat → Bool}
    {le : α → α → Bool}
    (agrees : ∀ first ∈ rows, ∀ second ∈ rows,
        rowLe first second = le (items[first]?.getD default) (items[second]?.getD default)) :
    pick items (rows.mergeSort rowLe) = (pick items rows).mergeSort le :=
  map_mergeSort agrees

end RowSelection
