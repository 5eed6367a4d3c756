import Mathlib.Data.List.GetD
import Mathlib.Logic.Function.Basic

/-!
# Write-back caches

A cache keeps values of a store in numbered slots, with an index from keys to
slots; the store gets a value when its slot is saved.
-/

namespace WriteBack

universe u v

variable {κ : Type u} {ν : Type v}

structure Slot (κ : Type u) (ν : Type v) where
  key : Option κ
  value : ν
  dirty : Bool
  pins : Nat

structure Cache (κ : Type u) (ν : Type v) where
  slots : List (Slot κ ν)
  index : κ → Option Nat
  store : κ → ν

/-- The index is the inverse of the keys that the slots hold. -/
def Inverse (index : κ → Option Nat) (keys : List (Option κ)) : Prop :=
  ∀ key i, index key = some i ↔ keys[i]? = some (some key)

structure Users (κ : Type u) (ν : Type v) where
  contents : κ → ν
  unmarked : κ → Bool
  pins : κ → Nat
  place : κ → Nat

structure Slot.Agrees (slot : Slot κ ν) (key : κ) (stored : ν)
    (users : Users κ ν) : Prop where
  value : slot.value = users.contents key
  pins : slot.pins = users.pins key
  clean : slot.dirty = false → users.unmarked key = false → stored = users.contents key

structure Coherent (cache : Cache κ ν) (users : Users κ ν) : Prop where
  indexed :
    ∀ key i, cache.index key = some i ↔ ∃ slot, cache.slots[i]? = some slot ∧ slot.key = some key
  agrees : ∀ (i : Nat) (slot : Slot κ ν) (key : κ),
      cache.slots[i]? = some slot → slot.key = some key → slot.Agrees key (cache.store key) users
  away : ∀ key, cache.index key = none → cache.store key = users.contents key ∧ users.pins key = 0
  inUse : ∀ key, users.unmarked key = true → 0 < users.pins key
  placed : ∀ key, 0 < users.pins key → cache.index key = some (users.place key)

/-- Users that know the same of every key but one. -/
structure Users.SameBut (key : κ) (users next : Users κ ν) : Prop where
  contents : ∀ other, other ≠ key → next.contents other = users.contents other
  unmarked : ∀ other, other ≠ key → next.unmarked other = users.unmarked other
  pins : ∀ other, other ≠ key → next.pins other = users.pins other
  place : ∀ other, other ≠ key → next.place other = users.place other

theorem Users.SameBut.refl (key : κ) (users : Users κ ν) : users.SameBut key users :=
  ⟨fun _ _ => rfl, fun _ _ => rfl, fun _ _ => rfl, fun _ _ => rfl⟩

theorem Slot.Agrees.sameBut {slot : Slot κ ν} {key other : κ} {stored : ν} {users next : Users κ ν}
    (agrees : slot.Agrees other stored users) (same : users.SameBut key next) (ne : other ≠ key) :
    slot.Agrees other stored next := by
  refine ⟨?_, ?_, ?_⟩
  · rw [same.contents other ne]
    exact agrees.value
  · rw [same.pins other ne]
    exact agrees.pins
  · rw [same.unmarked other ne, same.contents other ne]
    exact agrees.clean

section

variable {cache : Cache κ ν} {users next : Users κ ν} {i : Nat}
  {slot new : Slot κ ν} {key : κ}

theorem inverse_iff : Inverse cache.index (cache.slots.map Slot.key) ↔ ∀ key i,
      cache.index key = some i ↔ ∃ slot, cache.slots[i]? = some slot ∧ slot.key = some key := by
  simp only [Inverse, List.getElem?_map, Option.map_eq_some_iff]

variable (coherent : Coherent cache users)

include coherent

theorem Coherent.slot_unique {j : Nat} {other : Slot κ ν}
    (atFirst : cache.slots[i]? = some slot) (holds : slot.key = some key)
    (atSecond : cache.slots[j]? = some other) (otherHolds : other.key = some key) : j = i := by
  have first := (coherent.indexed key i).mpr ⟨slot, atFirst, holds⟩
  have second := (coherent.indexed key j).mpr ⟨other, atSecond, otherHolds⟩
  rw [first] at second
  exact (Option.some.inj second).symm

theorem Coherent.place_eq
    (here : cache.slots[i]? = some slot) (holds : slot.key = some key) (used : 0 < users.pins key) :
    users.place key = i := by
  have atPlace := coherent.placed key used
  rw [(coherent.indexed key i).mpr ⟨slot, here, holds⟩] at atPlace
  exact (Option.some.inj atPlace).symm

theorem Coherent.marked (unused : users.pins key = 0) : users.unmarked key = false := by
  by_contra unmarked
  have used := coherent.inUse key (Bool.not_eq_false _ ▸ unmarked)
  omega

theorem Coherent.inUse_sameBut (same : users.SameBut key next)
    (atKey : next.unmarked key = true → 0 < next.pins key) (other : κ)
    (unmarked : next.unmarked other = true) : 0 < next.pins other := by
  by_cases isKey : other = key
  · subst isKey
    exact atKey unmarked
  · rw [same.unmarked other isKey] at unmarked
    rw [same.pins other isKey]
    exact coherent.inUse other unmarked

/-- A slot that now holds the key, where no other slot holds it. -/
theorem Coherent.agrees_set (inside : i < cache.slots.length) (newHolds : new.key = some key)
    {store : κ → ν} (sameStore : ∀ other, other ≠ key → store other = cache.store other)
    (same : users.SameBut key next) (agrees : new.Agrees key (store key) next)
    (notHeld : ∀ j tested, i ≠ j → cache.slots[j]? = some tested → tested.key ≠ some key)
    (j : Nat) (tested : Slot κ ν) (other : κ) (found : (cache.slots.set i new)[j]? = some tested)
    (otherHolds : tested.key = some other) : tested.Agrees other (store other) next := by
  by_cases atSlot : i = j
  · subst atSlot
    rw [List.getElem?_set_self inside] at found
    cases found
    rw [newHolds] at otherHolds
    cases otherHolds
    exact agrees
  · rw [List.getElem?_set_ne atSlot] at found
    have ne : other ≠ key := by
      rintro rfl
      exact notHeld j tested atSlot found otherHolds
    rw [sameStore other ne]
    exact (coherent.agrees j tested other found otherHolds).sameBut same ne

theorem Coherent.change (here : cache.slots[i]? = some slot) (holds : slot.key = some key)
    (newHolds : new.key = some key) {store : κ → ν}
    (sameStore : ∀ other, other ≠ key → store other = cache.store other)
    (same : users.SameBut key next) (agrees : new.Agrees key (store key) next)
    (inUse : next.unmarked key = true → 0 < next.pins key)
    (placed : 0 < next.pins key → next.place key = i) :
    Coherent { slots := cache.slots.set i new, index := cache.index, store := store }
      next := by
  have inside : i < cache.slots.length := (List.getElem?_eq_some_iff.mp here).1
  have isIndexed : cache.index key = some i := (coherent.indexed key i).mpr ⟨slot, here, holds⟩
  have notHeld : ∀ j tested, i ≠ j → cache.slots[j]? = some tested → tested.key ≠ some key :=
    fun j tested atSlot found isKey => atSlot (coherent.slot_unique here holds found isKey).symm
  refine ⟨?_, coherent.agrees_set inside newHolds sameStore same agrees notHeld, ?_,
    coherent.inUse_sameBut same inUse, ?_⟩
  · intro tested j
    rw [coherent.indexed tested j]
    by_cases atSlot : i = j
    · subst atSlot
      simp only [here, List.getElem?_set_self inside, Option.some.injEq,
        exists_eq_left', holds, newHolds]
    · simp only [List.getElem?_set_ne atSlot]
  · intro other absent
    have ne : other ≠ key := by
      rintro rfl
      rw [isIndexed] at absent
      cases absent
    show store other = _ ∧ _
    rw [sameStore other ne, same.contents other ne, same.pins other ne]
    exact coherent.away other absent
  · intro other used
    by_cases isKey : other = key
    · subst isKey
      rw [isIndexed, placed used]
    · rw [same.pins other isKey] at used
      rw [same.place other isKey]
      exact coherent.placed other used

theorem Coherent.save (here : cache.slots[i]? = some slot) (holds : slot.key = some key)
    {store : κ → ν} (stored : store key = slot.value)
    (sameStore : ∀ other, other ≠ key → store other = cache.store other) :
    Coherent { cache with store := store } users := by
  have agrees := coherent.agrees i slot key here holds
  have nowStored : slot.Agrees key (store key) users :=
    ⟨agrees.value, agrees.pins, fun _ _ => stored.trans agrees.value⟩
  have changed := coherent.change here holds holds sameStore (.refl key users)
      nowStored (coherent.inUse key) (coherent.place_eq here holds)
  have sameSlots : cache.slots.set i slot = cache.slots := by
    obtain ⟨inside, rfl⟩ := List.getElem?_eq_some_iff.mp here
    exact List.set_getElem_self inside
  rw [sameSlots] at changed
  exact changed

omit coherent

theorem Inverse.load [DecidableEq κ] {index next : κ → Option Nat} {keys : List (Option κ)}
    {old : Option κ} (inverse : Inverse index keys) (here : keys[i]? = some old)
    (absent : index key = none)
    (indexed : ∀ tested, next tested =
          if tested = key then some i else if old = some tested then none else index tested) :
    Inverse next (keys.set i (some key)) := by
  have inside : i < keys.length := (List.getElem?_eq_some_iff.mp here).1
  intro tested j
  rw [indexed]
  by_cases atSlot : i = j
  · subst atSlot
    rw [List.getElem?_set_self inside]
    by_cases isKey : tested = key
    · simp [isKey]
    · rw [if_neg isKey]
      refine iff_of_false ?_ (by simp [Ne.symm isKey])
      split
      · nofun
      · next notOld =>
        rw [inverse, here]
        exact fun same => notOld (Option.some.inj same)
  · rw [List.getElem?_set_ne atSlot, ← inverse]
    by_cases isKey : tested = key
    · rw [if_pos isKey, isKey, absent]
      exact iff_of_false (fun same => atSlot (Option.some.inj same)) nofun
    · rw [if_neg isKey]
      split
      · next isOld =>
        rw [(inverse tested i).mpr (isOld ▸ here)]
        exact iff_of_false nofun (fun same => atSlot (Option.some.inj same))
      · rfl

theorem Coherent.load [DecidableEq κ] (coherent : Coherent cache users)
    (here : cache.slots[i]? = some slot) (unused : slot.pins = 0)
    (saved : ∀ old, slot.key = some old → cache.store old = slot.value)
    (absent : cache.index key = none)
    (newHolds : new.key = some key) (read : new.value = cache.store key)
    (newPins : new.pins = next.pins key) {index : κ → Option Nat}
    (indexed : ∀ tested, index tested =
          if tested = key then some i else if slot.key = some tested then none
          else cache.index tested)
    (same : users.SameBut key next) (sameContents : next.contents key = users.contents key)
    (sameUnmarked : next.unmarked key = users.unmarked key) (placed : next.place key = i) :
    Coherent
      { slots := cache.slots.set i new, index := index, store := cache.store }
      next := by
  have inside : i < cache.slots.length := (List.getElem?_eq_some_iff.mp here).1
  have stored := coherent.away key absent
  have marked := coherent.marked stored.2
  have notHeld : ∀ j tested, i ≠ j → cache.slots[j]? = some tested → tested.key ≠ some key := by
    intro j tested _ found holds
    cases absent.symm.trans ((coherent.indexed key j).mpr ⟨tested, found, holds⟩)
  have agrees : new.Agrees key (cache.store key) next :=
    ⟨by rw [read, stored.1, sameContents], newPins, fun _ _ => by rw [sameContents]; exact stored.1⟩
  refine ⟨?_, coherent.agrees_set inside newHolds (fun _ _ => rfl) same agrees notHeld, ?_,
    coherent.inUse_sameBut same (by simp [sameUnmarked, marked]), ?_⟩
  · refine inverse_iff.mp ?_
    rw [List.map_set, newHolds]
    refine (inverse_iff.mpr coherent.indexed).load ?_ absent indexed
    rw [List.getElem?_map, here, Option.map_some]
  · intro other notIndexed
    have otherAbsent : index other = none := notIndexed
    rw [indexed] at otherAbsent
    have ne : other ≠ key := by
      intro isKey
      rw [if_pos isKey] at otherAbsent
      cases otherAbsent
    rw [if_neg ne] at otherAbsent
    rw [same.contents other ne, same.pins other ne]
    by_cases isOld : slot.key = some other
    · have agrees := coherent.agrees i slot other here isOld
      exact ⟨(saved other isOld).trans agrees.value, agrees.pins.symm.trans unused⟩
    · rw [if_neg isOld] at otherAbsent
      exact coherent.away other otherAbsent
  · intro other used
    show index other = _
    rw [indexed]
    by_cases isKey : other = key
    · rw [if_pos isKey, isKey, placed]
    · rw [if_neg isKey, same.place other isKey]
      rw [same.pins other isKey] at used
      have atPlace := coherent.placed other used
      rw [if_neg]
      · exact atPlace
      · intro isOld
        have agrees := coherent.agrees i slot other here isOld
        have noPins := agrees.pins.symm.trans unused
        omega

end

end WriteBack
