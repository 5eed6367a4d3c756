import Mathlib.Data.Finmap

/-!
# Finite maps read by key

`Finmap` is the value of a hash map: a finite set of bindings without an
iteration order.
-/

namespace FiniteMap

open Finmap List

universe u v

variable {κ : Type u} {ν : Type v} [DecidableEq κ]

theorem lookup_insert_eq (entries : Finmap (fun _ : κ => ν)) (key tested : κ) (value : ν) :
    (entries.insert key value).lookup tested =
      if tested = key then some value else entries.lookup tested := by
  by_cases same : tested = key
  · subst tested
    simp
  · simp [same]

theorem lookup_erase_eq (entries : Finmap (fun _ : κ => ν)) (key tested : κ) :
    (entries.erase key).lookup tested = if tested = key then none else entries.lookup tested := by
  by_cases same : tested = key
  · subst tested
    simp
  · simp [same]

/-- Keep the bindings whose value satisfies `keeps`. -/
def retain (keeps : ν → Bool) (entries : Finmap (fun _ : κ => ν)) : Finmap (fun _ : κ => ν) where
  entries := entries.entries.filter (fun binding => keeps binding.2)
  nodupKeys := by
    have unique := Multiset.nodup_keys.mpr entries.nodupKeys
    refine Multiset.nodup_keys.mp (Multiset.nodup_of_le ?_ unique)
    exact Multiset.map_le_map (Multiset.filter_le _ _)

theorem lookup_retain_eq (keeps : ν → Bool) (entries : Finmap (fun _ : κ => ν)) (tested : κ) :
    (retain keeps entries).lookup tested = (entries.lookup tested).filter keeps := by
  ext value
  rw [← Option.mem_def, mem_lookup_iff, Option.filter_eq_some_iff, ← Option.mem_def, mem_lookup_iff]
  exact Multiset.mem_filter

theorem lookup_foldl_insert {μ : Type v} {entries : Finmap (fun _ : κ => ν)} {f : ν → μ}
    {keyOf : μ → κ} (keyed : ∀ key value, entries.lookup key = some value → keyOf (f value) = key)
    (keys : List κ) (copy : Finmap (fun _ : κ => μ)) (tested : κ) :
    (keys.foldl (fun (copy : Finmap (fun _ : κ => μ)) key =>
          match entries.lookup key with
          | some value => copy.insert (keyOf (f value)) (f value)
          | none => copy) copy).lookup tested =
      if tested ∈ keys ∧ tested ∈ entries then
        (entries.lookup tested).map f
      else copy.lookup tested := by
  induction keys generalizing copy with
  | nil => simp
  | cons key rest ih =>
    rw [foldl_cons, ih]
    by_cases same : tested = key
    · subst same
      cases held : entries.lookup tested with
      | none =>
        have absent : tested ∉ entries := lookup_eq_none.mp held
        simp [absent]
      | some value =>
        have present : tested ∈ entries := mem_of_lookup_eq_some held
        simp [present, keyed tested value held]
    · cases held : entries.lookup key with
      | none => simp [same]
      | some value => simp [same, keyed key value held]

section

variable {ω : Type v} [LinearOrder ω]

def leastAdmitted (admits : κ → Bool) (start : ω) (entries : Finmap (fun _ : κ => ω)) : ω :=
  entries.foldl
    (fun least key value => if admits key then min least value else least)
    (by
      intro least firstKey firstValue secondKey secondValue
      by_cases first : admits firstKey = true <;>
        by_cases second : admits secondKey = true <;>
          simp [first, second, min_right_comm])
    start

omit [DecidableEq κ] in
private theorem le_foldl_iff (admits : κ → Bool) (bindings : List (Sigma (fun _ : κ => ω)))
    (start bound : ω) :
    bound ≤ bindings.foldl
          (fun least binding => if admits binding.1 then min least binding.2 else least) start ↔
      bound ≤ start ∧ ∀ binding ∈ bindings, admits binding.1 = true → bound ≤ binding.2 := by
  induction bindings generalizing start with
  | nil => simp
  | cons binding rest ih =>
    rw [foldl_cons, ih, forall_mem_cons]
    by_cases admitted : admits binding.1 = true
    · simp [admitted, and_assoc]
    · simp [admitted]

theorem le_leastAdmitted_iff {admits : κ → Bool} {start bound : ω}
    {entries : Finmap (fun _ : κ => ω)} :
    bound ≤ leastAdmitted admits start entries ↔ bound ≤ start ∧
      ∀ key value, entries.lookup key = some value → admits key = true → bound ≤ value := by
  induction entries using induction_on with
  | H entries =>
    have held : ∀ key value,
        lookup key entries.toFinmap = some value ↔ Sigma.mk key value ∈ entries.entries :=
      fun _ _ => mem_lookup_iff
    refine (le_foldl_iff admits entries.entries start bound).trans ?_
    simp only [held, Sigma.forall]

end

end FiniteMap
