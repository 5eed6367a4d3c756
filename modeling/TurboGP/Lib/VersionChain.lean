import Mathlib.Data.List.Induction
import Mathlib.Data.Set.Basic

/-!
# Version chains read through a set of transactions

A chain lists the versions of one item, oldest first.
-/

namespace VersionChain

open List

universe u v

section

variable {β : Type u}

/-- The newest element of a chain that satisfies `accepts`. -/
def latest (accepts : β → Bool) (chain : List β) : Option β := chain.reverse.find? accepts

@[simp]
theorem latest_nil (accepts : β → Bool) : latest accepts [] = none := rfl

theorem latest_append_singleton (accepts : β → Bool) (chain : List β) (newest : β) :
    latest accepts (chain ++ [newest]) =
      if accepts newest then some newest else latest accepts chain := by
  unfold latest
  rw [reverse_append, reverse_singleton, singleton_append, find?_cons]
  cases accepts newest <;> rfl

variable {accepts : β → Bool} {chain : List β}

theorem latest_append_rejected {newest : β} (rejected : accepts newest = false) :
    latest accepts (chain ++ [newest]) = latest accepts chain := by
  rw [latest_append_singleton, rejected]
  rfl

theorem latest_append_accepted {newest : β} (accepted : accepts newest = true) :
    latest accepts (chain ++ [newest]) = some newest := by
  rw [latest_append_singleton, accepted]
  rfl

theorem latest_eq_some {found : β} (isLatest : latest accepts chain = some found) :
    found ∈ chain ∧ accepts found = true := by
  constructor
  · exact mem_reverse.mp (mem_of_find?_eq_some isLatest)
  · exact find?_some isLatest

theorem latest_eq_none_iff :
    latest accepts chain = none ↔ ∀ version ∈ chain, accepts version = false := by
  unfold latest
  rw [find?_eq_none]
  simp only [mem_reverse, Bool.not_eq_true]

theorem latest_congr {first second : β → Bool} {chain : List β}
    (agree : ∀ version ∈ chain, first version = second version) :
    latest first chain = latest second chain := by
  induction chain using reverseRecOn with
  | nil => rfl
  | append_singleton older newest ih =>
    have newestAgrees : first newest = second newest := agree newest (by simp)
    have olderAgrees : latest first older = latest second older :=
      ih (fun version mem => agree version (by simp [mem]))
    rw [latest_append_singleton, latest_append_singleton, newestAgrees, olderAgrees]

theorem latest_filter {keeps : β → Bool}
    (kept : ∀ version ∈ chain, accepts version = true → keeps version = true) :
    latest accepts (chain.filter keeps) = latest accepts chain := by
  unfold latest
  rw [← filter_reverse, find?_filter]
  refine @latest_congr β _ accepts chain ?_
  intro version mem
  cases accepted : accepts version with
  | false => simp
  | true => simp [kept version mem accepted]

end

section

variable {β : Type u} {γ : Type v}

/-- What a reader gets from a store of chains: for every chain in turn the
content of its newest accepted version, and nothing for a chain without
one. -/
def observe (accepts : β → Bool) (content : β → γ) (store : List (List β)) : List γ :=
  store.filterMap (fun chain => (latest accepts chain).map content)

variable {accepts : β → Bool} {content : β → γ} {store : List (List β)}

theorem observe_append_rejected {chain : List β} (rejected : latest accepts chain = none) :
    observe accepts content (store ++ [chain]) = observe accepts content store := by
  simp [observe, rejected]

theorem observe_set {index : Nat} {before after : List β} (held : store[index]? = some before)
    (same : (latest accepts after).map content = (latest accepts before).map content) :
    observe accepts content (store.set index after) = observe accepts content store := by
  induction store generalizing index with
  | nil => rfl
  | cons head tail ih =>
    cases index with
    | zero =>
      have headIsBefore : head = before := by simpa using held
      subst headIsBefore
      simp only [observe, set_cons_zero, filterMap_cons, same]
    | succ index =>
      have tailSame := ih (show tail[index]? = some before by simpa using held)
      unfold observe at tailSame ⊢
      simp only [set_cons_succ, filterMap_cons, tailSame]

theorem observe_map {other : β → Bool} {rewrite : List β → List β}
    (same : ∀ chain ∈ store,
        (latest other (rewrite chain)).map content = (latest accepts chain).map content) :
    observe other content (store.map rewrite) = observe accepts content store := by
  induction store with
  | nil => rfl
  | cons head tail ih =>
    have tailSame := ih (fun chain mem => same chain (mem_cons_of_mem head mem))
    unfold observe at tailSame ⊢
    simp only [map_cons, filterMap_cons, tailSame, same head mem_cons_self]

end

section

variable {β : Type u} {ι : Type v}

/-- A version exists for a reader when its creator is among `creators` and
its deleter, if it has one, is not among `deleters`. -/
def Sees (creator : β → ι) (deleter : β → Option ι)
    (creators deleters : Set ι) (version : β) : Prop :=
  creator version ∈ creators ∧ ∀ author, deleter version = some author → author ∉ deleters

variable {creator : β → ι} {deleter : β → Option ι}
  {creators deleters : Set ι}

theorem not_sees_of_creator {version : β} (foreign : creator version ∉ creators) :
    ¬ Sees creator deleter creators deleters version :=
  fun seen => foreign seen.1

theorem not_sees_of_deleter {version : β} {author : ι} (deleted : deleter version = some author)
    (known : author ∈ deleters) : ¬ Sees creator deleter creators deleters version :=
  fun seen => seen.2 author deleted known

/-- Marking an open version with a deletion outside the reader's set does
not change whether the reader sees it. -/
theorem sees_marked_iff {version marked : β} {author : ι}
    (sameCreator : creator marked = creator version) (opened : deleter version = none)
    (nowDeleted : deleter marked = some author) (foreign : author ∉ deleters) :
    Sees creator deleter creators deleters marked ↔
      Sees creator deleter creators deleters version := by
  constructor
  · rintro ⟨created, -⟩
    refine ⟨sameCreator ▸ created, ?_⟩
    intro other deletedBy
    rw [opened] at deletedBy
    cases deletedBy
  · rintro ⟨created, -⟩
    refine ⟨sameCreator.symm ▸ created, ?_⟩
    intro other deletedBy
    rw [nowDeleted] at deletedBy
    cases deletedBy
    exact foreign

end

end VersionChain
