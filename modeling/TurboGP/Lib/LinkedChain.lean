import Mathlib.Data.List.Basic

/-!
# Chains of nodes in an array

Nodes are kept in a list, and each holds the position of the next one; position
0 ends a chain.
-/

namespace LinkedChain

universe u

variable {ν : Type u} (next : ν → Nat)

/-- Follow the links from a position; `none` when there is no node at it, or
when the walk takes more than `fuel` steps. -/
def walk (nodes : List ν) : Nat → Nat → Option (List ν)
  | _, 0 => some []
  | 0, _ + 1 => none
  | fuel + 1, pos + 1 =>
    match nodes[pos + 1]? with
    | none => none
    | some node => (walk nodes fuel (next node)).map (node :: ·)

/-- Follow the links to the first node that passes a test. -/
def seek (test : ν → Bool) (nodes : List ν) : Nat → Nat → Option (Option ν)
  | _, 0 => some none
  | 0, _ + 1 => none
  | fuel + 1, pos + 1 =>
    match nodes[pos + 1]? with
    | none => none
    | some node => if test node then some (some node) else seek test nodes fuel (next node)

variable {next} in
theorem seek_of_walk {test : ν → Bool} {nodes chain : List ν} {fuel pos : Nat}
    (walked : walk next nodes fuel pos = some chain) :
    seek next test nodes fuel pos = some (chain.find? test) := by
  induction fuel generalizing pos chain with
  | zero =>
    cases pos with
    | zero => cases walked; rfl
    | succ pos => cases walked
  | succ fuel ih =>
    cases pos with
    | zero => cases walked; rfl
    | succ pos =>
      rw [walk] at walked
      rw [seek]
      cases here : nodes[pos + 1]? with
      | none => rw [here] at walked; cases walked
      | some node =>
        rw [here] at walked
        obtain ⟨rest, walkedRest, rfl⟩ := Option.map_eq_some_iff.mp walked
        cases passes : test node <;> simp [passes, ih walkedRest]

/-- The nodes from a position on, each link leading to a smaller one. -/
inductive Chain (nodes : List ν) : Nat → List ν → Prop
  | nil : Chain nodes 0 []
  | cons {pos : Nat} {node : ν} {rest : List ν} :
      nodes[pos]? = some node → next node < pos → Chain nodes (next node) rest →
      Chain nodes pos (node :: rest)

namespace Chain

variable {next} {nodes : List ν} {pos : Nat} {chain : List ν}

theorem walk_eq {fuel : Nat} (isChain : Chain next nodes pos chain) (enough : pos ≤ fuel) :
    walk next nodes fuel pos = some chain := by
  induction isChain generalizing fuel with
  | nil => cases fuel <;> rfl
  | cons found smaller _ walksRest =>
    rename_i pos node rest _
    cases pos with
    | zero => exact absurd smaller (Nat.not_lt_zero _)
    | succ pos =>
      cases fuel with
      | zero => exact absurd enough (Nat.not_succ_le_zero _)
      | succ fuel =>
        have walked := @walksRest fuel (by omega)
        rw [walk, found]
        simp only [walked, Option.map_some]

theorem congr {others : List ν} {bound : Nat}
    (isChain : Chain next nodes pos chain) (below : pos < bound)
    (same : ∀ i < bound, others[i]? = nodes[i]?) : Chain next others pos chain := by
  induction isChain with
  | nil => exact .nil
  | cons found smaller _ keepsRest =>
    exact .cons ((same _ below).trans found) smaller (keepsRest (Nat.lt_trans smaller below))

end Chain

end LinkedChain
