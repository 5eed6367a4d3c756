import TurboGP.Lib.Effect

/-!
# Errors and faults

A fallible function returns one of the source's errors.  A function may also
not return: an index out of range panics, and a recursion deeper than the stack
aborts.
-/

namespace TurboGP

inductive Error
  | parse (message : String)
  | notFound (what : String)
  | other (message : String)
  | invalidArg (message : String)
  deriving DecidableEq, Repr

def displayError : Error → String
  | .notFound what => s!"not found: {what}"
  | .parse message => s!"parse error: {message}"
  | .invalidArg message => s!"invalid argument: {message}"
  | .other message => message

inductive Fault
  | error (error : Error)
  | panic
  | stackOverflow
  deriving DecidableEq, Repr

def index {α : Type*} (xs : List α) (idx : Nat) : Except Fault α :=
  match xs[idx]? with
  | some x => .ok x
  | none => .error .panic

def indexSet {α : Type*} (xs : List α) (idx : Nat) (x : α) : Except Fault (List α) :=
  if idx < xs.length then .ok (xs.set idx x) else .error .panic

variable {idx : Nat} {rows : List Nat}

theorem index_eq_ok_iff {α : Type*} {xs : List α} {x : α} :
    index xs idx = .ok x ↔ xs[idx]? = some x := by
  unfold index
  cases xs[idx]? with
  | none => simp
  | some found => simp

theorem indexSet_eq_ok_iff {α : Type*} {xs changed : List α} {x : α} :
    indexSet xs idx x = .ok changed ↔ idx < xs.length ∧ changed = xs.set idx x := by
  unfold indexSet
  split
  · next inRange => simp [inRange, eq_comm]
  · next outside => simp [outside]

theorem mapM_index_eq_ok_iff {α : Type} {xs values : List α} :
    rows.mapM (index xs) = .ok values ↔ values.map some = rows.map (fun i => xs[i]?) := by
  rw [Effect.mapM_eq_ok_iff]
  induction rows generalizing values with
  | nil =>
    rw [List.forall₂_nil_left_iff]
    simp
  | cons row rest ih =>
    cases values with
    | nil => simp
    | cons value others =>
      rw [List.forall₂_cons, index_eq_ok_iff, ih]
      simp [eq_comm]

theorem exists_index_eq_ok_iff {α : Type*} {xs : List α} :
    (∃ x, index xs idx = .ok x) ↔ idx < xs.length := by
  simp only [index_eq_ok_iff, ← Option.isSome_iff_exists, isSome_getElem?]

theorem getElem?_of_mapM_index {α : Type} {xs values : List α} {pos row : Nat}
    (read : rows.mapM (index xs) = .ok values) (held : rows[pos]? = some row) :
    values[pos]? = xs[row]? := by
  have mapped := mapM_index_eq_ok_iff.mp read
  have atPosition : (values.map some)[pos]? = some xs[row]? := by
    rw [mapped, List.getElem?_map, held]
    rfl
  rw [List.getElem?_map] at atPosition
  obtain ⟨value, found, same⟩ := Option.map_eq_some_iff.mp atPosition
  exact found.trans same

end TurboGP
