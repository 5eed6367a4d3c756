import Mathlib.Data.List.Induction
import Mathlib.Data.List.TakeWhile

/-!
# Named checkpoints

A system has a current state and a stack of saved states, each under a name;
names may repeat.
-/

namespace Checkpoints

open List

universe u v

variable {ν : Type u} {α : Type v}

structure Stack (ν : Type u) (α : Type v) where
  current : α
  saved : List (ν × α)

inductive Command (ν : Type u) (α : Type v)
  | save (name : ν)
  | restore (name : ν)
  | discard (name : ν)
  | change (next : α)

variable [DecidableEq ν]

def since (name : ν) (saved : List (ν × α)) : List (ν × α) :=
  saved.dropWhile (fun entry => !decide (entry.1 = name))

namespace Stack

/-- A name under which nothing is saved is refused. -/
def step (stack : Stack ν α) : Command ν α → Option (Stack ν α)
  | .save name => some { stack with saved := (name, stack.current) :: stack.saved }
  | .restore name =>
    match since name stack.saved with
    | [] => none
    | entry :: older => some { current := entry.2, saved := entry :: older }
  | .discard name =>
    match since name stack.saved with
    | [] => none
    | _ :: older => some { stack with saved := older }
  | .change next => some { stack with current := next }

variable {stack : Stack ν α} {name : ν}

theorem step_restore_nil (absent : since name stack.saved = []) :
    stack.step (.restore name) = none := by
  unfold step
  simp only [absent]

theorem step_restore_cons {entry : ν × α} {older : List (ν × α)}
    (found : since name stack.saved = entry :: older) :
    stack.step (.restore name) = some { current := entry.2, saved := entry :: older } := by
  unfold step
  simp only [found]

theorem step_discard_nil (absent : since name stack.saved = []) :
    stack.step (.discard name) = none := by
  unfold step
  simp only [absent]

theorem step_discard_cons {entry : ν × α} {older : List (ν × α)}
    (found : since name stack.saved = entry :: older) :
    stack.step (.discard name) = some { stack with saved := older } := by
  unfold step
  simp only [found]

def after (stack : Stack ν α) (command : Command ν α) : Stack ν α := (stack.step command).getD stack

def run (stack : Stack ν α) (commands : List (Command ν α)) : Stack ν α :=
  commands.foldl after stack

theorem run_append (stack : Stack ν α) (first second : List (Command ν α)) :
    stack.run (first ++ second) = (stack.run first).run second := by
  unfold run
  rw [foldl_append]

theorem run_concat (stack : Stack ν α) (commands : List (Command ν α)) (command : Command ν α) :
    stack.run (commands ++ [command]) = (stack.run commands).after command :=
  run_append stack commands [command]

end Stack

variable {name : ν} {saved : List (ν × α)} {entry : ν × α} {stack : Stack ν α}

theorem since_eq_nil_iff : since name saved = [] ↔ ∀ entry ∈ saved, entry.1 ≠ name := by
  unfold since
  rw [dropWhile_eq_nil_iff]
  simp only [Bool.not_eq_true', decide_eq_false_iff_not, ne_eq]

theorem mem_of_mem_since (mem : entry ∈ since name saved) : entry ∈ saved :=
  (dropWhile_sublist _).mem mem

theorem name_of_since {older : List (ν × α)}
    (found : since name saved = entry :: older) : entry.1 = name := by
  have notSkipped := head?_dropWhile_not (fun entry : ν × α => !decide (entry.1 = name)) saved
  have isHead : (since name saved).head? = some entry := by rw [found]; rfl
  unfold since at isHead
  rw [isHead] at notSkipped
  simpa using notSkipped

theorem since_cons_self {older : List (ν × α)} (named : entry.1 = name) :
    since name (entry :: older) = entry :: older := by
  unfold since
  rw [dropWhile_cons_of_neg]
  simpa using named

/-- The saved states after a name was restored: it can be restored again, and
that changes nothing. -/
theorem Stack.restore_again {next : Stack ν α} (restored : stack.step (.restore name) = some next) :
    next.step (.restore name) = some next := by
  cases found : since name stack.saved with
  | nil =>
    rw [Stack.step_restore_nil found] at restored
    cases restored
  | cons entry older =>
    rw [Stack.step_restore_cons found] at restored
    cases restored
    exact Stack.step_restore_cons (since_cons_self (name_of_since found))

theorem Stack.mem_saved_after {command : Command ν α} (mem : entry ∈ (stack.after command).saved) :
    entry ∈ stack.saved ∨ command = .save entry.1 ∧ stack.current = entry.2 := by
  cases command with
  | save name =>
    rcases mem_cons.mp mem with rfl | older
    · exact .inr ⟨rfl, rfl⟩
    · exact .inl older
  | change next => exact .inl mem
  | restore name =>
    left
    unfold Stack.after at mem
    cases found : since name stack.saved with
    | nil =>
      rw [Stack.step_restore_nil found] at mem
      exact mem
    | cons latest older =>
      rw [Stack.step_restore_cons found] at mem
      exact mem_of_mem_since (found ▸ mem)
  | discard name =>
    left
    unfold Stack.after at mem
    cases found : since name stack.saved with
    | nil =>
      rw [Stack.step_discard_nil found] at mem
      exact mem
    | cons latest older =>
      rw [Stack.step_discard_cons found] at mem
      exact mem_of_mem_since (found ▸ mem_cons_of_mem _ mem)

theorem Stack.mem_saved_run {commands : List (Command ν α)}
    (mem : entry ∈ (stack.run commands).saved) :
    entry ∈ stack.saved ∨
      ∃ earlier later,
        commands = earlier ++ .save entry.1 :: later ∧ (stack.run earlier).current = entry.2 := by
  induction commands using reverseRecOn with
  | nil => exact .inl mem
  | append_singleton commands command ih =>
    rw [Stack.run_concat] at mem
    rcases Stack.mem_saved_after mem with before | ⟨isSave, current⟩
    · rcases ih before with initial | earlierSave
      · exact .inl initial
      · obtain ⟨earlier, later, split, current⟩ := earlierSave
        refine .inr ⟨earlier, later ++ [command], ?_, current⟩
        rw [split, append_assoc, cons_append]
    · exact .inr ⟨commands, [], by rw [isSave], current⟩

/-- Every state, the current one and the saved ones, has a property. -/
def Stack.All (property : α → Prop) (stack : Stack ν α) : Prop :=
  property stack.current ∧ ∀ entry ∈ stack.saved, property entry.2

theorem Stack.All.step {property : α → Prop} {stack next : Stack ν α} {command : Command ν α}
    (all : stack.All property) (ran : stack.step command = some next)
    (changed : ∀ state, command = .change state → property state) : next.All property := by
  cases command with
  | save name =>
    cases ran
    refine ⟨all.1, fun entry mem => ?_⟩
    rcases mem_cons.mp mem with rfl | older
    · exact all.1
    · exact all.2 entry older
  | change state =>
    cases ran
    exact ⟨changed state rfl, all.2⟩
  | restore name =>
    cases found : since name stack.saved with
    | nil =>
      rw [Stack.step_restore_nil found] at ran
      cases ran
    | cons latest older =>
      rw [Stack.step_restore_cons found] at ran
      cases ran
      have wasSaved : ∀ entry ∈ latest :: older, property entry.2 := by
        intro entry mem
        rw [← found] at mem
        exact all.2 entry (mem_of_mem_since mem)
      exact ⟨wasSaved latest mem_cons_self, wasSaved⟩
  | discard name =>
    cases found : since name stack.saved with
    | nil =>
      rw [Stack.step_discard_nil found] at ran
      cases ran
    | cons latest older =>
      rw [Stack.step_discard_cons found] at ran
      cases ran
      refine ⟨all.1, fun entry mem => ?_⟩
      exact all.2 entry (mem_of_mem_since (found ▸ mem_cons_of_mem _ mem))

theorem since_reverse_eq {i : Nat}
    (found : saved.reverse.findIdx? (fun entry => decide (entry.1 = name)) = some i) :
    ∃ entry, saved[saved.length - 1 - i]? = some entry ∧
      since name saved.reverse = (saved.take (saved.length - 1 - i + 1)).reverse ∧
      since name saved.reverse = entry :: (saved.take (saved.length - 1 - i)).reverse := by
  obtain ⟨inRange, -, -⟩ := findIdx?_eq_some_iff_getElem.mp found
  rw [length_reverse] at inRange
  have isIndex := (findIdx?_eq_some_iff_findIdx_eq.mp found).2
  have dropped : since name saved.reverse = saved.reverse.drop i := by
    unfold since
    rw [dropWhile_eq_drop_findIdx_not]
    simp only [Bool.not_not]
    rw [isIndex]
  have pos : saved.length - i = saved.length - 1 - i + 1 := by omega
  have last : saved.length - 1 - i < saved.length := by omega
  have asTake : since name saved.reverse = (saved.take (saved.length - 1 - i + 1)).reverse := by
    rw [dropped, drop_reverse, pos]
  refine ⟨saved[saved.length - 1 - i], getElem?_eq_getElem last, asTake, ?_⟩
  rw [asTake, take_succ_eq_append_getElem last, reverse_append]
  rfl

end Checkpoints
