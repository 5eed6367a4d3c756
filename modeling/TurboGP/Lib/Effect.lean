import Mathlib.Data.List.Forall2
import Mathlib.Order.Defs.Unbundled

/-!
# Programs that move a state along a preorder

A program of `EStateM ε σ` leaves a state behind whether it returns or fails.
`Moves relation state program` says that this state is related to `state`.
-/

namespace Effect

open List

universe u

variable {ε σ α β : Type u}

def finalState (prog : EStateM ε σ α) (state : σ) : σ :=
  match prog state with
  | .ok _ next => next
  | .error _ next => next

theorem finalState_ofExcept (result : Except ε α) (state : σ) :
    finalState (ofExcept result : EStateM ε σ α) state = state := by
  cases result <;> rfl

variable {result : Except ε α} {state : σ} {prog : EStateM ε σ α}
  {rest : α → EStateM ε σ β} {item : Type u} {compute : item → Except ε α}
  {items : List item} {values : List α} {body : item → EStateM ε σ PUnit}

theorem ofExcept_eq_ok_iff {next : σ} {value : α} :
    (ofExcept result : EStateM ε σ α) state = .ok value next ↔
      result = .ok value ∧ next = state := by
  cases result with
  | ok found =>
    show EStateM.Result.ok found state = .ok value next ↔ _
    simp only [EStateM.Result.ok.injEq, Except.ok.injEq]
    exact and_congr_right fun _ => eq_comm
  | error fault =>
    show EStateM.Result.error fault state = .ok value next ↔ _
    simp

theorem get_bind_run (rest : σ → EStateM ε σ α) (state : σ) :
    (get >>= rest) state = rest state state := rfl

theorem modify_bind_run (change : σ → σ) (rest : PUnit → EStateM ε σ α) (state : σ) :
    (modify change >>= rest) state = rest ⟨⟩ (change state) := rfl

theorem bind_run_ok {middle : σ} {value : α} (ran : prog state = .ok value middle) :
    (prog >>= rest) state = rest value middle := by
  show EStateM.bind prog rest state = _
  unfold EStateM.bind
  rw [ran]

theorem bind_run_error {middle : σ} {fault : ε} (failed : prog state = .error fault middle) :
    (prog >>= rest) state = .error fault middle := by
  show EStateM.bind prog rest state = _
  unfold EStateM.bind
  rw [failed]

theorem bind_run_congr {other : EStateM ε σ α}
    {otherState : σ} (same : prog state = other otherState) :
    (prog >>= rest) state = (other >>= rest) otherState := by
  show EStateM.bind prog rest state = EStateM.bind other rest otherState
  unfold EStateM.bind
  rw [same]

theorem finalState_bind_ok {value : α} {next : σ} (ran : prog state = .ok value next) :
    finalState (prog >>= rest) state = finalState (rest value) next := by
  unfold finalState
  rw [bind_run_ok ran]

theorem finalState_bind_congr {other : EStateM ε σ α}
    {otherState : σ} (same : prog state = other otherState) :
    finalState (prog >>= rest) state = finalState (other >>= rest) otherState := by
  unfold finalState
  rw [bind_run_congr same]

theorem ofExcept_bind_run (result : Except ε α) (rest : α → EStateM ε σ β) (state : σ) :
    (ofExcept result >>= rest) state =
      match result with
      | .ok value => rest value state
      | .error fault => .error fault state := by
  cases result <;> rfl

theorem bind_eq_ok_iff {final : σ} {value : β} :
    (prog >>= rest) state = .ok value final ↔ ∃ middleValue middle,
        prog state = .ok middleValue middle ∧ rest middleValue middle = .ok value final := by
  show EStateM.bind prog rest state = _ ↔ _
  unfold EStateM.bind
  cases prog state <;> simp

theorem except_ok_iff {rest : α → Except ε β} {value : β} :
    (result >>= rest) = .ok value ↔ ∃ middle, result = .ok middle ∧ rest middle = .ok value := by
  cases result <;> simp [bind, Except.bind]

theorem except_map_ok_iff {change : α → β} {value : β} :
    result.map change = .ok value ↔ ∃ middle, result = .ok middle ∧ change middle = value := by
  cases result <;> simp [Except.map]

theorem except_error_iff {rest : α → Except ε β} {fault : ε} :
    (result >>= rest) = .error fault ↔
      result = .error fault ∨ ∃ middle, result = .ok middle ∧ rest middle = .error fault := by
  cases result <;> simp [bind, Except.bind]

theorem ofExcept_bind_eq_ok_iff {final : σ} {value : β} :
    (ofExcept result >>= rest) state = .ok value final ↔
      ∃ middle, result = .ok middle ∧ rest middle state = .ok value final := by
  rw [ofExcept_bind_run]
  cases result <;> simp

theorem mapM_eq_ok_iff : items.mapM compute = .ok values ↔
      List.Forall₂ (fun element value => compute element = .ok value) items values := by
  induction items generalizing values with
  | nil =>
    rw [forall₂_nil_left_iff, mapM_nil]
    simp only [pure, Except.pure, Except.ok.injEq]
    exact eq_comm
  | cons head tail ih =>
    rw [mapM_cons, except_ok_iff]
    simp only [except_ok_iff, ih]
    constructor
    · rintro ⟨value, first, others, related, ⟨⟩⟩
      exact .cons first related
    · intro related
      cases related with
      | cons first others => exact ⟨_, first, _, others, rfl⟩

theorem mapM_ok_eq_map (read : items.mapM compute = .ok values) (value : item → α)
    (agrees : ∀ element ∈ items, ∀ result, compute element = .ok result → result = value element) :
    values = items.map value := by
  have related := mapM_eq_ok_iff.mp read
  clear read
  induction related with
  | nil => rfl
  | cons first _ sameRest =>
    rw [forall_mem_cons] at agrees
    rw [map_cons, agrees.1 _ first, sameRest agrees.2]

theorem forall_of_mapM_ok (read : items.mapM compute = .ok values) (holds : α → Prop)
    (each : ∀ element ∈ items, ∀ value, compute element = .ok value → holds value) :
    ∀ value ∈ values, holds value := by
  have related := mapM_eq_ok_iff.mp read
  clear read
  induction related with
  | nil => simp
  | cons got _ ih =>
    intro value mem
    rcases mem_cons.mp mem with rfl | later
    · exact each _ mem_cons_self _ got
    · exact ih (fun element inside => each element (mem_cons_of_mem _ inside)) value later

theorem mapM_ok_getElem? (read : items.mapM compute = .ok values) (k : Nat) :
    items[k]?.map compute = values[k]?.map Except.ok := by
  have related := mapM_eq_ok_iff.mp read
  clear read
  induction related generalizing k with
  | nil => rfl
  | cons first _ ih =>
    cases k with
    | zero => simpa using first
    | succ k => simpa using ih k

theorem exists_mapM_ok_iff : (∃ values, items.mapM compute = .ok values) ↔
      ∀ element ∈ items, ∃ value, compute element = .ok value := by
  simp only [mapM_eq_ok_iff]
  induction items with
  | nil => simp
  | cons head tail ih =>
    rw [forall_mem_cons, ← ih]
    constructor
    · rintro ⟨values, related⟩
      cases related with
      | cons first rest => exact ⟨⟨_, first⟩, ⟨_, rest⟩⟩
    · rintro ⟨⟨value, first⟩, ⟨values, rest⟩⟩
      exact ⟨value :: values, .cons first rest⟩

theorem forM_ok {check : item → Except ε PUnit.{u + 1}} (passed : items.forM check = .ok ⟨⟩) :
    ∀ element ∈ items, check element = .ok ⟨⟩ := by
  induction items with
  | nil => exact fun _ absent => absurd absent not_mem_nil
  | cons first rest ih =>
    obtain ⟨_, head, tail⟩ := except_ok_iff.mp passed
    exact forall_mem_cons.mpr ⟨head, ih tail⟩

theorem anyM_ok {ε item : Type} {items : List item} {test : item → Except ε Bool}
    {answer : Bool} (got : items.anyM test = .ok answer) :
    if answer then ∃ element ∈ items, test element = .ok true
    else ∀ element ∈ items, test element = .ok false := by
  induction items with
  | nil =>
    cases got
    exact fun _ absent => absurd absent not_mem_nil
  | cons first rest ih =>
    obtain ⟨found, head, tail⟩ := except_ok_iff.mp got
    cases found with
    | true =>
      cases tail
      exact ⟨first, mem_cons_self, head⟩
    | false =>
      have others := ih tail
      cases answer with
      | true =>
        obtain ⟨element, mem, passes⟩ := others
        exact ⟨element, mem_cons_of_mem _ mem, passes⟩
      | false => exact forall_mem_cons.mpr ⟨head, others⟩

theorem allM_ok {ε item : Type} {items : List item} {test : item → Except ε Bool}
    {answer : Bool} (got : items.allM test = .ok answer) :
    if answer then ∀ element ∈ items, test element = .ok true
    else ∃ element ∈ items, test element = .ok false := by
  have negated (out : Except ε Bool) (result : Bool) :
      (! ·) <$> out = .ok result ↔ out = .ok (!result) := by
    cases out <;> cases result <;> simp
  rw [allM_eq_not_anyM_not, negated] at got
  cases answer <;> simpa [negated] using anyM_ok got

theorem forM_map_eq {other : Type u} {change : item → other}
    {body : other → Except ε PUnit} {changed : item → Except ε PUnit}
    (same : ∀ element, body (change element) = changed element) (items : List item) :
    (items.map change).forM body = items.forM changed := by
  induction items with
  | nil => rfl
  | cons head tail ih =>
    show (body (change head) >>= fun _ => (tail.map change).forM body) =
      (changed head >>= fun _ => tail.forM changed)
    rw [same, ih]

theorem forM_modify_run (items : List item) (change : item → σ → σ) (state : σ) :
    (items.forM (fun element => modify (change element)) : EStateM ε σ PUnit) state =
      .ok PUnit.unit (items.foldl (fun cur element => change element cur) state) := by
  induction items generalizing state with
  | nil => rfl
  | cons head tail ih => exact ih (change head state)

theorem forM_run_unchanged (rounds : ∀ element ∈ items, body element state = .ok PUnit.unit state) :
    items.forM body state = .ok PUnit.unit state := by
  induction items with
  | nil => rfl
  | cons head tail ih =>
    show (body head >>= fun _ => tail.forM body) state = _
    rw [bind_run_ok (rounds head mem_cons_self)]
    exact ih fun element mem =>
        rounds element (mem_cons_of_mem head mem)

def Moves (rel : σ → σ → Prop) (state : σ) (prog : EStateM ε σ α) : Prop :=
  rel state (finalState prog state)

namespace Moves

variable {rel : σ → σ → Prop}

theorem reached {next : σ} {value : α} (moves : Moves rel state prog)
    (out : prog state = .ok value next) : rel state next := by
  unfold Moves finalState at moves
  rwa [out] at moves

theorem reached_error {next : σ} {error : ε} (moves : Moves rel state prog)
    (out : prog state = .error error next) : rel state next := by
  unfold Moves finalState at moves
  rwa [out] at moves

theorem weaken {weaker : σ → σ → Prop} (implication : ∀ old new, rel old new → weaker old new)
    (moves : Moves rel state prog) : Moves weaker state prog :=
  implication _ _ moves

theorem set {next : σ} (related : rel state next) :
    Moves rel state (set next : EStateM ε σ PUnit) :=
  related

theorem modify {change : σ → σ} (related : rel state (change state)) :
    Moves rel state (modify change : EStateM ε σ PUnit) :=
  related

variable [IsPreorder σ rel]

theorem unchanged (same : finalState prog state = state) : Moves rel state prog := by
  unfold Moves
  rw [same]
  exact refl state

theorem pure (value : α) : Moves rel state (pure value : EStateM ε σ α) := unchanged rfl

theorem throw (fault : ε) : Moves rel state (throw fault : EStateM ε σ α) := unchanged rfl

theorem ofExcept (result : Except ε α) :
    Moves rel state (MonadExcept.ofExcept result : EStateM ε σ α) :=
  unchanged (finalState_ofExcept result state)

theorem bind (first : Moves rel state prog)
    (second : ∀ value next, prog state = .ok value next → Moves rel next (rest value)) :
    Moves rel state (prog >>= rest) := by
  cases out : prog state with
  | ok value next =>
    unfold Moves
    rw [finalState_bind_ok out]
    exact Trans.trans (first.reached out) (second value next out)
  | error fault next =>
    unfold Moves finalState
    rw [bind_run_error out]
    exact first.reached_error out

/-- The moves of what follows lead on from the state in between. -/
theorem after
    (second : ∀ value next, prog state = .ok value next → Moves rel next (rest value)) :
    rel (finalState prog state) (finalState (prog >>= rest) state) := by
  cases out : prog state with
  | ok value next =>
    rw [finalState_bind_ok out]
    unfold finalState
    rw [out]
    exact second value next out
  | error fault next =>
    unfold finalState
    rw [bind_run_error out, out]
    exact refl next

theorem get_bind {rest : σ → EStateM ε σ β} (second : Moves rel state (rest state)) :
    Moves rel state (get >>= rest) :=
  bind (unchanged rfl) (fun value next out => by
    cases out
    exact second)

theorem ofExcept_bind (second : ∀ value, result = .ok value → Moves rel state (rest value)) :
    Moves rel state (MonadExcept.ofExcept result >>= rest) :=
  bind (ofExcept result) (fun value next out => by
    obtain ⟨isOk, rfl⟩ := ofExcept_eq_ok_iff.mp out
    exact second value isOk)

/-- A loop of moves; each round may use that the state so far is related to
the one the loop started in. -/
theorem forM
    (rounds : ∀ element ∈ items, ∀ cur, rel state cur →
        Moves rel cur (body element)) :
    Moves rel state (items.forM body) := by
  suffices general :
      ∀ cur, rel state cur → Moves rel cur (items.forM body) from
    general state (refl state)
  induction items with
  | nil => exact fun cur _ => unchanged rfl
  | cons head tail ih =>
    intro cur begun
    refine bind (rounds head mem_cons_self cur begun) ?_
    intro _ next out
    have moved : rel cur next := (rounds head mem_cons_self cur begun).reached out
    exact ih (fun element mem => rounds element (mem_cons_of_mem head mem))
        next (Trans.trans begun moved)

end Moves

/-! ## Parts of the state that a program does not look at -/

def mapState (change : σ → σ) : EStateM.Result ε σ α → EStateM.Result ε σ α
  | .ok value state => .ok value (change state)
  | .error fault state => .error fault (change state)

/-- The program does not look at what `change` changes: it returns the same
from the changed state and leaves the changed state behind.  It also moves the
state along `relation`. -/
structure Blind (change : σ → σ) (rel : σ → σ → Prop) (state : σ)
    (prog : EStateM ε σ α) : Prop where
  commutes : prog (change state) = mapState change (prog state)
  moves : Moves rel state prog

namespace Blind

variable {change : σ → σ} {rel : σ → σ → Prop}
  [IsPreorder σ rel] {state : σ}

theorem pure (value : α) : Blind change rel state (pure value : EStateM ε σ α) :=
  ⟨rfl, .pure value⟩

theorem throw (fault : ε) : Blind change rel state (throw fault : EStateM ε σ α) :=
  ⟨rfl, .throw fault⟩

omit [IsPreorder σ rel] in
theorem of_moves (moves : Moves rel state prog) : Blind id rel state prog := by
  refine ⟨?_, moves⟩
  cases outcome : prog state <;> exact outcome

theorem ofExcept (result : Except ε α) :
    Blind change rel state (MonadExcept.ofExcept result : EStateM ε σ α) := by
  refine ⟨?_, .ofExcept result⟩
  cases result <;> rfl

omit [IsPreorder σ rel] in
theorem modify {update : σ → σ} (commutes : update (change state) = change (update state))
    (related : rel state (update state)) :
    Blind change rel state (modify update : EStateM ε σ PUnit) := by
  refine ⟨?_, .modify related⟩
  show EStateM.Result.ok PUnit.unit (update (change state)) = _
  rw [commutes]
  rfl

theorem bind (first : Blind change rel state prog)
    (second :
      ∀ value next, prog state = .ok value next → Blind change rel next (rest value)) :
    Blind change rel state (prog >>= rest) := by
  refine ⟨?_, .bind first.moves fun value next out => (second value next out).moves⟩
  cases out : prog state with
  | ok value next =>
    have changed : prog (change state) = .ok value (change next) := by
      rw [first.commutes, out]
      rfl
    rw [bind_run_ok out, bind_run_ok changed]
    exact (second value next out).commutes
  | error fault next =>
    have changed : prog (change state) = .error fault (change next) := by
      rw [first.commutes, out]
      rfl
    rw [bind_run_error out, bind_run_error changed]
    rfl

theorem get_bind {rest : σ → EStateM ε σ β} (sameRead : rest (change state) = rest state)
    (second : Blind change rel state (rest state)) : Blind change rel state (get >>= rest) := by
  refine ⟨?_, .get_bind second.moves⟩
  rw [get_bind_run, get_bind_run, sameRead]
  exact second.commutes

theorem ofExcept_bind (second : ∀ value, result = .ok value → Blind change rel state (rest value)) :
    Blind change rel state (MonadExcept.ofExcept result >>= rest) :=
  bind (ofExcept result) (fun value next out => by
    obtain ⟨isOk, rfl⟩ := ofExcept_eq_ok_iff.mp out
    exact second value isOk)

theorem forM
    (rounds : ∀ element ∈ items, ∀ cur, rel state cur →
        Blind change rel cur (body element)) :
    Blind change rel state (items.forM body) := by
  suffices general :
      ∀ cur, rel state cur → Blind change rel cur (items.forM body) from
    general state (refl state)
  induction items with
  | nil => exact fun cur _ => pure _
  | cons head tail ih =>
    intro cur begun
    have round := rounds head mem_cons_self cur begun
    refine bind round ?_
    intro _ next out
    exact ih (fun element mem => rounds element (mem_cons_of_mem head mem))
        next (Trans.trans begun (round.moves.reached out))

end Blind

/-! ## The faults of a program -/

/-- Every fault the program ends with is among `allowed`. -/
def Throws (allowed : ε → Prop) (prog : EStateM ε σ α) : Prop :=
  ∀ state fault next, prog state = .error fault next → allowed fault

namespace Throws

variable {allowed : ε → Prop}

theorem pure (value : α) : Throws allowed (pure value : EStateM ε σ α) := by
  intro state fault next failed
  cases failed

theorem set (next : σ) : Throws allowed (set next : EStateM ε σ PUnit) := by
  intro state fault final failed
  cases failed

theorem modify (change : σ → σ) : Throws allowed (modify change : EStateM ε σ PUnit) := by
  intro state fault final failed
  cases failed

theorem get : Throws allowed (get : EStateM ε σ σ) := by
  intro state fault next failed
  cases failed

theorem throw {fault : ε} (isAllowed : allowed fault) :
    Throws allowed (throw fault : EStateM ε σ α) := by
  intro state other next failed
  cases failed
  exact isAllowed

theorem ofExcept (faults : ∀ fault, result = .error fault → allowed fault) :
    Throws allowed (MonadExcept.ofExcept result : EStateM ε σ α) := by
  intro state fault next failed
  cases result with
  | ok value => cases failed
  | error found =>
    cases failed
    exact faults fault rfl

theorem bind (first : Throws allowed prog) (second : ∀ value, Throws allowed (rest value)) :
    Throws allowed (prog >>= rest) := by
  intro state fault next failed
  cases out : prog state with
  | ok value middle =>
    rw [bind_run_ok out] at failed
    exact second value middle fault next failed
  | error found middle =>
    rw [bind_run_error out] at failed
    cases failed
    exact first state fault next out

theorem forM (rounds : ∀ element ∈ items, Throws allowed (body element)) :
    Throws allowed (items.forM body) := by
  induction items with
  | nil => exact pure _
  | cons head tail ih =>
    refine bind (rounds head mem_cons_self) fun _ => ?_
    exact ih fun element mem =>
        rounds element (mem_cons_of_mem head mem)

end Throws

/-! ## The check that decides a program -/

/-- From this state the program ends with a fault that is not among `allowed`
exactly if the check does. -/
def FailsAs {γ : Type u} (allowed : ε → Prop) (check : Except ε γ)
    (prog : EStateM ε σ α) (state : σ) : Prop :=
  ∀ fault, ¬ allowed fault → ((∃ next, prog state = .error fault next) ↔ check = .error fault)

namespace FailsAs

variable {γ : Type u} {allowed : ε → Prop} {check : Except ε γ}

theorem of_throws (value : γ) (quiet : Throws allowed prog) :
    FailsAs allowed (.ok value : Except ε γ) prog state := by
  intro fault excluded
  constructor
  · rintro ⟨next, failed⟩
    exact absurd (quiet state fault next failed) excluded
  · intro failed
    cases failed

theorem of_error {fault : ε} {next : σ} (failed : prog state = .error fault next) :
    FailsAs allowed (.error fault : Except ε γ) prog state := by
  intro other _
  constructor
  · rintro ⟨_, failsToo⟩
    cases failed.symm.trans failsToo
    rfl
  · intro same
    cases same
    exact ⟨next, failed⟩

theorem ofExcept_bind {result : Except ε β} {rest : β → EStateM ε σ α} {checks : β → Except ε γ}
    (later : ∀ value, FailsAs allowed (checks value) (rest value) state) :
    FailsAs allowed (result >>= checks) (MonadExcept.ofExcept result >>= rest) state := by
  cases result with
  | ok value => exact later value
  | error fault => exact of_error rfl

theorem bind_ok {value : α} {middle : σ} (ran : prog state = .ok value middle)
    (decides : FailsAs allowed check (rest value) middle) :
    FailsAs allowed check (prog >>= rest) state := by
  intro fault excluded
  rw [bind_run_ok ran]
  exact decides fault excluded

theorem ofExcept (result : Except ε α) :
    FailsAs allowed result (MonadExcept.ofExcept result) state := by
  cases result with
  | ok value => exact of_throws value (.pure value)
  | error fault => exact of_error rfl

theorem bind_throws (decides : FailsAs allowed check prog state)
    (quiet : ∀ value, Throws allowed (rest value)) :
    FailsAs allowed check (prog >>= rest) state := by
  intro fault excluded
  rw [← decides fault excluded]
  cases out : prog state with
  | ok value middle =>
    rw [bind_run_ok out]
    constructor
    · rintro ⟨next, failed⟩
      exact absurd (quiet value middle fault next failed) excluded
    · rintro ⟨next, failed⟩
      cases failed
  | error found middle =>
    rw [bind_run_error out]
    simp only [EStateM.Result.error.injEq]

end FailsAs

/-! ## The states a program returns in -/

/-- When the program returns, its value and state meet `post`. -/
def Ensures (post : α → σ → Prop) (state : σ) (prog : EStateM ε σ α) : Prop :=
  ∀ value next, prog state = .ok value next → post value next

namespace Ensures

theorem throw {post : α → σ → Prop} (fault : ε) :
    Ensures post state (throw fault : EStateM ε σ α) := by
  intro value next ran
  cases ran

theorem of_moves {rel : σ → σ → Prop} (moves : Moves rel state prog) :
    Ensures (fun _ next => rel state next) state prog :=
  fun _ _ ran => moves.reached ran

theorem weaken {post weaker : α → σ → Prop}
    (implication : ∀ value next, post value next → weaker value next)
    (ensures : Ensures post state prog) : Ensures weaker state prog :=
  fun value next ran => implication value next (ensures value next ran)

theorem bind {post : β → σ → Prop}
    (second : ∀ value next, prog state = .ok value next → Ensures post next (rest value)) :
    Ensures post state (prog >>= rest) := by
  intro value final ran
  obtain ⟨middleValue, middle, first, rest⟩ := bind_eq_ok_iff.mp ran
  exact second middleValue middle first value final rest

end Ensures

/-! ## Invariants of the state -/

/-- From a state with the invariant the program returns in one, or ends with a
fault that is allowed. -/
def Guarded (invariant : σ → Prop) (allowed : ε → Prop) (prog : EStateM ε σ α) : Prop :=
  ∀ state, invariant state →
    (∀ value next, prog state = .ok value next → invariant next) ∧
      ∀ fault next, prog state = .error fault next → allowed fault

namespace Guarded

variable {invariant : σ → Prop} {allowed : ε → Prop}

theorem of_run (runs : ∀ state, invariant state →
        match prog state with
        | .ok _ next => invariant next
        | .error fault _ => allowed fault) :
    Guarded invariant allowed prog := by
  intro state holds
  have out := runs state holds
  constructor
  · intro value next ran
    rwa [ran] at out
  · intro fault next failed
    rwa [failed] at out

theorem pure (value : α) : Guarded invariant allowed (pure value : EStateM ε σ α) :=
  of_run fun _ holds => holds

theorem bind_of {post : α → Prop} (first : Guarded invariant allowed prog)
    (values : ∀ state value next, invariant state → prog state = .ok value next → post value)
    (second : ∀ value, post value → Guarded invariant allowed (rest value)) :
    Guarded invariant allowed (prog >>= rest) := by
  intro state holds
  obtain ⟨returns, fails⟩ := first state holds
  cases out : prog state with
  | ok value middle =>
    rw [bind_run_ok out]
    exact second value (values state value middle holds out) middle (returns value middle out)
  | error fault middle =>
    rw [bind_run_error out]
    refine ⟨nofun, fun other next failed => ?_⟩
    cases failed
    exact fails fault middle out

theorem bind (first : Guarded invariant allowed prog)
    (second : ∀ value, Guarded invariant allowed (rest value)) :
    Guarded invariant allowed (prog >>= rest) :=
  @bind_of ε σ α β prog rest invariant allowed (fun _ => True) first
    (fun _ _ _ _ _ => trivial) fun value _ => second value

end Guarded

/-! ## Two runs side by side -/

/-- Two outcomes with the same value or fault, in related states. -/
inductive Alike (rel : σ → σ → Prop) :
    EStateM.Result ε σ α → EStateM.Result ε σ α → Prop
  | ok (value : α) {first second : σ} (related : rel first second) :
      Alike rel (.ok value first) (.ok value second)
  | error (fault : ε) {first second : σ}
      (related : rel first second) :
      Alike rel (.error fault first) (.error fault second)

/-- From related states the two programs end alike. -/
def Follows (rel : σ → σ → Prop) (prog other : EStateM ε σ α) : Prop :=
  ∀ first second, rel first second → Alike rel (prog first) (other second)

namespace Follows

variable {rel : σ → σ → Prop}

theorem pure (value : α) : Follows rel (pure value : EStateM ε σ α) (pure value) :=
  fun _ _ related => .ok value related

theorem throw (fault : ε) : Follows rel (throw fault : EStateM ε σ α) (throw fault) :=
  fun _ _ related => .error fault related

theorem ofExcept (result : Except ε α) : Follows rel (MonadExcept.ofExcept result : EStateM ε σ α)
      (MonadExcept.ofExcept result) := by
  cases result with
  | ok value => exact pure value
  | error fault => exact throw fault

theorem bind {prog other : EStateM ε σ α} {rest otherRest : α → EStateM ε σ β}
    (begin : Follows rel prog other) (next : ∀ value, Follows rel (rest value) (otherRest value)) :
    Follows rel (prog >>= rest) (other >>= otherRest) := by
  intro first second related
  have alike := begin first second related
  show Alike rel (EStateM.bind prog rest first) (EStateM.bind other otherRest second)
  unfold EStateM.bind
  generalize prog first = out, other second = otherOut at alike
  cases alike with
  | ok value middles => exact next value _ _ middles
  | error fault middles => exact .error fault middles

theorem get_bind {rest otherRest : σ → EStateM ε σ α}
    (next :
      ∀ first second, rel first second → Follows rel (rest first) (otherRest second)) :
    Follows rel (get >>= rest) (get >>= otherRest) := by
  intro first second related
  exact next first second related first second related

theorem forM {body otherBody : item → EStateM ε σ PUnit}
    (rounds : ∀ element, Follows rel (body element) (otherBody element)) (items : List item) :
    Follows rel (items.forM body) (items.forM otherBody) := by
  induction items with
  | nil => exact pure _
  | cons head tail ih => exact bind (rounds head) fun _ => ih

end Follows

end Effect
