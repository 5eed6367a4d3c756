import TurboGP.Storage.BufferPool

/-!
# The clock sweep

What `find_victim` finds and what it leaves as it was: two rounds of the clock
reach every frame once with its reference bit cleared.
-/

namespace TurboGP.Storage

open Effect List

/-- A frame without what the clock may change: the reference bit of an
unpinned frame. -/
def Frame.besidesClock (frame : Frame) : Frame :=
  if frame.pinCount = 0 then { frame with referenced := false } else frame

@[simp] theorem Frame.pinCount_besidesClock (frame : Frame) :
    frame.besidesClock.pinCount = frame.pinCount := by
  unfold besidesClock
  split <;> rfl

namespace BufferPool

variable {pool : BufferPool} {idx rounds : Nat} {frame : Frame}

theorem frameAt_run (here : pool.frames[idx]? = some frame) :
    frameAt idx pool = .ok frame pool := by
  unfold frameAt
  rw [get_bind_run, here]
  rfl

theorem modifyFrame_run (here : pool.frames[idx]? = some frame) (change : Frame → Frame) :
    modifyFrame idx change pool =
      .ok () { pool with frames := pool.frames.set idx (change frame) } := by
  unfold modifyFrame
  rw [bind_run_ok (frameAt_run here)]
  rfl

def besidesClock (pool : BufferPool) : BufferPool :=
  { pool with clockHand := 0, frames := pool.frames.map Frame.besidesClock }

def Unpinned (pool : BufferPool) (idx : Nat) : Prop :=
  pool.frames[idx]?.map Frame.pinCount = some 0

/-- The pool when the hand has passed a frame. -/
def passed (pool : BufferPool) : BufferPool :=
  { pool with
    clockHand := (pool.clockHand + 1) % pool.frames.length
    frames := pool.frames.modify pool.clockHand Frame.besidesClock }

theorem besidesClock_passed (pool : BufferPool) : pool.passed.besidesClock = pool.besidesClock := by
  have twice : ∀ frame : Frame, frame.besidesClock.besidesClock = frame.besidesClock := by
    intro frame
    unfold Frame.besidesClock
    split <;> simp_all
  have frames : (pool.frames.modify pool.clockHand Frame.besidesClock).map Frame.besidesClock =
      pool.frames.map Frame.besidesClock := by
    refine ext_getElem? fun idx => ?_
    rw [getElem?_map, getElem?_map, getElem?_modify]
    split <;> cases pool.frames[idx]? <;> simp [twice]
  unfold besidesClock passed
  rw [frames]

theorem Unpinned.congr {after : BufferPool} (same : after.besidesClock = pool.besidesClock)
    (idx : Nat) : after.Unpinned idx ↔ pool.Unpinned idx := by
  have kept : ∀ pool : BufferPool, pool.besidesClock.Unpinned idx ↔ pool.Unpinned idx := by
    intro pool
    unfold Unpinned besidesClock
    rw [getElem?_map]
    cases pool.frames[idx]? <;> simp
  rw [← kept after, same, kept pool]

theorem clockRounds_succ (here : pool.frames[pool.clockHand]? = some frame) :
    clockRounds (rounds + 1) pool =
      if frame.pinCount = 0 ∧ frame.referenced = false then .ok (some pool.clockHand) pool.passed
      else clockRounds rounds pool.passed := by
  let turned : BufferPool := { pool with clockHand := (pool.clockHand + 1) % pool.frames.length }
  have read : frameAt pool.clockHand turned = .ok frame turned := frameAt_run here
  have unfolded : clockRounds (rounds + 1) pool = (if frame.pinCount = 0 then
          if frame.referenced then do
            modifyFrame pool.clockHand fun frame => { frame with referenced := false }
            clockRounds rounds
          else return some pool.clockHand
        else clockRounds rounds : PoolM (Option Nat)) turned :=
    bind_run_ok read
  obtain ⟨inside, isFrame⟩ := List.getElem?_eq_some_iff.mp here
  have changed : pool.frames.modify pool.clockHand Frame.besidesClock =
      pool.frames.set pool.clockHand frame.besidesClock := by
    rw [modify_eq_set_getElem?, here]
    rfl
  have passes : pool.passed =
      { turned with frames := pool.frames.set pool.clockHand frame.besidesClock } := by
    unfold passed
    rw [changed]
  rw [unfolded, passes]
  by_cases unused : frame.pinCount = 0
  · cases referenced : frame.referenced with
    | true =>
      have cleared : frame.besidesClock = { frame with referenced := false } := if_pos unused
      have atHand : turned.frames[pool.clockHand]? = some frame := here
      rw [if_pos unused, if_pos rfl, bind_run_ok (modifyFrame_run atHand _), cleared,
        if_neg fun both => Bool.noConfusion both.2]
    | false =>
      have same : frame.besidesClock = frame := by
        unfold Frame.besidesClock
        rw [if_pos unused, ← referenced]
      rw [same, ← isFrame, set_getElem_self, if_pos (isFrame ▸ unused), if_neg Bool.false_ne_true,
        if_pos ⟨isFrame ▸ unused, rfl⟩]
      rfl
  · have same : frame.besidesClock = frame := if_neg unused
    rw [if_neg unused, if_neg fun both => unused both.1, same, ← isFrame, set_getElem_self]

theorem length_passed (pool : BufferPool) : pool.passed.frames.length = pool.frames.length :=
  length_modify ..

theorem clockHand_passed (inside : pool.clockHand < pool.frames.length) :
    pool.passed.clockHand < pool.passed.frames.length := by
  rw [length_passed]
  exact Nat.mod_lt _ (Nat.zero_lt_of_lt inside)

theorem clockRounds_run (rounds : Nat) (inside : pool.clockHand < pool.frames.length) :
    ∃ found after, clockRounds rounds pool = .ok found after ∧
      after.besidesClock = pool.besidesClock ∧ after.clockHand < after.frames.length ∧
      ∀ idx, found = some idx → pool.Unpinned idx := by
  induction rounds generalizing pool with
  | zero => exact ⟨none, pool, rfl, rfl, inside, fun _ absent => by cases absent⟩
  | succ rounds ih =>
    have here := getElem?_eq_getElem inside
    rw [clockRounds_succ here]
    split
    · next free =>
      refine ⟨_, _, rfl, besidesClock_passed pool, clockHand_passed inside, ?_⟩
      intro idx isHand
      cases isHand
      unfold Unpinned
      rw [here, ← free.1]
      rfl
    · obtain ⟨found, after, ran, same, hand, unpinned⟩ := ih (clockHand_passed inside)
      refine ⟨found, after, ran, same.trans (besidesClock_passed pool), hand, ?_⟩
      exact fun idx isFound =>
        (Unpinned.congr (besidesClock_passed pool) idx).mp (unpinned idx isFound)

theorem unused_passed {place : Nat} (here : pool.frames[place]? = some frame)
    (unused : frame.pinCount = 0) :
    ∃ left, pool.passed.frames[place]? = some left ∧ left.pinCount = 0 ∧
      (left.referenced = true → frame.referenced = true ∧ pool.clockHand ≠ place) := by
  unfold passed
  rw [getElem?_modify, here]
  split
  · have cleared : frame.besidesClock = { frame with referenced := false } := if_pos unused
    exact ⟨_, rfl, frame.pinCount_besidesClock.trans unused,
      fun referenced => by cases (congrArg Frame.referenced cleared).symm.trans referenced⟩
  · next other => exact ⟨frame, rfl, unused, fun referenced => ⟨referenced, other⟩⟩

/-- An unpinned frame is found when the hand comes to it, or one round later
if its reference bit has to be cleared first. -/
theorem clockRounds_finds (rounds : Nat) {ahead : Nat}
    (inside : pool.clockHand < pool.frames.length)
    (here : pool.frames[(pool.clockHand + ahead) % pool.frames.length]? = some frame)
    (unused : frame.pinCount = 0)
    (enough : ahead + (if frame.referenced then pool.frames.length else 0) < rounds) :
    ∃ idx after, clockRounds rounds pool = .ok (some idx) after := by
  induction rounds generalizing pool ahead frame with
  | zero => omega
  | succ rounds ih =>
    have atHand := getElem?_eq_getElem inside
    rw [clockRounds_succ atHand]
    split
    · exact ⟨_, _, rfl⟩
    · next notFree =>
      obtain ⟨left, stays, leftUnused, wasReferenced⟩ := unused_passed here unused
      cases ahead with
      | zero =>
        -- the frame under the hand has lost its bit and comes again in a full round
        have isHand : (pool.clockHand + 0) % pool.frames.length = pool.clockHand :=
          Nat.mod_eq_of_lt inside
        have again : (pool.passed.clockHand + (pool.frames.length - 1)) %
            pool.passed.frames.length = (pool.clockHand + 0) % pool.frames.length := by
          rw [length_passed]
          show ((pool.clockHand + 1) % pool.frames.length + _) % _ = _
          rw [Nat.mod_add_mod, Nat.add_assoc, Nat.add_sub_of_le (Nat.zero_lt_of_lt inside),
            Nat.add_mod_right, Nat.add_zero]
        rw [isHand, atHand] at here
        cases here
        have referenced : pool.frames[pool.clockHand].referenced = true := by
          by_contra clear
          exact notFree ⟨unused, Bool.eq_false_of_not_eq_true clear⟩
        have cleared : left.referenced = false := by
          by_contra set
          exact (wasReferenced (Bool.eq_true_of_not_eq_false set)).2 isHand.symm
        refine ih (clockHand_passed inside) (again ▸ stays) leftUnused ?_
        rw [referenced, if_pos rfl] at enough
        rw [cleared, if_neg Bool.false_ne_true]
        omega
      | succ ahead =>
        have nearer : (pool.passed.clockHand + ahead) % pool.passed.frames.length =
            (pool.clockHand + (ahead + 1)) % pool.frames.length := by
          rw [length_passed]
          show ((pool.clockHand + 1) % pool.frames.length + _) % _ = _
          rw [Nat.mod_add_mod, Nat.add_assoc, Nat.add_comm 1]
        refine ih (clockHand_passed inside) (nearer ▸ stays) leftUnused ?_
        rw [length_passed]
        split
        · next set =>
          rw [(wasReferenced set).1, if_pos rfl] at enough
          omega
        · omega

/-- For every clock hand and all pin counts and reference bits, `find_victim`
returns an unpinned frame if there is one and changes nothing but the hand and
the reference bits of unpinned frames. -/
theorem findVictim_finds (inside : pool.clockHand < pool.frames.length) :
    ∃ found after, findVictim pool = .ok found after ∧
      (match found with
        | some idx => pool.Unpinned idx
        | none => ∀ idx, ¬ pool.Unpinned idx) ∧
      after.besidesClock = pool.besidesClock := by
  obtain ⟨found, after, ran, same, -, unpinned⟩ :=
    clockRounds_run (2 * pool.frames.length) inside
  refine ⟨found, after, ran, ?_, same⟩
  cases found with
  | some idx => exact unpinned idx rfl
  | none =>
    intro idx isUnpinned
    obtain ⟨frame, here, unused⟩ := Option.map_eq_some_iff.mp isUnpinned
    obtain ⟨bound, -⟩ := List.getElem?_eq_some_iff.mp here
    obtain ⟨ahead, near, reaches⟩ : ∃ ahead, ahead < pool.frames.length ∧
        (pool.clockHand + ahead) % pool.frames.length = idx := by
      refine ⟨(idx + (pool.frames.length - pool.clockHand)) % pool.frames.length,
        Nat.mod_lt _ (Nat.zero_lt_of_lt inside), ?_⟩
      rw [Nat.add_mod_mod, Nat.add_left_comm, Nat.add_sub_of_le (Nat.le_of_lt inside),
        Nat.add_mod_right, Nat.mod_eq_of_lt bound]
    obtain ⟨other, _, found⟩ :=
      clockRounds_finds (2 * pool.frames.length) inside (reaches ▸ here) unused
        (by split <;> omega)
    cases ran.symm.trans found

/-- The first frame is pinned, and the other two were used lately. -/
def usedPool : BufferPool :=
  { new ∅ 3 with
    clockHand := 1
    frames := [{ Frame.free with pinCount := 2, referenced := true },
      { Frame.free with referenced := true }, { Frame.free with referenced := true }] }

/-- The two frames lose their bits, the pinned one is passed over, and the
second is found in the next round. -/
theorem findVictim_finds_used :
    ∃ found after, findVictim usedPool = .ok found after ∧
      (match found with
        | some idx => usedPool.Unpinned idx
        | none => ∀ idx, ¬ usedPool.Unpinned idx) ∧
      after.besidesClock = usedPool.besidesClock :=
  findVictim_finds (by decide)

example : ∃ after, findVictim usedPool = .ok (some 1) after := ⟨_, rfl⟩

end BufferPool

end TurboGP.Storage
