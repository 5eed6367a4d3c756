import TurboGP.Storage.ReadFailures

/-! # Pages that `new_page` returns -/

namespace TurboGP.Storage

open Effect WriteBack GuardedRun BufferPool PoolUsers List

inductive PoolEvent
  | call (call : PoolCall)
  | reopen (capacity : Nat)

/-- The pools over one directory, and the ids that `new_page` returned. -/
structure PoolHistory where
  session : PoolSession
  returned : List PageId

def returnedBy (pool : BufferPool) : PoolCall → List PageId
  | .newPage tableId =>
    match newPage tableId pool with
    | .ok id _ => [id]
    | .error _ _ => []
  | _ => []

def BufferPool.nextNum (pool : BufferPool) (tableId : UInt64) : Nat :=
  (pool.nextId tableId).pageNum.toNat

namespace PoolHistory

def start (files : TableFiles) (capacity : Nat) : PoolHistory :=
  { session := .new files capacity, returned := [] }

def step (host : PoolHost) (history : PoolHistory) : PoolEvent → Option PoolHistory
  | .call call =>
    (history.session.step host call).map (fun next =>
      { session := next, returned := history.returned ++ returnedBy history.session.pool call })
  | .reopen capacity => some { history with session := .new history.session.pool.files capacity }

/-- The table has no page in the files. -/
def Blank (files : TableFiles) (tableId : UInt64) : Prop :=
  ∀ id : PageId, id.tableId = tableId → files.diskPage id = .new

/-- A pool is opened again before the table has pages, its pages are stored
only when their number is taken, and the numbers suffice. -/
def Allowed (tableId : UInt64) (history : PoolHistory) : PoolEvent → Prop
  | .call call =>
    history.session.Admitted call ∧
      match call with
      | .newPage other => other = tableId → history.session.pool.nextNum tableId + 1 < 2 ^ 32
      | .storePage id _ =>
        id.tableId = tableId → id.pageNum.toNat < history.session.pool.nextNum tableId
      | _ => True
  | .reopen _ =>
    (∀ id ∈ history.returned, id.tableId ≠ tableId) ∧
      Blank history.session.pool.files tableId

structure Fresh (tableId : UInt64) (history : PoolHistory) : Prop where
  sound : history.session.Sound
  below : ∀ id ∈ history.returned, id.tableId = tableId →
      id.pageNum.toNat < history.session.pool.nextNum tableId
  blank : ∀ id : PageId, id.tableId = tableId →
      history.session.pool.nextNum tableId ≤ id.pageNum.toNat →
      history.session.users.contents id = .new

variable {tableId : UInt64} {history : PoolHistory} {host : PoolHost}

theorem fresh_new {files : TableFiles} (whole : files.Whole) (blank : Blank files tableId)
    (capacity : Nat) {returned : List PageId} (others : ∀ id ∈ returned, id.tableId ≠ tableId) :
    Fresh tableId { session := .new files capacity, returned := returned } :=
  ⟨PoolSession.sound_new whole capacity, fun id mem isTable => absurd isTable (others id mem),
    fun id isTable _ => blank id isTable⟩

variable {next : PoolSession}

theorem Fresh.grow {ids : List PageId} (fresh : Fresh tableId history)
    (sound : next.Sound) (more : history.session.pool.nextNum tableId ≤ next.pool.nextNum tableId)
    (same : ∀ id : PageId, id.tableId = tableId →
        history.session.pool.nextNum tableId ≤ id.pageNum.toNat →
        next.users.contents id = history.session.users.contents id)
    (added : ∀ id ∈ ids, id.tableId = tableId → id.pageNum.toNat < next.pool.nextNum tableId) :
    Fresh tableId { session := next, returned := history.returned ++ ids } := by
  refine ⟨sound, forall_mem_append.mpr ⟨?_, added⟩, ?_⟩
  · intro id mem isTable
    exact Nat.lt_of_lt_of_le (fresh.below id mem isTable) more
  · intro id isTable free
    have wasFree := Nat.le_trans more free
    exact (same id isTable wasFree).trans (fresh.blank id isTable wasFree)

theorem settle_some {α : Type} {prog : PoolM α} {pool : BufferPool}
    {users : Users PageId Page} {learn : α → BufferPool → Users PageId Page}
    (settled : PoolSession.settle users (prog pool) learn = some next) :
    next.pool = finalState prog pool ∧
      (next.users = users ∨ ∃ value, next.users = learn value next.pool) := by
  unfold finalState
  cases out : prog pool with
  | ok value after =>
    rw [out] at settled
    cases settled
    exact ⟨rfl, .inr ⟨value, rfl⟩⟩
  | error fault after =>
    rw [out] at settled
    cases fault with
    | panic => cases settled
    | io message =>
      cases settled
      exact ⟨rfl, .inl rfl⟩

/-- A call that takes no number. -/
theorem Fresh.settle {α : Type} {prog : PoolM α}
    {learn : α → BufferPool → Users PageId Page} (fresh : Fresh tableId history)
    (sound : next.Sound) (keeps : Moves Keeps history.session.pool prog)
    (settled : PoolSession.settle history.session.users (prog history.session.pool) learn =
        some next)
    (same : ∀ value pool (id : PageId), id.tableId = tableId →
        history.session.pool.nextNum tableId ≤ id.pageNum.toNat →
        (learn value pool).contents id = history.session.users.contents id) :
    Fresh tableId { session := next, returned := history.returned ++ [] } := by
  obtain ⟨isPool, known⟩ := settle_some settled
  have number : next.pool.nextNum tableId = history.session.pool.nextNum tableId := by
    unfold nextNum nextId
    rw [isPool, keeps.numbers]
  refine fresh.grow sound number.ge ?_ (forall_mem_nil _)
  intro id isTable free
  rcases known with isUsers | ⟨value, learned⟩
  · rw [isUsers]
  · rw [learned]
    exact same value next.pool id isTable free

theorem nextNum_counted (pool : BufferPool) (other : UInt64) :
    (pool.counted other).nextNum tableId =
      if tableId = other then (pool.nextNum tableId + 1) % 2 ^ 32 else pool.nextNum tableId := by
  unfold nextNum nextId counted
  simp only [FiniteMap.lookup_insert_eq]
  split
  · next same =>
    rw [same]
    exact UInt32.toNat_add _ _
  · rfl

theorem Fresh.newPage {other : UInt64} (fresh : Fresh tableId history)
    (sound : next.Sound) (allowed : history.Allowed tableId (.call (.newPage other)))
    (stepped : history.session.step host (.newPage other) = some next) :
    Fresh tableId
      { session := next
        returned := history.returned ++ returnedBy history.session.pool (.newPage other) } := by
  obtain ⟨isPool, known⟩ := settle_some stepped
  have number : next.pool.nextNum tableId =
        (history.session.pool.counted other).nextNum tableId := by
    unfold nextNum nextId
    rw [isPool, (newPage_keeps other).numbers]
  rw [nextNum_counted] at number
  have isNext : ∀ id ∈ returnedBy history.session.pool (.newPage other),
      id = history.session.pool.nextId other := by
    rw [returnedBy]
    rcases newPage_run fresh.sound allowed.1 with ⟨idx, after, ran, -⟩ | ⟨after, failed, -⟩
    · rw [ran]
      exact forall_mem_singleton.mpr rfl
    · rw [failed]
      exact forall_mem_nil _
  have contents : next.users.contents = history.session.users.contents := by
    rcases known with isUsers | ⟨value, learned⟩
    · rw [isUsers]
    · rw [learned]
      rfl
  by_cases isTable : tableId = other
  · subst isTable
    rw [if_pos rfl, Nat.mod_eq_of_lt (allowed.2 rfl)] at number
    refine fresh.grow sound (by omega) (fun id _ _ => congrFun contents id) ?_
    intro id mem _
    rw [isNext id mem, number]
    exact Nat.lt_succ_self _
  · rw [if_neg isTable] at number
    refine fresh.grow sound number.ge (fun id _ _ => congrFun contents id) ?_
    intro id mem ofTable
    rw [isNext id mem] at ofTable
    exact absurd ofTable.symm isTable

theorem Fresh.step {event : PoolEvent} {next : PoolHistory} (fresh : Fresh tableId history)
    (allowed : history.Allowed tableId event) (stepped : history.step host event = some next) :
    Fresh tableId next := by
  cases event with
  | reopen capacity =>
    cases stepped
    exact fresh_new fresh.sound.whole allowed.2 capacity allowed.1
  | call call =>
    obtain ⟨session, ran, rfl⟩ := Option.map_eq_some_iff.mp stepped
    obtain ⟨found, isNext, sound⟩ := fresh.sound.step_some host allowed.1
    rw [ran] at isNext
    cases isNext
    cases call with
    | newPage other => exact fresh.newPage sound allowed ran
    | storePage id page =>
      refine fresh.settle sound (storePage_keeps _ page) ran ?_
      intro _ _ tested isTable free
      refine Function.update_of_ne ?_ _ _
      rintro rfl
      exact absurd (allowed.2 isTable) (Nat.not_lt.mpr free)
    | fetchPage id => exact fresh.settle sound fetchPage_keeps ran fun _ _ _ _ _ => rfl
    | unpinPage id dirty =>
      exact fresh.settle sound (unpinPage_keeps dirty) ran fun _ _ _ _ _ => rfl
    | markDirty id => exact fresh.settle sound markDirty_keeps ran fun _ _ _ _ _ => rfl
    | flushPage id => exact fresh.settle sound flushPage_keeps ran fun _ _ _ _ _ => rfl
    | flushTable other =>
      exact fresh.settle sound (flushTable_keeps host other) ran fun _ _ _ _ _ => rfl
    | flushAll => exact fresh.settle sound (flushAll_keeps host) ran fun _ _ _ _ _ => rfl

end PoolHistory

open PoolHistory

/-- In every history: the id was not returned before, and its page is new. -/
theorem new_page_fresh {host : PoolHost} {files : TableFiles} (whole : files.Whole)
    {tableId : UInt64} (blank : Blank files tableId) (capacity : Nat) {events : List PoolEvent}
    {history : PoolHistory}
    (run : Run (step host) (PoolHistory.Allowed tableId) (start files capacity) events
        history)
    (fits : history.session.Admitted (.newPage tableId)) {id : PageId} {after : BufferPool}
    (ran : newPage tableId history.session.pool = .ok id after) :
    id.tableId = tableId ∧ id ∉ history.returned ∧
      ∃ idx, after.pageTable.lookup id = some idx ∧ getPage idx after = .ok .new after := by
  have fresh : Fresh tableId history := by
    refine run.invariant (Fresh tableId) ?_ (fresh_new whole blank capacity (forall_mem_nil _))
    exact fun _ _ _ fresh allowed stepped => fresh.step allowed stepped
  rcases newPage_run fresh.sound fits with ⟨idx, next, returns, sound, found⟩ | ⟨next, failed, -⟩
  · cases returns.symm.trans ran
    refine ⟨rfl, ?_, idx, found, ?_⟩
    · intro mem
      exact Nat.lt_irrefl _ (fresh.below _ mem rfl)
    · obtain ⟨frame, here, holds⟩ := sound.frame_of_id found
      have agrees := sound.coherent.agrees idx frame.slot _ (getElem?_slots here) holds
      have isNew := agrees.value.trans (fresh.blank _ rfl (Nat.le_refl _))
      unfold getPage
      rw [bind_run_ok (frameAt_run here)]
      exact congrArg (EStateM.Result.ok · after) isNew
  · cases failed.symm.trans ran

namespace Example

def firstReturned : PoolHistory := ((start ∅ 2).step poolHost (.call (.newPage 1))).get rfl

theorem second_page_fresh :
    ∃ after, newPage 1 firstReturned.session.pool = .ok secondPage after ∧
      secondPage ∉ firstReturned.returned := by
  have run : Run (step poolHost) (PoolHistory.Allowed 1) (start ∅ 2)
      [.call (.newPage 1)] firstReturned :=
    .cons ⟨by decide, fun _ => by decide⟩ (Option.some_get _).symm (.nil _)
  have blank : Blank ∅ 1 := fun id _ =>
    TableFiles.diskPage_of_short (by simp [TableFiles.pageBytes, TableFiles.content, pageSize])
  have whole : (∅ : TableFiles).Whole := fun _ => Nat.dvd_zero pageSize
  obtain ⟨-, fresh, -⟩ := new_page_fresh whole blank 2 run (by decide) rfl
  exact ⟨_, rfl, fresh⟩

/-- A page is changed and written, and the pool is opened again. -/
def changeAndReopen : List PoolEvent :=
  [.call (.newPage 1), .call (.storePage firstPage (Page.new.flip 0 1)),
    .call (.unpinPage firstPage true), .call (.flushPage firstPage), .reopen 1]

/-- The page is returned a second time, with what was written to it. -/
theorem first_page_again :
    ((changeAndReopen.foldlM (step poolHost) (start ∅ 1)).map (fun history =>
      (history.returned, returnedBy history.session.pool (.newPage 1),
        (finalState (newPage 1) history.session.pool).frames.map (·.page.cells[0]?)))) =
      some ([firstPage], [firstPage], [some 1]) := by
  decide +kernel

end Example

end TurboGP.Storage
