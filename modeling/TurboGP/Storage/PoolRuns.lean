import Mathlib.Data.Multiset.Sort
import TurboGP.Storage.PoolRefinement

/-! # Runs of the buffer pool -/

namespace TurboGP.Storage

open Effect WriteBack GuardedRun BufferPool PoolUsers

structure PoolSession where
  pool : BufferPool
  users : Users PageId Page

inductive PoolCall
  | fetchPage (id : PageId)
  | newPage (tableId : UInt64)
  | storePage (id : PageId) (page : Page)
  | unpinPage (id : PageId) (dirty : Bool)
  | markDirty (id : PageId)
  | flushPage (id : PageId)
  | flushTable (tableId : UInt64)
  | flushAll

namespace PoolSession

/-- A new pool; the pages are those on disk. -/
def new (files : TableFiles) (capacity : Nat) : PoolSession :=
  { pool := .new files capacity
    users :=
      { contents := files.diskPage
        unmarked := fun _ => false
        pins := fun _ => 0
        place := fun _ => 0 } }

/-- The session after an operation.  An error changes nothing that the users
know; a panic ends the session. -/
def settle {α : Type} (users : Users PageId Page) (res : EStateM.Result PoolFault BufferPool α)
    (learn : α → BufferPool → Users PageId Page) : Option PoolSession :=
  match res with
  | .ok value pool => some { pool := pool, users := learn value pool }
  | .error (.io _) pool => some { pool := pool, users := users }
  | .error .panic _ => none

def step (host : PoolHost) (session : PoolSession) : PoolCall → Option PoolSession
  | .fetchPage id =>
    settle session.users (fetchPage id session.pool) (fun idx _ => pin session.users id idx)
  | .newPage tableId =>
    settle session.users (newPage tableId session.pool)
      (fun id pool => pin session.users id ((pool.pageTable.lookup id).getD 0))
  | .storePage id page =>
    settle session.users
      (storePage (session.users.place id) page session.pool)
      (fun _ _ => store session.users id page)
  | .unpinPage id dirty =>
    settle session.users (unpinPage id dirty session.pool) (fun _ _ => unpin session.users id dirty)
  | .markDirty id =>
    settle session.users (markDirty id session.pool) (fun _ _ => mark session.users id)
  | .flushPage id => settle session.users (flushPage id session.pool) (fun _ _ => session.users)
  | .flushTable tableId =>
    settle session.users (flushTable host tableId session.pool) (fun _ _ => session.users)
  | .flushAll => settle session.users (flushAll host session.pool) (fun _ _ => session.users)

def Admitted (session : PoolSession) : PoolCall → Prop
  | .fetchPage id => session.users.pins id + 1 < 2 ^ 32
  | .newPage tableId => session.users.pins (session.pool.nextId tableId) + 1 < 2 ^ 32
  | .storePage id _ => 0 < session.users.pins id
  | .unpinPage id dirty =>
    session.users.pins id ≤ 1 → session.users.unmarked id = true → dirty = true
  | _ => True

instance (session : PoolSession) (call : PoolCall) :
    Decidable (session.Admitted call) := by
  cases call <;> unfold Admitted <;> infer_instance

def Sound (session : PoolSession) : Prop := session.pool.Sound session.users

variable {session : PoolSession}

theorem sound_new {files : TableFiles} (whole : files.Whole) (capacity : Nat) :
    (new files capacity).Sound := by
  have noKey : ∀ {i : Nat} {slot : Slot PageId Page},
      (new files capacity).pool.cache.slots[i]? = some slot → slot.key = none := by
    intro i slot found
    obtain ⟨frame, here, rfl⟩ := frame_of_slot found
    rw [List.eq_of_mem_replicate (List.mem_of_getElem? here)]
    rfl
  refine ⟨⟨?_, ?_, ?_, ?_, ?_⟩, whole, ?_⟩
  · intro id i
    refine iff_of_false ?_ ?_
    · exact fun isSome => by cases isSome
    · rintro ⟨slot, found, holds⟩
      rw [noKey found] at holds
      cases holds
  · intro i slot id found holds
    rw [noKey found] at holds
    cases holds
  · exact fun id _ => ⟨rfl, rfl⟩
  · exact fun id isTrue => by cases isTrue
  · exact fun id pos => absurd pos (Nat.lt_irrefl 0)
  · cases capacity with
    | zero => exact .inl rfl
    | succ capacity => exact .inr (Nat.succ_pos _)

theorem Sound.step_some (sound : session.Sound) (host : PoolHost)
    {call : PoolCall} (admitted : session.Admitted call) :
    ∃ next, step host session call = some next ∧ next.Sound := by
  have settled : ∀ {α : Type} {res : EStateM.Result PoolFault BufferPool α}
      {learn : α → BufferPool → Users PageId Page} {value : α} {after : BufferPool},
      res = .ok value after → after.Sound (learn value after) →
        ∃ next, settle session.users res learn = some next ∧ next.Sound := by
    rintro α _ learn value after rfl afterSound
    exact ⟨⟨after, learn value after⟩, rfl, afterSound⟩
  have refused : ∀ {α : Type} {res : EStateM.Result PoolFault BufferPool α}
      {learn : α → BufferPool → Users PageId Page} {after : BufferPool},
      res = .error exhausted after →
        after.Sound session.users →
        ∃ next, settle session.users res learn = some next ∧ next.Sound := by
    rintro α _ learn after rfl afterSound
    exact ⟨⟨after, session.users⟩, rfl, afterSound⟩
  cases call with
  | fetchPage id =>
    rcases fetchPage_run sound admitted with
      ⟨idx, after, _, ran, afterSound, _⟩ | ⟨after, failed, afterSound⟩
    · exact settled ran afterSound
    · exact refused failed afterSound
  | newPage tableId =>
    rcases newPage_run sound admitted with
      ⟨idx, after, ran, afterSound, table⟩ | ⟨after, failed, afterSound⟩
    · refine settled ran ?_
      rw [table]
      exact afterSound
    · exact refused failed afterSound
  | storePage id page =>
    obtain ⟨after, ran, afterSound⟩ := storePage_run sound admitted page
    exact settled ran afterSound
  | unpinPage id dirty =>
    obtain ⟨after, ran, afterSound⟩ := unpinPage_run sound admitted
    exact settled ran afterSound
  | markDirty id =>
    obtain ⟨after, ran, afterSound⟩ := markDirty_run sound
    exact settled ran afterSound
  | flushPage id =>
    obtain ⟨after, ran, afterSound⟩ := flushPage_run sound id
    exact settled ran afterSound
  | flushTable tableId =>
    obtain ⟨after, ran, afterSound⟩ := flushTable_run sound host tableId
    exact settled ran afterSound
  | flushAll =>
    obtain ⟨after, ran, afterSound⟩ := flushAll_run sound host
    exact settled ran afterSound

theorem sound_of_run {host : PoolHost} {files : TableFiles}
    {capacity : Nat} (whole : files.Whole) {calls : List PoolCall}
    (run : Run (step host) Admitted (new files capacity) calls session) : session.Sound := by
  refine run.invariant Sound ?_ (sound_new whole capacity)
  intro state call next sound admitted ran
  obtain ⟨found, isNext, foundSound⟩ := sound.step_some host admitted
  rw [ran] at isNext
  cases isNext
  exact foundSound

end PoolSession

/-- In every state of a run: a page that is fetched shows the content last
written, unless every frame is pinned; a pinned page is in the frame in which
it was first seen and shows its content; the page table is the inverse of the
frames. -/
theorem buffer_pool_refines_pages {host : PoolHost} {files : TableFiles}
    (whole : files.Whole) (capacity : Nat) {calls : List PoolCall} {session : PoolSession}
    (run : Run (PoolSession.step host) PoolSession.Admitted
        (PoolSession.new files capacity) calls session) :
    (∀ id, session.users.pins id + 1 < 2 ^ 32 → (∃ idx after,
        fetchPage id session.pool = .ok idx after ∧
          getPage idx after = .ok (session.users.contents id) after) ∨
        ∃ after, fetchPage id session.pool = .error exhausted after) ∧
      (∀ id, 0 < session.users.pins id →
        session.pool.pageTable.lookup id = some (session.users.place id) ∧
          getPage (session.users.place id) session.pool =
            .ok (session.users.contents id) session.pool) ∧
      ∀ id i, session.pool.pageTable.lookup id = some i ↔
        ∃ frame, session.pool.frames[i]? = some frame ∧ frame.pageId = some id := by
  have sound : session.pool.Sound session.users := PoolSession.sound_of_run whole run
  refine ⟨?_, ?_, ?_⟩
  · intro id fits
    rcases fetchPage_run sound fits with
      ⟨idx, after, frame, fetched, _, here, shown, _⟩ |
        ⟨after, failed, _⟩
    · refine .inl ⟨idx, after, fetched, ?_⟩
      unfold getPage
      rw [bind_run_ok (frameAt_run here), shown]
      rfl
    · exact .inr ⟨after, failed⟩
  · intro id used
    have placed := sound.coherent.placed id used
    obtain ⟨frame, here, holds⟩ := sound.frame_of_id placed
    have agrees := sound.coherent.agrees _ frame.slot id (getElem?_slots here) holds
    refine ⟨placed, ?_⟩
    unfold getPage
    rw [bind_run_ok (frameAt_run here)]
    exact congrArg (EStateM.Result.ok · session.pool) agrees.value
  · intro id i
    constructor
    · exact sound.frame_of_id
    · rintro ⟨frame, here, holds⟩
      exact (sound.coherent.indexed id i).mpr ⟨frame.slot, getElem?_slots here, holds⟩

namespace Example

def pageCode (id : PageId) : Nat := id.tableId.toNat * 2 ^ 32 + id.pageNum.toNat

def pageOfCode (code : Nat) : PageId :=
  { tableId := UInt64.ofNat (code / 2 ^ 32), pageNum := UInt32.ofNat (code % 2 ^ 32) }

theorem pageOfCode_pageCode (id : PageId) : pageOfCode (pageCode id) = id := by
  obtain ⟨tableId, pageNum⟩ := id
  have small : pageNum.toNat < 2 ^ 32 := pageNum.toNat_lt
  have high : (tableId.toNat * 2 ^ 32 + pageNum.toNat) / 2 ^ 32 = tableId.toNat := by
    omega
  have low : (tableId.toNat * 2 ^ 32 + pageNum.toNat) % 2 ^ 32 = pageNum.toNat := by
    omega
  unfold pageOfCode pageCode
  rw [high, low, UInt64.ofNat_toNat, UInt32.ofNat_toNat]

/-- Page ids are read in the order of their numbers. -/
def poolHost : PoolHost where
  pageIds table := ((table.keys.val.map pageCode).sort (· ≤ ·)).map pageOfCode
  mem_pageIds table id := by
    rw [List.mem_map]
    constructor
    · rintro ⟨code, inOrder, rfl⟩
      rw [Multiset.mem_sort, Multiset.mem_map] at inOrder
      obtain ⟨found, present, rfl⟩ := inOrder
      rw [pageOfCode_pageCode]
      exact Finmap.mem_keys.mp present
    · intro present
      refine ⟨pageCode id, ?_, pageOfCode_pageCode id⟩
      rw [Multiset.mem_sort]
      exact Multiset.mem_map_of_mem pageCode (Finmap.mem_keys.mpr present)

def firstPage : PageId := { tableId := 1, pageNum := 0 }

def secondPage : PageId := { tableId := 1, pageNum := 1 }

def shown (files : TableFiles) (calls : List PoolCall) (id : PageId) : Option (Page × Page) := do
  let session ←
    exec (PoolSession.step poolHost) PoolSession.Admitted (PoolSession.new files 1) calls
  match fetchPage id session.pool with
  | .error _ _ => none
  | .ok idx after =>
    match getPage idx after with
    | .error _ _ => none
    | .ok page _ => some (session.users.contents id, page)

/-- A page is written and marked, and its frame is used for another page. -/
def writeAndLeave : List PoolCall :=
  [.fetchPage firstPage, .storePage firstPage (Page.new.flip 0 1),
    .unpinPage firstPage true, .fetchPage secondPage, .unpinPage secondPage false]

/-- The written page is fetched from the file. -/
theorem marked_page_comes_back : ∃ session, Run (PoolSession.step poolHost) PoolSession.Admitted
    (PoolSession.new ∅ 1) writeAndLeave session ∧
    session.users.contents firstPage = Page.new.flip 0 1 ∧
    ((∃ idx after, fetchPage firstPage session.pool = .ok idx after ∧
      getPage idx after = .ok (session.users.contents firstPage) after) ∨
    ∃ after, fetchPage firstPage session.pool = .error exhausted after) := by
  have ran : (exec (PoolSession.step poolHost) PoolSession.Admitted
        (PoolSession.new ∅ 1) writeAndLeave).map
      (fun session => (session.users.pins firstPage, session.users.contents firstPage)) =
      some (0, Page.new.flip 0 1) := by
    decide +kernel
  obtain ⟨session, executed, known⟩ := Option.map_eq_some_iff.mp ran
  obtain ⟨noPins, contents⟩ := Prod.mk.inj known
  have run := exec_eq_some_iff.mp executed
  have whole : (∅ : TableFiles).Whole := by
    intro tableId
    exact Nat.dvd_zero pageSize
  have fits : session.users.pins firstPage + 1 < 2 ^ 32 := by
    rw [noPins]
    decide
  exact ⟨session, run, contents, (buffer_pool_refines_pages whole 1 run).1 firstPage fits⟩

/-- A page is looked at, and a later page of the table is marked. -/
def lookAndMark : List PoolCall :=
  [.fetchPage firstPage, .unpinPage firstPage false, .fetchPage secondPage,
    .unpinPage secondPage true]

/-- With one frame and a file of one byte the first page is a new page, and
after the second page has been written back it is not. -/
theorem torn_page_changes : (shown (Finmap.singleton 1 [7]) [] firstPage).map
        (fun pages => (pages.1.header.pageType, pages.2.header.pageType)) = some (0, 0) ∧
      (shown (Finmap.singleton 1 [7]) lookAndMark firstPage).map
        (fun pages => (pages.1.header.pageType, pages.2.header.pageType)) = some (0, 7) := by
  decide +kernel

end Example

end TurboGP.Storage
