import Mathlib.Logic.Relation
import TurboGP.Storage.PoolRuns

/-! # Reads that fail -/

namespace TurboGP.Storage

open Effect WriteBack List Option

namespace BufferPool

def replacePageBy (read : PageId → PoolM Page) (id : PageId) (idx : Nat) : PoolM Nat := do
  let victim ← frameAt idx
  evictPage victim
  let page ← read id
  modifyFrame idx fun _ =>
    { page := page, pinCount := 1, dirty := false, referenced := true, pageId := some id }
  modify fun pool => { pool with pageTable := pool.pageTable.insert id idx }
  return idx

/-- `fetch_page` where the operating system answers as `read`. -/
def fetchPageBy (read : PageId → PoolM Page) (id : PageId) : PoolM Nat := do
  match (← get).pageTable.lookup id with
  | some idx =>
    modifyFrame idx fun frame =>
      { frame with pinCount := frame.pinCount + 1, referenced := true }
    return idx
  | none =>
    match ← findVictim with
    | some idx => replacePageBy read id idx
    | none => throw exhausted

theorem fetchPageBy_readPageFromDisk : fetchPageBy readPageFromDisk = fetchPage := rfl

/-- The page table maps an id to a frame exactly if the frame has the id. -/
def Agree (pool : BufferPool) : Prop := Inverse pool.pageTable.lookup (pool.frames.map Frame.pageId)

structure SameIndex (old new : BufferPool) : Prop where
  table : new.pageTable = old.pageTable
  ids : new.frames.map Frame.pageId = old.frames.map Frame.pageId
  numbers : new.nextPageNum = old.nextPageNum

structure Keeps (old new : BufferPool) : Prop where
  agree : old.Agree → new.Agree
  numbers : new.nextPageNum = old.nextPageNum

instance : IsPreorder BufferPool SameIndex where
  refl _ := ⟨rfl, rfl, rfl⟩
  trans _ _ _ first second := ⟨second.table.trans first.table, second.ids.trans first.ids,
    second.numbers.trans first.numbers⟩

instance : IsPreorder BufferPool Keeps where
  refl _ := ⟨id, rfl⟩
  trans _ _ _ first second := ⟨second.agree ∘ first.agree, second.numbers.trans first.numbers⟩

inductive Operation (host : PoolHost) : {α : Type} → PoolM α → Prop
  | fetchPage (id : PageId) : Operation host (fetchPage id)
  | newPage (tableId : UInt64) : Operation host (newPage tableId)
  | storePage (idx : Nat) (page : Page) : Operation host (storePage idx page)
  | unpinPage (id : PageId) (dirty : Bool) : Operation host (unpinPage id dirty)
  | markDirty (id : PageId) : Operation host (markDirty id)
  | flushPage (id : PageId) : Operation host (flushPage id)
  | flushTable (tableId : UInt64) : Operation host (flushTable host tableId)
  | flushAll : Operation host (flushAll host)

/-- The operating system refuses to read the page; at most files change. -/
def Fails (read : PageId → PoolM Page) (id : PageId) : Prop :=
  ∀ state, ∃ fault files, read id state = .error fault { state with files := files }

/-- The clock chooses a frame without a page. -/
def ChoosesFree (pool : BufferPool) : Prop :=
  ∀ idx searched victim, findVictim pool = .ok (some idx) searched →
    searched.frames[idx]? = some victim → victim.pageId = none

/-- An operation of the pool, or another read that fails. -/
inductive LaterStep (host : PoolHost) (pool : BufferPool) : BufferPool → Prop
  | operation {α : Type} {program : PoolM α} :
      Operation host program → LaterStep host pool (finalState program pool)
  | failed {read : PageId → PoolM Page} {id : PageId} :
      Fails read id → pool.pageTable.lookup id = none → pool.ChoosesFree →
      LaterStep host pool (finalState (fetchPageBy read id) pool)

def Later (host : PoolHost) : BufferPool → BufferPool → Prop :=
  Relation.ReflTransGen (LaterStep host)

/-- The content of a page that `fetch_page` gives: its copy in the pool, or
else the page on the disk. -/
def newest (pool : BufferPool) (id : PageId) : Page :=
  match pool.pageTable.lookup id with
  | some idx => (pool.frames[idx]?.map Frame.page).getD .new
  | none => pool.files.diskPage id

/-- The eviction of a frame leaves the disk alone, or writes the newest content
of a page. -/
def EvictsNewest (pool : BufferPool) : Prop :=
  ∀ (idx : Nat) frame, pool.frames[idx]? = some frame →
    (pool.evicted frame).files = pool.files ∨
      ∃ id, (pool.evicted frame).files = pool.files.write id (pool.newest id)

variable {pool : BufferPool} {id : PageId} {idx : Nat}

theorem pageId_getElem? {frame : Frame} (here : pool.frames[idx]? = some frame) :
    (pool.frames.map Frame.pageId)[idx]? = some frame.pageId := by
  rw [getElem?_map, here, map_some]

theorem Agree.evictsNewest (agree : pool.Agree) : pool.EvictsNewest := by
  intro idx frame here
  unfold evicted
  cases holds : frame.pageId with
  | none => exact .inl rfl
  | some id =>
    cases dirty : frame.dirty with
    | false => exact .inl rfl
    | true =>
      have listed := (agree id idx).mpr (holds ▸ pageId_getElem? here)
      refine .inr ⟨id, ?_⟩
      simp only [newest, listed, here, if_true, Option.map_some, Option.getD_some]

theorem agree_new (files : TableFiles) (capacity : Nat) : (new files capacity).Agree := by
  intro id idx
  refine iff_of_false nofun ?_
  intro holds
  obtain ⟨frame, here, isId⟩ := map_eq_some_iff.mp (getElem?_map ▸ holds)
  rw [eq_of_mem_replicate (mem_of_getElem? here)] at isId
  cases isId

theorem SameIndex.keeps {next : BufferPool} (same : SameIndex pool next) : Keeps pool next := by
  refine ⟨fun agree => ?_, same.numbers⟩
  unfold Agree
  rw [same.table, same.ids]
  exact agree

theorem frameAt_bind_moves {α : Type} {rest : Frame → PoolM α}
    {rel : BufferPool → BufferPool → Prop} [IsPreorder BufferPool rel]
    (each : ∀ frame, pool.frames[idx]? = some frame → Moves rel pool (rest frame)) :
    Moves rel pool (frameAt idx >>= rest) := by
  cases here : pool.frames[idx]? with
  | none =>
    have failed : frameAt idx pool = .error .panic pool := by
      unfold frameAt
      rw [get_bind_run, here]
      rfl
    refine .unchanged ?_
    unfold finalState
    rw [bind_run_error failed]
  | some frame =>
    unfold Moves finalState
    rw [bind_run_ok (frameAt_run here)]
    exact each frame here

variable {change : Frame → Frame} {host : PoolHost}

theorem modifyFrame_same (idx : Nat) (same : ∀ frame, (change frame).pageId = frame.pageId) :
    Moves SameIndex pool (modifyFrame idx change) := by
  refine frameAt_bind_moves fun frame here => .modify ⟨rfl, ?_, rfl⟩
  obtain ⟨inside, isId⟩ := List.getElem?_eq_some_iff.mp (pageId_getElem? here)
  rw [map_set, same frame, ← isId, set_getElem_self]

theorem clockRounds_same (rounds : Nat) : Moves SameIndex pool (clockRounds rounds) := by
  induction rounds generalizing pool with
  | zero => exact .pure none
  | succ rounds ih =>
    refine .get_bind (.bind (.set ⟨rfl, rfl, rfl⟩) fun _ _ _ => ?_)
    refine frameAt_bind_moves fun frame here => ?_
    split
    · split
      · exact .bind (modifyFrame_same _ fun _ => rfl) fun _ _ _ => ih
      · exact .pure _
    · exact ih

theorem findVictim_same : Moves SameIndex pool findVictim := .get_bind (clockRounds_same _)

theorem modifyFrame_keeps (idx : Nat) (same : ∀ frame, (change frame).pageId = frame.pageId) :
    Moves Keeps pool (modifyFrame idx change) :=
  (modifyFrame_same idx same).weaken fun _ _ => SameIndex.keeps

theorem replacePage_keeps (absent : pool.pageTable.lookup id = none) :
    Moves Keeps pool (replacePage id idx) := by
  refine frameAt_bind_moves fun frame here => ?_
  have ran := replacePage_eq here id
  unfold replacePage at ran
  rw [bind_run_ok (frameAt_run here)] at ran
  unfold Moves finalState
  rw [ran]
  refine ⟨fun agree => ?_, (frames_evicted pool frame).2.2⟩
  show Inverse _ (((pool.evicted frame).frames.set idx _).map Frame.pageId)
  rw [(frames_evicted pool frame).1, map_set]
  exact agree.load (pageId_getElem? here) absent lookup_replaced

theorem fetchPage_keeps : Moves Keeps pool (fetchPage id) := by
  refine .get_bind ?_
  cases inPool : pool.pageTable.lookup id with
  | some idx => exact .bind (modifyFrame_keeps idx fun _ => rfl) fun _ _ _ => .pure _
  | none =>
    have searching : Moves Keeps pool findVictim := findVictim_same.weaken fun _ _ => SameIndex.keeps
    refine searching.bind fun found searched ran => ?_
    cases found with
    | none => exact .throw _
    | some idx =>
      have same := findVictim_same.reached ran
      exact replacePage_keeps (same.table ▸ inPool)

theorem flushPage_keeps : Moves Keeps pool (flushPage id) := by
  refine .get_bind ?_
  cases pool.pageTable.lookup id with
  | none => exact .pure _
  | some idx =>
    refine frameAt_bind_moves fun frame here => ?_
    split
    · refine .bind (.modify ⟨fun agree => agree, rfl⟩) fun _ _ _ => ?_
      exact modifyFrame_keeps _ fun _ => rfl
    · exact .pure _

theorem unpinPage_keeps (dirty : Bool) : Moves Keeps pool (unpinPage id dirty) := by
  refine .get_bind ?_
  cases pool.pageTable.lookup id with
  | none => exact .pure _
  | some idx => exact modifyFrame_keeps idx fun _ => rfl

theorem markDirty_keeps : Moves Keeps pool (markDirty id) := by
  refine .get_bind ?_
  cases pool.pageTable.lookup id with
  | none => exact .pure _
  | some idx => exact modifyFrame_keeps idx fun _ => rfl

theorem flushTable_keeps (host : PoolHost) (tableId : UInt64) :
    Moves Keeps pool (flushTable host tableId) := by
  refine .get_bind (.forM fun id _ cur _ => ?_)
  split
  · exact flushPage_keeps
  · exact .pure _

theorem flushAll_keeps (host : PoolHost) : Moves Keeps pool (flushAll host) :=
  .get_bind (.forM fun _ _ _ _ => flushPage_keeps)

theorem storePage_keeps (idx : Nat) (page : Page) : Moves Keeps pool (storePage idx page) :=
  modifyFrame_keeps idx fun _ => rfl

theorem newPage_keeps (tableId : UInt64) :
    Keeps (pool.counted tableId) (finalState (newPage tableId) pool) := by
  have kept : Moves Keeps (pool.counted tableId) (do
        let idx ← fetchPage (pool.nextId tableId)
        modifyFrame idx fun frame => { frame with dirty := true }
        return pool.nextId tableId) := by
    refine .bind fetchPage_keeps fun idx _ _ => ?_
    exact .bind (modifyFrame_keeps idx fun _ => rfl) fun _ _ _ => .pure _
  exact kept

theorem Agree.operation {α : Type} {program : PoolM α} (agree : pool.Agree)
    (operation : Operation host program) : (finalState program pool).Agree := by
  cases operation with
  | fetchPage id => exact fetchPage_keeps.agree agree
  | newPage tableId =>
    have counted : (pool.counted tableId).Agree := agree
    exact (newPage_keeps tableId).agree counted
  | storePage idx page => exact (storePage_keeps idx page).agree agree
  | unpinPage id dirty => exact (unpinPage_keeps dirty).agree agree
  | markDirty id => exact markDirty_keeps.agree agree
  | flushPage id => exact flushPage_keeps.agree agree
  | flushTable tableId => exact (flushTable_keeps host tableId).agree agree
  | flushAll => exact (flushAll_keeps host).agree agree

/-- A read that fails changes nothing if the chosen frame was free. -/
theorem fetchPageBy_keeps {read : PageId → PoolM Page} (fails : Fails read id)
    (absent : pool.pageTable.lookup id = none) (free : pool.ChoosesFree) :
    Moves Keeps pool (fetchPageBy read id) := by
  refine .get_bind ?_
  rw [absent]
  have searching : Moves Keeps pool findVictim := findVictim_same.weaken fun _ _ => SameIndex.keeps
  refine searching.bind fun found searched ran => ?_
  cases found with
  | none => exact .throw _
  | some idx =>
    refine frameAt_bind_moves fun victim here => ?_
    obtain ⟨fault, files, failed⟩ := fails searched
    have stays : searched.evicted victim = searched := by
      unfold evicted
      rw [free idx searched victim ran here]
    unfold Moves finalState
    rw [bind_run_ok (evictPage_run searched victim), stays, bind_run_error failed]
    exact ⟨fun agree => agree, rfl⟩

theorem Agree.later {later : BufferPool} (agree : pool.Agree)
    (reached : Later host pool later) : later.Agree := by
  induction reached with
  | refl => exact agree
  | tail _ step ih =>
    cases step with
    | operation operation => exact ih.operation operation
    | failed fails absent free => exact (fetchPageBy_keeps fails absent free).agree ih

/-- After a read that failed the page table and the frames agree, and every
later eviction writes the newest content of its page, exactly if the frame
that the clock chose was free. -/
theorem read_failure_survived_iff (host : PoolHost) (agree : pool.Agree)
    {read : PageId → PoolM Page} {searched : BufferPool} {victim : Frame}
    (absent : pool.pageTable.lookup id = none) (found : findVictim pool = .ok (some idx) searched)
    (here : searched.frames[idx]? = some victim) (fails : Fails read id) :
    ((finalState (fetchPageBy read id) pool).Agree ∧
      ∀ later, Later host (finalState (fetchPageBy read id) pool) later → later.EvictsNewest) ↔
      victim.pageId = none := by
  constructor
  · rintro ⟨afterAgree, -⟩
    by_contra held
    obtain ⟨fault, files, failed⟩ := fails (searched.evicted victim)
    have isAfter : finalState (fetchPageBy read id) pool =
          { searched.evicted victim with files := files } := by
      unfold fetchPageBy finalState
      rw [get_bind_run, absent]
      simp only
      rw [bind_run_ok found]
      unfold replacePageBy
      simp only
      rw [bind_run_ok (frameAt_run here), bind_run_ok (evictPage_run searched victim),
        bind_run_error failed]
    rw [isAfter] at afterAgree
    obtain ⟨old, holds⟩ := ne_none_iff_exists'.mp held
    have stays := pageId_getElem? here
    rw [← (frames_evicted searched victim).1, holds] at stays
    have listed := (afterAgree old idx).mpr stays
    have erased := lookup_evicted searched victim old
    rw [if_pos holds] at erased
    cases erased.symm.trans listed
  · intro free
    have choosesFree : pool.ChoosesFree := by
      intro other after frame ran held
      cases ran.symm.trans found
      cases held.symm.trans here
      exact free
    have afterAgree := (fetchPageBy_keeps fails absent choosesFree).agree agree
    exact ⟨afterAgree, fun later reached => (afterAgree.later reached).evictsNewest⟩

end BufferPool

namespace Example

open BufferPool

def refusedRead (_ : PageId) : PoolM Page := throw (.io "Input/output error")

theorem refusedRead_fails (id : PageId) : Fails refusedRead id := fun _ => ⟨_, _, rfl⟩

/-- A page is in the pool and dirty, the other frame is free. -/
def oneFetched : PoolM Unit := do
  let idx ← fetchPage firstPage
  storePage idx (Page.new.flip 0 1)
  unpinPage firstPage true

/-- The read of a second page fails. -/
theorem refusedRead_free : ∃ before, before.pageTable.lookup firstPage = some 0 ∧
    (finalState (fetchPageBy refusedRead secondPage) before).Agree ∧
      ∀ later, Later poolHost (finalState (fetchPageBy refusedRead secondPage) before) later →
        later.EvictsNewest := by
  have kept : Moves Keeps (new ∅ 2) oneFetched :=
    .bind fetchPage_keeps fun idx _ _ => .bind (storePage_keeps idx _) fun _ _ _ =>
      unpinPage_keeps true
  refine ⟨finalState oneFetched (new ∅ 2), rfl, ?_⟩
  exact (read_failure_survived_iff poolHost (kept.agree (agree_new ∅ 2)) rfl rfl rfl
    (refusedRead_fails secondPage)).mpr rfl

/-- Two pages are in the pool, the first one dirty. -/
def bothFetched : PoolM Unit := do
  let _ ← fetchPage firstPage
  let _ ← fetchPage secondPage
  unpinPage firstPage true
  unpinPage secondPage false

/-- The first page is fetched again, changed and written. -/
def fetchedAgain : PoolM Unit := do
  let idx ← fetchPage firstPage
  storePage idx (Page.new.flip 0 1)
  unpinPage firstPage true
  flushPage firstPage

/-- The read of a third page fails; later the old copy of the first page is
written over the new one. -/
theorem old_copy_written :
    ∃ before, before.Agree ∧
      let written := finalState fetchedAgain
        (finalState (fetchPageBy refusedRead { tableId := 2, pageNum := 0 }) before)
      (written.files.diskPage firstPage).cells[0]? = some 1 ∧
        ((finalState (fetchPage { tableId := 2, pageNum := 0 }) written).files.diskPage
          firstPage).cells[0]? = some 0 := by
  have kept : Moves Keeps (new ∅ 2) bothFetched :=
    .bind fetchPage_keeps fun _ _ _ => .bind fetchPage_keeps fun _ _ _ =>
      .bind (unpinPage_keeps true) fun _ _ _ => unpinPage_keeps false
  exact ⟨finalState bothFetched (new ∅ 2), kept.agree (agree_new ∅ 2), by decide +kernel⟩

end Example

end TurboGP.Storage
