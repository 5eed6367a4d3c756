import TurboGP.Lib.GuardedRun
import TurboGP.Lib.WriteBack
import TurboGP.Storage.ClockSweep

/-! # The pool refines a map of pages -/

namespace TurboGP.Storage

open Effect WriteBack Function TableFiles List

/-! ## The cache -/

def Frame.slot (frame : Frame) : Slot PageId Page :=
  { key := frame.pageId, value := frame.page, dirty := frame.dirty, pins := frame.pinCount.toNat }

namespace BufferPool

def cache (pool : BufferPool) : Cache PageId Page :=
  { slots := pool.frames.map Frame.slot, index := pool.pageTable.lookup
    store := pool.files.diskPage }

variable {pool : BufferPool} {idx : Nat} {changed : Frame}

theorem getElem?_slots {frame : Frame} (here : pool.frames[idx]? = some frame) :
    pool.cache.slots[idx]? = some frame.slot := by
  show (pool.frames.map Frame.slot)[idx]? = _
  rw [getElem?_map, here]
  rfl

theorem frame_of_slot {slot : Slot PageId Page} (here : pool.cache.slots[idx]? = some slot) :
    ∃ frame, pool.frames[idx]? = some frame ∧ frame.slot = slot := by
  have mapped : (pool.frames.map Frame.slot)[idx]? = some slot := here
  rw [getElem?_map, Option.map_eq_some_iff] at mapped
  exact mapped

structure Sound (pool : BufferPool) (users : Users PageId Page) : Prop where
  coherent : Coherent pool.cache users
  whole : pool.files.Whole
  hand : pool.frames = [] ∨ pool.clockHand < pool.frames.length

variable {pool : BufferPool} {users next : Users PageId Page} {idx : Nat}
  {frame : Frame} {id : PageId}

/-! ## One frame -/

theorem cache_set (pool : BufferPool) (idx : Nat) (frame : Frame) :
    ({ pool with frames := pool.frames.set idx frame } : BufferPool).cache =
      { pool.cache with slots := pool.cache.slots.set idx frame.slot } := by
  unfold cache
  simp only [map_set]

variable (sound : pool.Sound users)

include sound

theorem Sound.frame_of_id (found : pool.pageTable.lookup id = some idx) :
    ∃ frame, pool.frames[idx]? = some frame ∧ frame.pageId = some id := by
  obtain ⟨slot, here, holds⟩ := (sound.coherent.indexed id idx).mp found
  obtain ⟨frame, atIdx, rfl⟩ := frame_of_slot here
  exact ⟨frame, atIdx, holds⟩

theorem Sound.frame_agrees (found : pool.pageTable.lookup id = some idx) :
    ∃ frame, pool.frames[idx]? = some frame ∧ frame.pageId = some id ∧
      frame.slot.Agrees id (pool.files.diskPage id) users := by
  obtain ⟨frame, here, holds⟩ := sound.frame_of_id found
  exact ⟨frame, here, holds, sound.coherent.agrees idx _ id (getElem?_slots here) holds⟩

theorem Sound.changeFrame (here : pool.frames[idx]? = some frame) (holds : frame.pageId = some id)
    (sameId : changed.pageId = some id) (same : users.SameBut id next)
    (agrees : changed.slot.Agrees id (pool.files.diskPage id) next)
    (inUse : next.unmarked id = true → 0 < next.pins id)
    (placed : 0 < next.pins id → next.place id = idx) :
    Sound { pool with frames := pool.frames.set idx changed } next := by
  refine ⟨?_, sound.whole, ?_⟩
  · rw [cache_set]
    exact sound.coherent.change (getElem?_slots here) holds sameId
      (fun _ _ => rfl) same agrees inUse placed
  · rcases sound.hand with isEmpty | inside
    · rw [isEmpty] at here
      cases here
    · exact .inr (by rwa [length_set])

/-! ## Eviction -/

omit sound

theorem cache_besidesClock (pool : BufferPool) : pool.besidesClock.cache = pool.cache := by
  have same : ∀ frame : Frame, frame.besidesClock.slot = frame.slot := by
    intro frame
    unfold Frame.besidesClock
    split <;> rfl
  unfold cache besidesClock
  simp only [map_map, comp_def, same]

/-- The clock finds a frame that nobody uses or none; pages, files and page
table stay. -/
theorem findVictim_run (sound : pool.Sound users) : ∃ found after,
      findVictim pool = .ok found after ∧ after.Sound users ∧
        after.cache = pool.cache ∧
        ∀ idx, found = some idx →
          ∃ frame, after.frames[idx]? = some frame ∧ frame.pinCount = 0 := by
  rcases sound.hand with isEmpty | inside
  · have unfolded : findVictim pool = clockRounds (2 * pool.frames.length) pool := rfl
    rw [unfolded, isEmpty]
    exact ⟨none, pool, rfl, sound, rfl, fun _ none => by cases none⟩
  · obtain ⟨found, after, ran, same, hand, unpinned⟩ :=
      clockRounds_run (2 * pool.frames.length) inside
    have sameCache : after.cache = pool.cache := by
      rw [← cache_besidesClock after, same, cache_besidesClock]
    have files : after.besidesClock.files = pool.besidesClock.files := by rw [same]
    refine ⟨found, after, ran, ⟨sameCache ▸ sound.coherent, files.symm ▸ sound.whole, .inr hand⟩,
      sameCache, fun idx isFound => ?_⟩
    exact Option.map_eq_some_iff.mp ((Unpinned.congr same idx).mpr (unpinned idx isFound))

/-- The pool when the page of a frame has left it. -/
def evicted (pool : BufferPool) (victim : Frame) : BufferPool :=
  match victim.pageId with
  | some old =>
    { pool with
      files := if victim.dirty then pool.files.write old victim.page else pool.files
      pageTable := pool.pageTable.erase old }
  | none => pool

theorem evictPage_run (pool : BufferPool) (victim : Frame) :
    evictPage victim pool = .ok () (pool.evicted victim) := by
  unfold evictPage evicted
  cases victim.pageId with
  | none => rfl
  | some old => cases victim.dirty <;> rfl

theorem frames_evicted (pool : BufferPool) (victim : Frame) :
    (pool.evicted victim).frames = pool.frames ∧
      (pool.evicted victim).clockHand = pool.clockHand ∧
      (pool.evicted victim).nextPageNum = pool.nextPageNum := by
  unfold evicted
  cases victim.pageId <;> exact ⟨rfl, rfl, rfl⟩

theorem lookup_evicted (pool : BufferPool) (victim : Frame) (tested : PageId) :
    (pool.evicted victim).pageTable.lookup tested =
      if victim.pageId = some tested then none else pool.pageTable.lookup tested := by
  unfold evicted
  cases victim.pageId with
  | none => rw [if_neg nofun]
  | some old =>
    rw [FiniteMap.lookup_erase_eq]
    simp only [Option.some.injEq, eq_comm]

theorem Sound.evicted (sound : pool.Sound users)
    (here : pool.frames[idx]? = some frame) (unused : frame.pinCount = 0) :
    (pool.evicted frame).files.Whole ∧
      Coherent { pool.cache with store := (pool.evicted frame).files.diskPage } users ∧
      ∀ old, frame.pageId = some old → (pool.evicted frame).files.diskPage old = frame.page := by
  unfold BufferPool.evicted
  cases holds : frame.pageId with
  | none => exact ⟨sound.whole, sound.coherent, nofun⟩
  | some old =>
    have agrees := sound.coherent.agrees idx frame.slot old (getElem?_slots here) holds
    have noPins : users.pins old = 0 := agrees.pins.symm.trans (congrArg UInt32.toNat unused)
    by_cases dirty : frame.dirty = true
    · simp only [if_pos dirty]
      have onDisk := diskPage_write sound.whole old
      have stored := (onDisk old frame.page).trans (if_pos rfl)
      refine ⟨sound.whole.write old frame.page, ?_, ?_⟩
      · refine sound.coherent.save (getElem?_slots here) holds stored ?_
        intro other ne
        exact (onDisk other frame.page).trans (if_neg ne)
      · rintro _ ⟨⟩
        exact stored
    · simp only [if_neg dirty]
      refine ⟨sound.whole, sound.coherent, ?_⟩
      rintro _ ⟨⟩
      have clean := agrees.clean (Bool.eq_false_iff.mpr dirty) (sound.coherent.marked noPins)
      exact clean.trans agrees.value.symm

/-! ## The users -/

end BufferPool

namespace PoolUsers

def pin (users : Users PageId Page) (id : PageId) (idx : Nat) : Users PageId Page :=
  { users with
    pins := update users.pins id (users.pins id + 1)
    place := if users.pins id = 0 then update users.place id idx else users.place }

def store (users : Users PageId Page) (id : PageId) (page : Page) : Users PageId Page :=
  { users with
    contents := update users.contents id page
    unmarked := update users.unmarked id true }

def unpin (users : Users PageId Page) (id : PageId) (dirty : Bool) : Users PageId Page :=
  { users with
    pins := update users.pins id (users.pins id - 1)
    unmarked := update users.unmarked id (users.unmarked id && !dirty) }

def mark (users : Users PageId Page) (id : PageId) : Users PageId Page :=
  { users with unmarked := update users.unmarked id false }

variable (users : Users PageId Page) (id : PageId)

theorem sameBut_pin (idx : Nat) : users.SameBut id (pin users id idx) := by
  refine ⟨fun _ _ => rfl, fun _ _ => rfl, ?_, ?_⟩
  · exact fun other ne => update_of_ne ne _ _
  · intro other ne
    unfold pin
    split
    · exact update_of_ne ne _ _
    · rfl

theorem sameBut_store (page : Page) : users.SameBut id (store users id page) :=
  ⟨fun _ ne => update_of_ne ne _ _, fun _ ne => update_of_ne ne _ _, fun _ _ => rfl, fun _ _ => rfl⟩

theorem sameBut_unpin (dirty : Bool) : users.SameBut id (unpin users id dirty) :=
  ⟨fun _ _ => rfl, fun _ ne => update_of_ne ne _ _, fun _ ne => update_of_ne ne _ _, fun _ _ => rfl⟩

theorem sameBut_mark : users.SameBut id (mark users id) :=
  ⟨fun _ _ => rfl, fun _ ne => update_of_ne ne _ _, fun _ _ => rfl, fun _ _ => rfl⟩

theorem pins_pin (idx : Nat) : (pin users id idx).pins id = users.pins id + 1 := update_self _ _ _

theorem place_pin_of_unused (idx : Nat) (unused : users.pins id = 0) :
    (pin users id idx).place id = idx := by
  unfold pin
  simp only [if_pos unused]
  exact update_self _ _ _

end PoolUsers

namespace BufferPool

variable {pool : BufferPool} {users : Users PageId Page} {idx : Nat}
  {frame : Frame} {id : PageId}

/-! ## Fetching -/

def loaded (pool : BufferPool) (id : PageId) : Frame :=
  { page := pool.files.diskPage id, pinCount := 1, dirty := false
    referenced := true, pageId := some id }

/-- The pool with the page `id` in the frame of the victim. -/
def replaced (pool : BufferPool) (id : PageId) (idx : Nat) (victim : Frame) : BufferPool :=
  { pool.evicted victim with
    files := (pool.evicted victim).files.getFile id.tableId
    frames := (pool.evicted victim).frames.set idx ((pool.evicted victim).loaded id)
    pageTable := (pool.evicted victim).pageTable.insert id idx }

theorem replacePage_eq (here : pool.frames[idx]? = some frame) (id : PageId) :
    replacePage id idx pool = .ok idx (pool.replaced id idx frame) := by
  let evicted := pool.evicted frame
  let opened := evicted.files.getFile id.tableId
  have read : readPageFromDisk id evicted =
        .ok (evicted.files.diskPage id) { evicted with files := opened } := by
    unfold readPageFromDisk
    rw [modify_bind_run, get_bind_run]
    rw [page_eq, diskPage_getFile]
    rfl
  have atIdx : ({ evicted with files := opened } : BufferPool).frames[idx]? = some frame := by
    rw [(frames_evicted pool frame).1]
    exact here
  unfold replacePage
  rw [bind_run_ok (frameAt_run here), bind_run_ok (evictPage_run pool frame), bind_run_ok read,
    bind_run_ok (modifyFrame_run atIdx _)]
  rfl

theorem lookup_replaced (tested : PageId) : (pool.replaced id idx frame).pageTable.lookup tested =
      if tested = id then some idx else if frame.pageId = some tested then none
      else pool.pageTable.lookup tested := by
  show ((pool.evicted frame).pageTable.insert id idx).lookup tested = _
  rw [FiniteMap.lookup_insert_eq, lookup_evicted]

theorem replacePage_run (sound : pool.Sound users)
    (here : pool.frames[idx]? = some frame) (unused : frame.pinCount = 0)
    (absent : pool.pageTable.lookup id = none) :
    ∃ after loaded, replacePage id idx pool = .ok idx after ∧
      after.Sound (PoolUsers.pin users id idx) ∧ after.frames[idx]? = some loaded ∧
      loaded.page = users.contents id ∧ after.pageTable.lookup id = some idx ∧
      loaded.pageId = some id := by
  obtain ⟨whole, coherent, saved⟩ := sound.evicted here unused
  obtain ⟨sameFrames, sameHand, -⟩ := frames_evicted pool frame
  have away := coherent.away id absent
  have inside : idx < pool.frames.length := (List.getElem?_eq_some_iff.mp here).1
  let after := pool.replaced id idx frame
  have afterCoherent : Coherent after.cache (PoolUsers.pin users id idx) := by
    have slots : after.cache.slots =
        pool.cache.slots.set idx ((pool.evicted frame).loaded id).slot := by
      show ((pool.evicted frame).frames.set idx _).map Frame.slot = _
      rw [sameFrames, map_set]
      rfl
    have noPins : frame.slot.pins = 0 := congrArg UInt32.toNat unused
    have isLoaded : Coherent
          { slots := pool.cache.slots.set idx ((pool.evicted frame).loaded id).slot
            index := after.pageTable.lookup, store := (pool.evicted frame).files.diskPage }
          (PoolUsers.pin users id idx) := by
      refine coherent.load (getElem?_slots here) noPins saved absent rfl rfl ?_ lookup_replaced
        (PoolUsers.sameBut_pin users id idx) rfl rfl ?_
      · rw [PoolUsers.pins_pin, away.2]
        rfl
      · exact PoolUsers.place_pin_of_unused users id idx away.2
    have sameStore : after.cache.store = (pool.evicted frame).files.diskPage :=
      diskPage_getFile (pool.evicted frame).files id.tableId
    rw [← slots, ← sameStore] at isLoaded
    exact isLoaded
  refine ⟨after, (pool.evicted frame).loaded id, replacePage_eq here id,
    ⟨afterCoherent, whole.getFile id.tableId, ?_⟩, ?_, away.1, ?_, rfl⟩
  · refine .inr ?_
    show (pool.evicted frame).clockHand < ((pool.evicted frame).frames.set idx _).length
    rw [length_set, sameHand, sameFrames]
    refine sound.hand.resolve_left ?_
    intro isEmpty
    rw [isEmpty] at inside
    exact absurd inside (Nat.not_lt_zero idx)
  · show ((pool.evicted frame).frames.set idx _)[idx]? = _
    rw [sameFrames]
    exact getElem?_set_self inside
  · rw [lookup_replaced, if_pos rfl]

def exhausted : PoolFault := .io "buffer pool exhausted: all frames pinned (increase capacity)"

theorem fetchPage_run (sound : pool.Sound users) (fits : users.pins id + 1 < 2 ^ 32) :
    (∃ idx after frame, fetchPage id pool = .ok idx after ∧
        after.Sound (PoolUsers.pin users id idx) ∧ after.frames[idx]? = some frame ∧
        frame.page = users.contents id ∧ frame.pageId = some id ∧
        after.pageTable.lookup id = some idx) ∨
      ∃ after, fetchPage id pool = .error exhausted after ∧ after.Sound users := by
  unfold fetchPage
  rw [get_bind_run]
  cases inPool : pool.pageTable.lookup id with
  | some idx =>
    obtain ⟨frame, here, holds, agrees⟩ := sound.frame_agrees inPool
    have samePins : frame.pinCount.toNat = users.pins id := agrees.pins
    have inside : idx < pool.frames.length := (List.getElem?_eq_some_iff.mp here).1
    let pinned : Frame := { frame with pinCount := frame.pinCount + 1, referenced := true }
    refine .inl ⟨idx, _, pinned, bind_run_ok (modifyFrame_run here _), ?_,
      getElem?_set_self inside, agrees.value, holds, inPool⟩
    refine sound.changeFrame here holds holds
      (PoolUsers.sameBut_pin users id idx) ⟨agrees.value, ?_, agrees.clean⟩ ?_ ?_
    · show (frame.pinCount + 1).toNat = _
      rw [PoolUsers.pins_pin, UInt32.toNat_add, samePins]
      exact Nat.mod_eq_of_lt fits
    · intro _
      rw [PoolUsers.pins_pin]
      exact Nat.succ_pos _
    · intro _
      by_cases unused : users.pins id = 0
      · exact PoolUsers.place_pin_of_unused users id idx unused
      · unfold PoolUsers.pin
        simp only [if_neg unused]
        exact sound.coherent.place_eq (getElem?_slots here) holds (Nat.pos_of_ne_zero unused)
  | none =>
    obtain ⟨found, after, ran, afterSound, sameCache, unused⟩ := findVictim_run sound
    simp only
    rw [bind_run_ok ran]
    cases found with
    | none => exact .inr ⟨after, rfl, afterSound⟩
    | some idx =>
      obtain ⟨frame, here, noPins⟩ := unused idx rfl
      have absent : after.pageTable.lookup id = none :=
        (congrFun (congrArg Cache.index sameCache) id).trans inPool
      obtain ⟨final, loaded, returned, finalSound, atIdx, shown, table,
        holds⟩ := replacePage_run afterSound here noPins absent
      exact .inl ⟨idx, final, loaded, returned, finalSound, atIdx, shown, holds, table⟩

def nextId (pool : BufferPool) (tableId : UInt64) : PageId :=
  { tableId := tableId, pageNum := (pool.nextPageNum.lookup tableId).getD 0 }

def counted (pool : BufferPool) (tableId : UInt64) : BufferPool :=
  { pool with
    nextPageNum := pool.nextPageNum.insert tableId ((pool.nextId tableId).pageNum + 1) }

theorem newPage_run (sound : pool.Sound users) {tableId : UInt64}
    (fits : users.pins (pool.nextId tableId) + 1 < 2 ^ 32) :
    (∃ idx after, newPage tableId pool = .ok (pool.nextId tableId) after ∧
        after.Sound (PoolUsers.pin users (pool.nextId tableId) idx) ∧
        after.pageTable.lookup (pool.nextId tableId) = some idx) ∨
      ∃ after, newPage tableId pool = .error exhausted after ∧ after.Sound users := by
  have countedSound : (pool.counted tableId).Sound users :=
    ⟨sound.coherent, sound.whole, sound.hand⟩
  have unfolded : newPage tableId pool = (do
          let idx ← fetchPage (pool.nextId tableId)
          modifyFrame idx fun frame => { frame with dirty := true }
          return pool.nextId tableId : PoolM PageId) (pool.counted tableId) := rfl
  rw [unfolded]
  rcases fetchPage_run countedSound fits with
    ⟨idx, after, frame, fetched, afterSound, here, _, holds, table⟩ |
      ⟨after, failed, afterSound⟩
  · have agrees := afterSound.coherent.agrees idx frame.slot _ (getElem?_slots here) holds
    rw [bind_run_ok fetched, bind_run_ok (modifyFrame_run here _)]
    refine .inl ⟨idx, _, rfl, ?_, table⟩
    exact afterSound.changeFrame here holds holds (.refl _ _)
      ⟨agrees.value, agrees.pins, fun isDirty => by cases isDirty⟩ (afterSound.coherent.inUse _)
      (afterSound.coherent.place_eq (getElem?_slots here) holds)
  · rw [bind_run_error failed]
    exact .inr ⟨after, rfl, afterSound⟩

/-! ## The other operations -/

theorem unpinPage_run (sound : pool.Sound users) {dirty : Bool}
    (markedLast : users.pins id ≤ 1 → users.unmarked id = true → dirty = true) :
    ∃ after,
      unpinPage id dirty pool = .ok () after ∧ after.Sound (PoolUsers.unpin users id dirty) := by
  unfold unpinPage
  rw [get_bind_run]
  cases inPool : pool.pageTable.lookup id with
  | none =>
    have away := sound.coherent.away id inPool
    have marked := sound.coherent.marked away.2
    have samePins : users.pins id - 1 = users.pins id := by omega
    have sameMarks : (users.unmarked id && !dirty) = users.unmarked id := by
      rw [marked, Bool.false_and]
    have same : PoolUsers.unpin users id dirty = users := by
      unfold PoolUsers.unpin
      rw [samePins, sameMarks, update_eq_self, update_eq_self]
    exact ⟨pool, rfl, same.symm ▸ sound⟩
  | some idx =>
    obtain ⟨frame, here, holds, agrees⟩ := sound.frame_agrees inPool
    have samePins : frame.pinCount.toNat = users.pins id := agrees.pins
    refine ⟨_, modifyFrame_run here _, ?_⟩
    refine sound.changeFrame here holds holds
      (PoolUsers.sameBut_unpin users id dirty) ⟨agrees.value, ?_, ?_⟩ ?_ ?_
    · show (if frame.pinCount > 0 then frame.pinCount - 1
        else frame.pinCount).toNat = update users.pins id _ id
      rw [update_self, ← samePins]
      split
      · next pos =>
        have atLeastOne : (1 : UInt32) ≤ frame.pinCount :=
          UInt32.le_iff_toNat_le.mpr (UInt32.lt_iff_toNat_lt.mp pos)
        exact UInt32.toNat_sub_of_le _ _ atLeastOne
      · next notPositive =>
        have zero : frame.pinCount.toNat = 0 := by
          have bound := mt UInt32.lt_iff_toNat_lt.mpr notPositive
          exact Nat.eq_zero_of_not_pos bound
        omega
    · show (frame.dirty || dirty) = false → update users.unmarked id _ id = false → _
      rw [update_self, Bool.or_eq_false_iff]
      rintro ⟨notDirty, rfl⟩ marked
      rw [Bool.not_false, Bool.and_true] at marked
      exact agrees.clean notDirty marked
    · show update users.unmarked id _ id = true → 0 < update users.pins id _ id
      rw [update_self, update_self]
      intro unmarked
      obtain ⟨isUnmarked, notDirty⟩ := Bool.and_eq_true_iff.mp unmarked
      by_contra last
      have isDirty := markedLast (by omega) isUnmarked
      rw [isDirty] at notDirty
      cases notDirty
    · show 0 < update users.pins id _ id → users.place id = idx
      rw [update_self]
      intro stillUsed
      exact sound.coherent.place_eq (getElem?_slots here) holds (by omega)

theorem markDirty_run (sound : pool.Sound users) :
    ∃ after, markDirty id pool = .ok () after ∧ after.Sound (PoolUsers.mark users id) := by
  unfold markDirty
  rw [get_bind_run]
  cases inPool : pool.pageTable.lookup id with
  | none =>
    have marked := sound.coherent.marked (sound.coherent.away id inPool).2
    have same : PoolUsers.mark users id = users := by
      unfold PoolUsers.mark
      rw [← marked, update_eq_self]
    exact ⟨pool, rfl, same.symm ▸ sound⟩
  | some idx =>
    obtain ⟨frame, here, holds, agrees⟩ := sound.frame_agrees inPool
    refine ⟨_, modifyFrame_run here _, ?_⟩
    refine sound.changeFrame here holds holds (PoolUsers.sameBut_mark users id)
      ⟨agrees.value, agrees.pins, fun isDirty => by cases isDirty⟩
      ?_ (sound.coherent.place_eq (getElem?_slots here) holds)
    show update users.unmarked id false id = true → _
    rw [update_self]
    intro isTrue
    cases isTrue

theorem storePage_run (sound : pool.Sound users) (used : 0 < users.pins id) (page : Page) :
    ∃ after, storePage (users.place id) page pool = .ok () after ∧
      after.Sound (PoolUsers.store users id page) := by
  obtain ⟨frame, here, holds, agrees⟩ := sound.frame_agrees (sound.coherent.placed id used)
  refine ⟨_, modifyFrame_run here _, ?_⟩
  refine sound.changeFrame here holds holds
    (PoolUsers.sameBut_store users id page) ⟨?_, agrees.pins, ?_⟩
    (fun _ => used) (sound.coherent.place_eq (getElem?_slots here) holds)
  · exact (update_self id page users.contents).symm
  · intro _
    show update users.unmarked id true id = false → _
    rw [update_self]
    intro isFalse
    cases isFalse

theorem flushPage_run (sound : pool.Sound users) (id : PageId) :
    ∃ after, flushPage id pool = .ok () after ∧ after.Sound users := by
  unfold flushPage
  rw [get_bind_run]
  cases inPool : pool.pageTable.lookup id with
  | none => exact ⟨pool, rfl, sound⟩
  | some idx =>
    obtain ⟨frame, here, holds, agrees⟩ := sound.frame_agrees inPool
    simp only
    rw [bind_run_ok (frameAt_run here)]
    by_cases dirty : frame.dirty = true
    · rw [if_pos dirty]
      let written : BufferPool := { pool with files := pool.files.write id frame.page }
      have onDisk := diskPage_write sound.whole id
      have writtenSound : written.Sound users := by
        refine ⟨?_, sound.whole.write id frame.page, sound.hand⟩
        refine sound.coherent.save (getElem?_slots here) holds ?_ ?_
        · exact (onDisk id frame.page).trans (if_pos rfl)
        · intro other ne
          exact (onDisk other frame.page).trans (if_neg ne)
      have atIdx : written.frames[idx]? = some frame := here
      unfold writePageToDisk
      rw [modify_bind_run, modifyFrame_run atIdx]
      refine ⟨_, rfl, ?_⟩
      refine writtenSound.changeFrame atIdx holds holds (.refl _ _)
        ⟨agrees.value, agrees.pins, fun _ _ => ?_⟩ (sound.coherent.inUse id)
        (sound.coherent.place_eq (getElem?_slots here) holds)
      exact ((onDisk id frame.page).trans (if_pos rfl)).trans agrees.value
    · rw [if_neg dirty]
      exact ⟨pool, rfl, sound⟩

theorem forM_run {ids : List PageId} {body : PageId → PoolM Unit}
    (rounds : ∀ (id : PageId) {pool : BufferPool}, pool.Sound users →
        ∃ after, body id pool = .ok () after ∧ after.Sound users)
    (sound : pool.Sound users) :
    ∃ after, ids.forM body pool = .ok () after ∧ after.Sound users := by
  induction ids generalizing pool with
  | nil => exact ⟨pool, rfl, sound⟩
  | cons id rest ih =>
    obtain ⟨middle, ran, middleSound⟩ := rounds id sound
    obtain ⟨after, restRan, afterSound⟩ := ih middleSound
    refine ⟨after, ?_, afterSound⟩
    show (body id >>= fun _ => rest.forM body) pool = _
    rw [bind_run_ok ran]
    exact restRan

theorem flushTable_run (sound : pool.Sound users) (host : PoolHost) (tableId : UInt64) :
    ∃ after, flushTable host tableId pool = .ok () after ∧ after.Sound users := by
  refine forM_run ?_ sound
  intro id pool sound
  by_cases ofTable : id.tableId = tableId
  · simp only [if_pos ofTable]
    exact flushPage_run sound id
  · simp only [if_neg ofTable]
    exact ⟨pool, rfl, sound⟩

theorem flushAll_run (sound : pool.Sound users) (host : PoolHost) :
    ∃ after, flushAll host pool = .ok () after ∧ after.Sound users :=
  forM_run (fun id _ sound => flushPage_run sound id) sound

end BufferPool

end TurboGP.Storage
