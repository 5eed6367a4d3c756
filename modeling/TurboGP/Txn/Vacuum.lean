import TurboGP.Txn.Visibility

/-! # Garbage collection of version chains -/

namespace TurboGP.Txn

open VersionChain MvccTxnManager MvccTransaction MvccTable List

namespace MvccWorld

variable {world : MvccWorld} {txn : MvccTransaction}

/-- The smallest snapshot among the running transactions, the current commit
id if there is none. -/
def smallestSnapshot (world : MvccWorld) : Nat :=
  ((world.begun.filter (fun txn => world.Running txn)).map snapshotId).min?.getD world.mgr.commitId

theorem oldestActiveSnapshot_eq_smallestSnapshot (inv : world.Consistent) :
    world.mgr.oldestActiveSnapshot = world.smallestSnapshot := by
  have inUse : ∀ txn, world.Running txn → txn.snapshotId ∈
      (world.begun.filter (fun txn => world.Running txn)).map snapshotId := by
    intro txn running
    exact mem_map_of_mem (mem_filter.mpr ⟨running.1, decide_eq_true running⟩)
  refine eq_of_forall_le_iff fun bound => ?_
  rw [le_oldestActiveSnapshot_iff inv, smallestSnapshot]
  cases least : ((world.begun.filter (fun txn => world.Running txn)).map snapshotId).min? with
  | none =>
    rw [Option.getD_none, and_iff_left_iff_imp]
    intro _ txn running
    have present := inUse txn running
    rw [min?_eq_none_iff.mp least] at present
    cases present
  | some smallest =>
    obtain ⟨held, isLeast⟩ := min?_eq_some_iff.mp least
    obtain ⟨holder, mem, rfl⟩ := mem_map.mp held
    have running : world.Running holder := of_decide_eq_true (mem_filter.mp mem).2
    rw [Option.getD_some]
    constructor
    · rintro ⟨-, below⟩
      exact below holder running
    · intro below
      refine ⟨below.trans (inv.manager.snapshotLe holder running.1), fun txn other => ?_⟩
      exact below.trans (isLeast _ (inUse txn other))

/-- A transaction running after a call was running before it or has the
current commit id as its snapshot. -/
theorem Running.of_apply {action : MvccAction} (inv : world.Consistent)
    (running : (world.apply action).Running txn) :
    world.Running txn ∨ txn.snapshotId = world.mgr.commitId := by
  obtain ⟨mem, inProgress⟩ := running
  rw [apply_begun] at mem
  rw [apply_lookup_state] at inProgress
  cases action with
  | beginWithIsolation level =>
    rcases mem_append.mp mem with old | isNew
    · have below := (inv.manager.idBelow txn old).2
      rw [if_neg (Nat.ne_of_lt below)] at inProgress
      exact .inl ⟨old, inProgress⟩
    · rw [mem_singleton] at isNew
      exact .inr (isNew ▸ rfl)
  | commit author | rollback author =>
    refine .inl ⟨mem, ?_⟩
    by_cases same : txn.id = author.id
    · simp [same] at inProgress
    · simpa [same] using inProgress
  | cleanupAborted => exact .inl ⟨mem, (Option.filter_eq_some_iff.mp inProgress).1⟩
  | _ => exact .inl ⟨mem, inProgress⟩

theorem Buried.apply {action : MvccAction} {version : RowVersion} (inv : world.Consistent)
    (admissible : ∀ txn, action.author = some txn → world.Running txn)
    (buried : world.Buried version) : (world.apply action).Buried version := by
  rcases buried with
    rolledBack | ⟨xmax, cid, deleted, committed, past, below⟩
  · exact .inl (rolledBack.apply inv admissible)
  · refine .inr
      ⟨xmax, cid, deleted, (lookup_committed_apply inv admissible past xmax).mpr committed,
        le_trans past (commitId_le_apply world action), ?_⟩
    intro txn running
    rcases running.of_apply inv with wasRunning | current
    · exact below txn wasRunning
    · exact current ▸ past

/-- The right world is the left one with versions dropped that nobody can
see any more. -/
structure Thinned (keeps : RowVersion → Bool)
    (full thin : MvccWorld) : Prop where
  consistent : full.Consistent
  sameMgr : thin.mgr = full.mgr
  sameBegun : thin.begun = full.begun
  rows : thin.table.rows = full.table.rows.map (filter keeps)
  buried : ∀ version, keeps version = false → full.Buried version

namespace Thinned

variable {keeps : RowVersion → Bool} {full thin : MvccWorld}

variable (thinned : Thinned keeps full thin)

include thinned

theorem running_iff (txn : MvccTransaction) : thin.Running txn ↔ full.Running txn := by
  unfold Running
  rw [thinned.sameMgr, thinned.sameBegun]

theorem scanVisible_eq {txn : MvccTransaction} (running : full.Running txn) :
    thin.mgr.scanVisible thin.table txn = full.mgr.scanVisible full.table txn := by
  rw [scanVisible_eq_observe, scanVisible_eq_observe, thinned.sameMgr, thinned.rows]
  refine observe_map fun chain _ => ?_
  congr 1
  refine latest_filter fun version _ visible => ?_
  by_contra dropped
  rw [Bool.not_eq_true] at dropped
  rw [(thinned.buried version dropped).visible_eq_false running] at visible
  cases visible

theorem apply {action : MvccAction}
    (admissible : ∀ txn, action.author = some txn → full.Running txn)
    (noWrite : action.isWrite = false) : Thinned keeps (full.apply action) (thin.apply action) := by
  have buried : ∀ version, keeps version = false → (full.apply action).Buried version :=
    fun version dropped => (thinned.buried version dropped).apply thinned.consistent admissible
  have consistent := consistent_apply thinned.consistent admissible
  obtain ⟨mgr, table, begun⟩ := thin
  obtain ⟨-, rfl, rfl, rows, -⟩ := thinned
  cases action with
  | insert txn values | update txn rowIdx newValues | delete txn rowIdx => cases noWrite
  | vacuum =>
    refine ⟨consistent, rfl, rfl, ?_, buried⟩
    change
      table.rows.map (full.mgr.vacuumChain _) = (full.table.rows.map (full.mgr.vacuumChain _)).map _
    rw [rows, map_map, map_map]
    refine map_congr_left fun chain _ => ?_
    simp only [Function.comp_apply, vacuumChain, filter_filter, Bool.and_comm]
  | _ => exact ⟨consistent, rfl, rfl, rows, buried⟩

theorem run {later : MvccWorld} {actions : List MvccAction}
    (noWrites : Run (fun _ action => action.isWrite = false) full actions later) :
    ∃ thinLater, Run (fun _ action => action.isWrite = false) thin actions thinLater ∧
      Thinned keeps later thinLater := by
  have simulated :=
    noWrites.simulate step (fun _ action => action.isWrite = false) id (Thinned keeps) ?_ thinned
  · simpa using simulated
  · intro state action next thinState related noWrite enabled
    obtain ⟨admissible, rfl⟩ := step_eq_some_iff.mp enabled
    refine ⟨thinState.apply action, noWrite, step_eq_some_iff.mpr ⟨?_, rfl⟩,
      related.apply admissible noWrite⟩
    intro txn isAuthor
    exact (related.running_iff txn).mpr (admissible txn isAuthor)

end Thinned

theorem thinned_vacuum (consistent : world.Consistent) : Thinned
      (world.mgr.keepsVersion world.mgr.oldestActiveSnapshot) world (world.apply .vacuum) where
  consistent := consistent
  sameMgr := rfl
  sameBegun := rfl
  rows := rfl
  buried := fun _ dropped => buried_of_dropped consistent dropped

/-- VACUUM is invisible and complete: in every reachable world: every
running transaction scans the same versions after `vacuum`; so does every
transaction running at the end of any run without writes, compared with the
same run without the `vacuum`; rows keep their index and only lose versions;
and no version is left whose creator is recorded as aborted or whose deleter
committed at or below the smallest running snapshot. -/
theorem vacuum_invisible_and_complete {world : MvccWorld} (reachable : world.Reachable) :
    (∀ txn, world.Running txn → (world.apply .vacuum).mgr.scanVisible
          (world.apply .vacuum).table txn = world.mgr.scanVisible world.table txn) ∧
    (∀ actions later, Run (fun _ action => action.isWrite = false) world actions later →
        ∃ vacuumedLater, Run (fun _ action => action.isWrite = false)
              (world.apply .vacuum) actions vacuumedLater ∧ vacuumedLater.begun = later.begun ∧
            ∀ txn, later.Running txn → vacuumedLater.mgr.scanVisible vacuumedLater.table txn =
                later.mgr.scanVisible later.table txn) ∧
    ((world.apply .vacuum).table.rowCount = world.table.rowCount ∧ ∀ rowIdx,
        ((world.apply .vacuum).table.rowVersions rowIdx).Sublist (world.table.rowVersions rowIdx)) ∧
    ∀ chain ∈ (world.apply .vacuum).table.rows, ∀ version ∈ chain,
      (world.apply .vacuum).mgr.txnStates.lookup version.xmin ≠ some .aborted ∧
        ∀ xmax cid, version.xmax = some xmax →
          (world.apply .vacuum).mgr.txnStates.lookup xmax = some (.committed cid) →
          (world.apply .vacuum).smallestSnapshot < cid := by
  have consistent := reachable.consistent
  have thinned := thinned_vacuum consistent
  refine ⟨fun txn running => thinned.scanVisible_eq running, ?_, ?_, ?_⟩
  · intro actions later noWrites
    obtain ⟨vacuumedLater, vacuumedRun, stillThinned⟩ := thinned.run noWrites
    exact ⟨vacuumedLater, vacuumedRun, stillThinned.sameBegun,
      fun txn running => stillThinned.scanVisible_eq running⟩
  · constructor
    · simp [rowCount, thinned.rows]
    · intro rowIdx
      simp only [rowVersions, thinned.rows, getElem?_map]
      cases world.table.rows[rowIdx]? with
      | none => exact .refl []
      | some chain => exact filter_sublist
  · intro chain mem version inChain
    obtain ⟨before, -, rfl⟩ := mem_map.mp mem
    have kept := (mem_filter.mp inChain).2
    have sameSmallest : (world.apply .vacuum).smallestSnapshot = world.mgr.oldestActiveSnapshot :=
      (oldestActiveSnapshot_eq_smallestSnapshot consistent).symm
    rw [thinned.sameMgr, sameSmallest]
    have notDropped : ¬ (world.mgr.txnStates.lookup version.xmin = some .aborted ∨ ∃ xmax cid,
          version.xmax = some xmax ∧ world.mgr.txnStates.lookup xmax = some (.committed cid) ∧
              cid ≤ world.mgr.oldestActiveSnapshot) := by
      rw [← keepsVersion_eq_false_iff, kept]
      simp
    constructor
    · intro aborted
      exact notDropped (.inl aborted)
    · intro xmax cid deleted committed
      by_contra notAbove
      exact notDropped (.inr ⟨xmax, cid, deleted, committed, Nat.le_of_not_lt notAbove⟩)

/-- A row is inserted and updated by committed transactions, another row is
inserted by one that is rolled back, then a dirty reader begins. -/
def leaveGarbage : List MvccAction :=
  [ .beginWithIsolation .repeatableRead, .insert ⟨1, 0, .inProgress, .repeatableRead⟩ [1],
    .commit ⟨1, 0, .inProgress, .repeatableRead⟩, .beginWithIsolation .repeatableRead,
    .update ⟨2, 1, .inProgress, .repeatableRead⟩ 0 [2],
    .commit ⟨2, 1, .inProgress, .repeatableRead⟩, .beginWithIsolation .repeatableRead,
    .insert ⟨3, 2, .inProgress, .repeatableRead⟩ [3],
    .rollback ⟨3, 2, .inProgress, .repeatableRead⟩, .beginWithIsolation .readUncommitted ]

def garbageWorld : MvccWorld := leaveGarbage.foldl MvccWorld.apply (initial (new "t" ["a"]))

theorem vacuum_garbageWorld : (garbageWorld.apply .vacuum).table.rows =
        [[RowVersion.new 2 [2]], []] ∧
      (garbageWorld.apply .vacuum).mgr.scanVisible
          (garbageWorld.apply .vacuum).table ⟨4, 2, .inProgress, .readUncommitted⟩ =
        garbageWorld.mgr.scanVisible garbageWorld.table ⟨4, 2, .inProgress, .readUncommitted⟩ := by
  have reachable : garbageWorld.Reachable := GuardedRun.Reachable.of_exec ⟨"t", ["a"], rfl⟩
      (show GuardedRun.exec step GuardedRun.anyStep
          (initial (new "t" ["a"])) leaveGarbage = some garbageWorld by decide)
  exact ⟨by decide,
    (vacuum_invisible_and_complete reachable).1 ⟨4, 2, .inProgress, .readUncommitted⟩ (by decide)⟩

end MvccWorld

end TurboGP.Txn
