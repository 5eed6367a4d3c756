import TurboGP.Txn.MvccInvariant

/-!
# Visibility as a set of transactions

A reader sees a version when its creator is among the transactions whose
versions exist for it and its deleter is not among those whose deletions
exist for it.
-/

namespace TurboGP.Txn

open VersionChain RowVersion

namespace MvccTxnManager

variable {mgr : MvccTxnManager} {txn : MvccTransaction}

theorem txnVisibleToSnapshot_iff {authorId snapshotId : Nat} :
    mgr.txnVisibleToSnapshot authorId snapshotId = true ↔
      ∃ cid, mgr.txnStates.lookup authorId = some (.committed cid) ∧ cid ≤ snapshotId := by
  unfold txnVisibleToSnapshot
  split
  · next cid found => simp [found]
  · next notCommitted =>
    simp only [Bool.false_eq_true, false_iff, not_exists, not_and]
    intro cid found
    exact absurd found (notCommitted cid)

/-- The transactions whose deletions exist for `txn`: itself and those
committed before its snapshot. -/
def seenBy (mgr : MvccTxnManager) (txn : MvccTransaction) : Set Nat :=
  { author |
    author = txn.id ∨ mgr.txnVisibleToSnapshot author txn.snapshotId = true }

/-- The transactions whose versions exist for `txn`; a dirty reader also
accepts every unfinished or committed one. -/
def creatorsFor (mgr : MvccTxnManager) (txn : MvccTransaction) : Set Nat :=
  if txn.isolationLevel = .readUncommitted then
    { author |
      author = txn.id ∨
        mgr.txnStates.lookup author = some .inProgress ∨
          ∃ cid, mgr.txnStates.lookup author = some (.committed cid) }
  else mgr.seenBy txn

theorem xminVisible_iff (version : RowVersion) :
    mgr.xminVisible version txn = true ↔ version.xmin ∈ mgr.creatorsFor txn := by
  unfold xminVisible creatorsFor
  cases level : txn.isolationLevel with
  | readUncommitted =>
    simp only [if_true, Bool.or_eq_true, decide_eq_true_eq, Set.mem_ofPred_eq]
    cases mgr.txnStates.lookup version.xmin with
    | none => simp
    | some state => cases state <;> simp
  | _ => simp [seenBy]

theorem visible_iff_sees (version : RowVersion) : mgr.visible version txn = true ↔
      Sees xmin xmax (mgr.creatorsFor txn) (mgr.seenBy txn) version := by
  unfold visible Sees
  rw [← xminVisible_iff]
  cases mgr.xminVisible version txn with
  | false => simp
  | true =>
    cases version.xmax with
    | none => simp
    | some xmax =>
      by_cases own : xmax = txn.id
      · simp [own, seenBy]
      · simp [own, seenBy]

theorem creatorsFor_eq_seenBy (snapshotLevel : txn.isolationLevel ≠ .readUncommitted) :
    mgr.creatorsFor txn = mgr.seenBy txn :=
  if_neg snapshotLevel

theorem visible_congr {other : MvccTxnManager}
    (sameCreators : other.creatorsFor txn = mgr.creatorsFor txn)
    (sameSeen : other.seenBy txn = mgr.seenBy txn) :
    (fun version => other.visible version txn) = fun version => mgr.visible version txn := by
  funext version
  rw [Bool.eq_iff_iff, visible_iff_sees, visible_iff_sees, sameCreators, sameSeen]

theorem keepsVersion_eq_false_iff {oldest : Nat} {version : RowVersion} :
    mgr.keepsVersion oldest version = false ↔ mgr.txnStates.lookup version.xmin = some .aborted ∨
        ∃ xmax cid, version.xmax = some xmax ∧
          mgr.txnStates.lookup xmax = some (.committed cid) ∧ cid ≤ oldest := by
  unfold keepsVersion
  by_cases aborted : mgr.txnStates.lookup version.xmin = some .aborted
  · simp [aborted]
  · rw [if_neg aborted]
    cases version.xmax with
    | none => simp [aborted]
    | some xmax =>
      cases found : mgr.txnStates.lookup xmax with
      | none => simp [aborted, found]
      | some state => cases state <;> simp [aborted, found]

theorem scanVisible_eq_observe (table : MvccTable) :
    mgr.scanVisible table txn = observe (fun version => mgr.visible version txn) id table.rows := by
  simp only [observe, Option.map_id_apply]
  rfl

theorem scanVisible_values (table : MvccTable) : (mgr.scanVisible table txn).map values =
      observe (fun version => mgr.visible version txn) values table.rows :=
  List.map_filterMap

end MvccTxnManager

namespace MvccWorld

variable {world : MvccWorld} {txn : MvccTransaction}

theorem Running.notMem_seenBy {other : MvccTransaction} (inv : world.Consistent)
    (running : world.Running txn) (otherRunning : world.Running other) (ne : other ≠ txn) :
    other.id ∉ world.mgr.seenBy txn := by
  rintro (sameId | visible)
  · exact ne (inv.manager.unique other otherRunning.1 txn running.1 sameId)
  · obtain ⟨cid, found, -⟩ := MvccTxnManager.txnVisibleToSnapshot_iff.mp visible
    rw [otherRunning.2] at found
    cases found

theorem le_oldestActiveSnapshot_iff {bound : Nat} (inv : world.Consistent) :
    bound ≤ world.mgr.oldestActiveSnapshot ↔
      bound ≤ world.mgr.commitId ∧ ∀ txn, world.Running txn → bound ≤ txn.snapshotId := by
  refine FiniteMap.le_leastAdmitted_iff.trans (and_congr_right fun _ => ?_)
  constructor
  · intro least txn running
    have held := (inv.manager.snapshots _ _).mpr ⟨running.2, txn, running.1, rfl, rfl⟩
    exact least txn.id txn.snapshotId held (by simpa using running.2)
  · intro least txnId snapshot held _
    obtain ⟨inProgress, txn, mem, rfl, rfl⟩ := (inv.manager.snapshots txnId snapshot).mp held
    exact least txn ⟨mem, inProgress⟩

variable {action : MvccAction} {author : Nat}

variable {cid : Nat} {version : RowVersion}

/-- A call records no commit up to the current commit id and removes none:
a new commit gets the next id and a finished transaction stays finished. -/
theorem lookup_committed_apply (inv : world.Consistent)
    (admissible : ∀ txn, action.author = some txn → world.Running txn)
    (past : cid ≤ world.mgr.commitId) (authorId : Nat) :
    (world.apply action).mgr.txnStates.lookup authorId = some (.committed cid) ↔
      world.mgr.txnStates.lookup authorId = some (.committed cid) := by
  rw [apply_lookup_state]
  cases action with
  | beginWithIsolation level =>
    by_cases isNext : authorId = world.mgr.nextTxnId
    · subst isNext
      simp [inv.manager.lookup_next]
    · simp [isNext]
  | commit txn =>
    by_cases own : authorId = txn.id
    · have running := (admissible txn rfl).2
      subst own
      simp only [if_true, running, Option.some.injEq,
        TxnState.committed.injEq, reduceCtorEq, iff_false]
      omega
    · simp [own]
  | rollback txn =>
    by_cases own : authorId = txn.id
    · have running := (admissible txn rfl).2
      subst own
      simp [running]
    · simp [own]
  | cleanupAborted => simp [Option.filter_eq_some_iff]
  | _ => exact Iff.rfl

/-- No call changes which transactions a snapshot already taken contains. -/
theorem txnVisibleToSnapshot_apply {snapshotId : Nat} (inv : world.Consistent)
    (admissible : ∀ txn, action.author = some txn → world.Running txn)
    (past : snapshotId ≤ world.mgr.commitId) (authorId : Nat) :
    (world.apply action).mgr.txnVisibleToSnapshot authorId snapshotId =
      world.mgr.txnVisibleToSnapshot authorId snapshotId := by
  rw [Bool.eq_iff_iff, MvccTxnManager.txnVisibleToSnapshot_iff,
    MvccTxnManager.txnVisibleToSnapshot_iff]
  refine exists_congr fun cid => and_congr_left fun inSnapshot => ?_
  exact lookup_committed_apply inv admissible (le_trans inSnapshot past) authorId

theorem seenBy_apply (inv : world.Consistent)
    (admissible : ∀ txn, action.author = some txn → world.Running txn) (mem : txn ∈ world.begun) :
    (world.apply action).mgr.seenBy txn = world.mgr.seenBy txn := by
  ext author
  simp only [MvccTxnManager.seenBy, Set.mem_ofPred_eq, txnVisibleToSnapshot_apply inv admissible
      (inv.manager.snapshotLe txn mem) author]

/-- The transaction has begun and was rolled back; its entry may have been
cleaned up since. -/
def RolledBack (world : MvccWorld) (txnId : Nat) : Prop :=
  HasBegun world.begun txnId ∧
    (world.mgr.txnStates.lookup txnId = none ∨ world.mgr.txnStates.lookup txnId = some .aborted)

instance (world : MvccWorld) (txnId : Nat) : Decidable (world.RolledBack txnId) :=
  inferInstanceAs (Decidable (_ ∧ _))

/-- A version no running transaction sees, nor any that begins later: its
creator was rolled back, or its deletion is in every snapshot in use. -/
def Buried (world : MvccWorld) (version : RowVersion) : Prop :=
  world.RolledBack version.xmin ∨
    ∃ xmax cid, version.xmax = some xmax ∧
      world.mgr.txnStates.lookup xmax = some (.committed cid) ∧
      cid ≤ world.mgr.commitId ∧ ∀ txn, world.Running txn → cid ≤ txn.snapshotId

theorem RolledBack.not_committed (rolledBack : world.RolledBack author) :
    world.mgr.txnStates.lookup author ≠ some (.committed cid) := by
  rcases rolledBack.2 with missing | aborted
  · simp [missing]
  · simp [aborted]

theorem RolledBack.notMem_creatorsFor (rolledBack : world.RolledBack author)
    (running : world.Running txn) : author ∉ world.mgr.creatorsFor txn := by
  have gone := rolledBack.2
  have notReader : author ≠ txn.id := by
    rintro rfl
    rw [running.2] at gone
    simp at gone
  unfold MvccTxnManager.creatorsFor MvccTxnManager.seenBy
  rcases gone with missing | aborted
  · split <;>
      simp [notReader, missing, MvccTxnManager.txnVisibleToSnapshot]
  · split <;>
      simp [notReader, aborted, MvccTxnManager.txnVisibleToSnapshot]

theorem RolledBack.apply (inv : world.Consistent)
    (admissible : ∀ txn, action.author = some txn → world.Running txn)
    (rolledBack : world.RolledBack author) : (world.apply action).RolledBack author := by
  obtain ⟨begun, gone⟩ := rolledBack
  refine ⟨hasBegun_apply action begun, ?_⟩
  have notRunning : ∀ txn, action.author = some txn → author ≠ txn.id := by
    rintro txn isAuthor rfl
    rw [(admissible txn isAuthor).2] at gone
    simp at gone
  rw [apply_lookup_state]
  cases action with
  | beginWithIsolation level =>
    obtain ⟨txn, mem, rfl⟩ := begun
    have below := (inv.manager.idBelow txn mem).2
    simpa [Nat.ne_of_lt below] using gone
  | commit txn | rollback txn => simpa [notRunning txn rfl] using gone
  | cleanupAborted =>
    rcases gone with missing | aborted
    · simp [missing]
    · simp [aborted]
  | _ => exact gone

theorem Buried.visible_eq_false (buried : world.Buried version) (running : world.Running txn) :
    world.mgr.visible version txn = false := by
  rw [← Bool.not_eq_true, MvccTxnManager.visible_iff_sees]
  rcases buried with
    rolledBack | ⟨xmax, cid, deleted, committed, -, below⟩
  · exact not_sees_of_creator (rolledBack.notMem_creatorsFor running)
  · refine not_sees_of_deleter deleted (.inr ?_)
    exact MvccTxnManager.txnVisibleToSnapshot_iff.mpr ⟨cid, committed, below txn running⟩

/-- Garbage collection drops only buried versions. -/
theorem buried_of_dropped (inv : world.Consistent)
    (dropped : world.mgr.keepsVersion world.mgr.oldestActiveSnapshot version = false) :
    world.Buried version := by
  rcases MvccTxnManager.keepsVersion_eq_false_iff.mp dropped with
    aborted | ⟨xmax, cid, deleted, committed, old⟩
  · exact .inl ⟨inv.manager.recorded _ _ aborted, .inr aborted⟩
  · obtain ⟨current, least⟩ := (le_oldestActiveSnapshot_iff inv).mp old
    exact .inr ⟨xmax, cid, deleted, committed, current, least⟩

end MvccWorld

end TurboGP.Txn
