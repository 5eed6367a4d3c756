import TurboGP.Lib.GuardedRun
import TurboGP.Txn.Mvcc

/-! # The consistency of reachable worlds -/

namespace TurboGP.Txn

open FiniteMap List

structure MvccWorld where
  mgr : MvccTxnManager
  table : MvccTable
  begun : List MvccTransaction
  deriving DecidableEq

inductive MvccAction
  | beginWithIsolation (level : IsolationLevel)
  | commit (txn : MvccTransaction)
  | rollback (txn : MvccTransaction)
  | insert (txn : MvccTransaction) (values : List Cell)
  | update (txn : MvccTransaction) (rowIdx : Nat) (newValues : List Cell)
  | delete (txn : MvccTransaction) (rowIdx : Nat)
  | vacuum
  | cleanupAborted
  deriving DecidableEq, Repr

namespace MvccAction

def author : MvccAction → Option MvccTransaction
  | .commit txn => some txn
  | .rollback txn => some txn
  | .insert txn _ => some txn
  | .update txn _ _ => some txn
  | .delete txn _ => some txn
  | .beginWithIsolation _ | .vacuum | .cleanupAborted => none

def isWrite : MvccAction → Bool
  | .insert _ _ | .update _ _ _ | .delete _ _ => true
  | _ => false

def target : MvccAction → Option (MvccTransaction × Nat)
  | .update txn rowIdx _ => some (txn, rowIdx)
  | .delete txn rowIdx => some (txn, rowIdx)
  | _ => none

/-- What a conflict-checked write puts behind the version it deletes. -/
def successors : MvccAction → List RowVersion
  | .update txn _ newValues => [RowVersion.new txn.id newValues]
  | _ => []

variable {action : MvccAction} {txn : MvccTransaction} {rowIdx : Nat}

theorem author_of_target (isTarget : action.target = some (txn, rowIdx)) :
    action.author = some txn := by
  cases action <;> cases isTarget <;> rfl

theorem successors_of_target (isTarget : action.target = some (txn, rowIdx)) :
    action.successors = [] ∨ ∃ values, action.successors = [RowVersion.new txn.id values] := by
  cases action <;> cases isTarget
  · exact .inr ⟨_, rfl⟩
  · exact .inl rfl

end MvccAction

namespace MvccWorld

def initial (table : MvccTable) : MvccWorld :=
  { mgr := .new, table := table, begun := [] }

def Initial (world : MvccWorld) : Prop :=
  ∃ name columnNames, world = initial (MvccTable.new name columnNames)

/-- The handle was handed out and its transaction is not finished. -/
def Running (world : MvccWorld) (txn : MvccTransaction) : Prop :=
  txn ∈ world.begun ∧ world.mgr.txnStates.lookup txn.id = some .inProgress

instance (world : MvccWorld) (txn : MvccTransaction) : Decidable (world.Running txn) :=
  inferInstanceAs (Decidable (_ ∧ _))

def apply (world : MvccWorld) : MvccAction → MvccWorld
  | .beginWithIsolation level =>
    let (txn, mgr) := world.mgr.beginWithIsolation level
    { world with mgr := mgr, begun := world.begun ++ [txn] }
  | .commit txn => { world with mgr := (world.mgr.commit txn.id).2 }
  | .rollback txn => { world with mgr := world.mgr.rollback txn.id }
  | .insert txn values => { world with table := (world.table.insert txn.id values).2 }
  | .update txn rowIdx newValues =>
    match world.mgr.updateWithConflictCheck world.table txn rowIdx newValues
    with
    | .ok table => { world with table := table }
    | .error _ => world
  | .delete txn rowIdx =>
    match world.mgr.deleteWithConflictCheck world.table txn rowIdx with
    | .ok table => { world with table := table }
    | .error _ => world
  | .vacuum =>
    { world with
      table := (world.mgr.vacuum [world.table]).2.headD world.table }
  | .cleanupAborted => { world with mgr := world.mgr.cleanupAborted.2 }

def step (world : MvccWorld) (action : MvccAction) : Option MvccWorld :=
  if ∀ txn ∈ action.author, world.Running txn then
    some (world.apply action)
  else none

theorem step_eq_some_iff {world next : MvccWorld} {action : MvccAction} :
    world.step action = some next ↔
      (∀ txn, action.author = some txn → world.Running txn) ∧ next = world.apply action := by
  unfold step
  split
  · next admissible =>
    simp only [Option.some.injEq]
    exact ⟨fun same => ⟨admissible, same.symm⟩, fun both => both.2.symm⟩
  · next refused =>
    simp only [reduceCtorEq, false_iff, not_and]
    intro admissible
    exact absurd admissible refused

abbrev Reachable : MvccWorld → Prop := GuardedRun.Reachable step Initial

abbrev Run (guard : MvccWorld → MvccAction → Prop) :
    MvccWorld → List MvccAction → MvccWorld → Prop :=
  GuardedRun.Run step guard

section

/-- The states recorded after a call: a new transaction is in progress, a
finished one is committed with the next commit id or aborted, and
`cleanup_aborted` forgets the aborted ones. -/
theorem apply_lookup_state (world : MvccWorld) (action : MvccAction) (txnId : Nat) :
    (world.apply action).mgr.txnStates.lookup txnId =
      match action with
      | .beginWithIsolation _ =>
        if txnId = world.mgr.nextTxnId then some .inProgress
        else world.mgr.txnStates.lookup txnId
      | .commit txn =>
        if txnId = txn.id then some (.committed (world.mgr.commitId + 1))
        else world.mgr.txnStates.lookup txnId
      | .rollback txn =>
        if txnId = txn.id then some .aborted
        else world.mgr.txnStates.lookup txnId
      | .cleanupAborted =>
        (world.mgr.txnStates.lookup txnId).filter (fun state => decide (state ≠ .aborted))
      | _ => world.mgr.txnStates.lookup txnId := by
  cases action with
  | beginWithIsolation level | commit txn | rollback txn => exact lookup_insert_eq _ _ _ _
  | insert txn values => rfl
  | update txn rowIdx newValues | delete txn rowIdx =>
    simp only [apply]
    split <;> rfl
  | vacuum => rfl
  | cleanupAborted => exact lookup_retain_eq _ _ _

@[simp]
theorem apply_begun (world : MvccWorld) (action : MvccAction) : (world.apply action).begun =
      match action with
      | .beginWithIsolation level => world.begun ++ [(world.mgr.beginWithIsolation level).1]
      | _ => world.begun := by
  cases action with
  | update txn rowIdx newValues | delete txn rowIdx =>
    simp only [apply]
    split <;> rfl
  | _ => rfl

theorem mem_begun_apply {world : MvccWorld} {txn : MvccTransaction} (action : MvccAction)
    (mem : txn ∈ world.begun) : txn ∈ (world.apply action).begun := by
  rw [apply_begun]
  split
  · exact mem_append_left _ mem
  · exact mem

@[simp]
theorem apply_commitId (world : MvccWorld) (action : MvccAction) :
    (world.apply action).mgr.commitId =
      match action with
      | .commit _ => world.mgr.commitId + 1
      | _ => world.mgr.commitId := by
  cases action with
  | update txn rowIdx newValues | delete txn rowIdx =>
    simp only [apply]
    split <;> rfl
  | _ => rfl

theorem commitId_le_apply (world : MvccWorld) (action : MvccAction) :
    world.mgr.commitId ≤ (world.apply action).mgr.commitId := by
  rw [apply_commitId]
  split
  · exact Nat.le_succ _
  · exact le_refl _

inductive RowsChange (world : MvccWorld) (action : MvccAction) :
    List (List RowVersion) → Prop
  | unchanged :
      (∀ txn rowIdx, action.target = some (txn, rowIdx) →
          world.mgr.checkWriteConflict world.table txn rowIdx = .ok () →
          ¬ world.table.LastOpen rowIdx) →
      RowsChange world action world.table.rows
  | inserted {txn : MvccTransaction} {values : List Cell} :
      action = .insert txn values →
      RowsChange world action (world.table.rows ++ [[RowVersion.new txn.id values]])
  | superseded {txn : MvccTransaction} {rowIdx : Nat}
      {older : List RowVersion} {version : RowVersion} :
      action.target = some (txn, rowIdx) →
      world.mgr.checkWriteConflict world.table txn rowIdx = .ok () →
      world.table.rows[rowIdx]? = some (older ++ [version]) → version.xmax = none →
      RowsChange world action
        (world.table.rows.set rowIdx (older ++ version.delete txn.id :: action.successors))
  | vacuumed :
      action = .vacuum →
      RowsChange world action
        (world.table.rows.map (world.mgr.vacuumChain world.mgr.oldestActiveSnapshot))

theorem RowsChange.refused {world : MvccWorld} {action : MvccAction} {txn : MvccTransaction}
    {rowIdx : Nat} {conflict : ConflictError} (isTarget : action.target = some (txn, rowIdx))
    (checked : world.mgr.checkWriteConflict world.table txn rowIdx = .error conflict) :
    RowsChange world action world.table.rows := by
  refine .unchanged fun other otherRow otherTarget isOk => ?_
  cases isTarget.symm.trans otherTarget
  cases checked.symm.trans isOk

theorem apply_rows (world : MvccWorld) (action : MvccAction) :
    RowsChange world action (world.apply action).table.rows := by
  cases action with
  | insert txn values => exact .inserted rfl
  | vacuum => exact .vacuumed rfl
  | update txn rowIdx newValues =>
    simp only [apply, MvccTxnManager.updateWithConflictCheck]
    cases checked : world.mgr.checkWriteConflict world.table txn rowIdx with
    | error conflict => exact .refused rfl checked
    | ok =>
      rcases world.table.update_cases txn.id rowIdx newValues with
        ⟨older, version, held, opened, rows⟩ | ⟨closed, same⟩
      · simp only [bind, Except.bind, pure, Except.pure, rows]
        exact .superseded rfl checked held opened
      · simp only [bind, Except.bind, pure, Except.pure, same]
        refine .unchanged ?_
        rintro _ _ ⟨⟩ -
        exact closed
  | delete txn rowIdx =>
    simp only [apply, MvccTxnManager.deleteWithConflictCheck]
    cases checked : world.mgr.checkWriteConflict world.table txn rowIdx with
    | error conflict => exact .refused rfl checked
    | ok =>
      rcases world.table.delete_cases txn.id rowIdx with
        ⟨older, version, held, opened, rows⟩ | ⟨closed, same⟩
      · simp only [bind, Except.bind, pure, Except.pure, rows]
        exact .superseded rfl checked held opened
      · simp only [bind, Except.bind, pure, Except.pure, same]
        refine .unchanged ?_
        rintro _ _ ⟨⟩ -
        exact closed
  | _ =>
    refine .unchanged ?_
    rintro _ _ ⟨⟩

theorem rows_length_le_apply (world : MvccWorld) (action : MvccAction) :
    world.table.rows.length ≤ (world.apply action).table.rows.length := by
  have change := apply_rows world action
  generalize (world.apply action).table.rows = rows at change ⊢
  cases change <;> simp

end

end MvccWorld

/-- The stamps of a chain are known ids, and a version with a later one has
been deleted. -/
structure ChainInv (known : Nat → Prop) (chain : List RowVersion) : Prop where
  creator : ∀ version ∈ chain, known version.xmin
  deleter : ∀ version ∈ chain, ∀ author, version.xmax = some author → known author
  closed : chain.Pairwise (fun earlier _ => earlier.xmax ≠ none)

namespace ChainInv

variable {known wider : Nat → Prop} {chain : List RowVersion}

theorem mono (implication : ∀ txnId, known txnId → wider txnId) (inv : ChainInv known chain) :
    ChainInv wider chain where
  creator := fun version mem =>
    implication version.xmin (inv.creator version mem)
  deleter := fun version mem author deleted =>
    implication author (inv.deleter version mem author deleted)
  closed := inv.closed

theorem new {txnId : Nat} (isKnown : known txnId) (values : List Cell) :
    ChainInv known [RowVersion.new txnId values] where
  creator := by simpa using isKnown
  deleter := by simp
  closed := pairwise_singleton _ _

theorem filter (inv : ChainInv known chain) (keeps : RowVersion → Bool) :
    ChainInv known (chain.filter keeps) where
  creator := fun version mem =>
    inv.creator version (mem_of_mem_filter mem)
  deleter := fun version mem =>
    inv.deleter version (mem_of_mem_filter mem)
  closed := inv.closed.sublist filter_sublist

theorem open_is_last {version : RowVersion} (inv : ChainInv known chain)
    (mem : version ∈ chain) (opened : version.xmax = none) :
    ∃ older, chain = older ++ [version] := by
  obtain ⟨older, newer, rfl⟩ := append_of_mem mem
  cases newer with
  | nil => exact ⟨older, rfl⟩
  | cons next rest =>
    have fromVersion := (pairwise_append.mp inv.closed).2.1
    exact absurd opened ((pairwise_cons.mp fromVersion).1 next mem_cons_self)

theorem older_closed {older : List RowVersion} {version : RowVersion}
    (inv : ChainInv known (older ++ [version])) : ∀ earlier ∈ older, earlier.xmax ≠ none :=
  fun earlier mem =>
    (pairwise_append.mp inv.closed).2.2 earlier mem version
      (mem_singleton_self version)

/-- Marking the last version and appending at most one open successor. -/
theorem superseded {older successors : List RowVersion} {version : RowVersion} {txnId : Nat}
    (inv : ChainInv known (older ++ [version])) (isKnown : known txnId)
    (successorsNew : successors = [] ∨ ∃ values, successors = [RowVersion.new txnId values]) :
    ChainInv known (older ++ version.delete txnId :: successors) := by
  have fresh : ∀ successor ∈ successors, known successor.xmin ∧ successor.xmax = none := by
    rcases successorsNew with rfl | ⟨values, rfl⟩
    · exact forall_mem_nil _
    · exact forall_mem_singleton.mpr ⟨isKnown, rfl⟩
  constructor
  · refine forall_mem_append.mpr ⟨fun earlier mem => ?_, forall_mem_cons.mpr ⟨?_, ?_⟩⟩
    · exact inv.creator earlier (mem_append_left _ mem)
    · exact inv.creator version (by simp)
    · exact fun successor mem => (fresh successor mem).1
  · refine forall_mem_append.mpr ⟨fun earlier mem => ?_, forall_mem_cons.mpr ⟨?_, ?_⟩⟩
    · exact inv.deleter earlier (mem_append_left _ mem)
    · rintro _ ⟨⟩
      exact isKnown
    · intro successor mem author deleted
      rw [(fresh successor mem).2] at deleted
      cases deleted
  · refine pairwise_append.mpr ⟨(pairwise_append.mp inv.closed).1, ?_, ?_⟩
    · rcases successorsNew with rfl | ⟨values, rfl⟩
      · exact pairwise_singleton _ _
      · simp
    · intro earlier inOlder _ _
      exact inv.older_closed earlier inOlder

end ChainInv

def HasBegun (begun : List MvccTransaction) (txnId : Nat) : Prop := ∃ txn ∈ begun, txn.id = txnId

instance (begun : List MvccTransaction) (txnId : Nat) :
    Decidable (HasBegun begun txnId) :=
  inferInstanceAs (Decidable (∃ txn ∈ begun, txn.id = txnId))

/-- The relations between a manager and the handles it has handed out. -/
structure ManagerInv (mgr : MvccTxnManager)
    (begun : List MvccTransaction) : Prop where
  idBelow : ∀ txn ∈ begun, 0 < txn.id ∧ txn.id < mgr.nextTxnId
  unique : ∀ first ∈ begun, ∀ second ∈ begun, first.id = second.id → first = second
  snapshotLe : ∀ txn ∈ begun, txn.snapshotId ≤ mgr.commitId
  recorded : ∀ txnId state, mgr.txnStates.lookup txnId = some state → HasBegun begun txnId
  committedBetween : ∀ txn ∈ begun, ∀ cid, mgr.txnStates.lookup txn.id = some (.committed cid) →
    txn.snapshotId < cid ∧ cid ≤ mgr.commitId
  snapshots : ∀ txnId snapshot, mgr.activeSnapshots.lookup txnId = some snapshot ↔
    mgr.txnStates.lookup txnId = some .inProgress ∧
      ∃ txn ∈ begun, txn.id = txnId ∧ txn.snapshotId = snapshot
  nextPositive : 0 < mgr.nextTxnId

namespace ManagerInv

variable {mgr : MvccTxnManager} {begun : List MvccTransaction}

theorem new : ManagerInv .new [] := by
  constructor <;> simp [MvccTxnManager.new, HasBegun]

theorem lookup_next {txnId : Nat} (inv : ManagerInv mgr begun) (later : mgr.nextTxnId ≤ txnId) :
    mgr.txnStates.lookup txnId = none := by
  cases found : mgr.txnStates.lookup txnId with
  | none => rfl
  | some state =>
    obtain ⟨txn, mem, sameId⟩ := inv.recorded txnId state found
    have below := (inv.idBelow txn mem).2
    omega

theorem committed_le {txnId cid : Nat} (inv : ManagerInv mgr begun)
    (committed : mgr.txnStates.lookup txnId = some (.committed cid)) : cid ≤ mgr.commitId := by
  obtain ⟨txn, mem, rfl⟩ := inv.recorded txnId _ committed
  exact (inv.committedBetween txn mem cid committed).2

theorem beginWithIsolation (inv : ManagerInv mgr begun) (level : IsolationLevel) :
    ManagerInv (mgr.beginWithIsolation level).2 (begun ++ [(mgr.beginWithIsolation level).1]) := by
  have nextPositive := inv.nextPositive
  have oldId : ∀ txn ∈ begun, txn.id ≠ mgr.nextTxnId := by
    intro txn mem
    have below := (inv.idBelow txn mem).2
    omega
  constructor
  · simp only [MvccTxnManager.beginWithIsolation]
    refine forall_mem_append.mpr ⟨fun txn old => ?_, forall_mem_singleton.mpr ?_⟩
    · have below := inv.idBelow txn old
      omega
    · exact ⟨nextPositive, Nat.lt_succ_self _⟩
  · intro first firstMember second secondMember sameId
    simp only [mem_append, mem_singleton] at firstMember
    simp only [mem_append, mem_singleton] at secondMember
    rcases firstMember with firstOld | rfl <;> rcases secondMember with secondOld | rfl
    · exact inv.unique first firstOld second secondOld sameId
    · exact absurd sameId (oldId first firstOld)
    · exact absurd sameId.symm (oldId second secondOld)
    · rfl
  · exact forall_mem_append.mpr
      ⟨inv.snapshotLe, forall_mem_singleton.mpr (le_refl mgr.commitId)⟩
  · intro txnId state found
    simp only [MvccTxnManager.beginWithIsolation, lookup_insert_eq] at found
    split at found
    · next isNext => exact ⟨_, mem_append_right _ (mem_singleton_self _), isNext.symm⟩
    · obtain ⟨txn, mem, sameId⟩ := inv.recorded txnId state found
      exact ⟨txn, mem_append_left _ mem, sameId⟩
  · intro txn mem cid found
    simp only [MvccTxnManager.beginWithIsolation, lookup_insert_eq] at found
    split at found
    · cases found
    · next notNext =>
      rcases mem_append.mp mem with old | isNew
      · exact inv.committedBetween txn old cid found
      · rw [mem_singleton] at isNew
        subst isNew
        exact absurd rfl notNext
  · intro txnId snapshot
    simp only [MvccTxnManager.beginWithIsolation, lookup_insert_eq]
    by_cases isNext : txnId = mgr.nextTxnId
    · subst isNext
      simp only [if_true, true_and, Option.some.injEq, mem_append, mem_singleton]
      constructor
      · intro same
        exact ⟨_, .inr rfl, rfl, same⟩
      · rintro ⟨txn, old | rfl, sameId, sameSnapshot⟩
        · exact absurd sameId (oldId txn old)
        · exact sameSnapshot
    · rw [if_neg isNext, if_neg isNext, inv.snapshots]
      simp only [mem_append, mem_singleton]
      constructor
      · rintro ⟨running, txn, mem, sameId, sameSnapshot⟩
        exact ⟨running, txn, .inl mem, sameId, sameSnapshot⟩
      · rintro ⟨running, txn, old | rfl, sameId, sameSnapshot⟩
        · exact ⟨running, txn, old, sameId, sameSnapshot⟩
        · exact absurd sameId.symm isNext
  · simp [MvccTxnManager.beginWithIsolation]

variable {txn : MvccTransaction}

variable (inv : ManagerInv mgr begun)

include inv

/-- Finishing a transaction, with the commit counter possibly advanced to
the id it commits under. -/
theorem finish {commitId : Nat} {state : TxnState} (mem : txn ∈ begun)
    (advanced : mgr.commitId ≤ commitId) (final : state ≠ .inProgress)
    (fresh : ∀ cid, state = .committed cid → mgr.commitId < cid ∧ cid ≤ commitId) :
    ManagerInv ({ mgr with commitId := commitId }.finish txn.id state) begun := by
  constructor
  · exact inv.idBelow
  · exact inv.unique
  · intro other otherMember
    exact le_trans (inv.snapshotLe other otherMember) advanced
  · intro txnId other found
    simp only [MvccTxnManager.finish, lookup_insert_eq] at found
    split at found
    · next same => exact ⟨txn, mem, same.symm⟩
    · exact inv.recorded txnId other found
  · intro other otherMember cid found
    simp only [MvccTxnManager.finish, lookup_insert_eq] at found ⊢
    have snapshotLe := inv.snapshotLe other otherMember
    split at found
    · cases found
      have between := fresh cid rfl
      omega
    · have between := inv.committedBetween other otherMember cid found
      omega
  · intro txnId snapshot
    simp only [MvccTxnManager.finish, lookup_insert_eq, lookup_erase_eq]
    by_cases same : txnId = txn.id
    · simp [same, final]
    · rw [if_neg same, if_neg same]
      exact inv.snapshots txnId snapshot
  · exact inv.nextPositive

theorem commit (mem : txn ∈ begun) : ManagerInv (mgr.commit txn.id).2 begun := by
  refine inv.finish mem (Nat.le_succ _) (by simp) ?_
  intro cid same
  cases same
  omega

theorem rollback (mem : txn ∈ begun) : ManagerInv (mgr.rollback txn.id) begun :=
  inv.finish mem (le_refl mgr.commitId) (by simp) (by simp)

theorem cleanupAborted : ManagerInv mgr.cleanupAborted.2 begun := by
  have kept : ∀ txnId state, mgr.cleanupAborted.2.txnStates.lookup txnId = some state ↔
        mgr.txnStates.lookup txnId = some state ∧ state ≠ .aborted := by
    intro txnId state
    simp only [MvccTxnManager.cleanupAborted, lookup_retain_eq,
      Option.filter_eq_some_iff, decide_eq_true_eq]
  constructor
  · exact inv.idBelow
  · exact inv.unique
  · exact inv.snapshotLe
  · intro txnId state found
    exact inv.recorded txnId state ((kept txnId state).mp found).1
  · intro txn mem cid found
    exact inv.committedBetween txn mem cid ((kept txn.id _).mp found).1
  · intro txnId snapshot
    have untouched : mgr.cleanupAborted.2.activeSnapshots = mgr.activeSnapshots := rfl
    rw [kept, untouched]
    simpa using inv.snapshots txnId snapshot
  · exact inv.nextPositive

end ManagerInv

namespace MvccWorld

structure Consistent (world : MvccWorld) : Prop where
  manager : ManagerInv world.mgr world.begun
  chains : ∀ chain ∈ world.table.rows, ChainInv (HasBegun world.begun) chain

variable {world : MvccWorld}

theorem consistent_initial (initially : world.Initial) : world.Consistent := by
  obtain ⟨name, columnNames, rfl⟩ := initially
  exact ⟨.new, fun chain mem => absurd mem not_mem_nil⟩

theorem hasBegun_apply {txnId : Nat} (action : MvccAction) (begun : HasBegun world.begun txnId) :
    HasBegun (world.apply action).begun txnId := by
  obtain ⟨txn, mem, sameId⟩ := begun
  exact ⟨txn, mem_begun_apply action mem, sameId⟩

theorem consistent_apply {action : MvccAction} (inv : world.Consistent)
    (admissible : ∀ txn, action.author = some txn → world.Running txn) :
    (world.apply action).Consistent := by
  have manager : ManagerInv (world.apply action).mgr (world.apply action).begun := by
    cases action with
    | beginWithIsolation level => exact inv.manager.beginWithIsolation level
    | commit txn => exact inv.manager.commit (admissible txn rfl).1
    | rollback txn => exact inv.manager.rollback (admissible txn rfl).1
    | cleanupAborted => exact inv.manager.cleanupAborted
    | insert txn values | vacuum => exact inv.manager
    | update txn rowIdx newValues | delete txn rowIdx =>
      simp only [apply]
      split <;> exact inv.manager
  have authorBegun : ∀ txn, action.author = some txn → HasBegun (world.apply action).begun txn.id :=
    fun txn isAuthor => hasBegun_apply action ⟨txn, (admissible txn isAuthor).1, rfl⟩
  have oldChains :
      ∀ chain ∈ world.table.rows, ChainInv (HasBegun (world.apply action).begun) chain :=
    fun chain mem => (inv.chains chain mem).mono fun _ => hasBegun_apply action
  refine ⟨manager, ?_⟩
  have change := apply_rows world action
  generalize (world.apply action).table.rows = rows at change ⊢
  cases change with
  | unchanged => exact oldChains
  | inserted isInsert =>
    intro chain mem
    rcases mem_append.mp mem with old | isNew
    · exact oldChains chain old
    · rw [mem_singleton] at isNew
      subst isNew
      exact .new (authorBegun _ (by rw [isInsert]; rfl)) _
  | superseded isTarget checked held opened =>
    intro chain mem
    rcases mem_or_eq_of_mem_set mem with old | rfl
    · exact oldChains chain old
    · exact (oldChains _ (mem_of_getElem? held)).superseded
        (authorBegun _ (MvccAction.author_of_target isTarget))
        (MvccAction.successors_of_target isTarget)
  | vacuumed isVacuum =>
    intro chain mem
    obtain ⟨before, beforeMember, rfl⟩ := mem_map.mp mem
    exact (oldChains before beforeMember).filter _

theorem consistent_step {next : MvccWorld} {action : MvccAction} (inv : world.Consistent)
    (enabled : world.step action = some next) : next.Consistent := by
  obtain ⟨admissible, rfl⟩ := step_eq_some_iff.mp enabled
  exact consistent_apply inv admissible

theorem Reachable.consistent (reachable : world.Reachable) : world.Consistent :=
  GuardedRun.Reachable.invariant reachable
    (fun _ => consistent_initial) (fun _ _ _ => consistent_step)

end MvccWorld

end TurboGP.Txn
