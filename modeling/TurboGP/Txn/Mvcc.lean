import Mathlib.Algebra.GroupWithZero.Nat
import Mathlib.Data.Finset.Basic
import TurboGP.Lib.FiniteMap
import TurboGP.Lib.VersionChain

/-!
# The MVCC transaction manager

Row versions, the version-chain table and the transaction manager of
`txn/mvcc.rs`.
-/

namespace TurboGP.Txn

open Option

/-- A cell of a column: the raw 64-bit word. -/
abbrev Cell := UInt64

/-- The commit state of a transaction; a committed one carries the commit id
it was given. -/
inductive TxnState
  | inProgress
  | committed (commitId : Nat)
  | aborted
  deriving DecidableEq, Repr

/-- One version of a row.  `xmin` created it, `xmax` deleted it (`none`: it is
live). -/
structure RowVersion where
  xmin : Nat
  xmax : Option Nat
  values : List Cell
  deleted : Bool
  deriving DecidableEq, Repr

namespace RowVersion

def new (txnId : Nat) (values : List Cell) : RowVersion :=
  { xmin := txnId, xmax := none, values := values, deleted := false }

def delete (version : RowVersion) (txnId : Nat) : RowVersion :=
  { version with xmax := some txnId }

@[simp]
theorem new_xmin (txnId : Nat) (values : List Cell) : (new txnId values).xmin = txnId := rfl

@[simp]
theorem new_xmax (txnId : Nat) (values : List Cell) : (new txnId values).xmax = none := rfl

@[simp]
theorem new_values (txnId : Nat) (values : List Cell) : (new txnId values).values = values := rfl

@[simp]
theorem delete_xmin (version : RowVersion) (txnId : Nat) :
    (version.delete txnId).xmin = version.xmin := rfl

@[simp]
theorem delete_xmax (version : RowVersion) (txnId : Nat) :
    (version.delete txnId).xmax = some txnId := rfl

end RowVersion

/-! ## The version-chain table -/

/-- The part `MvccTable::delete` and `MvccTable::update` share: mark the last
version of a chain as deleted, unless it already is. -/
def tombstone (txnId : Nat) (chain : List RowVersion) : Option (List RowVersion) :=
  match chain.getLast? with
  | some version =>
    if version.xmax.isNone then
      some (chain.dropLast ++ [version.delete txnId])
    else none
  | none => none

theorem tombstone_eq_some_iff {txnId : Nat} {chain marked : List RowVersion} :
    tombstone txnId chain = some marked ↔ ∃ older version,
        chain = older ++ [version] ∧ version.xmax = none ∧
          marked = older ++ [version.delete txnId] := by
  induction chain using List.reverseRecOn with
  | nil => simp [tombstone]
  | append_singleton older newest _ =>
    simp only [tombstone, List.getLast?_concat, List.dropLast_concat, isNone_iff_eq_none]
    constructor
    · intro isMarked
      split at isMarked
      · next opened =>
        cases isMarked
        exact ⟨older, newest, rfl, opened, rfl⟩
      · cases isMarked
    · rintro ⟨otherOlder, version, same, opened, rfl⟩
      obtain ⟨rfl, sameNewest⟩ := List.append_inj' same rfl
      cases sameNewest
      rw [if_pos opened]

structure MvccTable where
  name : String
  columnNames : List String
  rows : List (List RowVersion)
  deriving DecidableEq, Repr

namespace MvccTable

def new (name : String) (columnNames : List String) : MvccTable :=
  { name := name, columnNames := columnNames, rows := [] }

/-- Append a chain with one version; returns the index of the new row. -/
def insert (table : MvccTable) (txnId : Nat) (values : List Cell) : Nat × MvccTable :=
  (table.rows.length, { table with rows := table.rows ++ [[RowVersion.new txnId values]] })

def delete (table : MvccTable) (txnId : Nat) (rowIdx : Nat) : Bool × MvccTable :=
  match table.rows[rowIdx]?.bind (tombstone txnId) with
  | some chain => (true, { table with rows := table.rows.set rowIdx chain })
  | none => (false, table)

/-- Mark the last version of a row as deleted and append a new one. -/
def update (table : MvccTable) (txnId : Nat) (rowIdx : Nat)
    (newValues : List Cell) : Bool × MvccTable :=
  match table.rows[rowIdx]?.bind (tombstone txnId) with
  | some chain =>
    (true,
      { table with
        rows := table.rows.set rowIdx (chain ++ [RowVersion.new txnId newValues]) })
  | none => (false, table)

def rowVersions (table : MvccTable) (rowIdx : Nat) : List RowVersion := table.rows[rowIdx]?.getD []

def rowCount (table : MvccTable) : Nat := table.rows.length

def LastOpen (table : MvccTable) (rowIdx : Nat) : Prop :=
  ∃ older version, table.rows[rowIdx]? = some (older ++ [version]) ∧ version.xmax = none

theorem lastOpen_iff (table : MvccTable) (rowIdx : Nat) : table.LastOpen rowIdx ↔
      (table.rowVersions rowIdx).getLast?.any (fun version => version.xmax.isNone) = true := by
  unfold LastOpen rowVersions
  cases table.rows[rowIdx]? with
  | none => simp
  | some chain =>
    simp only [getD_some, any_eq_true, isNone_iff_eq_none, some.injEq]
    constructor
    · rintro ⟨older, version, rfl, opened⟩
      exact ⟨version, List.getLast?_concat, opened⟩
    · rintro ⟨version, isLast, opened⟩
      obtain ⟨older, rfl⟩ := List.getLast?_eq_some_iff.mp isLast
      exact ⟨older, version, rfl, opened⟩

instance (table : MvccTable) (rowIdx : Nat) : Decidable (table.LastOpen rowIdx) :=
  decidable_of_iff _ (lastOpen_iff table rowIdx).symm

theorem tombstone_row_cases (table : MvccTable) (txnId rowIdx : Nat) : (∃ older version,
        table.rows[rowIdx]? = some (older ++ [version]) ∧ version.xmax = none ∧
            table.rows[rowIdx]?.bind (tombstone txnId) = some (older ++ [version.delete txnId])) ∨
      (¬ table.LastOpen rowIdx ∧ table.rows[rowIdx]?.bind (tombstone txnId) = none) := by
  cases marked : table.rows[rowIdx]?.bind (tombstone txnId) with
  | some chain =>
    obtain ⟨before, held, isMarked⟩ := bind_eq_some_iff.mp marked
    obtain ⟨older, version, rfl, opened, rfl⟩ := tombstone_eq_some_iff.mp isMarked
    exact .inl ⟨older, version, held, opened, rfl⟩
  | none =>
    refine .inr ⟨?_, rfl⟩
    rintro ⟨older, version, held, opened⟩
    rw [held, bind_some,
      tombstone_eq_some_iff.mpr ⟨older, version, rfl, opened, rfl⟩] at marked
    cases marked

theorem delete_cases (table : MvccTable) (txnId rowIdx : Nat) : (∃ older version,
        table.rows[rowIdx]? = some (older ++ [version]) ∧ version.xmax = none ∧
            (table.delete txnId rowIdx).2.rows =
              table.rows.set rowIdx (older ++ [version.delete txnId])) ∨
      (¬ table.LastOpen rowIdx ∧ (table.delete txnId rowIdx).2 = table) := by
  rcases tombstone_row_cases table txnId rowIdx with
    ⟨older, version, held, opened, marked⟩ | ⟨closed, notMarked⟩
  · refine .inl ⟨older, version, held, opened, ?_⟩
    rw [delete, marked]
  · refine .inr ⟨closed, ?_⟩
    rw [delete, notMarked]

theorem update_cases (table : MvccTable) (txnId rowIdx : Nat) (newValues : List Cell) :
    (∃ older version, table.rows[rowIdx]? = some (older ++ [version]) ∧ version.xmax = none ∧
            (table.update txnId rowIdx newValues).2.rows = table.rows.set rowIdx
                (older ++ [version.delete txnId, RowVersion.new txnId newValues])) ∨
      (¬ table.LastOpen rowIdx ∧ (table.update txnId rowIdx newValues).2 = table) := by
  rcases tombstone_row_cases table txnId rowIdx with
    ⟨older, version, held, opened, marked⟩ | ⟨closed, notMarked⟩
  · refine .inl ⟨older, version, held, opened, ?_⟩
    rw [update, marked]
    simp
  · refine .inr ⟨closed, ?_⟩
    rw [update, notMarked]

end MvccTable

/-! ## Transactions and the manager -/

inductive IsolationLevel
  | readUncommitted
  | readCommitted
  | repeatableRead
  | serializable
  deriving DecidableEq, Repr

instance : Inhabited IsolationLevel := ⟨.repeatableRead⟩

structure MvccTransaction where
  id : Nat
  snapshotId : Nat
  state : TxnState
  isolationLevel : IsolationLevel
  deriving DecidableEq, Repr

structure ConflictError where
  message : String
  conflictingTxn : Nat
  deriving DecidableEq, Repr

/-- The numbers are `u64` in the source and grow by one with every BEGIN or
COMMIT; they are taken to stay below 2 ^ 64. -/
structure MvccTxnManager where
  nextTxnId : Nat
  commitId : Nat
  txnStates : Finmap (fun _ : Nat => TxnState)
  active : Finset Nat
  activeSnapshots : Finmap (fun _ : Nat => Nat)
  currentActive : Option MvccTransaction
  deriving DecidableEq

namespace MvccTxnManager

def new : MvccTxnManager :=
  { nextTxnId := 1, commitId := 0, txnStates := ∅, active := ∅, activeSnapshots := ∅
    currentActive := none }

def beginWithIsolation (mgr : MvccTxnManager) (level : IsolationLevel) :
    MvccTransaction × MvccTxnManager :=
  let txn : MvccTransaction :=
    { id := mgr.nextTxnId, snapshotId := mgr.commitId, state := .inProgress
      isolationLevel := level }
  (txn,
    { mgr with
      nextTxnId := mgr.nextTxnId + 1
      txnStates := mgr.txnStates.insert txn.id .inProgress
      active := insert txn.id mgr.active
      activeSnapshots := mgr.activeSnapshots.insert txn.id txn.snapshotId
      currentActive := some txn })

def begin (mgr : MvccTxnManager) : MvccTransaction × MvccTxnManager :=
  mgr.beginWithIsolation default

/-- The bookkeeping `commit` and `rollback` share: record the final state and
forget the transaction among the active ones. -/
def finish (mgr : MvccTxnManager) (txnId : Nat) (state : TxnState) : MvccTxnManager :=
  { mgr with
    txnStates := mgr.txnStates.insert txnId state
    active := mgr.active.erase txnId
    activeSnapshots := mgr.activeSnapshots.erase txnId
    currentActive :=
      match mgr.currentActive with
      | some active => if active.id = txnId then none else some active
      | none => none }

def commit (mgr : MvccTxnManager) (txnId : Nat) : Nat × MvccTxnManager :=
  let cid := mgr.commitId + 1
  (cid, { mgr with commitId := cid }.finish txnId (.committed cid))

def rollback (mgr : MvccTxnManager) (txnId : Nat) : MvccTxnManager := mgr.finish txnId .aborted

/-! ### The single-transaction interface of the engine -/

def beginCompat (mgr : MvccTxnManager) : Except String (Nat × MvccTxnManager) :=
  if mgr.currentActive.isSome then
    .error "a transaction is already active"
  else
    let (txn, next) := mgr.begin
    .ok (txn.id, next)

def commitCompat (mgr : MvccTxnManager) : Except String (Nat × MvccTxnManager) :=
  match mgr.currentActive with
  | none => .error "no active transaction"
  | some txn => .ok ({ mgr with currentActive := none }.commit txn.id)

def rollbackCompat (mgr : MvccTxnManager) : Except String (Nat × MvccTxnManager) :=
  match mgr.currentActive with
  | none => .error "no active transaction"
  | some txn => .ok (txn.id, { mgr with currentActive := none }.rollback txn.id)

def isActive (mgr : MvccTxnManager) : Bool := mgr.currentActive.isSome

def activeId (mgr : MvccTxnManager) : Option Nat := mgr.currentActive.map MvccTransaction.id

def activeSnapshotId (mgr : MvccTxnManager) : Option Nat :=
  mgr.currentActive.map MvccTransaction.snapshotId

def activeIsolationLevel (mgr : MvccTxnManager) : Option IsolationLevel :=
  mgr.currentActive.map MvccTransaction.isolationLevel

/-- The state of a transaction; one without an entry counts as aborted. -/
def txnState (mgr : MvccTxnManager) (txnId : Nat) : TxnState :=
  (mgr.txnStates.lookup txnId).getD .aborted

theorem lookup_of_committed {mgr : MvccTxnManager} {txnId cid : Nat}
    (committed : mgr.txnState txnId = .committed cid) :
    mgr.txnStates.lookup txnId = some (.committed cid) :=
  (getD_eq_iff.mp committed).resolve_right fun absent => nomatch absent.2

def currentCommitId (mgr : MvccTxnManager) : Nat := mgr.commitId

/-- Drop the entries of aborted transactions; returns how many there were. -/
def cleanupAborted (mgr : MvccTxnManager) : Nat × MvccTxnManager :=
  let kept := FiniteMap.retain (fun state => decide (state ≠ .aborted)) mgr.txnStates
  (mgr.txnStates.keys.card - kept.keys.card, { mgr with txnStates := kept })

/-- The smallest snapshot among the in-progress transactions, the current
commit id if there is none. -/
def oldestActiveSnapshot (mgr : MvccTxnManager) : Nat :=
  FiniteMap.leastAdmitted
    (fun txnId => decide (mgr.txnStates.lookup txnId = some .inProgress))
    mgr.commitId mgr.activeSnapshots

def oldestActiveSnapshotOrCurrent (mgr : MvccTxnManager) : Nat := mgr.oldestActiveSnapshot

/-! ### Visibility -/

/-- Visibility for a reader given by its snapshot and id; the autocommit
reader passes the id `0`. -/
def isVisibleWithSnapshot (mgr : MvccTxnManager) (version : RowVersion)
    (snapshotId activeTxnId : Nat) : Bool :=
  let committedBefore (author : Nat) : Bool :=
    match mgr.txnState author with
    | .committed cid => decide (cid ≤ snapshotId)
    | _ => false
  if version.xmin ≠ activeTxnId ∧ committedBefore version.xmin = false then
    false
  else
    match version.xmax with
    | none => true
    | some xmax =>
      if xmax = activeTxnId then false
      else !committedBefore xmax

def txnVisibleToSnapshot (mgr : MvccTxnManager) (authorId snapshotId : Nat) : Bool :=
  match mgr.txnStates.lookup authorId with
  | some (.committed cid) => decide (cid ≤ snapshotId)
  | _ => false

def xminVisible (mgr : MvccTxnManager) (version : RowVersion) (txn : MvccTransaction) : Bool :=
  decide (version.xmin = txn.id) ||
    match txn.isolationLevel with
    | .readUncommitted =>
      match mgr.txnStates.lookup version.xmin with
      | some .inProgress => true
      | some (.committed _) => true
      | _ => false
    | _ => mgr.txnVisibleToSnapshot version.xmin txn.snapshotId

def visible (mgr : MvccTxnManager) (version : RowVersion) (txn : MvccTransaction) : Bool :=
  if mgr.xminVisible version txn = false then false
  else
    match version.xmax with
    | none => true
    | some xmax =>
      if xmax = txn.id then false
      else !mgr.txnVisibleToSnapshot xmax txn.snapshotId

/-- The newest version of a chain that `txn` sees: the inner loop of
`scan_visible` and the search of `check_write_conflict`. -/
def latestVisible (mgr : MvccTxnManager) (txn : MvccTransaction)
    (chain : List RowVersion) : Option RowVersion :=
  VersionChain.latest (fun version => mgr.visible version txn) chain

def scanVisible (mgr : MvccTxnManager) (table : MvccTable)
    (txn : MvccTransaction) : List RowVersion :=
  table.rows.filterMap (mgr.latestVisible txn)

/-! ### Write-write conflicts -/

def checkWriteConflict (mgr : MvccTxnManager) (table : MvccTable)
    (txn : MvccTransaction) (rowIdx : Nat) : Except ConflictError Unit :=
  match table.rows[rowIdx]? with
  | none => .ok ()
  | some chain =>
    match mgr.latestVisible txn chain with
    | none => .ok ()
    | some version =>
      match version.xmax with
      | none => .ok ()
      | some xmax =>
        if xmax = txn.id then .ok ()
        else
          match mgr.txnStates.lookup xmax with
          | some .inProgress =>
            .error
              { message :=
                  s!"write-write conflict: row {rowIdx} is being modified by active transaction {xmax}"
                conflictingTxn := xmax }
          | some (.committed cid) =>
            if txn.snapshotId < cid then
              .error
                { message :=
                    s!"write-write conflict: row {rowIdx} was modified by transaction {xmax} (committed after our snapshot)"
                  conflictingTxn := xmax }
            else
              .error
                { message :=
                    s!"write-write conflict: row {rowIdx} was already deleted before our snapshot"
                  conflictingTxn := xmax }
          | some .aborted => .ok ()
          | none => .ok ()

/-- `update_with_conflict_check`: the table after an accepted write.  The
flag `MvccTable::update` returns is dropped, as in the source. -/
def updateWithConflictCheck (mgr : MvccTxnManager) (table : MvccTable)
    (txn : MvccTransaction) (rowIdx : Nat) (newValues : List Cell) :
    Except ConflictError MvccTable := do
  mgr.checkWriteConflict table txn rowIdx
  return (table.update txn.id rowIdx newValues).2

def deleteWithConflictCheck (mgr : MvccTxnManager) (table : MvccTable)
    (txn : MvccTransaction) (rowIdx : Nat) :
    Except ConflictError MvccTable := do
  mgr.checkWriteConflict table txn rowIdx
  return (table.delete txn.id rowIdx).2

/-! ### Garbage collection -/

/-- The `retain` filter of `vacuum`. -/
def keepsVersion (mgr : MvccTxnManager) (oldest : Nat) (version : RowVersion) : Bool :=
  if mgr.txnStates.lookup version.xmin = some .aborted then false
  else
    match version.xmax with
    | none => true
    | some xmax =>
      match mgr.txnStates.lookup xmax with
      | some (.committed cid) => !decide (cid ≤ oldest)
      | _ => true

def vacuumChain (mgr : MvccTxnManager) (oldest : Nat) (chain : List RowVersion) : List RowVersion :=
  chain.filter (mgr.keepsVersion oldest)

/-- Drop the dead versions of every table; returns how many were dropped. -/
def vacuum (mgr : MvccTxnManager) (tables : List MvccTable) : Nat × List MvccTable :=
  let oldest := mgr.oldestActiveSnapshot
  let removedFrom (table : MvccTable) : Nat :=
    (table.rows.map (fun chain => chain.length - (mgr.vacuumChain oldest chain).length)).sum
  ((tables.map removedFrom).sum, tables.map (fun table =>
        { table with rows := table.rows.map (mgr.vacuumChain oldest) }))

end MvccTxnManager

end TurboGP.Txn
