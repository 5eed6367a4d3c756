import TurboGP.Datasource.Table
import TurboGP.Error
import TurboGP.Lib.Compaction

/-!
# The manager's operations on engine tables

The second half of `txn/mvcc.rs`: the conflict check and the garbage collection
for the tables of the catalog, whose cells live in columns beside the version
chains.
-/

namespace TurboGP.Txn.MvccTxnManager

open Datasource

def checkWriteConflictForTable (mgr : MvccTxnManager) (table : Table)
    (activeTxnId activeSnapshotId rowIdx : Nat) :
    Except ConflictError Unit :=
  match table.rowVersions[rowIdx]? with
  | none => .ok ()
  | some chain =>
    match
      VersionChain.latest
        (fun version => mgr.isVisibleWithSnapshot version activeSnapshotId activeTxnId)
        chain
    with
    | none => .ok ()
    | some version =>
      match version.xmax with
      | none => .ok ()
      | some xmax =>
        if xmax = activeTxnId then .ok ()
        else
          match mgr.txnState xmax with
          | .committed cid =>
            if activeSnapshotId < cid then
              .error
                { message :=
                    s!"write-write conflict: row {rowIdx} was modified by transaction {xmax} (committed at cid={cid}, after our snapshot {activeSnapshotId})"
                  conflictingTxn := xmax }
            else .ok ()
          | _ => .ok ()

/-- The `retain` filter of `vacuum_table`. -/
def keepsTableVersion (mgr : MvccTxnManager) (oldest : Nat) (version : RowVersion) : Bool :=
  match mgr.txnState version.xmin with
  | .aborted => false
  | _ =>
    match version.xmax with
    | none => true
    | some xmax =>
      match mgr.txnState xmax with
      | .committed cid => !decide (cid ≤ oldest)
      | _ => true

/-- Drop the dead versions of every chain and, when that leaves a row without
one, the row's entries of the columns, the NULL bitmaps and the chains; the
sidecars are left as they are.  Returns how many versions were dropped.  A
column too short for a surviving row panics. -/
def vacuumTable (mgr : MvccTxnManager) (table : Table) : Except Fault (Nat × Table) :=
  let oldest := mgr.oldestActiveSnapshotOrCurrent
  let chains := table.rowVersions.map (fun chain => chain.filter (mgr.keepsTableVersion oldest))
  let removed := (table.rowVersions.map (fun chain =>
        chain.length - (chain.filter (mgr.keepsTableVersion oldest)).length)).sum
  let liveIndices := (List.range chains.length).filter (fun i => !(chains[i]?.getD []).isEmpty)
  if liveIndices.length < table.rowCount then do
    let columns ← table.columns.mapM (fun column => liveIndices.mapM (index column))
    let compacted : Table :=
      { table with
        columns := columns
        nullBitmaps := table.nullBitmaps.map
            (Option.map (fun bitmap => { bits := liveIndices.map bitmap.isNull }))
        rowVersions := liveIndices.map (fun i => chains[i]?.getD [])
        rowCount := liveIndices.length }
    return (removed, compacted)
  else .ok (removed, { table with rowVersions := chains })

section

variable {mgr : MvccTxnManager} {version : RowVersion}

def CommittedBy (mgr : MvccTxnManager) (snapshotId author : Nat) : Prop :=
  ∃ cid, mgr.txnState author = .committed cid ∧ cid ≤ snapshotId

theorem isVisibleWithSnapshot_iff {snapshotId activeTxnId : Nat} :
    mgr.isVisibleWithSnapshot version snapshotId activeTxnId = true ↔ (version.xmin = activeTxnId ∨
          mgr.CommittedBy snapshotId version.xmin) ∧
        ∀ deleter, version.xmax = some deleter →
          deleter ≠ activeTxnId ∧ ¬ mgr.CommittedBy snapshotId deleter := by
  unfold isVisibleWithSnapshot CommittedBy
  cases version.xmax with
  | none =>
    by_cases own : version.xmin = activeTxnId <;>
      cases created : mgr.txnState version.xmin <;>
        simp [own, created]
  | some deleter =>
    by_cases own : version.xmin = activeTxnId <;>
      by_cases ownDelete : deleter = activeTxnId <;>
        cases created : mgr.txnState version.xmin <;>
          cases deleted : mgr.txnState deleter <;>
            simp_all

theorem keepsTableVersion_eq_false_iff {oldest : Nat} :
    mgr.keepsTableVersion oldest version = false ↔ mgr.txnState version.xmin = .aborted ∨
        ∃ deleter, version.xmax = some deleter ∧ mgr.CommittedBy oldest deleter := by
  unfold keepsTableVersion CommittedBy
  cases mgr.txnState version.xmin with
  | aborted => simp
  | inProgress | committed cid =>
    cases version.xmax with
    | none => simp
    | some deleter => cases found : mgr.txnState deleter <;> simp [found]

end

def keptChain (mgr : MvccTxnManager) (table : Table) (row : Nat) : List RowVersion :=
  (table.chainAt row).filter (mgr.keepsTableVersion mgr.oldestActiveSnapshotOrCurrent)

def keepsRow (mgr : MvccTxnManager) (table : Table) (row : Nat) : Bool :=
  !(mgr.keptChain table row).isEmpty

def keptRows (mgr : MvccTxnManager) (table : Table) : List Nat :=
  Compaction.kept (mgr.keepsRow table) table.rowVersions.length

variable {mgr : MvccTxnManager} {table : Table}

theorem keepsRow_iff {row : Nat} :
    mgr.keepsRow table row = true ↔ mgr.keptChain table row ≠ [] := by
  simp [keepsRow]

theorem lt_length_of_keepsRow {row : Nat} (keeps : mgr.keepsRow table row = true) :
    row < table.rowVersions.length := by
  refine Table.lt_length_of_chainAt fun empty => keepsRow_iff.mp keeps ?_
  rw [keptChain, empty]
  rfl

theorem getElem?_mapped_chains (row : Nat) : (table.rowVersions.map (fun chain =>
          chain.filter (mgr.keepsTableVersion mgr.oldestActiveSnapshotOrCurrent)))[row]?.getD [] =
      mgr.keptChain table row := by
  unfold keptChain Table.chainAt
  rw [List.getElem?_map]
  cases table.rowVersions[row]? <;> rfl

def droppedVersions (mgr : MvccTxnManager) (table : Table) : Nat :=
  (table.rowVersions.map (fun chain => chain.length -
        (chain.filter (mgr.keepsTableVersion mgr.oldestActiveSnapshotOrCurrent)).length)).sum

def compactedTable (mgr : MvccTxnManager) (table : Table) (columns : List (List Cell)) : Table :=
  { table with
    columns := columns
    nullBitmaps := table.nullBitmaps.map
        (Option.map
          (fun bitmap =>
            { bits := (mgr.keptRows table).map bitmap.isNull }))
    rowVersions := (mgr.keptRows table).map (mgr.keptChain table)
    rowCount := (mgr.keptRows table).length }

/-- The table the collection leaves when it only shortens chains. -/
def shortenedTable (mgr : MvccTxnManager) (table : Table) : Table :=
  { table with
    rowVersions := (List.range table.rowVersions.length).map (mgr.keptChain table) }

theorem vacuumTable_drops (drops : (mgr.keptRows table).length < table.rowCount) :
    mgr.vacuumTable table = (table.columns.mapM
        (fun column => (mgr.keptRows table).mapM (index column))).map
        (fun columns => (mgr.droppedVersions table, mgr.compactedTable table columns)) := by
  unfold vacuumTable
  simp only [getElem?_mapped_chains, List.length_map]
  refine (if_pos drops).trans ?_
  show (table.columns.mapM (fun column => (mgr.keptRows table).mapM (index column)) >>= _) = _
  cases table.columns.mapM (fun column => (mgr.keptRows table).mapM (index column)) <;> rfl

theorem vacuumTable_keeps (keeps : table.rowCount ≤ (mgr.keptRows table).length) :
    mgr.vacuumTable table = .ok (mgr.droppedVersions table, mgr.shortenedTable table) := by
  have sameChains : table.rowVersions.map
        (fun chain => chain.filter (mgr.keepsTableVersion mgr.oldestActiveSnapshotOrCurrent)) =
      (List.range table.rowVersions.length).map (mgr.keptChain table) := by
    refine List.ext_getElem (by simp) fun row inMapped _ => ?_
    have inRange : row < table.rowVersions.length := by
      simpa using inMapped
    simp [keptChain, Table.chainAt, inRange]
  unfold vacuumTable shortenedTable
  simp only [getElem?_mapped_chains, List.length_map]
  refine (if_neg (Nat.not_lt.mpr keeps)).trans ?_
  rw [sameChains]
  rfl

end TurboGP.Txn.MvccTxnManager
