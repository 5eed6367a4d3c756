import TurboGP.Engine.State

/-!
# Scanning a table

The scan path of `engine/executor.rs` for `SELECT * FROM t`: which rows the
reader sees is decided by the version chains, what they hold is read from the
columns.
-/

namespace TurboGP.Engine

open Datasource Txn RowVersion VersionChain List

/-- Whether row `i` is visible to the active transaction, or to the autocommit
reader when there is none.  A row without versions is visible to everyone. -/
def rowVisibleToActive (table : Table) (mgr : MvccTxnManager) (i : Nat) : Bool :=
  match table.rowVersions[i]? with
  | none => true
  | some chain =>
    if chain.isEmpty then true
    else
      chain.reverse.any
        (fun version => mgr.isVisibleWithSnapshot version
            (mgr.activeSnapshotId.getD mgr.currentCommitId) (mgr.activeId.getD 0))

variable {table : Table} {mgr : MvccTxnManager}

variable {i : Nat} {host : Host} {res : QueryResult}

theorem rowVisibleToActive_iff : rowVisibleToActive table mgr i = true ↔
      table.chainAt i = [] ∨
        ∃ version ∈ table.chainAt i, mgr.isVisibleWithSnapshot version
          (mgr.activeSnapshotId.getD mgr.currentCommitId) (mgr.activeId.getD 0) = true := by
  unfold rowVisibleToActive Table.chainAt
  cases table.rowVersions[i]? with
  | none => simp
  | some chain => cases chain <;> simp [or_comm]

def seenAuthors (mgr : MvccTxnManager) : Set Nat :=
  {author |
    author = mgr.activeId.getD 0 ∨
      mgr.CommittedBy (mgr.activeSnapshotId.getD mgr.currentCommitId) author}

theorem rowVisibleToActive_iff_sees : rowVisibleToActive table mgr i = true ↔
      table.chainAt i = [] ∨
        ∃ version ∈ table.chainAt i,
          Sees xmin xmax (seenAuthors mgr) (seenAuthors mgr) version := by
  have sees : ∀ version, mgr.isVisibleWithSnapshot version
            (mgr.activeSnapshotId.getD mgr.currentCommitId) (mgr.activeId.getD 0) = true ↔
        Sees xmin xmax (seenAuthors mgr) (seenAuthors mgr) version := by
    intro version
    rw [MvccTxnManager.isVisibleWithSnapshot_iff]
    simp only [Sees, seenAuthors, Set.mem_ofPred_eq, not_or]
  rw [rowVisibleToActive_iff]
  simp only [sees]

/-- The slices of a list, `size` elements each. -/
def chunks {α : Type*} (size : Nat) (xs : List α) : List (List α) :=
  (range ((xs.length + size - 1) / size)).map (fun k => (xs.drop (k * size)).take size)

/-- `parallel_scan`: the answers of the morsels one behind the other.  That of a
worker that panics is dropped; without workers the panic is passed on. -/
def parallelScan {α β : Type*} (rowIndices : List α) (numThreads morselSize : Nat)
    (worker : List α → Except Fault (List β)) : Except Fault (List β) :=
  if rowIndices.isEmpty then .ok []
  else if
      rowIndices.length ≤ morselSize ∨ numThreads ≤ 1 ∨ morselSize = 0 then
    worker rowIndices
  else
    .ok ((chunks morselSize rowIndices).flatMap fun morsel => (worker morsel).toOption.getD [])

private theorem flatMap_slices {α : Type*} (size count : Nat) (xs : List α) :
    (range count).flatMap (fun k => (xs.drop (k * size)).take size) =
      xs.take (count * size) := by
  induction count with
  | zero => simp
  | succ count ih =>
    rw [range_succ, flatMap_append, ih, Nat.succ_mul, take_add]
    simp

theorem flatten_chunks {α : Type*} {size : Nat} (pos : 0 < size) (xs : List α) :
    (chunks size xs).flatten = xs := by
  have covers : xs.length ≤ (xs.length + size - 1) / size * size := by
    have split := Nat.div_add_mod (xs.length + size - 1) size
    have small := Nat.mod_lt (xs.length + size - 1) pos
    rw [Nat.mul_comm] at split
    omega
  rw [chunks, ← flatMap_def, flatMap_slices, take_of_length_le covers]

theorem parallelScan_filterMap {α β : Type*} {rowIndices : List α} (numThreads morselSize : Nat)
    {worker : List α → Except Fault (List β)} {scan : α → Option β}
    (runs : ∀ morsel ⊆ rowIndices, worker morsel = .ok (morsel.filterMap scan)) :
    parallelScan rowIndices numThreads morselSize worker = .ok (rowIndices.filterMap scan) := by
  unfold parallelScan
  split
  · next empty => simp [isEmpty_iff.mp empty]
  · split
    · exact runs _ (Subset.refl _)
    · next divided =>
      have whole := flatten_chunks (show 0 < morselSize by omega) rowIndices
      refine congrArg Except.ok ?_
      calc
        _ = (chunks morselSize rowIndices).flatMap (filterMap scan) := by
          refine flatMap_congr fun morsel mem => ?_
          rw [runs morsel fun row inMorsel => whole ▸ mem_flatten_of_mem mem inMorsel]
          rfl
        _ = _ := by rw [flatMap_def, ← filterMap_flatten, whole]

/-- `filter_indices` without a WHERE clause; its workers do not panic. -/
def filterIndices (host : Host) (table : Table) (mvcc : Option MvccTxnManager) : List Nat :=
  let rowIndices := range table.rowCount
  match mvcc with
  | none => rowIndices
  | some mgr =>
    if 1000 < table.rowCount then
      (parallelScan rowIndices host.numThreads 256 (fun morsel =>
        .ok (morsel.filter (rowVisibleToActive table mgr)))).toOption.getD []
    else rowIndices.filter (rowVisibleToActive table mgr)

theorem filterIndices_some (host : Host) (table : Table) (mgr : MvccTxnManager) :
    filterIndices host table (some mgr) =
      (range table.rowCount).filter (rowVisibleToActive table mgr) := by
  unfold filterIndices
  simp only
  split
  · simp only [← filterMap_eq_filter]
    rw [parallelScan_filterMap _ _ fun _ _ => rfl]
    rfl
  · rfl

/-- The cells of the selected rows in one column; no NULL mask is made. -/
def scanColumn (table : Table) (indices : List Nat) (name : String)
    (i : Nat) : Except Fault ResultColumn := do
  let values ←
    indices.mapM
      (fun idx => do
        let column ← index table.columns i
        index column idx)
  return { name := name, values := values, stringValues := none,
           typeOid := 0, nullMask := none }

theorem scanColumn_eq_ok_iff {indices : List Nat} {name : String} {res : ResultColumn} :
    scanColumn table indices name i = .ok res ↔ ∃ values,
        List.Forall₂ (fun idx cell => table.cellOf i idx = some cell) indices values ∧
          res =
            { name := name, values := values, stringValues := none,
              typeOid := 0, nullMask := none } := by
  have cell : ∀ idx value, (do
            let column ← index table.columns i
            index column idx) = (.ok value : Except Fault Cell) ↔
          table.cellOf i idx = some value := by
    intro idx value
    unfold Table.cellOf
    cases found : table.columns[i]? with
    | none => simp [index, found, bind, Except.bind]
    | some column =>
      simp only [index, found, bind, Except.bind, Option.bind_some]
      exact index_eq_ok_iff
  unfold scanColumn
  cases read : indices.mapM
        (fun idx => do
          let column ← index table.columns i
          index column idx) with
  | error fault =>
    simp only [bind, Except.bind, reduceCtorEq, false_iff]
    rintro ⟨values, related, -⟩
    rw [Effect.mapM_eq_ok_iff.mpr (related.imp fun idx value => (cell idx value).mpr)] at read
    cases read
  | ok values =>
    simp only [bind, Except.bind, pure, Except.pure, Except.ok.injEq]
    have related := (Effect.mapM_eq_ok_iff.mp read).imp fun idx value => (cell idx value).mp
    constructor
    · rintro rfl
      exact ⟨values, related, rfl⟩
    · rintro ⟨others, otherRelated, rfl⟩
      rw [Effect.mapM_eq_ok_iff.mpr
        (otherRelated.imp fun idx value => (cell idx value).mpr)] at read
      cases read
      rfl

def executeSelectStar (host : Host) (table : Table) (limit : Option Nat)
    (mvcc : Option MvccTxnManager) : Except Fault QueryResult := do
  let visible := filterIndices host table mvcc
  let indices := visible.take (limit.getD visible.length)
  let columns ←
    table.columnNames.zipIdx.mapM (fun entry => scanColumn table indices entry.1 entry.2)
  return { columns := columns, rowCount := indices.length }

def selectStar (host : Host) (engine : QueryEngine) (name : String) : Except Fault QueryResult :=
  match engine.catalog.lookup name with
  | none => .error (.error (.notFound s!"table '{name}'"))
  | some table => executeSelectStar host table none (some engine.mvccTxnManager)

theorem executeSelectStar_eq_ok_iff :
    executeSelectStar host table none (some mgr) = .ok res ↔ ∃ columns,
        List.Forall₂ (fun entry column => scanColumn table
                  ((range table.rowCount).filter (rowVisibleToActive table mgr))
                  entry.1 entry.2 = .ok column)
            table.columnNames.zipIdx columns ∧
          res =
            { columns := columns
              rowCount :=
                ((range table.rowCount).filter (rowVisibleToActive table mgr)).length } := by
  unfold executeSelectStar
  simp only [filterIndices_some, Option.getD_none, take_length, ← Effect.mapM_eq_ok_iff]
  cases
    table.columnNames.zipIdx.mapM
      (fun entry => scanColumn table ((range table.rowCount).filter
            (rowVisibleToActive table mgr)) entry.1 entry.2) with
  | error fault => simp [bind, Except.bind]
  | ok columns =>
    simp only [bind, Except.bind, pure, Except.pure, Except.ok.injEq, exists_eq_left']
    exact eq_comm

theorem executeSelectStar_congr {old new : Table} {other : MvccTxnManager}
    (sameNames : new.columnNames = old.columnNames)
    (sameRows : (range new.rowCount).filter (rowVisibleToActive new other) =
        (range old.rowCount).filter (rowVisibleToActive old mgr))
    (sameCells : ∀ row < old.rowCount, rowVisibleToActive old mgr row = true →
        ∀ colIdx cell, old.cellOf colIdx row = some cell → new.cellOf colIdx row = some cell)
    (selected : executeSelectStar host old none (some mgr) = .ok res) :
    executeSelectStar host new none (some other) = .ok res := by
  obtain ⟨columns, scanned, rfl⟩ := executeSelectStar_eq_ok_iff.mp selected
  refine executeSelectStar_eq_ok_iff.mpr ⟨columns, ?_, by rw [sameRows]⟩
  rw [sameNames, sameRows]
  refine scanned.imp fun entry column read => ?_
  obtain ⟨values, cells, same⟩ := scanColumn_eq_ok_iff.mp read
  refine scanColumn_eq_ok_iff.mpr ⟨values, ?_, same⟩
  have members : ∀ idx ∈ (range old.rowCount).filter (rowVisibleToActive old mgr),
      idx < old.rowCount ∧ rowVisibleToActive old mgr idx = true := by
    intro idx mem
    obtain ⟨inRange, visible⟩ := mem_filter.mp mem
    exact ⟨mem_range.mp inRange, visible⟩
  have both := (forall₂_and_left _ _).mpr ⟨members, cells⟩
  refine both.imp fun idx cell facts => ?_
  exact sameCells idx facts.1.1 facts.1.2 entry.2 cell facts.2

end TurboGP.Engine
