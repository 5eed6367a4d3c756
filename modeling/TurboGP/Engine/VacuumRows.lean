import Mathlib.Data.Set.Card
import TurboGP.Engine.SessionInvariant

/-! # VACUUM and the rows of a table -/

namespace TurboGP.Engine

open Datasource Sql Txn Effect MvccTxnManager Compaction QueryEngine GuardedRun RowVersion List

/-! ## Readers -/

def Reads (mgr : MvccTxnManager) : Option MvccTransaction → Prop
  | none => True
  | some txn =>
    mgr.txnStates.lookup txn.id = some .inProgress ∧
      mgr.activeSnapshots.lookup txn.id = some txn.snapshotId

def readAs (mgr : MvccTxnManager) (reader : Option MvccTransaction) : MvccTxnManager :=
  { mgr with currentActive := reader }

/-! ## What the collection ought to do -/

/-- Everything a table keeps about a row beside its versions. -/
@[ext]
structure RowImage where
  cells : List (Option Cell)
  nulls : List (Option Bool)
  strings : List (Option (Option String))
  integers : List (Option (Option Int32))
  deriving DecidableEq

def rowImage (table : Table) (row : Nat) : RowImage :=
  { cells := table.columns.map (fun column => column[row]?)
    nulls := table.nullBitmaps.map (Option.map (fun bitmap => bitmap.isNull row))
    strings := table.stringColumns.map (Option.map (fun strings => strings[row]?))
    integers := table.i32Columns.map (Option.map (fun values => values[row]?)) }

/-- The rows of `next` are the listed rows of `table` in their order, the
sidecars hold behind the last row what they held there, and nobody sees the
other rows. -/
structure SameRows (mgr : MvccTxnManager) (table next : Table)
    (survivors : List Nat) : Prop where
  ordered : survivors.Pairwise (· < ·)
  within : ∀ row ∈ survivors, row < table.rowCount
  count : next.rowCount = survivors.length
  images : ∀ (pos : Nat) row, survivors[pos]? = some row →
      rowImage next pos = rowImage table row
  chains : ∀ (pos : Nat) row, survivors[pos]? = some row →
      next.chainAt pos = mgr.keptChain table row
  stringsBehind : ∀ k, (rowImage next (next.rowCount + k)).strings =
      (rowImage table (table.rowCount + k)).strings
  integersBehind : ∀ k, (rowImage next (next.rowCount + k)).integers =
      (rowImage table (table.rowCount + k)).integers
  unseen : ∀ row < table.rowCount, row ∉ survivors →
      ∀ reader, Reads mgr reader → rowVisibleToActive table (readAs mgr reader) row = false

/-- The collection returns and loses nothing that someone sees. -/
def KeepsLiveRows (mgr : MvccTxnManager) (table : Table) : Prop :=
  ∃ removed next survivors,
    mgr.vacuumTable table = .ok (removed, next) ∧ SameRows mgr table next survivors

/-! ## What the table has to look like -/

/-- The creator of the version is committed or in progress, and if it was
deleted by a committed transaction, some transaction in progress started
before that commit. -/
def Needed (mgr : MvccTxnManager) (version : RowVersion) : Prop :=
  mgr.txnState version.xmin ≠ .aborted ∧
    ∀ deleter cid, version.xmax = some deleter →
      mgr.txnState deleter = .committed cid →
      ∃ reader snapshot, mgr.txnStates.lookup reader = some .inProgress ∧
        mgr.activeSnapshots.lookup reader = some snapshot ∧ snapshot < cid

def NeededRow (mgr : MvccTxnManager) (table : Table) (row : Nat) : Prop :=
  ∃ version ∈ table.chainAt row, Needed mgr version

noncomputable def neededBefore (mgr : MvccTxnManager) (table : Table)
    (row : Nat) : Nat :=
  {earlier | earlier < row ∧ NeededRow mgr table earlier}.ncard

/-- A row without a needed version has versions, and those that autocommit
created were deleted by autocommit or by a committed transaction. -/
def Retired (mgr : MvccTxnManager) (chain : List RowVersion) : Prop :=
  chain ≠ [] ∧
    ∀ version ∈ chain, version.xmin = 0 →
      ∃ deleter,
        version.xmax = some deleter ∧ (deleter = 0 ∨ ∃ cid, mgr.txnState deleter = .committed cid)

/-- A sidecar, which is not rebuilt, holds the entry of a needed row also where
the row moves to, and if a row goes it has no entry behind these places. -/
def FitsMoved {α : Type} (mgr : MvccTxnManager) (table : Table) (entries : List α) : Prop :=
  (∀ row, NeededRow mgr table row → entries[neededBefore mgr table row]? = entries[row]?) ∧
    ((∃ row < table.rowCount, ¬ NeededRow mgr table row) →
      entries.length ≤ neededBefore mgr table table.rowCount)

/-- A table that the collection can take: its unneeded rows are retired, its
columns have a cell for every needed row, and its sidecars fit the moved
rows. -/
structure SafeToVacuum (mgr : MvccTxnManager) (table : Table) : Prop where
  retired : ∀ row < table.rowCount, ¬ NeededRow mgr table row → Retired mgr (table.chainAt row)
  filled : (∃ row < table.rowCount, ¬ NeededRow mgr table row) →
      ∀ column ∈ table.columns, ∀ row, NeededRow mgr table row → row < column.length
  strings : ∀ strings, some strings ∈ table.stringColumns → FitsMoved mgr table strings
  integers : ∀ values, some values ∈ table.i32Columns → FitsMoved mgr table values

/-! ## Needed versions are the kept ones -/

section

variable {mgr : MvccTxnManager} {table : Table}

variable {cid row : Nat} {version : RowVersion} {reader : Option MvccTransaction}

theorem cid_le_commitId {author : Nat} (consistent : ManagerConsistent mgr)
    (committed : mgr.txnState author = .committed cid) : cid ≤ mgr.commitId := by
  obtain ⟨begun, inv, -⟩ := consistent
  exact inv.committed_le (lookup_of_committed committed)

theorem le_oldest_iff {bound : Nat} : bound ≤ mgr.oldestActiveSnapshotOrCurrent ↔
      bound ≤ mgr.commitId ∧
        ∀ reader snapshot, mgr.activeSnapshots.lookup reader = some snapshot →
          mgr.txnStates.lookup reader = some .inProgress → bound ≤ snapshot := by
  unfold oldestActiveSnapshotOrCurrent oldestActiveSnapshot
  simp only [FiniteMap.le_leastAdmitted_iff, decide_eq_true_eq]

theorem oldest_lt_iff (known : cid ≤ mgr.commitId) :
    mgr.oldestActiveSnapshotOrCurrent < cid ↔ ∃ reader snapshot,
        mgr.txnStates.lookup reader = some .inProgress ∧
          mgr.activeSnapshots.lookup reader = some snapshot ∧ snapshot < cid := by
  rw [← Nat.not_le, le_oldest_iff, not_and]
  push Not
  constructor
  · intro early
    obtain ⟨reader, snapshot, found, running, below⟩ := early known
    exact ⟨reader, snapshot, running, found, below⟩
  · rintro ⟨reader, snapshot, running, found, below⟩ _
    exact ⟨reader, snapshot, found, running, below⟩

theorem keepsTableVersion_iff_needed (inv : ManagerConsistent mgr) :
    mgr.keepsTableVersion mgr.oldestActiveSnapshotOrCurrent version = true ↔
      Needed mgr version := by
  rw [← Bool.not_eq_false, keepsTableVersion_eq_false_iff, not_or]
  refine and_congr_right fun _ => ?_
  constructor
  · intro kept deleter cid deleted committed
    have known := cid_le_commitId inv committed
    refine (oldest_lt_iff known).mp (Nat.lt_of_not_le fun early => ?_)
    exact kept ⟨deleter, deleted, cid, committed, early⟩
  · rintro needed ⟨deleter, deleted, cid, committed, early⟩
    have known := cid_le_commitId inv committed
    have late := (oldest_lt_iff known).mpr (needed deleter cid deleted committed)
    omega

theorem keepsRow_iff_needed (inv : ManagerConsistent mgr) :
    mgr.keepsRow table row = true ↔ NeededRow mgr table row := by
  rw [keepsRow_iff, keptChain, Ne, filter_eq_nil_iff]
  push Not
  refine exists_congr fun version => and_congr_right fun _ => ?_
  exact keepsTableVersion_iff_needed inv

theorem rank_eq_neededBefore (inv : ManagerConsistent mgr) (row : Nat) :
    rank (mgr.keepsRow table) row = neededBefore mgr table row := by
  have sameSet : {earlier | earlier < row ∧ NeededRow mgr table earlier} =
      ((kept (mgr.keepsRow table) row).toFinset : Set Nat) := by
    ext earlier
    simp [mem_kept, keepsRow_iff_needed inv]
  have distinct : (kept (mgr.keepsRow table) row).Nodup := (pairwise_kept _ _).imp Nat.ne_of_lt
  unfold neededBefore rank
  rw [sameSet, Set.ncard_coe_finset, toFinset_card_of_nodup distinct]

/-! ## Who sees an unneeded row -/

theorem oldest_le_readAs (reads : Reads mgr reader) : mgr.oldestActiveSnapshotOrCurrent ≤
      (readAs mgr reader).activeSnapshotId.getD (readAs mgr reader).currentCommitId := by
  obtain ⟨atMost, least⟩ := le_oldest_iff.mp (le_refl mgr.oldestActiveSnapshotOrCurrent)
  cases reader with
  | none => exact atMost
  | some txn => exact least txn.id txn.snapshotId reads.2 reads.1

/-- A version that is not needed is seen by the autocommit reader at most,
and only if autocommit created it. -/
theorem autocommit_of_unneeded_visible
    (inv : ManagerConsistent mgr) (reads : Reads mgr reader) (unneeded : ¬ Needed mgr version)
    (visible : (readAs mgr reader).isVisibleWithSnapshot version
        ((readAs mgr reader).activeSnapshotId.getD (readAs mgr reader).currentCommitId)
        ((readAs mgr reader).activeId.getD 0) = true) :
    reader = none ∧ version.xmin = 0 := by
  have oldest := oldest_le_readAs reads
  obtain ⟨created, open'⟩ := isVisibleWithSnapshot_iff.mp visible
  rw [← keepsTableVersion_iff_needed inv, Bool.not_eq_true,
    keepsTableVersion_eq_false_iff] at unneeded
  rcases unneeded with aborted | ⟨deleter, deleted, cid, committed, early⟩
  · rcases created with own | ⟨cid, committed, -⟩
    · cases reader with
      | none => exact ⟨rfl, own⟩
      | some txn =>
        have running : mgr.txnState txn.id = .inProgress := by
          unfold txnState
          rw [reads.1]
          rfl
        have same : version.xmin = txn.id := own
        cases running.symm.trans (same ▸ aborted)
    · cases (show mgr.txnState version.xmin = _ from committed).symm.trans aborted
  · exact absurd ⟨cid, committed, early.trans oldest⟩ (open' deleter deleted).2

/-- Nobody sees a row without needed versions exactly when it is retired. -/
theorem unseen_iff_retired (inv : ManagerConsistent mgr) (unneeded : ¬ NeededRow mgr table row) :
    (∀ reader, Reads mgr reader → rowVisibleToActive table (readAs mgr reader) row = false) ↔
      Retired mgr (table.chainAt row) := by
  constructor
  · intro unseen
    have hidden := unseen none trivial
    rw [← Bool.not_eq_true, rowVisibleToActive_iff, not_or] at hidden
    refine ⟨hidden.1, fun version mem autocommit => ?_⟩
    by_contra live
    push Not at live
    refine hidden.2 ⟨version, mem, ?_⟩
    refine isVisibleWithSnapshot_iff.mpr ?_
    refine ⟨.inl autocommit, fun deleter deleted => ?_⟩
    obtain ⟨foreign, uncommitted⟩ := live deleter deleted
    refine ⟨foreign, ?_⟩
    rintro ⟨cid, committed, -⟩
    exact uncommitted cid committed
  · rintro ⟨nonempty, retired⟩ reader reads
    rw [← Bool.not_eq_true, rowVisibleToActive_iff]
    rintro (empty | ⟨version, mem, visible⟩)
    · exact nonempty empty
    have versionUnneeded : ¬ Needed mgr version := fun needed => unneeded ⟨version, mem, needed⟩
    obtain ⟨rfl, autocommit⟩ := autocommit_of_unneeded_visible inv reads versionUnneeded visible
    obtain ⟨deleter, deleted, gone⟩ := retired version mem autocommit
    obtain ⟨foreign, uncommitted⟩ := (isVisibleWithSnapshot_iff.mp visible).2 deleter deleted
    rcases gone with own | ⟨cid, committed⟩
    · exact foreign own
    · have known : cid ≤ mgr.commitId := cid_le_commitId inv committed
      exact uncommitted ⟨cid, committed, known⟩

end

/-! ## What the collection does -/

section

variable {mgr : MvccTxnManager} {table next : Table} {removed : Nat}

theorem keptRows_eq (bounded : table.rowVersions.length ≤ table.rowCount) :
    mgr.keptRows table = kept (mgr.keepsRow table) table.rowCount := by
  refine (kept_eq_of_le bounded fun row outside _ => ?_).symm
  rw [← Bool.not_eq_true]
  intro keeps
  have inside := lt_length_of_keepsRow keeps
  omega

/-- The kept rows are moved together in everything but the sidecars. -/
structure Collected (mgr : MvccTxnManager) (table next : Table) : Prop where
  count : next.rowCount = (mgr.keptRows table).length
  cells : ∀ (pos : Nat) row, (mgr.keptRows table)[pos]? = some row →
      (rowImage next pos).cells = (rowImage table row).cells
  nulls : ∀ (pos : Nat) row, (mgr.keptRows table)[pos]? = some row →
      (rowImage next pos).nulls = (rowImage table row).nulls
  chains : ∀ (pos : Nat) row, (mgr.keptRows table)[pos]? = some row →
      next.chainAt pos = mgr.keptChain table row
  sameStrings : next.stringColumns = table.stringColumns
  sameIntegers : next.i32Columns = table.i32Columns

variable {pos row : Nat}

theorem cells_rebuilt {columns rebuilt : List (List Cell)} {rows : List Nat}
    (read : columns.mapM (fun column => rows.mapM (index column)) = .ok rebuilt)
    (held : rows[pos]? = some row) :
    rebuilt.map (fun column => column[pos]?) = columns.map (fun column => column[row]?) := by
  have related := mapM_eq_ok_iff.mp read
  clear read
  induction related with
  | nil => rfl
  | cons first _ ih => rw [map_cons, map_cons, ih, getElem?_of_mapM_index first held]

theorem collected_compactedTable {columns : List (List Cell)}
    (read :
      table.columns.mapM (fun column => (mgr.keptRows table).mapM (index column)) = .ok columns) :
    Collected mgr table (mgr.compactedTable table columns) where
  count := rfl
  cells := fun _ _ held => cells_rebuilt read held
  nulls := by
    intro pos row held
    have sameFlag : ∀ bitmap : NullBitmap, NullBitmap.isNull
              { bits := (mgr.keptRows table).map bitmap.isNull } pos =
            bitmap.isNull row := by
      intro bitmap
      rw [NullBitmap.isNull, getElem?_map, held]
      rfl
    simp only [rowImage, compactedTable, map_map]
    refine map_congr_left fun bitmap _ => ?_
    cases bitmap with
    | none => rfl
    | some bitmap => exact congrArg some (sameFlag bitmap)
  chains := by
    intro pos row held
    unfold Table.chainAt
    simp only [compactedTable, getElem?_map, held]
    rfl
  sameStrings := rfl
  sameIntegers := rfl

theorem collected_shortenedTable (bounded : table.rowVersions.length ≤ table.rowCount)
    (keeps : table.rowCount ≤ (mgr.keptRows table).length) :
    Collected mgr table (mgr.shortenedTable table) := by
  have every : ∀ row < table.rowCount, mgr.keepsRow table row = true := by
    intro row inTable
    by_contra dropped
    rw [Bool.not_eq_true] at dropped
    have short := length_kept_lt_iff.mpr ⟨row, inTable, dropped⟩
    rw [keptRows_eq bounded] at keeps
    omega
  have rows : mgr.keptRows table = range table.rowCount := by
    rw [keptRows_eq bounded, kept_eq_range every]
  have inPlace :
      ∀ (pos : Nat) row, (mgr.keptRows table)[pos]? = some row → pos = row := by
    intro pos row held
    rw [rows] at held
    obtain ⟨inRange, same⟩ := List.getElem?_eq_some_iff.mp held
    simpa using same
  constructor
  · rw [rows, length_range]
    rfl
  · intro pos row held
    rw [inPlace pos row held]
    rfl
  · intro pos row held
    rw [inPlace pos row held]
    rfl
  · intro pos row held
    have same := inPlace pos row held
    have inRange : row < table.rowVersions.length := by
      refine lt_length_of_keepsRow (every row ?_)
      rw [rows] at held
      simpa using mem_of_getElem? held
    subst same
    unfold Table.chainAt
    simp [shortenedTable, inRange]
  · rfl
  · rfl

theorem collected_of_ok (bounded : table.rowVersions.length ≤ table.rowCount)
    (collected : mgr.vacuumTable table = .ok (removed, next)) : Collected mgr table next := by
  by_cases drops : (mgr.keptRows table).length < table.rowCount
  · rw [vacuumTable_drops drops] at collected
    obtain ⟨columns, read, same⟩ := except_map_ok_iff.mp collected
    cases same
    exact collected_compactedTable read
  · have keeps := Nat.le_of_not_lt drops
    rw [vacuumTable_keeps keeps] at collected
    cases collected
    exact collected_shortenedTable bounded keeps

/-- The collection returns when it drops no row, and otherwise when the
columns reach to the rows it keeps. -/
theorem vacuumTable_returns_iff : (∃ out, mgr.vacuumTable table = .ok out) ↔
      ((mgr.keptRows table).length < table.rowCount →
        ∀ column ∈ table.columns, ∀ row ∈ mgr.keptRows table, row < column.length) := by
  by_cases drops : (mgr.keptRows table).length < table.rowCount
  · have returns : (∃ out, mgr.vacuumTable table = .ok out) ↔ ∃ columns, table.columns.mapM
            (fun column => (mgr.keptRows table).mapM (index column)) =
          .ok columns := by
      rw [vacuumTable_drops drops]
      cases
        table.columns.mapM (fun column => (mgr.keptRows table).mapM (index column)) <;>
        simp [Except.map]
    simp only [returns, exists_mapM_ok_iff, exists_index_eq_ok_iff, drops, forall_const]
  · rw [vacuumTable_keeps (Nat.le_of_not_lt drops)]
    simp [drops]

theorem getElem?_keptRows_iff (inv : ManagerConsistent mgr) :
    (mgr.keptRows table)[pos]? = some row ↔
      NeededRow mgr table row ∧ neededBefore mgr table row = pos := by
  unfold keptRows
  rw [getElem?_kept_iff, rank_eq_neededBefore inv, ← keepsRow_iff_needed inv]
  exact and_iff_right_of_imp fun ⟨keeps, _⟩ => lt_length_of_keepsRow keeps

theorem mem_keptRows_iff (inv : ManagerConsistent mgr) :
    row ∈ mgr.keptRows table ↔ NeededRow mgr table row := by
  rw [mem_iff_getElem?]
  simp only [getElem?_keptRows_iff inv]
  exact ⟨fun ⟨_, needed, _⟩ => needed, fun needed => ⟨_, needed, rfl⟩⟩

theorem keptRows_short_iff (inv : ManagerConsistent mgr)
    (bounded : table.rowVersions.length ≤ table.rowCount) :
    (mgr.keptRows table).length < table.rowCount ↔
      ∃ row < table.rowCount, ¬ NeededRow mgr table row := by
  rw [keptRows_eq bounded, length_kept_lt_iff]
  simp only [← keepsRow_iff_needed inv, Bool.not_eq_true]

/-- A sidecar that was left in place fits the moved rows exactly when it holds
the same entry in both places. -/
theorem sidecars_eq_iff {α : Type} {sidecars : List (Option (List α))} :
    sidecars.map (Option.map (fun entries => entries[pos]?)) =
        sidecars.map (Option.map (fun entries => entries[row]?)) ↔
      ∀ entries, some entries ∈ sidecars → entries[pos]? = entries[row]? := by
  rw [map_inj_left]
  constructor
  · intro same entries mem
    exact Option.some.inj (same (some entries) mem)
  · intro same sidecar mem
    cases sidecar with
    | none => rfl
    | some entries => exact congrArg some (same entries mem)

theorem length_keptRows (inv : ManagerConsistent mgr)
    (bounded : table.rowVersions.length ≤ table.rowCount) :
    (mgr.keptRows table).length = neededBefore mgr table table.rowCount := by
  rw [keptRows_eq bounded, ← rank_eq_neededBefore inv]
  rfl

/-- The entries behind the kept rows are those behind all rows exactly if
there are none, once a row goes. -/
theorem entriesBehind_iff {α : Type} {entries : List α} {count rowCount : Nat}
    (le : count ≤ rowCount) :
    (∀ k, entries[count + k]? = entries[rowCount + k]?) ↔
      (count < rowCount → entries.length ≤ count) := by
  constructor
  · intro same fewer
    by_contra longer
    -- the last entry would have to stand further behind as well
    have last := same (entries.length - 1 - count)
    rw [getElem?_eq_getElem (by omega), getElem?_eq_none (by omega)] at last
    cases last
  · intro short k
    rcases Nat.eq_or_lt_of_le le with rfl | fewer
    · rfl
    · have length := short fewer
      rw [getElem?_eq_none (by omega), getElem?_eq_none (by omega)]

theorem fitsMoved_iff {α : Type} {sidecars : List (Option (List α))}
    (inv : ManagerConsistent mgr) (bounded : table.rowVersions.length ≤ table.rowCount) :
    (∀ entries, some entries ∈ sidecars → FitsMoved mgr table entries) ↔
      (∀ (pos : Nat) row, (mgr.keptRows table)[pos]? = some row →
        sidecars.map (Option.map (fun entries => entries[pos]?)) =
          sidecars.map (Option.map (fun entries => entries[row]?))) ∧
      ∀ k, sidecars.map (Option.map (fun entries => entries[(mgr.keptRows table).length + k]?)) =
        sidecars.map (Option.map (fun entries => entries[table.rowCount + k]?)) := by
  have le : (mgr.keptRows table).length ≤ table.rowCount := by
    rw [keptRows_eq bounded]
    exact (length_filter_le _ _).trans_eq length_range
  simp only [sidecars_eq_iff, FitsMoved, ← keptRows_short_iff inv bounded,
    ← length_keptRows inv bounded, ← entriesBehind_iff le]
  constructor
  · intro fits
    refine ⟨fun pos row place entries mem => ?_, fun k entries mem => (fits entries mem).2 k⟩
    obtain ⟨needed, rfl⟩ := (getElem?_keptRows_iff inv).mp place
    exact (fits entries mem).1 row needed
  · rintro ⟨inside, behind⟩ entries mem
    refine ⟨fun row needed => ?_, fun k => behind k entries mem⟩
    exact inside _ row ((getElem?_keptRows_iff inv).mpr ⟨needed, rfl⟩) entries mem

theorem survivors_eq {survivors : List Nat} (bounded : table.rowVersions.length ≤ table.rowCount)
    (collected : Collected mgr table next) (same : SameRows mgr table next survivors) :
    survivors = mgr.keptRows table := by
  have sameLength : survivors.length = (mgr.keptRows table).length :=
    same.count.symm.trans collected.count
  rw [keptRows_eq bounded] at sameLength ⊢
  refine eq_kept same.ordered ?_ sameLength
  intro row mem
  refine ⟨same.within row mem, ?_⟩
  obtain ⟨pos, atPosition⟩ := mem_iff_getElem?.mp mem
  -- The chain at the row's place is that of a kept row, so not empty.
  have inRange : pos < (mgr.keptRows table).length := by
    rw [keptRows_eq bounded, ← sameLength]
    exact (List.getElem?_eq_some_iff.mp atPosition).1
  obtain ⟨keptRow, isKept⟩ : ∃ keptRow, (mgr.keptRows table)[pos]? = some keptRow :=
    ⟨_, getElem?_eq_getElem inRange⟩
  have keeps : mgr.keepsRow table keptRow = true := (mem_kept.mp (mem_of_getElem? isKept)).2
  rw [keepsRow_iff] at keeps ⊢
  rwa [← same.chains pos row atPosition, collected.chains pos keptRow isKept]

theorem KeepsLiveRows.safeToVacuum (inv : ManagerConsistent mgr)
    (bounded : table.rowVersions.length ≤ table.rowCount) (keeps : KeepsLiveRows mgr table) :
    SafeToVacuum mgr table := by
  obtain ⟨removed, next, survivors, ran, same⟩ := keeps
  have collected := collected_of_ok bounded ran
  have isKept := survivors_eq bounded collected same
  subst isKept
  constructor
  · intro row inTable unneeded
    refine (unseen_iff_retired inv unneeded).mp ?_
    refine same.unseen row inTable ?_
    rwa [mem_keptRows_iff inv]
  · intro dropped column mem row needed
    refine vacuumTable_returns_iff.mp ⟨_, ran⟩
      ((keptRows_short_iff inv bounded).mpr dropped) column mem row ?_
    rwa [mem_keptRows_iff inv]
  · refine (fitsMoved_iff inv bounded).mpr ⟨fun pos row place => ?_, fun k => ?_⟩
    · have image := congrArg RowImage.strings (same.images pos row place)
      simpa only [rowImage, collected.sameStrings] using image
    · have behind := same.stringsBehind k
      simpa only [rowImage, collected.sameStrings, collected.count] using behind
  · refine (fitsMoved_iff inv bounded).mpr ⟨fun pos row place => ?_, fun k => ?_⟩
    · have image := congrArg RowImage.integers (same.images pos row place)
      simpa only [rowImage, collected.sameIntegers] using image
    · have behind := same.integersBehind k
      simpa only [rowImage, collected.sameIntegers, collected.count] using behind

theorem SafeToVacuum.keepsLiveRows (inv : ManagerConsistent mgr)
    (bounded : table.rowVersions.length ≤ table.rowCount) (safe : SafeToVacuum mgr table) :
    KeepsLiveRows mgr table := by
  have filled : (mgr.keptRows table).length < table.rowCount →
      ∀ column ∈ table.columns, ∀ row ∈ mgr.keptRows table, row < column.length := by
    intro short column mem row isKept
    exact safe.filled ((keptRows_short_iff inv bounded).mp short)
      column mem row ((mem_keptRows_iff inv).mp isKept)
  obtain ⟨⟨removed, next⟩, ran⟩ := vacuumTable_returns_iff.mpr filled
  have collected := collected_of_ok bounded ran
  obtain ⟨strings, stringsBehind⟩ := (fitsMoved_iff inv bounded).mp safe.strings
  obtain ⟨integers, integersBehind⟩ := (fitsMoved_iff inv bounded).mp safe.integers
  refine ⟨removed, next, mgr.keptRows table, ran, ?_⟩
  constructor
  · exact pairwise_kept _ _
  · intro row mem
    exact (mem_kept.mp mem).1.trans_le bounded
  · exact collected.count
  · intro pos row place
    have sameStrings : (rowImage next pos).strings = (rowImage table row).strings := by
      simpa only [rowImage, collected.sameStrings] using strings pos row place
    have sameIntegers : (rowImage next pos).integers = (rowImage table row).integers := by
      simpa only [rowImage, collected.sameIntegers] using integers pos row place
    exact RowImage.ext (collected.cells pos row place) (collected.nulls pos row place)
      sameStrings sameIntegers
  · exact collected.chains
  · intro k
    simpa only [rowImage, collected.sameStrings, collected.count] using stringsBehind k
  · intro k
    simpa only [rowImage, collected.sameIntegers, collected.count] using integersBehind k
  · intro row inTable dropped
    rw [mem_keptRows_iff inv] at dropped
    exact (unseen_iff_retired inv dropped).mpr (safe.retired row inTable dropped)

theorem keepsLiveRows_iff_safeToVacuum (inv : ManagerConsistent mgr)
    (bounded : table.rowVersions.length ≤ table.rowCount) :
    KeepsLiveRows mgr table ↔ SafeToVacuum mgr table :=
  ⟨KeepsLiveRows.safeToVacuum inv bounded, SafeToVacuum.keepsLiveRows inv bounded⟩

end

/-! ## Reachable engines -/

/-- On the tables of a reachable engine the collection loses nothing exactly
when the table is safe to vacuum. -/
theorem vacuumTable_keepsLiveRows_iff
    {host : Host} {depth : Nat} {engine : QueryEngine} {name : String}
    {table : Table} (reachable : engine.Reachable host depth)
    (present : engine.catalog.lookup name = some table) :
    KeepsLiveRows engine.mvccTxnManager table ↔ SafeToVacuum engine.mvccTxnManager table := by
  have consistent := reachable.consistent
  exact
    keepsLiveRows_iff_safeToVacuum consistent.manager (consistent.tables name table present).bounded

/-- A transaction that inserted a row is rolled back, and another one
commits. -/
def rollbackThenCommit : List EngineAction :=
  [.execute .begin, .execute (.dml insertNine), .execute .rollback,
    .execute .begin, .execute (.dml insertNine), .execute .commit]

def rolledBackThenCommitted : QueryEngine :=
  (exec (step plainHost 1) anyStep (withTable oneColumn) rollbackThenCommit).getD inMemory

/-- The row of the rolled-back transaction goes and the other one stays. -/
theorem vacuumTable_keepsLiveRows_rolledBackThenCommitted : ∃ table,
      rolledBackThenCommitted.catalog.lookup "t" = some table ∧
        table.rowCount = 2 ∧ KeepsLiveRows rolledBackThenCommitted.mvccTxnManager table := by
  have ran : exec (step plainHost 1) anyStep (withTable oneColumn) rollbackThenCommit =
      some rolledBackThenCommitted := rfl
  have reachable : rolledBackThenCommitted.Reachable plainHost 1 :=
    .of_exec (initial_withTable rfl) ran
  let table : Table :=
    { oneColumn with
      columns := [[9, 9]]
      rowCount := 2
      rowVersions := [[new 1 []], [new 2 []]] }
  have held : rolledBackThenCommitted.catalog.lookup "t" = some table := rfl
  refine ⟨table, held, rfl, ?_⟩
  refine (vacuumTable_keepsLiveRows_iff reachable held).mpr ?_
  have committedRow : NeededRow rolledBackThenCommitted.mvccTxnManager table 1 := by
    refine ⟨new 2 [], mem_singleton_self _, by decide, ?_⟩
    intro _ _ deleted
    cases deleted
  constructor
  · intro row inTable unneeded
    have isFirst : row = 0 := by
      have below : row < 2 := inTable
      have other : row ≠ 1 := fun same => unneeded (same ▸ committedRow)
      omega
    subst isFirst
    refine ⟨cons_ne_nil _ _, fun version mem autocommit => ?_⟩
    cases mem_singleton.mp mem
    cases autocommit
  · intro _ column mem row needed
    obtain ⟨version, inChain, -⟩ := needed
    have inRange := Table.lt_length_of_chainAt (ne_nil_of_mem inChain)
    cases mem_singleton.mp mem
    exact inRange
  · intro strings mem
    cases mem_singleton.mp mem
  · intro values mem
    cases mem_singleton.mp mem

/-- A row inserted without a transaction is lost to the collection. -/
theorem vacuumTable_loses_autocommit_row : ¬ ∃ host depth, ∀ engine name table,
    QueryEngine.Reachable host depth engine →
    engine.catalog.lookup name = some table → KeepsLiveRows engine.mvccTxnManager table := by
  rintro ⟨host, depth, keeps⟩
  let inserted : Table :=
    { oneColumn with
      columns := [[9]]
      rowCount := 1
      rowVersions := [[new 0 []]] }
  let engine : QueryEngine :=
    { withTable oneColumn with
      catalog := (withTable oneColumn).catalog.insert "t" inserted }
  have executed : exec (step host depth) anyStep
        (withTable oneColumn) [.execute (.dml insertNine)] =
      some engine := rfl
  have reachable : engine.Reachable host depth := .of_exec (initial_withTable rfl) executed
  obtain ⟨removed, next, survivors, ran, same⟩ := keeps engine "t" inserted reachable rfl
  have collected : new.vacuumTable inserted = .ok
          (1, { inserted with
                columns := [[]], rowCount := 0, rowVersions := [] }) := rfl
  have noRows : survivors = [] := by
    cases ran.symm.trans collected
    exact length_eq_zero_iff.mp same.count.symm
  have hidden := same.unseen 0 Nat.zero_lt_one (by simp [noRows]) none trivial
  have shown : rowVisibleToActive inserted new 0 = true := rfl
  cases shown.symm.trans hidden

end TurboGP.Engine
