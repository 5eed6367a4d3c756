import TurboGP.Engine.DataDirectory
import TurboGP.Engine.LoggedEngine
import TurboGP.Storage.CheckpointFile
import TurboGP.Storage.CheckpointWrites

/-! # A crash during a checkpoint -/

namespace TurboGP.Engine

open Option
open Datasource Effect CrashPoints SqlEngine FiniteMap Storage

def rowAt (table : Table) (idx : Nat) : List (Option Txn.Cell) × List (Option String) × List Bool :=
  (table.columns.map (·[idx]?), table.stringColumns.map (fun column => column.bind (·[idx]?)),
    (List.range table.columns.length).map (table.nullAt · idx))

def rows (table : Table) : Multiset (List (Option Txn.Cell) × List (Option String) × List Bool) :=
  (List.range table.rowCount).map (rowAt table)

/-- The tables have the same rows; the table for queries without FROM is
never saved. -/
def SameTableRows (first second : Catalog) : Prop :=
  ∀ name, name ≠ "__dummy__" → (first.lookup name).map rows = (second.lookup name).map rows

theorem rows_restoreTable (table : Table) : rows (restoreTable table) = rows table := by
  unfold restoreTable
  rw [deserializeTable_serializeTable]
  rfl

section

variable {β : Type} {host : SqlHost} {depth : Nat} {bincode : Bincode β}
  {walHost : WalHost} {now limit : UInt64} {dir : DataDir β}
  {log : List Segment}

theorem withDataDir_holds (holds : Holds dir.log.directory log) : ∃ opened : DataDir β,
      opened.files = dir.files ∧
        readAll walHost opened.log.directory = .ok (log.flatMap (Segment.records walHost)) ∧
        withDataDir host depth bincode walHost (Os.good now) limit dir =
          ((loadFiles host depth bincode dir.files .inMemory).bind
            (replayWalWithLsnFilter host depth (readLastLsn dir.files)
              (log.flatMap (Segment.records walHost)))).map
            (·, opened) := by
  obtain ⟨state, earlier, last, opened, isLog, isOpen, -, -⟩ :=
    openWithSegmentLimit_good walHost now limit holds
  have isRead : readAll walHost state.directory = .ok (log.flatMap (Segment.records walHost)) := by
    rw [isOpen.holds.readAll_eq, ← isLog, records_openedLog]
  obtain ⟨after, reopened, sameFiles, sameDirectory⟩ :
      ∃ after : DataDir β, reopen walHost (Os.good now) limit dir = .ok after ∧
        after.files = dir.files ∧ after.log.directory = state.directory := by
    unfold reopen
    rw [opened]
    exact ⟨_, rfl, rfl, rfl⟩
  refine ⟨after, sameFiles, sameDirectory ▸ isRead, ?_⟩
  unfold withDataDir
  rw [reopened]
  show (loadFiles host depth bincode after.files .inMemory).bind
    (fun base => (readAll walHost after.log.directory).toOption.bind fun records =>
        (replayWalWithLsnFilter host depth (readLastLsn after.files) records
          base).bind fun engine => some (engine, after)) = _
  rw [sameFiles, sameDirectory, isRead]
  cases loadFiles host depth bincode dir.files .inMemory with
  | none => rfl
  | some base => exact (map_eq_bind).symm

end

section

variable {β : Type} (host : SqlHost) (depth : Nat) (bincode : Bincode β)
  (walHost : WalHost) (now limit : UInt64)

/-- The directory after `count` file operations of the checkpoint. -/
def crashAfter (engine : SqlEngine) (text : List Char) (dir : DataDir β)
    (count : Nat) : DataDir β :=
  finalState
    (flushWithCheckpoint (bincode.serialize (savedTables host engine.catalog)) text)
    { dir with left := some count }

def Recovers (engine : SqlEngine) (dir : DataDir β) : Prop :=
  ∃ next opened,
    withDataDir host depth bincode walHost (Os.good now) limit dir = some (next, opened) ∧
      SameTableRows engine.catalog next.catalog

/-- After a crash the rows come back, and once the new checkpoint is in its
place no record of the log is executed on it. -/
def CrashConsistent (engine : SqlEngine) (text : List Char)
    (dir : DataDir β) (count : Nat) : Prop :=
  ∃ next opened, withDataDir host depth bincode walHost (Os.good now) limit
        (crashAfter host bincode engine text dir count) =
      some (next, opened) ∧
    SameTableRows engine.catalog next.catalog ∧
    (3 ≤ count → ∀ records, readAll walHost opened.log.directory = .ok records →
        replayedRecords (readLastLsn opened.files) records = [])

variable {host depth bincode walHost now limit}

theorem crashAfter_disk {engine : SqlEngine} {text : List Char}
    {dir : DataDir β} {log : List Segment} (holds : Holds dir.log.directory log) (count : Nat) :
    (crashAfter host bincode engine text dir count).disk = apply
        ((Disk.flushOps (bincode.serialize (savedTables host engine.catalog)) text
          dir.log.wal.currentLsn (log.map Segment.number)).take count)
        dir.disk := by
  have performs := @Storage.flushWithCheckpoint_performs β { dir with left := some count } log
      (bincode.serialize (savedTables host engine.catalog)) text holds
  exact performs.crashed rfl

variable {engine : SqlEngine} {text : List Char} {dir : DataDir β}
  {log : List Segment} {count : Nat}

theorem crashConsistent_early (holds : Holds dir.log.directory log) (early : count < 3) :
    CrashConsistent host depth bincode walHost now limit engine text dir count ↔
      Recovers host depth bincode walHost now limit engine dir := by
  have disk := @crashAfter_disk β host bincode engine text dir log holds count
  obtain ⟨binTmp, flushed⟩ := flushed_early dir.disk early
  rw [flushed] at disk
  have files :
      (crashAfter host bincode engine text dir count).files = { dir.files with binTmp := binTmp } :=
    congrArg Disk.files disk
  have directory :
      (crashAfter host bincode engine text dir count).log.directory = dir.log.directory :=
    congrArg Disk.directory disk
  obtain ⟨opened, -, -, crashed⟩ := @withDataDir_holds β host depth bincode walHost now limit
      (crashAfter host bincode engine text dir count) log (directory.symm ▸ holds)
  obtain ⟨before, -, -, restarted⟩ :=
    @withDataDir_holds β host depth bincode walHost now limit dir log holds
  rw [files] at crashed
  unfold CrashConsistent Recovers
  rw [crashed, restarted]
  constructor
  · rintro ⟨next, after, reached, same, -⟩
    obtain ⟨engine, isEngine, isNext⟩ := map_eq_some_iff.mp reached
    cases isNext
    exact ⟨next, before, map_eq_some_iff.mpr ⟨next, isEngine, rfl⟩, same⟩
  · rintro ⟨next, after, reached, same⟩
    obtain ⟨engine, isEngine, isNext⟩ := map_eq_some_iff.mp reached
    cases isNext
    exact ⟨next, opened, map_eq_some_iff.mpr ⟨next, isEngine, rfl⟩, same,
      fun late => absurd late (by omega)⟩

def skippedUpTo (dir : DataDir β) (count : Nat) : Option UInt64 :=
  if count < 7 then readLastLsn dir.files else some dir.log.wal.currentLsn

theorem lookup_inMemory {name : String} (notDummy : name ≠ "__dummy__") :
    inMemory.catalog.lookup name = none := by
  show ((∅ : Catalog).insert dummyTable.name dummyTable).lookup name = none
  rw [lookup_insert_eq]
  exact (if_neg notDummy).trans (Finmap.lookup_empty name)

theorem sameTableRows_registerTables (named : Named engine.catalog) : SameTableRows engine.catalog
      (registerTables host (loadTables (savedTables host engine.catalog)) .inMemory).catalog := by
  intro name notDummy
  rw [lookup_registerTables named, if_neg notDummy, lookup_inMemory notDummy]
  cases engine.catalog.lookup name with
  | none => rfl
  | some table => exact congrArg some (rows_restoreTable table).symm

theorem crashConsistent_late (named : Named engine.catalog)
    (holds : Holds dir.log.directory log) (late : 3 ≤ count) :
    CrashConsistent host depth bincode walHost now limit engine text dir count ↔
      replayedRecords (skippedUpTo dir count)
        ((log.drop (count - 8)).flatMap (Segment.records walHost)) = [] := by
  have disk := @crashAfter_disk β host bincode engine text dir log holds count
  obtain ⟨left, after, flushed, bin, sidecar, leftHolds, isRead⟩ := @Storage.flushed_late β
      (bincode.serialize (savedTables host engine.catalog)) text
      dir.log.wal.currentLsn log dir.disk walHost holds count late
  rw [flushed] at disk
  have files : (crashAfter host bincode engine text dir count).files = after.files :=
    congrArg Disk.files disk
  have directory :
      (crashAfter host bincode engine text dir count).log.directory = after.directory :=
    congrArg Disk.directory disk
  obtain ⟨opened, sameFiles, openedRead, crashed⟩ :=
    @withDataDir_holds β host depth bincode walHost now limit
      (crashAfter host bincode engine text dir count) left (directory.symm ▸ leftHolds)
  have lastLsn : readLastLsn after.files = skippedUpTo dir count := by
    unfold skippedUpTo
    by_cases unmarked : count < 7
    · rw [if_pos unmarked] at sidecar ⊢
      unfold readLastLsn
      rw [sidecar]
      rfl
    · rw [if_neg unmarked] at sidecar ⊢
      exact readLastLsn_decimal sidecar
  have loaded : loadFiles host depth bincode after.files .inMemory =
      some (registerTables host (loadTables (savedTables host engine.catalog)) .inMemory) := by
    unfold loadFiles
    rw [bin]
    simp only [bincode.roundTrip]
  rw [files] at sameFiles crashed
  rw [isRead] at openedRead crashed
  rw [loaded, lastLsn] at crashed
  unfold CrashConsistent
  rw [crashed]
  constructor
  · rintro ⟨next, found, reached, -, nothing⟩
    obtain ⟨final, -, isNext⟩ := map_eq_some_iff.mp reached
    cases isNext
    have empty := nothing late _ openedRead
    rwa [sameFiles, lastLsn] at empty
  · intro empty
    refine ⟨_, opened, map_eq_some_iff.mpr ⟨_, ?_, rfl⟩,
      @sameTableRows_registerTables host engine named, ?_⟩
    · rw [bind_some]
      unfold replayWalWithLsnFilter
      rw [empty]
      rfl
    · intro _ records found
      cases openedRead.symm.trans found
      rw [sameFiles, lastLsn]
      exact empty

theorem nothing_left_of_numbered
    (numbered : ∀ record ∈ log.flatMap (Segment.records walHost),
        0 < record.lsn ∧ record.lsn ≤ dir.log.wal.currentLsn)
    (marked : 7 ≤ count) :
    replayedRecords (skippedUpTo dir count)
      ((log.drop (count - 8)).flatMap (Segment.records walHost)) = [] := by
  unfold replayedRecords skippedUpTo
  rw [List.filter_eq_nil_iff, if_neg (by omega)]
  intro record mem
  obtain ⟨segment, inLog, isRecord⟩ := List.mem_flatMap.mp mem
  obtain ⟨pos, below⟩ :=
    numbered record (List.mem_flatMap.mpr ⟨segment, List.mem_of_mem_drop inLog, isRecord⟩)
  have inFile : inCheckpoint (some dir.log.wal.currentLsn) record = true := by
    exact Bool.and_eq_true_iff.mpr ⟨decide_eq_true below, decide_eq_true pos⟩
  unfold isReplayed
  rw [inFile]
  simp

end

/-- A crash after any number of file operations: the rows come back if and only
if the crash is before the rename and the directory was right, or nothing of
the log is left to execute.  Once the sidecar is written that is so for every
numbered log. -/
theorem checkpoint_crash_consistent_iff
    {β : Type} {host : SqlHost} {depth : Nat} {bincode : Bincode β}
    {walHost : WalHost} {now limit : UInt64} {engine : SqlEngine}
    {dir : DataDir β} {log : List Segment} (named : Named engine.catalog)
    (holds : Holds dir.log.directory log) (text : List Char) (count : Nat) :
    (CrashConsistent host depth bincode walHost now limit engine text dir count ↔ (count < 3 ∧
          Recovers host depth bincode walHost now limit engine dir) ∨ (3 ≤ count ∧
          replayedRecords (skippedUpTo dir count)
            ((log.drop (count - 8)).flatMap (Segment.records walHost)) = [])) ∧
      ((∀ record ∈ log.flatMap (Segment.records walHost),
          0 < record.lsn ∧ record.lsn ≤ dir.log.wal.currentLsn) → 7 ≤ count →
          CrashConsistent host depth bincode walHost now limit engine text dir count) := by
  constructor
  · rcases Nat.lt_or_ge count 3 with early | late
    · rw [crashConsistent_early holds early]
      constructor
      · exact fun recovers => .inl ⟨early, recovers⟩
      · rintro (⟨-, recovers⟩ | ⟨late, -⟩)
        · exact recovers
        · omega
    · rw [crashConsistent_late named holds late]
      constructor
      · exact fun empty => .inr ⟨late, empty⟩
      · rintro (⟨early, -⟩ | ⟨-, empty⟩)
        · omega
        · exact empty
  · intro numbered marked
    exact
      (crashConsistent_late named holds (by omega)).mpr (nothing_left_of_numbered numbered marked)

namespace Example

open Storage.Example

def plainBincode : Bincode (List SerializedTable) := tableBytes

def insertRecord : WalRecord := (WalRecord.autocommit insertText).stamped 1 5

def insertedDir : DataDir (List SerializedTable) :=
  { files :=
      { CheckpointFiles.empty _ with
        bin := some (savedTables insertHost (engineWith ∅).catalog) }
    log :=
      { directory := onlyDirectory insertRecord
        wal :=
          { currentSegment := 0, file := some 0, nextLsn := 2
            segmentLimit := 67108864, lastSyncedLsn := 1 } }
    left := none }

def insertedEngine : SqlEngine :=
  { engineWith ∅ with
    catalog := inMemory.catalog.insert "t" grown }

theorem named_inMemory : Named inMemory.catalog := named_empty.insert rfl

/-- A crash when the sidecar is written and the log not yet deleted. -/
theorem marked_crash_is_consistent : CrashConsistent insertHost 1 plainBincode zeroHost 0 67108864
      insertedEngine [] insertedDir 7 := by
  have named : Named insertedEngine.catalog := named_inMemory.insert rfl
  refine (checkpoint_crash_consistent_iff named
    (holds_onlyDirectory insertRecord) [] 7).2 ?_ (Nat.le_refl 7)
  decide

def holding (table : Table) : SqlEngine :=
  { inMemory with
    catalog := inMemory.catalog.insert "t" table }

theorem registerTables_single {table : Table} (isNamed : table.name = "t") :
    registerTables insertHost
        (loadTables (savedTables insertHost (inMemory.catalog.insert "t" table))) .inMemory =
      holding (restoreTable table) := by
  have named : Named (inMemory.catalog.insert "t" table) := named_inMemory.insert isNamed
  have catalogs : (registerTables insertHost
        (loadTables (savedTables insertHost (inMemory.catalog.insert "t" table)))
        .inMemory).catalog =
      inMemory.catalog.insert "t" (restoreTable table) := by
    refine Finmap.ext_lookup fun name => ?_
    rw [lookup_registerTables named]
    by_cases isDummy : name = "__dummy__"
    · subst isDummy
      rfl
    · rw [if_neg isDummy, lookup_insert_eq, lookup_insert_eq, lookup_inMemory isDummy]
      by_cases isTable : name = "t"
      · simp [isTable]
      · simp [isTable]
  exact congrArg (fun catalog => { inMemory with catalog := catalog }) catalogs

def tableOf (cells : List Txn.Cell) : Table :=
  { oneColumn with columns := [cells], rowCount := cells.length }

/-- Opening such a directory replays the row over the rows of its checkpoint. -/
theorem withDataDir_replays {dir : DataDir (List SerializedTable)} {cells : List Txn.Cell}
    (holds : Holds dir.log.directory [onlySegment insertRecord])
    (loaded : loadFiles insertHost 1 plainBincode dir.files .inMemory =
      some (holding (restoreTable (tableOf cells))))
    (noLsn : readLastLsn dir.files = none) : ∃ next opened,
      withDataDir insertHost 1 plainBincode zeroHost (Os.good 0) 67108864 dir =
          some (next, opened) ∧
        next.catalog = (holding (restoreTable (tableOf cells))).catalog.insert "t"
            { restoreTable (tableOf cells) with
              columns := [cells ++ [9]], rowCount := cells.length + 1 } := by
  obtain ⟨opened, -, -, restarted⟩ :=
    @withDataDir_holds _ insertHost 1 plainBincode zeroHost 0 67108864 dir _ holds
  rw [List.flatMap_singleton, records_onlySegment, loaded, noLsn] at restarted
  exact ⟨_, opened, restarted, rfl⟩

/-- The directory was right, but after a crash behind the rename of
`checkpoint.bin` the row is there twice. -/
theorem row_comes_back_twice :
    Recovers insertHost 1 plainBincode zeroHost 0 67108864 insertedEngine insertedDir ∧
      ∃ next opened, withDataDir insertHost 1 plainBincode zeroHost (Os.good 0) 67108864
            (crashAfter insertHost plainBincode insertedEngine [] insertedDir 3) =
          some (next, opened) ∧
        (insertedEngine.catalog.lookup "t").map Table.columns = some [[9]] ∧
        (next.catalog.lookup "t").map Table.columns = some [[9, 9]] := by
  constructor
  · obtain ⟨next, opened, restarted, isCatalog⟩ :=
      @withDataDir_replays insertedDir [] (holds_onlyDirectory insertRecord)
        (congrArg some (@registerTables_single (tableOf []) rfl)) rfl
    refine ⟨next, opened, restarted, ?_⟩
    intro name notDummy
    rw [isCatalog]
    unfold insertedEngine holding
    rw [lookup_insert_eq, lookup_insert_eq, lookup_insert_eq, lookup_inMemory notDummy]
    by_cases isTable : name = "t"
    · rw [if_pos isTable, if_pos isTable]
      rfl
    · rw [if_neg isTable, if_neg isTable, if_neg isTable]
  · obtain ⟨next, opened, restarted, isCatalog⟩ :=
      @withDataDir_replays (crashAfter insertHost plainBincode insertedEngine [] insertedDir 3) [9]
        (holds_onlyDirectory insertRecord)
        (congrArg some (@registerTables_single (tableOf [9]) rfl)) rfl
    refine ⟨next, opened, restarted, rfl, ?_⟩
    rw [isCatalog]
    rfl

end Example

end TurboGP.Engine
