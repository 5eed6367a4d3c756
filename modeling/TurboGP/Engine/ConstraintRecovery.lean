import TurboGP.Engine.CheckpointCrash
import TurboGP.Engine.InsertRows

/-! # Constraints after a restart -/

namespace TurboGP.Engine

open Option
open List
open Datasource Sql Txn Effect Storage

/-- The checks against one schema, without its CHECK constraints. -/
def checkKeptRows (host : Host) (table : Table) (colIndices : List Nat)
    (values : List (List String)) : Except Fault Unit :=
  match table.schema with
  | none => .ok ()
  | some schema => do
    values.zipIdx.forM
      (fun entry => colIndices.zipIdx.forM (fun column => do
            let text ← index entry.1 column.2
            checkInsertedValue host table schema entry.2 column.1 text))
    values.zipIdx.forM
      (fun entry => do
        let row ← insertedRow host table.columns.length colIndices entry.1
        checkUniqueColumns table schema (insertConflicts table) entry.2 row
        checkUniqueConstraints table schema (fun _ => false) entry.2 row)

/-- The checks of an INSERT in their order; `checkRows` are those against the
table's own schema. -/
def insertChecksWith (checkRows : Table → List Nat → List (List String) → Except Fault Unit)
    (host : Host) (catalog : Catalog) (ins : Insert) :
    Except Fault Unit :=
  match catalog.lookup ins.table with
  | none => .error (.error (tableNotFound ins.table))
  | some table => do
    checkInsertForeignKeys host catalog table ins
    let colIndices ← insertColumns table ins.columns
    checkValueCount colIndices ins.values
    checkRows table colIndices ins.values

def insertChecks (host : Host) : Catalog → Insert → Except Fault Unit :=
  insertChecksWith (checkInsertedRows host) host

def keptChecks (host : Host) : Catalog → Insert → Except Fault Unit :=
  insertChecksWith (checkKeptRows host) host

def Rejects (host : SqlHost) (depth : Nat) (sql : List Char) (engine : SqlEngine) : Prop :=
  ∃ error next, execute host depth sql engine = .error (.error error) next

section

variable {host : Host} {ins : Insert} {txnId : Option Nat}

theorem failsAs_insertRows (mvccEnabled : Bool) (table : Table) : FailsAs (· = .panic)
      (do
        let colIndices ← insertColumns table ins.columns
        checkValueCount colIndices ins.values
        checkInsertedRows host table colIndices ins.values)
      (insertRows host mvccEnabled txnId ins) table := by
  refine .bind_ok rfl ?_
  refine .ofExcept_bind fun colIndices => ?_
  refine .ofExcept_bind fun _ => ?_
  refine .bind_throws (.ofExcept _) fun _ => ?_
  exact throws_applyInsert _ _ _ _ _

theorem FailsAs.withMut {α : Type} {name : String} {closure : TableM α}
    {check : Except Fault Unit} {engine : QueryEngine} {table : Table}
    {allowed : Fault → Prop} (held : engine.catalog.lookup name = some table)
    (decides : FailsAs allowed check closure table) :
    FailsAs allowed check (withMut name closure) engine := by
  intro fault excluded
  rw [← decides fault excluded]
  unfold Engine.withMut
  rw [held]
  cases out : closure table with
  | ok value changed => simp [out]
  | error found changed => simp [out]

/-- An INSERT returns an error exactly if one of its checks does. -/
theorem failsAs_executeInsert (engine : QueryEngine) :
    FailsAs (· = .panic) (insertChecks host engine.catalog ins)
      (executeInsert host ins txnId) engine := by
  unfold insertChecks insertChecksWith
  cases held : engine.catalog.lookup ins.table with
  | none => exact .of_error (bind_run_error (requireTable_absent held))
  | some table =>
    refine .bind_ok (requireTable_ok held) ?_
    refine .bind_ok rfl ?_
    refine .ofExcept_bind fun _ => ?_
    refine .bind_ok rfl ?_
    refine FailsAs.bind_throws (FailsAs.withMut held (failsAs_insertRows _ table)) fun rows => ?_
    refine .bind (.forM fun _ _ => ?_) fun _ => .pure _
    intro state thrown next failed
    exact (throws_withTemporal _ _ state thrown next failed).elim

/-- An INSERT returns an error exactly if one of its checks does, the same one,
and then no table has changed. -/
theorem executeInsert_all_or_nothing (host : Host) (ins : Insert) (txnId : Option Nat)
    (engine : QueryEngine) (error : Error) :
    ((∃ next, executeInsert host ins txnId engine = .error (.error error) next) ↔
      insertChecks host engine.catalog ins = .error (.error error)) ∧
    ∀ next, executeInsert host ins txnId engine = .error (.error error) next →
      SameTables engine next :=
  ⟨failsAs_executeInsert engine (.error error) nofun, errorKeeps_executeInsert ins error⟩

end

section

theorem restoreTable_eq (table : Table) : restoreTable table =
      { table with
        schema := table.schema.map restoreSchema
        i32Columns := replicate table.rowCount none } :=
  deserializeTable_serializeTable table

theorem foreignKeys_restoreSchema (schema : TableSchema) :
    (restoreSchema schema).foreignKeys = schema.foreignKeys := by
  refine Eq.trans (map_map ..) ?_
  refine (map_congr_left ?_).trans (map_id _)
  intro key _
  obtain ⟨columns, refTable, refColumns, onDelete⟩ := key
  cases onDelete with
  | none => rfl
  | some action => cases action <;> rfl

def restoreColumn (column : ColumnSchema) : ColumnSchema :=
  { column with
    colType := colTypeFromName (typeName column.colType)
    check := none }

theorem columns_restoreSchema (schema : TableSchema) :
    (restoreSchema schema).columns = schema.columns.map restoreColumn := by
  exact map_map ..

theorem foreignKeys_restoreTable (table : Table) :
    (restoreTable table).foreignKeys = table.foreignKeys := by
  unfold Table.foreignKeys
  rw [restoreTable_eq]
  cases table.schema with
  | none => rfl
  | some schema => exact foreignKeys_restoreSchema schema

variable (host : Host) (table : Table) (schema : TableSchema)

theorem checkInsertedValue_restored (rowIdx colIdx : Nat) (text : String) :
    checkInsertedValue host (restoreTable table) (restoreSchema schema) rowIdx colIdx text =
      checkInsertedValue host table schema rowIdx colIdx text := by
  unfold checkInsertedValue
  rw [columns_restoreSchema, getElem?_map]
  cases schema.columns[colIdx]? with
  | none => rfl
  | some column => rfl

theorem checkChecks_restored (rowIdx : Nat) (row : NewRow) :
    checkChecks host (restoreTable table) (restoreSchema schema) rowIdx row = .ok () := by
  unfold checkChecks
  rw [columns_restoreSchema]
  induction schema.columns with
  | nil => rfl
  | cons column rest ih => exact ih

theorem checkUniqueColumns_restored (rowIdx : Nat) (row : NewRow) :
    checkUniqueColumns (restoreTable table) (restoreSchema schema)
        (insertConflicts (restoreTable table)) rowIdx row =
      checkUniqueColumns table schema (insertConflicts table) rowIdx row := by
  unfold checkUniqueColumns
  rw [columns_restoreSchema, zipIdx_map, restoreTable_eq]
  exact forM_map_eq (fun _ => rfl) _

theorem checkUniqueConstraints_restored (skips : Nat → Bool) (rowIdx : Nat) (row : NewRow) :
    checkUniqueConstraints (restoreTable table) (restoreSchema schema) skips rowIdx row =
      checkUniqueConstraints table schema skips rowIdx row := rfl

theorem checkInsertedRows_restored (colIndices : List Nat) (values : List (List String)) :
    checkInsertedRows host (restoreTable table) colIndices values =
      checkKeptRows host table colIndices values := by
  unfold checkInsertedRows checkKeptRows
  have schemas : (restoreTable table).schema = table.schema.map restoreSchema := by
    rw [restoreTable_eq]
  rw [schemas]
  cases table.schema with
  | none => rfl
  | some schema =>
    simp only [map_some, checkInsertedValue_restored,
      checkChecks_restored, checkUniqueColumns_restored, checkUniqueConstraints_restored]
    rfl

end

/-- The tables of the second catalog are those of the first, restored. -/
def RestoredFrom (catalog restored : Catalog) : Prop :=
  ∀ name, restored.lookup name = (catalog.lookup name).map restoreTable

section

variable {host : Host} {catalog restored : Catalog}

variable (restores : RestoredFrom catalog restored)

include restores

theorem RestoredFrom.checkForeignKey
    (child : Table) (fk : TableForeignKey) (rowIdx : Nat) (row : NewRow) :
    checkForeignKey restored (restoreTable child) fk rowIdx row =
      checkForeignKey catalog child fk rowIdx row := by
  unfold Engine.checkForeignKey
  rw [restores fk.refTable]
  cases catalog.lookup fk.refTable with
  | none => rfl
  | some parent => rfl

theorem RestoredFrom.validateForeignKeys (name : String) (rows : List NewRow) :
    validateForeignKeys restored name rows = validateForeignKeys catalog name rows := by
  unfold Engine.validateForeignKeys
  rw [restores name]
  cases catalog.lookup name with
  | none => rfl
  | some child => simp only [map_some, foreignKeys_restoreTable, restores.checkForeignKey]

theorem RestoredFrom.insertChecks (ins : Insert) :
    insertChecks host restored ins = keptChecks host catalog ins := by
  unfold Engine.insertChecks keptChecks insertChecksWith
  rw [restores ins.table]
  cases catalog.lookup ins.table with
  | none => rfl
  | some table =>
    have keys : checkInsertForeignKeys host restored (restoreTable table) ins =
        checkInsertForeignKeys host catalog table ins := by
      unfold checkInsertForeignKeys
      simp only [foreignKeys_restoreTable, restores.validateForeignKeys]
      rfl
    simp only [map_some, keys, checkInsertedRows_restored]
    rfl

end

/-- The tables of the catalog beside the table for queries without FROM, which
a new engine has and which is not saved. -/
def withDummy (catalog : Catalog) : Catalog := catalog.insert "__dummy__" dummyTable

theorem restoredFrom_registerTables {host : SqlHost} {catalog : Catalog} (named : Named catalog) :
    RestoredFrom (withDummy catalog)
      (registerTables host (loadTables (savedTables host catalog)) .inMemory).catalog := by
  intro name
  unfold withDummy
  rw [lookup_registerTables named, FiniteMap.lookup_insert_eq]
  by_cases isDummy : name = "__dummy__"
  · rw [if_pos isDummy, if_pos isDummy, isDummy]
    rfl
  · rw [if_neg isDummy, if_neg isDummy, lookup_inMemory isDummy, or_none]

section

variable {β : Type} {host : SqlHost} {depth : Nat} {bincode : Bincode β}
  {walHost : WalHost} {now limit : UInt64} {engine : SqlEngine}
  {sql : List Char} {ins : Insert} {dir : DataDir β} {log : List Segment}

theorem reopened_after_flush (free : dir.left = none)
    (holds : Holds dir.log.directory log) (text : List Char) :
    ∃ flushed opened,
      flushWithCheckpoint (bincode.serialize (savedTables host engine.catalog)) text dir =
          .ok () flushed ∧
        withDataDir host depth bincode walHost (Os.good now) limit flushed =
          some (registerTables host
              (loadTables (savedTables host engine.catalog)) .inMemory, opened) := by
  obtain ⟨directory, ran, emptied⟩ := flushWithCheckpoint_run
      (bincode.serialize (savedTables host engine.catalog)) text free holds
  let flushed : DataDir β :=
    { dir with
      files :=
        { bin := some (bincode.serialize (savedTables host engine.catalog)), binTmp := none
          sql := some text, sqlTmp := none, sidecar := some (decimal dir.log.wal.currentLsn.toNat) }
      log.directory := directory
      log.wal.currentSegment := 0
      log.wal.file := some 0 }
  obtain ⟨opened, -, -, restarted⟩ :=
    @withDataDir_holds β host depth bincode walHost now limit flushed _ emptied
  have loaded : loadFiles host depth bincode flushed.files .inMemory =
      some (registerTables host (loadTables (savedTables host engine.catalog)) .inMemory) := by
    unfold loadFiles
    simp only [flushed, bincode.roundTrip]
  refine ⟨flushed, opened, ran, ?_⟩
  rw [restarted, loaded]
  rfl

theorem rejects_iff_insertChecks (text : ParsedDml host sql (.insert ins))
    (mode : engine.mvccEnabled = false) (idle : engine.txnManager.active = none) :
    Rejects host (depth + 1) sql engine ↔
      ∃ error, insertChecks host.toHost engine.catalog ins = .error (.error error) := by
  refine exists_congr fun error => ?_
  rw [execute_dml_idle text mode idle]
  have decides :=
    @failsAs_executeInsert host.toHost ins none engine.toQueryEngine (.error error) (by rintro ⟨⟩)
  rw [← decides]
  show (∃ next, onCore (executeInsert host.toHost ins none) engine.uncached = _) ↔
      ∃ next, executeInsert host.toHost ins none engine.uncached.toQueryEngine = _
  unfold onCore
  cases executeInsert host.toHost ins none
      engine.uncached.toQueryEngine with
  | ok result core => simp
  | error fault core => simp

end

/-- After CHECKPOINT and a restart an INSERT is rejected if and only if, on the
tables that were saved, a check other than a CHECK rejects it. -/
theorem reopened_rejects_iff {β : Type} {host : SqlHost} {depth : Nat} {bincode : Bincode β}
    {walHost : WalHost} {now limit : UInt64} {engine : SqlEngine}
    {dir : DataDir β} {log : List Segment} {sql : List Char} {ins : Insert}
    (named : Named engine.catalog) (free : dir.left = none) (holds : Holds dir.log.directory log)
    (parsed : ParsedDml host sql (.insert ins)) (text : List Char) :
    ∃ flushed reopened opened,
      flushWithCheckpoint (bincode.serialize (savedTables host engine.catalog)) text dir =
          .ok () flushed ∧
        withDataDir host (depth + 1) bincode walHost (Os.good now) limit flushed =
          some (reopened, opened) ∧
        (Rejects host (depth + 1) sql reopened ↔ ∃ error,
            keptChecks host.toHost (withDummy engine.catalog) ins = .error (.error error)) := by
  obtain ⟨flushed, opened, ran, restarted⟩ :=
    @reopened_after_flush β host (depth + 1) bincode walHost now limit
      engine dir log free holds text
  refine ⟨flushed, _, opened, ran, restarted, ?_⟩
  rw [rejects_iff_insertChecks parsed rfl rfl]
  rw [(restoredFrom_registerTables named).insertChecks]

namespace Example

open Storage.Example

/-- `CREATE TABLE t (v INT NOT NULL PRIMARY KEY CHECK (v < 5))` with cells. -/
def checkedTable (cells : List Cell) : Table :=
  { tableOf cells with
    schema := some
        { columns :=
            [{ name := "v", colType := .int, notNull := true, primaryKey := true, unique := false
               check := some (.binary (.column "v") .lt (.literal (.int 5))) }]
          checks := []
          uniqueConstraints := []
          foreignKeys := [] } }

def checkedEngine (cells : List Cell) : SqlEngine := holding (checkedTable cells)

def emptySegment : Segment :=
  { number := 0, lines := [], tail := [] }

def savedDir : DataDir (List SerializedTable) :=
  { files :=
      { CheckpointFiles.empty _ with
        bin := some (savedTables insertHost (engineWith ∅).catalog) }
    log :=
      { directory := singleDirectory emptySegment
        wal :=
          { currentSegment := 0, file := some 0, nextLsn := 1
            segmentLimit := 67108864, lastSyncedLsn := 0 } }
    left := none }

theorem holds_savedDir : Holds savedDir.log.directory [emptySegment] :=
  holds_singleDirectory ⟨forall_mem_nil _, forall_mem_nil _⟩

/-- A second row with the key 9 is rejected before and after. -/
theorem duplicate_key_rejected : Rejects insertHost 1 insertText (checkedEngine [9]) ∧
      ∃ flushed reopened opened,
        flushWithCheckpoint (savedTables insertHost (checkedEngine [9]).catalog) [] savedDir =
            .ok () flushed ∧
          withDataDir insertHost 1 plainBincode zeroHost (Os.good 9) 67108864 flushed =
            some (reopened, opened) ∧
          Rejects insertHost 1 insertText reopened := by
  refine ⟨⟨_, _, rfl⟩, ?_⟩
  obtain ⟨flushed, reopened, opened, ran, restarted, rejects⟩ :=
    @reopened_rejects_iff _ insertHost 0 plainBincode zeroHost 9 67108864
      (checkedEngine [9]) savedDir _ insertText _ (named_inMemory.insert rfl)
      rfl holds_savedDir parsedDml_insertText []
  exact ⟨flushed, reopened, opened, ran, restarted, rejects.mpr ⟨_, rfl⟩⟩

/-- The INSERT breaks the CHECK; after CHECKPOINT and a restart it returns Ok
and the row is in the table. -/
theorem check_is_forgotten : Rejects insertHost 1 insertText (checkedEngine []) ∧
      ∃ flushed reopened opened result next,
        flushWithCheckpoint (savedTables insertHost (checkedEngine []).catalog) [] savedDir =
            .ok () flushed ∧
          withDataDir insertHost 1 plainBincode zeroHost (Os.good 9) 67108864 flushed =
            some (reopened, opened) ∧
          execute insertHost 1 insertText reopened = .ok result next ∧
          (next.catalog.lookup "t").map Table.columns = some [[9]] := by
  refine ⟨⟨_, _, rfl⟩, ?_⟩
  obtain ⟨flushed, opened, ran, restarted⟩ :=
    @reopened_after_flush _ insertHost 1 plainBincode zeroHost 9 67108864
      (checkedEngine []) savedDir _ rfl holds_savedDir []
  have reopened := @registerTables_single (checkedTable []) rfl
  refine ⟨flushed, holding (restoreTable (checkedTable [])), opened, _, _, ran, ?_, rfl, rfl⟩
  rw [restarted]
  exact congrArg (fun engine => some (engine, opened)) reopened

end Example

end TurboGP.Engine
