import Mathlib.Data.Finmap
import TurboGP.Txn.TableMvcc

/-!
# The query engine's state

The state of `QueryEngine`, the monads its methods run in, and what the engine
takes from outside the modelled code.
-/

namespace TurboGP.Engine

open Datasource Sql Txn

abbrev Catalog := Finmap (fun _ : String => Table)

structure ResultColumn where
  name : String
  values : List Cell
  stringValues : Option (List String)
  typeOid : Nat
  nullMask : Option (List Bool)
  deriving DecidableEq, Repr

structure QueryResult where
  columns : List ResultColumn
  rowCount : Nat
  deriving DecidableEq, Repr

def QueryResult.empty : QueryResult :=
  { columns := [], rowCount := 0 }

structure HistoryRow where
  values : List Cell
  validFrom : Nat
  validTo : Nat
  deriving DecidableEq, Repr

/-- The sidecar of a system-versioned table (`exec/temporal.rs`). -/
structure TemporalTable where
  columnNames : List String
  currentRows : List (List Cell × Nat)
  history : List HistoryRow
  lastModified : Nat
  deriving DecidableEq, Repr

namespace TemporalTable

def insert (temporal : TemporalTable) (now : Nat) (values : List Cell) : TemporalTable :=
  { temporal with
    lastModified := now
    currentRows := temporal.currentRows ++ [(values, now)] }

/-- Replace the first current row that satisfies the predicate. -/
def update (temporal : TemporalTable) (now : Nat)
    (predicate : List Cell → Bool) (newValues : List Cell) :
    TemporalTable :=
  match temporal.currentRows.findIdx? (fun row => predicate row.1) with
  | none => temporal
  | some i =>
    { temporal with
      history := temporal.history ++
          (temporal.currentRows[i]?.toList.map
            (fun row =>
              { values := row.1, validFrom := row.2, validTo := now }))
      currentRows := temporal.currentRows.set i (newValues, now)
      lastModified := now }

/-- Move every current row that satisfies the predicate to the history. -/
def delete (temporal : TemporalTable) (now : Nat) (predicate : List Cell → Bool) : TemporalTable :=
  { temporal with
    history := temporal.history ++
        (temporal.currentRows.filter (fun row => predicate row.1)).map
          (fun row =>
            { values := row.1, validFrom := row.2, validTo := now })
    currentRows := temporal.currentRows.filter (fun row => !predicate row.1)
    lastModified := now }

end TemporalTable

/-- The open transaction of `TxnManager`: its id and its copy of the
catalog. -/
structure Transaction where
  id : Nat
  snapshot : Catalog

/-- `next_id` is a `u64` that grows by one with every BEGIN; it is taken to stay
below 2 ^ 64. -/
structure TxnManager where
  nextId : Nat
  active : Option Transaction

def TxnManager.new : TxnManager :=
  { nextId := 1, active := none }

/-- What the modelled code takes from outside: the hash function of the cell
encoding, the float conversions of the runtime, the iteration order of the
catalog's hash map, the clock, the number of worker threads, and the
evaluation of a WHERE text on the rows of a table (`eval_simple_where`). -/
structure Host where
  xxh3 : List Char → Cell
  parseF64 : List Char → Option UInt64
  formatF64 : UInt64 → List Char
  compareF64 : UInt64 → UInt64 → Option Ordering
  f64OfI64 : Int64 → UInt64
  tableNames : Catalog → List String
  clock : Nat → Nat
  numThreads : Nat
  evalSimpleWhere : Table → String → Except Fault (List Bool)
  mem_tableNames : ∀ catalog name, name ∈ tableNames catalog ↔ name ∈ catalog
  nodup_tableNames : ∀ catalog, (tableNames catalog).Nodup

/-- `clockReads` counts the readings of the clock so far. -/
structure QueryEngine where
  catalog : Catalog
  temporals : Finmap (fun _ : String => TemporalTable)
  txnManager : TxnManager
  savepoints : List (List Char × Catalog)
  mvccTxnManager : MvccTxnManager
  mvccEnabled : Bool
  clockReads : Nat

def dummyTable : Table :=
  { name := "__dummy__", columns := [[0]], columnNames := ["__dummy_col__"], rowCount := 1
    stringColumns := [none], nullBitmaps := [none], schema := none, rowVersions := []
    i32Columns := [none] }

def QueryEngine.inMemory : QueryEngine :=
  { catalog := (∅ : Catalog).insert dummyTable.name dummyTable, temporals := ∅, txnManager := .new
    savepoints := [], mvccTxnManager := .new, mvccEnabled := false, clockReads := 0 }

abbrev TableM := EStateM Fault Table

abbrev EngineM := EStateM Fault QueryEngine

def fail {σ α : Type} (error : Error) : EStateM Fault σ α := throw (.error error)

def tableNotFound (name : String) : Error := .notFound s!"table \"{name}\""

def columnNotFound (name : String) : Error := .notFound s!"column \"{name}\""

/-- `catalog.get`, with its `ok_or_else`. -/
def requireTable (name : String) : EngineM Table := do
  match (← get).catalog.lookup name with
  | some table => return table
  | none => fail (tableNotFound name)

/-- `catalog.with_mut`, with its `ok_or_else`: the table keeps what the
closure did to it also when the closure returns an error. -/
def withMut {α : Type} (name : String) (closure : TableM α) : EngineM α := fun engine =>
  match engine.catalog.lookup name with
  | none => .error (.error (tableNotFound name)) engine
  | some table =>
    match closure table with
    | .ok value changed => .ok value { engine with catalog := engine.catalog.insert name changed }
    | .error fault changed =>
      .error fault { engine with catalog := engine.catalog.insert name changed }

def readClock (host : Host) : EngineM Nat := do
  let engine ← get
  set { engine with clockReads := engine.clockReads + 1 }
  return host.clock engine.clockReads

/-- Change the sidecar of a system-versioned table; the clock is read once for
the call.  Other tables have none. -/
def withTemporal (host : Host) (name : String)
    (change : Nat → TemporalTable → TemporalTable) : EngineM Unit := do
  match (← get).temporals.lookup name with
  | none => return ()
  | some temporal =>
    let now ← readClock host
    modify
      (fun engine =>
        { engine with
          temporals := engine.temporals.insert name (change now temporal) })

end TurboGP.Engine
