import Mathlib.Data.Finset.Sort
import Mathlib.Data.String.Basic
import TurboGP.Engine.Dml
import TurboGP.Engine.Scan
import TurboGP.Lib.GuardedRun

/-!
# Sessions in MVCC mode

`execute` for the statements of a session with MVCC enabled, and the runs of
an engine: statements, tables loaded into the catalog, and the background
transactions the engine offers beside its own.
-/

namespace TurboGP.Engine

open Datasource Sql Txn QueryResult MvccTxnManager

/-- Tables the engine keeps for itself. -/
def isInternal (name : String) : Bool := name.toList.take 2 == ['_', '_']

def vacuumClosure (mgr : MvccTxnManager) : TableM Unit := do
  let (_, compacted) ← ofExcept (mgr.vacuumTable (← get))
  set compacted

def executeVacuum (host : Host) : EngineM QueryResult := do
  let engine ← get
  if engine.mvccEnabled then
    let mgr := engine.mvccTxnManager.cleanupAborted.2
    set { engine with mvccTxnManager := mgr }
    ((host.tableNames engine.catalog).filter
      (fun name => !isInternal name)).forM (fun name => withMut name (vacuumClosure mgr))
  return empty

inductive MvccStatement
  | begin
  | commit
  | rollback
  | vacuum
  | dml (statement : DmlStatement)

/-- Replace the manager by what a transaction statement makes of it. -/
def controlTransaction (control : MvccTxnManager → Except String (Nat × MvccTxnManager)) :
    EngineM Unit := do
  let engine ← get
  match control engine.mvccTxnManager with
  | .error message => fail (.other message)
  | .ok (_, mgr) => set { engine with mvccTxnManager := mgr }

def clearSavepoints : EngineM Unit := modify (fun engine => { engine with savepoints := [] })

def executeMvcc (host : Host) (depth : Nat) : MvccStatement → EngineM QueryResult
  | .begin => do
    controlTransaction beginCompat
    return empty
  | .commit => do
    controlTransaction commitCompat
    clearSavepoints
    return empty
  | .rollback => do
    controlTransaction rollbackCompat
    clearSavepoints
    return empty
  | .vacuum => executeVacuum host
  | .dml statement => do
    let txnId := (← get).mvccTxnManager.activeId
    executeDml host depth statement txnId

inductive EngineAction
  | execute (statement : MvccStatement)
  | register (table : Table)
  | beginBackground (level : IsolationLevel)
  | commitBackground (txnId : Nat)

namespace QueryEngine

/-- The engine after an action.  A statement that returns an error leaves the
engine as it got; a panic or an exhausted stack ends the run.  Only tables
without version chains are loaded, and only a running transaction can be
committed in the background. -/
def step (host : Host) (depth : Nat) (engine : QueryEngine) : EngineAction → Option QueryEngine
  | .execute statement =>
    match executeMvcc host depth statement engine with
    | .ok _ next => some next
    | .error (.error _) next => some next
    | .error _ _ => none
  | .register table =>
    if table.rowVersions.isEmpty then
      some { engine with catalog := engine.catalog.insert table.name table }
    else none
  | .beginBackground level =>
    some
      { engine with
        mvccTxnManager := (engine.mvccTxnManager.beginWithIsolation level).2 }
  | .commitBackground txnId =>
    if engine.mvccTxnManager.txnStates.lookup txnId = some .inProgress then
      some
        { engine with
          mvccTxnManager := (engine.mvccTxnManager.commit txnId).2 }
    else none

/-- MVCC enabled on a new manager, over tables without version chains. -/
def Initial (engine : QueryEngine) : Prop :=
  engine.mvccEnabled = true ∧ engine.mvccTxnManager = .new ∧
    ∀ name table, engine.catalog.lookup name = some table → table.rowVersions = []

def Reachable (host : Host) (depth : Nat) (engine : QueryEngine) : Prop :=
  GuardedRun.Reachable (step host depth) Initial engine

def withTable (table : Table) : QueryEngine :=
  { inMemory with
    catalog := inMemory.catalog.insert table.name table
    mvccEnabled := true }

theorem initial_withTable {table : Table} (noChains : table.rowVersions = []) :
    (withTable table).Initial := by
  refine ⟨rfl, rfl, ?_⟩
  intro name found held
  simp only [withTable, inMemory, FiniteMap.lookup_insert_eq, Finmap.lookup_empty] at held
  split at held
  · cases held
    exact noChains
  · split at held
    · cases held
      rfl
    · cases held

end QueryEngine

instance isTrans_string : IsTrans String (· ≤ ·) := inferInstance

instance antisymm_string : Std.Antisymm ((· ≤ ·) : String → String → Prop) := inferInstance

/-- A host without floats, whose clock stands still and whose WHERE clauses
select nothing. -/
def plainHost : Host :=
  { xxh3 := fun _ => 0
    parseF64 := fun _ => none
    formatF64 := fun _ => []
    compareF64 := fun _ _ => none
    f64OfI64 := fun _ => 0
    tableNames := fun catalog => catalog.keys.sort
    clock := fun _ => 0
    numThreads := 1
    evalSimpleWhere := fun table _ => .ok (List.replicate table.rowCount false)
    mem_tableNames := fun catalog name => by simp [Finmap.mem_keys]
    nodup_tableNames := fun catalog => catalog.keys.sort_nodup _ }

def oneColumn : Table :=
  { name := "t", columns := [[]], columnNames := ["v"], rowCount := 0, stringColumns := [none]
    nullBitmaps := [none], schema := none, rowVersions := [], i32Columns := [none] }

/-- `INSERT INTO t VALUES (9)`. -/
def insertNine : DmlStatement := .insert { table := "t", columns := none, values := [["9"]] }

end TurboGP.Engine
