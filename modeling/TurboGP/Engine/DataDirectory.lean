import TurboGP.Engine.Confined
import TurboGP.Engine.Recovery
import TurboGP.Storage.BinaryCheckpoint

/-!
# The data directory of an engine

`with_data_dir` of `engine/mod.rs`: an engine is opened on a data directory.
-/

namespace TurboGP.Engine

open List
open Datasource Sql.Text
open Storage (WalHost Os DataDir CheckpointFiles Bincode SerializedTable serializeTable
  deserializeTable readAll readLastLsn reopen)

/-- The tables that `BinaryCheckpoint::save` writes. -/
def savedTables (host : SqlHost) (catalog : Catalog) : List SerializedTable :=
  (((host.tableNames catalog).filter (· != "__dummy__")).filterMap
    catalog.lookup).map serializeTable

/-- `BinaryCheckpoint::load`, on what `bincode` reads. -/
def loadTables (tables : List SerializedTable) : Catalog :=
  tables.foldl
    (fun catalog saved =>
      let table := deserializeTable saved
      catalog.insert table.name table)
    ∅

def registerTables (host : SqlHost) (loaded : Catalog) (engine : SqlEngine) : SqlEngine :=
  { engine with
    catalog := ((host.tableNames loaded).filter (· != "__dummy__")).foldl
        (fun catalog name =>
          match loaded.lookup name with
          | some table => catalog.insert table.name table
          | none => catalog)
        engine.catalog }

def textLines (text : List Char) : List (List Char) :=
  let (complete, tail) := Fields.lines '\n' text
  complete.map
      (fun line =>
        if line.getLast? = some '\r' then line.dropLast else line) ++
    (if tail = [] then [] else [tail])

/-- One line of `Checkpoint::load`; an error is ignored. -/
def loadLine (host : SqlHost) (depth : Nat) (engine : SqlEngine)
    (line : List Char) : Option SqlEngine :=
  let sql := trim line
  if sql.isEmpty || "--".toList.isPrefixOf sql then some engine
  else
    match execute host depth sql engine with
    | .ok _ next => some next
    | .error (.error _) next => some next
    | .error _ _ => none

def loadCheckpoint (host : SqlHost) (depth : Nat)
    (content : Option (List Char)) (engine : SqlEngine) :
    Option SqlEngine :=
  match content with
  | none => some engine
  | some text => (textLines text).foldlM (loadLine host depth) engine

section

variable {β : Type} (host : SqlHost) (depth : Nat) (bincode : Bincode β)

def loadFiles (files : CheckpointFiles β) (engine : SqlEngine) : Option SqlEngine :=
  match files.bin with
  | some bytes =>
    match bincode.deserialize bytes with
    | some tables => some (registerTables host (loadTables tables) engine)
    | none => loadCheckpoint host depth files.sql engine
  | none => loadCheckpoint host depth files.sql engine

/-- `with_data_dir`; `none` is an error or a panic. -/
def withDataDir (walHost : WalHost) (os : Os) (segmentLimit : UInt64)
    (directory : DataDir β) : Option (SqlEngine × DataDir β) := do
  let opened ← (reopen walHost os segmentLimit directory).toOption
  let base ← loadFiles host depth bincode opened.files .inMemory
  let records ← (readAll walHost opened.log.directory).toOption
  let engine ← replayWalWithLsnFilter host depth (readLastLsn opened.files) records base
  return (engine, opened)

end

section

variable {host : SqlHost} {catalog : Catalog}

def restoreTable (table : Table) : Table := deserializeTable (serializeTable table)

theorem named_loadTables (tables : List SerializedTable) : Named (loadTables tables) := by
  suffices keeps : ∀ start : Catalog, Named start →
        Named
          (tables.foldl (fun catalog saved =>
              let table := deserializeTable saved
              catalog.insert table.name table) start) from
    keeps ∅ named_empty
  induction tables with
  | nil => exact fun start named => named
  | cons saved rest ih =>
    intro start named
    exact ih _ (named.insert rfl)

theorem lookup_loadTables (named : Named catalog) (name : String) :
    (loadTables (savedTables host catalog)).lookup name =
      if name = "__dummy__" then none else (catalog.lookup name).map restoreTable := by
  have loaded := @lookup_foldl_register catalog named restoreTable (fun _ => rfl)
      ((host.tableNames catalog).filter (· != "__dummy__")) ∅ name
  unfold loadTables savedTables
  rw [foldl_map, foldl_filterMap]
  refine Eq.trans ?_ (loaded.trans ?_)
  · congr 2
    funext start tested
    cases catalog.lookup tested <;> rfl
  · simp only [mem_filter, host.mem_tableNames, bne_iff_ne]
    by_cases isDummy : name = "__dummy__"
    · rw [if_pos isDummy, if_neg fun both => both.1.2 isDummy]
      exact Finmap.lookup_empty name
    · rw [if_neg isDummy]
      by_cases held : name ∈ catalog
      · rw [if_pos ⟨⟨held, isDummy⟩, held⟩]
      · rw [if_neg fun both => held both.2, Finmap.lookup_eq_none.mpr held]
        exact Finmap.lookup_empty name

theorem lookup_registerTables (named : Named catalog) (engine : SqlEngine) (name : String) :
    (registerTables host (loadTables (savedTables host catalog)) engine).catalog.lookup name =
      if name = "__dummy__" then engine.catalog.lookup name
      else
        ((catalog.lookup name).map restoreTable).or (engine.catalog.lookup name) := by
  have registered := @lookup_foldl_register _
      (named_loadTables (savedTables host catalog)) id (fun _ => rfl)
      ((host.tableNames (loadTables (savedTables host catalog))).filter (· != "__dummy__"))
      engine.catalog name
  refine registered.trans ?_
  by_cases isDummy : name = "__dummy__"
  · rw [if_pos isDummy, if_neg]
    rintro ⟨listed, -⟩
    exact bne_iff_ne.mp (mem_filter.mp listed).2 isDummy
  · have found : (loadTables (savedTables host catalog)).lookup name =
        (catalog.lookup name).map restoreTable :=
      (lookup_loadTables named name).trans (if_neg isDummy)
    rw [if_neg isDummy]
    simp only [mem_filter, host.mem_tableNames, bne_iff_ne,
      Option.map_id_fun, id, ← Finmap.lookup_isSome, found]
    cases catalog.lookup name with
    | none => rfl
    | some table => exact if_pos ⟨⟨rfl, isDummy⟩, rfl⟩

end

end TurboGP.Engine
