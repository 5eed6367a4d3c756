import TurboGP.Engine.Execute
import TurboGP.Engine.PlainTables

/-! # The shape of the tables -/

namespace TurboGP.Engine

open Effect GuardedRun Datasource Sql Txn List

structure TableShape (table : Table) (rows : List LogicalRow) : Prop where
  count : table.rowCount = rows.length
  columns : ∀ column ∈ table.columns, column.length = table.rowCount
  bitmaps : ∀ bitmap, some bitmap ∈ table.nullBitmaps → bitmap.bits.length = table.rowCount
  sidecars : ∀ strings, some strings ∈ table.stringColumns → strings.length = table.rowCount
  cells : ∀ (idx colIdx : Nat) row column, rows[idx]? = some row →
      table.columns[colIdx]? = some column → column[idx]? = some (row colIdx).cell
  texts : ∀ (idx colIdx : Nat) row strings, rows[idx]? = some row →
      table.stringColumns[colIdx]? = some (some strings) → strings[idx]? = some (row colIdx).text
  flags : ∀ (idx : Nat) row, rows[idx]? = some row →
      ∀ colIdx < table.columns.length, table.nullAt colIdx idx = (row colIdx).isNull
  /-- In snapshot mode no row has versions. -/
  versions : ∀ chain ∈ table.rowVersions, chain = []

theorem Plain.tableShape {table : Table} {rows : List LogicalRow} (plain : Plain table rows)
    (noSidecars : ∀ strings ∈ table.stringColumns, strings = none) :
    TableShape table rows where
  count := plain.count
  columns := plain.filled
  bitmaps := by
    intro bitmap mem
    cases plain.noBitmaps (some bitmap) mem
  sidecars := by
    intro strings mem
    cases noSidecars (some strings) mem
  cells := by
    intro idx colIdx row column atRow atColumn
    rw [plain.cells colIdx column atColumn, getElem?_map, atRow]
    rfl
  texts := by
    intro idx colIdx row strings _ found
    cases noSidecars (some strings) (mem_of_getElem? found)
  flags := by
    intro idx row atRow colIdx inside
    rw [plain.nullAt]
    exact (plain.noNulls colIdx inside row (mem_of_getElem? atRow)).symm
  versions := by
    rw [plain.noVersions]
    exact fun _ absent => absurd absent not_mem_nil

inductive TableStatement
  | dml (statement : DmlStatement) (txnId : Option Nat)
  | merge (merge : Merge)
  | vacuum

def executeTableStatement (host : Host) (depth : Nat) : TableStatement → SqlM QueryResult
  | .dml statement txnId => onCore (executeDml host depth statement txnId)
  | .merge merge => executeMergeStmt merge
  | .vacuum => onCore (executeVacuum host)

structure ShapeState where
  engine : SqlEngine
  rows : TableRows

namespace ShapeState

section

variable (host : Host) (depth : Nat)

/-- A statement that returns.  No account is kept of a MERGE. -/
def step (state : ShapeState) (statement : TableStatement) : Option ShapeState :=
  match executeTableStatement host depth statement state.engine with
  | .ok _ next =>
    some
      { engine := next
        rows :=
          match statement with
          | .dml statement _ => dmlRows host state.engine.toQueryEngine state.rows statement
          | .merge _ | .vacuum => state.rows }
  | .error _ _ => none

/-- The engine is in snapshot mode and has no string columns.  An INSERT names
every column once, no NULL is given, a DELETE reaches no other table, and
there is no MERGE. -/
def Fits (state : ShapeState) : TableStatement → Prop
  | .dml statement _ =>
    DmlFits host state.engine.toQueryEngine statement ∧
      ∀ name table, state.engine.catalog.lookup name = some table →
        ∀ colIdx, isStringColumn table colIdx = false
  | .merge _ => False
  | .vacuum => state.engine.mvccEnabled = false

end

structure Fresh (state : ShapeState) : Prop where
  tables : FreshTables state.engine.toQueryEngine
  rows : state.rows = freshRows state.engine.toQueryEngine

def Shaped (state : ShapeState) : Prop :=
  ∀ name table, state.engine.catalog.lookup name = some table → TableShape table (state.rows name)

structure InStep (state : ShapeState) : Prop where
  plain : AllPlain state.engine.toQueryEngine state.rows
  noSidecars : ∀ name table, state.engine.catalog.lookup name = some table →
      ∀ strings ∈ table.stringColumns, strings = none

variable {host : Host} {unicode : Text.Unicode} {depth : Nat}
  {debug : Lexer.Token → String} {state next final : ShapeState}

theorem Fresh.inStep (fresh : state.Fresh) : state.InStep := by
  constructor
  · rw [fresh.rows]
    exact fresh.tables.allPlain
  · intro name table held strings mem
    rcases fresh.tables name table held with ⟨ct, rfl⟩ | rfl
    · obtain ⟨_, -, rfl⟩ := mem_map.mp mem
      rfl
    · exact mem_singleton.mp mem

theorem InStep.step {stmt : TableStatement} (evaluates : host.EvaluatesWhere unicode debug)
    (inStep : state.InStep) (fits : state.Fits host stmt)
    (stepped : state.step host depth stmt = some next) : next.InStep := by
  unfold ShapeState.step at stepped
  split at stepped
  swap
  · cases stepped
  · next res changed ran =>
    cases stepped
    cases stmt with
    | merge merge => exact fits.elim
    | vacuum =>
      obtain ⟨core, returned, same⟩ := onCore_eq_ok ran
      unfold executeVacuum at returned
      rw [get_bind_run] at returned
      have mode : state.engine.mvccEnabled = false := fits
      simp only [mode] at returned
      cases returned
      rw [same]
      exact inStep
    | dml stmt txnId =>
      obtain ⟨core, returned, same⟩ := onCore_eq_ok ran
      rw [same]
      obtain ⟨plain, kept⟩ := inStep.plain.dml evaluates fits.1 returned
      refine ⟨plain, fun name table held => ?_⟩
      obtain ⟨old, found, header⟩ := kept.before held
      rw [header.sidecars (fits.2 name old found)]
      exact inStep.noSidecars name old found

theorem InStep.shaped (inStep : state.InStep) : state.Shaped :=
  fun name table held =>
    (inStep.plain name table held).tableShape (inStep.noSidecars name table held)

end ShapeState

/-- In every run from created tables whose statements avoid strings, NULLs,
partial rows, MERGE and MVCC mode, every table has the shape of its rows. -/
theorem tables_keep_shape {host : Host} {unicode : Text.Unicode}
    {debug : Lexer.Token → String} {depth : Nat}
    {start final : ShapeState} {statements : List TableStatement}
    (evaluates : host.EvaluatesWhere unicode debug) (fresh : start.Fresh)
    (run : Run (ShapeState.step host depth) (ShapeState.Fits host) start statements final) :
    final.Shaped :=
  (run.invariant ShapeState.InStep
    (fun _ _ _ inStep fits => inStep.step evaluates fits) fresh.inStep).shaped

namespace Example

def emptyTables : ShapeState :=
  { engine := { SqlEngine.inMemory with toQueryEngine := uniqueEngine }
    rows := freshRows uniqueEngine }

theorem fresh_emptyTables : emptyTables.Fresh := ⟨freshTables_uniqueEngine, rfl⟩

/-- Two rows without NULLs are inserted in step. -/
theorem tables_keep_shape_twoRows : ∃ final,
      Run (ShapeState.step evaluatingHost 1) (ShapeState.Fits evaluatingHost)
          emptyTables [.dml (insertsInto "t" [["1"], ["2"]]) none] final ∧
        final.Shaped := by
  have fits : emptyTables.Fits evaluatingHost (.dml (insertsInto "t" [["1"], ["2"]]) none) := by
    refine ⟨dmlFits_insertsInto rfl givesValues_twoRows, ?_⟩
    intro name table held colIdx
    rw [(lookup_uniqueEngine held).2]
    cases colIdx <;> rfl
  obtain ⟨final, run⟩ : ∃ final, Run (ShapeState.step evaluatingHost 1)
          (ShapeState.Fits evaluatingHost) emptyTables
          [.dml (insertsInto "t" [["1"], ["2"]]) none] final :=
    ⟨_, .cons fits rfl (.nil _)⟩
  exact ⟨final, run, tables_keep_shape evaluatesWhere fresh_emptyTables run⟩

/-- `INSERT INTO t VALUES (1), (NULL)` leaves one flag for two rows. -/
theorem late_null_breaks_shape : ∃ final, Run (ShapeState.step evaluatingHost 1) anyStep emptyTables
    [.dml (insertsInto "t" [["1"], ["NULL"]]) none] final ∧
    emptyTables.Fresh ∧ ¬ final.Shaped := by
  refine ⟨_, .cons trivial rfl (.nil _), fresh_emptyTables, ?_⟩
  intro shaped
  have shape := shaped "t" _ rfl
  have flags := shape.bitmaps { bits := [true] } (mem_singleton.mpr rfl)
  cases flags

end Example

end TurboGP.Engine
