import TurboGP.Sql.Ast
import TurboGP.Txn.Mvcc

/-!
# In-memory tables

`datasource/table.rs` and `types/null_bitmap.rs`.
-/

namespace TurboGP.Datasource

open Sql Txn List Option

/-- One flag for each row; a row past the end is not NULL. -/
structure NullBitmap where
  bits : List Bool
  deriving DecidableEq, Repr

namespace NullBitmap

def new (n : Nat) : NullBitmap :=
  { bits := replicate n false }

def isNull (bitmap : NullBitmap) (idx : Nat) : Bool := bitmap.bits[idx]?.getD false

def setNull (bitmap : NullBitmap) (idx : Nat) : NullBitmap :=
  { bits := bitmap.bits.set idx true }

def setNonNull (bitmap : NullBitmap) (idx : Nat) : NullBitmap :=
  { bits := bitmap.bits.set idx false }

def pushNull (bitmap : NullBitmap) : NullBitmap :=
  { bits := bitmap.bits ++ [true] }

def pushNonNull (bitmap : NullBitmap) : NullBitmap :=
  { bits := bitmap.bits ++ [false] }

/-- Push non-NULL flags until the bitmap reaches past `idx`. -/
def growPast (bitmap : NullBitmap) (idx : Nat) : NullBitmap :=
  { bits := bitmap.bits ++ replicate (idx + 1 - bitmap.bits.length) false }

end NullBitmap

/-- A table.  A string sidecar is the list of its strings, the search index
built over them left out. -/
structure Table where
  name : String
  columns : List (List Cell)
  columnNames : List String
  rowCount : Nat
  stringColumns : List (Option (List String))
  nullBitmaps : List (Option NullBitmap)
  schema : Option TableSchema
  rowVersions : List (List RowVersion)
  i32Columns : List (Option (List Int32))

namespace Table

def columnIdx (table : Table) (name : String) : Option Nat :=
  table.columnNames.findIdx? (fun other => other == name)

def foreignKeys (table : Table) : List TableForeignKey :=
  match table.schema with
  | some schema => schema.foreignKeys
  | none => []

/-- The NULL flag of a cell; a column without a bitmap has no NULL. -/
def nullAt (table : Table) (colIdx rowIdx : Nat) : Bool :=
  match table.nullBitmaps[colIdx]? with
  | some (some bitmap) => bitmap.isNull rowIdx
  | _ => false

/-- The chain of a row; a row past the recorded ones has none. -/
def chainAt (table : Table) (rowIdx : Nat) : List RowVersion := table.rowVersions[rowIdx]?.getD []

/-- Append a version to the chain of a row, extending the chains with empty
ones up to it. -/
def appendRowVersion (table : Table) (rowIdx : Nat) (version : RowVersion) : Table :=
  let extended := table.rowVersions ++ replicate (rowIdx + 1 - table.rowVersions.length) []
  { table with
    rowVersions := extended.set rowIdx (extended[rowIdx]?.getD [] ++ [version]) }

/-- Mark the last version of a row as deleted; `false` when there is none or
it already is. -/
def markDeleted (table : Table) (rowIdx txnId : Nat) : Bool × Table :=
  match table.rowVersions[rowIdx]?.bind (tombstone txnId) with
  | some chain => (true, { table with rowVersions := table.rowVersions.set rowIdx chain })
  | none => (false, table)

def cellOf (table : Table) (colIdx rowIdx : Nat) : Option Cell :=
  table.columns[colIdx]?.bind (fun column => column[rowIdx]?)

theorem chainAt_appendRowVersion (table : Table) (rowIdx tested : Nat) (version : RowVersion) :
    (table.appendRowVersion rowIdx version).chainAt tested =
      if tested = rowIdx then table.chainAt rowIdx ++ [version] else table.chainAt tested := by
  have padded : ∀ i,
      (table.rowVersions ++ replicate (rowIdx + 1 - table.rowVersions.length) [])[i]?.getD [] =
        table.chainAt i := by
    intro i
    unfold chainAt
    rw [getElem?_append]
    split
    · rfl
    · next outside =>
      rw [getElem?_eq_none (Nat.le_of_not_lt outside), getElem?_replicate]
      split <;> rfl
  have long : rowIdx <
      (table.rowVersions ++ replicate (rowIdx + 1 - table.rowVersions.length) []).length := by
    rw [length_append, length_replicate]
    omega
  unfold appendRowVersion
  simp only
  rw [padded]
  conv_lhs => unfold chainAt
  by_cases same : tested = rowIdx
  · subst same
    rw [getElem?_set_self long, if_pos rfl]
    rfl
  · rw [getElem?_set_ne (Ne.symm same), if_neg same, padded]

theorem length_appendRowVersion (table : Table) (rowIdx : Nat) (version : RowVersion) :
    (table.appendRowVersion rowIdx version).rowVersions.length =
      max table.rowVersions.length (rowIdx + 1) := by
  simp only [appendRowVersion, length_set, length_append, length_replicate]
  omega

theorem markDeleted_flag (table : Table) (rowIdx txnId : Nat) :
    (table.markDeleted rowIdx txnId).1 = (tombstone txnId (table.chainAt rowIdx)).isSome := by
  unfold markDeleted chainAt
  cases table.rowVersions[rowIdx]? with
  | none => rfl
  | some chain =>
    simp only [bind_some, getD_some]
    cases tombstone txnId chain <;> rfl

theorem chainAt_markDeleted (table : Table) (rowIdx txnId tested : Nat) :
    (table.markDeleted rowIdx txnId).2.chainAt tested =
      if tested = rowIdx then
        (tombstone txnId (table.chainAt rowIdx)).getD (table.chainAt rowIdx)
      else table.chainAt tested := by
  unfold markDeleted
  by_cases same : tested = rowIdx
  · subst same
    rw [if_pos rfl]
    unfold chainAt
    cases held : table.rowVersions[tested]? with
    | none => simp [held, tombstone]
    | some chain =>
      have inRange : tested < table.rowVersions.length := (List.getElem?_eq_some_iff.mp held).1
      simp only [bind_some, getD_some]
      cases tombstone txnId chain with
      | none => simp [held]
      | some marked => simp [getElem?_set_self inRange]
  · rw [if_neg same]
    cases table.rowVersions[rowIdx]?.bind (tombstone txnId) with
    | none => rfl
    | some marked =>
      unfold chainAt
      rw [getElem?_set_ne (Ne.symm same)]

theorem length_markDeleted (table : Table) (rowIdx txnId : Nat) :
    (table.markDeleted rowIdx txnId).2.rowVersions.length = table.rowVersions.length := by
  unfold markDeleted
  split
  · exact length_set
  · rfl

theorem lt_length_of_chainAt {table : Table} {rowIdx : Nat} (nonempty : table.chainAt rowIdx ≠ []) :
    rowIdx < table.rowVersions.length := by
  by_contra outside
  apply nonempty
  unfold chainAt
  rw [getElem?_eq_none (Nat.le_of_not_lt outside)]
  rfl

end Table

end TurboGP.Datasource
