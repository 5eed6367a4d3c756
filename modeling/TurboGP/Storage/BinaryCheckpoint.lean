import TurboGP.Datasource.Table

/-!
# The binary checkpoint

The conversions of `storage/checkpoint.rs` between a table and the record that
`checkpoint.bin` holds for it.  Of `bincode` only the round trip is used.
-/

namespace TurboGP.Storage

open Sql Datasource Txn NullBitmap List

structure SerializedColumnSchema where
  name : String
  colType : String
  notNull : Bool
  primaryKey : Bool
  unique : Bool
  deriving DecidableEq, Repr

structure SerializedTableForeignKey where
  columns : List String
  refTable : String
  refColumns : List String
  onDelete : Option String
  deriving DecidableEq, Repr

structure SerializedTableSchema where
  columns : List SerializedColumnSchema
  uniqueConstraints : List (List String)
  foreignKeys : List SerializedTableForeignKey
  deriving DecidableEq, Repr

structure SerializedTable where
  name : String
  columnNames : List String
  columns : List (List Cell)
  rowCount : Nat
  stringColumns : List (Option (List String))
  nullBitmaps : List (Option (List Bool))
  schema : Option SerializedTableSchema
  rowVersions : List (List RowVersion)

structure Bincode (β : Type) where
  serialize : List SerializedTable → β
  deserialize : β → Option (List SerializedTable)
  roundTrip : ∀ tables, deserialize (serialize tables) = some tables

def typeName : ColumnType → String
  | .int | .smallInt | .tinyInt => "INT"
  | .bigInt => "BIGINT"
  | .varchar _ => "VARCHAR"
  | .nvarchar _ => "NVARCHAR"
  | .text => "TEXT"
  | .float => "FLOAT"
  | .real => "REAL"
  | .decimal _ _ => "DECIMAL"
  | .numeric _ _ => "NUMERIC"
  | .boolean => "BOOLEAN"
  | .bit => "BIT"
  | .date => "DATE"
  | .timestamp => "TIMESTAMP"
  | .json => "JSON"
  | .array _ => "ARRAY"
  | .uuid => "UUID"
  | .bytea => "BYTEA"
  | .enum _ => "ENUM"

def colTypeFromName (name : String) : ColumnType :=
  match name with
  | "INT" => .int
  | "BIGINT" => .bigInt
  | "VARCHAR" => .varchar none
  | "NVARCHAR" => .nvarchar none
  | "TEXT" => .text
  | "FLOAT" => .float
  | "REAL" => .real
  | "DECIMAL" => .decimal none none
  | "NUMERIC" => .numeric none none
  | "BOOLEAN" => .boolean
  | "BIT" => .bit
  | "DATE" => .date
  | "TIMESTAMP" => .timestamp
  | "JSON" => .json
  | "UUID" => .uuid
  | "BYTEA" => .bytea
  | "ARRAY" | "ENUM" => .text
  | _ => .bigInt

def fkActionToStr : ForeignKeyAction → String
  | .cascade => "CASCADE"
  | .setNull => "SET_NULL"
  | .setDefault => "SET_DEFAULT"
  | .restrict => "RESTRICT"
  | .noAction => "NO_ACTION"

def fkActionFromStr (name : String) : Option ForeignKeyAction :=
  match name with
  | "CASCADE" => some .cascade
  | "SET_NULL" => some .setNull
  | "SET_DEFAULT" => some .setDefault
  | "RESTRICT" => some .restrict
  | "NO_ACTION" => some .noAction
  | _ => none

def serializeSchema (schema : TableSchema) : SerializedTableSchema :=
  { columns := schema.columns.map fun column =>
        { name := column.name, colType := typeName column.colType, notNull := column.notNull
          primaryKey := column.primaryKey, unique := column.unique }
    uniqueConstraints := schema.uniqueConstraints
    foreignKeys := schema.foreignKeys.map fun key =>
        { columns := key.columns, refTable := key.refTable, refColumns := key.refColumns
          onDelete := key.onDelete.map fkActionToStr } }

def deserializeSchema (schema : SerializedTableSchema) : TableSchema :=
  { columns := schema.columns.map fun column =>
        { name := column.name, colType := colTypeFromName column.colType, notNull := column.notNull
          primaryKey := column.primaryKey, unique := column.unique, check := none }
    checks := []
    uniqueConstraints := schema.uniqueConstraints
    foreignKeys := schema.foreignKeys.map fun key =>
        { columns := key.columns, refTable := key.refTable, refColumns := key.refColumns
          onDelete := key.onDelete.bind fkActionFromStr } }

def serializeTable (table : Table) : SerializedTable :=
  { name := table.name, columnNames := table.columnNames, columns := table.columns
    rowCount := table.rowCount, stringColumns := table.stringColumns
    nullBitmaps := table.nullBitmaps.map (Option.map bits)
    schema := table.schema.map serializeSchema, rowVersions := table.rowVersions }

/-- A new bitmap in which the flags are set one by one. -/
def rebuildBitmap (bits : List Bool) : NullBitmap :=
  bits.zipIdx.foldl
    (fun bitmap flag =>
      if flag.1 then bitmap.setNull flag.2 else bitmap)
    (new bits.length)

/-- `deserialize_table`; the sidecars of 32 bit columns are not saved. -/
def deserializeTable (table : SerializedTable) : Table :=
  { name := table.name, columnNames := table.columnNames, columns := table.columns
    rowCount := table.rowCount, stringColumns := table.stringColumns
    nullBitmaps := table.nullBitmaps.map (Option.map rebuildBitmap)
    i32Columns := replicate table.rowCount none, schema := table.schema.map deserializeSchema
    rowVersions := table.rowVersions }

private theorem getElem?_foldl_setNull (flags : List (Bool × Nat)) (bitmap : NullBitmap) (idx : Nat)
    (inside : idx < bitmap.bits.length) :
    (flags.foldl (fun bitmap flag =>
          if flag.1 then bitmap.setNull flag.2 else bitmap) bitmap).bits[idx]? =
      if (true, idx) ∈ flags then some true else bitmap.bits[idx]? := by
  induction flags generalizing bitmap with
  | nil => rfl
  | cons flag rest ih =>
    obtain ⟨isNull, pos⟩ := flag
    rw [foldl_cons]
    cases isNull with
    | false =>
      rw [if_neg Bool.false_ne_true, ih bitmap inside]
      simp
    | true =>
      rw [if_pos rfl, ih _ (by simpa [setNull] using inside)]
      by_cases later : (true, idx) ∈ rest
      · simp [later]
      · by_cases same : pos = idx
        · subst same
          simp [later, setNull, inside]
        · simp [later, setNull, same, Ne.symm same]

private theorem length_foldl_setNull (flags : List (Bool × Nat)) (bitmap : NullBitmap) :
    (flags.foldl (fun bitmap flag =>
          if flag.1 then bitmap.setNull flag.2 else bitmap)
        bitmap).bits.length = bitmap.bits.length := by
  induction flags generalizing bitmap with
  | nil => rfl
  | cons flag rest ih =>
    rw [foldl_cons, ih]
    split
    · exact length_set
    · rfl

theorem bits_rebuildBitmap (bits : List Bool) : (rebuildBitmap bits).bits = bits := by
  refine ext_getElem? fun idx => ?_
  have newLength : (new bits.length).bits.length = bits.length := length_replicate
  have length : (rebuildBitmap bits).bits.length = bits.length :=
    (length_foldl_setNull _ _).trans newLength
  by_cases inside : idx < bits.length
  · unfold rebuildBitmap
    rw [getElem?_foldl_setNull _ _ _ (newLength.symm ▸ inside)]
    unfold new
    simp only [mem_zipIdx_iff_getElem?,
      getElem?_eq_getElem inside, getElem?_replicate_of_lt inside]
    cases bits[idx] <;> rfl
  · rw [getElem?_eq_none (by omega), getElem?_eq_none (by omega)]

theorem rebuildBitmap_eq (bitmap : NullBitmap) : rebuildBitmap bitmap.bits = bitmap := by
  obtain ⟨bits⟩ := bitmap
  exact congrArg mk (bits_rebuildBitmap bits)

def restoreSchema (schema : TableSchema) : TableSchema := deserializeSchema (serializeSchema schema)

theorem deserializeTable_serializeTable (table : Table) : deserializeTable (serializeTable table) =
      { table with
        schema := table.schema.map restoreSchema
        i32Columns := replicate table.rowCount none } := by
  have bitmaps : (table.nullBitmaps.map (Option.map bits)).map
      (Option.map rebuildBitmap) = table.nullBitmaps := by
    rw [map_map]
    refine (map_congr_left ?_).trans (map_id _)
    intro bitmap _
    cases bitmap with
    | none => rfl
    | some bitmap => exact congrArg some (rebuildBitmap_eq bitmap)
  unfold deserializeTable serializeTable restoreSchema
  rw [Option.map_map]
  exact congrArg (fun bitmaps =>
      ({ name := table.name, columns := table.columns, columnNames := table.columnNames
         rowCount := table.rowCount, stringColumns := table.stringColumns, nullBitmaps := bitmaps
         schema := _, rowVersions := table.rowVersions, i32Columns := _ } : Table)) bitmaps

end TurboGP.Storage
