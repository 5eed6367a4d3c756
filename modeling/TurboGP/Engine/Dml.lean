import TurboGP.Engine.Constraints

/-!
# INSERT, UPDATE and DELETE

`engine/dml.rs`.  A statement first checks its constraints, then writes the
columns and NULL bitmaps in place, and in MVCC mode records the change in the
version chains.
-/

namespace TurboGP.Engine

open Datasource Sql Txn QueryResult Text

/-- The positions of the columns an INSERT names, all of them by default. -/
def insertColumns (table : Table) : Option (List String) → Except Fault (List Nat)
  | some names =>
    names.mapM
      (fun name =>
        match table.columnIdx name with
        | some i => .ok i
        | none => .error (.error (columnNotFound name)))
  | none => .ok (List.range table.columns.length)

/-- Only the first row is compared with the column list. -/
def checkValueCount (colIndices : List Nat) (values : List (List String)) : Except Fault Unit :=
  let columnCount := colIndices.length
  let valueCount := (values.head?.map List.length).getD 0
  if columnCount = valueCount then .ok ()
  else
    reject s!"column count ({columnCount}) doesn't match value count ({valueCount})"

/-- The row an INSERT would add: columns it does not name are NULL. -/
def insertedRow (host : Host) (ncols : Nat) (colIndices : List Nat)
    (rowVals : List String) : Except Fault NewRow :=
  colIndices.zipIdx.foldlM
    (fun row entry => do
      let text ← index rowVals entry.2
      let cell ← parseValueCell host text
      let values ← indexSet row.1 entry.1 cell
      let nulls ← indexSet row.2 entry.1 (isNullWord text)
      return (values, nulls))
    (List.replicate ncols 0, List.replicate ncols true)

def checkInsertForeignKeys (host : Host) (catalog : Catalog)
    (table : Table) (ins : Insert) : Except Fault Unit :=
  if table.foreignKeys.isEmpty then .ok ()
  else do
    let colIndices ← insertColumns table ins.columns
    checkValueCount colIndices ins.values
    let rows ← ins.values.mapM (insertedRow host table.columns.length colIndices)
    validateForeignKeys catalog ins.table rows

def checkInsertedRows (host : Host) (table : Table)
    (colIndices : List Nat) (values : List (List String)) :
    Except Fault Unit :=
  match table.schema with
  | none => .ok ()
  | some schema => do
    values.zipIdx.forM
      (fun entry => colIndices.zipIdx.forM (fun column => do
            let text ← index entry.1 column.2
            checkInsertedValue host table schema entry.2 column.1 text))
    values.zipIdx.forM
      (fun entry => do
        let row ← insertedRow host table.columns.length colIndices entry.1
        checkChecks host table schema entry.2 row
        checkUniqueColumns table schema (insertConflicts table) entry.2 row
        checkUniqueConstraints table schema (fun _ => false) entry.2 row)

/-- `Arc::make_mut` on a column, then a push. -/
def pushCell (colIdx : Nat) (cell : Cell) : TableM Unit := do
  let table ← get
  let column ← ofExcept (index table.columns colIdx)
  set { table with columns := table.columns.set colIdx (column ++ [cell]) }

/-- Lengthen the list of bitmaps with columns that have none. -/
def padBitmaps (table : Table) (length : Nat) : Table :=
  { table with
    nullBitmaps := table.nullBitmaps ++ List.replicate (length - table.nullBitmaps.length) none }

/-- Record the NULL flag of a value just pushed.  A bitmap made on the way is
sized by the row count before the statement. -/
def pushNullFlag (colIdx : Nat) (isNull : Bool) : TableM Unit := do
  let table ← get
  if isNull then
    let padded :=
      if table.nullBitmaps.length ≤ colIdx then
        padBitmaps table table.columns.length
      else table
    let bitmap ← ofExcept (index padded.nullBitmaps colIdx)
    let pushed := (bitmap.getD (NullBitmap.new table.rowCount)).pushNull
    set
      { padded with
        nullBitmaps := padded.nullBitmaps.set colIdx (some pushed) }
  else
    match table.nullBitmaps[colIdx]? with
    | some (some bitmap) =>
      set
        { table with
          nullBitmaps := table.nullBitmaps.set colIdx (some bitmap.pushNonNull) }
    | _ => return ()

def pushRow (host : Host) (colIndices : List Nat) (rowVals : List String) : TableM Unit :=
  colIndices.zipIdx.forM
    (fun entry => do
      let text ← ofExcept (index rowVals entry.2)
      let cell ← ofExcept (parseValueCell host text)
      pushCell entry.1 cell
      pushNullFlag entry.1 (isNullWord text))

/-- What the string sidecar of a column keeps of a value. -/
def sidecarText (text : String) : String :=
  if isNullWord text then ""
  else
    (extractStringLiteral text).getD (String.ofList (trim text.toList))

def stringInserts (colIndices : List Nat) (values : List (List String))
    (colIdx : Nat) : List String :=
  values.flatMap
    (fun rowVals => colIndices.zipIdx.filterMap (fun entry =>
          if entry.1 = colIdx then rowVals[entry.2]?.map sidecarText
          else none))

/-- Extend the string sidecar of a column, starting one with empty strings
for the rows before. -/
def extendSidecar (colIdx : Nat) (newStrings : List String) : TableM Unit := do
  let table ← get
  let sidecars :=
    table.stringColumns ++ List.replicate (colIdx + 1 - table.stringColumns.length) none
  match sidecars[colIdx]?.join with
  | some strings =>
    set
      { table with
        stringColumns := sidecars.set colIdx (some (strings ++ newStrings)) }
  | none =>
    if table.rowCount < newStrings.length then throw .panic
    else
      let missing := table.rowCount - newStrings.length
      set
        { table with
          stringColumns := sidecars.set colIdx (some (List.replicate missing "" ++ newStrings)) }

/-- Count the new rows and, in MVCC mode, start their version chains. -/
def addRows (mvccEnabled : Bool) (xmin newRows : Nat) : TableM Unit := do
  modify (fun table => { table with rowCount := table.rowCount + newRows })
  if mvccEnabled then
    (List.range newRows).forM
      (fun i => modify (fun table =>
            table.appendRowVersion (table.rowCount - newRows + i) (RowVersion.new xmin [])))

def extendSidecars (colIndices : List Nat) (values : List (List String)) : TableM Unit := do
  let table ← get
  let isString (colIdx : Nat) : Bool :=
    (table.schema.map (fun schema => schema.isString colIdx)).getD false
  ((List.range table.columns.length).filter isString).forM
    (fun colIdx =>
      let newStrings := stringInserts colIndices values colIdx
      if newStrings.isEmpty then return ()
      else extendSidecar colIdx newStrings)

/-- The rows just inserted, for the system-versioned sidecar. -/
def lastRows (table : Table) (newRows : Nat) : List (List Cell) :=
  (List.range newRows).map
    (fun i => table.columns.map (fun column => column[table.rowCount - newRows + i]?.getD 0))

def insertRows (host : Host) (mvccEnabled : Bool) (txnId : Option Nat)
    (ins : Insert) : TableM (List (List Cell)) := do
  let table ← get
  let colIndices ← ofExcept (insertColumns table ins.columns)
  ofExcept (checkValueCount colIndices ins.values)
  ofExcept (checkInsertedRows host table colIndices ins.values)
  ins.values.forM (pushRow host colIndices)
  addRows mvccEnabled (txnId.getD 0) ins.values.length
  extendSidecars colIndices ins.values
  return lastRows (← get) ins.values.length

def executeInsert (host : Host) (ins : Insert) (txnId : Option Nat) : EngineM QueryResult := do
  let table ← requireTable ins.table
  ofExcept (checkInsertForeignKeys host (← get).catalog table ins)
  let mvccEnabled := (← get).mvccEnabled
  let rows ← withMut ins.table (insertRows host mvccEnabled txnId ins)
  rows.forM (fun row => withTemporal host ins.table (fun now temporal => temporal.insert now row))
  return { empty with rowCount := ins.values.length }

/-- An assignment of an UPDATE: column position, cell and NULL flag. -/
structure Assignment where
  colIdx : Nat
  cell : Cell
  isNull : Bool

def parseAssignments (host : Host) (table : Table) (assignments : List (String × Expr)) :
    Except Fault (List Assignment) :=
  assignments.mapM
    (fun entry =>
      match table.columnIdx entry.1 with
      | none => .error (.error (columnNotFound entry.1))
      | some colIdx => do
        let text := String.ofList (entry.2.render host.formatF64)
        let isLiteralNull :=
          match entry.2 with
          | .literal .null => true
          | _ => false
        let cell ← parseValueCell host text
        let isNull := isNullWord text || isLiteralNull
        return { colIdx := colIdx, cell := cell, isNull := isNull })

/-- The rows a WHERE clause selects, every row without one. -/
def matchMask (host : Host) (table : Table) : Option Expr → Except Fault (List Bool)
  | some whereExpr => host.evalSimpleWhere table (String.ofList (whereExpr.render host.formatF64))
  | none => .ok (List.replicate table.rowCount true)

def maskedRows (mask : List Bool) : List Nat :=
  mask.zipIdx.filterMap (fun entry => if entry.1 then some entry.2 else none)

def updatedRow (table : Table) (assigns : List Assignment) (rowIdx : Nat) : NewRow :=
  assigns.foldl
    (fun row assign => (row.1.set assign.colIdx assign.cell, row.2.set assign.colIdx assign.isNull))
    (table.columns.map (fun column => column[rowIdx]?.getD 0),
      (List.range table.columns.length).map (fun colIdx => table.nullAt colIdx rowIdx))

def checkUpdateForeignKeys (host : Host) (catalog : Catalog)
    (table : Table) (upd : Update) : Except Fault Unit :=
  if table.foreignKeys.isEmpty then .ok ()
  else do
    let assigns ← parseAssignments host table upd.assignments
    let mask ← matchMask host table upd.whereClause
    validateForeignKeys catalog upd.table ((maskedRows mask).map (updatedRow table assigns))

def checkUpdatedRows (host : Host) (table : Table)
    (assigns : List Assignment) (rows : List Nat) : Except Fault Unit :=
  match table.schema with
  | none => .ok ()
  | some schema =>
    rows.forM
      (fun rowIdx => do
        let row := updatedRow table assigns rowIdx
        checkChecks host table schema rowIdx row
        checkUniqueColumns table schema (updateConflicts table rowIdx) rowIdx row
        checkUniqueConstraints table schema (fun r => r == rowIdx) rowIdx row)

def checkSerializable (mgr : MvccTxnManager) (table : Table)
    (txnId : Option Nat) (rows : List Nat) : Except Fault Unit :=
  if mgr.activeIsolationLevel = some .serializable then
    rows.forM
      (fun rowIdx =>
        match
          mgr.checkWriteConflictForTable table (txnId.getD 0)
            (mgr.activeSnapshotId.getD mgr.currentCommitId) rowIdx
        with
        | .ok _ => .ok ()
        | .error conflict => reject conflict.message)
  else .ok ()

/-- `Arc::make_mut` on a column, then a store. -/
def writeCell (colIdx rowIdx : Nat) (cell : Cell) : TableM Unit := do
  let table ← get
  let column ← ofExcept (index table.columns colIdx)
  let written ← ofExcept (indexSet column rowIdx cell)
  set { table with columns := table.columns.set colIdx written }

/-- Set or clear the NULL flag of a cell; only a NULL makes a bitmap. -/
def writeNullFlag (colIdx rowIdx : Nat) (isNull : Bool) : TableM Unit :=
  modify
    (fun table =>
      match table.nullBitmaps[colIdx]?, isNull with
      | some bitmap, true =>
        let grown := (bitmap.getD (NullBitmap.new rowIdx)).growPast rowIdx
        { table with
          nullBitmaps := table.nullBitmaps.set colIdx (some (grown.setNull rowIdx)) }
      | some (some bitmap), false =>
        let grown := bitmap.growPast rowIdx
        { table with
          nullBitmaps := table.nullBitmaps.set colIdx (some (grown.setNonNull rowIdx)) }
      | _, _ => table)

def updateRow (assigns : List Assignment) (rowIdx : Nat) : TableM Unit :=
  assigns.forM
    (fun assign => do
      writeCell assign.colIdx rowIdx assign.cell
      writeNullFlag assign.colIdx rowIdx assign.isNull)

/-- Supersede the last version of a row by one with the row's present cells;
a row without an open version gets none. -/
def supersedeVersion (table : Table) (xmin rowIdx : Nat) : Table :=
  let newValues := table.columns.map (fun column => column[rowIdx]?.getD 0)
  match table.markDeleted rowIdx xmin with
  | (true, marked) => marked.appendRowVersion rowIdx (RowVersion.new xmin newValues)
  | (false, unmarked) => unmarked

/-- The key and the new row that the system-versioned sidecar is told; the key
is read after the cells were written. -/
def temporalUpdate (table : Table) (assigns : List Assignment) (rowIdx : Nat) : Cell × List Cell :=
  ((table.columns.head?.bind (fun column => column[rowIdx]?)).getD 0, assigns.foldl
      (fun row assign => row.set assign.colIdx assign.cell)
      (table.columns.map (fun column => column[rowIdx]?.getD 0)))

def updateRows (host : Host) (mvccEnabled : Bool) (mgr : MvccTxnManager)
    (txnId : Option Nat) (upd : Update) :
    TableM (Nat × List (Cell × List Cell)) := do
  let table ← get
  let assigns ← ofExcept (parseAssignments host table upd.assignments)
  let mask ← ofExcept (matchMask host table upd.whereClause)
  let rows := maskedRows mask
  modify (fun table => padBitmaps table table.columns.length)
  ofExcept (checkUpdatedRows host (← get) assigns rows)
  if mvccEnabled then
    ofExcept (checkSerializable mgr (← get) txnId rows)
  rows.forM (updateRow assigns)
  if mvccEnabled then
    rows.forM
      (fun rowIdx => modify (fun table => supersedeVersion table (txnId.getD 0) rowIdx))
  let updated ← get
  return (rows.length, rows.map (temporalUpdate updated assigns))

/-- The rows of a sidecar are found by their first column. -/
def hasKey (key : Cell) (row : List Cell) : Bool := row.head? == some key

def executeUpdate (host : Host) (upd : Update) (txnId : Option Nat) : EngineM QueryResult := do
  let table ← requireTable upd.table
  ofExcept (checkUpdateForeignKeys host (← get).catalog table upd)
  let engine ← get
  let (updated, updates) ←
    withMut upd.table (updateRows host engine.mvccEnabled engine.mvccTxnManager txnId upd)
  updates.forM
    (fun entry => withTemporal host upd.table
        (fun now temporal => temporal.update now (hasKey entry.1) entry.2))
  return { empty with rowCount := updated }

def childForeignKeys (host : Host) (catalog : Catalog) (parent : String) :
    List (String × TableForeignKey) :=
  (host.tableNames catalog).flatMap
    (fun name =>
      if name = parent then []
      else
        match catalog.lookup name with
        | none => []
        | some table =>
          (table.foreignKeys.filter (fun fk => fk.refTable == parent)).map (fun fk => (name, fk)))

def deletedParentVals (parent : Table) (fk : TableForeignKey)
    (rows : List Nat) : Except Fault (List (List Cell)) :=
  rows.mapM
    (fun rowIdx => (fk.refColumns.map parent.columnIdx).mapM (fun idx => cellAt parent idx rowIdx))

/-- RESTRICT and NO ACTION: no row of the child may hold the deleted
values. -/
def checkRestrict (child : Table) (fk : TableForeignKey)
    (parentName childName : String) (deletedVals : List (List Cell)) :
    Except Fault Unit := do
  let childIdxs := fk.columns.map child.columnIdx
  (List.range child.rowCount).forM
    (fun rowIdx => do
      let anyNull :=
        childIdxs.any (fun idx => (idx.map (fun i => child.nullAt i rowIdx)).getD false)
      if !anyNull then
        let childVals ← childIdxs.mapM (fun idx => cellAt child idx rowIdx)
        let columns := joined fk.columns
        if deletedVals.contains childVals then
          reject s!"23504: FOREIGN KEY constraint violated: cannot delete from table \"{parentName}\" — row referenced by table \"{childName}\" ({columns})")

def reduceExprs (op : BinOp) : List Expr → Option Expr
  | [] => none
  | first :: rest => some (rest.foldl (fun left right => .binary left op right) first)

def buildCascadeWhereExpr (fkCols : List String) (deletedRows : List (List Cell)) : Option Expr :=
  reduceExprs .or
    (deletedRows.filterMap (fun row => reduceExprs .and (fkCols.zipIdx.map (fun entry =>
              .binary (.column entry.1) .eq (.literal (.int (row[entry.2]?.getD 0).toInt64))))))

/-- Make sure a foreign-key column has a bitmap.  A fresh one is created for
all rows and then pushed once more for each. -/
def ensureBitmap (colIdx : Nat) : TableM Unit :=
  modify
    (fun table =>
      let padded := padBitmaps table (colIdx + 1)
      match padded.nullBitmaps[colIdx]? with
      | some none =>
        let fresh : NullBitmap :=
          { bits := (NullBitmap.new table.rowCount).bits ++ List.replicate table.rowCount false }
        { padded with
          nullBitmaps := padded.nullBitmaps.set colIdx (some fresh) }
      | _ => padded)

/-- SET NULL, and SET DEFAULT which is treated as SET NULL: null the columns
of the child rows that hold the deleted values. -/
def setNullChildren (fk : TableForeignKey) (deletedVals : List (List Cell)) : TableM Unit := do
  let table ← get
  let childIdxs := fk.columns.map table.columnIdx
  let positions := childIdxs.filterMap id
  positions.forM ensureBitmap
  (List.range table.rowCount).forM
    (fun rowIdx => do
      let table ← get
      let childVals ← ofExcept (childIdxs.mapM (fun idx => cellAt table idx rowIdx))
      if deletedVals.contains childVals then
        positions.forM
          (fun colIdx => do
            writeCell colIdx rowIdx 0
            writeNullFlag colIdx rowIdx true))

/-- `enforce_fk_on_delete`; `cascade` deletes from a child table. -/
def enforceFkOnDelete (host : Host) (cascade : Delete → EngineM QueryResult)
    (parentName : String) (rows : List Nat) : EngineM Unit := do
  let childFks := childForeignKeys host (← get).catalog parentName
  childFks.forM
    (fun entry => do
      let childName := entry.1
      let fk := entry.2
      let parent ← requireTable parentName
      let deletedVals ← ofExcept (deletedParentVals parent fk rows)
      match fk.onDelete.getD .noAction with
      | .restrict | .noAction =>
        let child ← requireTable childName
        ofExcept (checkRestrict child fk parentName childName deletedVals)
      | .cascade =>
        let _ ←
          cascade
            { table := childName, whereClause := buildCascadeWhereExpr fk.columns deletedVals }
      | .setNull | .setDefault => withMut childName (setNullChildren fk deletedVals))

/-- Mark the last versions of the deleted rows; the cells stay. -/
def tombstoneRows (xmax : Nat) (rows : List Nat) : TableM Unit :=
  rows.forM (fun rowIdx => modify (fun table => (table.markDeleted rowIdx xmax).2))

/-- Rebuild the columns without the deleted rows.  Only the columns are
rebuilt; the row count is reduced by the number of deleted rows. -/
def compactColumns (mask : List Bool) : TableM Unit := do
  let table ← get
  let kept := maskedRows (mask.map (fun deleted => !deleted))
  let deleted := (maskedRows mask).length
  if table.rowCount < deleted then throw .panic
  let columns ← ofExcept (table.columns.mapM (fun column => kept.mapM (index column)))
  set { table with columns := columns, rowCount := table.rowCount - deleted }

/-- The first-column values of the deleted rows, for the system-versioned
sidecar. -/
def deletedKeys (table : Table) (rows : List Nat) : List Cell :=
  rows.map
    (fun rowIdx => (table.columns.head?.bind (fun column => column[rowIdx]?)).getD 0)

def deleteTemporal (host : Host) (name : String) (rows : List Nat) : EngineM Unit := do
  let table ← requireTable name
  (deletedKeys table rows).forM
    (fun key => withTemporal host name (fun now temporal => temporal.delete now (hasKey key)))

def executeDelete (host : Host) : Nat → Delete → Option Nat → EngineM QueryResult
  | 0, _, _ => throw .stackOverflow
  | depth + 1, del, txnId => do
    let table ← requireTable del.table
    let mask ← ofExcept (matchMask host table del.whereClause)
    let rows := maskedRows mask
    if rows.isEmpty then return empty
    enforceFkOnDelete host (fun child => executeDelete host depth child txnId) del.table rows
    let engine ← get
    if engine.mvccEnabled then
      let cur ← requireTable del.table
      ofExcept (checkSerializable engine.mvccTxnManager cur txnId rows)
      withMut del.table (tombstoneRows (txnId.getD 0) rows)
      deleteTemporal host del.table rows
    else
      deleteTemporal host del.table rows
      withMut del.table (compactColumns mask)
    return { empty with rowCount := rows.length }

def executeDml (host : Host) (depth : Nat) : DmlStatement → Option Nat → EngineM QueryResult
  | .insert ins, txnId => executeInsert host ins txnId
  | .update upd, txnId => executeUpdate host upd txnId
  | .delete del, txnId => executeDelete host depth del txnId

end TurboGP.Engine
