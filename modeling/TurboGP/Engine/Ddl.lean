import TurboGP.Engine.SqlEngine

/-!
# DDL statements

`engine/ddl.rs`: tables are created empty, dropped and altered in the catalog;
an index is built from the cells its column holds at the time.
-/

namespace TurboGP.Engine

open Datasource Sql Sql.Text Txn QueryResult

def createdTable (ct : CreateTable) : Table :=
  { name := fullName ct.schema ct.name, columns := ct.columns.map (fun _ => [])
    columnNames := ct.columns.map ColumnDef.name, rowCount := 0
    stringColumns := ct.columns.map (fun _ => none), nullBitmaps := ct.columns.map (fun _ => none)
    schema := some (TableSchema.fromCreateTable ct), rowVersions := []
    i32Columns := ct.columns.map (fun _ => none) }

def executeCreateTable (ct : CreateTable) : SqlM QueryResult := do
  let name := fullName ct.schema ct.name
  if ((← get).catalog.lookup name).isSome then
    if ct.ifNotExists then return empty
    else fail (.other s!"table \"{name}\" already exists")
  else
    register (createdTable ct)
    return empty

def executeDropTable (dt : DropTable) : SqlM QueryResult := do
  let name := fullName dt.schema dt.name
  if ((← get).catalog.lookup name).isNone then
    if dt.ifExists then return empty
    else fail (tableNotFound name)
  else
    dropTable name
    return empty

/-- The cell that stands for the absence of a value of a type. -/
def emptyCell (host : Host) : ColumnType → Cell
  | .varchar _ | .nvarchar _ | .text | .json | .array _ | .bytea
  | .enum _ => host.xxh3 []
  | _ => 0

/-- The cell that existing rows get in an added column. -/
def defaultCellForType (host : Host) (column : ColumnDef) : Cell :=
  match column.default with
  | none => emptyCell host column.colType
  | some default =>
    let trimmed := trim default.toList
    if isQuoted trimmed then host.xxh3 (inner trimmed)
    else
      match parseI64 trimmed with
      | some number => (Int64.ofInt number).toUInt64
      | none =>
        match host.parseF64 trimmed with
        | some bits => bits
        | none =>
          if eqIgnoreAsciiCase trimmed "null".toList then 0
          else emptyCell host column.colType

def withSchemaColumns (table : Table) (change : List ColumnSchema → List ColumnSchema) : Table :=
  { table with
    schema := table.schema.map (fun schema => { schema with columns := change schema.columns }) }

/-- The closure of ADD COLUMN; the `i32` sidecars are not extended. -/
def addColumn (host : Host) (column : ColumnDef) : TableM Unit :=
  modify
    (fun table => withSchemaColumns
        { table with
          columns :=
            table.columns ++ [List.replicate table.rowCount (defaultCellForType host column)]
          columnNames := table.columnNames ++ [column.name]
          stringColumns := table.stringColumns ++ [none]
          nullBitmaps := table.nullBitmaps ++ [none] }
        (fun columns => columns ++ [column.columnSchema]))

def requireColumn (table : Table) (name : String) : TableM Nat :=
  match table.columnIdx name with
  | some idx => return idx
  | none => fail (columnNotFound name)

/-- The closure of DROP COLUMN; the `i32` sidecars stay. -/
def dropColumn (column : String) : TableM Unit := do
  let table ← get
  let idx ← requireColumn table column
  if table.columns.length ≤ idx then throw .panic
  set
    (withSchemaColumns
      { table with
        columns := table.columns.eraseIdx idx
        columnNames := table.columnNames.eraseIdx idx
        stringColumns := table.stringColumns.eraseIdx idx
        nullBitmaps := table.nullBitmaps.eraseIdx idx } (fun columns => columns.eraseIdx idx))

/-- The closure of ALTER COLUMN TYPE: the cells stay as they are. -/
def alterColumnType (column : String) (newType : ColumnType) : TableM Unit := do
  let table ← get
  let idx ← requireColumn table column
  set
    (withSchemaColumns table (fun columns =>
        columns.modify idx (fun schema => { schema with colType := newType })))

def executeAlterTable (host : Host) (at_ : AlterTable) : SqlM QueryResult := do
  let name := fullName at_.schema at_.name
  match at_.action with
  | .addColumn column => onCore (withMut name (addColumn host column))
  | .dropColumn column =>
    onCore (withMut name (dropColumn column))
    modify
      (fun engine =>
        { engine with
          indexManager := engine.indexManager.drop name column })
  | .alterColumnType column newType => onCore (withMut name (alterColumnType column newType))
  return empty

def executeCreateIndex (ci : CreateIndex) : SqlM QueryResult := do
  let engine ← get
  if (engine.indexManager.byName.lookup ci.indexName).isSome then
    if ci.ifNotExists then return empty
    else
      let name := ci.indexName
      fail (.other s!"index \"{name}\" already exists")
  else
    let table ← onCore (requireTable ci.table)
    match table.columnIdx ci.column with
    | none => fail (columnNotFound ci.column)
    | some idx =>
      match table.columns[idx]? with
      | none =>
        let column := ci.column
        fail (.other s!"column \"{column}\" out of range")
      | some values =>
        modify
          (fun engine =>
            { engine with
              indexManager := (engine.indexManager.createNamed ci.indexName ci.table
                    ci.column).buildHashIndex ci.table ci.column
                  values })
        return empty

def executeDropIndex (di : DropIndex) : SqlM QueryResult := do
  let engine ← get
  match engine.indexManager.dropByName di.indexName with
  | some indexManager =>
    set { engine with indexManager := indexManager }
    return empty
  | none =>
    if di.ifExists then return empty
    else
      let name := di.indexName
      fail (.notFound s!"index \"{name}\"")

/-- `execute_ddl`; a schema is implicit in the names of its tables. -/
def executeDdl (host : Host) : DdlStatement → SqlM QueryResult
  | .create ct => executeCreateTable ct
  | .drop dt => executeDropTable dt
  | .createSchema _ => return empty
  | .alterTable at_ => executeAlterTable host at_
  | .createIndex ci => executeCreateIndex ci
  | .dropIndex di => executeDropIndex di

end TurboGP.Engine
