import TurboGP.Engine.Ddl
import TurboGP.Engine.Session

/-!
# The execution of SQL texts

`execute` and `execute_inner` of `engine/mod.rs`, with the statements that work
on the catalog as a whole.
-/

namespace TurboGP.Engine

open Datasource Sql Sql.Text Txn QueryResult

/-! ## Results and tables -/

/-- The type that a result column is registered with.  The source also looks
for three longer names; they contain the word `date`. -/
def inferredType (unicode : Unicode) (column : ResultColumn) : ColumnType :=
  if column.stringValues.isSome then .text
  else if column.values.any (fun value => decide (2 ^ 60 < value.toNat)) then
    .float
  else if
      contains (toLowercase unicode column.name.toList) "date".toList then
    .date
  else .bigInt

def resultToTable (unicode : Unicode) (name : String) (result : QueryResult) : Table :=
  { name := name
    columns := result.columns.map ResultColumn.values
    columnNames := result.columns.map ResultColumn.name
    rowCount := result.rowCount
    stringColumns := result.columns.map ResultColumn.stringValues
    nullBitmaps := []
    schema := some
        { columns := result.columns.map
              (fun column =>
                { name := column.name, colType := inferredType unicode column, notNull := false
                  primaryKey := false, unique := false, check := none })
          checks := []
          uniqueConstraints := []
          foreignKeys := [] }
    rowVersions := []
    i32Columns := [] }

def computeNewRows (table : Table) (result : QueryResult) : Nat :=
  let held (resultRow tableRow : Nat) : Bool := result.columns.zipIdx.all
      (fun entry => entry.1.values[resultRow]?.getD 0 == (table.cellOf entry.2 tableRow).getD 0)
  (List.range result.rowCount).countP
    (fun resultRow => !(List.range table.rowCount).any (held resultRow))

def appendResultRows (result : QueryResult) : TableM Unit :=
  modify
    (fun table =>
      { table with
        columns := table.columns.zipIdx.map
            (fun entry =>
              entry.1 ++ ((result.columns[entry.2]?).map ResultColumn.values).getD [])
        rowCount := table.rowCount + result.rowCount })

def tableToQueryResult (table : Table) : Except Fault QueryResult := do
  let columns ←
    table.columnNames.zipIdx.mapM
      (fun entry => do
        let values ← index table.columns entry.2
        return {
          name := entry.1
          values := values
          stringValues := none
          typeOid := 0
          nullMask := none })
  return { columns := columns, rowCount := table.rowCount }

def queryResultToTable (name : String) (result : QueryResult) : Table :=
  { name := name, columns := result.columns.map ResultColumn.values
    columnNames := result.columns.map ResultColumn.name, rowCount := result.rowCount
    stringColumns := [], nullBitmaps := [], schema := none, rowVersions := [], i32Columns := [] }

/-! ## Transactions by catalog snapshot -/

section

variable (host : SqlHost)

/-- `txn_manager.begin`: the transaction works on a copy of the catalog. -/
def beginSnapshot : SqlM QueryResult := do
  let engine ← get
  match engine.txnManager.active with
  | some _ => fail (.other "a transaction is already active (nested transactions not supported)")
  | none =>
    let txn : Transaction :=
      { id := engine.txnManager.nextId, snapshot := cloneCatalog host engine.catalog }
    set
      { engine with
        txnManager :=
          { nextId := engine.txnManager.nextId + 1, active := some txn } }
    return empty

/-- `txn_manager.commit`: the copy becomes the catalog. -/
def commitSnapshot : SqlM QueryResult := do
  let engine ← get
  match engine.txnManager.active with
  | none => fail (.other "no active transaction to commit")
  | some txn =>
    set
      { engine with
        catalog := txn.snapshot
        txnManager := { engine.txnManager with active := none }
        savepoints := [] }
    return empty

/-- `txn_manager.rollback`: the copy is discarded. -/
def rollbackSnapshot : SqlM QueryResult := do
  let engine ← get
  match engine.txnManager.active with
  | none => fail (.other "no active transaction to rollback")
  | some _ =>
    set
      { engine with
        txnManager := { engine.txnManager with active := none }
        savepoints := [] }
    return empty

def controlByMode (mvcc : MvccStatement) (snapshot : SqlM QueryResult) : SqlM QueryResult := do
  if (← get).mvccEnabled then onCore (executeMvcc host.toHost 0 mvcc)
  else snapshot

/-- Run a statement on the transaction's catalog: it is swapped in for the
call, and the transaction is put back after it. -/
def inSnapshot {α : Type} (txn : Transaction) (prog : SqlM α) : SqlM α := fun engine =>
  let inside :=
    { engine with
      catalog := txn.snapshot
      txnManager := { engine.txnManager with active := none } }
  let back (after : SqlEngine) : SqlEngine :=
    { after with
      catalog := engine.catalog
      txnManager :=
        { after.txnManager with
          active := some { id := txn.id, snapshot := after.catalog } } }
  match prog inside with
  | .ok value after => .ok value (back after)
  | .error fault after => .error fault (back after)

/-! ### Savepoints -/

def executeSavepoint (name : List Char) : SqlM QueryResult := do
  modify
    (fun engine =>
      { engine with
        savepoints := engine.savepoints ++ [(name, cloneCatalog host engine.catalog)] })
  return empty

def savepointPosition (savepoints : List (List Char × Catalog)) (name : List Char) : Option Nat :=
  (savepoints.reverse.findIdx? (fun entry => entry.1 == name)).map
    (fun i => savepoints.length - 1 - i)

def savepointNotFound (name : List Char) : Error :=
  let name := String.ofList name
  .notFound s!"savepoint '{name}'"

def executeRollbackTo (name : List Char) : SqlM QueryResult := do
  let engine ← get
  match savepointPosition engine.savepoints name with
  | none => fail (savepointNotFound name)
  | some pos =>
    let entry ← ofExcept (index engine.savepoints pos)
    set
      { engine with
        catalog := cloneCatalog host entry.2
        savepoints := engine.savepoints.take (pos + 1) }
    return empty

def executeReleaseSavepoint (name : List Char) : SqlM QueryResult := do
  let engine ← get
  match savepointPosition engine.savepoints name with
  | none => fail (savepointNotFound name)
  | some pos =>
    set { engine with savepoints := engine.savepoints.take pos }
    return empty

/-- The name in a `SAVEPOINT` or a `RELEASE`: the text after the first
word. -/
def savepointName (sql : List Char) : List Char := trim (stripFirstKeyword (trim sql))

/-- The name in a `ROLLBACK TO`: the text after the second word. -/
def rollbackToName (sql : List Char) : List Char :=
  trim (stripFirstKeyword (stripFirstKeyword (trim sql)))

end

/-! ## The parsers in turn -/

inductive Parsed
  | malformed (error : Error)
  | with (clause : WithClause)
  | createView (view : ViewDef)
  | dropView (name : String)
  | createProcedure (procedure : ProcedureDef)
  | exec (name : String) (args : List (List Char))
  | merge (merge : Merge)
  | setQuery (evaluate : Catalog → Option MvccTxnManager → Except Fault QueryResult)
  | rewrite (rewrite : Rewrite)
  | ddl (statement : DdlStatement)
  | dml (statement : DmlStatement)
  | select

namespace Parsed

def ofResult {α : Type} (tag : String → Error) (parsed : α → Parsed) : Except String α → Parsed
  | .ok value => parsed value
  | .error message => .malformed (tag message)

end Parsed

/-- What is left when no other parser takes a text: DDL, DML or a SELECT. -/
def SqlHost.parseStatement (host : SqlHost) (sql : List Char) : Parsed :=
  match host.parseDdl sql with
  | .error message => .malformed (.parse message)
  | .ok (some statement) => .ddl statement
  | .ok none =>
    match host.parseDml sql with
    | .error message => .malformed (.parse message)
    | .ok (some statement) => .dml statement
    | .ok none => .select

def SqlHost.parse (host : SqlHost) (sql : List Char) : Parsed :=
  match host.parseWith sql with
  | some result => .ofResult .parse .with result
  | none =>
  match host.parseCreateView sql with
  | some result => .ofResult .other .createView result
  | none =>
  match host.parseDropView sql with
  | some result => .ofResult .other .dropView result
  | none =>
  match host.parseCreateProcedure sql with
  | some result => .ofResult .other .createProcedure result
  | none =>
  match host.parseExec sql with
  | some result => .ofResult .other (fun call => .exec call.1 call.2) result
  | none =>
  match host.parseMerge sql with
  | some merge => .merge merge
  | none =>
  match host.parseSetQuery sql with
  | some evaluate => .setQuery evaluate
  | none =>
  match host.parsePivot sql with
  | some rewrite => .rewrite rewrite
  | none =>
  match host.parseJsonValue sql with
  | some rewrite => .rewrite rewrite
  | none => host.parseStatement sql

/-! ## Texts within texts -/

section

variable (host : SqlHost) (inner : List Char → Option Nat → SqlM QueryResult)

/-- `if let Ok(..)`: an error is dropped, what was done before it stays. -/
def attempt {α : Type} (prog : SqlM α) : SqlM (Option α) := fun engine =>
  match prog engine with
  | .ok value next => .ok (some value) next
  | .error (.error _) next => .ok none next
  | .error fault next => .error fault next

/-- The recursive part of a common table expression: rounds until a round
brings no new row. -/
def recursiveRounds (name : String) (text : List Char) (txnId : Option Nat) : Nat → SqlM Unit
  | 0 => return ()
  | rounds + 1 => do
    let result ← inner text txnId
    match (← get).catalog.lookup name with
    | none =>
      if result.rowCount = 0 then return ()
      else fail (.notFound s!"CTE table \"{name}\"")
    | some table =>
      if computeNewRows table result = 0 then return ()
      else
        onCore (withMut name (appendResultRows result))
        recursiveRounds name text txnId rounds

def materializeCte (maxRecursion : Nat) (txnId : Option Nat) (cte : CteDef) : SqlM Unit := do
  let anchor ← inner cte.anchor txnId
  register (resultToTable host.unicode cte.name anchor)
  match cte.recursive with
  | none => return ()
  | some text =>
    recursiveRounds inner cte.name text txnId (if maxRecursion = 0 then 100000 else maxRecursion)

/-- `execute_with`; after an error the tables registered so far stay. -/
def executeWith (clause : WithClause) (txnId : Option Nat) : SqlM QueryResult := do
  clause.ctes.forM (materializeCte host inner clause.maxRecursion txnId)
  let result ← inner clause.outerQuery txnId
  clause.ctes.forM (fun cte => dropTable cte.name)
  return result

/-- The views whose name follows a `from ` in a text, with their queries. -/
def viewsIn (views : Finmap (fun _ : String => ViewDef))
    (sql : List Char) : List (String × List Char) :=
  let lower := toLowercase host.unicode sql
  ((host.viewNames views).filter (fun name =>
      contains lower ("from ".toList ++ toLowercase host.unicode name.toList))).filterMap
    (fun name => (views.lookup name).map (fun view => (name, view.selectSql)))

/-- `materialize_views_in_sql`: the answer of each view in the text becomes a
table; a view that fails is skipped. -/
def materializeViewsInSql (sql : List Char) : SqlM Unit := do
  (viewsIn host (← get).views sql).forM
    (fun view => do
      match ← attempt (inner view.2 none) with
      | some result => register (resultToTable host.unicode view.1 result)
      | none => return ())

/-- `execute_merge_stmt`: the target is rebuilt from the merged cells. -/
def executeMergeStmt (merge : Merge) : SqlM QueryResult := do
  let name := merge.target
  match (← get).catalog.lookup name with
  | none => fail (.notFound s!"MERGE target table \"{name}\"")
  | some table =>
    let target ← ofExcept (tableToQueryResult table)
    let (merged, touched) ← ofExcept (merge.apply target)
    register (queryResultToTable name merged)
    return { empty with rowCount := touched }

/-- What SELECT filters rows by: nothing unless MVCC is enabled. -/
def SqlEngine.visibility (engine : SqlEngine) : Option MvccTxnManager :=
  if engine.mvccEnabled then some engine.mvccTxnManager else none

def systemTimeRows (sql : List Char) : SqlM (Option QueryResult) := do
  match ← ofExcept (parseForSystemTime host.unicode sql) with
  | none => return none
  | some (name, timestamp) =>
    match (← get).temporals.lookup name with
    | none => return none
    | some temporal =>
      return some (rowsToQueryResult (temporal.queryAsOf timestamp) temporal.columnNames)

def startSystemVersioning (sql : List Char) : SqlM Unit := do
  match ← ofExcept (extractTemporalTableName host.unicode sql) with
  | none => return ()
  | some name =>
    match (← get).catalog.lookup name with
    | none => return ()
    | some table =>
      let now ← onCore (readClock host.toHost)
      modify
        (fun engine =>
          { engine with
            temporals := engine.temporals.insert name (TemporalTable.new table.columnNames now) })

end

/-! ## Statements outside `execute_inner` -/

section

variable (host : SqlHost)

def csvText (table : Table) : List Char :=
  let line (words : List (List Char)) : List Char := [','].intercalate words ++ ['\n']
  line (table.columnNames.map String.toList) ++
    (List.range table.rowCount).flatMap
      (fun row => line (table.columns.map (fun column =>
              (toString (column[row]?.getD 0).toNat).toList)))

/-- `trim_matches` of quotes. -/
def unquoted (text : List Char) : List Char :=
  let isQuote (c : Char) : Bool := c == quote || c == '"'
  ((text.dropWhile isQuote).reverse.dropWhile isQuote).reverse

/-- `execute_copy`; it works on the catalog of the engine, also while a
transaction is open. -/
def executeCopy (sql : List Char) : SqlM QueryResult :=
  match splitWhitespace sql with
  | _ :: tableWord :: directionWord :: pathWord :: _ => do
    let name := String.ofList tableWord
    let direction := toUppercase host.unicode directionWord
    let path := unquoted pathWord
    if !host.copyAllowed path then
      let path := String.ofList path
      fail (.other s!"COPY path '{path}' not in allowed_copy_dirs (SQLSTATE 42501)")
    else if direction = "TO".toList then
      match (← get).catalog.lookup name with
      | none => fail (.notFound s!"table '{name}'")
      | some table =>
        ofExcept (host.writeFile path (csvText table))
        return { empty with rowCount := table.rowCount }
    else if direction = "FROM".toList then
      dropTable name
      let table ← ofExcept (host.readCsv path name)
      register table
      return { empty with rowCount := table.rowCount }
    else
      let direction := String.ofList direction
      fail (.other s!"COPY direction must be TO or FROM, got: {direction}")
  | _ => fail (.other "COPY requires: COPY <table> TO|FROM 'file'")

def executeShow (sql : List Char) : SqlM QueryResult := do
  if startsWith (toLowercase host.unicode sql) "show tables".toList then
    let names := host.tableNames (← get).catalog
    return {
      columns :=
        [{ name := "table_name", values := names.map (fun name => host.xxh3 name.toList)
           stringValues := some names, typeOid := 25, nullMask := none }]
      rowCount := names.length }
  else
    let sql := String.ofList sql
    fail (.other s!"unsupported SHOW: {sql}")

/-- `execute_analyze`: the statement runs on the catalog of the engine. -/
def executeAnalyze (inner : List Char → Option Nat → SqlM QueryResult)
    (sql : List Char) : SqlM QueryResult := do
  let started ← onCore (readClock host.toHost)
  let result ← inner sql none
  let ended ← onCore (readClock host.toHost)
  return { result with
    columns := result.columns ++ [host.timingColumn (ended - started)] }

end

/-! ## `execute` and `execute_inner` -/

section

variable (host : SqlHost) (inner : List Char → Option Nat → SqlM QueryResult)

def StatementKind.isQuery : StatementKind → Bool
  | .select | .with => true
  | _ => false

def StatementKind.invalidates : StatementKind → Bool
  | .insert | .update | .delete | .drop | .copy => true
  | _ => false

def invalidateFor (kind : StatementKind) : SqlM Unit :=
  if kind.invalidates then invalidateAll else return ()

def cachedFor (answered : Bool) (sql : List Char) : SqlM (Option QueryResult) :=
  if answered then cachedResult host sql else return none

/-- A statement for `execute_inner`, on the catalog of the open transaction or
on the engine's own.  Only outside a transaction a result is cached. -/
def executeRouted (sql : List Char) : SqlM QueryResult := do
  match (← get).txnManager.active with
  | some txn => inSnapshot txn (inner sql (some txn.id))
  | none =>
    let result ← inner sql none
    if (host.kind sql).isQuery then cacheResult host sql result
    return result

/-- The statement that the kind of a text leaves, dispatched a second time by
the beginning of the text. -/
def executeByText (sql : List Char) : SqlM QueryResult := do
  let trimmed := trim sql
  let lower := toLowercase host.unicode trimmed
  let engine ← get
  if startsWith lower "backup to ".toList then
    ofExcept (host.executeBackup trimmed engine.catalog)
  else if startsWith lower "restore from ".toList then
    host.executeRestore trimmed
  else if engine.mvccEnabled then
    inner sql engine.mvccTxnManager.activeId
  else if startsWith lower "begin".toList ||
      startsWith lower "start transaction".toList then
    beginSnapshot host
  else if startsWith lower "commit".toList then commitSnapshot
  else if startsWith lower "rollback".toList &&
      !startsWith lower "rollback to ".toList then
    rollbackSnapshot
  else executeRouted host inner sql

def executeByKind (sql : List Char) : SqlM QueryResult := do
  let trimmed := trim sql
  match host.kind sql with
  | .explain => ofExcept (host.executeExplain (stripFirstKeyword trimmed))
  | .analyze => executeAnalyze host inner (stripFirstKeyword trimmed)
  | .vacuum =>
    ofExcept (host.flushWithCheckpoint (← get).catalog)
    onCore (executeVacuum host.toHost)
  | .copy => executeCopy host trimmed
  | .checkpoint =>
    ofExcept (host.flushWithCheckpoint (← get).catalog)
    return empty
  | .backup => ofExcept (host.executeBackup trimmed (← get).catalog)
  | .restore => host.executeRestore trimmed
  | .begin => controlByMode host .begin (beginSnapshot host)
  | .commit => controlByMode host .commit commitSnapshot
  | .rollback => controlByMode host .rollback rollbackSnapshot
  | .show => executeShow host trimmed
  | _ => executeByText host inner sql

def executeVia (sql : List Char) : SqlM QueryResult := do
  match ← cachedFor host (host.kind sql).isQuery sql with
  | some result => return result
  | none =>
    invalidateFor (host.kind sql)
    executeByKind host inner sql

/-- The statements of a procedure, the placeholders replaced one after the
other. -/
def procedureStatements (body : List Char) (args : List (List Char)) : List (List Char) :=
  let substituted := args.zipIdx.foldl
      (fun text entry =>
        replaceAll ('@' :: (toString (entry.2 + 1)).toList) entry.1 text.length text)
      body
  (substituted.splitOn ';').filter (fun text => !(trim text).isEmpty)

def executeParsed (depth : Nat) (sql : List Char) (txnId : Option Nat) : Parsed → SqlM QueryResult
  | .malformed error => fail error
  | .with clause => do
    let result ← executeWith host inner clause txnId
    cacheResult host sql result
    return result
  | .createView view => do
    modify
      (fun engine => { engine with views := engine.views.insert view.name view })
    return empty
  | .dropView name => do
    modify (fun engine => { engine with views := engine.views.erase name })
    return empty
  | .createProcedure procedure => do
    modify
      (fun engine =>
        { engine with
          procedures := engine.procedures.insert procedure.name procedure })
    return empty
  | .exec name args => do
    match (← get).procedures.lookup name with
    | none => fail (.notFound s!"procedure \"{name}\"")
    | some procedure =>
      (procedureStatements procedure.body args).foldlM
        (fun _ statement => executeVia host inner statement) empty
  | .merge merge => executeMergeStmt merge
  | .setQuery evaluate => do
    let engine ← get
    ofExcept (evaluate engine.catalog engine.visibility)
  | .rewrite rewrite => do
    let result ← inner rewrite.text txnId
    ofExcept (rewrite.finish result)
  | .ddl statement => do
    let result ← executeDdl host.toHost statement
    startSystemVersioning host sql
    return result
  | .dml statement => onCore (executeDml host.toHost depth statement txnId)
  | .select => do
    materializeViewsInSql host inner sql
    let engine ← get
    ofExcept (host.executeSelect sql engine.catalog engine.indexManager engine.visibility)

/-- A statement other than those on savepoints: a query as of a time is
answered from the sidecar, the rest goes to the parsers. -/
def executeStatement (depth : Nat) (sql : List Char) (txnId : Option Nat) : SqlM QueryResult := do
  match ← systemTimeRows host sql with
  | some result => return result
  | none => executeParsed host inner depth sql txnId (host.parse sql)

def executeUncached (depth : Nat) (sql : List Char) (txnId : Option Nat) : SqlM QueryResult :=
  match host.kind sql with
  | .savepoint => executeSavepoint host (savepointName sql)
  | .rollbackTo => executeRollbackTo host (rollbackToName sql)
  | .release => executeReleaseSavepoint (savepointName sql)
  | _ => executeStatement host inner depth sql txnId

def executeInnerVia (depth : Nat) (sql : List Char) (txnId : Option Nat) : SqlM QueryResult := do
  match ← cachedFor host (host.kind sql == .select) sql with
  | some result => return result
  | none => executeUncached host inner depth sql txnId

end

def executeInner (host : SqlHost) : Nat → List Char → Option Nat → SqlM QueryResult
  | 0, _, _ => throw .stackOverflow
  | depth + 1, sql, txnId => executeInnerVia host (executeInner host depth) depth sql txnId

def execute (host : SqlHost) (depth : Nat) (sql : List Char) : SqlM QueryResult :=
  executeVia host (executeInner host depth) sql

namespace SqlEngine

def answer (host : SqlHost) (depth : Nat) (engine : SqlEngine)
    (sql : List Char) : Except Fault QueryResult :=
  match execute host depth sql engine with
  | .ok result _ => .ok result
  | .error fault _ => .error fault

/-- The engine after a text.  A statement that returns an error leaves the
engine as it got; a panic or an exhausted stack ends the run. -/
def step (host : SqlHost) (depth : Nat) (engine : SqlEngine) (sql : List Char) : Option SqlEngine :=
  match execute host depth sql engine with
  | .ok _ next => some next
  | .error (.error _) next => some next
  | .error _ _ => none

end SqlEngine

/-! ### A small host -/

/-- The answer to `SELECT COUNT(*) FROM t`. -/
def countRows (catalog : Catalog) : QueryResult :=
  let count := ((catalog.lookup "t").map Table.rowCount).getD 0
  { columns :=
      [{ name := "count", values := [UInt64.ofNat count], stringValues := none, typeOid := 0
         nullMask := none }]
    rowCount := 1 }

/-- A host without files and views, whose parsers take these DML texts and
whose SELECT counts the rows of `t`. -/
def plainSqlHost (parseDml : List Char → Except String (Option DmlStatement)) : SqlHost :=
  { plainHost with
    unicode :=
      { isAlphanumeric := fun _ => false
        toUppercase := fun c => [c]
        toLowercase := id
        debugChar := fun c => [c] }
    parseWith := fun _ => none
    parseCreateView := fun _ => none
    parseDropView := fun _ => none
    parseCreateProcedure := fun _ => none
    parseExec := fun _ => none
    parseMerge := fun _ => none
    parseSetQuery := fun _ => none
    parsePivot := fun _ => none
    parseJsonValue := fun _ => none
    parseDdl := fun _ => .ok none
    parseDml := parseDml
    executeSelect := fun _ catalog _ _ => .ok (countRows catalog)
    executeExplain := fun _ => .ok empty
    timingColumn := fun _ =>
      { name := "", values := [], stringValues := none, typeOid := 0, nullMask := none }
    flushWithCheckpoint := fun _ => .ok ()
    copyAllowed := fun _ => false
    writeFile := fun _ _ => .ok ()
    readCsv := fun _ _ => .error .panic
    executeBackup := fun _ _ => .ok empty
    executeRestore := fun _ => return empty
    viewNames := fun views => views.keys.sort
    cacheKeys := fun cache =>
      (cache.keys.image UInt64.toNat).sort.map UInt64.ofNat
    mem_viewNames := fun views name => by simp [Finmap.mem_keys]
    mem_cacheKeys := fun cache key => by simp [Finmap.mem_keys]
    readCsv_name := fun _ _ _ read => by cases read }

def SqlEngine.inMemory : SqlEngine :=
  { QueryEngine.inMemory with
    views := ∅
    procedures := ∅
    resultCache := ∅
    indexManager := .new }

/-! ## Read-only execution and routing -/

/-- What the read-only path takes from outside: the parser of queries, with
the evaluation of a query it takes on a catalog. -/
structure ReadonlyHost extends SqlHost where
  readonlyQuery : List Char → Option (Catalog → Except Fault QueryResult)

section

variable (host : ReadonlyHost)

def readOnlyError (reason : String) : Error := .other s!"read-only transaction: {reason}"

/-- The evaluation of a query; any error of it is reported as one that needs
the write lock. -/
def evaluateReadonly (sql : List Char)
    (evaluate : Catalog → Except Fault QueryResult) : SqlM QueryResult := do
  match evaluate (← get).catalog with
  | .ok result =>
    cacheResult host.toSqlHost sql result
    return result
  | .error (.error _) =>
    fail (readOnlyError "query failed in execute_select, requires a write lock")
  | .error fault => throw fault

/-- A SELECT or SHOW; what turns out to be DDL, DML or a WITH is refused. -/
def readonlyStatement (sql : List Char) : SqlM QueryResult :=
  match host.parseDdl sql with
  | .error message => fail (.parse message)
  | .ok (some _) => fail (readOnlyError "DDL requires a write lock")
  | .ok none =>
    match host.parseDml sql with
    | .error message => fail (.parse message)
    | .ok (some _) => fail (readOnlyError "DML requires a write lock")
    | .ok none =>
      if (host.parseWith sql).isSome then
        fail (readOnlyError "CTE requires a write lock")
      else
        match host.readonlyQuery sql with
        | none => fail (readOnlyError "query needs interpreter fallback, requires a write lock")
        | some evaluate => evaluateReadonly host sql evaluate

def executeReadonlyUncached (sql : List Char) : SqlM QueryResult :=
  let trimmed := trim sql
  match host.kind sql with
  | .explain => ofExcept (host.executeExplain (stripFirstKeyword trimmed))
  | .select | .show => readonlyStatement host sql
  | _ =>
    let verb := String.ofList ((splitWhitespace trimmed).head?.getD "unknown".toList)
    fail (readOnlyError s!"{verb} requires a write lock")

/-- `execute_readonly`; the cache is looked at for a text of any kind. -/
def executeReadonly (sql : List Char) : SqlM QueryResult := do
  match ← cachedResult host.toSqlHost sql with
  | some result => return result
  | none => executeReadonlyUncached host sql

/-- A parser takes the text; an error counts as not taken. -/
def takes {α : Type} : Except String (Option α) → Bool
  | .ok (some _) => true
  | _ => false

def isReadonlySql (sql : List Char) : Bool :=
  match host.kind sql with
  | .select | .explain | .show =>
    !takes (host.parseDdl sql) && !takes (host.parseDml sql) && !(host.parseWith sql).isSome
  | _ => false

def routeAndExecute (depth : Nat) (sql : List Char) : SqlM QueryResult :=
  if isReadonlySql host sql then executeReadonly host sql
  else execute host.toSqlHost depth sql

end

end TurboGP.Engine
