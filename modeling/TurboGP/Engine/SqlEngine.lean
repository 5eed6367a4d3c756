import TurboGP.Engine.State
import TurboGP.Sql.Lexer

/-!
# The engine behind SQL texts

What a SQL text can reach beside the catalog: the views, the stored procedures,
the cache of query results and the index manager; and what the execution of
texts takes from the rest of the code.
-/

namespace TurboGP.Engine

open Datasource Sql Sql.Text Txn

/-! ## System-versioned tables -/

def byteLength (text : List Char) : Nat := (text.map Char.utf8Size).sum

def findBytes (text part : List Char) : Option Nat :=
  (text.tails.findIdx? (fun rest => startsWith rest part)).map (fun i => byteLength (text.take i))

def rfindBytes (text part : List Char) : Option Nat :=
  let offsets := text.tails.zipIdx.filter (fun entry => startsWith entry.1 part)
  offsets.getLast?.map (fun entry => byteLength (text.take entry.2))

def dropBytes : List Char → Nat → Except Fault (List Char)
  | text, 0 => .ok text
  | [], _ + 1 => .error .panic
  | c :: rest, offset + 1 =>
    if c.utf8Size ≤ offset + 1 then
      dropBytes rest (offset + 1 - c.utf8Size)
    else .error .panic

def takeBytes : List Char → Nat → Except Fault (List Char)
  | _, 0 => .ok []
  | [], _ + 1 => .error .panic
  | c :: rest, offset + 1 =>
    if c.utf8Size ≤ offset + 1 then do
      return c :: (← takeBytes rest (offset + 1 - c.utf8Size))
    else .error .panic

def parseForSystemTime (unicode : Unicode) (sql : List Char) :
    Except Fault (Option (String × Nat)) :=
  let phrase := "for system_time as of".toList
  match findBytes (toLowercase unicode sql) phrase with
  | none => .ok none
  | some pos => do
    let after ← dropBytes sql (pos + byteLength phrase)
    match parseU64 ((trimStart after).takeWhile Char.isDigit) with
    | none => return none
    | some timestamp =>
      let before ← takeBytes sql pos
      match rfindBytes (toLowercase unicode before) "from ".toList with
      | none => return none
      | some fromPos =>
        let afterFrom ← dropBytes before (fromPos + 5)
        return (splitWhitespace afterFrom).head?.map (fun word => (String.ofList word, timestamp))

/-- The name after `CREATE TABLE` and an optional `IF NOT EXISTS`. -/
def createdTableName (unicode : Unicode) (sql : List Char) : Except Fault (Option String) :=
  match findBytes (toLowercase unicode sql) "create table".toList with
  | none => .ok none
  | some createPos => do
    let afterCreate := trimStart (← dropBytes sql (createPos + 12))
    let condition := "if not exists".toList
    let skipped :=
      if startsWith (toLowercase unicode afterCreate) condition then
        byteLength condition
      else 0
    let afterCondition := trimStart (← dropBytes afterCreate skipped)
    let isEnd (c : Char) : Bool := isWhitespace c || c == '.' || c == '('
    let name := afterCondition.takeWhile (fun c => !isEnd c)
    if name.isEmpty || name.length = afterCondition.length then
      return none
    else return some (String.ofList name)

/-- The table that a CREATE TABLE with `SYSTEM_VERSIONING = ON` names. -/
def extractTemporalTableName (unicode : Unicode) (sql : List Char) : Except Fault (Option String) :=
  let lower := toLowercase unicode sql
  let phrase := "system_versioning".toList
  match findBytes lower phrase with
  | none => .ok none
  | some pos => do
    let after := trimStart (← dropBytes lower (pos + byteLength phrase))
    let value := trimStart (if after.head? = some '=' then after.tail else after)
    if startsWith value "on".toList then createdTableName unicode sql
    else return none

def TemporalTable.new (columnNames : List String) (now : Nat) : TemporalTable :=
  { columnNames := columnNames, currentRows := [], history := [], lastModified := now }

def TemporalTable.queryAsOf (temporal : TemporalTable) (timestamp : Nat) : List (List Cell) :=
  (temporal.currentRows.filter (fun row => decide (row.2 ≤ timestamp))).map Prod.fst ++
    (temporal.history.filter (fun row =>
        decide (row.validFrom ≤ timestamp ∧ timestamp < row.validTo))).map
      HistoryRow.values

def rowsToQueryResult (rows : List (List Cell)) (columnNames : List String) : QueryResult :=
  { columns := columnNames.zipIdx.map
        (fun entry =>
          { name := entry.1, values := rows.map (fun row => row[entry.2]?.getD 0)
            stringValues := none, typeOid := 0, nullMask := none })
    rowCount := rows.length }

/-! ## Statement kinds -/

inductive StatementKind
  | select | with | insert | update | delete
  | create | drop | alter
  | begin | commit | rollback | rollbackTo | savepoint | release
  | copy | vacuum | checkpoint | explain | analyze | merge
  | backup | restore | show | exec | truncate | other
  deriving DecidableEq, Repr

def tokenWord (unicode : Unicode) : Lexer.Token → Option (List Char)
  | .keyword word => some (toUppercase unicode word)
  | .ident name => some (toUppercase unicode name)
  | _ => none

def verbs : List (String × StatementKind) :=
  [("SELECT", .select), ("WITH", .with), ("INSERT", .insert),
    ("UPDATE", .update), ("DELETE", .delete), ("CREATE", .create),
    ("DROP", .drop), ("ALTER", .alter), ("BEGIN", .begin),
    ("COMMIT", .commit), ("SAVEPOINT", .savepoint), ("RELEASE", .release),
    ("COPY", .copy), ("VACUUM", .vacuum), ("CHECKPOINT", .checkpoint),
    ("EXPLAIN", .explain), ("ANALYZE", .analyze), ("MERGE", .merge),
    ("BACKUP", .backup), ("RESTORE", .restore), ("SHOW", .show),
    ("EXEC", .exec), ("EXECUTE", .exec), ("TRUNCATE", .truncate)]

def kindOfWords (first : List Char) (second : Option (List Char)) : StatementKind :=
  if first = "START".toList then
    if second = some "TRANSACTION".toList then .begin else .other
  else if first = "ROLLBACK".toList then
    if second = some "TO".toList then .rollbackTo else .rollback
  else
    match verbs.find? (fun entry => entry.1.toList == first) with
    | some entry => entry.2
    | none => .other

def classifyStatement (unicode : Unicode) (parseF64 : List Char → Option UInt64) (sql : List Char) :
    StatementKind :=
  if (trimStart sql).isEmpty then .other
  else
    match Lexer.tokenize unicode parseF64 sql with
    | .error _ => .other
    | .ok tokens =>
      let words := tokens.dropWhile (fun token => token == .eof)
      match words.head?.bind (tokenWord unicode) with
      | none => .other
      | some first => kindOfWords first (words[1]?.bind (tokenWord unicode))

example (unicode : Unicode) (parseF64 : List Char → Option UInt64) :
    classifyStatement unicode parseF64 "ROLLBACK  TO a".toList = .rollbackTo := rfl

/-- The text after the first word, and the blanks around it. -/
def stripFirstKeyword (sql : List Char) : List Char :=
  trimStart ((trimStart sql).dropWhile (fun c => !isWhitespace c))

/-- A view; its options are parsed and never read. -/
structure ViewDef where
  name : String
  selectSql : List Char

/-- A stored procedure or function; its parameters are substituted by
position. -/
structure ProcedureDef where
  name : String
  body : List Char

structure CachedResult where
  result : QueryResult
  createdAt : Nat

/-- Results by the hash of the normalized query. -/
abbrev ResultCache := Finmap (fun _ : UInt64 => CachedResult)

def maxEntries : Nat := 1000

def ttlSecs : Nat := 300

def normalizeSql (unicode : Unicode) (sql : List Char) : List Char :=
  toLowercase unicode ([' '].intercalate (splitWhitespace (trim sql)))

/-- The key of the oldest entry, the first of them in the order of `keys`. -/
def ResultCache.oldest (cache : ResultCache) (keys : List UInt64) : Option UInt64 :=
  let dated := keys.filterMap
      (fun key => (cache.lookup key).map (fun entry => (key, entry.createdAt)))
  (dated.minOn? Prod.snd).map Prod.fst

/-- The index manager: the name of the index on a column, the column of a
named index, and the rows of each value as they were when the index was
built. -/
structure IndexManager where
  indexes : Finmap (fun _ : String × String => String)
  byName : Finmap (fun _ : String => String × String)
  hashData : Finmap (fun _ : String × String => Finmap (fun _ : Cell => List Nat))

namespace IndexManager

def new : IndexManager :=
  { indexes := ∅, byName := ∅, hashData := ∅ }

def createNamed (mgr : IndexManager) (name table column : String) : IndexManager :=
  { mgr with
    indexes := mgr.indexes.insert (table, column) name
    byName := mgr.byName.insert name (table, column) }

def buildHashIndex (mgr : IndexManager) (table column : String)
    (values : List Cell) : IndexManager :=
  let rowsOf := values.zipIdx.foldl
      (fun (rows : Finmap (fun _ : Cell => List Nat)) entry =>
        rows.insert entry.1 ((rows.lookup entry.1).getD [] ++ [entry.2]))
      ∅
  { mgr with hashData := mgr.hashData.insert (table, column) rowsOf }

def drop (mgr : IndexManager) (table column : String) : IndexManager :=
  match mgr.indexes.lookup (table, column) with
  | none => mgr
  | some name =>
    { indexes := mgr.indexes.erase (table, column), byName := mgr.byName.erase name
      hashData := mgr.hashData.erase (table, column) }

def dropByName (mgr : IndexManager) (name : String) : Option IndexManager :=
  (mgr.byName.lookup name).map
    (fun column =>
      { indexes := mgr.indexes.erase column, byName := mgr.byName.erase name
        hashData := mgr.hashData.erase column })

end IndexManager

structure SqlEngine extends QueryEngine where
  views : Finmap (fun _ : String => ViewDef)
  procedures : Finmap (fun _ : String => ProcedureDef)
  resultCache : ResultCache
  indexManager : IndexManager

abbrev SqlM := EStateM Fault SqlEngine

def onCore {α : Type} (prog : EngineM α) : SqlM α := fun engine =>
  match prog engine.toQueryEngine with
  | .ok value core => .ok value { engine with toQueryEngine := core }
  | .error fault core => .error fault { engine with toQueryEngine := core }

theorem onCore_run_ok {α : Type} {prog : EngineM α} {value : α}
    {engine : SqlEngine} {core : QueryEngine} (ran : prog engine.toQueryEngine = .ok value core) :
    onCore prog engine = .ok value { engine with toQueryEngine := core } := by
  unfold onCore
  rw [ran]

theorem finalState_onCore {α : Type} (prog : EngineM α) (engine : SqlEngine) :
    Effect.finalState (onCore prog) engine =
      { engine with toQueryEngine := Effect.finalState prog engine.toQueryEngine } := by
  unfold Effect.finalState onCore
  cases prog engine.toQueryEngine <;> rfl

theorem onCore_eq_ok {α : Type} {prog : EngineM α} {value : α} {engine next : SqlEngine}
    (ran : onCore prog engine = .ok value next) :
    ∃ core, prog engine.toQueryEngine = .ok value core ∧
      next = { engine with toQueryEngine := core } := by
  unfold onCore at ran
  cases out : prog engine.toQueryEngine with
  | ok found core =>
    rw [out] at ran
    cases ran
    exact ⟨core, rfl, rfl⟩
  | error fault core =>
    rw [out] at ran
    cases ran

theorem onCore_eq_error {α : Type} {prog : EngineM α} {fault : Fault} {engine next : SqlEngine}
    (failed : onCore prog engine = .error fault next) :
    ∃ core, prog engine.toQueryEngine = .error fault core ∧
      next = { engine with toQueryEngine := core } := by
  unfold onCore at failed
  cases out : prog engine.toQueryEngine with
  | ok value core =>
    rw [out] at failed
    cases failed
  | error found core =>
    rw [out] at failed
    cases failed
    exact ⟨core, rfl, rfl⟩

structure CteDef where
  name : String
  anchor : List Char
  recursive : Option (List Char)

structure WithClause where
  ctes : List CteDef
  outerQuery : List Char
  maxRecursion : Nat

/-- A MERGE: its target, and what it makes of the target's rows together with
the number of rows it touched. -/
structure Merge where
  target : String
  apply : QueryResult → Except Fault (QueryResult × Nat)

/-- A query answered by another query and a transformation of its result. -/
structure Rewrite where
  text : List Char
  finish : QueryResult → Except Fault QueryResult

/-- What the execution of SQL texts takes from the code around it: the parsers
that `execute_inner` tries in turn, the evaluators of SELECT and of set
queries, which read the catalog and change nothing, the printing of plans, and
the files that COPY, CHECKPOINT, BACKUP and RESTORE use. -/
structure SqlHost extends Host where
  unicode : Unicode
  parseWith : List Char → Option (Except String WithClause)
  parseCreateView : List Char → Option (Except String ViewDef)
  parseDropView : List Char → Option (Except String String)
  parseCreateProcedure : List Char → Option (Except String ProcedureDef)
  parseExec : List Char → Option (Except String (String × List (List Char)))
  parseMerge : List Char → Option Merge
  parseSetQuery : List Char → Option (Catalog → Option MvccTxnManager → Except Fault QueryResult)
  parsePivot : List Char → Option Rewrite
  parseJsonValue : List Char → Option Rewrite
  parseDdl : List Char → Except String (Option DdlStatement)
  parseDml : List Char → Except String (Option DmlStatement)
  executeSelect :
    List Char → Catalog → IndexManager → Option MvccTxnManager → Except Fault QueryResult
  executeExplain : List Char → Except Fault QueryResult
  timingColumn : Nat → ResultColumn
  flushWithCheckpoint : Catalog → Except Fault Unit
  copyAllowed : List Char → Bool
  writeFile : List Char → List Char → Except Fault Unit
  readCsv : List Char → String → Except Fault Table
  executeBackup : List Char → Catalog → Except Fault QueryResult
  executeRestore : List Char → SqlM QueryResult
  viewNames : Finmap (fun _ : String => ViewDef) → List String
  cacheKeys : ResultCache → List UInt64
  mem_viewNames : ∀ views name, name ∈ viewNames views ↔ name ∈ views
  mem_cacheKeys : ∀ cache key, key ∈ cacheKeys cache ↔ key ∈ cache
  readCsv_name : ∀ path name table, readCsv path name = .ok table → table.name = name

namespace SqlHost

def kind (host : SqlHost) (sql : List Char) : StatementKind :=
  classifyStatement host.unicode host.parseF64 sql

def hashSql (host : SqlHost) (sql : List Char) : UInt64 := host.xxh3 (normalizeSql host.unicode sql)

end SqlHost

section

variable (host : SqlHost)

/-- `cache.get`: an entry is served until it expires. -/
def cachedResult (sql : List Char) : SqlM (Option QueryResult) := do
  match (← get).resultCache.lookup (host.hashSql sql) with
  | none => return none
  | some entry =>
    let now ← onCore (readClock host.toHost)
    if (now - entry.createdAt) / 1000 < ttlSecs then
      return some entry.result
    else return none

/-- `cache.insert`: a full cache first loses its oldest entry. -/
def cacheResult (sql : List Char) (result : QueryResult) : SqlM Unit := do
  let now ← onCore (readClock host.toHost)
  modify
    (fun engine =>
      let cache := engine.resultCache
      let room :=
        if maxEntries ≤ cache.keys.card then
          match cache.oldest (host.cacheKeys cache) with
          | some key => cache.erase key
          | none => cache
        else cache
      { engine with
        resultCache := room.insert (host.hashSql sql) { result := result, createdAt := now } })

def invalidateAll : SqlM Unit := modify (fun engine => { engine with resultCache := ∅ })

def register (table : Table) : SqlM Unit :=
  modify
    (fun engine => { engine with catalog := engine.catalog.insert table.name table })

def dropTable (name : String) : SqlM Unit :=
  modify (fun engine => { engine with catalog := engine.catalog.erase name })

/-- `clone_catalog`: every table, registered under its own name. -/
def cloneCatalog (catalog : Catalog) : Catalog :=
  (host.tableNames catalog).foldl
    (fun clone name =>
      match catalog.lookup name with
      | some table => clone.insert table.name table
      | none => clone)
    ∅

end

end TurboGP.Engine
