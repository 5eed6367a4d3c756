import TurboGP.Server.Connection

/-!
# Queries over the wire

The handlers of the simple and of the extended query protocol
(`server/pgwire.rs`).
-/

namespace TurboGP.Server

open Sql.Text Engine

def emitStatement (cur : List Char) : List (List Char) :=
  if (trim cur).isEmpty then [] else [cur]

/-- What is left of a statement after a separator: blanks stay. -/
def afterSeparator (cur : List Char) : List Char :=
  if (trim cur).isEmpty then cur else []

def isLineEnd (byte : UInt8) : Bool := byte == 10 || byte == 13

def goSeparator (previous : Option UInt8) : Bytes → Option Bytes
  | g :: o :: rest =>
    if (g == 71 || g == 103) && (o == 79 || o == 111) &&
        (previous.map isLineEnd).getD true then
      let after := rest.dropWhile (fun byte => byte == 32 || byte == 9)
      if (after.head?.map isLineEnd).getD true then some after else none
    else none
  | _ => none

/-- The loop of `split_sql_batch`; `fuel` is the number of bytes. -/
def splitLoop : Nat → Option UInt8 → Bool → List Char → Bytes → List (List Char)
  | 0, _, _, cur, _ => emitStatement cur
  | _ + 1, _, _, cur, [] => emitStatement cur
  | fuel + 1, _, true, cur, byte :: rest =>
    if byte = 39 then
      if rest.head? = some 39 then
        splitLoop fuel (some 39) true (cur ++ [quote, quote]) rest.tail
      else splitLoop fuel (some 39) false (cur ++ [quote]) rest
    else
      splitLoop fuel (some byte) true (cur ++ [byteChar byte]) rest
  | fuel + 1, previous, false, cur, byte :: rest =>
    if byte = 39 then
      splitLoop fuel (some 39) true (cur ++ [quote]) rest
    else
      match goSeparator previous (byte :: rest) with
      | some after =>
        emitStatement cur ++
          splitLoop fuel (some 32) false (afterSeparator cur) after
      | none =>
        if byte = 59 then
          emitStatement cur ++
            splitLoop fuel (some 59) false (afterSeparator cur) rest
        else
          splitLoop fuel (some byte) false (cur ++ [byteChar byte]) rest

def splitSqlBatch (sql : List Char) : List (List Char) :=
  let bytes := utf8 sql
  splitLoop bytes.length none false [] bytes

example : splitSqlBatch "BEGIN; INSERT INTO t VALUES (';')\nGO\nCOMMIT".toList =
      ["BEGIN".toList, " INSERT INTO t VALUES (';')\n".toList, "\nCOMMIT".toList] := by decide

def commandTag (unicode : Unicode) (result : QueryResult) (sql : List Char) : String :=
  let lower := toLowercase unicode (trimStart sql)
  let rows := result.rowCount
  let starts (word : String) : Bool := startsWith lower word.toList
  if starts "select" || starts "with" then s!"SELECT {rows}"
  else if starts "insert" then s!"INSERT 0 {rows}"
  else if starts "update" then s!"UPDATE {rows}"
  else if starts "delete" then s!"DELETE {rows}"
  else if starts "create" then "CREATE"
  else if starts "drop" then "DROP"
  else if starts "begin" || starts "start transaction" then "BEGIN"
  else if starts "commit" then "COMMIT"
  else if starts "rollback" then "ROLLBACK"
  else "OK"

def sliceColumn (start stop : Nat) (column : ResultColumn) : Except ConnFault ResultColumn := do
  let values ← slice column.values start stop
  let stringValues ← column.stringValues.mapM (fun strings => slice strings start stop)
  let nullMask ← column.nullMask.mapM (fun mask => slice mask start stop)
  return {
    column with
    values := values
    stringValues := stringValues
    nullMask := nullMask }

def sliceResult (result : QueryResult) (start stop : Nat) : Except ConnFault QueryResult := do
  let start := min start result.rowCount
  let stop := min stop result.rowCount
  let columns ← result.columns.mapM (sliceColumn start stop)
  return { columns := columns, rowCount := stop - start }

section

variable (host : WireHost) (depth : Nat)

def setTxn (status : TxnStatus) : ConnM Unit :=
  modify
    (fun conn => { conn with session := { conn.session with txn := status } })

/-- A statement for the engine: read-only first, then under the write
lock. -/
def runStatement (sql : List Char) : ConnM (Except Error QueryResult) := do
  match ← onEngine (executeReadonly host.toReadonlyHost sql) with
  | .ok result => return .ok result
  | .error _ => onEngine (execute host.toSqlHost depth sql)

/-- A statement that failed; the rest of the batch is skipped. -/
def failStatement (wasTxn : Bool) (code message : String) : ConnM Bool := do
  sendError code message
  if wasTxn then setTxn .failedTransaction
  return false

def controlStatement (status : TxnStatus) (tag : String) : ConnM Bool := do
  setTxn status
  sendCommandComplete tag
  return true

/-- CREATE USER and DROP USER, with a new salt each time. -/
def handleUserDdl (sql : List Char) : ConnM (Option UserDdlOutcome) := do
  let conn ← get
  let salt := host.randomSalt conn.draws
  match tryHandleUserDdl host conn.passwords salt sql with
  | none => return none
  | some handled =>
    match ← ofFault handled with
    | .ok (outcome, passwords) =>
      set
        { conn with
          passwords := passwords
          draws := conn.draws + 1 }
      return some outcome
    | .error error => return some (.err (displayError error))

def engineStatement (wasTxn : Bool) (sql : List Char) : ConnM Bool := do
  match ← runStatement host depth sql with
  | .ok result =>
    sendRowDescription result
    sendDataRows result
    sendCommandComplete (commandTag host.unicode result sql)
    return true
  | .error error => failStatement wasTxn (sqlstate error) (displayError error)

def dataStatement (wasTxn : Bool) (sql : List Char) : ConnM Bool := do
  match ← handleUserDdl host sql with
  | some (.ok tag) =>
    sendCommandComplete tag
    return true
  | some (.err message) => failStatement wasTxn "42000" message
  | none => engineStatement host depth wasTxn sql

/-- One statement of a batch; `true` when the batch goes on. -/
def simpleStatement (wasTxn : Bool) (stmt : List Char) : ConnM Bool :=
  let trimmed := trim stmt
  let lower := toLowercase host.unicode trimmed
  if trimmed.isEmpty then return true
  else if startsWith lower "begin".toList ||
      startsWith lower "start transaction".toList then
    controlStatement .inTransaction "BEGIN"
  else if startsWith lower "commit".toList then
    controlStatement .idle "COMMIT"
  else if startsWith lower "rollback".toList then
    controlStatement .idle "ROLLBACK"
  else dataStatement host depth wasTxn trimmed

def simpleStatements (wasTxn : Bool) : List (List Char) → ConnM Unit
  | [] => return ()
  | stmt :: rest => do
    match ← simpleStatement host depth wasTxn stmt with
    | true => simpleStatements wasTxn rest
    | false => return ()

def handleSimpleQuery (sql : List Char) : ConnM Unit := do
  let wasTxn := decide ((← get).session.txn ≠ .idle)
  simpleStatements host depth wasTxn (splitSqlBatch sql)
  sendReadyForQuery

structure ParseMessage where
  name : List Char
  sql : List Char
  oids : List Nat

def parseFields (buf : Bytes) : BufM ParseMessage := do
  let name ← readCstring buf
  let sql ← readCstring buf
  let count ← readU16 buf "Parse truncated"
  let oids ← readMany (fun _ => readU32 buf "Parse OID truncated") 0 count
  return { name := name, sql := sql, oids := oids }

def handleParse (buf : Bytes) : ConnM Unit := do
  let message ← parseBody 0 (parseFields buf)
  modify
    (fun conn =>
      { conn with
        statements :=
          conn.statements.insert message.name { sql := message.sql, paramOids := message.oids } })
  send .parseComplete

structure BindMessage where
  portalName : List Char
  stmtName : List Char
  params : List (List Char)
  resultFormats : List Int

/-- The format of a parameter: one for all, one for each, or text. -/
def paramFormat (formats : List Int) (i : Nat) : Int :=
  match formats with
  | [only] => only
  | _ => (formats[i]?).getD 0

/-- The text of a parameter; a negative length is NULL. -/
def bindParam (buf : Bytes) (formats : List Int) (i : Nat) : BufM (List Char) := do
  let length ← readI32 buf "Bind param truncated"
  if length < 0 then return "NULL".toList
  else
    let bytes ← readBytes buf length.toNat "Bind param overflow"
    if paramFormat formats i = 0 then return host.fromUtf8Lossy bytes
    else return '\\' :: 'x' :: hexEncode bytes

def bindFields (buf : Bytes) : BufM BindMessage := do
  let portalName ← readCstring buf
  let stmtName ← readCstring buf
  let formatCount ← readU16 buf "Bind truncated"
  let formats ← readMany (fun _ => readI16 buf "Bind fmt truncated") 0 formatCount
  let paramCount ← readU16 buf "Bind truncated"
  let params ← readMany (bindParam host buf formats) 0 paramCount
  let resultCount ← readU16 buf "Bind rfmt truncated"
  let resultFormats ← readMany (fun _ => readI16 buf "Bind rfmt truncated") 0 resultCount
  return {
    portalName := portalName
    stmtName := stmtName
    params := params
    resultFormats := resultFormats }

def handleBind (buf : Bytes) : ConnM Unit := do
  let message ← parseBody 0 (bindFields host buf)
  let conn ← get
  if message.stmtName ∈ conn.statements then
    set
      { conn with
        portals := conn.portals.insert message.portalName
            (Portal.new message.stmtName message.params message.resultFormats) }
    send .bindComplete
  else
    let name := String.ofList message.stmtName
    sendError "26000" s!"prepared statement \"{name}\" does not exist"

def statementNotFound (name : List Char) : ConnM Unit :=
  let name := String.ofList name
  sendError "26000" s!"statement \"{name}\" not found"

def portalNotFound (name : List Char) : ConnM Unit :=
  let name := String.ofList name
  sendError "34000" s!"portal \"{name}\" not found"

def describeStatement (name : List Char) : ConnM Unit := do
  match (← get).statements.lookup name with
  | none => statementNotFound name
  | some stmt =>
    send (.parameterDescription stmt.paramOids)
    send .noData

def describePortal (name : List Char) : ConnM Unit := do
  let conn ← get
  match conn.portals.lookup name with
  | none => portalNotFound name
  | some portal =>
    match conn.statements.lookup portal.stmtName with
    | none => statementNotFound portal.stmtName
    | some _ => send .noData

def handleDescribe (buf : Bytes) : ConnM Unit :=
  match buf with
  | [] => throw (invalidData "Describe empty")
  | kind :: _ => do
    let name ← parseBody 1 (readCstring buf)
    if kind = 83 then describeStatement name
    else if kind = 80 then describePortal name
    else sendError "08P01" "unknown describe kind"

def handleClose (buf : Bytes) : ConnM Unit :=
  match buf with
  | [] => return ()
  | kind :: _ =>
    match readCstring buf 1 with
    | .error _ _ => return ()
    | .ok name _ =>
      modify
        (fun conn =>
          if kind = 83 then
            { conn with statements := conn.statements.erase name }
          else if kind = 80 then
            { conn with portals := conn.portals.erase name }
          else conn)

def setPortal (name : List Char) (portal : Portal) : ConnM Unit :=
  modify (fun conn => { conn with portals := conn.portals.insert name portal })

def drainStop (offset total : Nat) (maxRows : Int) : Nat :=
  let limit := if 0 < maxRows then maxRows.toNat else total
  min (offset + limit) total

/-- Send rows of a cached result, and what is left stays cached. -/
def drainPortal (name : List Char) (portal : Portal) (cached : CachedRows)
    (maxRows : Int) : ConnM Unit := do
  let total := cached.result.rowCount
  let stop := drainStop portal.cachedOffset total maxRows
  match sliceResult cached.result portal.cachedOffset stop with
  | .error fault => throw fault
  | .ok batch =>
    sendDataRows batch
    if total ≤ stop then
      sendCommandComplete cached.tag
      setPortal name { portal with cachedResult := none, cachedOffset := 0 }
    else
      send .portalSuspended
      setPortal name { portal with cachedOffset := stop }

/-- The rows of a new result, all or a first part. -/
def sendResult (name : List Char) (portal : Portal) (maxRows : Int)
    (result : QueryResult) (tag : String) : ConnM Unit := do
  if 0 < maxRows ∧ maxRows.toNat < result.rowCount then
    match sliceResult result 0 maxRows.toNat with
    | .error fault => throw fault
    | .ok batch =>
      sendDataRows batch
      send .portalSuspended
      setPortal name
        { portal with
          cachedResult := some { result := result, tag := tag }
          cachedOffset := maxRows.toNat }
  else
    sendDataRows result
    sendCommandComplete tag

def executeStatementText (name : List Char) (portal : Portal)
    (maxRows : Int) (sql : List Char) : ConnM Unit := do
  match ← handleUserDdl host sql with
  | some (.ok tag) => sendCommandComplete tag
  | some (.err message) => sendError "42000" message
  | none =>
    match ← runStatement host depth sql with
    | .ok result => sendResult name portal maxRows result (commandTag host.unicode result sql)
    | .error error => sendError (sqlstate error) (displayError error)

def executePortal (name : List Char) (portal : Portal) (maxRows : Int) : ConnM Unit := do
  match (← get).statements.lookup portal.stmtName with
  | none => statementNotFound portal.stmtName
  | some stmt =>
    executeStatementText host depth name portal maxRows
      (substituteParams host.toHost stmt.sql portal.params)

def executeFields (buf : Bytes) : BufM (List Char × Int) := do
  let name ← readCstring buf
  let maxRows ← readI32 buf "Execute truncated"
  return (name, maxRows)

def handleExecute (buf : Bytes) : ConnM Unit := do
  let (name, maxRows) ← parseBody 0 (executeFields buf)
  match (← get).portals.lookup name with
  | none => portalNotFound name
  | some portal =>
    match portal.cachedResult with
    | some cached => drainPortal name portal cached maxRows
    | none => executePortal host depth name portal maxRows

end

end TurboGP.Server
