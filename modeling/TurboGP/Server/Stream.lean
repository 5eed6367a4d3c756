import TurboGP.Server.Query

/-! # The stream and the handlers -/

namespace TurboGP.Server

open Sql.Text Engine Effect

/-! ## Startup and authentication -/

def sslRequestMagic : Int := 80877103

def gssapiRequestMagic : Int := 80877104

def cancelRequestMagic : Int := 80877102

inductive StartupKind
  | encryption | cancel | version3 | unsupported
  deriving DecidableEq, Repr

def startupKind (magic : Int) : StartupKind :=
  if magic = sslRequestMagic ∨ magic = gssapiRequestMagic then .encryption
  else if magic = cancelRequestMagic then .cancel
  else if 196608 ≤ magic ∧ magic ≤ 196620 then .version3
  else .unsupported

def parameterStatuses : List (String × String) :=
  [("server_version", "15.0"), ("server_encoding", "UTF8"),
    ("client_encoding", "UTF8"), ("DateStyle", "ISO, MDY"),
    ("integer_datetimes", "on"), ("standard_conforming_strings", "on"),
    ("application_name", "turboGP"), ("IntervalStyle", "postgres"), ("TimeZone", "UTC")]

section

variable (host : WireHost)

def draw : ConnM Nat := do
  let conn ← get
  set { conn with draws := conn.draws + 1 }
  return conn.draws

def sendParameterStatuses : ConnM Unit := do
  parameterStatuses.forM (fun entry => send (.parameterStatus entry.1 entry.2))
  let pid ← draw
  let key ← draw
  send (.backendKeyData (host.backendKey pid) (host.backendKey key))
  sendReadyForQuery

def sendAuthOkAndParams : ConnM Unit := do
  send .authenticationOk
  sendParameterStatuses host

/-- An error that is sent before the connection is closed with another. -/
def reject {α : Type} (code message : String) (fault : ConnFault) : ConnM α := do
  sendError code message
  throw fault

def readPassword (error : String) : ConnM Bytes := do
  match ← readExact 1 with
  | [tag] =>
    if tag ≠ 112 then
      let shown := String.ofList (hexPrefixed tag)
      throw (invalidData s!"expected 'p' msg, got {shown}")
    else
      let len := asUsize (← readI32Be)
      if len < 4 then throw (invalidData error) else readBody (len - 4)
  | _ => throw .panic

/-- The fields of a SASLInitialResponse; the response may be missing. -/
def saslInitialFields (buf : Bytes) : BufM (Option (List Char × Bytes)) := do
  let mech ← readCstring buf
  let cursor ← get
  if buf.length < cursor + 4 then return none
  else
    let length ← readI32 buf ""
    if length < 0 then return some (mech, [])
    else
      let response ← readBytes buf length.toNat "sasl init overflow"
      return some (mech, response)

def readSaslInitialResponse : ConnM (Option (List Char × Bytes)) := do
  let buf ← readPassword "sasl init len"
  parseBody 0 (saslInitialFields buf)

def readSaslResponse : ConnM Bytes := readPassword "sasl resp len"

def finishScram (cred : StoredCredential)
    (clientFirstBare serverFirst : List Char) : ConnM Unit := do
  let clientFinal ← readSaslResponse
  match fromUtf8 clientFinal with
  | none => reject "28000" "client_final not utf8" (invalidData "client_final not utf8")
  | some text =>
    match verifyScram host cred clientFirstBare serverFirst text with
    | .ok signature =>
      record .verified
      send (.authenticationSaslFinal ('v' :: '=' :: signature))
      sendAuthOkAndParams host
    | .invalid =>
      reject "28P01" "password authentication failed" (permissionDenied "scram proof invalid")

/-- The server's first message to a user that is registered. -/
def challenge (clientFirstBare username clientNonce : List Char) : ConnM Unit := do
  match (← get).passwords.lookup username with
  | none => reject "28000" "authentication failed" (permissionDenied "unknown user")
  | some cred =>
    let serverNonce := host.serverNonce (← draw)
    let serverFirst := "r=".toList ++ clientNonce ++ serverNonce ++ ",s=".toList ++
        host.base64Encode cred.salt ++ ",i=".toList ++ (toString cred.iterations).toList
    send (.authenticationSaslContinue serverFirst)
    finishScram host cred clientFirstBare serverFirst

def doScramAuth : ConnM Unit := do
  send .authenticationSasl
  match ← readSaslInitialResponse with
  | none =>
    reject "28000" "expected SASLInitialResponse" (invalidData "expected SASLInitialResponse")
  | some (mech, clientFirst) =>
    if mech ≠ "SCRAM-SHA-256".toList then
      let mech := String.ofList mech
      reject "28000" s!"unsupported SASL mechanism: {mech}" (invalidData s!"bad mech {mech}")
    else
      let clientFirstBare := stripGs2Header clientFirst
      match parseClientFirstBare clientFirstBare with
      | none => reject "28000" "malformed client-first message" (invalidData "bad client-first")
      | some (username, clientNonce) => challenge host clientFirstBare username clientNonce

/-- `parse_startup_v3_params`, with the default user. -/
def startupSession (session : Session) (buf : Bytes) : Session :=
  let named := (parseCstringPairs (buf.drop 4) buf.length 0).foldl
      (fun (session : Session) entry =>
        if entry.1 = "user".toList then
          { session with user := some entry.2 }
        else if entry.1 = "database".toList then
          { session with database := some entry.2 }
        else if entry.1 = "application_name".toList then
          { session with applicationName := some entry.2 }
        else session)
      session
  if named.user.isNone then
    { named with user := some "turboGP".toList }
  else named

def openSession (authRequired : Bool) (buf : Bytes) : ConnM Unit := do
  modify (fun conn => { conn with session := startupSession conn.session buf })
  if authRequired then doScramAuth host else sendAuthOkAndParams host

/-- A packet without a type byte: its length, and that many bytes less
four. -/
def readStartupPacket : ConnM Bytes := do
  let len ← readI32Be
  if len < 4 ∨ 1000000 < len then
    throw (invalidData s!"startup len {len}")
  else readBody (len - 4).toNat

/-- `handle_startup`; each round reads at least four bytes, so that the length
of the input is enough `fuel`. -/
def handleStartup (authRequired : Bool) : Nat → ConnM Unit
  | 0 => throw .abort
  | fuel + 1 => do
    let buf ← readStartupPacket
    match buf with
    | a :: b :: c :: d :: _ =>
      let magic := i32Of a b c d
      match startupKind magic with
      | .encryption => do
        send .decline
        handleStartup authRequired fuel
      | .cancel => return ()
      | .version3 => openSession host authRequired buf
      | .unsupported => reject "08P01" "unsupported protocol" (invalidData s!"magic {magic}")
    | _ => throw (invalidData "startup too short")

end

/-! ## The message loop -/

section

variable (host : WireHost) (depth : Nat)

def handleBody (msgType : UInt8) (buf : Bytes) : ConnM Unit :=
  if msgType = 80 then handleParse buf
  else if msgType = 66 then handleBind host buf
  else if msgType = 68 then handleDescribe buf
  else if msgType = 69 then handleExecute host depth buf
  else if msgType = 67 then do
    handleClose buf
    send .closeComplete
  else
    let shown := String.ofList (hexPrefixed msgType)
    sendError "0A000" s!"unsupported msg {shown}"

/-- A query message: the text, with its bytes for the record. -/
def dispatchQuery (bodyLen : Nat) : ConnM Unit := do
  let body := (← get).input.take bodyLen
  let sql ← readString bodyLen
  record (.dispatched 81 body)
  handleSimpleQuery host depth sql

/-- One message by its type, the length already read. -/
def dispatch (msgType : UInt8) (bodyLen : Nat) : ConnM Unit :=
  if msgType = 81 then dispatchQuery host depth bodyLen
  else if msgType = 83 then do
    record (.dispatched 83 [])
    sendReadyForQuery
  else if msgType = 72 then record (.dispatched 72 [])
  else do
    let buf ← readBody bodyLen
    record (.dispatched msgType buf)
    handleBody host depth msgType buf

def readLength (msgType : UInt8) : ConnM Nat := do
  let len := asUsize (← readI32Be)
  if len < 4 then
    let shown := String.ofList (hexPrefixed msgType)
    throw (invalidData s!"msg {shown} len {len} < 4")
  else return len - 4

/-- The loop; each round reads a type byte, so that the length of the input is
enough `fuel`.  The end of the input and Terminate end it. -/
def messageLoop : Nat → ConnM Unit
  | 0 => return ()
  | fuel + 1 => do
    match (← get).input with
    | [] => return ()
    | msgType :: rest => do
      modify (fun conn => { conn with input := rest })
      let bodyLen ← readLength msgType
      if msgType = 88 then return ()
      else
        dispatch host depth msgType bodyLen
        messageLoop fuel

def runLoop (authRequired : Bool) : ConnM Unit := do
  handleStartup host authRequired ((← get).input.length + 1)
  messageLoop host depth (← get).input.length

end

def PgConn.final (host : WireHost) (depth : Nat) (authRequired : Bool) (conn : PgConn) : PgConn :=
  finalState (runLoop host depth authRequired) conn

structure KeepsStream (old new : PgConn) : Prop where
  input : new.input = old.input
  trace : new.trace = old.trace

instance : IsPreorder PgConn KeepsStream where
  refl := fun _ => ⟨rfl, rfl⟩
  trans := fun _ _ _ first second =>
    ⟨second.input.trans first.input, second.trace.trans first.trace⟩

structure Local (old new : PgConn) : Prop extends KeepsStream old new where
  engine : new.engine = old.engine

instance : IsPreorder PgConn Local where
  refl := fun _ => ⟨⟨rfl, rfl⟩, rfl⟩
  trans := fun _ _ _ first second =>
    ⟨Trans.trans first.toKeepsStream second.toKeepsStream, second.engine.trans first.engine⟩

theorem keeps_of_local {α : Type} {conn : PgConn} {prog : ConnM α} (stays : Moves Local conn prog) :
    Moves KeepsStream conn prog :=
  stays.weaken fun _ _ kept => kept.toKeepsStream

section

variable {conn : PgConn}

theorem local_send (message : BackendMessage) : Moves Local conn (send message) :=
  .modify ⟨⟨rfl, rfl⟩, rfl⟩

theorem local_sendReadyForQuery : Moves Local conn sendReadyForQuery :=
  .get_bind (local_send _)

theorem local_sendRowDescription (res : QueryResult) :
    Moves Local conn (sendRowDescription res) := by
  unfold sendRowDescription
  split
  · exact local_send _
  · exact local_send _

theorem local_sendDataRows (res : QueryResult) : Moves Local conn (sendDataRows res) := by
  unfold sendDataRows
  split
  · exact .pure _
  · exact local_send _

theorem local_setTxn (status : TxnStatus) : Moves Local conn (setTxn status) :=
  .modify ⟨⟨rfl, rfl⟩, rfl⟩

theorem local_parseBody {α : Type} (cursor : Nat) (read : BufM α) :
    Moves Local conn (parseBody cursor read) := by
  unfold parseBody
  split
  · exact .pure _
  · exact .throw _

theorem local_ofFault {α : Type} (out : Except Fault α) : Moves Local conn (ofFault out) := by
  unfold ofFault
  split
  · exact .pure _
  · exact .pure _
  · exact .throw _
  · exact .throw _

theorem keeps_onEngine {α : Type} (prog : SqlM α) : Moves KeepsStream conn (onEngine prog) := by
  unfold Moves finalState onEngine
  cases prog conn.engine with
  | ok value engine => exact ⟨rfl, rfl⟩
  | error fault engine => cases fault <;> exact ⟨rfl, rfl⟩

end

section

variable {conn : PgConn} (host : WireHost) (depth : Nat)

theorem keeps_runStatement (sql : List Char) :
    Moves KeepsStream conn (runStatement host depth sql) := by
  refine .bind (keeps_onEngine _) fun out _ _ => ?_
  cases out with
  | ok res => exact .pure _
  | error error => exact keeps_onEngine _

theorem local_failStatement (wasTxn : Bool) (code message : String) :
    Moves Local conn (failStatement wasTxn code message) := by
  refine .bind (local_send _) fun _ _ _ => ?_
  split
  · exact .bind (local_setTxn _) fun _ _ _ => .pure _
  · exact .pure _

theorem local_controlStatement (status : TxnStatus) (tag : String) :
    Moves Local conn (controlStatement status tag) :=
  .bind (local_setTxn _) fun _ _ _ =>
    .bind (local_send _) fun _ _ _ => .pure _

theorem local_handleUserDdl (sql : List Char) : Moves Local conn (handleUserDdl host sql) := by
  refine .get_bind ?_
  simp only
  split
  · exact .pure _
  · refine .bind (local_ofFault _) fun handled next out => ?_
    have kept : Local conn next := (local_ofFault _).reached out
    cases handled with
    | error error => exact .pure _
    | ok done =>
      have set : Local next
            { conn with
              passwords := done.2
              draws := conn.draws + 1 } :=
        ⟨⟨kept.input.symm, kept.trace.symm⟩, kept.engine.symm⟩
      exact .bind (.set set) fun _ _ _ => .pure _

theorem keeps_engineStatement (wasTxn : Bool) (sql : List Char) :
    Moves KeepsStream conn (engineStatement host depth wasTxn sql) := by
  refine .bind (keeps_runStatement host depth sql) fun out _ _ => ?_
  cases out with
  | error error => exact keeps_of_local (local_failStatement _ _ _)
  | ok res =>
    refine .bind (keeps_of_local (local_sendRowDescription _)) fun _ _ _ => ?_
    refine .bind (keeps_of_local (local_sendDataRows _)) fun _ _ _ => ?_
    exact .bind (keeps_of_local (local_send _)) fun _ _ _ => .pure _

theorem keeps_dataStatement (wasTxn : Bool) (sql : List Char) :
    Moves KeepsStream conn (dataStatement host depth wasTxn sql) := by
  refine .bind (keeps_of_local (local_handleUserDdl host sql)) fun handled _ _ => ?_
  split
  · exact .bind (keeps_of_local (local_send _)) fun _ _ _ => .pure _
  · exact keeps_of_local (local_failStatement _ _ _)
  · exact keeps_engineStatement host depth _ _

theorem keeps_simpleStatement (wasTxn : Bool) (stmt : List Char) :
    Moves KeepsStream conn (simpleStatement host depth wasTxn stmt) := by
  unfold simpleStatement
  simp only
  split
  · exact .pure _
  split
  · exact keeps_of_local (local_controlStatement _ _)
  split
  · exact keeps_of_local (local_controlStatement _ _)
  split
  · exact keeps_of_local (local_controlStatement _ _)
  · exact keeps_dataStatement host depth _ _

theorem keeps_simpleStatements (wasTxn : Bool) (stmts : List (List Char)) :
    Moves KeepsStream conn (simpleStatements host depth wasTxn stmts) := by
  induction stmts generalizing conn with
  | nil => exact .pure _
  | cons stmt rest ih =>
    refine .bind (keeps_simpleStatement host depth wasTxn stmt) fun goesOn _ _ => ?_
    cases goesOn with
    | true => exact ih
    | false => exact .pure _

theorem keeps_handleSimpleQuery (sql : List Char) :
    Moves KeepsStream conn (handleSimpleQuery host depth sql) := by
  refine .get_bind ?_
  exact .bind (keeps_simpleStatements host depth _ _)
    fun _ _ _ => keeps_of_local (local_sendReadyForQuery)

theorem local_handleParse (buf : Bytes) : Moves Local conn (handleParse buf) := by
  refine .bind (local_parseBody _ _) fun message _ _ => ?_
  exact .bind (.modify ⟨⟨rfl, rfl⟩, rfl⟩) fun _ _ _ => local_send _

theorem local_handleBind (buf : Bytes) : Moves Local conn (handleBind host buf) := by
  refine .bind (local_parseBody _ _) fun message _ _ => ?_
  refine .get_bind ?_
  split
  · exact .bind (.set ⟨⟨rfl, rfl⟩, rfl⟩) fun _ _ _ => local_send _
  · exact local_send _

theorem local_handleDescribe (buf : Bytes) : Moves Local conn (handleDescribe buf) := by
  unfold handleDescribe
  split
  · exact .throw _
  refine .bind (local_parseBody _ _) fun name _ _ => ?_
  split
  · refine .get_bind ?_
    split
    · exact local_send _
    · exact .bind (local_send _) fun _ _ _ => local_send _
  split
  · refine .get_bind ?_
    split
    · exact local_send _
    · split
      · exact local_send _
      · exact local_send _
  · exact local_send _

theorem local_handleClose (buf : Bytes) : Moves Local conn (handleClose buf) := by
  unfold handleClose
  split
  · exact .pure _
  split
  · exact .pure _
  · refine .modify ?_
    split
    · exact ⟨⟨rfl, rfl⟩, rfl⟩
    · split <;> exact ⟨⟨rfl, rfl⟩, rfl⟩

theorem local_setPortal (name : List Char) (portal : Portal) :
    Moves Local conn (setPortal name portal) :=
  .modify ⟨⟨rfl, rfl⟩, rfl⟩

theorem local_drainPortal (name : List Char) (portal : Portal) (cached : CachedRows)
    (maxRows : Int) : Moves Local conn (drainPortal name portal cached maxRows) := by
  unfold drainPortal
  simp only
  split
  · exact .throw _
  refine .bind (local_sendDataRows _) fun _ _ _ => ?_
  split
  · exact .bind (local_send _) fun _ _ _ => local_setPortal _ _
  · exact .bind (local_send _) fun _ _ _ => local_setPortal _ _

theorem local_sendResult (name : List Char) (portal : Portal) (maxRows : Int)
    (res : QueryResult) (tag : String) :
    Moves Local conn (sendResult name portal maxRows res tag) := by
  unfold sendResult
  split
  · split
    · exact .throw _
    · refine .bind (local_sendDataRows _) fun _ _ _ => ?_
      exact .bind (local_send _) fun _ _ _ => local_setPortal _ _
  · exact .bind (local_sendDataRows _) fun _ _ _ => local_send _

theorem keeps_handleExecute (buf : Bytes) :
    Moves KeepsStream conn (handleExecute host depth buf) := by
  refine .bind (keeps_of_local (local_parseBody _ _)) fun fields _ _ => ?_
  refine .get_bind ?_
  split
  · exact keeps_of_local (local_send _)
  split
  · exact keeps_of_local (local_drainPortal _ _ _ _)
  refine .get_bind ?_
  split
  · exact keeps_of_local (local_send _)
  refine .bind (keeps_of_local (local_handleUserDdl host _)) fun handled _ _ => ?_
  split
  · exact keeps_of_local (local_send _)
  · exact keeps_of_local (local_send _)
  refine .bind (keeps_runStatement host depth _) fun out _ _ => ?_
  cases out with
  | ok res => exact keeps_of_local (local_sendResult _ _ _ _ _)
  | error error => exact keeps_of_local (local_send _)

theorem keeps_handleBody (msgType : UInt8) (buf : Bytes) :
    Moves KeepsStream conn (handleBody host depth msgType buf) := by
  unfold handleBody
  split
  · exact keeps_of_local (local_handleParse _)
  split
  · exact keeps_of_local (local_handleBind host _)
  split
  · exact keeps_of_local (local_handleDescribe _)
  split
  · exact keeps_handleExecute host depth _
  split
  · exact .bind (keeps_of_local (local_handleClose _)) fun _ _ _ => keeps_of_local (local_send _)
  · exact keeps_of_local (local_send _)

end

end TurboGP.Server
