import Mathlib.Data.Finmap
import TurboGP.Engine.Execute
import TurboGP.Server.Bytes

/-!
# The state of a connection

A connection reads the bytes of its client, sends messages and works on the
shared engine and the shared registry of users (`server/pgwire.rs`,
`server/session.rs`).
-/

namespace TurboGP.Server

open Sql.Text Engine

/-! ## Passwords -/

structure StoredCredential where
  salt : Bytes
  iterations : Nat
  storedKey : Bytes
  serverKey : Bytes
  deriving DecidableEq

abbrev PasswordManager := Finmap (fun _ : List Char => StoredCredential)

/-- What the server takes from outside: the engine's surroundings, the
cryptographic functions, base64, the lossy decoding of texts, and the random
numbers, by the count of draws so far. -/
structure WireHost extends ReadonlyHost where
  hmacSha256 : Bytes → Bytes → Bytes
  sha256 : Bytes → Bytes
  pbkdf2 : Bytes → Bytes → Nat → Bytes
  base64Encode : Bytes → List Char
  base64Decode : List Char → Option Bytes
  fromUtf8Lossy : Bytes → List Char
  randomSalt : Nat → Bytes
  serverNonce : Nat → List Char
  backendKey : Nat → Int

section

variable (host : WireHost)

def StoredCredential.fromPassword (password : List Char) (salt : Bytes)
    (iterations : Nat) : StoredCredential :=
  let salted := host.pbkdf2 (utf8 password) salt iterations
  let clientKey := host.hmacSha256 salted (utf8 "Client Key".toList)
  { salt := salt, iterations := iterations, storedKey := host.sha256 clientKey
    serverKey := host.hmacSha256 salted (utf8 "Server Key".toList) }

def defaultIterations : Nat := 4096

def createUser (users : PasswordManager) (username password : List Char)
    (salt : Bytes) : PasswordManager :=
  users.insert username (StoredCredential.fromPassword host password salt defaultIterations)

inductive ScramOutcome
  | ok (serverSignature : List Char)
  | invalid
  deriving DecidableEq

def stripStart (start text : List Char) : Option (List Char) :=
  if startsWith text start then some (text.drop start.length) else none

def lastField (tag : List Char) (message : List Char) : Option (List Char) :=
  ((message.splitOn ',').filterMap (stripStart tag)).getLast?

def beforeLast (part text : List Char) : Option (List Char) :=
  ((text.tails.zipIdx.filter
    (fun entry => startsWith entry.1 part)).getLast?).map (fun entry => text.take entry.2)

/-- `verify_scram`: channel binding and nonce are read and not used. -/
def verifyScram (cred : StoredCredential)
    (clientFirstBare serverFirst clientFinal : List Char) : ScramOutcome :=
  match lastField "p=".toList clientFinal with
  | none => .invalid
  | some proofText =>
    match host.base64Decode proofText with
    | none => .invalid
    | some proof =>
      if proof.length ≠ 32 then .invalid
      else
        match beforeLast ",p=".toList clientFinal with
        | none => .invalid
        | some withoutProof =>
          let authMessage := utf8 (clientFirstBare ++ ',' :: serverFirst ++ ',' :: withoutProof)
          let signature := host.hmacSha256 cred.storedKey authMessage
          let clientKey := proof.zipWith (· ^^^ ·) signature
          if host.sha256 clientKey ≠ cred.storedKey then .invalid
          else
            .ok (host.base64Encode (host.hmacSha256 cred.serverKey authMessage))

/-- `strip_gs2_header`: the text after the second comma, or all of it. -/
def stripGs2Header (clientFirst : Bytes) : List Char :=
  let text := (fromUtf8 clientFirst).getD []
  match text.splitOn ',' with
  | _ :: _ :: third :: rest => [','].intercalate (third :: rest)
  | _ => text

def parseClientFirstBare (bare : List Char) : Option (List Char × List Char) := do
  let username ← lastField "n=".toList bare
  let nonce ← lastField "r=".toList bare
  return (username, nonce)

end

inductive UserDdlOutcome
  | ok (tag : String)
  | err (message : String)
  deriving DecidableEq, Repr

/-- `split_username`: a quoted name, or the text up to the next blank. -/
def splitUsername (text : List Char) : Option (List Char × List Char) :=
  match trimStart text with
  | [] => none
  | '"' :: rest =>
    if rest.contains '"' then
      some (rest.takeWhile (· != '"'), (rest.dropWhile (· != '"')).tail)
    else none
  | trimmed =>
    some
      (trimmed.takeWhile (fun c => !isWhitespace c), trimmed.dropWhile (fun c => !isWhitespace c))

/-- `extract_string_literal` of the server, byte by byte: a byte beyond ASCII
becomes a character of its own. -/
def literalBytes : Bytes → Option (List Char)
  | [] => none
  | [byte] => if byte = 39 then some [] else none
  | first :: second :: rest =>
    if first = 39 then
      if second = 39 then (literalBytes rest).map (quote :: ·)
      else some []
    else (literalBytes (second :: rest)).map (byteChar first :: ·)

def extractLiteral (text : List Char) : Option (List Char) :=
  match utf8 (trimStart text) with
  | 39 :: rest => literalBytes rest
  | _ => none

section

variable (host : WireHost)

/-- `handle_create_user`: the registry changes only when everything was
found. -/
def handleCreateUser (users : PasswordManager) (salt : Bytes) (sql : List Char) :
    Except Fault (UserDdlOutcome × PasswordManager) := do
  let after := trimStart (← dropBytes sql 11)
  match splitUsername after with
  | none => return (.err "expected username after CREATE USER", users)
  | some (username, rest) =>
    match findBytes (toLowercase host.unicode rest)
        "password".toList with
    | none => return (.err "expected PASSWORD '...' in CREATE USER", users)
    | some pos =>
      let afterPassword ← dropBytes rest (pos + 8)
      match extractLiteral afterPassword with
      | none =>
        let message := "expected 'password' string literal in CREATE USER"
        return (.err message, users)
      | some password =>
        let added := createUser host users username password salt
        return (.ok "CREATE USER", added)

def handleDropUser (users : PasswordManager) (sql : List Char) :
    Except Fault (UserDdlOutcome × PasswordManager) := do
  let after := trimStart (← dropBytes sql 9)
  let ifExists := startsWith (toLowercase host.unicode after) "if exists ".toList
  let named ← dropBytes after (if ifExists then 10 else 0)
  match splitUsername (trimStart named) with
  | none => return (.err "expected username after DROP USER", users)
  | some (username, _) =>
    if username ∈ users then
      return (.ok "DROP USER", users.erase username)
    else if ifExists then return (.ok "DROP USER", users)
    else
      let name := String.ofList username
      return (.err s!"user \"{name}\" does not exist", users)

/-- `try_handle_user_ddl`; other statements are left to the engine. -/
def tryHandleUserDdl (users : PasswordManager) (salt : Bytes) (sql : List Char) :
    Option (Except Fault (UserDdlOutcome × PasswordManager)) :=
  let trimmed := trim sql
  let lower := toLowercase host.unicode trimmed
  if startsWith lower "create user ".toList then
    some (handleCreateUser host users salt trimmed)
  else if startsWith lower "drop user ".toList then
    some (handleDropUser host users trimmed)
  else none

end

/-- A host without cryptography, that answers no query under the read lock. -/
def plainWireHost (host : SqlHost) : WireHost :=
  { host with
    readonlyQuery := fun _ => none
    hmacSha256 := fun _ _ => []
    sha256 := fun _ => []
    pbkdf2 := fun _ _ _ => []
    base64Encode := fun _ => []
    base64Decode := fun _ => none
    fromUtf8Lossy := fun bytes => bytes.map byteChar
    randomSalt := fun _ => []
    serverNonce := fun _ => []
    backendKey := fun _ => 0 }

inductive TxnStatus
  | idle | inTransaction | failedTransaction
  deriving DecidableEq, Repr

structure Session where
  txn : TxnStatus
  applicationName : Option (List Char)
  user : Option (List Char)
  database : Option (List Char)

def Session.new : Session :=
  { txn := .idle, applicationName := none, user := none, database := none }

structure PreparedStatement where
  sql : List Char
  paramOids : List Nat

structure CachedRows where
  result : QueryResult
  tag : String

structure Portal where
  stmtName : List Char
  params : List (List Char)
  resultFormats : List Int
  cachedResult : Option CachedRows
  cachedOffset : Nat

def Portal.new (stmtName : List Char) (params : List (List Char))
    (resultFormats : List Int) : Portal :=
  { stmtName := stmtName, params := params, resultFormats := resultFormats, cachedResult := none
    cachedOffset := 0 }

inductive BackendMessage
  | decline
  | authenticationOk
  | authenticationSasl
  | authenticationSaslContinue (serverFirst : List Char)
  | authenticationSaslFinal (serverFinal : List Char)
  | parameterStatus (key value : String)
  | backendKeyData (pid key : Int)
  | readyForQuery (status : TxnStatus)
  | error (code message : String)
  | rowDescription (columns : List ResultColumn)
  | noData
  | dataRows (result : QueryResult)
  | commandComplete (tag : String)
  | parseComplete
  | bindComplete
  | closeComplete
  | portalSuspended
  | parameterDescription (oids : List Nat)

inductive Event
  | verified
  | dispatched (msgType : UInt8) (body : Bytes)
  deriving DecidableEq, Repr

structure PgConn where
  input : Bytes
  output : List BackendMessage
  session : Session
  statements : Finmap (fun _ : List Char => PreparedStatement)
  portals : Finmap (fun _ : List Char => Portal)
  passwords : PasswordManager
  engine : SqlEngine
  draws : Nat
  trace : List Event

/-- The connection as `handle` sets it up. -/
def PgConn.new (input : Bytes) (engine : SqlEngine) (passwords : PasswordManager) : PgConn :=
  { input := input, output := [], session := .new, statements := ∅, portals := ∅
    passwords := passwords, engine := engine, draws := 0, trace := [] }

abbrev ConnM := EStateM ConnFault PgConn

def send (message : BackendMessage) : ConnM Unit :=
  modify (fun conn => { conn with output := conn.output ++ [message] })

def sendError (code message : String) : ConnM Unit := send (.error code message)

def sendReadyForQuery : ConnM Unit := do
  send (.readyForQuery (← get).session.txn)

def sendRowDescription (result : QueryResult) : ConnM Unit :=
  if result.columns.isEmpty then send .noData
  else send (.rowDescription result.columns)

def sendDataRows (result : QueryResult) : ConnM Unit :=
  if result.rowCount = 0 then return () else send (.dataRows result)

def sendCommandComplete (tag : String) : ConnM Unit := send (.commandComplete tag)

def record (event : Event) : ConnM Unit :=
  modify (fun conn => { conn with trace := conn.trace ++ [event] })

def maxAllocation : Nat := 2 ^ 63 - 1

/-- `read_exact`: without enough bytes the rest of the input is lost. -/
def readExact (count : Nat) : ConnM Bytes := fun conn =>
  if count ≤ conn.input.length then
    .ok (conn.input.take count) { conn with input := conn.input.drop count }
  else .error unexpectedEof { conn with input := [] }

def readI32Be : ConnM Int := do
  match ← readExact 4 with
  | [a, b, c, d] => return i32Of a b c d
  | _ => throw .panic

/-- `read_body`: the buffer is allocated first, and too large a size
panics. -/
def readBody (bodyLen : Nat) : ConnM Bytes :=
  if maxAllocation < bodyLen then throw .panic else readExact bodyLen

def readString (bodyLen : Nat) : ConnM (List Char) := do
  let buf ← readBody bodyLen
  match fromUtf8 (buf.reverse.dropWhile (· == 0)).reverse with
  | some text => return text
  | none => throw invalidUtf8

/-- Read a message body with a reader that starts at a cursor. -/
def parseBody {α : Type} (cursor : Nat) (read : BufM α) : ConnM α :=
  match read cursor with
  | .ok value _ => return value
  | .error fault _ => throw fault

def ofFault {α : Type} : Except Fault α → ConnM (Except Error α)
  | .ok value => return .ok value
  | .error (.error error) => return .error error
  | .error .panic => throw .panic
  | .error .stackOverflow => throw .abort

def onEngine {α : Type} (prog : SqlM α) : ConnM (Except Error α) :=
  fun conn =>
    match prog conn.engine with
    | .ok value engine => .ok (.ok value) { conn with engine := engine }
    | .error (.error error) engine => .ok (.error error) { conn with engine := engine }
    | .error .panic engine => .error .panic { conn with engine := engine }
    | .error .stackOverflow engine => .error .abort { conn with engine := engine }

/-- `sqlstate`; the code of other errors is told by their text. -/
def sqlstate : Error → String
  | .notFound _ => "42P01"
  | .parse _ => "42601"
  | .invalidArg _ => "22023"
  | .other message =>
    let mentions (part : String) : Bool := contains message.toList part.toList
    if mentions "23502" || mentions "NOT NULL" then "23502"
    else if mentions "23505" || mentions "unique" then "23505"
    else if mentions "23503" || mentions "foreign key" then "23503"
    else if mentions "42501" || mentions "not in allowed_copy_dirs" then "42501"
    else "42000"

/-! ## Bound parameters -/

/-- `escape_param_value`: numbers, booleans and NULL stay as they are, all
else is quoted. -/
def escapeParamValue (host : Host) (value : List Char) : List Char :=
  if (parseI64 value).isSome || (host.parseF64 value).isSome then value
  else if eqIgnoreAsciiCase value "true".toList ||
      eqIgnoreAsciiCase value "false".toList ||
      eqIgnoreAsciiCase value "null".toList then value
  else quote :: escapeQuotes value ++ [quote]

def isDigitByte (byte : UInt8) : Bool := decide (48 ≤ byte.toNat ∧ byte.toNat ≤ 57)

/-- The number of a placeholder, as a `usize` that wraps around. -/
def placeholderNumber (digits : Bytes) : Nat :=
  digits.foldl (fun n byte => (10 * n + (byte.toNat - 48)) % 2 ^ 64) 0

/-- What stands for a placeholder; a number out of range is NULL. -/
def placeholderText (host : Host) (params : List (List Char)) (n : Nat) : List Char :=
  if n = 0 then "NULL".toList
  else
    match params[n - 1]? with
    | some value => escapeParamValue host value
    | none => "NULL".toList

def substituteLoop (host : Host) (params : List (List Char)) : Nat → Bytes → List Char
  | 0, _ => []
  | _ + 1, [] => []
  | fuel + 1, byte :: rest =>
    let digits := rest.takeWhile isDigitByte
    if byte = 36 ∧ digits ≠ [] then
      placeholderText host params (placeholderNumber digits) ++
        substituteLoop host params fuel (rest.dropWhile isDigitByte)
    else byteChar byte :: substituteLoop host params fuel rest

def substituteParams (host : Host) (sql : List Char) (params : List (List Char)) : List Char :=
  let bytes := utf8 sql
  substituteLoop host params bytes.length bytes

example : substituteParams plainHost "SELECT $1 + $2, $3".toList
        ["42".toList, "it".toList] =
      "SELECT 42 + 'it', NULL".toList := by decide

end TurboGP.Server
