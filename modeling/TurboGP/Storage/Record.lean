import TurboGP.Lib.Fields
import TurboGP.Server.Bytes

/-!
# Records of the write-ahead log

A record of `storage/recovery.rs`, the line of text that `append` writes for
it, and what `read_all` makes of a line, in any of four layouts.
-/

namespace TurboGP.Storage

open Sql.Text Server Fields

/-- A change of a page; the members have the types of the source, on a machine
with 64 bits. -/
inductive PhysicalChange
  | pageAlloc (tableId : UInt64) (pageNum : UInt32)
  | cellUpdate (tableId : UInt64) (pageNum : UInt32) (cellIndex oldValue newValue : UInt64)
  | rowInsert (tableId : UInt64) (pageNum : UInt32) (slot : UInt64) (values : List UInt64)
  | rowUpdate (tableId : UInt64) (pageNum : UInt32) (slot : UInt64)
      (oldValues newValues : List UInt64)
  | rowDelete (tableId : UInt64) (pageNum : UInt32) (slot : UInt64)
  | pageSplit (tableId : UInt64) (oldPage newPage : UInt32) (splitPoint : UInt64)
  deriving DecidableEq, Repr

structure WalRecord where
  lsn : UInt64
  timestampUs : UInt64
  txnId : UInt64
  sql : List Char
  isCommit : Bool
  isRollback : Bool
  physicalChange : Option PhysicalChange
  deriving DecidableEq, Repr

namespace WalRecord

def autocommit (sql : List Char) : WalRecord :=
  { lsn := 0, timestampUs := 0, txnId := 0, sql := sql, isCommit := false
    isRollback := false, physicalChange := none }

def begin (txnId : UInt64) : WalRecord :=
  { autocommit [] with txnId := txnId }

def commit (txnId : UInt64) : WalRecord :=
  { begin txnId with isCommit := true }

def rollback (txnId : UInt64) : WalRecord :=
  { begin txnId with isRollback := true }

def txnDml (txnId : UInt64) (sql : List Char) : WalRecord :=
  { autocommit sql with txnId := txnId }

def physical (txnId : UInt64) (change : PhysicalChange) : WalRecord :=
  { begin txnId with physicalChange := some change }

end WalRecord

/-- `{}` of a number. -/
def decimal (n : Nat) : List Char := Nat.toDigits 10 n

def isPrintable (c : Char) : Bool := decide (32 ≤ c.toNat ∧ c.toNat < 127)

/-- Neither a separator nor unprintable. -/
def isFieldChar (c : Char) : Bool := isPrintable c && c != '|'

def symbols : List Char :=
  "ABCDEFGHIJKLMNOPQRSTUVWXYZabcdefghijklmnopqrstuvwxyz0123456789+/=".toList

def isSymbol (c : Char) : Bool := symbols.contains c

/-- What the log takes from other crates, with what these crates promise: a
change is written as an object on one line, and Base64 has an inverse. -/
structure WalHost where
  /-- `xxh3_64`. -/
  xxh3 : Bytes → UInt64
  /-- `serde_json::to_string`, which never fails on a change. -/
  toJson : PhysicalChange → List Char
  /-- `serde_json::from_str`. -/
  fromJson : List Char → Option PhysicalChange
  /-- `encode` of the standard alphabet. -/
  encode : Bytes → List Char
  decode : List Char → Option Bytes
  object : ∀ change, (toJson change).head? = some (Char.ofNat 123)
  compact : ∀ change, ∀ c ∈ toJson change, isFieldChar c = true
  empty : encode [] = []
  inverse : ∀ bytes, decode (encode bytes) = some bytes
  symbols : ∀ bytes, ∀ c ∈ encode bytes, isSymbol c = true
  incomplete : ∀ c, decode [c] = none

def hexDigits : Nat → Nat → List Char
  | 0, _ => []
  | width + 1, n => hexDigits width (n / 16) ++ [hexDigit (n % 16)]

/-- `{:016x}`. -/
def hex16 (n : UInt64) : List Char := hexDigits 16 n.toNat

def flagField (flag : Bool) : List Char :=
  if flag then ['1'] else ['0']

def changeField (host : WalHost) : Option PhysicalChange → List Char
  | some change => host.toJson change
  | none => []

namespace WalRecord

variable (host : WalHost) (record : WalRecord)

def fields : List (List Char) :=
  [decimal record.lsn.toNat, decimal record.timestampUs.toNat,
    decimal record.txnId.toNat, flagField record.isCommit,
    flagField record.isRollback, host.encode (utf8 record.sql),
    changeField host record.physicalChange]

def dataLine : List Char := joined '|' (record.fields host)

def line : List Char :=
  record.dataLine host ++ '|' :: hex16 (host.xxh3 (utf8 (record.dataLine host)))

end WalRecord

/-- The bytes that `from_utf8_lossy` replaces at once: the longest beginning of
a character, or one byte. -/
def invalidLength : Bytes → Nat
  | a :: b :: rest =>
    let low := if a = 224 then 160 else if a = 240 then 144 else 128
    let high := if a = 237 then 159 else if a = 244 then 143 else 191
    if a < 224 ∨ 244 < a ∨ b < low ∨ high < b then 1
    else if a < 240 then 2
    else
      match rest with
      | c :: _ => if 128 ≤ c ∧ c ≤ 191 then 3 else 2
      | [] => 2
  | _ => 1

/-- The characters of a text with replacements; `fuel` bounds the bytes. -/
def lossyLoop : Nat → Bytes → List Char
  | 0, _ => []
  | _ + 1, [] => []
  | fuel + 1, byte :: rest =>
    match (byte :: rest).toByteArray.utf8DecodeChar? 0 with
    | some c => c :: lossyLoop fuel ((byte :: rest).drop c.utf8Size)
    | none =>
      Char.ofNat 65533 :: lossyLoop fuel ((byte :: rest).drop (invalidLength (byte :: rest)))

def fromUtf8Lossy (bytes : Bytes) : List Char :=
  match fromUtf8 bytes with
  | some text => text
  | none => lossyLoop bytes.length bytes

def decodeLegacySql (field : List Char) : List Char :=
  let piped := replaceAll ['\\', '|'] ['|'] field.length field
  replaceAll ['\\', 'n'] ['\n'] piped.length piped

/-- `parse().unwrap_or(0)`. -/
def numberField (field : List Char) : UInt64 := UInt64.ofNat ((parseU64 field).getD 0)

def readFlag (field : List Char) : Bool := field == ['1']

def readSql (host : WalHost) (field : List Char) : List Char :=
  match host.decode field with
  | some bytes => fromUtf8Lossy bytes
  | none => decodeLegacySql field

def readChange (host : WalHost) (field : List Char) : Option PhysicalChange :=
  if field ≠ [] then host.fromJson field else none

def parseLegacyRecord (line : List Char) : Option WalRecord :=
  let parts := splitn '|' 4 line
  match parts with
  | [] => none
  | txnId :: rest =>
    some
      { lsn := 0, timestampUs := 0, txnId := numberField txnId
        isCommit := (rest[0]?.map readFlag).getD false
        isRollback := (rest[1]?.map readFlag).getD false
        sql := (rest[2]?.map decodeLegacySql).getD [], physicalChange := none }

/-- The layout without a log sequence number; its change may be missing. -/
def parseUnnumbered (host : WalHost) (data : List Char) : Option WalRecord :=
  match splitn '|' 5 data with
  | txnId :: commit :: rollback :: sql :: rest =>
    some
      { lsn := 0, timestampUs := 0, txnId := numberField txnId, isCommit := readFlag commit
        isRollback := readFlag rollback, sql := readSql host sql
        physicalChange := rest[0]?.bind (readChange host) }
  | _ => parseLegacyRecord data

def parseUntimed (host : WalHost) (data : List Char) : Option WalRecord :=
  match splitn '|' 6 data with
  | [lsn, txnId, commit, rollback, sql, change] =>
    some
      { lsn := numberField lsn, timestampUs := 0, txnId := numberField txnId
        isCommit := readFlag commit, isRollback := readFlag rollback, sql := readSql host sql
        physicalChange := readChange host change }
  | _ => parseUnnumbered host data

def parseData (host : WalHost) (data : List Char) : Option WalRecord :=
  match splitn '|' 7 data with
  | [lsn, timestampUs, txnId, commit, rollback, sql, change] =>
    some
      { lsn := numberField lsn, timestampUs := numberField timestampUs, txnId := numberField txnId
        isCommit := readFlag commit, isRollback := readFlag rollback, sql := readSql host sql
        physicalChange := readChange host change }
  | _ => parseUntimed host data

/-- `u64::from_str_radix(_, 16).unwrap_or(0)` of hexadecimal digits. -/
def hexNumber (field : List Char) : UInt64 :=
  UInt64.ofNat (field.foldl (fun number c => 16 * number + (hexValue c).getD 0) 0)

def isChecksum (field : List Char) : Bool :=
  decide (field.length = 16) && field.all (fun c => (hexValue c).isSome)

/-- The data of a line and the checksum after it, if there is one. -/
def splitChecksum (line : List Char) : List Char × Option (List Char) :=
  match rsplitOnce '|' line with
  | some (data, last) => if isChecksum last then (data, some last) else (line, none)
  | none => (line, none)

/-- The record of a line; `none` for a line that is skipped. -/
def readLine (host : WalHost) (line : List Char) : Option WalRecord :=
  if trim line = [] then none
  else
    match splitChecksum line with
    | (data, some expected) =>
      if hexNumber expected ≠ host.xxh3 (utf8 data) then none
      else parseData host data
    | (data, none) => parseData host data

end TurboGP.Storage
