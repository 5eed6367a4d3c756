import TurboGP.Sql.Text

/-!
# Bytes of the wire protocol

The integers and strings in the messages of the Postgres protocol, and the
errors of reading them (`server/pgwire.rs`).  A message body is read through a
cursor.
-/

namespace TurboGP.Server

open Sql.Text

abbrev Bytes := List UInt8

inductive IoKind
  | unexpectedEof | invalidData | permissionDenied
  deriving DecidableEq, Repr

/-- The text of an error; an error of the UTF-8 decoder is passed on. -/
inductive IoMessage
  | text (message : String)
  | utf8
  deriving DecidableEq, Repr

structure IoError where
  kind : IoKind
  message : IoMessage
  deriving DecidableEq, Repr

/-- How a task of the server ends early: with an error, with a panic, or
because the whole process aborts. -/
inductive ConnFault
  | io (error : IoError)
  | panic
  | abort
  deriving DecidableEq, Repr

def invalidData (message : String) : ConnFault :=
  .io { kind := .invalidData, message := .text message }

def permissionDenied (message : String) : ConnFault :=
  .io { kind := .permissionDenied, message := .text message }

def unexpectedEof : ConnFault := .io { kind := .unexpectedEof, message := .text "early eof" }

def invalidUtf8 : ConnFault := .io { kind := .invalidData, message := .utf8 }

def utf8 (text : List Char) : Bytes := text.flatMap String.utf8EncodeChar

def fromUtf8 (bytes : Bytes) : Option (List Char) :=
  (bytes.toByteArray.utf8Decode?).map Array.toList

theorem fromUtf8_utf8 (text : List Char) : fromUtf8 (utf8 text) = some text := by
  unfold fromUtf8 utf8
  have decoded := @List.utf8Decode?_utf8Encode text
  unfold List.utf8Encode at decoded
  rw [decoded, Option.map_some]

/-- A byte read as a character: `b as char`. -/
def byteChar (byte : UInt8) : Char := Char.ofNat byte.toNat

def u16Of (a b : UInt8) : Nat := 256 * a.toNat + b.toNat

def u32Of (a b c d : UInt8) : Nat := 65536 * u16Of a b + u16Of c d

/-- The value of 32 bits in two's complement. -/
def signed32 (n : Nat) : Int :=
  if n < 2 ^ 31 then n else (n : Int) - 2 ^ 32

def i32Of (a b c d : UInt8) : Int := signed32 (u32Of a b c d)

def i16Of (a b : UInt8) : Int :=
  let n := u16Of a b
  if n < 2 ^ 15 then n else (n : Int) - 2 ^ 16

/-- `as usize` of an `i32`, on a machine with 64 bits: the sign is extended. -/
def asUsize (value : Int) : Nat :=
  if value < 0 then (2 ^ 64 + value).toNat else value.toNat

def hexDigit (n : Nat) : Char :=
  if n < 10 then Char.ofNat (48 + n) else Char.ofNat (87 + n)

def hexByte (byte : UInt8) : List Char := [hexDigit (byte.toNat / 16), hexDigit (byte.toNat % 16)]

def hexPrefixed (byte : UInt8) : List Char :=
  if byte.toNat < 16 then ['0', 'x', hexDigit byte.toNat]
  else '0' :: 'x' :: hexByte byte

def hexEncode (bytes : Bytes) : List Char := bytes.flatMap hexByte

/-- A computation on a message body; the state is the cursor. -/
abbrev BufM := EStateM ConnFault Nat

def byteAt (buf : Bytes) (i : Nat) : Except ConnFault UInt8 :=
  match buf[i]? with
  | some byte => .ok byte
  | none => .error .panic

def slice {α : Type} (xs : List α) (start stop : Nat) : Except ConnFault (List α) :=
  if start ≤ stop ∧ stop ≤ xs.length then
    .ok ((xs.drop start).take (stop - start))
  else .error .panic

section

variable (buf : Bytes)

/-- `read_cstring`; the cursor moves also when the bytes are no text. -/
def readCstring : BufM (List Char) := do
  let start ← get
  let rest ← ofExcept (slice buf start buf.length)
  match rest.findIdx? (· == 0) with
  | none => throw (invalidData "missing NUL")
  | some length =>
    set (start + length + 1)
    match fromUtf8 (rest.take length) with
    | some text => return text
    | none => throw invalidUtf8

/-- Bytes at the cursor; without enough of them, an error with a text. -/
def readBytes (count : Nat) (error : String) : BufM Bytes := do
  let start ← get
  if buf.length < start + count then throw (invalidData error)
  else
    let bytes ← ofExcept (slice buf start (start + count))
    set (start + count)
    return bytes

def readU16 (error : String) : BufM Nat := do
  let bytes ← readBytes buf 2 error
  let a ← ofExcept (byteAt bytes 0)
  let b ← ofExcept (byteAt bytes 1)
  return u16Of a b

def readI16 (error : String) : BufM Int := do
  let bytes ← readBytes buf 2 error
  let a ← ofExcept (byteAt bytes 0)
  let b ← ofExcept (byteAt bytes 1)
  return i16Of a b

def readU32 (error : String) : BufM Nat := do
  let bytes ← readBytes buf 4 error
  let a ← ofExcept (byteAt bytes 0)
  let b ← ofExcept (byteAt bytes 1)
  let c ← ofExcept (byteAt bytes 2)
  let d ← ofExcept (byteAt bytes 3)
  return u32Of a b c d

def readI32 (error : String) : BufM Int := do
  return signed32 (← readU32 buf error)

def readMany {α : Type} (read : Nat → BufM α) : Nat → Nat → BufM (List α)
  | _, 0 => return []
  | i, count + 1 => do
    let first ← read i
    let rest ← readMany read (i + 1) count
    return first :: rest

/-- `parse_cstring_pairs`: an empty key ends the list, and so does a text that
cannot be read.  Each round consumes a byte, so that `fuel` is the length. -/
def parseCstringPairs : Nat → Nat → List (List Char × List Char)
  | 0, _ => []
  | fuel + 1, i =>
    if (buf[i]?).getD 0 = 0 then []
    else
      match readCstring buf i with
      | .error _ _ => []
      | .ok key afterKey =>
        if (buf[afterKey]?).getD 0 = 0 then [(key, [])]
        else
          match readCstring buf afterKey with
          | .error _ _ => []
          | .ok value afterValue => (key, value) :: parseCstringPairs fuel afterValue

end

end TurboGP.Server
