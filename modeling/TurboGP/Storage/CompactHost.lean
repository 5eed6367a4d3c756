import Mathlib.Logic.Equiv.List
import Mathlib.Tactic.DeriveEncodable
import TurboGP.Storage.RecordLines

/-!
# A host of the log

The log works with any crates that keep the promises of `WalHost`.  Here a
change is written as its number between braces and bytes as hexadecimal
digits; the reader of changes accepts nothing else, as `WalHost.ReadsJson`
asks of `serde_json`.
-/

namespace TurboGP.Storage

open Sql.Text Server List

/-! ## Bytes -/

def encodeHex (bytes : Bytes) : List Char := bytes.flatMap fun byte => hexDigits 2 byte.toNat

def decodeHex : List Char → Option Bytes
  | [] => some []
  | [_] => none
  | high :: low :: rest => do
    let bytes ← decodeHex rest
    return UInt8.ofNat (16 * (← hexValue high) + (← hexValue low)) :: bytes

theorem decodeHex_encodeHex (bytes : Bytes) : decodeHex (encodeHex bytes) = some bytes := by
  induction bytes with
  | nil => rfl
  | cons byte rest decoded =>
    have bound := byte.toNat_lt
    have digits : hexDigits 2 byte.toNat =
        [hexDigit (byte.toNat / 16 % 16), hexDigit (byte.toNat % 16)] := rfl
    have whole : 16 * (byte.toNat / 16 % 16) + byte.toNat % 16 = byte.toNat := by omega
    have high := hexValue_hexDigit (byte.toNat / 16 % 16) (Nat.mod_lt _ (by decide))
    have low := hexValue_hexDigit (byte.toNat % 16) (Nat.mod_lt _ (by decide))
    show decodeHex (hexDigits 2 byte.toNat ++ encodeHex rest) = some (byte :: rest)
    simp only [digits, cons_append, nil_append, decodeHex, decoded, high, low,
      Option.bind_eq_bind, Option.bind_some, whole, UInt8.ofNat_toNat]
    rfl

theorem isSymbol_encodeHex (bytes : Bytes) : ∀ c ∈ encodeHex bytes, isSymbol c = true := by
  intro c mem
  obtain ⟨byte, -, inByte⟩ := mem_flatMap.mp mem
  exact forall_mem_hexDigits (fun c => isSymbol c = true) (by decide) 2 byte.toNat c inByte

/-! ## Changes -/

instance encodableUInt64 : Encodable UInt64 :=
  .ofLeftInverse UInt64.toNat UInt64.ofNat fun _ => UInt64.ofNat_toNat

instance encodableUInt32 : Encodable UInt32 :=
  .ofLeftInverse UInt32.toNat UInt32.ofNat fun _ => UInt32.ofNat_toNat

deriving instance Encodable for PhysicalChange

namespace PhysicalChange

def body (change : PhysicalChange) : List Char := decimal (Encodable.encode change)

def compactJson (change : PhysicalChange) : List Char :=
  Char.ofNat 123 :: (change.body ++ [Char.ofNat 125])

theorem body_chars (change : PhysicalChange) :
    ∀ c ∈ change.body, isFieldChar c = true ∧ c ≠ Char.ofNat 125 := by
  intro c mem
  have isDigit := isDigit_decimal mem
  refine ⟨isFieldChar_of_isDigit isDigit, ?_⟩
  rintro rfl
  cases isDigit

end PhysicalChange

open PhysicalChange

def readCompact (text : List Char) : Option PhysicalChange :=
  ((parseDigits text.tail.dropLast).bind Encodable.decode).filter
    fun change => change.compactJson = text

theorem readCompact_compactJson (change : PhysicalChange) :
    readCompact change.compactJson = some change := by
  have inside : change.compactJson.tail.dropLast = change.body := dropLast_concat
  unfold readCompact
  rw [inside, body, parseDigits_decimal, Option.bind_some, Encodable.encodek,
    Option.filter_some, if_pos (decide_eq_true rfl)]

theorem readCompact_eq_some {text : List Char} {change : PhysicalChange}
    (read : readCompact text = some change) : change.compactJson = text := by
  obtain ⟨-, same⟩ := Option.filter_eq_some_iff.mp read
  exact of_decide_eq_true same

theorem compactJson_eq_of_start {change other : PhysicalChange}
    (isPrefix : other.compactJson <+: change.compactJson) :
    other.compactJson = change.compactJson := by
  obtain ⟨rest, whole⟩ := isPrefix
  cases rest using reverseRecOn with
  | nil => rwa [append_nil] at whole
  | append_singleton rest last _ =>
    -- The closing brace of the shorter text would stand inside the other.
    exfalso
    have shorter : other.body ++ ([Char.ofNat 125] ++ rest) = change.body := by
      have lasts : (other.body ++ ([Char.ofNat 125] ++ rest)) ++ [last] =
          change.body ++ [Char.ofNat 125] := by
        rw [compactJson, compactJson, cons_append, append_assoc] at whole
        rw [← (cons.inj whole).2]
        simp only [append_assoc]
      exact (append_inj' lasts rfl).1
    refine (change.body_chars (Char.ofNat 125) ?_).2 rfl
    rw [← shorter]
    simp

def compactHost (xxh3 : Bytes → UInt64) : WalHost where
  xxh3 := xxh3
  toJson := compactJson
  fromJson := readCompact
  encode := encodeHex
  decode := decodeHex
  object := fun _ => rfl
  compact := by
    intro change
    rw [compactJson, forall_mem_cons, forall_mem_append, forall_mem_singleton]
    exact ⟨rfl, fun c mem => (change.body_chars c mem).1, rfl⟩
  empty := rfl
  inverse := decodeHex_encodeHex
  symbols := isSymbol_encodeHex
  incomplete := fun _ => rfl

theorem readsJson_compactHost (xxh3 : Bytes → UInt64) : (compactHost xxh3).ReadsJson where
  written := readCompact_compactJson
  truncated := by
    intro change text isPrefix isCut
    show readCompact text = none
    cases read : readCompact text with
    | none => rfl
    | some other =>
      have same := readCompact_eq_some read
      rw [← same] at isPrefix isCut
      exact absurd (compactJson_eq_of_start isPrefix) isCut
  trailing := by
    intro change text
    show readCompact (change.compactJson ++ '|' :: text) = none
    cases read : readCompact (change.compactJson ++ '|' :: text) with
    | none => rfl
    | some other =>
      have same := readCompact_eq_some read
      have isPrefix : change.compactJson <+: other.compactJson := by
        rw [same]
        exact prefix_append _ _
      have lengths := congrArg length same
      rw [← compactJson_eq_of_start isPrefix, length_append, length_cons] at lengths
      omega
  scalar := by
    intro text _ noBrace
    show readCompact text = none
    cases read : readCompact text with
    | none => rfl
    | some other =>
      rw [← readCompact_eq_some read] at noBrace
      exact absurd mem_cons_self noBrace

end TurboGP.Storage
