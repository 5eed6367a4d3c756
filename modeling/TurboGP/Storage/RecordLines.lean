import Mathlib.Data.List.TakeWhile
import TurboGP.Storage.Record

/-! # Lines of records -/

namespace TurboGP.Storage

open Sql.Text Server Fields WalRecord List Option

variable {c : Char}

variable {n : Nat} {field : List Char}

theorem isDigit_decimal (mem : c ∈ decimal n) : c.isDigit = true :=
  Nat.isDigit_of_mem_toDigits (by decide) (by decide) mem

theorem isWhitespace_of_isDigit (isDigit : c.isDigit = true) : isWhitespace c = false := by
  have range := Char.isDigit_iff_toNat.mp isDigit
  simp only [Char.reduceToNat] at range
  exact decide_eq_false (by omega)

theorem decimal_ne_nil (n : Nat) : decimal n ≠ [] := Nat.toDigits_ne_nil

theorem parseDigits_decimal (n : Nat) : parseDigits (decimal n) = some n := by
  have digits : (decimal n).all Char.isDigit = true :=
    all_eq_true.mpr fun c mem => isDigit_decimal mem
  have nonempty : (decimal n).isEmpty = false := isEmpty_eq_false_iff.mpr (decimal_ne_nil n)
  have value : Nat.ofDigitChars 10 (decimal n) 0 = n := Nat.ofDigitChars_ten_toDigits
  unfold parseDigits
  rw [nonempty, digits]
  exact congrArg some value

theorem parseU64_decimal (fits : n < 2 ^ 64) : parseU64 (decimal n) = some n := by
  have parsed := parseDigits_decimal n
  unfold parseU64
  cases digits : decimal n with
  | nil => exact absurd digits (decimal_ne_nil n)
  | cons first rest =>
    have isDigit : first.isDigit = true := by
      apply isDigit_decimal (n := n)
      rw [digits]
      exact mem_cons_self
    have notSign : first ≠ '+' := by
      rintro rfl
      cases isDigit
    rw [digits] at parsed
    simp only [if_neg notSign, parsed, filter_some, decide_eq_true fits, if_true]

@[simp]
theorem numberField_decimal (n : UInt64) : numberField (decimal n.toNat) = n := by
  unfold numberField
  rw [parseU64_decimal n.toNat_lt, getD_some, UInt64.ofNat_toNat]

theorem hexValue_hexDigit : ∀ n < 16, hexValue (hexDigit n) = some n := by
  decide

theorem length_hexDigits (width n : Nat) : (hexDigits width n).length = width := by
  induction width generalizing n with
  | zero => rfl
  | succ width lengths => rw [hexDigits, length_append, lengths, length_singleton]

theorem forall_mem_hexDigits (P : Char → Prop) (digits : ∀ n < 16, P (hexDigit n)) (width n : Nat) :
    ∀ c ∈ hexDigits width n, P c := by
  induction width generalizing n with
  | zero => exact forall_mem_nil _
  | succ width rest =>
    rw [hexDigits, forall_mem_append, forall_mem_singleton]
    exact ⟨rest _, digits _ (Nat.mod_lt _ (by decide))⟩

theorem foldl_hexDigits {width : Nat} (fits : n < 16 ^ width) :
    (hexDigits width n).foldl (fun number c => 16 * number + (hexValue c).getD 0) 0 = n := by
  induction width generalizing n with
  | zero =>
    rw [Nat.pow_zero] at fits
    have isZero : n = 0 := by omega
    rw [isZero]
    rfl
  | succ width folded =>
    rw [Nat.pow_succ] at fits
    have digit : n % 16 < 16 := Nat.mod_lt _ (by decide)
    rw [hexDigits, foldl_append, folded (by omega), foldl_cons,
      hexValue_hexDigit _ digit, foldl_nil, getD_some]
    omega

@[simp]
theorem hexNumber_hex16 (n : UInt64) : hexNumber (hex16 n) = n := by
  have bound := n.toNat_lt
  unfold hexNumber hex16
  rw [foldl_hexDigits (by omega), UInt64.ofNat_toNat]

@[simp]
theorem isChecksum_hex16 (n : UInt64) : isChecksum (hex16 n) = true := by
  have digits : ∀ n < 16, (hexValue (hexDigit n)).isSome = true := by
    intro digit small
    rw [hexValue_hexDigit digit small]
    rfl
  have lengths : (hex16 n).length = 16 := length_hexDigits _ _
  have all : (hex16 n).all (fun c => (hexValue c).isSome) = true := all_eq_true.mpr
      (forall_mem_hexDigits (fun c => (hexValue c).isSome = true) digits 16 n.toNat)
  unfold isChecksum
  rw [all, Bool.and_true]
  exact decide_eq_true lengths

@[simp]
theorem readFlag_flagField (flag : Bool) : readFlag (flagField flag) = flag := by
  cases flag <;> rfl

theorem fromUtf8Lossy_utf8 (text : List Char) : fromUtf8Lossy (utf8 text) = text := by
  unfold fromUtf8Lossy
  rw [fromUtf8_utf8]

@[simp]
theorem readSql_encode (host : WalHost) (sql : List Char) :
    readSql host (host.encode (utf8 sql)) = sql := by
  unfold readSql
  rw [host.inverse]
  exact fromUtf8Lossy_utf8 sql

theorem isFieldChar_of_isDigit (isDigit : c.isDigit = true) : isFieldChar c = true := by
  have range := Char.isDigit_iff_toNat.mp isDigit
  simp only [Char.reduceToNat] at range
  unfold isFieldChar isPrintable
  rw [Bool.and_eq_true, bne_iff_ne]
  refine ⟨decide_eq_true (by omega), ?_⟩
  rintro rfl
  cases isDigit

theorem isFieldChar_of_isSymbol (isSymbol : isSymbol c = true) : isFieldChar c = true := by
  have all : ∀ c ∈ symbols, isFieldChar c = true := all_eq_true.mp (by decide +kernel)
  exact all c (contains_iff_mem.mp isSymbol)

theorem fieldChars_changeField (host : WalHost) (change : Option PhysicalChange) :
    ∀ c ∈ changeField host change, isFieldChar c = true := by
  cases change with
  | none => exact forall_mem_nil _
  | some change => exact host.compact change

theorem fieldChars_hex16 (n : UInt64) : ∀ c ∈ hex16 n, isFieldChar c = true :=
  forall_mem_hexDigits (fun c => isFieldChar c = true) (by decide) 16 n.toNat

theorem fieldChars_fields (host : WalHost) (record : WalRecord) :
    ∀ field ∈ record.fields host, ∀ c ∈ field, isFieldChar c = true := by
  have number (n : UInt64) : ∀ c ∈ decimal n.toNat, isFieldChar c = true :=
    fun _ mem => isFieldChar_of_isDigit (isDigit_decimal mem)
  have flag (value : Bool) : ∀ c ∈ flagField value, isFieldChar c = true := by
    cases value <;> exact all_eq_true.mp (by decide)
  have sql : ∀ c ∈ host.encode (utf8 record.sql), isFieldChar c = true :=
    fun c mem => isFieldChar_of_isSymbol (host.symbols _ c mem)
  simp only [fields, forall_mem_cons]
  exact ⟨number _, number _, number _, flag _, flag _, sql,
    fieldChars_changeField _ _, forall_mem_nil _⟩

theorem separator_notMem_of_fieldChars (chars : ∀ c ∈ field, isFieldChar c = true) :
    '|' ∉ field := by
  intro mem
  have isField := chars _ mem
  cases isField

theorem printable_of_fieldChars (chars : ∀ c ∈ field, isFieldChar c = true) :
    ∀ c ∈ field, isPrintable c = true := by
  intro c mem
  have isField := chars c mem
  exact (Bool.and_eq_true_iff.mp isField).1

def WalRecord.allFields (host : WalHost) (record : WalRecord) : List (List Char) :=
  record.fields host ++ [hex16 (host.xxh3 (utf8 (record.dataLine host)))]

section

variable {host : WalHost} {record : WalRecord}

theorem line_eq_joined : record.line host = joined '|' (record.allFields host) :=
  (joined_concat (by simp [fields]) _).symm

theorem fieldChars_allFields :
    ∀ field ∈ record.allFields host, ∀ c ∈ field, isFieldChar c = true := by
  rw [allFields, forall_mem_append, forall_mem_singleton]
  exact ⟨fieldChars_fields host record, fieldChars_hex16 _⟩

theorem printable_line : ∀ c ∈ record.line host, isPrintable c = true := by
  rw [line_eq_joined]
  refine forall_mem_joined (fun c => isPrintable c = true) rfl fun field mem => ?_
  exact printable_of_fieldChars (fieldChars_allFields field mem)

end

theorem trim_ne_nil {text : List Char} (mem : c ∈ text)
    (visible : isWhitespace c = false) : trim text ≠ [] := by
  intro blank
  unfold trim trimEnd at blank
  rw [reverse_eq_nil_iff, dropWhile_eq_nil_iff] at blank
  have started : trimStart text ≠ [] := by
    intro empty
    have white := dropWhile_eq_nil_iff.mp empty c mem
    rw [visible] at white
    cases white
  cases start : trimStart text with
  | nil => exact started start
  | cons first rest =>
    have white := blank first (by rw [start]; simp)
    have visibleFirst : ¬ isWhitespace first = true := by
      have kept := head_dropWhile_not isWhitespace started
      have isFirst : (trimStart text).head started = first := by
        simp only [start, head_cons]
      rw [← isFirst, Bool.not_eq_true]
      exact kept
    exact visibleFirst white

/-- What the reader of changes is documented to do: it reads what was written,
and nothing that is cut, continued or without an object or array. -/
structure WalHost.ReadsJson (host : WalHost) : Prop where
  written : ∀ change : PhysicalChange, host.fromJson (host.toJson change) = some change
  truncated : ∀ (change : PhysicalChange) (text : List Char),
      text <+: host.toJson change → text ≠ host.toJson change → host.fromJson text = none
  trailing : ∀ (change : PhysicalChange) (text : List Char),
      host.fromJson (host.toJson change ++ '|' :: text) = none
  scalar : ∀ text : List Char, '[' ∉ text → Char.ofNat 123 ∉ text → host.fromJson text = none

section

variable {host : WalHost} {record : WalRecord}

theorem readChange_changeField (json : host.ReadsJson) (change : Option PhysicalChange) :
    readChange host (changeField host change) = change := by
  cases change with
  | none => rfl
  | some change =>
    have nonempty : host.toJson change ≠ [] := by
      intro empty
      have object := host.object change
      rw [empty] at object
      cases object
    unfold readChange changeField
    rw [if_pos nonempty, json.written]

theorem parseData_timed (record : WalRecord) (change : List Char) : parseData host
        (joined '|' [decimal record.lsn.toNat, decimal record.timestampUs.toNat,
            decimal record.txnId.toNat, flagField record.isCommit,
            flagField record.isRollback, host.encode (utf8 record.sql), change]) =
      some { record with physicalChange := readChange host change } := by
  have clean : ∀ field ∈ [decimal record.lsn.toNat, decimal record.timestampUs.toNat,
        decimal record.txnId.toNat, flagField record.isCommit,
        flagField record.isRollback, host.encode (utf8 record.sql)],
      '|' ∉ field := by
    intro field mem
    refine separator_notMem_of_fieldChars (fieldChars_fields host record field ?_)
    exact mem_append_left [changeField host record.physicalChange] mem
  have split := splitn_joined_concat change clean rfl
  simp only [cons_append, nil_append, length_cons, length_nil] at split
  unfold parseData
  rw [split]
  simp only [numberField_decimal, readFlag_flagField, readSql_encode]

theorem parseData_dataLine (json : host.ReadsJson) :
    parseData host (record.dataLine host) = some record := by
  have parsed := @parseData_timed host record (changeField host record.physicalChange)
  rwa [readChange_changeField json] at parsed

theorem readLine_checksummed (data : List Char) (n : UInt64) :
    readLine host (data ++ '|' :: hex16 n) =
      if n ≠ host.xxh3 (utf8 data) then none else parseData host data := by
  have clean : '|' ∉ hex16 n := separator_notMem_of_fieldChars (fieldChars_hex16 n)
  have split : splitChecksum (data ++ '|' :: hex16 n) = (data, some (hex16 n)) := by
    unfold splitChecksum
    rw [rsplitOnce_append data clean]
    simp only [isChecksum_hex16, if_true]
  have shown : trim (data ++ '|' :: hex16 n) ≠ [] := trim_ne_nil (c := '|') (by simp) rfl
  unfold readLine
  rw [if_neg shown, split]
  simp only [hexNumber_hex16]

theorem readLine_line (json : host.ReadsJson) : readLine host (record.line host) = some record := by
  unfold line
  rw [readLine_checksummed, if_neg (fun differ => differ rfl), parseData_dataLine json]

end

end TurboGP.Storage
