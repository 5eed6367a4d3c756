import TurboGP.Storage.RoundTrip

/-! # A log that is cut -/

namespace TurboGP.Storage

open Sql.Text Server Effect Fields WalRecord List Option

/-- What is read from these fields says what the record says, or nothing is
read.  With fewer than seven fields it is an accident: the fields are taken
for others, and they happen to have the right values. -/
def HarmlessFields (host : WalHost) (record : WalRecord) : List (List Char) → Prop
  | [lsn] =>
    lsn = [] ∨
      record.payload =
        { txnId := numberField lsn, sql := [], isCommit := false
          isRollback := false, physicalChange := none }
  | [_, time] =>
    isChecksum time = true ∨
      record.payload =
        { txnId := record.lsn, sql := [], isCommit := readFlag time
          isRollback := false, physicalChange := none }
  | [_, time, txnId] =>
    isChecksum txnId = true ∨
      record.payload =
        { txnId := record.lsn, sql := [], isCommit := readFlag time
          isRollback := readFlag txnId, physicalChange := none }
  | [_, time, txnId, commit] =>
    record.payload =
      { txnId := record.lsn, sql := commit, isCommit := readFlag time
        isRollback := readFlag txnId, physicalChange := none }
  | [_, time, txnId, commit, _] =>
    record.payload =
      { txnId := record.lsn, sql := commit, isCommit := readFlag time
        isRollback := readFlag txnId, physicalChange := none }
  | [_, _, txnId, _, rollback, sql] =>
    isChecksum sql = true ∨
      record.payload =
        { txnId := record.timestampUs, sql := rollback
          isCommit := readFlag txnId, isRollback := record.isCommit, physicalChange := none }
  | [_, _, _, _, _, _, change] => change = changeField host record.physicalChange
  | [_, _, _, _, _, _, _, checksum] =>
    checksum = hex16 (host.xxh3 (utf8 (record.dataLine host))) ∨ record.physicalChange = none
  | _ => True

/-- No part of the line that looks like a checksum is the hash of what stands
before it, apart from the checksum of the whole. -/
def NoCollision (host : WalHost) (record : WalRecord) : Prop :=
  ∀ data field, data ++ '|' :: field <+: record.line host → data ≠ record.dataLine host →
    isChecksum field = true → hexNumber field ≠ host.xxh3 (utf8 data)

def ReadsAs (host : WalHost) (record : WalRecord) (line : List Char) : Prop :=
  ∀ found ∈ readLine host line, found.payload = record.payload

section

variable {host : WalHost} {record : WalRecord}

theorem fieldChars_of_start {part field : List Char} (isPart : part <+: field)
    (chars : ∀ c ∈ field, isFieldChar c = true) : ∀ c ∈ part, isFieldChar c = true :=
  fun c mem => chars c (isPart.subset mem)

variable {fields : List (List Char)} {last : List Char}

theorem readLine_fields (nonempty : fields ≠ []) (clean : '|' ∉ last) :
    readLine host (joined '|' (fields ++ [last])) =
      if isChecksum last = true then
        if hexNumber last ≠ host.xxh3 (utf8 (joined '|' fields)) then
          none
        else parseData host (joined '|' fields)
      else parseData host (joined '|' (fields ++ [last])) := by
  rw [joined_concat nonempty]
  have shown : trim (joined '|' fields ++ '|' :: last) ≠ [] := trim_ne_nil (c := '|') (by simp) rfl
  unfold readLine splitChecksum
  rw [if_neg shown, rsplitOnce_append _ clean]
  cases looks : isChecksum last with
  | false => simp only [looks, Bool.false_eq_true, if_false]
  | true => simp only [looks, if_true]

theorem readsAs_of_some {line : List Char} {found : WalRecord}
    (isRead : readLine host line = some found) :
    ReadsAs host record line ↔ record.payload = found.payload := by
  simp [ReadsAs, isRead, eq_comm]

/-- A last field that may look like a checksum; if it does, the line is
skipped. -/
theorem readsAs_data {found : WalRecord} (nonempty : fields ≠ []) (clean : '|' ∉ last)
    (noCollision : isChecksum last = true → hexNumber last ≠ host.xxh3 (utf8 (joined '|' fields)))
    (parsed : parseData host (joined '|' (fields ++ [last])) = some found) :
    ReadsAs host record (joined '|' (fields ++ [last])) ↔
      isChecksum last = true ∨ record.payload = found.payload := by
  have read := @readLine_fields host fields last nonempty clean
  by_cases looks : isChecksum last = true
  · rw [if_pos looks, if_pos (noCollision looks)] at read
    simp [ReadsAs, read, looks]
  · rw [if_neg looks, parsed] at read
    simp [readsAs_of_some read, looks]

end

section

variable {host : WalHost} {part : List Char}

variable {flag : Bool} {change : Option PhysicalChange} {n : UInt64}

theorem readSql_flag (isPart : part <+: flagField flag) : readSql host part = part := by
  have empty : readSql host [] = [] := by
    have decoded := host.inverse []
    rw [host.empty] at decoded
    simp only [readSql, decoded]
    rfl
  have single (c : Char) : readSql host [c] = decodeLegacySql [c] := by
    simp only [readSql, host.incomplete]
  cases flag <;> rcases prefix_cons_iff.mp isPart with rfl | ⟨rest, rfl, none⟩
  all_goals first | exact empty | rw [prefix_nil.mp none, single]; rfl

theorem isChecksum_flag (isPart : part <+: flagField flag) : isChecksum part = false := by
  have short := isPart.length_le
  have one : (flagField flag).length = 1 := by cases flag <;> rfl
  unfold isChecksum
  rw [decide_eq_false (by omega), Bool.false_and]

theorem readChange_scalar (json : host.ReadsJson) {field : List Char}
    (scalar : ∀ c ∈ field, c ≠ '[' ∧ c ≠ Char.ofNat 123) :
    readChange host field = none := by
  unfold readChange
  split
  · exact json.scalar field (fun mem => (scalar _ mem).1 rfl) (fun mem => (scalar _ mem).2 rfl)
  · rfl

theorem readChange_flag (json : host.ReadsJson)
    (isPart : part <+: flagField flag) : readChange host part = none := by
  refine readChange_scalar json fun c mem => ?_
  have inFlag := isPart.subset mem
  cases flag <;> cases mem_singleton.mp inFlag <;> decide

theorem readChange_base64 (json : host.ReadsJson) {bytes : Bytes}
    (isPart : part <+: host.encode bytes) : readChange host part = none := by
  refine readChange_scalar json fun c mem => ?_
  have isSymbol := host.symbols bytes c (isPart.subset mem)
  constructor <;> rintro rfl <;> cases isSymbol

theorem readChange_part (json : host.ReadsJson) (isPart : part <+: changeField host change) :
    readChange host part = change ↔ part = changeField host change := by
  cases change with
  | none =>
    have empty : part = [] := prefix_nil.mp isPart
    rw [empty]
    exact ⟨fun _ => rfl, fun _ => rfl⟩
  | some change =>
    constructor
    · intro isRead
      by_contra isCut
      unfold readChange at isRead
      split at isRead
      · rw [json.truncated change part isPart isCut] at isRead
        cases isRead
      · cases isRead
    · rintro rfl
      exact readChange_changeField json (some change)

theorem isChecksum_change
    (isPart : part <+: changeField host change) : isChecksum part = false := by
  cases part with
  | nil => rfl
  | cons c rest =>
    cases change with
    | none => exact absurd (prefix_nil.mp isPart) (cons_ne_nil _ _)
    | some change =>
      obtain ⟨more, whole⟩ := isPart
      have first : c = Char.ofNat 123 := by
        have object := host.object change
        rw [show host.toJson change = _ from whole.symm] at object
        exact Option.some.inj object
      unfold isChecksum
      rw [first, all_cons]
      have notHex : (hexValue (Char.ofNat 123)).isSome = false := rfl
      rw [notHex, Bool.false_and, Bool.and_false]

theorem readChange_continued (json : host.ReadsJson) (change : Option PhysicalChange)
    (isPart : part <+: hex16 n) :
    readChange host (changeField host change ++ '|' :: part) = none := by
  cases change with
  | none =>
    refine readChange_scalar json fun c mem => ?_
    rcases mem_cons.mp mem with rfl | inPart
    · decide
    · exact forall_mem_hexDigits (fun c => c ≠ '[' ∧ c ≠ Char.ofNat 123)
        (by decide) 16 n.toNat c (isPart.subset inPart)
  | some change =>
    have nonempty : changeField host (some change) ++ '|' :: part ≠ [] := by simp
    unfold readChange
    rw [if_pos nonempty]
    exact json.trailing change part

theorem isChecksum_part (isPart : part <+: hex16 n) : isChecksum part = true ↔ part = hex16 n := by
  constructor
  · intro looks
    have length : part.length = (hex16 n).length := by
      have sixteen : (hex16 n).length = 16 := length_hexDigits _ _
      rw [sixteen]
      exact of_decide_eq_true (Bool.and_eq_true_iff.mp looks).1
    exact isPart.eq_of_length length
  · rintro rfl
    exact isChecksum_hex16 n

end

section

variable {host : WalHost} {fields : List (List Char)}

theorem parseData_of_fewer (clean : ∀ field ∈ fields, '|' ∉ field) (nonempty : fields ≠ [])
    (few : fields.length ≤ 6) :
    parseData host (joined '|' fields) = parseUntimed host (joined '|' fields) := by
  have split : splitn '|' 7 (joined '|' fields) = fields := splitn_joined clean nonempty (by omega)
  unfold parseData
  rw [split]
  split
  · simp at few
  · rfl

theorem parseData_of_few (clean : ∀ field ∈ fields, '|' ∉ field) (nonempty : fields ≠ [])
    (few : fields.length ≤ 5) :
    parseData host (joined '|' fields) = parseUnnumbered host (joined '|' fields) := by
  have split : splitn '|' 6 (joined '|' fields) = fields := splitn_joined clean nonempty (by omega)
  rw [parseData_of_fewer clean nonempty (by omega)]
  unfold parseUntimed
  rw [split]
  split
  · simp at few
  · rfl

theorem parseData_legacy {txnId : List Char} {flags : List (List Char)}
    (clean : ∀ field ∈ txnId :: flags, '|' ∉ field) (few : flags.length ≤ 2) :
    parseData host (joined '|' (txnId :: flags)) = some
        { lsn := 0, timestampUs := 0, txnId := numberField txnId
          isCommit := (flags[0]?.map readFlag).getD false
          isRollback := (flags[1]?.map readFlag).getD false, sql := []
          physicalChange := none } := by
  have nonempty : txnId :: flags ≠ [] := cons_ne_nil _ _
  have counted : (txnId :: flags).length ≤ 3 := by
    rw [length_cons]
    omega
  have splitFive : splitn '|' 5 (joined '|' (txnId :: flags)) = txnId :: flags :=
    splitn_joined clean nonempty (by omega)
  have splitFour : splitn '|' 4 (joined '|' (txnId :: flags)) = txnId :: flags :=
    splitn_joined clean nonempty (by omega)
  have noSql : flags[2]? = none := getElem?_eq_none few
  rw [parseData_of_few clean nonempty (by omega)]
  unfold parseUnnumbered
  rw [splitFive]
  split
  · next same =>
    rw [same] at counted
    simp only [length_cons] at counted
    omega
  · unfold parseLegacyRecord
    rw [splitFour]
    simp only [noSql, map_none, getD_none]

theorem parseData_unnumbered {txnId commit rollback sql : List Char} {change : List (List Char)}
    (clean : ∀ field ∈ txnId :: commit :: rollback :: sql :: change, '|' ∉ field)
    (few : change.length ≤ 1) :
    parseData host (joined '|' (txnId :: commit :: rollback :: sql :: change)) = some
        { lsn := 0, timestampUs := 0, txnId := numberField txnId, isCommit := readFlag commit
          isRollback := readFlag rollback, sql := readSql host sql
          physicalChange := change[0]?.bind (readChange host) } := by
  have counted : (txnId :: commit :: rollback :: sql :: change).length ≤ 5 := by
    simp only [length_cons]
    omega
  have split := splitn_joined clean (cons_ne_nil _ _) counted
  rw [parseData_of_few clean (cons_ne_nil _ _) counted]
  unfold parseUnnumbered
  rw [split]

theorem parseData_untimed {lsn txnId commit rollback sql change : List Char}
    (clean : ∀ field ∈ [lsn, txnId, commit, rollback, sql, change], '|' ∉ field) :
    parseData host (joined '|' [lsn, txnId, commit, rollback, sql, change]) = some
        { lsn := numberField lsn, timestampUs := 0, txnId := numberField txnId
          isCommit := readFlag commit, isRollback := readFlag rollback, sql := readSql host sql
          physicalChange := readChange host change } := by
  have split : splitn '|' 6 (joined '|' [lsn, txnId, commit, rollback, sql, change]) =
      [lsn, txnId, commit, rollback, sql, change] :=
    splitn_joined clean (cons_ne_nil _ _) (Nat.le_refl _)
  rw [parseData_of_fewer clean (cons_ne_nil _ _) (Nat.le_refl _)]
  unfold parseUntimed
  rw [split]

end

section

variable {host : WalHost} {record : WalRecord}

/-- The fields that are left when the line is cut in the field `k`. -/
def WalRecord.cutAt (host : WalHost) (record : WalRecord) (k : Nat)
    (part : List Char) : List (List Char) :=
  (record.fields host).take k ++ [part]

variable {part : List Char}

theorem NoCollision.cut (noCollision : NoCollision host record) {k : Nat} (inside : 0 < k ∧ k < 7)
    (isLeft : joined '|' (record.cutAt host k part) <+: joined '|' (record.allFields host))
    (looks : isChecksum part = true) :
    hexNumber part ≠ host.xxh3 (utf8 (joined '|' ((record.fields host).take k))) := by
  have seven : (record.fields host).length = 7 := rfl
  have nonempty : (record.fields host).take k ≠ [] :=
    ne_nil_of_length_pos (by rw [length_take]; omega)
  have more : (record.fields host).drop k ≠ [] := ne_nil_of_length_pos (by rw [length_drop]; omega)
  rw [cutAt, joined_concat nonempty, ← line_eq_joined] at isLeft
  refine noCollision _ part isLeft (fun same => ?_) looks
  have lengths := congrArg length same
  rw [dataLine, ← take_append_drop k (record.fields host), joined_append (by simpa using nonempty)
    (by simpa using more), take_append_drop, length_append, length_cons] at lengths
  omega

theorem clean_cutAt {k : Nat} {field part : List Char}
    (isField : (record.allFields host)[k]? = some field) (isPart : part <+: field) :
    ∀ left ∈ record.cutAt host k part, '|' ∉ left := by
  have chars := @fieldChars_allFields host record
  unfold cutAt
  rw [forall_mem_append, forall_mem_singleton]
  refine ⟨fun left mem => separator_notMem_of_fieldChars ?_, ?_⟩
  · exact chars left (mem_append_left _ (mem_of_mem_take mem))
  · exact separator_notMem_of_fieldChars
      (fieldChars_of_start isPart (chars field (mem_of_getElem? isField)))

theorem readsAs_cutAt {k : Nat} {field part : List Char} {found : WalRecord} (pos : 0 < k)
    (isField : (record.allFields host)[k]? = some field) (isPart : part <+: field)
    (noHash : isChecksum part = true →
        hexNumber part ≠ host.xxh3 (utf8 (joined '|' ((record.fields host).take k))))
    (parsed : parseData host (joined '|' (record.cutAt host k part)) = some found) :
    ReadsAs host record (joined '|' (record.cutAt host k part)) ↔
      isChecksum part = true ∨ record.payload = found.payload := by
  refine readsAs_data ?_ ?_ noHash parsed
  · obtain ⟨before, rfl⟩ := Nat.exists_eq_succ_of_ne_zero pos.ne'
    exact cons_ne_nil _ _
  · exact clean_cutAt isField isPart part (mem_append_right _ (mem_singleton_self _))

/-- What is left is read as the record, or not at all, exactly if it is
harmless. -/
def CutReads (host : WalHost) (record : WalRecord) (k : Nat) (part : List Char) : Prop :=
  ReadsAs host record (joined '|' (record.cutAt host k part)) ↔
    HarmlessFields host record (record.cutAt host k part)

theorem readsAs_one (isPart : part <+: decimal record.lsn.toNat) : CutReads host record 0 part := by
  have clean := @clean_cutAt host record 0 _ part rfl isPart
  cases part with
  | nil =>
    have skipped : readLine host (joined '|' [[]]) = none := rfl
    simp [CutReads, ReadsAs, HarmlessFields, cutAt, skipped]
  | cons c rest =>
    have isDigit := isDigit_decimal (isPart.subset mem_cons_self)
    have shown : trim (c :: rest) ≠ [] :=
      trim_ne_nil mem_cons_self (isWhitespace_of_isDigit isDigit)
    have parsed := @parseData_legacy host (c :: rest) [] clean (by simp)
    have isRead : readLine host (c :: rest) = parseData host (c :: rest) := by
      unfold readLine splitChecksum
      rw [if_neg shown, rsplitOnce_of_clean (clean _ mem_cons_self)]
    exact (readsAs_of_some (isRead.trans parsed)).trans (by simp [HarmlessFields, cutAt, payload])

theorem readsAs_two (noCollision : NoCollision host record)
    (isPart : part <+: decimal record.timestampUs.toNat)
    (isLeft : joined '|' (record.cutAt host 1 part) <+: joined '|' (record.allFields host)) :
    CutReads host record 1 part := by
  have clean := @clean_cutAt host record 1 _ part rfl isPart
  have parsed := @parseData_legacy host _ [part] clean (by simp)
  have reads := @readsAs_cutAt host record 1 _ part _ (by decide) rfl isPart
      (noCollision.cut (by decide) isLeft) parsed
  rw [numberField_decimal] at reads
  exact reads

theorem readsAs_three (noCollision : NoCollision host record)
    (isPart : part <+: decimal record.txnId.toNat)
    (isLeft : joined '|' (record.cutAt host 2 part) <+: joined '|' (record.allFields host)) :
    CutReads host record 2 part := by
  have clean := @clean_cutAt host record 2 _ part rfl isPart
  have parsed := @parseData_legacy host _ [_, part] clean (by simp)
  have reads := @readsAs_cutAt host record 2 _ part _ (by decide) rfl isPart
      (noCollision.cut (by decide) isLeft) parsed
  rw [numberField_decimal] at reads
  exact reads

theorem readsAs_four (isPart : part <+: flagField record.isCommit) :
    CutReads host record 3 part := by
  have clean := @clean_cutAt host record 3 _ part rfl isPart
  have parsed := @parseData_unnumbered host _ _ _ _ [] clean (by simp)
  have reads := @readsAs_cutAt host record 3 _ part _ (by decide) rfl isPart
      (by simp [isChecksum_flag isPart]) parsed
  rw [numberField_decimal, readSql_flag isPart, isChecksum_flag isPart] at reads
  exact reads.trans (by simp only [Bool.false_eq_true, false_or]; rfl)

theorem readsAs_five (json : host.ReadsJson) (isPart : part <+: flagField record.isRollback) :
    CutReads host record 4 part := by
  have clean := @clean_cutAt host record 4 _ part rfl isPart
  have parsed := @parseData_unnumbered host _ _ _ _ [part] clean (by simp)
  have reads := @readsAs_cutAt host record 4 _ part _ (by decide) rfl isPart
      (by simp [isChecksum_flag isPart]) parsed
  rw [numberField_decimal, readSql_flag prefix_rfl, getElem?_cons_zero, bind_some,
    readChange_flag json isPart, isChecksum_flag isPart] at reads
  exact reads.trans (by simp only [Bool.false_eq_true, false_or]; rfl)

theorem readsAs_six (json : host.ReadsJson) (noCollision : NoCollision host record)
    (isPart : part <+: host.encode (utf8 record.sql))
    (isLeft : joined '|' (record.cutAt host 5 part) <+: joined '|' (record.allFields host)) :
    CutReads host record 5 part := by
  have clean := @clean_cutAt host record 5 _ part rfl isPart
  have parsed := @parseData_untimed host _ _ _ _ _ part clean
  have reads := @readsAs_cutAt host record 5 _ part _ (by decide) rfl isPart
      (noCollision.cut (by decide) isLeft) parsed
  rw [numberField_decimal, numberField_decimal, readFlag_flagField,
    readSql_flag prefix_rfl, readChange_base64 json isPart] at reads
  exact reads

theorem payload_eq_iff_change (change : Option PhysicalChange) : record.payload =
        payload { record with physicalChange := change } ↔
      change = record.physicalChange := by
  unfold payload
  simp only [Payload.mk.injEq, true_and]
  exact eq_comm

theorem readsAs_seven (json : host.ReadsJson)
    (isPart : part <+: changeField host record.physicalChange) : CutReads host record 6 part := by
  have reads := @readsAs_cutAt host record 6 _ part _ (by decide) rfl isPart
      (by simp [isChecksum_change isPart]) (parseData_timed record part)
  rw [payload_eq_iff_change, readChange_part json isPart, isChecksum_change isPart] at reads
  exact reads.trans (by simp only [Bool.false_eq_true, false_or]; rfl)

theorem readsAs_eight (json : host.ReadsJson)
    (isPart : part <+: hex16 (host.xxh3 (utf8 (record.dataLine host)))) :
    CutReads host record 7 part := by
  show ReadsAs host record (joined '|' (record.fields host ++ [part])) ↔
    (part = hex16 (host.xxh3 (utf8 (record.dataLine host))) ∨ record.physicalChange = none)
  have checksum := isChecksum_part isPart
  by_cases whole : part = hex16 (host.xxh3 (utf8 (record.dataLine host)))
  · have isRead : readLine host (joined '|' (record.fields host ++ [part])) = some record := by
      rw [whole, joined_concat (by simp [fields])]
      exact readLine_line json
    rw [readsAs_of_some isRead]
    simp [whole]
  · have parsed := @parseData_timed host record
      (changeField host record.physicalChange ++ '|' :: part)
    rw [readChange_continued json _ isPart] at parsed
    have reads := @readsAs_cutAt host record 7 _ part _ (by decide) rfl isPart
      (fun looks => absurd (checksum.mp looks) whole) parsed
    rw [payload_eq_iff_change, checksum, eq_comm (a := none)] at reads
    exact reads

theorem readsAs_cut (json : host.ReadsJson) (noCollision : NoCollision host record) (kept : Nat) :
    ReadsAs host record ((record.line host).take kept) ↔
      HarmlessFields host record (cutFields (record.allFields host) kept) := by
  have isLeft : joined '|' (cutFields (record.allFields host) kept) <+:
      joined '|' (record.allFields host) := by
    rw [joined_cutFields]
    exact take_prefix _ _
  rw [line_eq_joined, ← joined_cutFields]
  have eight : record.allFields host = [decimal record.lsn.toNat, decimal record.timestampUs.toNat,
      decimal record.txnId.toNat, flagField record.isCommit,
      flagField record.isRollback, host.encode (utf8 record.sql),
      changeField host record.physicalChange,
      hex16 (host.xxh3 (utf8 (record.dataLine host)))] := rfl
  have cut : ∃ left, cutFields (record.allFields host) kept = left := ⟨_, rfl⟩
  obtain ⟨left, isCut⟩ := cut
  rw [isCut] at isLeft ⊢
  rw [eight] at isCut
  simp only [cutFields] at isCut
  split_ifs at isCut <;> subst isCut
  · exact readsAs_one (List.take_prefix _ _)
  · exact readsAs_two noCollision (List.take_prefix _ _) isLeft
  · exact readsAs_three noCollision (List.take_prefix _ _) isLeft
  · exact readsAs_four (List.take_prefix _ _)
  · exact readsAs_five json (List.take_prefix _ _)
  · exact readsAs_six json noCollision (List.take_prefix _ _) isLeft
  · exact readsAs_seven json (List.take_prefix _ _)
  · exact readsAs_eight json (List.take_prefix _ _)

end

theorem DiskFile.durable_take (file : DiskFile) (kept : Nat) :
    min file.durable kept ≤ (file.bytes.take kept).length := by
  have bound := file.durable_le
  rw [length_take]
  omega

def Directory.cut (directory : Directory) (name : List Char) (kept : Nat) : Directory :=
  match directory.lookup name with
  | some file =>
    directory.insert name
      { bytes := file.bytes.take kept
        durable := min file.durable kept
        durable_le := file.durable_take kept }
  | none => directory

/-- The records whose lines are whole in the first characters of a segment,
and the record whose line is cut, with what is left of it. -/
def tornAt (host : WalHost) : List WalRecord → Nat → List WalRecord × Option (WalRecord × Nat)
  | [], _ => ([], none)
  | record :: rest, kept =>
    if (record.line host).length + 1 ≤ kept then
      let (whole, torn) := tornAt host rest (kept - ((record.line host).length + 1))
      (record :: whole, torn)
    else ([], some (record, kept))

def tornText (host : WalHost) : Option (WalRecord × Nat) → List Char
  | none => []
  | some (record, kept) => (record.line host).take kept

/-- The cut leaves what is read as the record that was being written, or as
nothing. -/
def HarmlessCut (host : WalHost) (records : List WalRecord) (kept : Nat) : Prop :=
  ∀ record left, (tornAt host records kept).2 = some (record, left) →
    HarmlessFields host record (cutFields (record.allFields host) left)

section

variable {host : WalHost}

theorem take_unlines (records : List WalRecord) (kept : Nat) :
    (unlines '\n' (records.map (line host))).take kept = unlines '\n'
          ((tornAt host records kept).1.map (line host)) ++
        tornText host (tornAt host records kept).2 := by
  induction records generalizing kept with
  | nil => exact take_nil
  | cons record rest cutsRest =>
    have split : unlines '\n' ((record :: rest).map (line host)) =
        (record.line host ++ ['\n']) ++ unlines '\n' (rest.map (line host)) := rfl
    have size : (record.line host ++ ['\n']).length = (record.line host).length + 1 := by simp
    rw [tornAt]
    by_cases whole : (record.line host).length + 1 ≤ kept
    · obtain ⟨beyond, rfl⟩ := Nat.exists_eq_add_of_le whole
      rw [split, ← size, take_length_add_append, cutsRest beyond]
      simp [unlines]
    · simp only [if_neg whole]
      have inLine : kept ≤ (record.line host).length := by omega
      rw [split, append_assoc, take_append_of_le_length inLine]
      rfl

variable {records : List WalRecord}

theorem tornAt_none {kept : Nat} (isWhole : (tornAt host records kept).2 = none) :
    (tornAt host records kept).1 = records := by
  induction records generalizing kept with
  | nil => rfl
  | cons record rest ih =>
    rw [tornAt] at isWhole ⊢
    by_cases whole : (record.line host).length + 1 ≤ kept
    · rw [if_pos whole] at isWhole ⊢
      exact congrArg (record :: ·) (ih isWhole)
    · rw [if_neg whole] at isWhole
      cases isWhole

theorem tornAt_some {kept left : Nat} {torn : WalRecord}
    (isTorn : (tornAt host records kept).2 = some (torn, left)) :
    ∃ rest, records = (tornAt host records kept).1 ++ torn :: rest := by
  induction records generalizing kept with
  | nil => cases isTorn
  | cons record rest ih =>
    rw [tornAt] at isTorn ⊢
    by_cases whole : (record.line host).length + 1 ≤ kept
    · rw [if_pos whole] at isTorn ⊢
      obtain ⟨after, same⟩ := ih isTorn
      exact ⟨after, congrArg (record :: ·) same⟩
    · rw [if_neg whole] at isTorn ⊢
      cases isTorn
      exact ⟨rest, rfl⟩

def cutSegment (host : WalHost) (n : UInt64) (records : List WalRecord) (kept : Nat) : Segment :=
  { number := n, lines := (tornAt host records kept).1.map (line host)
    tail := tornText host (tornAt host records kept).2 }

theorem printable_cutSegment (n : UInt64) (records : List WalRecord) (kept : Nat) :
    (cutSegment host n records kept).Printable := by
  constructor
  · intro line mem
    obtain ⟨record, -, rfl⟩ := mem_map.mp mem
    exact printable_line
  · unfold cutSegment tornText
    intro c mem
    split at mem
    · cases mem
    · exact printable_line c (mem_of_mem_take mem)

theorem Holds.cut_last {directory : Directory} {earlier : List Segment} {last : Segment}
    (holds : Holds directory (earlier ++ [last])) {records : List WalRecord}
    (isLast : last.lines = records.map (line host)) (complete : last.tail = []) (kept : Nat) :
    Holds (directory.cut (segmentName last.number) kept)
      (earlier ++ [cutSegment host last.number records kept]) := by
  obtain ⟨file, found, fileBytes⟩ := holds.files last (by simp)
  have lastPrintable := holds.printable last (by simp)
  have text : last.text.take kept = (cutSegment host last.number records kept).text := by
    unfold Segment.text
    rw [isLast, complete, append_nil, take_unlines]
    rfl
  have ascii : ∀ c ∈ last.text.take kept, c.toNat < 128 :=
    fun c mem => lastPrintable.ascii_text c (mem_of_mem_take mem)
  have bytes : file.bytes.take kept = utf8 (cutSegment host last.number records kept).text := by
    rw [fileBytes, ← text, utf8_of_ascii lastPrintable.ascii_text, utf8_of_ascii ascii,
      map_take]
  unfold Directory.cut
  rw [found]
  exact holds.insert_last (cutSegment host last.number records kept) rfl
    (printable_cutSegment _ _ _) bytes

end

theorem filterMap_readLine {host : WalHost} (json : host.ReadsJson) (records : List WalRecord) :
    (records.map (line host)).filterMap (readLine host) = records := by
  rw [filterMap_map]
  have isRead : readLine host ∘ line host = some := funext fun _ => readLine_line json
  rw [isRead, filterMap_some]

theorem payload_start (before first second : List WalRecord) : (before ++ first).map payload <+:
        (before ++ second).map payload ↔
      first.map payload <+: second.map payload := by
  rw [map_append, map_append, prefix_append_right_inj]

theorem singleton_prefix_iff {host : WalHost} {record : WalRecord} {line : List Char}
    {rest : List Payload} :
    (readLine host line).toList.map payload <+:
        record.payload :: rest ↔
      ReadsAs host record line := by
  unfold ReadsAs
  cases readLine host line with
  | none => simp
  | some found => simp

/-- Whatever is cut off the last segment, what is read is the beginning of
what was appended, exactly if the cut is harmless. -/
theorem torn_tail_iff {host : WalHost} (json : host.ReadsJson)
    {directory : Directory} {earlier : List Segment} {last : Segment}
    {before records : List WalRecord}
    (holds : HoldsRecords host directory (earlier ++ [last]) (before ++ records))
    (isLast : last.lines = records.map (line host))
    (noCollision : ∀ record ∈ records, NoCollision host record) (kept : Nat) :
    (∃ found, readAll host (directory.cut (segmentName last.number) kept) = .ok found ∧
          found.map payload <+: (before ++ records).map payload) ↔
      HarmlessCut host records kept := by
  obtain ⟨logHolds, complete, isRead⟩ := holds
  have lastComplete := complete last (by simp)
  have cutHolds := logHolds.cut_last isLast lastComplete.tail kept
  have lastRead : last.records host = records := by
    unfold Segment.records
    rw [isLast, lastComplete.tail, filterMap_append, filterMap_readLine json]
    simp [readLine_nil]
  have earlierRead : earlier.flatMap (Segment.records host) = before := by
    rw [flatMap_append, flatMap_singleton, lastRead] at isRead
    exact append_cancel_right isRead
  have cutRead : (earlier ++
        [cutSegment host last.number records kept]).flatMap (Segment.records host) =
      before ++ ((tornAt host records kept).1 ++
        (readLine host (tornText host (tornAt host records kept).2)).toList) := by
    rw [flatMap_append, flatMap_singleton, earlierRead]
    unfold Segment.records cutSegment
    rw [filterMap_append, filterMap_readLine json, filterMap_cons]
    cases readLine host (tornText host (tornAt host records kept).2) <;> rfl
  have onlyFound : (∃ found,
        readAll host (directory.cut (segmentName last.number) kept) = .ok found ∧
          found.map payload <+: (before ++ records).map payload) ↔
      ((tornAt host records kept).1 ++
          (readLine host (tornText host (tornAt host records kept).2)).toList).map payload <+:
        records.map payload := by
    rw [cutHolds.readAll_eq, cutRead]
    constructor
    · rintro ⟨found, isFound, isPrefix⟩
      cases isFound
      exact (payload_start before _ _).mp isPrefix
    · intro isPrefix
      exact ⟨_, rfl, (payload_start before _ _).mpr isPrefix⟩
  rw [onlyFound]
  unfold HarmlessCut
  cases isTorn : (tornAt host records kept).2 with
  | none =>
    have nothing : readLine host (tornText host none) = none := rfl
    rw [tornAt_none isTorn, nothing]
    simp
  | some torn =>
    obtain ⟨record, left⟩ := torn
    obtain ⟨rest, same⟩ := tornAt_some isTorn
    have mem : record ∈ records := by
      rw [same]
      simp
    have reads := readsAs_cut json (noCollision record mem) left
    have written : records.map payload =
        (tornAt host records kept).1.map payload ++ record.payload :: rest.map payload := by
      conv_lhs => rw [same]
      rw [map_append, map_cons]
    rw [written, map_append, prefix_append_right_inj, singleton_prefix_iff]
    constructor
    · rintro isRecord other otherLeft isOther
      cases isOther
      exact reads.mp isRecord
    · intro harmless
      exact reads.mpr (harmless record left rfl)

namespace Example

theorem noCollision_of_short {host : WalHost} {record : WalRecord}
    (short : (record.dataLine host).length ≤ 16) : NoCollision host record := by
  intro data field isLeft differs looks
  exfalso
  obtain ⟨sixteen, digits⟩ := Bool.and_eq_true_iff.mp looks
  have length : field.length = 16 := of_decide_eq_true sixteen
  obtain ⟨rest, whole⟩ := isLeft
  have lengths := congrArg List.length whole
  have hexLength : (hex16 (host.xxh3 (utf8 (record.dataLine host)))).length = 16 :=
    length_hexDigits _ _
  rw [line, append_assoc, cons_append] at whole lengths
  simp only [length_append, length_cons, length, hexLength] at lengths
  by_cases equal : data.length = (record.dataLine host).length
  · exact differs (append_inj_left whole equal)
  · -- the separator of the whole line would be a digit of the field
    have shorter : data.length < (record.dataLine host).length := by omega
    obtain ⟨before, longer⟩ := Nat.exists_eq_add_of_lt shorter
    have taken := congrArg (·[(record.dataLine host).length]?) whole
    simp only [getElem?_append_right (Nat.le_refl _), Nat.sub_self, getElem?_cons_zero] at taken
    rw [longer, add_assoc, getElem?_append_right (by omega), Nat.add_sub_cancel_left,
      getElem?_cons_succ, getElem?_append_left (by omega)] at taken
    cases all_eq_true.mp digits _ (mem_of_getElem? taken)

def firstBegin : WalRecord := (begin 1).stamped 1 5

def firstCommit : WalRecord := (commit 7).stamped 1 5

theorem holdsRecords_onlyDirectory (record : WalRecord) :
    HoldsRecords zeroHost (onlyDirectory record) ([] ++ [onlySegment record]) ([] ++ [record]) := by
  refine ⟨holds_onlyDirectory record, ?_, ?_⟩
  · rw [nil_append, forall_mem_singleton]
    exact ⟨rfl, [record], rfl⟩
  · rw [nil_append, flatMap_singleton, records_onlySegment]
    rfl

/-- By accident the first digit of the line is read as the record. -/
theorem torn_tail_firstBegin : ∃ found,
      readAll zeroHost ((onlyDirectory firstBegin).cut (segmentName 0) 1) = .ok found ∧
        found.map payload <+: ([] ++ [firstBegin]).map payload := by
  refine (torn_tail_iff (readsJson_compactHost _)
    (holdsRecords_onlyDirectory firstBegin) rfl ?_ 1).mpr ?_
  · rw [forall_mem_singleton]
    exact noCollision_of_short (by decide)
  · intro record left isTorn
    cases isTorn
    exact .inr rfl

/-- The first digit of a line is read as the beginning of a transaction that
nobody began. -/
theorem digit_is_read_as_begin : HoldsRecords zeroHost (onlyDirectory firstCommit)
        ([] ++ [onlySegment firstCommit]) ([] ++ [firstCommit]) ∧
      readAll zeroHost ((onlyDirectory firstCommit).cut (segmentName 0) 1) = .ok [begin 1] ∧
      ¬ [(begin 1).payload] <+: [firstCommit.payload] := by
  have holds := holdsRecords_onlyDirectory firstCommit
  have cut := @Holds.cut_last zeroHost _ [] _ holds.1 [firstCommit] rfl rfl 1
  refine ⟨holds, ?_, by decide⟩
  have isRead := cut.readAll_eq zeroHost
  exact isRead

end Example

end TurboGP.Storage
