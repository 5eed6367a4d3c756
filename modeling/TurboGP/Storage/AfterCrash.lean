import TurboGP.Storage.RoundTrip

/-! # Appending after a crash -/

namespace TurboGP.Storage

open Sql.Text Server Effect Segment WalRecord List

section

variable (host : WalHost)

def Segment.completeRecords (segment : Segment) : List WalRecord :=
  segment.lines.filterMap (readLine host)

/-- A record that is on the disk as a whole, perhaps without its newline. -/
def OnDisk (log : List Segment) (record : WalRecord) : Prop :=
  record ∈ log.flatMap (completeRecords host) ∨ ∃ segment ∈ log, segment.tail = record.line host

/-- After the session and another opening, the records of the session are
read, in their order and with larger numbers than those on the disk. -/
def LaterKept (log : List Segment) (directory : Directory)
    (session : WalSession) (segmentLimit openedAt : UInt64) : Prop :=
  ∃ (final : Directory) (reopened : WalState) (found later : List WalRecord),
    session.run host directory = some final ∧
      openWithSegmentLimit host (Os.good openedAt) segmentLimit final = .ok reopened ∧
      readAll host reopened.directory = .ok found ∧ later.Sublist found ∧
      later.map payload = session.calls.map (fun call => call.record.payload) ∧
      ∀ record ∈ later, ∀ earlier, OnDisk host log earlier → earlier.lsn < record.lsn

/-- The first record behind the torn bytes has another hash than alone. -/
def NoCollisionBehind (torn : List Char) (lsn : UInt64) (calls : List AppendCall) : Prop :=
  ∀ call ∈ calls.head?,
    host.xxh3 (utf8 (torn ++ (call.record.stamped lsn call.now).dataLine host)) ≠
      host.xxh3 (utf8 ((call.record.stamped lsn call.now).dataLine host))

end

section

variable {host : WalHost} {earlier : List Segment} {torn : Segment}
  {record : WalRecord}

theorem mem_records_of_complete {segment : Segment} (mem : record ∈ segment.completeRecords host) :
    record ∈ segment.records host := by
  unfold records
  rw [filterMap_append]
  exact mem_append_left _ mem

theorem OnDisk.mem_records (json : host.ReadsJson) {log : List Segment}
    (onDisk : OnDisk host log record) : record ∈ log.flatMap (records host) := by
  rcases onDisk with complete | ⟨segment, inLog, isTail⟩
  · obtain ⟨segment, inLog, mem⟩ := mem_flatMap.mp complete
    exact mem_flatMap.mpr ⟨segment, inLog, mem_records_of_complete mem⟩
  · refine mem_flatMap.mpr ⟨segment, inLog, ?_⟩
    unfold records
    rw [filterMap_append, isTail, filterMap_cons, readLine_line json]
    simp

theorem readLine_behind {torn : List Char}
    (noCollision : host.xxh3 (utf8 (torn ++ record.dataLine host)) ≠
      host.xxh3 (utf8 (record.dataLine host))) :
    readLine host (torn ++ record.line host) = none := by
  unfold line
  rw [← append_assoc, readLine_checksummed, if_pos noCollision.symm]

theorem keepsGood_all (host : WalHost) : KeepsGood host fun _ => True :=
  ⟨fun _ => trivial, fun _ _ _ => trivial⟩

theorem Tidy.reopened {good : Segment → Prop} {old new : List WalRecord} {state : WalState}
    {budget : Nat} (keeps : KeepsGood host good)
    (tidy : Tidy host good old state new budget) (segmentLimit openedAt : UInt64) :
    ∃ reopened,
      openWithSegmentLimit host (Os.good openedAt) segmentLimit state.directory = .ok reopened ∧
        readAll host reopened.directory = .ok (old ++ new) := by
  obtain ⟨reopened, opened, again⟩ := tidy.closed.opened keeps segmentLimit openedAt
  exact ⟨reopened, opened, again.closed.readAll_eq⟩

variable {directory : Directory} {session : WalSession}
  {segmentLimit openedAt : UInt64}

theorem lt_nextLsn {records : List WalRecord} (room : (maxLsn records).toNat + 1 < 2 ^ 64) :
    ∀ record ∈ records, record.lsn < maxLsn records + 1 :=
  fun _ mem => UInt64.lt_of_le_of_lt (le_maxLsn mem) (lt_succ room)

theorem laterKept_of_clean (json : host.ReadsJson) (holds : Holds directory (earlier ++ [torn]))
    (lsnRoom : (maxLsn ((earlier ++ [torn]).flatMap (records host))).toNat +
          1 + session.calls.length < 2 ^ 64)
    (segmentRoom : torn.number.toNat + session.calls.length < 2 ^ 64)
    (clean : torn.tail = [] ∨ session.calls = [] ∨ session.segmentLimit.toNat ≤ torn.text.length) :
    LaterKept host (earlier ++ [torn]) directory session segmentLimit openedAt := by
  obtain ⟨state, opened, isOpen, limit, nextLsn⟩ :=
    openWithSegmentLimit_last host session.openedAt session.segmentLimit holds
  have kept : ∃ final new,
      (forM session.calls (AppendCall.run host) : WalM Unit) state = .ok () final ∧
        new.map payload = session.calls.map (fun call => call.record.payload) ∧
        (∃ reopened, openWithSegmentLimit host (Os.good openedAt) segmentLimit
              final.directory = .ok reopened ∧ readAll host reopened.directory =
              .ok ((earlier ++ [torn]).flatMap (records host) ++ new)) ∧
        ∀ record ∈ new,
          ∀ old ∈ (earlier ++ [torn]).flatMap (records host), old.lsn < record.lsn := by
    cases calls : session.calls with
    | nil =>
      refine ⟨state, [], rfl, rfl, ?_, forall_mem_nil _⟩
      obtain ⟨reopened, before, last, again, isLog, againOpen, -, -⟩ :=
        openWithSegmentLimit_good host openedAt segmentLimit isOpen.holds
      refine ⟨reopened, again, ?_⟩
      rw [againOpen.holds.readAll_eq, ← isLog, records_openedLog, append_nil]
    | cons call rest =>
      rw [calls, length_cons] at lsnRoom segmentRoom
      have complete : torn.tail = [] ∨ state.wal.segmentLimit.toNat ≤ torn.text.length := by
        rw [calls] at clean
        rw [limit]
        simpa using clean
      have oneNumber : (maxLsn
          ((earlier ++ [torn]).flatMap (records host))).toNat + 1 < 2 ^ 64 := by omega
      have below := lt_nextLsn oneNumber
      rw [← nextLsn] at below
      have room : state.wal.nextLsn.toNat + (rest.length + 0 + 1) < 2 ^ 64 := by
        rw [nextLsn, toNat_succ oneNumber]
        omega
      obtain ⟨next, appended, tidy⟩ :=
        @tidy_append host (fun _ => True) _ [] state (rest.length + 0) json
          (keepsGood_all host) call.now call.record _ _ isOpen
          (fun _ _ => trivial) complete (by omega) (append_nil _).symm .nil
          (forall_mem_nil _) (by rwa [append_nil]) room
      obtain ⟨final, added, ran, payloads, finalTidy⟩ := tidy.run json (keepsGood_all host) rest
      refine ⟨final, _, ?_, ?_, finalTidy.reopened (keepsGood_all host) _ _, finalTidy.newer⟩
      · rw [forM_cons, bind_run_ok (call.run_eq appended)]
        exact ran
      · rw [map_append, payloads]
        rfl
  obtain ⟨final, new, ran, payloads, ⟨reopened, again, isRead⟩, newer⟩ := kept
  refine ⟨final.directory, reopened, _, new, WalSession.run_eq opened ran, again,
    isRead, sublist_append_right _ _, payloads, ?_⟩
  intro record mem old onDisk
  exact newer record mem old (onDisk.mem_records json)

theorem length_le_of_sublist {later old new : List WalRecord} (sublist : later.Sublist (old ++ new))
    (fresh : ∀ record ∈ later, record ∉ old) : later.length ≤ new.length := by
  have allFresh : later.filter (fun record => record ∉ old) = later := by
    rw [filter_eq_self]
    intro record mem
    exact decide_eq_true (fresh record mem)
  have noneOld : old.filter (fun record => record ∉ old) = [] := by
    rw [filter_eq_nil_iff]
    intro record mem
    simp [mem]
  have filtered := sublist.filter fun record => decide (record ∉ old)
  rw [allFresh, filter_append, noneOld, nil_append] at filtered
  exact filtered.length_le.trans (length_filter_le _ _)

theorem records_behind (complete : ∀ segment ∈ earlier, segment.tail = [])
    (noCollision : host.xxh3 (utf8 (torn.tail ++ record.dataLine host)) ≠
      host.xxh3 (utf8 (record.dataLine host))) :
    (earlier ++ [torn.appendLine (record.line host)]).flatMap (records host) =
      (earlier ++ [torn]).flatMap (completeRecords host) := by
  have earlierRead : earlier.flatMap (records host) = earlier.flatMap (completeRecords host) :=
    flatMap_congr fun segment mem =>
      records_of_complete host (complete segment mem)
  rw [flatMap_append, flatMap_singleton,
    records_appendLine, readLine_behind noCollision, earlierRead,
    flatMap_append, flatMap_singleton, Option.toList_none, append_nil]
  rfl

theorem tidy_behind (json : host.ReadsJson) {state : WalState}
    (isOpen : OpenOn state earlier torn) (complete : ∀ segment ∈ earlier, segment.tail = [])
    (call : AppendCall) (budget : Nat)
    (noCollision : host.xxh3
          (utf8 (torn.tail ++ (call.record.stamped state.wal.nextLsn call.now).dataLine host)) ≠
        host.xxh3 (utf8 ((call.record.stamped state.wal.nextLsn call.now).dataLine host)))
    (below : ∀ record ∈ (earlier ++ [torn]).flatMap (records host), record.lsn < state.wal.nextLsn)
    (room : state.wal.nextLsn.toNat + (budget + 1) < 2 ^ 64)
    (segmentRoom : torn.number.toNat + (budget + 1) < 2 ^ 64)
    (notFull : ¬ state.wal.segmentLimit.toNat ≤ torn.text.length) :
    ∃ next, append host (Os.good call.now) call.record state = .ok () next ∧
      Tidy host (fun _ => True)
        ((earlier ++ [torn]).flatMap (completeRecords host)) next [] budget := by
  obtain ⟨next, appended, nextOpen, -, nextNumber⟩ :=
    append_good host call.now call.record isOpen (by omega)
  rw [appendedLog, if_neg notFull] at nextOpen
  have nextValue : next.wal.nextLsn.toNat = state.wal.nextLsn.toNat + 1 := by
    rw [nextNumber, toNat_succ (by omega)]
  have nextRead := records_behind complete noCollision
  refine ⟨next, appended, ?_⟩
  constructor
  · refine ⟨earlier, _, nextOpen, fun _ _ => trivial, rfl, ?_, ?_⟩
    · show torn.number.toNat + budget < 2 ^ 64
      omega
    · rwa [append_nil]
  · exact .nil
  · exact forall_mem_nil _
  · omega
  · intro record mem
    rw [append_nil] at mem
    have less := below record (OnDisk.mem_records json (.inl mem))
    rw [UInt64.lt_iff_toNat_lt] at less ⊢
    omega
  · omega

theorem not_laterKept (json : host.ReadsJson) (holds : Holds directory (earlier ++ [torn]))
    (complete : ∀ segment ∈ earlier, segment.tail = [])
    (noCollision : NoCollisionBehind host torn.tail
      (maxLsn ((earlier ++ [torn]).flatMap (records host)) + 1) session.calls)
    (lsnRoom : (maxLsn ((earlier ++ [torn]).flatMap (records host))).toNat +
          1 + session.calls.length < 2 ^ 64)
    (segmentRoom : torn.number.toNat + session.calls.length < 2 ^ 64)
    (someCall : session.calls ≠ []) (notFull : ¬ session.segmentLimit.toNat ≤ torn.text.length) :
    ¬ LaterKept host (earlier ++ [torn]) directory session segmentLimit openedAt := by
  obtain ⟨call, rest, calls⟩ := exists_cons_of_ne_nil someCall
  obtain ⟨state, opened, isOpen, limit, nextLsn⟩ :=
    openWithSegmentLimit_last host session.openedAt session.segmentLimit holds
  rw [calls, length_cons] at lsnRoom segmentRoom
  have oneNumber :
      (maxLsn ((earlier ++ [torn]).flatMap (records host))).toNat + 1 < 2 ^ 64 := by omega
  have below := lt_nextLsn oneNumber
  rw [← nextLsn] at below
  have room : state.wal.nextLsn.toNat + (rest.length + 0 + 1) < 2 ^ 64 := by
    rw [nextLsn, toNat_succ oneNumber]
    omega
  obtain ⟨next, appended, tidy⟩ := tidy_behind json isOpen complete call (rest.length + 0)
      (by rw [nextLsn]; exact noCollision call (by simp [calls])) below room
        (by omega) (by rwa [limit])
  obtain ⟨final, added, ran, payloads, finalTidy⟩ := tidy.run json (keepsGood_all host) rest
  obtain ⟨reopened, again, isRead⟩ := finalTidy.reopened (keepsGood_all host) segmentLimit openedAt
  have allRan : (forM session.calls (AppendCall.run host) : WalM Unit) state = .ok () final := by
    rw [calls, forM_cons, bind_run_ok (call.run_eq appended)]
    exact ran
  have sessionRan := WalSession.run_eq opened allRan
  -- Reading finds the complete records and one record less than appended.
  rintro ⟨otherFinal, otherReopened, found, later, otherRan, otherAgain,
    otherRead, sublist, laterPayloads, newer⟩
  obtain rfl : final.directory = otherFinal := Option.some.inj (sessionRan.symm.trans otherRan)
  obtain rfl : reopened = otherReopened := Except.ok.inj (again.symm.trans otherAgain)
  obtain rfl := Except.ok.inj (isRead.symm.trans otherRead)
  have fresh : ∀ record ∈ later, record ∉ (earlier ++ [torn]).flatMap (completeRecords host) := by
    intro record mem isOld
    exact UInt64.lt_irrefl _ (newer record mem record (.inl isOld))
  have few := length_le_of_sublist sublist fresh
  have many := congrArg length laterPayloads
  have counted := congrArg length payloads
  rw [calls] at many
  simp only [length_map, length_cons, nil_append] at many counted few
  omega

end

/-- The records appended after a crash are read, exactly if the log did not
end in torn bytes, or nothing is appended, or the first record starts a new
segment. -/
theorem later_kept_iff {host : WalHost} (json : host.ReadsJson)
    {directory : Directory} {earlier : List Segment} {torn : Segment}
    (holds : Holds directory (earlier ++ [torn]))
    (complete : ∀ segment ∈ earlier, segment.tail = [])
    (session : WalSession) (segmentLimit openedAt : UInt64)
    (noCollision : torn.tail ≠ [] → torn.text.length < session.segmentLimit.toNat →
      NoCollisionBehind host torn.tail
        (maxLsn ((earlier ++ [torn]).flatMap (records host)) + 1) session.calls)
    (lsnRoom : (maxLsn ((earlier ++ [torn]).flatMap (records host))).toNat +
          1 + session.calls.length < 2 ^ 64)
    (segmentRoom : torn.number.toNat + session.calls.length < 2 ^ 64) :
    LaterKept host (earlier ++ [torn]) directory session segmentLimit openedAt ↔
      torn.tail = [] ∨ session.calls = [] ∨ session.segmentLimit.toNat ≤ torn.text.length := by
  constructor
  · intro kept
    by_contra unclean
    rw [not_or, not_or] at unclean
    obtain ⟨isTorn, someCall, notFull⟩ := unclean
    exact not_laterKept json holds complete (noCollision isTorn (Nat.lt_of_not_le notFull))
      lsnRoom segmentRoom someCall notFull kept
  · exact laterKept_of_clean json holds lsnRoom segmentRoom

namespace Example

/-- A hash that no text shares with a longer one by one character. -/
def lengthHost : WalHost := compactHost fun bytes => UInt64.ofNat bytes.length

def tornSegment : Segment :=
  { number := 0, lines := [], tail := ['1'] }

def tornDirectory : Directory := singleDirectory tornSegment

theorem holds_tornDirectory : Holds tornDirectory ([] ++ [tornSegment]) :=
  holds_singleDirectory ⟨forall_mem_nil _, all_eq_true.mp (by decide)⟩

theorem noCollisionBehind_tornSegment (lsn : UInt64) (calls : List AppendCall) :
    NoCollisionBehind lengthHost tornSegment.tail lsn calls := by
  intro call _ same
  let data := (call.record.stamped lsn call.now).dataLine lengthHost
  have longer : UInt64.ofNat ((utf8 data).length + 1) = UInt64.ofNat (utf8 data).length := same
  have values := congrArg UInt64.toNat longer
  simp only [UInt64.toNat_ofNat'] at values
  omega

/-- The segment is full, and the record starts the next one. -/
theorem later_kept_rotated : LaterKept lengthHost ([] ++ [tornSegment]) tornDirectory
      { oneSession with segmentLimit := 1 } 1 9 := by
  refine (later_kept_iff (readsJson_compactHost _) holds_tornDirectory
    (forall_mem_nil _) _ 1 9 (fun _ _ => noCollisionBehind_tornSegment _ _) (by decide)
    (by decide)).mpr ?_
  exact .inr (.inr (by decide))

/-- The commit behind the digit is lost. -/
theorem commit_behind_digit_is_lost : Holds tornDirectory ([] ++ [tornSegment]) ∧
      tornSegment.tail <+: ((commit 1).stamped 1 5).line lengthHost ∧
      ¬ LaterKept lengthHost ([] ++ [tornSegment]) tornDirectory oneSession 67108864 9 := by
  refine ⟨holds_tornDirectory, ⟨_, rfl⟩, ?_⟩
  exact not_laterKept (readsJson_compactHost _) holds_tornDirectory
    (forall_mem_nil _) (noCollisionBehind_tornSegment _ _) (by decide)
    (by decide) (by decide) (by decide)

end Example

end TurboGP.Storage
