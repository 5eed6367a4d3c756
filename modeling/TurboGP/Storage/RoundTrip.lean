import TurboGP.Storage.Appends
import TurboGP.Storage.CompactHost

/-! # What is appended is read back -/

namespace TurboGP.Storage

open Sql.Text Server Effect WalRecord List

/-- What a record says, apart from the number and the time that the log gives
it. -/
structure Payload where
  txnId : UInt64
  sql : List Char
  isCommit : Bool
  isRollback : Bool
  physicalChange : Option PhysicalChange
  deriving DecidableEq, Repr

def WalRecord.payload (record : WalRecord) : Payload :=
  { txnId := record.txnId, sql := record.sql, isCommit := record.isCommit
    isRollback := record.isRollback, physicalChange := record.physicalChange }

@[simp]
theorem WalRecord.payload_stamped (record : WalRecord) (lsn now : UInt64) :
    (record.stamped lsn now).payload = record.payload := rfl

/-- A call of `append` or of `append_async` at some time. -/
structure AppendCall where
  record : WalRecord
  now : UInt64
  isAsync : Bool
  deriving DecidableEq, Repr

def AppendCall.run (host : WalHost) (call : AppendCall) : WalM Unit :=
  if call.isAsync then do
    let _ ← appendAsync host (Os.good call.now) call.record
    return
  else append host (Os.good call.now) call.record

structure WalSession where
  segmentLimit : UInt64
  openedAt : UInt64
  calls : List AppendCall
  deriving DecidableEq, Repr

def WalSession.run (host : WalHost) (session : WalSession)
    (directory : Directory) : Option Directory :=
  match openWithSegmentLimit host (Os.good session.openedAt)
      session.segmentLimit directory with
  | .error _ => none
  | .ok state =>
    match (forM session.calls (AppendCall.run host) : WalM Unit) state with
    | .ok _ final => some final.directory
    | .error _ _ => none

def runSessions (host : WalHost) (sessions : List WalSession)
    (directory : Directory) : Option Directory :=
  sessions.foldlM (fun directory session => session.run host directory) directory

section

variable (host : WalHost) (good : Segment → Prop) (old : List WalRecord)

/-- A property of segments that the lines of records keep. -/
structure KeepsGood : Prop where
  empty : ∀ n, good { number := n, lines := [], tail := [] }
  append :
    ∀ segment (record : WalRecord), good segment → good (segment.appendLine (record.line host))

/-- The segments of a directory that holds the records `old` and then `new`,
without an unfinished line at its end, and with room for `budget` more. -/
structure TidyLog (directory : Directory) (new : List WalRecord)
    (budget : Nat) : Prop where
  log : ∃ log, Holds directory log ∧ (∀ segment ∈ log, good segment) ∧
    (∀ last ∈ log.getLast?, last.tail = []) ∧
    (∀ segment ∈ log, segment.number.toNat + budget < 2 ^ 64) ∧
    log.flatMap (Segment.records host) = old ++ new
  increasing : new.Pairwise fun first second => first.lsn < second.lsn
  newer : ∀ record ∈ new, ∀ earlier ∈ old, earlier.lsn < record.lsn
  room : (maxLsn (old ++ new)).toNat + 1 + budget < 2 ^ 64

structure Tidy (state : WalState) (new : List WalRecord) (budget : Nat) : Prop where
  log : ∃ earlier last, OpenOn state earlier last ∧ (∀ segment ∈ earlier ++ [last], good segment) ∧
    last.tail = [] ∧ last.number.toNat + budget < 2 ^ 64 ∧
    (earlier ++ [last]).flatMap (Segment.records host) = old ++ new
  increasing : new.Pairwise fun first second => first.lsn < second.lsn
  newer : ∀ record ∈ new, ∀ earlier ∈ old, earlier.lsn < record.lsn
  started : 0 < state.wal.nextLsn.toNat
  above : ∀ record ∈ old ++ new, record.lsn < state.wal.nextLsn
  room : state.wal.nextLsn.toNat + budget < 2 ^ 64

end

section

variable {host : WalHost} {good : Segment → Prop}
  {old new : List WalRecord} {state : WalState} {budget : Nat}

theorem le_maxLsn {records : List WalRecord} {record : WalRecord}
    (mem : record ∈ records) : record.lsn ≤ maxLsn records :=
  (le_foldl_max _ 0).2 _ (mem_map_of_mem mem)

theorem maxLsn_cases (records : List WalRecord) :
    maxLsn records = 0 ∨ ∃ record ∈ records, record.lsn = maxLsn records := by
  rcases foldl_max_mem (records.map lsn) 0 with isZero | isMax
  · exact .inl isZero
  · exact .inr (mem_map.mp isMax)

theorem toNat_succ {n : UInt64} (room : n.toNat + 1 < 2 ^ 64) : (n + 1).toNat = n.toNat + 1 := by
  exact Nat.mod_eq_of_lt room

theorem lt_succ {n : UInt64} (room : n.toNat + 1 < 2 ^ 64) : n < n + 1 := by
  rw [UInt64.lt_iff_toNat_lt, toNat_succ room]
  omega

theorem succ_lt_of_lt {n bound : UInt64} (less : n < bound) : n.toNat + 1 < 2 ^ 64 := by
  have bounded := bound.toNat_lt
  have below := UInt64.lt_iff_toNat_lt.mp less
  omega

theorem currentLsn_succ {wal : Wal} (started : 0 < wal.nextLsn.toNat) :
    wal.currentLsn.toNat + 1 = wal.nextLsn.toNat := by
  have notZero : wal.nextLsn ≠ 0 := by
    intro isZero
    rw [isZero] at started
    exact absurd started (Nat.lt_irrefl 0)
  have one : (1 : UInt64) ≤ wal.nextLsn := by
    exact started
  unfold Wal.currentLsn
  rw [if_neg notZero, UInt64.toNat_sub_of_le _ _ one]
  exact Nat.sub_add_cancel started

theorem currentLsn_lt {wal : Wal} (started : 0 < wal.nextLsn.toNat) :
    wal.currentLsn < wal.nextLsn := by
  have next := currentLsn_succ started
  rw [UInt64.lt_iff_toNat_lt]
  omega

theorem records_appendedLog (json : host.ReadsJson) {earlier : List Segment} {last : Segment}
    (limit : UInt64) (record : WalRecord)
    (complete : last.tail = [] ∨ limit.toNat ≤ last.text.length) :
    ((appendedLog limit earlier last (record.line host)).1 ++
        [(appendedLog limit earlier last (record.line host)).2]).flatMap (Segment.records host) =
      (earlier ++ [last]).flatMap (Segment.records host) ++ [record] := by
  unfold appendedLog
  split
  · rw [flatMap_append, flatMap_singleton,
      Segment.records_appendLine_of_complete json rfl]
    rfl
  · next notFull =>
    have empty : last.tail = [] := complete.resolve_right notFull
    rw [flatMap_append, flatMap_append, flatMap_singleton, flatMap_singleton,
      Segment.records_appendLine_of_complete json empty, append_assoc]

theorem appendedLog_last (limit : UInt64) (earlier : List Segment) (last : Segment)
    (line : List Char) (room : last.number.toNat + 1 < 2 ^ 64) :
    (appendedLog limit earlier last line).2.tail = [] ∧
      (appendedLog limit earlier last line).2.number.toNat ≤ last.number.toNat + 1 := by
  unfold appendedLog
  split
  · exact ⟨rfl, Nat.le_of_eq (toNat_succ room)⟩
  · exact ⟨rfl, Nat.le_succ _⟩

theorem KeepsGood.appendedLog (keeps : KeepsGood host good) (limit : UInt64) (record : WalRecord)
    {earlier : List Segment} {last : Segment}
    (allGood : ∀ segment ∈ earlier ++ [last], good segment) :
    ∀ segment ∈ (appendedLog limit earlier last (record.line host)).1 ++
          [(appendedLog limit earlier last (record.line host)).2],
      good segment := by
  have lastGood : good last := allGood last (by simp)
  unfold Storage.appendedLog
  split
  · rw [forall_mem_append, forall_mem_singleton]
    exact ⟨allGood, keeps.append _ record (keeps.empty _)⟩
  · rw [forall_mem_append, forall_mem_singleton] at allGood ⊢
    exact ⟨allGood.1, keeps.append _ record lastGood⟩

theorem tidy_append
    (json : host.ReadsJson) (keeps : KeepsGood host good) (now : UInt64) (record : WalRecord)
    {earlier : List Segment} {last : Segment} (isOpen : OpenOn state earlier last)
    (allGood : ∀ segment ∈ earlier ++ [last], good segment)
    (complete : last.tail = [] ∨ state.wal.segmentLimit.toNat ≤ last.text.length)
    (segmentRoom : last.number.toNat + (budget + 1) < 2 ^ 64)
    (isRead : (earlier ++ [last]).flatMap (Segment.records host) = old ++ new)
    (increasing : new.Pairwise fun first second => first.lsn < second.lsn)
    (newer : ∀ record ∈ new, ∀ earlier ∈ old, earlier.lsn < record.lsn)
    (above : ∀ record ∈ old ++ new, record.lsn < state.wal.nextLsn)
    (room : state.wal.nextLsn.toNat + (budget + 1) < 2 ^ 64) :
    ∃ next, append host (Os.good now) record state = .ok () next ∧
      Tidy host good old next (new ++ [record.stamped state.wal.nextLsn now]) budget := by
  have oneSegment : last.number.toNat + 1 < 2 ^ 64 := by omega
  have oneNumber : state.wal.nextLsn.toNat + 1 < 2 ^ 64 := by omega
  obtain ⟨next, appended, nextOpen, -, nextLsn⟩ := append_good host now record isOpen oneSegment
  obtain ⟨tailEmpty, lastNumber⟩ := appendedLog_last state.wal.segmentLimit earlier last
      ((record.stamped state.wal.nextLsn now).line host) oneSegment
  have nextRead := @records_appendedLog host json earlier last state.wal.segmentLimit
      (record.stamped state.wal.nextLsn now) complete
  rw [isRead, append_assoc] at nextRead
  refine ⟨next, appended, ?_⟩
  constructor
  · exact ⟨_, _, nextOpen, keeps.appendedLog _ _ allGood, tailEmpty, by omega, nextRead⟩
  · rw [pairwise_append]
    refine ⟨increasing, pairwise_singleton _ _, ?_⟩
    intro first inNew second isLast
    rw [mem_singleton.mp isLast]
    exact above first (mem_append_right _ inNew)
  · intro added inAdded earlierRecord inOld
    rcases mem_append.mp inAdded with inNew | isLast
    · exact newer added inNew earlierRecord inOld
    · rw [mem_singleton.mp isLast]
      exact above earlierRecord (mem_append_left _ inOld)
  · rw [nextLsn, toNat_succ oneNumber]
    omega
  · intro added inAll
    rw [nextLsn]
    rw [← append_assoc] at inAll
    rcases mem_append.mp inAll with inBefore | isLast
    · exact UInt64.lt_trans (above added inBefore) (lt_succ oneNumber)
    · rw [mem_singleton.mp isLast]
      exact lt_succ oneNumber
  · rw [nextLsn, toNat_succ oneNumber]
    omega

theorem AppendCall.run_eq (call : AppendCall) {next : WalState}
    (appended : append host (Os.good call.now) call.record state = .ok () next) :
    call.run host state = .ok () next := by
  unfold AppendCall.run
  cases call.isAsync with
  | false => exact appended
  | true =>
    have async :
        appendAsync host (Os.good call.now) call.record state = .ok next.wal.currentLsn next := by
      unfold appendAsync
      rw [bind_run_ok appended]
      rfl
    exact bind_run_ok async

theorem Tidy.run (json : host.ReadsJson) (keeps : KeepsGood host good) (calls : List AppendCall)
    (tidy : Tidy host good old state new (calls.length + budget)) :
    ∃ final added, (forM calls (AppendCall.run host) : WalM Unit) state = .ok () final ∧
      added.map payload = calls.map (fun call => call.record.payload) ∧
      Tidy host good old final (new ++ added) budget := by
  induction calls generalizing state new with
  | nil =>
    rw [length_nil, Nat.zero_add] at tidy
    refine ⟨state, [], rfl, rfl, ?_⟩
    rwa [append_nil]
  | cons call rest runRest =>
    have enough : (call :: rest).length + budget = rest.length + budget + 1 := by
      rw [length_cons]
      omega
    rw [enough] at tidy
    obtain ⟨earlier, last, isOpen, allGood, empty, segmentRoom, isRead⟩ := tidy.log
    obtain ⟨next, appended, nextTidy⟩ := tidy_append json keeps call.now call.record isOpen allGood
        (.inl empty) segmentRoom isRead tidy.increasing tidy.newer tidy.above tidy.room
    obtain ⟨final, added, ran, payloads, finalTidy⟩ := runRest nextTidy
    refine ⟨final, call.record.stamped state.wal.nextLsn call.now :: added, ?_, ?_, ?_⟩
    · rw [forM_cons, bind_run_ok (call.run_eq appended)]
      exact ran
    · rw [map_cons, map_cons, payloads, payload_stamped]
    · rwa [append_assoc] at finalTidy

variable {directory : Directory}

theorem TidyLog.opened (keeps : KeepsGood host good) (limit now : UInt64)
    (tidy : TidyLog host good old directory new budget) :
    ∃ state, openWithSegmentLimit host (Os.good now) limit directory = .ok state ∧
      Tidy host good old state new budget := by
  obtain ⟨log, holds, allGood, complete, segmentRoom, isRead⟩ := tidy.log
  obtain ⟨state, earlier, last, opened, isLog, isOpen, -, nextLsn⟩ :=
    openWithSegmentLimit_good host now limit holds
  have room := tidy.room
  have oneNumber : (maxLsn (old ++ new)).toNat + 1 < 2 ^ 64 := by omega
  rw [isRead] at nextLsn
  have openedGood : ∀ segment ∈ openedLog log, good segment := by
    unfold openedLog
    split
    · rw [forall_mem_singleton]
      exact keeps.empty 0
    · exact allGood
  have lastTidy : last.tail = [] ∧ last.number.toNat + budget < 2 ^ 64 := by
    by_cases empty : log = []
    · rw [openedLog, if_pos empty] at isLog
      have lasts := congrArg getLast? isLog
      rw [getLast?_concat] at lasts
      obtain rfl := Option.some.inj lasts
      refine ⟨rfl, ?_⟩
      show 0 + budget < 2 ^ 64
      omega
    · rw [openedLog, if_neg empty] at isLog
      subst isLog
      exact ⟨complete last (by simp), segmentRoom last (by simp)⟩
  refine ⟨state, opened, ?_⟩
  constructor
  · refine ⟨earlier, last, isOpen, isLog ▸ openedGood, lastTidy.1, lastTidy.2, ?_⟩
    rw [← isLog, records_openedLog, isRead]
  · exact tidy.increasing
  · exact tidy.newer
  · rw [nextLsn, toNat_succ oneNumber]
    omega
  · intro record mem
    rw [nextLsn]
    have below := le_maxLsn mem
    have above := lt_succ oneNumber
    exact UInt64.lt_of_le_of_lt below above
  · rw [nextLsn, toNat_succ oneNumber]
    exact room

theorem Tidy.closed (tidy : Tidy host good old state new budget) :
    TidyLog host good old state.directory new budget := by
  obtain ⟨earlier, last, isOpen, allGood, empty, segmentRoom, isRead⟩ := tidy.log
  constructor
  · refine ⟨earlier ++ [last], isOpen.holds, allGood, ?_, ?_, isRead⟩
    · intro final isFinal
      rw [getLast?_concat] at isFinal
      cases isFinal
      exact empty
    · intro segment inLog
      have below := isOpen.holds.number_le (mem_map_of_mem inLog)
      rw [UInt64.le_iff_toNat_le] at below
      omega
  · exact tidy.increasing
  · exact tidy.newer
  · have room := tidy.room
    rcases maxLsn_cases (old ++ new) with isZero | ⟨record, mem, isMax⟩
    · have started := tidy.started
      rw [isZero]
      show 0 + 1 + budget < 2 ^ 64
      omega
    · have above := tidy.above record mem
      rw [isMax, UInt64.lt_iff_toNat_lt] at above
      omega

theorem WalSession.run_eq {session : WalSession} {final : WalState}
    (opened : openWithSegmentLimit host (Os.good session.openedAt)
        session.segmentLimit directory = .ok state)
    (ran : (forM session.calls (AppendCall.run host) : WalM Unit) state = .ok () final) :
    session.run host directory = some final.directory := by
  unfold WalSession.run
  rw [opened]
  simp only [ran]

theorem TidyLog.session (json : host.ReadsJson) (keeps : KeepsGood host good) (session : WalSession)
    (tidy : TidyLog host good old directory new (session.calls.length + budget)) :
    ∃ final added, session.run host directory = some final ∧
      added.map payload = session.calls.map (fun call => call.record.payload) ∧
      TidyLog host good old final (new ++ added) budget := by
  obtain ⟨state, opened, stateTidy⟩ := tidy.opened keeps session.segmentLimit session.openedAt
  obtain ⟨final, added, ran, payloads, finalTidy⟩ := stateTidy.run json keeps session.calls
  exact ⟨final.directory, added, WalSession.run_eq opened ran, payloads, finalTidy.closed⟩

theorem TidyLog.sessions {directory : Directory} (json : host.ReadsJson)
    (keeps : KeepsGood host good) (sessions : List WalSession)
    (tidy :
      TidyLog host good old directory new ((sessions.flatMap WalSession.calls).length + budget)) :
    ∃ final added, runSessions host sessions directory = some final ∧
      added.map payload =
        (sessions.flatMap WalSession.calls).map (fun call => call.record.payload) ∧
      TidyLog host good old final (new ++ added) budget := by
  induction sessions generalizing directory new with
  | nil =>
    rw [flatMap_nil, length_nil, Nat.zero_add] at tidy
    refine ⟨directory, [], rfl, rfl, ?_⟩
    rwa [append_nil]
  | cons session rest runRest =>
    rw [flatMap_cons, length_append, Nat.add_assoc] at tidy
    obtain ⟨middle, first, ran, firstPayloads, middleTidy⟩ := tidy.session json keeps session
    obtain ⟨final, more, ranRest, morePayloads, finalTidy⟩ := runRest middleTidy
    refine ⟨final, first ++ more, ?_, ?_, ?_⟩
    · unfold runSessions at ranRest ⊢
      rw [foldlM_cons, ran]
      exact ranRest
    · rw [map_append, firstPayloads, morePayloads, flatMap_cons, map_append]
    · rwa [append_assoc] at finalTidy

theorem TidyLog.readAll_eq (tidy : TidyLog host good old directory new budget) :
    readAll host directory = .ok (old ++ new) := by
  obtain ⟨log, holds, -, -, -, isRead⟩ := tidy.log
  rw [holds.readAll_eq, isRead]

end

structure Segment.Complete (host : WalHost) (segment : Segment) : Prop where
  tail : segment.tail = []
  lines : ∃ records : List WalRecord, segment.lines = records.map (line host)

theorem keepsGood_complete (host : WalHost) : KeepsGood host (Segment.Complete host) := by
  constructor
  · intro n
    exact ⟨rfl, [], rfl⟩
  · intro segment record complete
    obtain ⟨records, lines⟩ := complete.lines
    refine ⟨rfl, records ++ [record], ?_⟩
    unfold Segment.appendLine
    rw [lines, complete.tail, nil_append, map_append, map_singleton]

def HoldsRecords (host : WalHost) (directory : Directory)
    (log : List Segment) (records : List WalRecord) : Prop :=
  Holds directory log ∧ (∀ segment ∈ log, segment.Complete host) ∧
    log.flatMap (Segment.records host) = records

/-- The records of all sessions, one after the other, are read after those
that the directory had, with greater and ascending numbers.  Neither the numbers of the records nor those of the
segments may run out. -/
theorem wal_round_trip {host : WalHost} (json : host.ReadsJson)
    {start : Directory} {log : List Segment} {old : List WalRecord}
    (holds : HoldsRecords host start log old)
    (sessions : List WalSession)
    (lsnRoom : (maxLsn old).toNat + 1 + (sessions.flatMap WalSession.calls).length < 2 ^ 64)
    (segmentRoom :
      ∀ segment ∈ log, segment.number.toNat + (sessions.flatMap WalSession.calls).length < 2 ^ 64) :
    ∃ final finalLog new, runSessions host sessions start = some final ∧
      HoldsRecords host final finalLog (old ++ new) ∧ readAll host final = .ok (old ++ new) ∧
      new.map payload =
        (sessions.flatMap WalSession.calls).map (fun call => call.record.payload) ∧
      new.Pairwise (fun first second => first.lsn < second.lsn) ∧
      ∀ first ∈ old, ∀ second ∈ new, first.lsn < second.lsn := by
  obtain ⟨startHolds, complete, isOld⟩ := holds
  have tidy : TidyLog host (Segment.Complete host) old start []
      ((sessions.flatMap WalSession.calls).length + 0) := by
    constructor
    · refine ⟨log, startHolds, complete, ?_, segmentRoom, ?_⟩
      · intro last isLast
        exact (complete last (mem_of_getLast? isLast)).tail
      · rw [isOld, append_nil]
    · exact .nil
    · exact forall_mem_nil _
    · rwa [append_nil]
  obtain ⟨final, new, ran, payloads, finalTidy⟩ :=
    tidy.sessions json (keepsGood_complete host) sessions
  obtain ⟨finalLog, finalHolds, finalComplete, -, -, isRead⟩ := finalTidy.log
  refine ⟨final, finalLog, new, ran, ⟨finalHolds, finalComplete, isRead⟩,
    finalTidy.readAll_eq, payloads, finalTidy.increasing, ?_⟩
  intro earlier inOld record inNew
  exact finalTidy.newer record inNew earlier inOld

theorem holds_empty : Holds ∅ [] := by
  constructor
  · exact .nil
  · intro name n held
    exact absurd held Finmap.notMem_empty
  · exact forall_mem_nil _
  · exact forall_mem_nil _

theorem tidyLog_empty (host : WalHost) {budget : Nat} (room : budget + 1 < 2 ^ 64) :
    TidyLog host (Segment.Complete host) [] ∅ [] budget := by
  constructor
  · refine ⟨[], holds_empty, forall_mem_nil _, ?_, ?_, rfl⟩
    · rintro last ⟨⟩
    · exact forall_mem_nil _
  · exact .nil
  · exact forall_mem_nil _
  · show 0 + 1 + budget < 2 ^ 64
    omega

theorem holdsRecords_empty (host : WalHost) : HoldsRecords host ∅ [] [] :=
  ⟨holds_empty, forall_mem_nil _, rfl⟩

/-- Two sessions on an empty directory; the second one starts a segment with
every record. -/
theorem wal_round_trip_twoSessions : ∃ final finalLog new, runSessions (compactHost fun _ => 0)
    [{ segmentLimit := 1000, openedAt := 0
       calls :=
         [{ record := .autocommit "a|b".toList, now := 5, isAsync := false }] },
     { segmentLimit := 0, openedAt := 7
       calls := [{ record := .commit 3, now := 8, isAsync := true },
          { record := .physical 4 (.pageAlloc 1 2), now := 9, isAsync := false }] }]
    ∅ = some final ∧
    HoldsRecords (compactHost fun _ => 0) final finalLog ([] ++ new) ∧
    readAll (compactHost fun _ => 0) final = .ok ([] ++ new) ∧
    new.map payload = [(autocommit "a|b".toList).payload,
      (commit 3).payload, (physical 4 (.pageAlloc 1 2)).payload] ∧
    new.Pairwise (fun first second => first.lsn < second.lsn) ∧
    ∀ first ∈ ([] : List WalRecord), ∀ second ∈ new, first.lsn < second.lsn :=
  wal_round_trip (readsJson_compactHost _) (holdsRecords_empty _) _ (by decide) (forall_mem_nil _)

namespace Example

def lastRecord : WalRecord :=
  { begin 1 with lsn := 18446744073709551615 }

def zeroHost : WalHost := compactHost fun _ => 0

def onlySegment (record : WalRecord) : Segment :=
  { number := 0, lines := [record.line zeroHost], tail := [] }

def singleDirectory (segment : Segment) : Directory :=
  (∅ : Directory).insert (segmentName segment.number) (DiskFile.empty.append (utf8 segment.text))

theorem holds_singleDirectory {segment : Segment} (printable : segment.Printable) :
    Holds (singleDirectory segment) [segment] := by
  constructor
  · exact pairwise_singleton _ _
  · intro name n held isNumber
    rcases Finmap.mem_insert.mp held with rfl | inEmpty
    · rw [segmentNumber_segmentName] at isNumber
      cases isNumber
      exact ⟨rfl, mem_cons_self⟩
    · exact absurd inEmpty Finmap.notMem_empty
  · intro single isSingle
    rw [mem_singleton.mp isSingle]
    exact ⟨_, Finmap.lookup_insert _, rfl⟩
  · intro single isSingle
    rw [mem_singleton.mp isSingle]
    exact printable

def onlyDirectory (record : WalRecord) : Directory := singleDirectory (onlySegment record)

theorem holds_onlyDirectory (record : WalRecord) :
    Holds (onlyDirectory record) [onlySegment record] := by
  refine holds_singleDirectory ⟨?_, forall_mem_nil _⟩
  unfold onlySegment
  rw [forall_mem_singleton]
  exact printable_line

theorem records_onlySegment (record : WalRecord) :
    (onlySegment record).records zeroHost = [record] := by
  have isRead : readLine zeroHost (record.line zeroHost) = some record :=
    readLine_line (readsJson_compactHost _)
  unfold Segment.records onlySegment
  rw [filterMap_append, filterMap_cons, isRead, filterMap_cons, readLine_nil]
  rfl

def oneCall : AppendCall :=
  { record := .commit 1, now := 5, isAsync := false }

def oneSession : WalSession :=
  { segmentLimit := 67108864, openedAt := 0, calls := [oneCall] }

/-- After the largest number comes zero: the numbers do not increase. -/
theorem numbers_start_again : ∃ final,
      HoldsRecords zeroHost (onlyDirectory lastRecord) [onlySegment lastRecord] [lastRecord] ∧
        runSessions zeroHost [oneSession] (onlyDirectory lastRecord) = some final ∧
        readAll zeroHost final = .ok [lastRecord, (commit 1).stamped 0 5] ∧
        ((commit 1).stamped 0 5).lsn < lastRecord.lsn := by
  have json : zeroHost.ReadsJson := readsJson_compactHost _
  have holds := holds_onlyDirectory lastRecord
  obtain ⟨state, opened, isOpen, limit, nextLsn⟩ :=
    @openWithSegmentLimit_last _ [] _ zeroHost oneSession.openedAt oneSession.segmentLimit holds
  have isRead : [onlySegment lastRecord].flatMap (Segment.records zeroHost) = [lastRecord] := by
    rw [flatMap_singleton, records_onlySegment]
  have zero : state.wal.nextLsn = 0 := by
    rw [nextLsn, nil_append, isRead]
    rfl
  obtain ⟨next, appended, nextOpen, -, -⟩ :=
    append_good zeroHost oneCall.now oneCall.record isOpen (by decide)
  have nextRead := @records_appendedLog zeroHost json [] (onlySegment lastRecord)
      state.wal.segmentLimit (oneCall.record.stamped state.wal.nextLsn oneCall.now) (.inl rfl)
  have ran : (forM oneSession.calls (AppendCall.run zeroHost) : WalM Unit) state = .ok () next := by
    unfold oneSession
    rw [forM_cons, bind_run_ok (oneCall.run_eq appended)]
    rfl
  have sessionRan := WalSession.run_eq opened ran
  refine ⟨next.directory, ⟨holds, ?_, isRead⟩, ?_, ?_, by decide⟩
  · rw [forall_mem_singleton]
    exact ⟨rfl, [lastRecord], rfl⟩
  · unfold runSessions
    rw [foldlM_cons, sessionRan]
    rfl
  · rw [nextOpen.holds.readAll_eq, nextRead, nil_append, isRead, zero]
    rfl

end Example

end TurboGP.Storage
