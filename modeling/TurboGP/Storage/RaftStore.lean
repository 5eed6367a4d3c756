import TurboGP.Lib.CrashPoints
import TurboGP.Storage.Page

/-!
# The Raft stores

`storage/raft_store.rs` keeps the Raft log and the state machine in sled trees,
`MemStore` of `storage/raft.rs` keeps them in memory.
-/

namespace TurboGP.Storage

open Server CrashPoints List Option

structure LogId where
  term : UInt64
  nodeId : UInt64
  index : UInt64
  deriving DecidableEq

structure Membership where
  configs : List (List UInt64) := []
  nodes : List (UInt64 × List Char) := []
  deriving DecidableEq

structure StoredMembership where
  logId : Option LogId := none
  membership : Membership := {}
  deriving DecidableEq

inductive EntryPayload
  | blank
  | normal (data : Bytes)
  | membership (members : Membership)
  deriving DecidableEq

structure RaftEntry where
  logId : LogId
  payload : EntryPayload
  deriving DecidableEq

structure StateMachine where
  records : List Bytes
  lastApplied : Option LogId
  membership : StoredMembership
  deriving DecidableEq

namespace StateMachine

def apply (machine : StateMachine) (entry : RaftEntry) : StateMachine :=
  let moved := { machine with lastApplied := some entry.logId }
  match entry.payload with
  | .blank => moved
  | .normal data => { moved with records := machine.records ++ [data] }
  | .membership members => { moved with membership := ⟨some entry.logId, members⟩ }

variable {machine : StateMachine} {entries : List RaftEntry}

theorem records_foldl_apply : (entries.foldl apply machine).records = machine.records ++
      entries.filterMap fun entry =>
        match entry.payload with
        | .normal data => some data
        | _ => none := by
  induction entries generalizing machine with
  | nil => simp
  | cons entry rest ih =>
    rw [foldl_cons, ih, filterMap_cons]
    cases payload : entry.payload <;> simp [apply, payload]

theorem records_foldl_eq_iff : (entries.foldl apply machine).records = machine.records ↔
      ∀ entry ∈ entries, ∀ data, entry.payload ≠ .normal data := by
  rw [records_foldl_apply, append_right_eq_self, filterMap_eq_nil_iff]
  apply forall₂_congr
  intro entry _
  cases entry.payload <;> simp

@[simp]
theorem lastApplied_apply (entry : RaftEntry) :
    (machine.apply entry).lastApplied = some entry.logId := by
  cases payload : entry.payload <;> simp [apply, payload]

theorem membership_foldl_congr {other : StateMachine}
    (same : other.membership = machine.membership) :
    (entries.foldl apply other).membership = (entries.foldl apply machine).membership := by
  induction entries generalizing machine other with
  | nil => exact same
  | cons entry rest ih =>
    apply ih
    cases payload : entry.payload <;> simp [apply, payload, same]

theorem membership_foldl_eq_iff
    (newer : ∀ entry ∈ entries, machine.membership.logId ≠ some entry.logId) :
    (entries.foldl apply machine).membership = machine.membership ↔
      ∀ entry ∈ entries, ∀ members, entry.payload ≠ .membership members := by
  induction entries using reverseRecOn with
  | nil => simp
  | append_singleton before final ih =>
    rw [foldl_concat]
    have kept := ih fun entry isIn => newer entry (mem_append_left _ isIn)
    cases payload : final.payload with
    | membership members =>
      have changed := newer final (by simp)
      apply iff_of_false
      · intro same
        rw [← same] at changed
        simp [apply, payload] at changed
      · exact fun absent => absent final (by simp) members payload
    | _ => simpa [apply, payload, or_imp, forall_and] using kept

end StateMachine

structure SnapshotMeta where
  lastLogId : Option LogId := none
  lastMembership : StoredMembership := {}
  snapshotId : String := ""
  deriving DecidableEq

inductive AppliedMark
  | single (id : LogId)
  /-- `install_snapshot` serializes `Some` of an option. -/
  | nested (id : Option LogId)

/-- What `bincode` reads where one option is expected and two were written, and
how `openraft` prints an id. -/
class RaftHost where
  readNested : Option LogId → Option (Option LogId)
  showLogId : LogId → String

def AppliedMark.read [RaftHost] : AppliedMark → Option (Option LogId)
  | .single id => some (some id)
  | .nested id => RaftHost.readNested id

structure SledRaftStore where
  log : List RaftEntry := []
  applied : Option (List Bytes) := none
  lastApplied : Option AppliedMark := none
  lastMembership : Option StoredMembership := none
  snapshotData : Option Bytes := none
  snapshotMeta : Option SnapshotMeta := none

namespace SledRaftStore

def appliedRecords (store : SledRaftStore) : List Bytes := store.applied.getD []

def membership (store : SledRaftStore) : StoredMembership := store.lastMembership.getD {}

/-- `none`: the marker does not deserialize. -/
def lastAppliedState [RaftHost] (store : SledRaftStore) :
    Option (Option LogId × StoredMembership) :=
  (store.lastApplied.elim (some none) AppliedMark.read).map fun last => (last, store.membership)

def applyLoop (store : SledRaftStore) (entries : List RaftEntry) : StateMachine :=
  entries.foldl StateMachine.apply ⟨store.appliedRecords, none, store.membership⟩

/-- The inserts of `apply_to_state_machine`, in their order. -/
def applyInserts (store : SledRaftStore) (entries : List RaftEntry) :
    List (SledRaftStore → SledRaftStore) :=
  let machine := store.applyLoop entries
  let marker : Option (SledRaftStore → SledRaftStore) :=
    machine.lastApplied.map fun id trees => { trees with lastApplied := some (.single id) }
  (fun trees => { trees with applied := some machine.records }) :: marker.toList ++
    [fun trees => { trees with lastMembership := some machine.membership }]

def applyToStateMachine (store : SledRaftStore) (entries : List RaftEntry) : SledRaftStore :=
  apply (store.applyInserts entries) store

/-- The trees when the process stops after so many inserts. -/
def crashedApply (store : SledRaftStore) (entries : List RaftEntry) (inserts : Nat) :
    SledRaftStore :=
  apply ((store.applyInserts entries).take inserts) store

def entriesAfter (last : Option LogId) (entries : List RaftEntry) : List RaftEntry :=
  entries.filter fun entry => last.all fun id => id.index < entry.logId.index

/-- After the crash the store reports a last applied entry, and applying the
entries after it gives the records and the membership of the whole list. -/
def AgreesAfterCrash [RaftHost] (store : SledRaftStore) (entries : List RaftEntry)
    (inserts : Nat) : Prop :=
  ∃ state ∈ (store.crashedApply entries inserts).lastAppliedState,
    let redone :=
      (store.crashedApply entries inserts).applyToStateMachine (entriesAfter state.1 entries)
    redone.appliedRecords = (store.applyToStateMachine entries).appliedRecords ∧
      redone.membership = (store.applyToStateMachine entries).membership

/-- The entries come after everything that the store has applied. -/
structure Follows [RaftHost] (store : SledRaftStore) (entries : List RaftEntry) : Prop where
  ascending : entries.Pairwise (·.logId.index < ·.logId.index)
  above : ∃ state ∈ store.lastAppliedState, entriesAfter state.1 entries = entries
  newer : ∀ entry ∈ entries, store.membership.logId ≠ some entry.logId

variable {store : SledRaftStore} {entries : List RaftEntry}

theorem data_applyToStateMachine :
    (store.applyToStateMachine entries).appliedRecords = (store.applyLoop entries).records ∧
      (store.applyToStateMachine entries).membership = (store.applyLoop entries).membership := by
  cases marked : (store.applyLoop entries).lastApplied <;>
    simp [applyToStateMachine, applyInserts, marked, apply, appliedRecords, membership]

theorem crashedApply_cells (inserts : Nat) : (store.crashedApply entries inserts).appliedRecords =
        (if inserts = 0 then store else store.applyToStateMachine entries).appliedRecords ∧
      (store.crashedApply entries inserts).lastApplied =
        (if inserts < 2 then store else store.applyToStateMachine entries).lastApplied ∧
      (store.crashedApply entries inserts).membership =
        (if inserts < 3 then store else store.applyToStateMachine entries).membership := by
  rcases eq_nil_or_concat' entries with rfl | ⟨before, final, rfl⟩
  · rcases inserts with _ | _ | _ | inserts <;> exact ⟨rfl, rfl, rfl⟩
  · have marked : (store.applyLoop (before ++ [final])).lastApplied = some final.logId := by
      simp [applyLoop]
    rcases inserts with _ | _ | _ | inserts <;>
      simp +arith [crashedApply, applyToStateMachine, applyInserts, apply, marked,
        appliedRecords, membership]

theorem entriesAfter_last {last : RaftEntry} {before : List RaftEntry}
    (ascending : (before ++ [last]).Pairwise (·.logId.index < ·.logId.index)) :
    entriesAfter (some last.logId) (before ++ [last]) = [] := by
  rw [pairwise_append] at ascending
  simp only [entriesAfter, filter_eq_nil_iff, mem_append, mem_singleton]
  rintro entry (isBefore | rfl)
  · simpa using UInt64.le_of_lt (ascending.2.2 entry isBefore last (mem_singleton_self last))
  · simp

/-- The restarted store reports the old state until the marker is written, and
then no entry is left to apply. -/
theorem entriesAfter_crashedApply [RaftHost] (follows : store.Follows entries) (inserts : Nat) :
    ∃ state ∈ (store.crashedApply entries inserts).lastAppliedState,
      entriesAfter state.1 entries = if inserts < 2 then entries else [] := by
  obtain ⟨ascending, ⟨state, readable, all⟩, -⟩ := follows
  obtain ⟨-, marker, -⟩ := @crashedApply_cells store entries inserts
  simp only [lastAppliedState, mem_def, map_eq_some_iff] at readable ⊢
  obtain ⟨last, read, rfl⟩ := readable
  rw [marker]
  by_cases early : inserts < 2
  · rw [if_pos early, if_pos early]
    exact ⟨_, ⟨last, read, rfl⟩, all⟩
  · rw [if_neg early, if_neg early]
    rcases eq_nil_or_concat' entries with rfl | ⟨before, final, rfl⟩
    · exact ⟨_, ⟨last, read, rfl⟩, rfl⟩
    · refine ⟨_, ⟨some final.logId, ?_, rfl⟩, entriesAfter_last ascending⟩
      simp [applyToStateMachine, applyInserts, apply, applyLoop, AppliedMark.read]

/-- After a crash between the inserts the entries above the marker bring the data
to where they were going, unless one of them is done twice or lost. -/
theorem agreesAfterCrash_iff [RaftHost] (follows : store.Follows entries) (inserts : Nat) :
    store.AgreesAfterCrash entries inserts ↔
      (inserts = 1 → ∀ entry ∈ entries, ∀ data, entry.payload ≠ .normal data) ∧
        (inserts = 2 → ∀ entry ∈ entries, ∀ members, entry.payload ≠ .membership members) := by
  obtain ⟨state, read, left⟩ := entriesAfter_crashedApply follows inserts
  obtain ⟨records, -, members⟩ := @crashedApply_cells store entries inserts
  have agrees : store.AgreesAfterCrash entries inserts ↔
      let redone := (if inserts < 2 then entries else []).foldl StateMachine.apply
        ⟨(if inserts = 0 then store else store.applyToStateMachine entries).appliedRecords, none,
          (if inserts < 3 then store else store.applyToStateMachine entries).membership⟩
      redone.records = (store.applyLoop entries).records ∧
        redone.membership = (store.applyLoop entries).membership := by
    simp only [AgreesAfterCrash, data_applyToStateMachine]
    rw [← left, ← records, ← members]
    constructor
    · rintro ⟨other, read', same⟩
      cases mem_unique read read'
      exact same
    · exact fun same => ⟨state, read, same⟩
  rw [agrees]
  match inserts with
  | 0 => simp [applyLoop]
  | 1 =>
    -- The records are there and the marker is not: every entry is applied again.
    have members : (entries.foldl StateMachine.apply
        ⟨(store.applyLoop entries).records, none, store.membership⟩).membership =
          (store.applyLoop entries).membership :=
      StateMachine.membership_foldl_congr rfl
    simp [data_applyToStateMachine, members, StateMachine.records_foldl_eq_iff]
  | 2 =>
    have kept : (store.applyLoop entries).membership = store.membership ↔ _ :=
      StateMachine.membership_foldl_eq_iff follows.newer
    simpa [data_applyToStateMachine, eq_comm] using kept
  | n + 3 => simp +arith [data_applyToStateMachine]

end SledRaftStore

namespace Example

instance : RaftHost := ⟨fun _ => none, fun _ => ""⟩

def firstEntry : RaftEntry :=
  { logId := ⟨1, 0, 1⟩, payload := .normal [7] }

theorem follows_firstEntry : ({} : SledRaftStore).Follows [firstEntry] where
  ascending := pairwise_singleton ..
  above := ⟨_, rfl, rfl⟩
  newer := fun _ _ => nofun

theorem firstEntry_applied_once : ({} : SledRaftStore).Follows [firstEntry] ∧
      ({} : SledRaftStore).AgreesAfterCrash [firstEntry] 2 :=
  ⟨follows_firstEntry, (SledRaftStore.agreesAfterCrash_iff follows_firstEntry 2).mpr
    ⟨nofun, by simp [firstEntry]⟩⟩

theorem firstEntry_applied_twice : ¬ ({} : SledRaftStore).AgreesAfterCrash [firstEntry] 1 := by
  rintro ⟨state, read, records, -⟩
  cases read
  revert records
  decide

end Example

/-! ## The in-memory store -/

open StateMachine

structure LogState where
  lastPurgedLogId : Option LogId
  lastLogId : Option LogId
  deriving DecidableEq

/-- Both logs are ordered maps over the index. -/
def insertEntry (entry : RaftEntry) : List RaftEntry → List RaftEntry
  | [] => [entry]
  | first :: rest =>
    if entry.logId.index < first.logId.index then entry :: first :: rest
    else if entry.logId.index = first.logId.index then entry :: rest
    else first :: insertEntry entry rest

def appendEntriesTo (log entries : List RaftEntry) : List RaftEntry :=
  entries.foldl (fun log entry => insertEntry entry log) log

def lastLogIdOf (log : List RaftEntry) : Option LogId := log.getLast?.map RaftEntry.logId

def encodeSnapshot (records : List Bytes) : Bytes :=
  records.flatMap fun record => toLeBytes (UInt64.ofNat record.length) ++ record

/-- The loop at a position; `none`: the end of a record overflows, a panic. -/
def decodeSnapshotFrom (data : Bytes) (pos : Nat) : Option (List Bytes) :=
  if pos + 8 ≤ data.length then
    let length := (fromLeBytes ((data.drop pos).take 8)).toNat
    if 2 ^ 64 ≤ pos + 8 + length then none
    else if data.length < pos + 8 + length then some []
    else
      (decodeSnapshotFrom data (pos + 8 + length)).map (((data.drop (pos + 8)).take length) :: ·)
  else some []
termination_by data.length - pos

def decodeSnapshot (data : Bytes) : Option (List Bytes) := decodeSnapshotFrom data 0

inductive StoreOp
  | appendToLog (entries : List RaftEntry)
  | deleteConflictLogsSince (logId : LogId)
  | purgeLogsUpto (logId : LogId)
  | applyToStateMachine (entries : List RaftEntry)
  | buildSnapshot
  | installSnapshot (info : SnapshotMeta) (data : Bytes)
  | getLogState
  | lastAppliedState
  | getCurrentSnapshot

inductive StoreAnswer
  | done
  | logState (state : LogState)
  | lastApplied (last : Option LogId) (members : StoredMembership)
  | snapshot (cur : Option (SnapshotMeta × Bytes))
  /-- A storage error or a panic. -/
  | failed
  deriving DecidableEq

structure MemStore where
  lastPurgedLogId : Option LogId := none
  log : List RaftEntry := []
  machine : StateMachine := ⟨[], none, {}⟩
  snapshot : Option (SnapshotMeta × Bytes) := none

def MemStore.snapshotId [RaftHost] (machine : StateMachine) : String :=
  match machine.lastApplied with
  | some id =>
    "snap-" ++ RaftHost.showLogId id ++ "-n" ++ toString machine.records.length
  | none => "snap-empty"

def MemStore.perform [RaftHost] (store : MemStore) : StoreOp → StoreAnswer × MemStore
  | .appendToLog entries => (.done, { store with log := appendEntriesTo store.log entries })
  | .deleteConflictLogsSince logId =>
    (.done, { store with log := store.log.filter (·.logId.index < logId.index) })
  | .purgeLogsUpto logId =>
    (.done,
      { store with
        log := store.log.filter (logId.index < ·.logId.index)
        lastPurgedLogId := some logId })
  | .applyToStateMachine entries =>
    (.done, { store with machine := entries.foldl apply store.machine })
  | .buildSnapshot =>
    let info : SnapshotMeta :=
      ⟨store.machine.lastApplied, store.machine.membership, snapshotId store.machine⟩
    (.snapshot (some (info, encodeSnapshot store.machine.records)), store)
  | .installSnapshot info data =>
    match decodeSnapshot data with
    | none => (.failed, store)
    | some records =>
      (.done,
        { store with
          machine := ⟨records, info.lastLogId, info.lastMembership⟩
          snapshot := some (info, data) })
  | .getLogState =>
    (.logState ⟨store.lastPurgedLogId, (lastLogIdOf store.log).or store.lastPurgedLogId⟩, store)
  | .lastAppliedState => (.lastApplied store.machine.lastApplied store.machine.membership, store)
  | .getCurrentSnapshot => (.snapshot store.snapshot, store)

def SledRaftStore.perform [RaftHost] (store : SledRaftStore) :
    StoreOp → StoreAnswer × SledRaftStore
  | .appendToLog entries => (.done, { store with log := appendEntriesTo store.log entries })
  | .deleteConflictLogsSince logId =>
    (.done, { store with log := store.log.filter (·.logId.index < logId.index) })
  | .purgeLogsUpto logId =>
    -- The bound of the range is a saturating `index + 1`.
    let bound := min (logId.index.toNat + 1) (2 ^ 64 - 1)
    (.done, { store with log := store.log.filter (bound ≤ ·.logId.index.toNat) })
  | .applyToStateMachine entries => (.done, store.applyToStateMachine entries)
  | .buildSnapshot =>
    match store.lastAppliedState with
    | none => (.failed, store)
    | some (last, members) =>
      let info : SnapshotMeta := ⟨last, members, "sled-snapshot"⟩
      let data := encodeSnapshot store.appliedRecords
      (.snapshot (some (info, data)),
        { store with snapshotData := some data, snapshotMeta := some info })
  | .installSnapshot info data =>
    match decodeSnapshot data with
    | none => (.failed, store)
    | some records =>
      (.done,
        { store with
          applied := some records
          lastApplied := some (.nested info.lastLogId)
          lastMembership := some info.lastMembership
          snapshotData := some data
          snapshotMeta := some info })
  | .getLogState => (.logState ⟨none, lastLogIdOf store.log⟩, store)
  | .lastAppliedState =>
    (store.lastAppliedState.elim .failed fun (last, members) => .lastApplied last members, store)
  | .getCurrentSnapshot =>
    let data := store.snapshotData.getD []
    (.snapshot (if data.isEmpty then none else some (store.snapshotMeta.getD {}, data)), store)

def answersOf {σ : Type} (perform : σ → StoreOp → StoreAnswer × σ) : σ → List StoreOp →
    List StoreAnswer
  | _, [] => []
  | store, op :: rest => (perform store op).1 :: answersOf perform (perform store op).2 rest

def AppliedMark.written : AppliedMark → Option LogId
  | .single id => some id
  | .nested id => id

/-- The operation does not show what the stores keep differently. -/
def Harmless [RaftHost] (mem : MemStore) (sled : SledRaftStore) : StoreOp → Prop
  | .buildSnapshot => False
  | .getLogState => mem.lastPurgedLogId = none
  | .lastAppliedState => ∀ mark ∈ sled.lastApplied, mark.read = some mark.written
  | .getCurrentSnapshot => ∀ info, mem.snapshot ≠ some (info, [])
  | _ => True

def HarmlessRun [RaftHost] : MemStore → SledRaftStore → List StoreOp → Prop
  | _, _, [] => True
  | mem, sled, op :: rest =>
    Harmless mem sled op ∧ HarmlessRun (mem.perform op).2 (sled.perform op).2 rest

structure Simulates (mem : MemStore) (sled : SledRaftStore) : Prop where
  log : mem.lastPurgedLogId = none → sled.log = mem.log
  records : sled.appliedRecords = mem.machine.records
  marker : sled.lastApplied.bind AppliedMark.written = mem.machine.lastApplied
  membership : sled.membership = mem.machine.membership
  data : sled.snapshotData = mem.snapshot.map Prod.snd
  info : sled.snapshotMeta = mem.snapshot.map Prod.fst

variable {mem : MemStore} {sled : SledRaftStore}

theorem SledRaftStore.applyToStateMachine_cells {entries : List RaftEntry} :
    (sled.applyToStateMachine entries).log = sled.log ∧
      (sled.applyToStateMachine entries).snapshotData = sled.snapshotData ∧
      (sled.applyToStateMachine entries).snapshotMeta = sled.snapshotMeta ∧
      (sled.applyToStateMachine entries).lastApplied =
        ((sled.applyLoop entries).lastApplied.map .single).or sled.lastApplied := by
  cases marked : (sled.applyLoop entries).lastApplied <;>
    simp [applyToStateMachine, applyInserts, marked, CrashPoints.apply]

theorem Simulates.perform [RaftHost] (simulates : Simulates mem sled) {op : StoreOp}
    (other : op ≠ .buildSnapshot) : Simulates (mem.perform op).2 (sled.perform op).2 := by
  obtain ⟨log, records, marker, membership, data, info⟩ := simulates
  cases op with
  | buildSnapshot => exact absurd rfl other
  | appendToLog entries =>
    exact ⟨fun kept => congrArg (appendEntriesTo · entries) (log kept), records, marker,
      membership, data, info⟩
  | deleteConflictLogsSince logId =>
    exact ⟨fun kept => congrArg (filter _) (log kept), records, marker, membership, data, info⟩
  | purgeLogsUpto logId => exact ⟨nofun, records, marker, membership, data, info⟩
  | installSnapshot installed bytes =>
    simp only [MemStore.perform, SledRaftStore.perform]
    cases decodeSnapshot bytes with
    | none => exact ⟨log, records, marker, membership, data, info⟩
    | some decoded => exact ⟨log, rfl, rfl, rfl, rfl, rfl⟩
  | applyToStateMachine entries =>
    obtain ⟨sameLog, sameData, sameInfo, mark⟩ := @sled.applyToStateMachine_cells entries
    obtain ⟨newRecords, newMembership⟩ := @sled.data_applyToStateMachine entries
    refine ⟨fun kept => sameLog.trans (log kept), newRecords.trans ?_, ?_,
      newMembership.trans (membership_foldl_congr membership),
      sameData.trans data, sameInfo.trans info⟩
    · exact (records_foldl_apply.trans (congrArg (· ++ _) records)).trans records_foldl_apply.symm
    · show bind (sled.applyToStateMachine entries).lastApplied _ = _
      rw [mark]
      rcases eq_nil_or_concat' entries with rfl | ⟨before, final, rfl⟩
      · exact marker
      · simp [MemStore.perform, SledRaftStore.applyLoop, AppliedMark.written]
  | getLogState | lastAppliedState | getCurrentSnapshot =>
    exact ⟨log, records, marker, membership, data, info⟩

theorem MemStore.snapshotId_ne [RaftHost] (machine : StateMachine) :
    snapshotId machine ≠ "sled-snapshot" := by
  intro same
  have second := congrArg (fun id : String => id.toList[1]?) same
  cases applied : machine.lastApplied <;> simp [snapshotId, applied] at second

theorem Simulates.answer_iff [RaftHost] (simulates : Simulates mem sled) (op : StoreOp) :
    (mem.perform op).1 = (sled.perform op).1 ↔ Harmless mem sled op := by
  obtain ⟨log, records, marker, membership, data, info⟩ := simulates
  cases op with
  | getLogState =>
    simp only [MemStore.perform, SledRaftStore.perform, Harmless, StoreAnswer.logState.injEq,
      LogState.mk.injEq]
    exact ⟨And.left, fun kept => ⟨kept, by rw [log kept, kept, or_none]⟩⟩
  | lastAppliedState =>
    simp only [MemStore.perform, SledRaftStore.perform, Harmless, SledRaftStore.lastAppliedState]
    rw [← marker, ← membership]
    cases sled.lastApplied with
    | none => simp
    | some mark => cases read : mark.read <;> simp [read, eq_comm]
  | getCurrentSnapshot =>
    simp only [MemStore.perform, SledRaftStore.perform, Harmless, data, info]
    cases mem.snapshot with
    | none => simp
    | some cur => 
      obtain ⟨stored, bytes⟩ := cur
      cases bytes <;> simp
  | buildSnapshot =>
    simp only [MemStore.perform, SledRaftStore.perform, Harmless, iff_false]
    cases sled.lastAppliedState <;> simp [MemStore.snapshotId_ne]
  | installSnapshot installed bytes =>
    simp only [MemStore.perform, SledRaftStore.perform, Harmless, iff_true]
    cases decodeSnapshot bytes <;> rfl
  | _ => exact iff_of_true rfl trivial

theorem answersOf_eq_iff [RaftHost] (simulates : Simulates mem sled) (ops : List StoreOp) :
    answersOf MemStore.perform mem ops = answersOf SledRaftStore.perform sled ops ↔
      HarmlessRun mem sled ops := by
  induction ops generalizing mem sled with
  | nil => exact iff_of_true rfl trivial
  | cons op rest ih =>
    rw [answersOf, answersOf, HarmlessRun, cons_eq_cons, simulates.answer_iff op]
    apply and_congr_right
    intro harmless
    apply ih
    apply simulates.perform
    rintro rfl
    exact harmless

/-- Two new stores answer a run of operations alike exactly when none of them
shows a difference. -/
theorem sledRaftStore_answers_iff [RaftHost] (ops : List StoreOp) :
    answersOf MemStore.perform {} ops = answersOf SledRaftStore.perform {} ops ↔
      HarmlessRun {} {} ops :=
  answersOf_eq_iff ⟨fun _ => rfl, rfl, rfl, rfl, rfl, rfl⟩ ops

/-- An entry is appended, purged, and asked for. -/
theorem Example.purge_is_not_reported :
    let ops : List StoreOp :=
      [.appendToLog [⟨⟨1, 0, 4⟩, .blank⟩], .purgeLogsUpto ⟨1, 0, 4⟩, .getLogState]
    answersOf MemStore.perform {} ops ≠ answersOf SledRaftStore.perform {} ops := by
  decide

/-! ## Snapshots as bytes -/

/-- Bytes begin with complete records: eight bytes for a length and so many
bytes for each. -/
inductive Framed : Bytes → List Bytes → Bytes → Prop
  | nil (rest : Bytes) : Framed rest [] rest
  | cons {field record data rest : Bytes} {records : List Bytes} : field.length = 8 →
      (fromLeBytes field).toNat = record.length → Framed data records rest →
      Framed (field ++ (record ++ data)) (record :: records) rest

/-- The length field at the front of some bytes. -/
def recordLength (bytes : Bytes) : Nat := (fromLeBytes (bytes.take 8)).toNat

/-- The records and nothing that is a complete record behind them. -/
def CompleteRecords (data : Bytes) (records : List Bytes) : Prop :=
  ∃ rest, Framed data records rest ∧ (8 ≤ rest.length → rest.length < 8 + recordLength rest)

/-- No length field behind complete records reaches beyond 64 bits. -/
def LengthsFit (data : Bytes) : Prop :=
  ∀ records rest, Framed data records rest → 8 ≤ rest.length →
    data.length - rest.length + 8 + recordLength rest < 2 ^ 64

variable {data rest : Bytes} {records : List Bytes} {pos : Nat}

theorem framed_encodeSnapshot (fits : (encodeSnapshot records).length < 2 ^ 64) :
    Framed (encodeSnapshot records) records [] := by
  induction records with
  | nil => exact .nil []
  | cons record records ih =>
    have split : encodeSnapshot (record :: records) =
        toLeBytes (UInt64.ofNat record.length) ++ (record ++ encodeSnapshot records) :=
      flatMap_cons.trans (append_assoc ..)
    rw [split] at fits ⊢
    rw [length_append, length_append] at fits
    refine .cons (length_toLeBytes _) ?_ (ih (by omega))
    rw [fromLeBytes_toLeBytes]
    exact Nat.mod_eq_of_lt (by omega)

/-- Complete records are read one after another. -/
theorem Framed.decode (framed : Framed (data.drop pos) records rest) (fits : data.length < 2 ^ 64)
    (inside : pos ≤ data.length) : data.drop (data.length - rest.length) = rest ∧
    decodeSnapshotFrom data pos =
      (decodeSnapshotFrom data (data.length - rest.length)).map (records ++ ·) := by
  generalize left : data.drop pos = bytes at framed
  induction framed generalizing pos with
  | nil rest =>
    rw [← left, length_drop, Nat.sub_sub_self inside]
    simp
  | @cons field record bytes rest records eight isLength framed ih =>
    have size := congrArg length left
    simp only [length_drop, length_append] at size
    have behind : data.drop (pos + 8) = record ++ bytes := by
      rw [← drop_drop, left, drop_left' eight]
    have next : data.drop (pos + 8 + record.length) = bytes := by
      rw [← drop_drop, behind, drop_left]
    obtain ⟨suffix, later⟩ := @ih (pos + 8 + record.length) (by omega) next
    refine ⟨suffix, ?_⟩
    rw [decodeSnapshotFrom, if_pos (by omega), left, take_left' eight, isLength, if_neg (by omega),
      if_neg (by omega), behind, take_left, later, Option.map_map]
    rfl

theorem decodeSnapshotFrom_cases (inside : pos ≤ data.length) :
    (∃ records, decodeSnapshotFrom data pos = some records ∧
      CompleteRecords (data.drop pos) records) ∨
    ∃ records rest, Framed (data.drop pos) records rest ∧ 8 ≤ rest.length ∧
      2 ^ 64 ≤ data.length - rest.length + 8 + recordLength rest := by
  fun_induction decodeSnapshotFrom data pos with
  | case1 pos more length overflows =>
    refine .inr ⟨[], _, .nil _, ?_, ?_⟩
    · rw [length_drop]
      omega
    · rw [length_drop, Nat.sub_sub_self inside]
      exact overflows
  | case2 pos more length fits short =>
    refine .inl ⟨[], rfl, _, .nil _, fun _ => ?_⟩
    rw [length_drop]
    exact Nat.sub_lt_left_of_lt_add inside (Nat.add_assoc .. ▸ short)
  | case3 pos more length fits whole ih =>
    have parts : data.drop pos = (data.drop pos).take 8 ++
        ((data.drop (pos + 8)).take length ++ data.drop (pos + 8 + length)) := by
      rw [← drop_drop (j := pos + 8), take_append_drop, ← drop_drop, take_append_drop]
    have field : ((data.drop pos).take 8).length = 8 := by
      rw [length_take, length_drop]
      omega
    have isLength : length = ((data.drop (pos + 8)).take length).length := by
      rw [length_take, length_drop]
      omega
    have longer {records rest} (framed : Framed (data.drop (pos + 8 + length)) records rest) :
        Framed (data.drop pos) ((data.drop (pos + 8)).take length :: records) rest := by
      rw [parts]
      exact .cons field isLength framed
    rcases ih (Nat.le_of_not_lt whole) with ⟨records, decoded, rest, framed, stops⟩ |
      ⟨records, rest, framed, overflows⟩
    · exact .inl ⟨_, congrArg (Option.map _) decoded, rest, longer framed, stops⟩
    · exact .inr ⟨_, rest, longer framed, overflows⟩
  | case4 pos ends =>
    refine .inl ⟨[], rfl, _, .nil _, fun more => ?_⟩
    rw [length_drop] at more
    omega

/-- Decoding inverts encoding, and it returns the complete records of some
bytes exactly if their length fields fit. -/
theorem decodeSnapshot_inverse (fits : data.length < 2 ^ 64) :
    (∀ records, data = encodeSnapshot records → decodeSnapshot data = some records) ∧
      ((∃ records, decodeSnapshot data = some records ∧ CompleteRecords data records) ↔
        LengthsFit data) := by
  refine ⟨?_, ?_, ?_⟩
  · rintro records rfl
    have framed : Framed ((encodeSnapshot records).drop 0) records [] := framed_encodeSnapshot fits
    unfold decodeSnapshot
    rw [(framed.decode fits (Nat.zero_le _)).2, decodeSnapshotFrom, if_neg (by simp)]
    exact congrArg some (append_nil records)
  · rintro ⟨records, decoded, -⟩ others rest framed more
    obtain ⟨suffix, read⟩ := @Framed.decode data rest others 0 framed fits (Nat.zero_le _)
    have size := congrArg length suffix
    rw [length_drop] at size
    by_contra overflows
    have panics : decodeSnapshotFrom data (data.length - rest.length) = none := by
      rw [decodeSnapshotFrom, suffix, if_pos (by omega)]
      exact if_pos (Nat.le_of_not_lt overflows)
    rw [panics] at read
    cases decoded.symm.trans read
  · intro lengths
    rcases decodeSnapshotFrom_cases (Nat.zero_le data.length) with returned |
      ⟨records, rest, framed, more, overflows⟩
    · exact returned
    · exact absurd (lengths records rest framed more) (Nat.not_lt.mpr overflows)

theorem decodeSnapshot_inverse_two :
    decodeSnapshot (encodeSnapshot [[7], []]) = some [[7], []] :=
  (decodeSnapshot_inverse (by decide)).1 _ rfl

/-- Eight bytes 255: the end of the record is beyond 64 bits, a panic. -/
theorem decodeSnapshot_overflows : decodeSnapshot (replicate 8 255) = none := by
  rw [decodeSnapshot, decodeSnapshotFrom, if_pos (by decide)]
  exact if_pos (by decide)

end TurboGP.Storage
