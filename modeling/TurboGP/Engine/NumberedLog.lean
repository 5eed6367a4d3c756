import TurboGP.Engine.LoggedEngine

/-! # Logs of numbered transactions -/

namespace TurboGP.Engine

open Sql Sql.Text Effect TxnLog List

def BegunBelow (nextId : Nat) (id : UInt64) : Prop := ∃ n, 0 < n ∧ n < nextId ∧ id = UInt64.ofNat n

/-- The log of a process that gives the number `nextId` next, while the
transaction `opened` is open. -/
structure IdsTracked (nextId : Nat) (opened : Option Nat)
    (log : List LogEntry) (ledger : Ledger UInt64 (List Char)) :
    Prop where
  room : nextId ≤ 2 ^ 64
  positive : 0 < nextId
  active : ∀ id, opened = some id → 0 < id ∧ id < nextId
  current : ledger.current = opened.map UInt64.ofNat
  tracks : Tracks log ledger
  begun : ∀ id, id ∈ owners log ∨ id ∈ committed log → BegunBelow nextId id
  proper : ∀ entry ∈ log, LogEntry.Proper entry

namespace IdsTracked

variable {nextId : Nat} {opened : Option Nat} {log : List LogEntry}
  {ledger : Ledger UInt64 (List Char)}

theorem start (room : nextId ≤ 2 ^ 64) (pos : 0 < nextId) : IdsTracked nextId none [] .empty := by
  constructor
  · exact room
  · exact pos
  · rintro id ⟨⟩
  · rfl
  · exact .nil none
  · rintro id (owned | committed)
    · cases owned
    · cases committed
  · exact forall_mem_nil _

theorem grown (tracked : IdsTracked nextId opened log ledger)
    {newId : Nat} {newOpened : Option Nat} {entry : LogEntry}
    {newLedger : Ledger UInt64 (List Char)} (room : newId ≤ 2 ^ 64) (grows : nextId ≤ newId)
    (active : ∀ id, newOpened = some id → 0 < id ∧ id < newId)
    (current : newLedger.current = newOpened.map UInt64.ofNat)
    (tracks : Tracks (log ++ [entry]) newLedger)
    (begun : ∀ id, entry.owner = some id ∨ entry.commitId = some id → BegunBelow newId id)
    (proper : LogEntry.Proper entry) : IdsTracked newId newOpened (log ++ [entry]) newLedger := by
  constructor
  · exact room
  · exact Nat.lt_of_lt_of_le tracked.positive grows
  · exact active
  · exact current
  · exact tracks
  · intro id mem
    rw [owners_append, committed_append, mem_append, mem_append] at mem
    rw [or_or_or_comm] at mem
    rcases mem with before | inEntry
    · obtain ⟨n, pos, less, isId⟩ := tracked.begun id before
      exact ⟨n, pos, Nat.lt_of_lt_of_le less grows, isId⟩
    · refine begun id ?_
      simpa [owners, committed] using inEntry
  · rw [forall_mem_append, forall_mem_singleton]
    exact ⟨tracked.proper, proper⟩

theorem begin (tracked : IdsTracked nextId opened log ledger) (room : nextId < 2 ^ 64) :
    IdsTracked (nextId + 1) (some nextId) (log ++ [.begin (UInt64.ofNat nextId)])
      { ledger with
        current := some (UInt64.ofNat nextId)
        pending := [] } := by
  have isNew : ∀ id, BegunBelow nextId id → id ≠ UInt64.ofNat nextId := by
    rintro id ⟨n, -, less, rfl⟩ same
    have equal := ofNat_inj_of_lt (Nat.lt_trans less room) room same
    omega
  refine tracked.grown room (Nat.le_succ _) ?_ rfl ?_ ?_ ?_
  · rintro id ⟨⟩
    exact ⟨tracked.positive, Nat.lt_succ_self _⟩
  · exact tracked.tracks.begin (fun mem => isNew _ (tracked.begun _ (.inr mem)) rfl)
      (fun mem => isNew _ (tracked.begun _ (.inl mem)) rfl)
  · rintro id (owned | committed)
    · cases owned
    · cases committed
  · exact ofNat_ne_zero tracked.positive room

theorem commit {id : Nat} (tracked : IdsTracked nextId (some id) log ledger) :
    IdsTracked nextId none (log ++ [.commit (UInt64.ofNat id)])
      { current := none, kept := ledger.kept ++ ledger.pending, pending := [] } := by
  obtain ⟨pos, less⟩ := tracked.active id rfl
  refine tracked.grown tracked.room (Nat.le_refl _) ?_ rfl ?_ ?_ ?_
  · rintro other ⟨⟩
  · exact tracked.tracks.commit tracked.current
  · rintro other (owned | isCommit)
    · cases owned
    · cases isCommit
      exact ⟨id, pos, less, rfl⟩
  · exact ofNat_ne_zero pos (Nat.lt_of_lt_of_le less tracked.room)

theorem rollback {id : Nat} (tracked : IdsTracked nextId (some id) log ledger) :
    IdsTracked nextId none (log ++ [.rollback (UInt64.ofNat id)])
      { ledger with current := none, pending := [] } := by
  obtain ⟨pos, less⟩ := tracked.active id rfl
  refine tracked.grown tracked.room (Nat.le_refl _) ?_ rfl ?_ ?_ ?_
  · rintro other ⟨⟩
  · exact tracked.tracks.rollback
  · rintro other (owned | isCommit)
    · cases owned
    · cases isCommit
  · exact ofNat_ne_zero pos (Nat.lt_of_lt_of_le less tracked.room)

theorem dml (tracked : IdsTracked nextId opened log ledger)
    {host : SqlHost} {sql : List Char} {stmt : DmlStatement}
    (text : ParsedDml host sql stmt) {engine : SqlEngine}
    (isOpen : engine.openId = opened) (after : Option UInt64) :
    IdsTracked nextId opened (log ++ entriesOf host engine sql)
      (recorded (host.kind sql) after sql ledger) := by
  have current : ledger.current = engine.openId.map UInt64.ofNat := by
    rw [isOpen]
    exact tracked.current
  obtain ⟨tracks, sameCurrent⟩ := text.tracks after tracked.tracks current
  rw [text.entriesOf_eq, isOpen] at tracks ⊢
  refine tracked.grown tracked.room (Nat.le_refl _) tracked.active
    (sameCurrent.trans tracked.current) tracks ?_ ?_
  · rintro id (owned | isCommit)
    · obtain ⟨n, isOpened, rfl⟩ := Option.map_eq_some_iff.mp owned
      obtain ⟨pos, less⟩ := tracked.active n isOpened
      exact ⟨n, pos, less, rfl⟩
    · cases isCommit
  · refine ⟨?_, text.nonempty⟩
    intro isZero
    obtain ⟨n, isOpened, zero⟩ := Option.map_eq_some_iff.mp isZero
    obtain ⟨pos, less⟩ := tracked.active n isOpened
    exact ofNat_ne_zero pos (Nat.lt_of_lt_of_le less tracked.room) zero

end IdsTracked

structure SnapshotTracked (engine : SqlEngine) (log : List LogEntry)
    (ledger : Ledger UInt64 (List Char)) : Prop where
  mode : engine.mvccEnabled = false
  ids : IdsTracked engine.txnManager.nextId (engine.txnManager.active.map Transaction.id) log ledger

namespace SnapshotTracked

variable {host : SqlHost} {depth : Nat} {sql : List Char}
  {engine next : SqlEngine} {log : List LogEntry}
  {ledger : Ledger UInt64 (List Char)} {res : QueryResult}
  {fault : Fault}

theorem start (mode : engine.mvccEnabled = false) (isNew : engine.txnManager = .new) :
    SnapshotTracked engine [] .empty := by
  refine ⟨mode, ?_⟩
  rw [isNew]
  exact .start (by decide) (by decide)

variable (tracked : SnapshotTracked engine log ledger)

include tracked

theorem sameTransaction (same : SameTransaction engine next) : SnapshotTracked next log ledger := by
  refine ⟨same.sameMode.trans tracked.mode, ?_⟩
  rw [same.sameNextId, same.sameId]
  exact tracked.ids

theorem begin (kind : host.kind sql = .begin) (room : engine.txnManager.nextId < 2 ^ 64)
    (ran : execute host depth sql engine = .ok res next) :
    SnapshotTracked next (log ++ entriesOf host engine sql)
      (recorded (host.kind sql) (next.openId.map UInt64.ofNat) sql ledger) := by
  rw [openId_of_begin kind tracked.mode ran, entriesOf_begin kind tracked.mode, kind]
  obtain ⟨-, rfl⟩ := execute_begin kind tracked.mode ran
  exact ⟨tracked.mode, tracked.ids.begin room⟩

theorem commit (kind : host.kind sql = .commit)
    (ran : execute host depth sql engine = .ok res next) :
    SnapshotTracked next (log ++ entriesOf host engine sql)
      (recorded (host.kind sql) (next.openId.map UInt64.ofNat) sql ledger) := by
  obtain ⟨txn, active, rfl⟩ := execute_commit kind tracked.mode ran
  have ids := tracked.ids
  rw [active] at ids
  refine ⟨tracked.mode, ?_⟩
  rw [entriesOf_commit kind tracked.mode active, kind]
  exact ids.commit

theorem rollback (kind : host.kind sql = .rollback)
    (ran : execute host depth sql engine = .ok res next) :
    SnapshotTracked next (log ++ entriesOf host engine sql)
      (recorded (host.kind sql) (next.openId.map UInt64.ofNat) sql ledger) := by
  obtain ⟨txn, active, rfl⟩ := execute_rollback kind tracked.mode ran
  have ids := tracked.ids
  rw [active] at ids
  refine ⟨tracked.mode, ?_⟩
  rw [entriesOf_rollback kind tracked.mode active, kind]
  exact ids.rollback

theorem accepted (text : TransactionText host sql)
    (room : host.kind sql = .begin → engine.txnManager.nextId < 2 ^ 64)
    (ran : execute host (depth + 1) sql engine = .ok res next) :
    SnapshotTracked next (log ++ entriesOf host engine sql)
      (recorded (host.kind sql) (next.openId.map UInt64.ofNat) sql ledger) := by
  cases text with
  | begin kind => exact tracked.begin kind (room kind) ran
  | commit kind => exact tracked.commit kind ran
  | rollback kind => exact tracked.rollback kind ran
  | dml stmt text =>
    have same := Moves.reached (sameTransaction_dml text tracked.mode) ran
    refine ⟨same.sameMode.trans tracked.mode, ?_⟩
    rw [same.sameNextId, same.sameId]
    exact tracked.ids.dml text (openId_snapshot tracked.mode) _

end SnapshotTracked

end TurboGP.Engine
