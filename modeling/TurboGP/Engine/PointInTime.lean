import TurboGP.Engine.Recovery

/-!
# Point-in-time recovery

`replay_wal_to_timestamp` of `storage/replication.rs` executes a log up to a
target time.
-/

namespace TurboGP.Engine

open Storage (WalRecord)
open List

structure TimestampedWalRecord where
  record : WalRecord
  timestampUs : UInt64
  deriving DecidableEq

def applyWalRecord (host : SqlHost) (depth : Nat) (record : WalRecord) : SqlM Unit := fun engine =>
  if record.sql.isEmpty then .ok () engine
  else
    match execute host depth record.sql engine with
    | .ok _ next => .ok () next
    | .error (.error cause) next =>
      .error (.error (.other ("replay WAL record: " ++ displayError cause))) next
    | .error fault next => .error fault next

/-- The number of records replayed, markers included. -/
def replayWalToTimestamp (host : SqlHost) (depth : Nat) (target : UInt64) :
    List TimestampedWalRecord → SqlM Nat
  | [] => pure 0
  | stamped :: rest =>
    if target < stamped.timestampUs then pure 0
    else do
      applyWalRecord host depth stamped.record
      let replayed ← replayWalToTimestamp host depth target rest
      return replayed + 1

variable (target : UInt64) (records : List TimestampedWalRecord)

def inTime : List TimestampedWalRecord := records.takeWhile (·.timestampUs ≤ target)

def behindTarget : List TimestampedWalRecord := records.dropWhile (·.timestampUs ≤ target)

def isCommittedBy (txnId : UInt64) : Bool :=
  records.any fun stamped =>
    stamped.record.isCommit && stamped.record.txnId == txnId && stamped.timestampUs ≤ target

/-- What a recovery to the target time has to execute: autocommit statements
up to it, and those of the transactions that commit up to it. -/
def isDue (stamped : TimestampedWalRecord) : Bool :=
  if stamped.record.txnId = 0 then stamped.timestampUs ≤ target
  else isCommittedBy target records stamped.record.txnId

def hasSql (stamped : TimestampedWalRecord) : Bool := !stamped.record.sql.isEmpty

def executedRecords : List TimestampedWalRecord := (inTime target records).filter hasSql

def dueRecords : List TimestampedWalRecord :=
  records.filter fun stamped => hasSql stamped && isDue target records stamped

theorem replayWalToTimestamp_eq (host : SqlHost) (depth : Nat) :
    replayWalToTimestamp host depth target records = do
      (executedRecords target records).forM fun stamped => applyWalRecord host depth stamped.record
      return (inTime target records).length := by
  induction records with
  | nil => rfl
  | cons stamped rest ih =>
    by_cases late : target < stamped.timestampUs
    · have none : inTime target (stamped :: rest) = [] := by
        simpa [inTime] using UInt64.not_le.mpr late
      simp [replayWalToTimestamp, executedRecords, none, late]
    · have first : inTime target (stamped :: rest) = stamped :: inTime target rest :=
        takeWhile_cons_of_pos (by simpa using UInt64.not_lt.mp late)
      simp only [executedRecords] at ih ⊢
      by_cases empty : stamped.record.sql = []
      · have skips : applyWalRecord host depth stamped.record = pure () := by
          funext engine
          simp [applyWalRecord, empty]
          rfl
        simp [replayWalToTimestamp, first, late, ih, hasSql, empty, skips]
      · have text : hasSql stamped = true := by simp [hasSql, empty]
        simp [replayWalToTimestamp, first, late, ih, text]

private theorem filter_eq_filter_append_iff {α : Type} {kept due : α → Bool} {first rest : List α} :
    first.filter kept = (first ++ rest).filter (fun item => kept item && due item) ↔
      (∀ item ∈ first, kept item = true → due item = true) ∧
        ∀ item ∈ rest, kept item = true → due item = false := by
  have ofFirst (all : ∀ item ∈ first, kept item = true → due item = true) :
      first.filter (fun item => kept item && due item) = first.filter kept := by
    apply filter_congr
    intro item isIn
    cases isKept : kept item with
    | false => rfl
    | true => simpa using all item isIn isKept
  rw [filter_append]
  constructor
  · intro same
    have all : ∀ item ∈ first, kept item = true → due item = true := by
      intro item isIn isKept
      have isDue := mem_filter.mpr ⟨isIn, isKept⟩
      rw [same, ← filter_append] at isDue
      exact (Bool.and_eq_true_iff.mp (mem_filter.mp isDue).2).2
    rw [ofFirst all, self_eq_append_right, filter_eq_nil_iff] at same
    exact ⟨all, by simpa using same⟩
  · rintro ⟨all, none⟩
    rw [ofFirst all, self_eq_append_right, filter_eq_nil_iff]
    simpa using none

/-- The replay executes the records in time, one after the other; these are the
due ones exactly when every transaction among them commits in time and nothing
behind the first late record is due. -/
theorem replayWalToTimestamp_due_iff :
    (∀ host depth, replayWalToTimestamp host depth target records = do
      (executedRecords target records).forM fun stamped => applyWalRecord host depth stamped.record
      return (inTime target records).length) ∧
    (executedRecords target records = dueRecords target records ↔
      (∀ stamped ∈ inTime target records, hasSql stamped = true →
        stamped.record.txnId ≠ 0 → isCommittedBy target records stamped.record.txnId = true) ∧
      ∀ stamped ∈ behindTarget target records, hasSql stamped = true →
        isDue target records stamped = false) := by
  refine ⟨replayWalToTimestamp_eq target records, ?_⟩
  have split : records = inTime target records ++ behindTarget target records :=
    takeWhile_append_dropWhile.symm
  have due : dueRecords target records =
      (inTime target records ++ behindTarget target records).filter
        fun stamped => hasSql stamped && isDue target records stamped := by
    rw [← split, dueRecords]
  rw [due, executedRecords, filter_eq_filter_append_iff]
  apply and_congr_left'
  apply forall₂_congr
  intro stamped isIn
  have early : stamped.timestampUs ≤ target := by
    simpa using mem_takeWhile_imp isIn
  by_cases autocommit : stamped.record.txnId = 0 <;> simp [isDue, autocommit, early]

namespace Example

def openTransactionLog : List TimestampedWalRecord :=
  [⟨.begin 1, 1⟩, ⟨.txnDml 1 "INSERT INTO t VALUES (1)".toList, 2⟩]

theorem uncommitted_insert_executed :
    (∀ host depth, replayWalToTimestamp host depth 5 openTransactionLog = do
      applyWalRecord host depth (.txnDml 1 "INSERT INTO t VALUES (1)".toList)
      return 2) ∧
      dueRecords 5 openTransactionLog = [] := by
  constructor
  · intro host depth
    have ran : executedRecords 5 openTransactionLog =
        [⟨.txnDml 1 "INSERT INTO t VALUES (1)".toList, 2⟩] := by decide
    rw [replayWalToTimestamp_eq, ran]
    simp [inTime, openTransactionLog]
  · decide

end Example

end TurboGP.Engine
