import Mathlib.Data.List.Dedup
import TurboGP.Engine.LoggedEngine

/-!
# Replay grouped by transaction

`replay_wal` of `storage/recovery.rs` executes the records outside transactions
first and then the transactions that committed, in the order in which a hash
map lists them.
-/

namespace TurboGP.Engine

open Storage (WalRecord)
open Sql.Text List

structure ReplayStats where
  replayed : Nat
  skipped : Nat
  errors : Nat
  errorMessages : List String

def ReplayStats.default : ReplayStats :=
  { replayed := 0, skipped := 0, errors := 0, errorMessages := [] }

def isMarker (record : WalRecord) : Bool :=
  record.isCommit || record.isRollback || (trim record.sql).isEmpty

def executeControl (host : SqlHost) (depth : Nat) (sql : List Char) : SqlM Unit := fun engine =>
  match execute host depth sql engine with
  | .ok _ next => .ok () next
  | .error (.error _) next => .ok () next
  | .error fault next => .error fault next

def executeRecord (host : SqlHost) (depth : Nat) (stats : ReplayStats)
    (record : WalRecord) : SqlM ReplayStats := fun engine =>
  match execute host depth record.sql engine with
  | .ok _ next => .ok { stats with replayed := stats.replayed + 1 } next
  | .error (.error error) next =>
    .ok
      { stats with
        errors := stats.errors + 1
        errorMessages := stats.errorMessages ++ ["replay error: " ++ displayError error] }
      next
  | .error fault next => .error fault next

def replayStatement (host : SqlHost) (depth : Nat) (stats : ReplayStats)
    (record : WalRecord) : SqlM ReplayStats :=
  if isMarker record then pure stats
  else executeRecord host depth stats record

/-- One value of the map `txn_records`; 0 stands for
`autocommit_records`. -/
def recordsOf (records : List WalRecord) (id : UInt64) : List WalRecord :=
  records.filter fun record => record.txnId == id

def txnIds (records : List WalRecord) : List UInt64 :=
  ((records.map WalRecord.txnId).filter fun id => id != 0).dedup

structure MapOrder (records : List WalRecord) where
  ids : List UInt64
  perm : ids.Perm (txnIds records)

/-- `committed && !rolled_back`. -/
def isCommitted (own : List WalRecord) : Bool :=
  own.any WalRecord.isCommit && !own.any WalRecord.isRollback

def replayTxn (host : SqlHost) (depth : Nat) (records : List WalRecord)
    (stats : ReplayStats) (id : UInt64) : SqlM ReplayStats :=
  if isCommitted (recordsOf records id) then do
    executeControl host depth "BEGIN".toList
    let after ← (recordsOf records id).foldlM (replayStatement host depth) stats
    executeControl host depth "COMMIT".toList
    pure after
  else
    pure { stats with skipped := stats.skipped + 1 }

def replayWal (host : SqlHost) (depth : Nat) (records : List WalRecord)
    (order : MapOrder records) : SqlM ReplayStats := do
  let stats ← (recordsOf records 0).foldlM (replayStatement host depth) .default
  order.ids.foldlM (replayTxn host depth records) stats

/-- What `replay_wal` does next; `item` is a record or one with a mark. -/
inductive ReplayCall (α : Type)
  | control (sql : List Char)
  | statement (item : α)
  | skip

namespace ReplayCall

variable {α : Type} (recordOf : α → WalRecord)

def run (host : SqlHost) (depth : Nat) (stats : ReplayStats) : ReplayCall α → SqlM ReplayStats
  | control sql => do
    executeControl host depth sql
    pure stats
  | statement item => executeRecord host depth stats (recordOf item)
  | skip => pure { stats with skipped := stats.skipped + 1 }

def executed : ReplayCall α → Option α
  | statement item => some item
  | _ => none

def statements (items : List α) (id : UInt64) : List α :=
  items.filter fun item =>
    (recordOf item).txnId == id && !isMarker (recordOf item)

def ofTxn (items : List α) (id : UInt64) : List (ReplayCall α) :=
  if isCommitted (recordsOf (items.map recordOf) id) then
    control "BEGIN".toList :: (statements recordOf items id).map statement ++
      [control "COMMIT".toList]
  else
    [skip]

def ofLog (items : List α) (ids : List UInt64) : List (ReplayCall α) :=
  (statements recordOf items 0).map statement ++ ids.flatMap (ofTxn recordOf items)

variable {host : SqlHost} {depth : Nat}

theorem foldlM_replayStatement (items : List α) (id : UInt64) (stats : ReplayStats) :
    (recordsOf (items.map recordOf) id).foldlM (replayStatement host depth) stats =
      ((statements recordOf items id).map statement).foldlM (run recordOf host depth) stats := by
  induction items generalizing stats with
  | nil => rfl
  | cons item rest ih =>
    unfold recordsOf statements at ih ⊢
    rw [map_cons, filter_cons, filter_cons]
    by_cases own : ((recordOf item).txnId == id) = true
    · rw [if_pos own, foldlM_cons]
      cases marker : isMarker (recordOf item) with
      | true =>
        rw [if_neg (by rw [own]; decide), replayStatement, if_pos marker, pure_bind]
        exact ih stats
      | false =>
        rw [if_pos (by rw [own]; rfl), map_cons, foldlM_cons,
          replayStatement, if_neg (by rw [marker]; decide)]
        exact bind_congr ih
    · have skipped : ((recordOf item).txnId == id && !isMarker (recordOf item)) ≠ true := by
        rw [Bool.eq_false_iff.mpr own, Bool.false_and]
        decide
      rw [if_neg own, if_neg skipped]
      exact ih stats

theorem replayTxn_eq (items : List α) (id : UInt64) (stats : ReplayStats) :
    replayTxn host depth (items.map recordOf) stats id =
      (ofTxn recordOf items id).foldlM (run recordOf host depth) stats := by
  unfold replayTxn ofTxn
  by_cases committed : isCommitted (recordsOf (items.map recordOf) id)
  · rw [if_pos committed, if_pos committed, cons_append,
      foldlM_cons, foldlM_replayStatement]
    simp only [run, bind_assoc, pure_bind, foldlM_append, foldlM_cons, foldlM_nil]
  · rw [if_neg committed, if_neg committed, foldlM_cons]
    simp only [run, pure_bind, foldlM_nil]

theorem foldlM_replayTxn (items : List α) (ids : List UInt64) (stats : ReplayStats) :
    ids.foldlM (replayTxn host depth (items.map recordOf)) stats =
      (ids.flatMap (ofTxn recordOf items)).foldlM (run recordOf host depth) stats := by
  induction ids generalizing stats with
  | nil => rfl
  | cons id rest ih =>
    rw [foldlM_cons, flatMap_cons, foldlM_append, replayTxn_eq]
    exact bind_congr ih

theorem replayWal_eq {records : List WalRecord} (order : MapOrder records)
    {items : List α} (same : items.map recordOf = records) :
    replayWal host depth records order =
      (ofLog recordOf items order.ids).foldlM (run recordOf host depth) .default := by
  subst same
  unfold replayWal ofLog
  rw [foldlM_append, foldlM_replayStatement]
  exact bind_congr (foldlM_replayTxn recordOf items order.ids)

theorem executed_ofLog (items : List α) (ids : List UInt64) :
    (ofLog recordOf items ids).filterMap executed = statements recordOf items 0 ++
        (ids.filter fun id => isCommitted (recordsOf (items.map recordOf) id)).flatMap
          (statements recordOf items) := by
  have ofStatements (list : List α) : (list.map statement).filterMap executed = list := by
    rw [filterMap_map]
    exact filterMap_some
  have ofTxns : (ids.flatMap (ofTxn recordOf items)).filterMap executed = (ids.filter fun id =>
            isCommitted (recordsOf (items.map recordOf) id)).flatMap
          (statements recordOf items) := by
    induction ids with
    | nil => rfl
    | cons id rest ih =>
      rw [flatMap_cons, filterMap_append, ih, filter_cons, ofTxn]
      by_cases committed : isCommitted (recordsOf (items.map recordOf) id)
      · rw [if_pos committed, if_pos committed, flatMap_cons,
          filterMap_append, filterMap_cons, ofStatements]
        simp [executed]
      · rw [if_neg committed, if_neg committed]
        rfl
  rw [ofLog, filterMap_append, ofStatements, ofTxns]

end ReplayCall

def commitMarker (records : List WalRecord) (id : UInt64) : Nat :=
  records.findIdx fun record => record.isCommit && record.txnId == id

def commitPoint (records : List WalRecord) (item : WalRecord × Nat) : Nat :=
  if item.1.txnId = 0 then item.2
  else commitMarker records item.1.txnId

def executedItems (records : List WalRecord) (order : MapOrder records) : List (WalRecord × Nat) :=
  (ReplayCall.ofLog Prod.fst records.zipIdx order.ids).filterMap ReplayCall.executed

/-- No statement is executed before one of a unit that committed earlier. -/
def KeepsCommitOrder (records : List WalRecord) (order : MapOrder records) : Prop :=
  (executedItems records order).Pairwise fun first second =>
    commitPoint records first ≤ commitPoint records second

def hasEffect (records : List WalRecord) (id : UInt64) : Bool :=
  isCommitted (recordsOf records id) && (recordsOf records id).any fun record => !isMarker record

/-- All statements outside transactions come before the first commit of a
transaction, and the map lists the transactions as they committed. -/
structure InPasses (records : List WalRecord) (order : MapOrder records) : Prop where
  autocommitFirst : ∀ record position, (record, position) ∈ records.zipIdx →
      record.txnId = 0 → isMarker record = false →
      ∀ id ∈ order.ids, hasEffect records id = true → position ≤ commitMarker records id
  listed : (order.ids.filter (hasEffect records)).Pairwise fun first second =>
      commitMarker records first ≤ commitMarker records second

section

variable {records : List WalRecord} {order : MapOrder records}
  {item : WalRecord × Nat} {id : UInt64}

abbrev statementsAt (records : List WalRecord) (id : UInt64) : List (WalRecord × Nat) :=
  ReplayCall.statements Prod.fst records.zipIdx id

theorem mem_statementsAt : item ∈ statementsAt records id ↔
      item ∈ records.zipIdx ∧ item.1.txnId = id ∧ isMarker item.1 = false := by
  unfold statementsAt ReplayCall.statements
  rw [mem_filter, Bool.and_eq_true, beq_iff_eq, Bool.not_eq_true']

theorem ne_zero_of_mem_ids (mem : id ∈ order.ids) : id ≠ 0 := by
  have inMap := order.perm.mem_iff.mp mem
  unfold txnIds at inMap
  rw [mem_dedup, mem_filter, bne_iff_ne] at inMap
  exact inMap.2

theorem commitPoint_autocommit (mem : item ∈ statementsAt records 0) :
    commitPoint records item = item.2 :=
  if_pos (mem_statementsAt.mp mem).2.1

theorem commitPoint_txn (listed : id ∈ order.ids) (mem : item ∈ statementsAt records id) :
    commitPoint records item = commitMarker records id := by
  obtain ⟨-, rfl, -⟩ := mem_statementsAt.mp mem
  exact if_neg (ne_zero_of_mem_ids listed)

theorem hasEffect_iff : hasEffect records id = true ↔
      isCommitted (recordsOf records id) = true ∧ ∃ item, item ∈ statementsAt records id := by
  unfold hasEffect
  rw [Bool.and_eq_true, any_eq_true]
  refine and_congr_right fun _ => ?_
  constructor
  · rintro ⟨record, mem, stmt⟩
    obtain ⟨inLog, own⟩ := mem_filter.mp mem
    obtain ⟨pos, inside, isRecord⟩ := mem_iff_getElem.mp inLog
    refine ⟨(record, pos), mem_statementsAt.mpr ⟨?_, ?_, ?_⟩⟩
    · rw [mem_zipIdx_iff_getElem?, getElem?_eq_getElem inside, isRecord]
    · exact beq_iff_eq.mp own
    · exact (Bool.not_eq_true' _).mp stmt
  · rintro ⟨⟨record, pos⟩, mem⟩
    obtain ⟨inLog, own, stmt⟩ := mem_statementsAt.mp mem
    have isRecord := mem_zipIdx_iff_getElem?.mp inLog
    refine ⟨record, mem_filter.mpr ⟨?_, ?_⟩, ?_⟩
    · exact mem_of_getElem? isRecord
    · exact beq_iff_eq.mpr own
    · exact (Bool.not_eq_true' _).mpr stmt

theorem pairwise_autocommit : (statementsAt records 0).Pairwise fun first second =>
      commitPoint records first ≤ commitPoint records second := by
  have positions : records.zipIdx.Pairwise fun first second => first.2 < second.2 := by
    rw [← pairwise_map, zipIdx_map_snd]
    exact pairwise_lt_range'
  refine (positions.filter _).imp_of_mem ?_
  intro first second inFirst inSecond before
  rw [commitPoint_autocommit inFirst, commitPoint_autocommit inSecond]
  exact before.le

theorem keepsCommitOrder_iff : KeepsCommitOrder records order ↔ InPasses records order := by
  unfold KeepsCommitOrder executedItems
  rw [ReplayCall.executed_ofLog, zipIdx_map_fst, pairwise_append, pairwise_flatMap]
  constructor
  · rintro ⟨-, ⟨-, groups⟩, across⟩
    constructor
    · intro record pos inLog zero stmt id listed effect
      obtain ⟨committed, item, mem⟩ := hasEffect_iff.mp effect
      have inFirst : (record, pos) ∈ statementsAt records 0 :=
        mem_statementsAt.mpr ⟨inLog, zero, stmt⟩
      have inSecond : item ∈ (order.ids.filter fun id => isCommitted (recordsOf records id)).flatMap
            (statementsAt records) :=
        mem_flatMap.mpr ⟨id, mem_filter.mpr ⟨listed, committed⟩, mem⟩
      have before := across _ inFirst item inSecond
      rwa [commitPoint_autocommit inFirst, commitPoint_txn listed mem] at before
    · rw [pairwise_filter] at groups ⊢
      refine groups.imp_of_mem ?_
      intro first second listedFirst listedSecond ordered effectFirst effectSecond
      obtain ⟨committedFirst, one, inFirst⟩ := hasEffect_iff.mp effectFirst
      obtain ⟨committedSecond, other, inSecond⟩ := hasEffect_iff.mp effectSecond
      have before := ordered committedFirst committedSecond one inFirst other inSecond
      rwa [commitPoint_txn listedFirst inFirst, commitPoint_txn listedSecond inSecond] at before
  · intro passes
    refine ⟨pairwise_autocommit, ⟨?_, ?_⟩, ?_⟩
    · -- Within a transaction there is one commit point.
      intro id mem
      have listed := (mem_filter.mp mem).1
      refine pairwise_of_forall_mem_list ?_
      intro first inFirst second inSecond
      rw [commitPoint_txn listed inFirst, commitPoint_txn listed inSecond]
    · have inOrder := passes.listed
      rw [pairwise_filter] at inOrder ⊢
      refine inOrder.imp_of_mem ?_
      intro first second listedFirst listedSecond ordered committedFirst
        committedSecond one inFirst other inSecond
      rw [commitPoint_txn listedFirst inFirst, commitPoint_txn listedSecond inSecond]
      exact ordered (hasEffect_iff.mpr ⟨committedFirst, one, inFirst⟩)
        (hasEffect_iff.mpr ⟨committedSecond, other, inSecond⟩)
    · intro first inFirst second inSecond
      obtain ⟨id, mem, inUnit⟩ := mem_flatMap.mp inSecond
      obtain ⟨listed, committed⟩ := mem_filter.mp mem
      obtain ⟨inLog, zero, stmt⟩ := mem_statementsAt.mp inFirst
      rw [commitPoint_autocommit inFirst, commitPoint_txn listed inUnit]
      exact passes.autocommitFirst first.1 first.2 inLog zero stmt id
        listed (hasEffect_iff.mpr ⟨committed, second, inUnit⟩)

end

/-- For every log and every order of the map: the replay executes these
records one after the other, and in the order of the commit points if and only
if the log and the map have them in the order of the passes. -/
theorem replayWal_keeps_commit_order_iff
    (host : SqlHost) (depth : Nat) (records : List WalRecord) (order : MapOrder records) :
    replayWal host depth records order = (ReplayCall.ofLog Prod.fst records.zipIdx order.ids).foldlM
          (ReplayCall.run Prod.fst host depth) .default ∧
      (KeepsCommitOrder records order ↔ InPasses records order) :=
  ⟨ReplayCall.replayWal_eq Prod.fst order (zipIdx_map_fst 0 records), keepsCommitOrder_iff⟩

namespace Example

def statementAfterCommit : LoggedRun :=
  ([beginText, insertText, commitText, insertText].foldlM
    (LoggedRun.accept insertHost 1) (LoggedRun.start mvccEngine)).get rfl

def recordsAfterCommit : List WalRecord := statementAfterCommit.state.log.map LogEntry.record

def onlyOrder : MapOrder recordsAfterCommit :=
  { ids := [1], perm := .refl _ }

/-- The statement after the COMMIT, at position 3, is executed first. -/
theorem later_statement_executed_first : recordsAfterCommit =
        [.begin 1, .txnDml 1 insertText, .commit 1, .autocommit insertText] ∧
      (executedItems recordsAfterCommit onlyOrder).map Prod.snd = [3, 1] ∧
      (executedItems recordsAfterCommit onlyOrder).map (commitPoint recordsAfterCommit) = [3, 2] ∧
      ¬ KeepsCommitOrder recordsAfterCommit onlyOrder := by
  refine ⟨rfl, rfl, rfl, ?_⟩
  intro keeps
  have ordered := pairwise_map.mpr keeps
  have points : (executedItems recordsAfterCommit onlyOrder).map
      (commitPoint recordsAfterCommit) = [3, 2] := rfl
  revert ordered
  decide

end Example

end TurboGP.Engine
