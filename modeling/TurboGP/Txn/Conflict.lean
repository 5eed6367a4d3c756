import TurboGP.Txn.WriteEffect

/-! # First committer wins -/

namespace TurboGP.Txn

open VersionChain MvccTxnManager GuardedRun List Option

inductive TxnEvent
  | began (txnId : Nat)
  | committed (txnId : Nat)
  | wrote (txnId rowIdx : Nat)
  deriving DecidableEq, Repr

/-- What a call adds to the log: a write is logged when it returns `Ok` on a
row its transaction sees. -/
def MvccWorld.events (world : MvccWorld) : MvccAction → List TxnEvent
  | .beginWithIsolation level => [.began (world.mgr.beginWithIsolation level).1.id]
  | .commit txn => [.committed txn.id]
  | .update txn rowIdx newValues =>
    if (world.mgr.updateWithConflictCheck world.table txn rowIdx newValues).isOk &&
        (world.mgr.shownRow world.table txn rowIdx).isSome then
      [.wrote txn.id rowIdx]
    else []
  | .delete txn rowIdx =>
    if (world.mgr.deleteWithConflictCheck world.table txn rowIdx).isOk &&
        (world.mgr.shownRow world.table txn rowIdx).isSome then
      [.wrote txn.id rowIdx]
    else []
  | _ => []

structure LoggedWorld where
  world : MvccWorld
  log : List TxnEvent
  deriving DecidableEq

namespace LoggedWorld

def Initial (logged : LoggedWorld) : Prop := logged.world.Initial ∧ logged.log = []

def step (logged : LoggedWorld) (action : MvccAction) : Option LoggedWorld :=
  (logged.world.step action).map fun next =>
    { world := next, log := logged.log ++ logged.world.events action }

def SnapshotStep (_ : LoggedWorld) (action : MvccAction) : Prop :=
  match action with
  | .beginWithIsolation level => level = .repeatableRead ∨ level = .serializable
  | .cleanupAborted => False
  | _ => True

instance (logged : LoggedWorld) (action : MvccAction) :
    Decidable (logged.SnapshotStep action) :=
  match action with
  | .beginWithIsolation level =>
    inferInstanceAs (Decidable (level = .repeatableRead ∨ level = .serializable))
  | .cleanupAborted => inferInstanceAs (Decidable False)
  | .commit _ | .rollback _ | .insert _ _ | .update _ _ _ | .delete _ _
  | .vacuum => inferInstanceAs (Decidable True)

/-- Two transactions that both commit, each begun before the other's commit,
with accepted writes of the same row. -/
def LostUpdate (log : List TxnEvent) : Prop :=
  ∃ first second rowIdx, first ≠ second ∧
    .wrote first rowIdx ∈ log ∧ .wrote second rowIdx ∈ log ∧
    [.began first, .committed second].Sublist log ∧
    [.began second, .committed first].Sublist log

end LoggedWorld

namespace MvccWorld

variable {world : MvccWorld} {txn : MvccTransaction}

/-- The version a write reads carries no deletion mark of a rolled-back
transaction; a row without such a version has no open last version that the
write would go to instead. -/
def OrderlyTarget (world : MvccWorld) (txn : MvccTransaction) (rowIdx : Nat) : Prop :=
  (∀ version ∈ world.mgr.shownRow world.table txn rowIdx,
      ∀ xmax ∈ version.xmax, ¬ world.RolledBack xmax) ∧
    (world.mgr.shownRow world.table txn rowIdx = none → ¬ world.table.LastOpen rowIdx)

instance (world : MvccWorld) (txn : MvccTransaction) (rowIdx : Nat) :
    Decidable (world.OrderlyTarget txn rowIdx) :=
  inferInstanceAs (Decidable (_ ∧ _))

/-- The effect of `writer` is settled for `reader`: rolled back, or committed
in its snapshot. -/
def Settled (world : MvccWorld) (writer : Nat) (reader : MvccTransaction) : Prop :=
  world.RolledBack writer ∨
    ∃ cid, world.mgr.txnStates.lookup writer = some (.committed cid) ∧ cid ≤ reader.snapshotId

variable {action : MvccAction} {rowIdx : Nat}

variable {writer txnId : Nat} {reader : MvccTransaction} {version : RowVersion}

theorem Settled.apply (inv : world.Consistent)
    (admissible : ∀ txn, action.author = some txn → world.Running txn)
    (mem : reader ∈ world.begun) (settled : world.Settled writer reader) :
    (world.apply action).Settled writer reader := by
  rcases settled with rolledBack | ⟨cid, committed, inSnapshot⟩
  · exact .inl (rolledBack.apply inv admissible)
  · have past : cid ≤ world.mgr.commitId :=
      le_trans inSnapshot (inv.manager.snapshotLe reader mem)
    exact .inr
      ⟨cid, (lookup_committed_apply inv admissible past writer).mpr committed, inSnapshot⟩

theorem Settled.trans {middle : MvccTransaction} {cid : Nat}
    (inv : world.Consistent) (settled : world.Settled writer middle) (mem : middle ∈ world.begun)
    (committed : world.mgr.txnStates.lookup middle.id = some (.committed cid))
    (inSnapshot : cid ≤ reader.snapshotId) : world.Settled writer reader := by
  rcases settled with rolledBack | ⟨earlier, writerCommitted, below⟩
  · exact .inl rolledBack
  · refine .inr ⟨earlier, writerCommitted, ?_⟩
    have between := (inv.manager.committedBetween middle mem cid committed).1
    omega

theorem OrderlyTarget.shown_is_last (consistent : world.Consistent)
    (orderly : world.OrderlyTarget txn rowIdx)
    (accepted : world.mgr.checkWriteConflict world.table txn rowIdx = .ok ())
    (shown : world.mgr.shownRow world.table txn rowIdx = some version) :
    version.xmax = none ∧ ∃ older, world.table.rows[rowIdx]? = some (older ++ [version]) := by
  obtain ⟨chain, held, mem, visible⟩ := shownRow_eq_some shown
  have inv := consistent.chains chain (mem_of_getElem? held)
  have opened : version.xmax = none := by
    cases deleted : version.xmax with
    | none => rfl
    | some xmax =>
      have notOwn : xmax ≠ txn.id := by
        intro own
        have seen := (visible_iff_sees version).mp visible
        exact seen.2 xmax deleted (.inl own)
      have notRolledBack := orderly.1 version shown xmax deleted
      have gone := checkWriteConflict_eq_ok_iff.mp accepted version shown xmax deleted
      rcases gone with own | gone
      · exact absurd own notOwn
      · exact absurd ⟨inv.deleter version mem xmax deleted, gone⟩ notRolledBack
  obtain ⟨older, rfl⟩ := inv.open_is_last mem opened
  exact ⟨opened, older, held⟩

theorem OrderlyTarget.open_is_shown {older : List RowVersion}
    (inv : world.Consistent) (orderly : world.OrderlyTarget txn rowIdx)
    (accepted : world.mgr.checkWriteConflict world.table txn rowIdx = .ok ())
    (held : world.table.rows[rowIdx]? = some (older ++ [version])) (opened : version.xmax = none) :
    world.mgr.shownRow world.table txn rowIdx = some version := by
  cases shown : world.mgr.shownRow world.table txn rowIdx with
  | none => exact absurd ⟨older, version, held, opened⟩ (orderly.2 shown)
  | some found =>
    obtain ⟨-, others, samePresent⟩ := orderly.shown_is_last inv accepted shown
    rw [held, some.injEq] at samePresent
    have sameLast := (append_inj' samePresent rfl).2
    rw [singleton_inj.mp sameLast]

theorem mem_begun_of_hasBegun (inv : world.Consistent)
    (mem : txn ∈ (world.apply action).begun) (begun : HasBegun world.begun txn.id) :
    txn ∈ world.begun := by
  obtain ⟨other, otherMember, sameId⟩ := begun
  rw [apply_begun] at mem
  split at mem
  · rcases mem_append.mp mem with old | isNew
    · exact old
    · have below := (inv.manager.idBelow other otherMember).2
      rw [mem_singleton] at isNew
      rw [sameId, isNew] at below
      exact absurd below (Nat.lt_irrefl _)
  · exact mem

theorem began_mem_events_iff : .began txnId ∈ world.events action ↔
      txnId = world.mgr.nextTxnId ∧ ∃ level, action = .beginWithIsolation level := by
  cases action with
  | beginWithIsolation level => simp [events, beginWithIsolation]
  | update author rowIdx newValues | delete author rowIdx =>
    simp only [events]
    split <;> simp
  | _ => simp [events]

theorem committed_mem_events_iff :
    .committed txnId ∈ world.events action ↔ ∃ txn, action = .commit txn ∧ txn.id = txnId := by
  cases action with
  | commit author => simp [events, eq_comm]
  | update author rowIdx newValues | delete author rowIdx =>
    simp only [events]
    split <;> simp
  | _ => simp [events]

theorem wrote_mem_events (mem : .wrote txnId rowIdx ∈ world.events action) :
    ∃ txn version, action.target = some (txn, rowIdx) ∧ txn.id = txnId ∧
      world.mgr.checkWriteConflict world.table txn rowIdx = .ok () ∧
      world.mgr.shownRow world.table txn rowIdx = some version := by
  cases action with
  | update author row _ | delete author row =>
    simp only [events] at mem
    split at mem
    · next logged =>
      rw [Bool.and_eq_true, isSome_iff_exists] at logged
      obtain ⟨accepted, version, shown⟩ := logged
      obtain ⟨rfl, rfl⟩ := TxnEvent.wrote.inj (mem_singleton.mp mem)
      exact ⟨author, version, rfl, rfl, checked_of_isOk accepted, shown⟩
    · cases mem
  | _ => simp [events] at mem

theorem events_length_le (world : MvccWorld) (action : MvccAction) :
    (world.events action).length ≤ 1 := by
  cases action with
  | update author rowIdx newValues | delete author rowIdx =>
    simp only [events]
    split <;> simp
  | _ => simp [events]

end MvccWorld

namespace LoggedWorld

open MvccWorld

/-- A call of a snapshot-isolated client whose writes are orderly. -/
def OrderlyStep (logged : LoggedWorld) (action : MvccAction) : Prop :=
  logged.SnapshotStep action ∧
    ∀ target ∈ action.target, logged.world.OrderlyTarget target.1 target.2

instance (logged : LoggedWorld) (action : MvccAction) :
    Decidable (logged.OrderlyStep action) :=
  inferInstanceAs (Decidable (_ ∧ _))

/-- What holds of a world and its log along orderly runs. -/
structure WriteOrder (logged : LoggedWorld) : Prop where
  consistent : logged.world.Consistent
  snapshotLevel : ∀ txn ∈ logged.world.begun, txn.isolationLevel ≠ .readUncommitted
  began : ∀ txnId, .began txnId ∈ logged.log → HasBegun logged.world.begun txnId
  committed : ∀ txnId, .committed txnId ∈ logged.log →
      ∃ cid, logged.world.mgr.txnStates.lookup txnId = some (.committed cid)
  commitsAfter : ∀ txn ∈ logged.world.begun, ∀ other cid,
      [.began txn.id, .committed other].Sublist logged.log →
      logged.world.mgr.txnStates.lookup other = some (.committed cid) → txn.snapshotId < cid
  writer : ∀ txnId rowIdx, .wrote txnId rowIdx ∈ logged.log →
      HasBegun logged.world.begun txnId ∧ rowIdx < logged.world.table.rows.length
  openVersion : ∀ rowIdx older version,
      logged.world.table.rows[rowIdx]? = some (older ++ [version]) →
      version.xmax = none →
        ∀ writer, .wrote writer rowIdx ∈ logged.log →
        writer = version.xmin ∨
          ∀ creator ∈ logged.world.begun,
            creator.id = version.xmin → logged.world.Settled writer creator
  ordered : ∀ first ∈ logged.world.begun, ∀ second ∈ logged.world.begun, first.id ≠ second.id →
    ∀ rowIdx, .wrote first.id rowIdx ∈ logged.log →
    .wrote second.id rowIdx ∈ logged.log →
    logged.world.Settled first.id second ∨ logged.world.Settled second.id first

theorem writeOrder_initial {logged : LoggedWorld} (initially : logged.Initial) :
    logged.WriteOrder := by
  obtain ⟨worldInitial, emptyLog⟩ := initially
  have consistent := consistent_initial worldInitial
  have nothingBegun : logged.world.begun = [] := by
    obtain ⟨name, columnNames, isInitial⟩ := worldInitial
    rw [isInitial]
    rfl
  refine ⟨consistent, ?_, ?_, ?_, ?_, ?_, ?_, ?_⟩ <;> simp [emptyLog, nothingBegun]

/-- In an ordered log no update is lost: of two writers one is settled for
the other, but each began before the other committed. -/
theorem WriteOrder.not_lostUpdate {logged : LoggedWorld} (order : logged.WriteOrder) :
    ¬ LostUpdate logged.log := by
  rintro ⟨first, second, rowIdx, ne, firstWrote, secondWrote, firstBegan, secondBegan⟩
  obtain ⟨firstTxn, firstMember, rfl⟩ := (order.writer _ _ firstWrote).1
  obtain ⟨secondTxn, secondMember, rfl⟩ := (order.writer _ _ secondWrote).1
  have impossible : ∀ earlier ∈ logged.world.begun, ∀ later ∈ logged.world.begun,
      [.began later.id, .committed earlier.id].Sublist logged.log →
      ¬ logged.world.Settled earlier.id later := by
    intro earlier _ later laterMember beganBefore settled
    obtain ⟨cid, committed⟩ := order.committed earlier.id (beganBefore.subset (by simp))
    have after := order.commitsAfter later laterMember earlier.id cid beganBefore committed
    rcases settled with rolledBack | ⟨other, otherCommitted, inSnapshot⟩
    · exact rolledBack.not_committed committed
    · rw [committed] at otherCommitted
      cases otherCommitted
      omega
  rcases order.ordered firstTxn firstMember secondTxn secondMember ne
        rowIdx firstWrote secondWrote with
    firstSettled | secondSettled
  · exact impossible firstTxn firstMember secondTxn secondMember secondBegan firstSettled
  · exact impossible secondTxn secondMember firstTxn firstMember firstBegan secondSettled

variable {logged : LoggedWorld} {action : MvccAction}

theorem WriteOrder.settled_for_writer
    {txn : MvccTransaction} {rowIdx writer : Nat} {version : RowVersion}
    (order : logged.WriteOrder) (running : logged.world.Running txn)
    (orderly : logged.world.OrderlyTarget txn rowIdx)
    (accepted : logged.world.mgr.checkWriteConflict logged.world.table txn rowIdx = .ok ())
    (shown : logged.world.mgr.shownRow logged.world.table txn rowIdx = some version)
    (wrote : .wrote writer rowIdx ∈ logged.log) :
    writer = txn.id ∨ logged.world.Settled writer txn := by
  have consistent := order.consistent
  obtain ⟨opened, older, held⟩ := orderly.shown_is_last consistent accepted shown
  obtain ⟨chain, chainPresent, mem, visible⟩ := shownRow_eq_some shown
  have creatorSeen : version.xmin = txn.id ∨
      logged.world.mgr.txnVisibleToSnapshot version.xmin txn.snapshotId = true := by
    have seen := ((visible_iff_sees version).mp visible).1
    rwa [creatorsFor_eq_seenBy (order.snapshotLevel txn running.1)] at seen
  obtain ⟨creator, creatorMember, sameId⟩ :=
    (consistent.chains chain (mem_of_getElem? chainPresent)).creator version mem
  have earlier := order.openVersion rowIdx older version held opened writer wrote
  rcases creatorSeen with own | committedBefore
  · -- the writer continues its own version
    rcases earlier with sameWriter | settled
    · exact .inl (sameWriter.trans own)
    · exact .inr (settled txn running.1 own.symm)
  · -- the version's creator committed before the writer's snapshot
    obtain ⟨cid, committed, inSnapshot⟩ := txnVisibleToSnapshot_iff.mp committedBefore
    rcases earlier with sameWriter | settled
    · exact .inr (.inr ⟨cid, sameWriter ▸ committed, inSnapshot⟩)
    · exact .inr ((settled creator creatorMember sameId).trans consistent
          creatorMember (sameId.symm ▸ committed) inSnapshot)

private theorem pair_sublist_append {first second : TxnEvent} {log more : List TxnEvent}
    (atMostOne : more.length ≤ 1) (pair : [first, second].Sublist (log ++ more)) :
    [first, second].Sublist log ∨ (first ∈ log ∧ second ∈ more) := by
  obtain ⟨left, right, split, inLog, inMore⟩ := sublist_append_iff.mp pair
  have rightShort : right.length ≤ 1 := le_trans inMore.length_le atMostOne
  cases left with
  | nil =>
    rw [nil_append] at split
    rw [← split] at rightShort
    simp at rightShort
  | cons head tail =>
    cases tail with
    | nil =>
      obtain ⟨rfl, rfl⟩ := split
      exact .inr ⟨inLog.subset mem_cons_self, inMore.subset (mem_singleton_self second)⟩
    | cons next rest =>
      simp only [cons_append, cons.injEq] at split
      obtain ⟨rfl, rfl, nothing⟩ := split
      obtain ⟨rfl, rfl⟩ := append_eq_nil_iff.mp nothing.symm
      exact .inl inLog

section

variable
  (order : logged.WriteOrder)
  (admissible : ∀ txn, action.author = some txn → logged.world.Running txn)
  (orderly : logged.OrderlyStep action)

include order admissible

variable {txn : MvccTransaction} {rowIdx writer : Nat}

private theorem commitsAfter_apply {other cid : Nat} (mem : txn ∈ (logged.world.apply action).begun)
    (pair : [.began txn.id, .committed other].Sublist (logged.log ++ logged.world.events action))
    (committed : (logged.world.apply action).mgr.txnStates.lookup other = some (.committed cid)) :
    txn.snapshotId < cid := by
  have consistent := order.consistent
  rcases pair_sublist_append (events_length_le logged.world action) pair with
    inLog | ⟨beganInLog, commits⟩
  · obtain ⟨earlierCid, earlier⟩ := order.committed other (inLog.subset (by simp))
    have begun := order.began txn.id (inLog.subset (by simp))
    have past := consistent.manager.committed_le earlier
    have stays := (lookup_committed_apply consistent admissible past other).mpr earlier
    cases stays.symm.trans committed
    exact
      order.commitsAfter txn (mem_begun_of_hasBegun consistent mem begun) other cid inLog earlier
  · obtain ⟨author, rfl, rfl⟩ := committed_mem_events_iff.mp commits
    have begun := order.began txn.id beganInLog
    have snapshotLe :=
      consistent.manager.snapshotLe txn (mem_begun_of_hasBegun consistent mem begun)
    rw [apply_lookup_state] at committed
    simp only [if_true, some.injEq, TxnState.committed.injEq] at committed
    omega

include orderly

private theorem settled_for_target {version : RowVersion}
    (isTarget : action.target = some (txn, rowIdx))
    (accepted : logged.world.mgr.checkWriteConflict logged.world.table txn rowIdx = .ok ())
    (shown : logged.world.mgr.shownRow logged.world.table txn rowIdx = some version)
    (earlier : .wrote writer rowIdx ∈ logged.log) :
    writer = txn.id ∨ (logged.world.apply action).Settled writer txn := by
  have running := admissible txn (MvccAction.author_of_target isTarget)
  have before :=
    order.settled_for_writer running (orderly.2 (txn, rowIdx) isTarget) accepted shown earlier
  exact before.imp_right fun settled => settled.apply order.consistent admissible running.1

private theorem settled_of_wrote (txnMember : txn ∈ (logged.world.apply action).begun)
    (wrote : .wrote txn.id rowIdx ∈ logged.world.events action)
    (earlier : .wrote writer rowIdx ∈ logged.log) :
    writer = txn.id ∨ (logged.world.apply action).Settled writer txn := by
  obtain ⟨author, version, isTarget, sameId, accepted, shown⟩ := wrote_mem_events wrote
  have running := admissible author (MvccAction.author_of_target isTarget)
  have same : author = txn := (consistent_apply order.consistent admissible).manager.unique author
      (mem_begun_apply action running.1) txn txnMember sameId
  subst same
  exact settled_for_target order admissible orderly isTarget accepted shown earlier

private theorem openVersion_apply {older : List RowVersion} {version : RowVersion}
    (held : (logged.world.apply action).table.rows[rowIdx]? = some (older ++ [version]))
    (opened : version.xmax = none)
    (wrote : .wrote writer rowIdx ∈ logged.log ++ logged.world.events action) :
    writer = version.xmin ∨
      ∀ creator ∈ (logged.world.apply action).begun,
        creator.id = version.xmin → (logged.world.apply action).Settled writer creator := by
  have consistent := order.consistent
  -- an open version that was there before keeps its earlier writers
  have carried : ∀ before, logged.world.table.rows[rowIdx]? = some (before ++ [version]) →
        .wrote writer rowIdx ∈ logged.log →
        writer = version.xmin ∨
          ∀ creator ∈ (logged.world.apply action).begun,
            creator.id = version.xmin → (logged.world.apply action).Settled writer creator := by
    intro before wasPresent inLog
    refine (order.openVersion rowIdx before version wasPresent opened writer inLog).imp_right ?_
    intro settled creator mem sameId
    have inv := consistent.chains _ (mem_of_getElem? wasPresent)
    have begun : HasBegun logged.world.begun creator.id := sameId ▸ inv.creator version (by simp)
    have wasMember := mem_begun_of_hasBegun consistent mem begun
    exact (settled creator wasMember sameId).apply consistent admissible wasMember
  have written : .wrote writer rowIdx ∈ logged.log ∨ ∃ txn read,
      action.target = some (txn, rowIdx) ∧ txn.id = writer ∧
        logged.world.mgr.checkWriteConflict logged.world.table txn rowIdx = .ok () ∧
        logged.world.mgr.shownRow logged.world.table txn rowIdx = some read :=
    (mem_append.mp wrote).imp_right wrote_mem_events
  have change := apply_rows logged.world action
  generalize (logged.world.apply action).table.rows = rows at change held
  cases change with
  | unchanged notOpen =>
    rcases written with inLog | ⟨txn, read, isTarget, -, accepted, shown⟩
    · exact carried older held inLog
    · obtain ⟨readOpen, others, readPresent⟩ :=
        (orderly.2 (txn, rowIdx) isTarget).shown_is_last consistent accepted shown
      exact absurd ⟨others, read, readPresent, readOpen⟩ (notOpen txn rowIdx isTarget accepted)
  | inserted isInsert =>
    rcases written with inLog | ⟨txn, read, isTarget, -⟩
    · have inRange := (order.writer writer rowIdx inLog).2
      rw [getElem?_append_left inRange] at held
      exact carried older held inLog
    · rw [isInsert] at isTarget
      cases isTarget
  | @superseded txn target before marked isTarget accepted wasPresent
      wasOpen =>
    by_cases sameRow : target = rowIdx
    · subst sameRow
      obtain ⟨inRange, -⟩ := List.getElem?_eq_some_iff.mp wasPresent
      rw [getElem?_set_self inRange, some.injEq] at held
      have running := admissible txn (MvccAction.author_of_target isTarget)
      have shown :=
        (orderly.2 (txn, target) isTarget).open_is_shown consistent accepted wasPresent wasOpen
      have writerSettled : writer = txn.id ∨ (logged.world.apply action).Settled writer txn := by
        rcases written with inLog | ⟨author, read, sameTarget, sameId, -⟩
        · exact settled_for_target order admissible orderly isTarget accepted shown inLog
        · cases isTarget.symm.trans sameTarget
          exact .inl sameId.symm
      rcases MvccAction.successors_of_target isTarget with
        none | ⟨values, one⟩
      · -- a delete leaves no open version behind
        rw [none] at held
        have isMarked := singleton_inj.mp (append_inj' held rfl).2
        rw [← isMarked] at opened
        cases opened
      · rw [one, append_cons] at held
        have isNew := singleton_inj.mp (append_inj' held rfl).2
        subst isNew
        refine writerSettled.imp_right fun settled creator mem sameId => ?_
        have same : creator = txn := (consistent_apply consistent admissible).manager.unique
            creator mem txn (mem_begun_apply action running.1) sameId
        exact same ▸ settled
    · rw [getElem?_set_ne sameRow] at held
      rcases written with inLog | ⟨author, read, sameTarget, -⟩
      · exact carried older held inLog
      · cases isTarget.symm.trans sameTarget
        exact absurd rfl sameRow
  | vacuumed isVacuum =>
    rcases written with inLog | ⟨txn, read, isTarget, -⟩
    · rw [getElem?_map, map_eq_some_iff] at held
      obtain ⟨chain, wasPresent, filtered⟩ := held
      have mem : version ∈ chain := by
        have inFiltered : version ∈ older ++ [version] := by simp
        rw [← filtered] at inFiltered
        exact mem_of_mem_filter inFiltered
      obtain ⟨before, rfl⟩ :=
        (consistent.chains chain (mem_of_getElem? wasPresent)).open_is_last mem opened
      exact carried before wasPresent inLog
    · rw [isVacuum] at isTarget
      cases isTarget

/-- One orderly call keeps the writers of every row in order. -/
theorem writeOrder_apply : WriteOrder
      { world := logged.world.apply action, log := logged.log ++ logged.world.events action } := by
  have consistent := order.consistent
  constructor
  · exact consistent_apply consistent admissible
  · intro txn mem
    rw [apply_begun] at mem
    split at mem
    · next level =>
      rcases mem_append.mp mem with old | isNew
      · exact order.snapshotLevel txn old
      · rw [mem_singleton] at isNew
        subst isNew
        have snapshotLevel := orderly.1
        rcases snapshotLevel with same | same <;> simp [beginWithIsolation, same]
    · exact order.snapshotLevel txn mem
  · intro txnId mem
    rcases mem_append.mp mem with inLog | isNew
    · exact hasBegun_apply action (order.began txnId inLog)
    · obtain ⟨rfl, level, rfl⟩ := began_mem_events_iff.mp isNew
      exact ⟨_, mem_append_right _ (mem_singleton_self _), rfl⟩
  · intro txnId mem
    rcases mem_append.mp mem with inLog | isNew
    · obtain ⟨cid, committed⟩ := order.committed txnId inLog
      have past := consistent.manager.committed_le committed
      exact ⟨cid, (lookup_committed_apply consistent admissible past txnId).mpr committed⟩
    · obtain ⟨txn, rfl, rfl⟩ := committed_mem_events_iff.mp isNew
      exact ⟨logged.world.mgr.commitId + 1, by
          rw [apply_lookup_state]
          simp⟩
  · intro txn mem other cid pair committed
    exact commitsAfter_apply order admissible mem pair committed
  · intro txnId rowIdx mem
    have longer := rows_length_le_apply logged.world action
    rcases mem_append.mp mem with inLog | isNew
    · obtain ⟨begun, inRange⟩ := order.writer txnId rowIdx inLog
      exact ⟨hasBegun_apply action begun, lt_of_lt_of_le inRange longer⟩
    · obtain ⟨txn, version, isTarget, rfl, -, shown⟩ := wrote_mem_events isNew
      have running := admissible txn (MvccAction.author_of_target isTarget)
      obtain ⟨chain, held, -⟩ := shownRow_eq_some shown
      obtain ⟨inRange, -⟩ := List.getElem?_eq_some_iff.mp held
      exact ⟨⟨txn, mem_begun_apply action running.1, rfl⟩, lt_of_lt_of_le inRange longer⟩
  · intro rowIdx older version held opened writer wrote
    exact openVersion_apply order admissible orderly held opened wrote
  · intro first firstMember second secondMember ne rowIdx firstWrote secondWrote
    rcases mem_append.mp firstWrote with firstInLog | firstNew <;>
      rcases mem_append.mp secondWrote with secondInLog | secondNew
    · have firstWas := mem_begun_of_hasBegun consistent firstMember (order.writer _ _ firstInLog).1
      have secondWas :=
        mem_begun_of_hasBegun consistent secondMember (order.writer _ _ secondInLog).1
      exact (order.ordered first firstWas second secondWas ne rowIdx firstInLog secondInLog).imp
        (fun settled => settled.apply consistent admissible secondWas)
        fun settled => settled.apply consistent admissible firstWas
    · have wrote := settled_of_wrote order admissible orderly secondMember secondNew firstInLog
      exact .inl (wrote.resolve_left ne)
    · have wrote := settled_of_wrote order admissible orderly firstMember firstNew secondInLog
      exact .inr (wrote.resolve_left ne.symm)
    · obtain ⟨author, -, isTarget, sameFirst, -⟩ := wrote_mem_events firstNew
      obtain ⟨other, -, otherTarget, sameSecond, -⟩ := wrote_mem_events secondNew
      cases isTarget.symm.trans otherTarget
      exact absurd (sameFirst.symm.trans sameSecond) ne

end

/-- Orderly runs lose no update: in every run of a snapshot-isolated
client in which every conflict-checked write goes to the version its check
has read, no two concurrent transactions that commit have accepted writes of
the same visible row. -/
theorem no_lost_update {start reached : LoggedWorld} {actions : List MvccAction}
    (initially : start.Initial) (run : GuardedRun.Run step OrderlyStep start actions reached) :
    ¬ LostUpdate reached.log := by
  have order : reached.WriteOrder := by
    refine run.invariant WriteOrder ?_ (writeOrder_initial initially)
    intro state action next order orderly enabled
    obtain ⟨world, ran, rfl⟩ := map_eq_some_iff.mp enabled
    obtain ⟨admissible, rfl⟩ := step_eq_some_iff.mp ran
    exact writeOrder_apply order admissible orderly
  exact order.not_lostUpdate

def empty : LoggedWorld :=
  { world := .initial (MvccTable.new "t" ["a"]), log := [] }

/-- Two transactions update one committed row; the first commits. -/
def competingUpdates : List MvccAction :=
  [ .beginWithIsolation .repeatableRead, .insert ⟨1, 0, .inProgress, .repeatableRead⟩ [1],
    .commit ⟨1, 0, .inProgress, .repeatableRead⟩, .beginWithIsolation .repeatableRead,
    .beginWithIsolation .serializable, .update ⟨2, 1, .inProgress, .repeatableRead⟩ 0 [2],
    .update ⟨3, 1, .inProgress, .serializable⟩ 0 [3], .commit ⟨2, 1, .inProgress, .repeatableRead⟩,
    .delete ⟨3, 1, .inProgress, .serializable⟩ 0, .commit ⟨3, 1, .inProgress, .serializable⟩ ]

theorem no_lost_update_competingUpdates : ∃ reached,
      exec step OrderlyStep empty competingUpdates = some reached ∧ ¬ LostUpdate reached.log := by
  obtain ⟨reached, ran⟩ :=
    isSome_iff_exists.mp
      (by decide : (exec step OrderlyStep empty competingUpdates).isSome = true)
  exact ⟨reached, ran,
    no_lost_update ⟨⟨"t", ["a"], rfl⟩, rfl⟩ (exec_eq_some_iff.mp ran)⟩

/-- A row is committed; its deletion is rolled back; then two concurrent
transactions update it. -/
def updatesAfterRolledBackDelete : List MvccAction :=
  [ .beginWithIsolation .repeatableRead, .insert ⟨1, 0, .inProgress, .repeatableRead⟩ [1],
    .commit ⟨1, 0, .inProgress, .repeatableRead⟩, .beginWithIsolation .repeatableRead,
    .delete ⟨2, 1, .inProgress, .repeatableRead⟩ 0,
    .rollback ⟨2, 1, .inProgress, .repeatableRead⟩, .beginWithIsolation .repeatableRead,
    .beginWithIsolation .repeatableRead, .update ⟨3, 1, .inProgress, .repeatableRead⟩ 0 [2],
    .update ⟨4, 1, .inProgress, .repeatableRead⟩ 0 [3],
    .commit ⟨3, 1, .inProgress, .repeatableRead⟩, .commit ⟨4, 1, .inProgress, .repeatableRead⟩ ]

/-- Both updates are accepted and both transactions commit. -/
theorem lost_update_after_rolled_back_delete : ∃ start reached, Initial start ∧
    GuardedRun.Run step SnapshotStep start updatesAfterRolledBackDelete reached ∧
    LostUpdate reached.log := by
  have log : (exec step SnapshotStep empty updatesAfterRolledBackDelete).map LoggedWorld.log =
      some [.began 1, .committed 1, .began 2, .wrote 2 0, .began 3,
        .began 4, .wrote 3 0, .wrote 4 0, .committed 3, .committed 4] := by
    decide
  obtain ⟨reached, ran, log⟩ := map_eq_some_iff.mp log
  refine ⟨empty, reached, ⟨⟨"t", ["a"], rfl⟩, rfl⟩, exec_eq_some_iff.mp ran, 3, 4, 0, ?_⟩
  rw [log]
  decide

end LoggedWorld

end TurboGP.Txn
