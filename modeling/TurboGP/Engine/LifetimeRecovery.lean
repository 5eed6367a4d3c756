import TurboGP.Engine.LoggedEngine

/-! # Recovery across process lifetimes -/

namespace TurboGP.Engine

open Datasource Sql Sql.Text Txn Effect Storage
open GuardedRun
open List Option

inductive LifetimeEvent
  | statement (sql : List Char)
  | restart

structure LifetimeRun where
  engine : SqlEngine
  /-- The log; each entry with the transaction that it belongs to. -/
  entries : List (LogEntry × Option Nat)
  /-- The numbers that the transactions got, in the order of their BEGINs. -/
  ids : List UInt64
  current : Option Nat
  /-- The transactions whose COMMIT returned Ok. -/
  finished : List Nat

namespace LifetimeRun

def log (run : LifetimeRun) : List LogEntry := run.entries.map Prod.fst

/-- A directory without a log; `base` is the engine that its checkpoint
gives. -/
def start (base : SqlEngine) : LifetimeRun :=
  { engine := base, entries := [], ids := [], current := none, finished := [] }

def record (host : SqlHost) (run : LifetimeRun) (next : SqlEngine)
    (sql : List Char) : LifetimeRun :=
  match host.kind sql with
  | .begin =>
    { engine := next
      entries := run.entries ++ (entriesOf host run.engine sql).map (·, some run.ids.length)
      ids := run.ids ++ (next.openId.map UInt64.ofNat).toList, current := some run.ids.length
      finished := run.finished }
  | .commit =>
    { engine := next
      entries := run.entries ++ (entriesOf host run.engine sql).map (·, run.current)
      ids := run.ids, current := none, finished := run.finished ++ run.current.toList }
  | .rollback =>
    { engine := next
      entries := run.entries ++ (entriesOf host run.engine sql).map (·, run.current)
      ids := run.ids, current := none, finished := run.finished }
  | _ =>
    { engine := next
      entries := run.entries ++ (entriesOf host run.engine sql).map (·, run.current)
      ids := run.ids, current := run.current, finished := run.finished }

/-- A statement of the running process, or the next process: it replays the
log on what the checkpoint gives. -/
def step (host : SqlHost) (depth : Nat) (base : SqlEngine)
    (run : LifetimeRun) : LifetimeEvent → Option LifetimeRun
  | .statement sql =>
    match execute host depth sql run.engine with
    | .ok _ next => some (run.record host next sql)
    | .error (.error _) next => some { run with engine := next }
    | .error _ _ => none
  | .restart =>
    (replayWalWithLsnFilter host depth none (run.log.map LogEntry.record) base).map fun engine =>
        { run with engine := engine, current := none }

/-- BEGIN, COMMIT, ROLLBACK and DML; the numbers of one process do not run
out. -/
def Allowed (host : SqlHost) (run : LifetimeRun) : LifetimeEvent → Prop
  | .statement sql => TransactionText host sql ∧ run.engine.txnManager.nextId < 2 ^ 64
  | .restart => True

/-- Replay executes the statements of the transactions that committed and
those outside transactions, and no others. -/
def RecoversExactly (run : LifetimeRun) (records : List WalRecord) : Prop :=
  ∀ owner sql txn record, ((.statement owner sql, txn), record) ∈ run.entries.zip records →
    (isReplayed none (committedTxns records) record = true ↔
    ∀ position ∈ txn, position ∈ run.finished)

/-- A transaction that owns a statement and did not commit has no number of
one that did. -/
def NumbersApart (run : LifetimeRun) : Prop :=
  ∀ owner sql position, (.statement owner sql, some position) ∈ run.entries →
    position ∉ run.finished → ∀ other ∈ run.finished, run.ids[other]? ≠ run.ids[position]?

/-- Entries and markers carry the numbers that the transactions got. -/
structure Numbered (host : SqlHost) (run : LifetimeRun) : Prop where
  mode : run.engine.mvccEnabled = false
  positive : 0 < run.engine.txnManager.nextId
  active : ∀ n, run.engine.txnManager.active.map Transaction.id = some n → 0 < n ∧ n < 2 ^ 64
  current : run.engine.txnManager.active.map
        (fun txn => UInt64.ofNat txn.id) =
      run.current.bind (run.ids[·]?)
  known : ∀ position ∈ run.current, position < run.ids.length
  finished : ∀ position ∈ run.finished, position < run.ids.length
  owned : ∀ owner sql txn, (.statement owner sql, txn) ∈ run.entries →
      owner = txn.bind (run.ids[·]?) ∧
        (∀ position ∈ txn, position < run.ids.length) ∧ ∃ statement, ParsedDml host sql statement
  committed :
    ∀ id, id ∈ TxnLog.committed run.log ↔ ∃ position ∈ run.finished, run.ids[position]? = some id
  proper : ∀ entry ∈ run.log, LogEntry.Proper entry

namespace Numbered

variable {host : SqlHost} {depth : Nat} {run : LifetimeRun}
  {sql : List Char}

theorem openId_ofNat (numbered : run.Numbered host) :
    run.engine.openId.map UInt64.ofNat = run.current.bind (run.ids[·]?) := by
  rw [openId_snapshot numbered.mode, Option.map_map]
  exact numbered.current

variable {next : SqlEngine} {res : QueryResult}

theorem sameTransaction (numbered : run.Numbered host) (same : SameTransaction run.engine next) :
    Numbered host { run with engine := next } := by
  constructor
  · exact same.sameMode.trans numbered.mode
  · rw [same.sameNextId]
    exact numbered.positive
  · rw [same.sameId]
    exact numbered.active
  · have sameNumber : next.txnManager.active.map (fun txn => UInt64.ofNat txn.id) =
        run.engine.txnManager.active.map (fun txn => UInt64.ofNat txn.id) := by
      have ids := congrArg (Option.map UInt64.ofNat) same.sameId
      rwa [Option.map_map, Option.map_map] at ids
    exact sameNumber.trans numbered.current
  · exact numbered.known
  · exact numbered.finished
  · exact numbered.owned
  · exact numbered.committed
  · exact numbered.proper

theorem getElem?_grown {ids : List UInt64} (more : List UInt64)
    {pos : Nat} (inside : pos < ids.length) : (ids ++ more)[pos]? = ids[pos]? :=
  getElem?_append_left inside

theorem bind_grown {ids : List UInt64} (more : List UInt64)
    {txn : Option Nat} (inside : ∀ pos ∈ txn, pos < ids.length) :
    txn.bind ((ids ++ more)[·]?) = txn.bind (ids[·]?) := by
  cases txn with
  | none => rfl
  | some pos => exact getElem?_grown more (inside pos rfl)

theorem log_append (run : LifetimeRun) (entry : LogEntry) (txn : Option Nat) :
    (run.entries ++ [(entry, txn)]).map Prod.fst = run.log ++ [entry] := by
  rw [map_append]
  rfl

variable (numbered : run.Numbered host)

include numbered

theorem begun (mode : next.mvccEnabled = false) (positive : 0 < next.txnManager.nextId) {n : Nat}
    (isActive : next.txnManager.active.map Transaction.id = some n) (fits : 0 < n ∧ n < 2 ^ 64) :
    Numbered host
      { engine := next, entries := run.entries ++ [(.begin (UInt64.ofNat n), some run.ids.length)]
        ids := run.ids ++ [UInt64.ofNat n], current := some run.ids.length
        finished := run.finished } := by
  constructor
  · exact mode
  · exact positive
  · intro m isOther
    cases isActive.symm.trans isOther
    exact fits
  · have numberOf :
        next.txnManager.active.map (fun txn => UInt64.ofNat txn.id) = some (UInt64.ofNat n) := by
      have ids := congrArg (Option.map UInt64.ofNat) isActive
      rwa [Option.map_map] at ids
    rw [numberOf]
    exact getElem?_concat_length.symm
  · rintro pos ⟨⟩
    rw [length_append]
    exact Nat.lt_succ_self _
  · intro pos mem
    rw [length_append]
    exact Nat.lt_succ_of_lt (numbered.finished pos mem)
  · intro owner sql txn mem
    rcases mem_append.mp mem with old | new
    · obtain ⟨isOwner, inside, text⟩ := numbered.owned owner sql txn old
      refine ⟨?_, ?_, text⟩
      · rw [bind_grown _ inside]
        exact isOwner
      · intro pos isTxn
        rw [length_append]
        exact Nat.lt_succ_of_lt (inside pos isTxn)
    · cases mem_singleton.mp new
  · intro id
    have sameCommitted :
        TxnLog.committed (run.log ++ [.begin (UInt64.ofNat n)]) = TxnLog.committed run.log := by
      rw [TxnLog.committed_append]
      exact append_nil _
    show id ∈ TxnLog.committed ((run.entries ++ [_]).map Prod.fst) ↔ _
    rw [log_append, sameCommitted, numbered.committed id]
    constructor
    · rintro ⟨pos, mem, isId⟩
      refine ⟨pos, mem, ?_⟩
      rw [getElem?_grown _ (numbered.finished pos mem)]
      exact isId
    · rintro ⟨pos, mem, isId⟩
      rw [getElem?_grown _ (numbered.finished pos mem)] at isId
      exact ⟨pos, mem, isId⟩
  · unfold log
    rw [log_append, forall_mem_append, forall_mem_singleton]
    exact ⟨numbered.proper, ofNat_ne_zero fits.1 fits.2⟩

theorem appended {entry : LogEntry} {finished : List Nat} (proper : LogEntry.Proper entry)
    (inside : ∀ pos ∈ finished, pos < run.ids.length)
    (owned : ∀ owner sql, entry = .statement owner sql →
        owner = run.current.bind (run.ids[·]?) ∧ ∃ stmt, ParsedDml host sql stmt)
    (committed : ∀ id, id ∈ TxnLog.committed run.log ∨ entry.commitId = some id ↔
          ∃ pos ∈ finished, run.ids[pos]? = some id) :
    Numbered host
      { run with
        entries := run.entries ++ [(entry, run.current)]
        finished := finished } := by
  constructor
  · exact numbered.mode
  · exact numbered.positive
  · exact numbered.active
  · exact numbered.current
  · exact numbered.known
  · exact inside
  · intro owner sql txn mem
    rcases mem_append.mp mem with old | new
    · exact numbered.owned owner sql txn old
    · obtain ⟨rfl, rfl⟩ := Prod.mk.inj (mem_singleton.mp new)
      obtain ⟨isOwner, text⟩ := owned owner sql rfl
      exact ⟨isOwner, numbered.known, text⟩
  · intro id
    show id ∈ TxnLog.committed ((run.entries ++ [_]).map Prod.fst) ↔ _
    rw [log_append, TxnLog.committed_append, mem_append, ← committed id]
    have single : id ∈ TxnLog.committed [entry] ↔ entry.commitId = some id := by
      unfold TxnLog.committed
      simp
    rw [single]
  · unfold log
    rw [log_append, forall_mem_append, forall_mem_singleton]
    exact ⟨numbered.proper, proper⟩

theorem noted {entry : LogEntry}
    (proper : LogEntry.Proper entry) (notCommit : entry.commitId = none)
    (owned : ∀ owner sql, entry = .statement owner sql →
        owner = run.current.bind (run.ids[·]?) ∧ ∃ stmt, ParsedDml host sql stmt) :
    Numbered host { run with entries := run.entries ++ [(entry, run.current)] } := by
  refine numbered.appended proper numbered.finished owned ?_
  intro id
  rw [numbered.committed id, notCommit]
  exact or_iff_left (by rintro ⟨⟩)

theorem closed (mode : next.mvccEnabled = false)
    (positive : 0 < next.txnManager.nextId) (inactive : next.txnManager.active = none) :
    Numbered host { run with engine := next, current := none } := by
  constructor
  · exact mode
  · exact positive
  · intro n isActive
    rw [inactive] at isActive
    cases isActive
  · rw [inactive]
    rfl
  · rintro pos ⟨⟩
  · exact numbered.finished
  · exact numbered.owned
  · exact numbered.committed
  · exact numbered.proper

theorem begin (kind : host.kind sql = .begin) (room : run.engine.txnManager.nextId < 2 ^ 64)
    (ran : execute host depth sql run.engine = .ok res next) :
    Numbered host (run.record host next sql) := by
  unfold record
  simp only [kind, entriesOf_begin kind numbered.mode]
  rw [openId_of_begin kind numbered.mode ran]
  obtain ⟨-, rfl⟩ := execute_begin kind numbered.mode ran
  refine numbered.begun ?_ ?_ rfl ⟨numbered.positive, room⟩
  · exact numbered.mode
  · exact Nat.succ_pos _

theorem currentId {txn : Transaction} (active : run.engine.txnManager.active = some txn) :
    0 < txn.id ∧ txn.id < 2 ^ 64 ∧
      ∃ pos, run.current = some pos ∧ run.ids[pos]? = some (UInt64.ofNat txn.id) := by
  have isId : run.engine.txnManager.active.map Transaction.id = some txn.id := by
    rw [active]
    rfl
  have isCurrent := numbered.current
  rw [active] at isCurrent
  obtain ⟨pos, current, found⟩ := bind_eq_some_iff.mp isCurrent.symm
  obtain ⟨positive, fits⟩ := numbered.active txn.id isId
  exact ⟨positive, fits, pos, current, found⟩

theorem commit (kind : host.kind sql = .commit)
    (ran : execute host depth sql run.engine = .ok res next) :
    Numbered host (run.record host next sql) := by
  obtain ⟨txn, active, rfl⟩ := execute_commit kind numbered.mode ran
  obtain ⟨positive, fits, pos, current, found⟩ := numbered.currentId active
  unfold record
  simp only [kind, entriesOf_commit kind numbered.mode active, current]
  have grown : Numbered host
        { run with
          entries := run.entries ++ [(.commit (UInt64.ofNat txn.id), run.current)]
          finished := run.finished ++ [pos] } := by
    refine numbered.appended (ofNat_ne_zero positive fits) ?_ ?_ ?_
    · rw [forall_mem_append, forall_mem_singleton]
      exact ⟨numbered.finished, numbered.known pos current⟩
    · rintro owner sql ⟨⟩
    · intro id
      rw [numbered.committed id]
      constructor
      · rintro (⟨earlier, mem, isId⟩ | isCommit)
        · exact ⟨earlier, mem_append_left _ mem, isId⟩
        · cases isCommit
          exact ⟨pos, mem_append_right _ mem_cons_self, found⟩
      · rintro ⟨earlier, mem, isId⟩
        rcases mem_append.mp mem with before | isLast
        · exact .inl ⟨earlier, before, isId⟩
        · rw [mem_singleton.mp isLast] at isId
          exact .inr (found.symm.trans isId)
  rw [current] at grown
  refine grown.closed ?_ ?_ ?_
  · exact numbered.mode
  · exact numbered.positive
  · rfl

theorem rollback (kind : host.kind sql = .rollback)
    (ran : execute host depth sql run.engine = .ok res next) :
    Numbered host (run.record host next sql) := by
  obtain ⟨txn, active, rfl⟩ := execute_rollback kind numbered.mode ran
  obtain ⟨pos, fits, -⟩ := numbered.currentId active
  unfold record
  simp only [kind, entriesOf_rollback kind numbered.mode active]
  have grown := @noted host run numbered (.rollback (UInt64.ofNat txn.id))
      (ofNat_ne_zero pos fits) rfl (by rintro owner sql ⟨⟩)
  refine grown.closed ?_ ?_ ?_
  · exact numbered.mode
  · exact numbered.positive
  · rfl

theorem dml {next : SqlEngine}
    {res : QueryResult} {stmt : DmlStatement} (text : ParsedDml host sql stmt)
    (ran : execute host (depth + 1) sql run.engine = .ok res next) :
    Numbered host (run.record host next sql) := by
  have same : SameTransaction run.engine next :=
    Moves.reached (sameTransaction_dml text numbered.mode) ran
  have isRecord : run.record host next sql =
        { run with
          engine := next
          entries := run.entries ++
              [(.statement (run.engine.openId.map UInt64.ofNat) sql, run.current)] } := by
    unfold record
    rw [text.entriesOf_eq]
    rcases text.kind with kind | kind | kind <;> simp only [kind] <;> rfl
  have proper : LogEntry.Proper (.statement (run.engine.openId.map UInt64.ofNat) sql) := by
    refine ⟨?_, text.nonempty⟩
    intro isZero
    obtain ⟨n, isOpen, zero⟩ := map_eq_some_iff.mp isZero
    rw [openId_snapshot numbered.mode] at isOpen
    obtain ⟨pos, fits⟩ := numbered.active n isOpen
    exact ofNat_ne_zero pos fits zero
  have grown := numbered.noted proper rfl (by
    rintro owner sql ⟨⟩
    exact ⟨numbered.openId_ofNat, stmt, text⟩)
  rw [isRecord]
  exact grown.sameTransaction same

theorem failed {fault : Fault} (text : TransactionText host sql)
    (refused : execute host (depth + 1) sql run.engine = .error fault next) :
    SameTransaction run.engine next := by
  rcases text.refused_cases numbered.mode refused with
    rfl | ⟨stmt, dml⟩
  · exact ⟨rfl, rfl, rfl⟩
  · exact Moves.reached_error (sameTransaction_dml dml numbered.mode) refused

end Numbered

variable {host : SqlHost}

theorem keepsSession_replay {depth : Nat} {records : List WalRecord}
    (texts : ∀ record ∈ records, ∃ stmt, ParsedDml host record.sql stmt) {engine next : SqlEngine}
    (replayed : records.foldlM (replayRecord host (depth + 1)) engine = some next) :
    KeepsSession engine next := by
  induction records generalizing engine with
  | nil =>
    cases replayed
    exact ⟨rfl, rfl, rfl, rfl⟩
  | cons record rest ih =>
    obtain ⟨⟨stmt, text⟩, restTexts⟩ := forall_mem_cons.mp texts
    obtain ⟨middle, first, others⟩ := bind_eq_some_iff.mp replayed
    have moved := keepsSession_dml host.toHost depth stmt (some record.txnId.toNat) engine
    have firstKept : KeepsSession engine middle := by
      unfold replayRecord at first
      rw [executeInner_dml text] at first
      split at first
      · next out =>
        cases first
        exact moved.reached out
      · next out =>
        cases first
        exact moved.reached_error out
      · cases first
    have restKept := ih restTexts others
    exact ⟨restKept.sameMode.trans firstKept.sameMode,
      restKept.sameManager.trans firstKept.sameManager,
      restKept.sameTxnManager.trans firstKept.sameTxnManager,
      restKept.sameSavepoints.trans firstKept.sameSavepoints⟩

theorem Numbered.texts_replayed {run : LifetimeRun} (numbered : run.Numbered host) :
    ∀ record ∈ replayedRecords none (run.log.map LogEntry.record),
      ∃ statement, ParsedDml host record.sql statement := by
  intro record mem
  obtain ⟨inLog, selected⟩ := mem_filter.mp mem
  obtain ⟨entry, inEntries, rfl⟩ := mem_map.mp inLog
  obtain ⟨⟨other, txn⟩, isEntry, rfl⟩ := mem_map.mp inEntries
  cases other with
  | begin id | commit id | rollback id =>
    simp [isReplayed, LogEntry.record, WalRecord.begin, WalRecord.commit,
      WalRecord.rollback, WalRecord.autocommit] at selected
  | statement owner sql =>
    obtain ⟨-, -, statement, text⟩ := numbered.owned owner sql txn isEntry
    have sameText : (LogEntry.record (.statement owner sql)).sql = sql := by
      cases owner <;> rfl
    rw [sameText]
    exact ⟨statement, text⟩

theorem Numbered.step {host : SqlHost} {depth : Nat} {base : SqlEngine}
    {run next : LifetimeRun} {event : LifetimeEvent}
    (baseMode : base.mvccEnabled = false) (baseNew : base.txnManager = .new)
    (numbered : run.Numbered host) (allowed : Allowed host run event)
    (ran : run.step host (depth + 1) base event = some next) : next.Numbered host := by
  cases event with
  | statement sql =>
    obtain ⟨text, room⟩ := allowed
    rw [LifetimeRun.step] at ran
    split at ran
    · next out =>
      cases ran
      cases text with
      | begin kind => exact numbered.begin kind room out
      | commit kind => exact numbered.commit kind out
      | rollback kind => exact numbered.rollback kind out
      | dml stmt text => exact numbered.dml text out
    · next out =>
      cases ran
      exact numbered.sameTransaction (numbered.failed text out)
    · cases ran
  | restart =>
    obtain ⟨engine, replayed, rfl⟩ := map_eq_some_iff.mp ran
    have kept := keepsSession_replay numbered.texts_replayed replayed
    have isNew : engine.txnManager = .new := kept.sameTxnManager.trans baseNew
    refine numbered.closed (kept.sameMode.trans baseMode) ?_ ?_
    · rw [isNew]
      exact Nat.one_pos
    · rw [isNew]
      rfl

theorem numbered_start {base : SqlEngine} (baseMode : base.mvccEnabled = false)
    (baseNew : base.txnManager = .new) : (start base).Numbered host := by
  constructor
  · exact baseMode
  · show 0 < base.txnManager.nextId
    rw [baseNew]
    exact Nat.one_pos
  · intro n isActive
    have idle : base.txnManager.active.map Transaction.id = some n := isActive
    rw [baseNew] at idle
    cases idle
  · show base.txnManager.active.map _ = none
    rw [baseNew]
    rfl
  · rintro pos ⟨⟩
  · exact forall_mem_nil _
  · intro owner sql txn mem
    cases mem
  · intro id
    constructor
    · intro mem
      cases mem
    · rintro ⟨pos, mem, -⟩
      cases mem
  · exact forall_mem_nil _

section

variable {host : SqlHost} {run : LifetimeRun} {records : List WalRecord}

theorem Numbered.isReplayed_iff (numbered : run.Numbered host) (written : Written run.log records)
    {owner : Option UInt64} {sql : List Char} {txn : Option Nat} {record : WalRecord}
    (mem : ((.statement owner sql, txn), record) ∈ run.entries.zip records) :
    isReplayed none (committedTxns records) record = true ↔
      ∀ pos ∈ txn, ∃ other ∈ run.finished, run.ids[other]? = run.ids[pos]? := by
  have held : LogEntry.WrittenAs (.statement owner sql) record :=
    forall₂_zip (forall₂_map_left_iff.mp written) mem
  obtain ⟨isOwner, inside, -⟩ := numbered.owned owner sql txn (of_mem_zip mem).1
  rw [isReplayed_statement _ held, committedTxns_written written, isOwner]
  cases txn with
  | none => simp
  | some pos =>
    obtain ⟨id, isId⟩ : ∃ id, run.ids[pos]? = some id :=
      ⟨_, getElem?_eq_getElem (inside pos rfl)⟩
    simp only [bind_some, isId, mem_some_iff, forall_eq', numbered.committed id]

theorem Numbered.recoversExactly_iff (numbered : run.Numbered host)
    (written : Written run.log records) : run.RecoversExactly records ↔ run.NumbersApart := by
  have sameLength : run.entries.length = records.length := by
    have lengths := written.length_eq
    unfold log at lengths
    rwa [length_map] at lengths
  constructor
  · intro recovers owner sql pos mem notFinished other finished same
    obtain ⟨record, paired⟩ :
        ∃ record, ((.statement owner sql, some pos), record) ∈ run.entries.zip records := by
      obtain ⟨i, inside, isEntry⟩ := mem_iff_getElem.mp mem
      have within : i < (run.entries.zip records).length := by
        rw [length_zip]
        omega
      refine ⟨records[i], mem_iff_getElem.mpr ⟨i, within, ?_⟩⟩
      rw [getElem_zip, isEntry]
    have replayed := (numbered.isReplayed_iff written paired).mpr (by
        rintro found ⟨⟩
        exact ⟨other, finished, same⟩)
    exact notFinished ((recovers owner sql (some pos) record paired).mp replayed pos rfl)
  · intro apart owner sql txn record paired
    rw [numbered.isReplayed_iff written paired]
    constructor
    · intro every pos isTxn
      cases isTxn
      by_contra notFinished
      obtain ⟨other, finished, same⟩ := every pos rfl
      exact apart owner sql pos (of_mem_zip paired).1 notFinished other finished same
    · intro every pos isTxn
      exact ⟨pos, every pos isTxn, rfl⟩

end

end LifetimeRun

/-- The log of any processes is read back, and its replay executes the
statements of the committed transactions and no others if and only if their
numbers are theirs alone. -/
theorem replay_across_lifetimes_iff {host : SqlHost} {depth : Nat} {base : SqlEngine}
    (baseMode : base.mvccEnabled = false) (baseNew : base.txnManager = .new)
    {events : List LifetimeEvent} {final : LifetimeRun}
    (run : Run (LifetimeRun.step host (depth + 1) base)
        (LifetimeRun.Allowed host) (LifetimeRun.start base) events final)
    {walHost : WalHost} (json : walHost.ReadsJson) {sessions : List WalSession}
    (appends : (sessions.flatMap WalSession.calls).map AppendCall.record =
        final.log.map LogEntry.record)
    (room : final.log.length + 1 < 2 ^ 64) :
    ∃ directory records, runSessions walHost sessions ∅ = some directory ∧
      readAll walHost directory = .ok records ∧
      (final.RecoversExactly records ↔ final.NumbersApart) := by
  have numbered : final.Numbered host := by
    refine run.invariant (LifetimeRun.Numbered host) ?_
      (LifetimeRun.numbered_start baseMode baseNew)
    intro run event next before allowed stepped
    exact before.step baseMode baseNew allowed stepped
  obtain ⟨directory, records, ran, isRead, written⟩ :=
    readAll_written json sessions appends numbered.proper room
  exact ⟨directory, records, ran, isRead, numbered.recoversExactly_iff written⟩

namespace Example

theorem step_ok {host : SqlHost} {depth : Nat} {base next : SqlEngine}
    {run : LifetimeRun} {sql : List Char} {res : QueryResult}
    (ran : execute host depth sql run.engine = .ok res next) :
    run.step host depth base (.statement sql) = some (run.record host next sql) := by
  rw [LifetimeRun.step, ran]

def begunLifetime : LifetimeRun :=
  (LifetimeRun.start (engineWith ∅)).record insertHost (begun ∅) beginText

def insertedLifetime : LifetimeRun :=
  begunLifetime.record insertHost (insertedInto ∅ ∅ 0) insertText

theorem step_begin : (LifetimeRun.start (engineWith ∅)).step insertHost 1 (engineWith ∅)
        (.statement beginText) = some begunLifetime :=
  step_ok (execute_beginText insertHost 1 ∅)

theorem step_insert : begunLifetime.step insertHost 1 (engineWith ∅)
        (.statement insertText) = some insertedLifetime :=
  step_ok execute_insertText_begun

def committedLifetime : LifetimeRun :=
  (insertedLifetime.step insertHost 1 (engineWith ∅) (.statement commitText)).get rfl

def restartedLifetime : LifetimeRun :=
  (committedLifetime.step insertHost 1 (engineWith ∅) .restart).get rfl

def begunLater : LifetimeRun :=
  (restartedLifetime.step insertHost 1 (engineWith ∅) (.statement beginText)).get rfl

def committedLater : LifetimeRun :=
  (begunLater.step insertHost 1 (engineWith ∅) (.statement commitText)).get rfl

/-- One transaction is committed before the restart, one behind it. -/
theorem committed_insert_recovered : ∃ directory records,
      Run (LifetimeRun.step insertHost 1 (engineWith ∅))
          (LifetimeRun.Allowed insertHost) (.start (engineWith ∅))
          [.statement beginText, .statement insertText, .statement commitText, .restart,
            .statement beginText, .statement commitText] committedLater ∧
        runSessions Example.zeroHost [sessionOf committedLater.log] ∅ = some directory ∧
        readAll Example.zeroHost directory = .ok records ∧
        committedLater.RecoversExactly records := by
  have run : Run (LifetimeRun.step insertHost 1 (engineWith ∅))
      (LifetimeRun.Allowed insertHost) (.start (engineWith ∅))
      [.statement beginText, .statement insertText, .statement commitText, .restart,
        .statement beginText, .statement commitText] committedLater := by
    refine .cons ⟨.begin rfl, ?_⟩ step_begin
        (.cons ⟨.dml _ parsedDml_insertText, ?_⟩ step_insert
          (.cons ⟨.commit rfl, ?_⟩ (some_get _).symm
            (.cons trivial (some_get _).symm
              (.cons ⟨.begin rfl, ?_⟩ (some_get _).symm
                (.cons ⟨.commit rfl, ?_⟩ (some_get _).symm (.nil _)))))) <;>
      decide
  have appends : ([sessionOf committedLater.log].flatMap
          WalSession.calls).map AppendCall.record =
      committedLater.log.map LogEntry.record := by
    rw [flatMap_singleton]
    exact calls_sessionOf _
  obtain ⟨directory, records, ran, isRead, exactly⟩ :=
    replay_across_lifetimes_iff rfl rfl run (readsJson_compactHost _) appends (by decide)
  refine ⟨directory, records, run, ran, isRead, exactly.mpr ?_⟩
  intro owner sql pos mem notFinished
  have isFinished : committedLater.finished = [0, 1] := rfl
  have entries : committedLater.entries =
      [(.begin 1, some 0), (.statement (some 1) insertText, some 0), (.commit 1, some 0),
        (.begin 1, some 1), (.commit 1, some 1)] := rfl
  rw [isFinished] at notFinished
  rw [entries] at mem
  simp at mem notFinished
  exact absurd mem.2 notFinished.1

def interruptedLifetime : LifetimeRun :=
  (insertedLifetime.step insertHost 1 (engineWith ∅) .restart).get rfl

def begunAgain : LifetimeRun := interruptedLifetime.record insertHost (begun ∅) beginText

def committedAgain : LifetimeRun :=
  (begunAgain.step insertHost 1 (engineWith ∅) (.statement commitText)).get rfl

/-- The first process inserts and does not commit.  The transaction of the
second one is number 1 as well, and its COMMIT lets the INSERT be replayed. -/
theorem uncommitted_insert_replayed :
    [LifetimeEvent.statement beginText, .statement insertText, .restart,
          .statement beginText, .statement commitText].foldlM
        (LifetimeRun.step insertHost 1 (engineWith ∅))
        (.start (engineWith ∅)) = some committedAgain ∧
      committedAgain.ids = [1, 1] ∧ committedAgain.finished = [1] ∧
      (.statement (some 1) insertText, some 0) ∈ committedAgain.entries ∧
      (replayedRecords none (committedAgain.log.map LogEntry.record)).map
        WalRecord.sql = [insertText] := by
  have restarts : insertedLifetime.step insertHost 1 (engineWith ∅) .restart =
      some interruptedLifetime := (some_get _).symm
  have begins : interruptedLifetime.step insertHost 1 (engineWith ∅)
      (.statement beginText) = some begunAgain :=
    step_ok (execute_beginText insertHost 1 ∅)
  have commits :
      begunAgain.step insertHost 1 (engineWith ∅) (.statement commitText) = some committedAgain :=
    (some_get _).symm
  refine ⟨?_, rfl, rfl, ?_, rfl⟩
  · simp only [foldlM_cons, foldlM_nil, step_begin, step_insert,
      restarts, begins, commits, bind_eq_bind, bind_some]
    rfl
  · exact mem_cons_of_mem _ mem_cons_self

end Example

end TurboGP.Engine
