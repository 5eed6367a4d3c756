import Mathlib.Data.List.Nodup
import TurboGP.Lib.GuardedRun
import TurboGP.Storage.Record

/-!
# Primary and replica

`stream_from_lsn`, `run_apply_loop` and `resume_from_lsn` of
`storage/replication.rs`: a replica applies what one connection after the other
delivers.
-/

namespace TurboGP.Storage

open GuardedRun List

/-- The records that are sent; a failed send is skipped. -/
def streamFromLsn (records : List WalRecord) (start : UInt64) (sends : WalRecord → Bool) :
    List WalRecord :=
  records.filter fun record => (record.lsn == 0 || start ≤ record.lsn) && sends record

def resumeFromLsn (lastApplied : UInt64) : UInt64 :=
  let next := if lastApplied = 0xFFFFFFFFFFFFFFFF then lastApplied else lastApplied + 1
  if next < 1 then 1 else next

/-- The log of the primary, the lines of the connection that the replica has not
read, and what the replica has done. -/
structure ReplicaPair where
  log : List WalRecord := []
  inFlight : List WalRecord := []
  /-- There is no connection, or a send on it has failed. -/
  broken : Bool := true
  lastAppliedLsn : UInt64 := 0
  applied : List WalRecord := []
  acks : List UInt64 := []
  deriving DecidableEq

inductive ReplicaEvent
  | append (record : WalRecord) (sent : Bool)
  | reconnect (sends : WalRecord → Bool)
  | receive (applies : Bool)
  | disconnect

namespace ReplicaPair

/-- What a reconnect resends when no send fails. -/
def missing (pair : ReplicaPair) : List WalRecord :=
  streamFromLsn pair.log (resumeFromLsn pair.lastAppliedLsn) fun _ => true

def step (continueOnError : Bool) (pair : ReplicaPair) : ReplicaEvent → Option ReplicaPair
  | .append record sent =>
    some
      { pair with
        log := pair.log ++ [record]
        inFlight := if sent then pair.inFlight ++ [record] else pair.inFlight
        broken := pair.broken || !sent }
  | .reconnect sends =>
    let sent := streamFromLsn pair.log (resumeFromLsn pair.lastAppliedLsn) sends
    some { pair with inFlight := sent, broken := sent != pair.missing }
  | .receive applies =>
    match pair.inFlight with
    | [] => none
    | record :: rest =>
      let acked := { pair with acks := record.lsn :: pair.acks, inFlight := rest }
      if applies then
        some
          { acked with
            applied := record :: pair.applied
            lastAppliedLsn :=
              if pair.lastAppliedLsn < record.lsn then record.lsn else pair.lastAppliedLsn }
      -- The line is acknowledged although the record was not applied.
      else if continueOnError then some acked
      else some { acked with inFlight := [], broken := true }
  | .disconnect => some { pair with inFlight := [], broken := true }

/-- The log numbers its records, every apply succeeds, and after a failed send
no send on the same connection succeeds. -/
def Allowed (pair : ReplicaPair) : ReplicaEvent → Prop
  | .append record sent =>
    (∀ older ∈ pair.log, older.lsn < record.lsn) ∧ record.lsn ≠ 0 ∧
      (sent = true → pair.broken = false)
  | .reconnect sends =>
    streamFromLsn pair.log (resumeFromLsn pair.lastAppliedLsn) sends <+: pair.missing
  | .receive applies => applies = true
  | .disconnect => True

/-- The replica may read these lines: whatever comes before a record in the log
is applied by then. -/
def Gapless (log : List WalRecord) : List WalRecord → List WalRecord → Prop
  | _, [] => True
  | applied, record :: rest =>
    record ∈ log ∧ (∀ older ∈ log, older.lsn < record.lsn → older ∈ applied) ∧
      Gapless log (record :: applied) rest

structure NoneSkipped (pair : ReplicaPair) : Prop where
  ascending : pair.log.Pairwise (·.lsn < ·.lsn)
  numbered : ∀ record ∈ pair.log, record.lsn ≠ 0
  reported : pair.lastAppliedLsn = 0 ∨ ∃ record ∈ pair.log, record.lsn = pair.lastAppliedLsn
  applied : ∀ record ∈ pair.log, record.lsn ≤ pair.lastAppliedLsn → record ∈ pair.applied
  acked : ∀ lsn ∈ pair.acks, lsn ≤ pair.lastAppliedLsn
  gapless : Gapless pair.log pair.applied pair.inFlight
  complete : pair.broken = false →
    ∀ record ∈ pair.log, record ∈ pair.applied ∨ record ∈ pair.inFlight

variable {log applied first : List WalRecord} {record : WalRecord}

theorem Gapless.of_isPrefix {sent : List WalRecord} (gapless : Gapless log applied sent)
    (begins : first <+: sent) : Gapless log applied first := by
  induction first generalizing applied sent with
  | nil => trivial
  | cons record rest ih =>
    obtain ⟨later, rfl⟩ := begins
    obtain ⟨isIn, before, gapless⟩ := gapless
    exact ⟨isIn, before, ih gapless (prefix_append ..)⟩

theorem Gapless.log_append (gapless : Gapless log applied first)
    (last : ∀ older ∈ log, older.lsn < record.lsn) : Gapless (log ++ [record]) applied first := by
  induction first generalizing applied with
  | nil => trivial
  | cons head rest ih =>
    obtain ⟨isIn, before, gapless⟩ := gapless
    refine ⟨mem_append_left _ isIn, ?_, ih gapless⟩
    intro older mem below
    rcases mem_append.mp mem with mem | mem
    · exact before older mem below
    · cases mem_singleton.mp mem
      grind

theorem Gapless.append (gapless : Gapless log applied first) (isIn : record ∈ log)
    (before : ∀ older ∈ log, older.lsn < record.lsn → older ∈ applied ∨ older ∈ first) :
    Gapless log applied (first ++ [record]) := by
  induction first generalizing applied with
  | nil => simpa [Gapless, isIn] using before
  | cons head rest ih =>
    obtain ⟨headIn, headBefore, gapless⟩ := gapless
    refine ⟨headIn, headBefore, ih gapless ?_⟩
    intro older mem below
    simpa [or_assoc, or_left_comm] using before older mem below

theorem gapless_streamFromLsn {done rest : List WalRecord} {start : UInt64}
    (ascending : (done ++ rest).Pairwise (·.lsn < ·.lsn))
    (known : ∀ record ∈ done ++ rest, record ∈ done ∨ record.lsn < start → record ∈ applied) :
    Gapless (done ++ rest) applied (streamFromLsn rest start fun _ => true) := by
  induction rest generalizing done applied with
  | nil => trivial
  | cons head rest ih =>
    have whole : done ++ head :: rest = (done ++ [head]) ++ rest := by simp
    by_cases sent : head.lsn = 0 ∨ start ≤ head.lsn
    · have first : streamFromLsn (head :: rest) start (fun _ => true) =
          head :: streamFromLsn rest start fun _ => true := by
        simp [streamFromLsn, sent]
      rw [first]
      refine ⟨by simp, ?_, ?_⟩
      · intro older mem below
        refine known older mem (.inl ?_)
        rw [pairwise_append, pairwise_cons] at ascending
        grind
      · rw [whole] at ascending known ⊢
        apply ih ascending
        grind
    · have skipped : streamFromLsn (head :: rest) start (fun _ => true) =
          streamFromLsn rest start fun _ => true := by
        simp [streamFromLsn, sent]
      rw [skipped, whole]
      rw [whole] at ascending known
      apply ih ascending
      grind

theorem NoneSkipped.step {continueOnError : Bool} {pair next : ReplicaPair} {event : ReplicaEvent}
    (inv : NoneSkipped pair) (allowed : pair.Allowed event)
    (ran : pair.step continueOnError event = some next) : NoneSkipped next := by
  obtain ⟨ascending, numbered, reported, applied, acked, gapless, complete⟩ := inv
  cases event with
  | append record sent =>
    obtain ⟨last, isNumbered, connected⟩ := allowed
    have grown := gapless.log_append last
    cases ran
    refine ⟨?_, ?_, by grind, ?_, acked, ?_, ?_⟩
    · simpa [pairwise_append] using ⟨ascending, last⟩
    · simpa [or_imp, forall_and] using ⟨numbered, isNumbered⟩
    · have above : pair.lastAppliedLsn < record.lsn := by
        rcases reported with none | ⟨older, mem, same⟩
        · grind
        · rw [← same]
          exact last older mem
      grind
    · cases sent with
      | false => exact grown
      | true => exact grown.append (by simp) (by grind)
    · cases sent <;> grind
  | reconnect sends =>
    cases ran
    have known : ∀ record ∈ pair.log, record.lsn < resumeFromLsn pair.lastAppliedLsn →
        record ∈ pair.applied := by
      intro record mem below
      apply applied record mem
      simp only [resumeFromLsn] at below
      grind
    have missing : Gapless pair.log pair.applied pair.missing :=
      @gapless_streamFromLsn pair.applied [] pair.log _ ascending (by grind)
    refine ⟨ascending, numbered, reported, applied, acked, missing.of_isPrefix allowed, ?_⟩
    intro whole record mem
    rw [bne_eq_false_iff_eq] at whole
    rw [whole]
    by_cases old : record.lsn < resumeFromLsn pair.lastAppliedLsn
    · exact .inl (known record mem old)
    · right
      simpa [ReplicaPair.missing, streamFromLsn, mem] using .inr (UInt64.not_lt.mp old)
  | receive applies =>
    cases allowed
    cases lines : pair.inFlight with
    | nil => simp [ReplicaPair.step, lines] at ran
    | cons record rest =>
      rw [lines] at gapless complete
      obtain ⟨isIn, before, gapless⟩ := gapless
      simp only [ReplicaPair.step, lines, if_true, Option.some.injEq] at ran
      subst ran
      have unique : ∀ other ∈ pair.log, other.lsn = record.lsn → other = record := by
        intro other mem same
        have distinct : (pair.log.map WalRecord.lsn).Nodup :=
          (pairwise_map.mpr ascending).imp UInt64.ne_of_lt
        exact inj_on_of_nodup_map distinct mem isIn same
      refine ⟨ascending, numbered, by grind, ?_, by grind, gapless, by grind⟩
      intro other mem below
      by_cases old : other.lsn ≤ pair.lastAppliedLsn
      · exact mem_cons_of_mem _ (applied other mem old)
      · grind
  | disconnect =>
    cases ran
    exact ⟨ascending, numbered, reported, applied, acked, trivial, nofun⟩

theorem noneSkipped_start : NoneSkipped {} where
  ascending := .nil
  numbered := nofun
  reported := .inl rfl
  applied := nofun
  acked := nofun
  gapless := trivial
  complete := nofun

/-- The log is what the replica has applied, what is on its way and what was
not sent. -/
structure InOrder (pair : ReplicaPair) : Prop where
  skips : NoneSkipped pair
  reached : ∀ record ∈ pair.applied, record.lsn ≤ pair.lastAppliedLsn
  delivered : ∃ unsent, pair.log = pair.applied.reverse ++ (pair.inFlight ++ unsent) ∧
    (pair.broken = false → unsent = [])

variable {pair next : ReplicaPair} {continueOnError : Bool} {event : ReplicaEvent}

/-- After the last number of 64 bits a reconnect sends its record again. -/
def AllowedBelow (pair : ReplicaPair) (event : ReplicaEvent) : Prop :=
  pair.Allowed event ∧ pair.lastAppliedLsn ≠ 0xFFFFFFFFFFFFFFFF

theorem InOrder.missing_eq {rest : List WalRecord} (inOrder : InOrder pair)
    (below : pair.lastAppliedLsn ≠ 0xFFFFFFFFFFFFFFFF)
    (split : pair.log = pair.applied.reverse ++ rest) : pair.missing = rest := by
  obtain ⟨⟨ascending, numbered, -, applied, -, -, -⟩, reached, -⟩ := inOrder
  have above : ∀ record ∈ rest, pair.lastAppliedLsn < record.lsn := by
    rw [split, pairwise_append] at ascending
    grind
  have start (lsn : UInt64) :
      resumeFromLsn pair.lastAppliedLsn ≤ lsn ↔ pair.lastAppliedLsn < lsn := by
    unfold resumeFromLsn
    grind
  rw [missing, streamFromLsn, split, filter_append, filter_eq_nil_iff.mpr, filter_eq_self.mpr]
  · rfl
  · grind
  · grind

theorem InOrder.step (inOrder : InOrder pair) (allowed : pair.AllowedBelow event)
    (ran : pair.step continueOnError event = some next) : InOrder next := by
  obtain ⟨allowed, below⟩ := allowed
  have skips := inOrder.skips.step allowed ran
  have reached := inOrder.reached
  obtain ⟨unsent, split, whole⟩ := inOrder.delivered
  cases event with
  | append record sent =>
    cases ran
    cases sent with
    | true => exact ⟨skips, reached, [], by simp [split, whole (allowed.2.2 rfl)], fun _ => rfl⟩
    | false => exact ⟨skips, reached, unsent ++ [record], by simp [split], by simp⟩
  | reconnect sends =>
    cases ran
    have missing := inOrder.missing_eq below split
    obtain ⟨unsent, sent⟩ := allowed
    refine ⟨skips, reached, unsent, ?_, by simp [← sent]⟩
    exact split.trans (congrArg _ (missing.symm.trans sent.symm))
  | receive applies =>
    cases allowed
    cases lines : pair.inFlight with
    | nil => simp [ReplicaPair.step, lines] at ran
    | cons record rest =>
      simp only [ReplicaPair.step, lines, if_true, Option.some.injEq] at ran
      subst ran
      exact ⟨skips, by grind, unsent, by simp [split, lines], whole⟩
  | disconnect =>
    cases ran
    exact ⟨skips, reached, _, split, nofun⟩

end ReplicaPair

namespace Example

open ReplicaPair

def firstRecord : WalRecord :=
  { WalRecord.autocommit ['a'] with lsn := 1 }

def secondRecord : WalRecord :=
  { firstRecord with lsn := 2 }

end Example

end TurboGP.Storage
