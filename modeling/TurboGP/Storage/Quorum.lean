import Mathlib.Data.List.Count

/-!
# Quorum acknowledgement

`MultiWalStreamSink` of `storage/replication.rs`: a record is streamed to every
follower, and `sync_wait` counts those whose `wait_for_ack` returns Ok.
-/

namespace TurboGP.Storage

open List

inductive QuorumPolicy
  | majority
  | all
  | any
  deriving DecidableEq

def QuorumPolicy.required (policy : QuorumPolicy) (n : Nat) : Nat :=
  match policy with
  | .majority => n / 2 + 1
  | .all => n
  | .any => min 1 n

/-- Writer and reader are set and dropped together. -/
structure WalStreamer where
  connected : Bool
  killed : Bool := false
  pendingAckLsn : Option UInt64 := none
  deriving DecidableEq

/-- A streamer, and whether a write and a flush on its socket succeed. -/
structure Follower extends WalStreamer where
  writes : Bool
  flushes : Bool
  deriving DecidableEq

/-- What a follower does with a record. -/
structure Reply where
  /-- The lsn of the ACK line it sends before the timeout. -/
  ack : Option UInt64
  /-- The outcome of its thread is received before the deadline. -/
  inTime : Bool

variable (policy : QuorumPolicy) (lsn : UInt64)

namespace Follower

variable (follower : Follower) (reply : Reply)

/-- The pending lsn after `stream_record`; an error leaves it, and the sink only
logs the error. -/
def streamRecord : Option UInt64 :=
  if follower.killed || (follower.connected && !follower.writes) then follower.pendingAckLsn
  else some lsn

def readAndVerifyAck (expected : UInt64) : Bool := reply.ack == some expected

/-- Whether `wait_for_ack` returns Ok after `stream_record`. -/
def waitForAck : Bool :=
  if follower.killed then false
  else
    match follower.streamRecord lsn with
    | none => !follower.connected || follower.flushes
    | some expected => !follower.connected || readAndVerifyAck reply expected

def counts : Bool := follower.waitForAck lsn reply && reply.inTime

/-- The record is written, or its ACK is pending from an earlier call. -/
def mayAcknowledge : Bool :=
  !follower.killed && follower.connected &&
    (follower.writes || follower.pendingAckLsn == some lsn)

def acknowledges : Bool := follower.mayAcknowledge lsn && reply.ack == some lsn

/-- `wait_for_ack` may return Ok without an ACK of the record: nothing is sent,
or the write failed and an older lsn or none is pending. -/
def isPhantom : Bool :=
  !follower.killed &&
    (!follower.connected || (!follower.writes &&
        match follower.pendingAckLsn with
        | none => follower.flushes
        | some stale => stale != lsn))

def mayCount : Bool := follower.isPhantom lsn || follower.mayAcknowledge lsn

variable {lsn follower reply}

theorem acknowledges_of_counts (counted : follower.counts lsn reply = true)
    (real : follower.isPhantom lsn = false) : follower.acknowledges lsn reply = true := by
  revert counted real
  simp only [counts, waitForAck, streamRecord, readAndVerifyAck, isPhantom, mayAcknowledge,
    acknowledges]
  cases follower.killed <;> cases follower.connected <;> cases follower.writes <;>
    cases follower.pendingAckLsn <;> simp <;> grind

theorem mayCount_of_counts (counted : follower.counts lsn reply = true) :
    follower.mayCount lsn = true := by
  revert counted
  simp only [counts, waitForAck, streamRecord, readAndVerifyAck, mayCount, isPhantom,
    mayAcknowledge]
  cases follower.killed <;> cases follower.connected <;> cases follower.writes <;>
    cases follower.pendingAckLsn <;> simp <;> grind

/-- The reply for which a phantom is counted, and none acknowledges. -/
theorem phantom_counts (phantom : follower.isPhantom lsn = true) :
    follower.counts lsn ⟨follower.pendingAckLsn, true⟩ = true ∧
      follower.acknowledges lsn ⟨follower.pendingAckLsn, true⟩ = false := by
  revert phantom
  simp only [counts, waitForAck, streamRecord, readAndVerifyAck, isPhantom, mayAcknowledge,
    acknowledges]
  cases follower.killed <;> cases follower.connected <;> cases follower.writes <;>
    cases follower.pendingAckLsn <;> simp

theorem mayAcknowledge_counts (may : follower.mayAcknowledge lsn = true) :
    follower.counts lsn ⟨some lsn, true⟩ = true ∧
      follower.acknowledges lsn ⟨some lsn, true⟩ = true := by
  revert may
  simp only [counts, waitForAck, streamRecord, readAndVerifyAck, mayAcknowledge, acknowledges]
  cases follower.killed <;> cases follower.connected <;> cases follower.writes <;>
    cases follower.pendingAckLsn <;> simp +contextual

end Follower

abbrev Replies := List (Follower × Reply)

/-- Whether `sync_wait` returns Ok after `stream`. -/
def syncWait (replies : Replies) : Bool :=
  replies.isEmpty ||
    policy.required replies.length ≤ replies.countP fun (follower, reply) =>
      follower.counts lsn reply

def acknowledgements (replies : Replies) : Nat :=
  replies.countP fun (follower, reply) => follower.acknowledges lsn reply

/-- Whatever the followers answer, Ok means that enough of them acknowledged
the record. -/
def HonestQuorum (followers : List Follower) : Prop :=
  ∀ replies : Replies, replies.map Prod.fst = followers →
    syncWait policy lsn replies = true →
    policy.required followers.length ≤ acknowledgements lsn replies

variable {policy lsn} {followers : List Follower}

/-- Some replies bring about so many counted and so many acknowledging
followers. -/
def Achieves (lsn : UInt64) (followers : List Follower) (counted acked : Nat) : Prop :=
  ∃ replies : Replies, replies.map Prod.fst = followers ∧
    (replies.countP fun (follower, reply) => follower.counts lsn reply) = counted ∧
    acknowledgements lsn replies = acked

theorem Achieves.cons {counted acked : Nat} (achieves : Achieves lsn followers counted acked)
    (follower : Follower) (reply : Reply) :
    Achieves lsn (follower :: followers)
      (counted + if follower.counts lsn reply then 1 else 0)
      (acked + if follower.acknowledges lsn reply then 1 else 0) := by
  obtain ⟨replies, rfl, rfl, rfl⟩ := achieves
  exact ⟨(follower, reply) :: replies, rfl, countP_cons .., countP_cons ..⟩

/-- Phantoms are counted before those that acknowledge. -/
theorem achieves_phantoms_first {count : Nat} (enough : count ≤ followers.countP (·.mayCount lsn)) :
    Achieves lsn followers count (count - followers.countP (·.isPhantom lsn)) := by
  induction followers generalizing count with
  | nil =>
    cases Nat.le_zero.mp enough
    exact ⟨[], rfl, rfl, rfl⟩
  | cons follower rest ih =>
    have silent (fits : count ≤ rest.countP (·.mayCount lsn)) :
        Achieves lsn (follower :: rest) count (count - rest.countP (·.isPhantom lsn)) := by
      simpa [Follower.counts, Follower.acknowledges] using (ih fits).cons follower ⟨none, false⟩
    rw [countP_cons] at enough ⊢
    by_cases phantom : follower.isPhantom lsn = true
    · cases count with
      | zero => simpa using silent (Nat.zero_le _)
      | succ count =>
        have may : follower.mayCount lsn = true := by simp [Follower.mayCount, phantom]
        have others := ih (Nat.le_of_succ_le_succ (by simpa [may] using enough))
        simpa [phantom, Follower.phantom_counts phantom] using
          others.cons follower ⟨follower.pendingAckLsn, true⟩
    · by_cases fits : count ≤ rest.countP (·.mayCount lsn)
      · simpa [phantom] using silent fits
      · have may : follower.mayCount lsn = true := by
          by_contra no
          rw [if_neg no] at enough
          exact fits enough
        have last : count = rest.countP (·.mayCount lsn) + 1 := by
          rw [if_pos may] at enough
          omega
        have phantoms : rest.countP (·.isPhantom lsn) ≤ rest.countP (·.mayCount lsn) :=
          countP_mono_left fun other _ isPhantom => by simp [Follower.mayCount, isPhantom]
        have others := (ih (Nat.le_refl _)).cons follower ⟨some lsn, true⟩
        simp only [Follower.mayCount, phantom, Bool.false_or] at may
        simp only [Follower.mayAcknowledge_counts may, if_true] at others
        rw [← Nat.sub_add_comm phantoms, ← last] at others
        simpa [phantom] using others

/-- Honest, exactly if no follower can be counted without an ACK, or too few can
be counted at all; a sink without followers has a majority at once. -/
theorem honestQuorum_iff : HonestQuorum policy lsn followers ↔
      (followers = [] → policy ≠ .majority) ∧
        ((∀ follower ∈ followers, follower.isPhantom lsn = false) ∨
          followers.countP (·.mayCount lsn) < policy.required followers.length) := by
  cases followers with
  | nil =>
    constructor
    · intro honest
      have none := honest [] rfl rfl
      cases policy <;> simp_all [QuorumPolicy.required, acknowledgements]
    · rintro ⟨other, -⟩ replies empty -
      cases policy <;> simp_all [QuorumPolicy.required]
  | cons first rest =>
    have ok {replies : Replies} (same : replies.map Prod.fst = first :: rest) :
        syncWait policy lsn replies = true ↔
          policy.required (first :: rest).length ≤ replies.countP fun (follower, reply) =>
            follower.counts lsn reply := by
      rw [← same, length_map]
      cases replies <;> simp_all [syncWait]
    have pos : 0 < policy.required (first :: rest).length := by
      cases policy <;> simp [QuorumPolicy.required]
    simp only [reduceCtorEq, false_implies, true_and]
    constructor
    · intro honest
      by_contra bad
      simp only [not_or, Nat.not_lt, not_forall] at bad
      obtain ⟨⟨follower, mem, phantom⟩, enough⟩ := bad
      obtain ⟨replies, same, counted, acked⟩ := achieves_phantoms_first enough
      have atLeast := honest replies same ((ok same).mpr (Nat.le_of_eq counted.symm))
      have some : 0 < (first :: rest).countP (·.isPhantom lsn) :=
        countP_pos_iff.mpr ⟨follower, mem, by simpa using phantom⟩
      omega
    · intro few replies same isOk
      apply Nat.le_trans ((ok same).mp isOk)
      rw [← same] at few
      rcases few with real | few
      · apply countP_mono_left
        intro answered isIn counted
        exact Follower.acknowledges_of_counts counted (real _ (mem_map_of_mem isIn))
      · have below : (replies.countP fun (follower, reply) => follower.counts lsn reply) ≤
            (replies.map Prod.fst).countP (·.mayCount lsn) := by
          rw [countP_map]
          exact countP_mono_left fun _ _ => Follower.mayCount_of_counts
        have enough := (ok same).mp isOk
        rw [← same] at enough
        omega

/-- A failed write leaves nothing pending, and the flush counts as an ACK. -/
theorem Example.failed_write_counted :
    ¬ HonestQuorum .all 1 [{ connected := true, writes := false, flushes := true }] := by
  intro honest
  have acked := honest [(_, ⟨none, true⟩)] rfl rfl
  exact absurd acked (by decide)

end TurboGP.Storage
