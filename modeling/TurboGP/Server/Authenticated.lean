import TurboGP.Server.Reading

/-! # Queries before authentication -/

namespace TurboGP.Server

open Sql.Text Engine Effect PgConn List

structure StartupPacket (a b c d : UInt8) (body : Bytes) : Prop where
  length : i32Of a b c d = body.length + 4
  bounded : body.length + 4 ≤ 1000000

def packetKind : Bytes → Option StartupKind
  | a :: b :: c :: d :: _ => some (startupKind (i32Of a b c d))
  | _ => none

def startupMagic : Bytes → Int
  | a :: b :: c :: d :: _ => i32Of a b c d
  | _ => 0

/-- The stream is a cancel request, after any number of requests for
encryption, followed by `rest`. -/
inductive CancelsThen : Bytes → Bytes → Prop
  | cancel {a b c d : UInt8} {body rest : Bytes}
      (packet : StartupPacket a b c d body) (kind : packetKind body = some .cancel) :
      CancelsThen (a :: b :: c :: d :: (body ++ rest)) rest
  | request {a b c d : UInt8} {body rest last : Bytes}
      (packet : StartupPacket a b c d body) (kind : packetKind body = some .encryption)
      (later : CancelsThen rest last) :
      CancelsThen (a :: b :: c :: d :: (body ++ rest)) last

variable {conn next : PgConn} {body : Bytes} {host : WireHost}

theorem readStartupPacket_append
    {a b c d : UInt8} {rest : Bytes} (packet : StartupPacket a b c d body)
    (stream : conn.input = a :: b :: c :: d :: (body ++ rest)) :
    readStartupPacket conn = .ok body { conn with input := rest } := by
  have length := packet.length
  have bounded := packet.bounded
  have inRange : ¬ (i32Of a b c d < 4 ∨ 1000000 < i32Of a b c d) := by omega
  have bodyLength : (i32Of a b c d - 4).toNat = body.length := by omega
  have small : ¬ maxAllocation < body.length := by
    unfold maxAllocation
    omega
  unfold readStartupPacket
  rw [bind_run_ok (readI32Be_cons stream)]
  rw [if_neg inRange, bodyLength]
  unfold readBody
  rw [if_neg small]
  exact readExact_append rfl

theorem readStartupPacket_returned (ran : readStartupPacket conn = .ok body next) :
    ∃ a b c d, StartupPacket a b c d body ∧
      conn.input = a :: b :: c :: d :: (body ++ next.input) ∧
      next = { conn with input := next.input } := by
  rcases four_or_short conn.input with ⟨a, b, c, d, rest, stream⟩ | short
  · unfold readStartupPacket at ran
    rw [bind_run_ok (readI32Be_cons stream)] at ran
    split at ran
    · cases ran
    · next inRange =>
      unfold readBody at ran
      split at ran
      · cases ran
      · obtain ⟨length, rest, same⟩ := readExact_eq_ok_iff.mp ran
        refine ⟨a, b, c, d, ⟨?_, ?_⟩, ?_, ?_⟩
        · omega
        · omega
        · rw [stream]
          simp only at rest
          rw [rest]
        · rw [same]
  · unfold readStartupPacket at ran
    rw [bind_run_error (readI32Be_short short)] at ran
    cases ran

variable {authRequired : Bool} {fuel : Nat}

theorem handleStartup_packet {kind : StartupKind}
    (read : readStartupPacket conn = .ok body next) (packet : packetKind body = some kind) :
    handleStartup host authRequired (fuel + 1) conn = (match kind with
        | .encryption => do
          send .decline
          handleStartup host authRequired fuel
        | .cancel => pure ()
        | .version3 => openSession host authRequired body
        | .unsupported =>
          reject "08P01" "unsupported protocol"
            (invalidData s!"magic {startupMagic body}")) next := by
  rw [handleStartup, bind_run_ok read]
  unfold packetKind at packet
  split at packet
  · next a b c d rest =>
    cases packet
    rfl
  · cases packet

theorem handleStartup_short
    (read : readStartupPacket conn = .ok body next) (short : packetKind body = none) :
    handleStartup host authRequired (fuel + 1) conn =
      .error (invalidData "startup too short") next := by
  rw [handleStartup, bind_run_ok read]
  match body with
  | _ :: _ :: _ :: _ :: _ => cases short
  | [] | [_] | [_, _] | [_, _, _] => rfl

def Records (allowed : Event → Prop) (old new : PgConn) : Prop :=
  ∃ added, new.trace = old.trace ++ added ∧ ∀ event ∈ added, allowed event

section

variable {allowed : Event → Prop}

theorem Records.of_trace_eq {old new : PgConn} (same : new.trace = old.trace) :
    Records allowed old new :=
  ⟨[], by rw [same, append_nil], fun _ mem => by cases mem⟩

instance : IsPreorder PgConn (Records allowed) where
  refl := fun _ => .of_trace_eq rfl
  trans := by
    rintro first second third ⟨before, trace, beforeOk⟩ ⟨after, laterTrace, afterOk⟩
    refine ⟨before ++ after, ?_, ?_⟩
    · rw [laterTrace, trace, append_assoc]
    · intro event member
      rcases mem_append.mp member with earlier | later
      · exact beforeOk event earlier
      · exact afterOk event later

variable {conn : PgConn} {α : Type}

theorem records_of_local {prog : ConnM α} (stays : Moves Local conn prog) :
    Moves (Records allowed) conn prog :=
  stays.weaken fun _ _ kept => .of_trace_eq kept.trace

theorem records_readExact (count : Nat) : Moves (Records allowed) conn (readExact count) := by
  unfold Moves finalState readExact
  by_cases enough : count ≤ conn.input.length <;> simp only [enough, if_true, if_false] <;>
    exact .of_trace_eq rfl

theorem records_readI32Be : Moves (Records allowed) conn readI32Be := by
  refine .bind (records_readExact 4) fun bytes _ _ => ?_
  split
  · exact .pure _
  · exact .throw _

theorem records_readBody (bodyLen : Nat) : Moves (Records allowed) conn (readBody bodyLen) := by
  unfold readBody
  split
  · exact .throw _
  · exact records_readExact _

theorem records_readStartupPacket : Moves (Records allowed) conn readStartupPacket := by
  refine .bind records_readI32Be fun len _ _ => ?_
  split
  · exact .throw _
  · exact records_readBody _

theorem records_readPassword (error : String) :
    Moves (Records allowed) conn (readPassword error) := by
  refine .bind (records_readExact 1) fun bytes _ _ => ?_
  split
  · split
    · exact .throw _
    · refine .bind records_readI32Be fun len _ _ => ?_
      simp only
      split
      · exact .throw _
      · exact records_readBody _
  · exact .throw _

theorem records_reject (code message : String) (fault : ConnFault) :
    Moves (Records allowed) conn (reject code message fault : ConnM α) :=
  .bind (records_of_local (local_send _)) fun _ _ _ => .throw _

end

section

variable {conn : PgConn} (host : WireHost)

theorem local_draw : Moves Local conn draw :=
  .get_bind (.bind (.set ⟨⟨rfl, rfl⟩, rfl⟩) fun _ _ _ => .pure _)

theorem local_sendAuthOkAndParams : Moves Local conn (sendAuthOkAndParams host) := by
  refine .bind (local_send _) fun _ _ _ => ?_
  refine .bind (.forM fun _ _ _ _ => local_send _) fun _ _ _ => ?_
  refine .bind local_draw fun _ _ _ => ?_
  refine .bind local_draw fun _ _ _ => ?_
  exact .bind (local_send _) fun _ _ _ => local_sendReadyForQuery

theorem finishScram_returned (cred : StoredCredential) (clientFirstBare serverFirst : List Char) :
    Ensures (fun _ next => .verified ∈ next.trace) conn
      (finishScram host cred clientFirstBare serverFirst) := by
  refine .bind fun clientFinal middle _ => ?_
  split
  · exact .bind fun _ _ _ => .throw _
  split
  · refine .bind fun _ recorded isRecorded => ?_
    refine (Ensures.of_moves (Moves.bind (local_send _) fun _ _ _ =>
          local_sendAuthOkAndParams host)).weaken fun _ next kept => ?_
    cases isRecorded
    rw [kept.trace]
    exact mem_append_right _ mem_cons_self
  · exact .bind fun _ _ _ => .throw _

theorem records_finishScram (cred : StoredCredential) (clientFirstBare serverFirst : List Char) :
    Moves (Records (· = .verified)) conn (finishScram host cred clientFirstBare serverFirst) := by
  refine .bind (records_readPassword _) fun clientFinal _ _ => ?_
  split
  · exact records_reject _ _ _
  split
  · refine .bind (.modify ?_) fun _ _ _ => ?_
    · refine ⟨[.verified], rfl, ?_⟩
      intro event mem
      exact mem_singleton.mp mem
    · refine .bind (records_of_local (local_send _)) fun _ _ _ => ?_
      exact records_of_local (local_sendAuthOkAndParams host)
  · exact records_reject _ _ _

theorem challenge_returned (clientFirstBare username clientNonce : List Char) :
    Ensures (fun _ next => .verified ∈ next.trace) conn
      (challenge host clientFirstBare username clientNonce) := by
  refine .bind fun _ _ _ => ?_
  split
  · exact .bind fun _ _ _ => .throw _
  · refine .bind fun _ _ _ => ?_
    refine .bind fun _ _ _ => ?_
    exact finishScram_returned host _ _ _

theorem records_challenge (clientFirstBare username clientNonce : List Char) :
    Moves (Records (· = .verified)) conn (challenge host clientFirstBare username clientNonce) := by
  refine .get_bind ?_
  split
  · exact records_reject _ _ _
  · refine .bind (records_of_local local_draw) fun _ _ _ => ?_
    refine .bind (records_of_local (local_send _)) fun _ _ _ => ?_
    exact records_finishScram host _ _ _

theorem doScramAuth_returned :
    Ensures (fun _ next => .verified ∈ next.trace) conn (doScramAuth host) := by
  refine .bind fun _ _ _ => ?_
  refine .bind fun initial _ _ => ?_
  split
  · exact .bind fun _ _ _ => .throw _
  split
  · exact .bind fun _ _ _ => .throw _
  · simp only
    split
    · exact .bind fun _ _ _ => .throw _
    · exact challenge_returned host _ _ _

theorem records_doScramAuth : Moves (Records (· = .verified)) conn (doScramAuth host) := by
  refine .bind (records_of_local (local_send _)) fun _ _ _ => ?_
  have reads : ∀ begun, Moves (Records (· = .verified)) begun readSaslInitialResponse :=
    fun begun =>
      .bind (records_readPassword _) fun _ _ _ =>
        records_of_local (local_parseBody _ _)
  refine .bind (reads _) fun initial _ _ => ?_
  split
  · exact records_reject _ _ _
  split
  · exact records_reject _ _ _
  · simp only
    split
    · exact records_reject _ _ _
    · exact records_challenge host _ _ _

/-- The startup returns after a verified proof, or after a cancel request
without a record. -/
theorem handleStartup_returned {fuel : Nat} {next : PgConn}
    (ran : handleStartup host true fuel conn = .ok () next) :
    .verified ∈ next.trace ∨ next.trace = conn.trace ∧ CancelsThen conn.input next.input := by
  induction fuel generalizing conn with
  | zero => cases ran
  | succ fuel ih =>
    cases read : readStartupPacket conn with
    | error fault middle =>
      rw [handleStartup, bind_run_error read] at ran
      cases ran
    | ok body middle =>
      obtain ⟨a, b, c, d, packet, stream, same⟩ := readStartupPacket_returned read
      have trace : middle.trace = conn.trace := by rw [same]
      cases magic : packetKind body with
      | none =>
        rw [handleStartup_short read magic] at ran
        cases ran
      | some kind =>
        rw [handleStartup_packet read magic] at ran
        rw [stream]
        cases kind with
        | encryption =>
          refine (ih ran).imp_right fun ⟨kept, cancels⟩ => ?_
          exact ⟨kept.trans trace, .request packet magic cancels⟩
        | cancel =>
          cases ran
          exact .inr ⟨trace, .cancel packet magic⟩
        | version3 =>
          left
          exact Ensures.bind (fun _ _ _ => doScramAuth_returned host) () next ran
        | unsupported => cases ran

theorem records_handleStartup (fuel : Nat) :
    Moves (Records (· = .verified)) conn (handleStartup host true fuel) := by
  induction fuel generalizing conn with
  | zero => exact .throw _
  | succ fuel ih =>
    refine .bind records_readStartupPacket fun body _ _ => ?_
    split
    · simp only
      split
      · exact .bind (records_of_local (local_send _)) fun _ _ _ =>
            ih
      · exact .pure _
      · exact .bind (.modify (.of_trace_eq rfl)) fun _ _ _ =>
            records_doScramAuth host
      · exact records_reject _ _ _
    · exact .throw _

theorem handleStartup_cancelled {input rest : Bytes} (cancels : CancelsThen input rest) :
    ∀ {fuel : Nat} {conn : PgConn}, conn.input = input → input.length < fuel →
      ∃ next, handleStartup host true fuel conn = .ok () next ∧
      next.trace = conn.trace ∧ next.input = rest := by
  induction cancels with
  | cancel packet kind =>
    intro fuel conn stream enough
    obtain _ | fuel := fuel
    · omega
    rw [handleStartup_packet (readStartupPacket_append packet stream) kind]
    exact ⟨_, rfl, rfl, rfl⟩
  | request packet kind _ ih =>
    intro fuel conn stream enough
    obtain _ | fuel := fuel
    · omega
    rw [handleStartup_packet (readStartupPacket_append packet stream) kind]
    simp only [length_cons, length_append] at enough
    exact ih rfl (by omega)

end

/-- The messages that `handle_simple_query`, `handle_parse`, `handle_bind`,
`handle_describe` and `handle_execute` are called for. -/
def isCall (msgType : UInt8) : Bool :=
  msgType == 81 || msgType == 80 || msgType == 66 || msgType == 68 ||
    msgType == 69

def Event.calls : Event → Bool
  | .verified => false
  | .dispatched msgType _ => isCall msgType

def CallsVerified (trace : List Event) : Prop :=
  ∀ earlier event later,
    trace = earlier ++ event :: later → event.calls = true → .verified ∈ earlier

/-- The messages in the stream reach a call: there may be Sync and Flush
messages before, whose body is taken for further messages, and complete
messages of other types. -/
inductive ReachesCall : Bytes → Prop
  | call {msgType a b c d : UInt8} {body rest : Bytes}
      (calls : isCall msgType = true) (length : i32Of a b c d = body.length + 4)
      (decodes : msgType = 81 → (queryText body).isSome = true) :
      ReachesCall (msgType :: a :: b :: c :: d :: (body ++ rest))
  | bare {msgType a b c d : UInt8} {rest : Bytes}
      (noBody : isBare msgType = true) (enough : 4 ≤ asUsize (i32Of a b c d))
      (later : ReachesCall rest) :
      ReachesCall (msgType :: a :: b :: c :: d :: rest)
  | skipped {msgType a b c d : UInt8} {body rest : Bytes}
      (other : isCall msgType = false) (withBody : isBare msgType = false)
      (notTerminate : msgType ≠ 88) (length : i32Of a b c d = body.length + 4)
      (later : ReachesCall rest) :
      ReachesCall (msgType :: a :: b :: c :: d :: (body ++ rest))

section

variable {msgType a b c d : UInt8} {body rest : Bytes}

theorem isBare_of_isCall (calls : isCall msgType = true) :
    isBare msgType = false ∧ msgType ≠ 88 := by
  unfold isCall at calls
  simp only [Bool.or_eq_true, beq_iff_eq] at calls
  rcases calls with (((rfl | rfl) | rfl) | rfl) | rfl <;> decide

theorem asUsize_of_length (length : i32Of a b c d = body.length + 4) :
    asUsize (i32Of a b c d) = body.length + 4 := by
  unfold asUsize
  rw [if_neg (by omega)]
  omega

theorem ReachesCall.hasHeader {input : Bytes} (reaches : ReachesCall input) : HasHeader input := by
  cases reaches with
  | call calls length decodes =>
    have enough := asUsize_of_length length
    exact ⟨_, _, _, _, _, _, rfl, (isBare_of_isCall calls).2, by omega⟩
  | bare noBody enough later =>
    refine ⟨_, _, _, _, _, _, rfl, ?_, enough⟩
    rintro rfl
    cases noBody
  | skipped other withBody notTerminate length later =>
    have enough := asUsize_of_length length
    exact ⟨_, _, _, _, _, _, rfl, notTerminate, by omega⟩

theorem reachesCall_bare_iff (noBody : isBare msgType = true)
    (enough : 4 ≤ asUsize (i32Of a b c d)) :
    ReachesCall (msgType :: a :: b :: c :: d :: rest) ↔ ReachesCall rest := by
  constructor
  · intro reaches
    cases reaches with
    | call calls _ _ => cases (isBare_of_isCall calls).1.symm.trans noBody
    | bare _ _ later => exact later
    | skipped _ withBody _ _ _ => cases withBody.symm.trans noBody
  · exact .bare noBody enough

theorem ReachesCall.complete (withBody : isBare msgType = false)
    (reaches : ReachesCall (msgType :: a :: b :: c :: d :: rest)) :
    ∃ body later : Bytes, i32Of a b c d = body.length + 4 ∧ rest = body ++ later := by
  cases reaches with
  | call _ length _ | skipped _ _ _ length _ => exact ⟨_, _, length, rfl⟩
  | bare noBody _ _ => cases withBody.symm.trans noBody

theorem reachesCall_body_iff (withBody : isBare msgType = false) (notTerminate : msgType ≠ 88)
    (length : i32Of a b c d = body.length + 4) :
    ReachesCall (msgType :: a :: b :: c :: d :: (body ++ rest)) ↔ (isCall msgType = true ∧
          (msgType = 81 → (queryText body).isSome = true)) ∨
        isCall msgType = false ∧ ReachesCall rest := by
  constructor
  · intro reaches
    generalize whole : body ++ rest = after at reaches
    cases reaches with
    | call calls otherLength decodes =>
      obtain ⟨rfl, rfl⟩ := append_inj whole (by omega)
      exact .inl ⟨calls, decodes⟩
    | bare noBody _ _ => cases withBody.symm.trans noBody
    | skipped other _ _ otherLength later =>
      obtain ⟨rfl, rfl⟩ := append_inj whole (by omega)
      exact .inr ⟨other, later⟩
  · rintro (⟨calls, decodes⟩ | ⟨other, later⟩)
    · exact .call calls length decodes
    · exact .skipped other withBody notTerminate length later

end

theorem handleBody_other {host : WireHost} {depth : Nat} {conn : PgConn} {msgType : UInt8}
    (buf : Bytes) (other : isCall msgType = false) :
    ∃ next, handleBody host depth msgType buf conn = .ok () next := by
  unfold isCall at other
  simp only [Bool.or_eq_false_iff, beq_eq_false_iff_ne] at other
  obtain ⟨⟨⟨⟨_, notParse⟩, notBind⟩, notDescribe⟩, notExecute⟩ := other
  unfold handleBody
  rw [if_neg notParse, if_neg notBind, if_neg notDescribe, if_neg notExecute]
  split
  · have closes : ∃ next, handleClose buf conn = .ok () next := by
      cases buf with
      | nil => exact ⟨_, rfl⟩
      | cons kind others =>
        unfold handleClose
        cases readCstring (kind :: others) 1 with
        | error fault cursor | ok name cursor => exact ⟨_, rfl⟩
    obtain ⟨next, closed⟩ := closes
    rw [bind_run_ok closed]
    exact ⟨_, rfl⟩
  · exact ⟨_, rfl⟩

/-- What the run from one state to another records: dispatched messages, with
a call among them or not. -/
structure Dispatches (old new : PgConn) (calls : Prop) : Prop where
  intro ::
  events : ∃ added, new.trace = old.trace ++ added ∧
    (∀ event ∈ added, event ≠ .verified) ∧ ((∃ event ∈ added, event.calls = true) ↔ calls)

section

variable {host : WireHost} {depth : Nat} {conn : PgConn} {old new : PgConn}
  {calls : Prop} {msgType : UInt8} {body : Bytes}

theorem Dispatches.none (same : new.trace = old.trace) (noCall : ¬ calls) :
    Dispatches old new calls :=
  ⟨[], by rw [same, append_nil], forall_mem_nil _, by simp [noCall]⟩

theorem Dispatches.of_trace_eq {other : PgConn} (dispatches : Dispatches old new calls)
    (same : other.trace = old.trace) : Dispatches other new calls := by
  refine ⟨?_⟩
  rw [same]
  exact dispatches.events

theorem Dispatches.single (trace : new.trace = old.trace ++ [.dispatched msgType body])
    (iff : isCall msgType = true ↔ calls) : Dispatches old new calls := by
  refine ⟨[.dispatched msgType body], trace, ?_, ?_⟩
  · simp
  · simp [← iff, Event.calls]

theorem Dispatches.cons {old middle new : PgConn} {msgType : UInt8} {body : Bytes}
    {calls later : Prop} (trace : middle.trace = old.trace ++ [.dispatched msgType body])
    (rest : Dispatches middle new later) (iff : isCall msgType = true ∨ later ↔ calls) :
    Dispatches old new calls := by
  obtain ⟨added, laterTrace, notVerified, laterIff⟩ := rest.events
  refine ⟨.dispatched msgType body :: added, ?_, ?_, ?_⟩
  · rw [laterTrace, trace, append_assoc]
    rfl
  · intro event mem
    rcases mem_cons.mp mem with rfl | mem
    · simp
    · exact notVerified event mem
  · rw [← iff, ← laterIff]
    simp [Event.calls]

theorem dispatches_handled {handler : ConnM Unit} {fuel : Nat}
    (keeps : Moves KeepsStream (conn.recorded msgType body) handler)
    (trace : conn.trace = old.trace) (isCalled : isCall msgType = true) (reached : calls)
    (rest : ∀ next, next.input = conn.input →
        Dispatches next (finalState (messageLoop host depth fuel) next) (ReachesCall next.input)) :
    Dispatches old
      (finalState (handler >>= fun _ => messageLoop host depth fuel) (conn.recorded msgType body))
      calls := by
  have recordedTrace : (conn.recorded msgType body).trace =
        old.trace ++ [.dispatched msgType body] :=
    congrArg (· ++ _) trace
  cases out : handler (conn.recorded msgType body) with
  | error fault next =>
    have kept := keeps.reached_error out
    unfold finalState
    rw [bind_run_error out]
    exact .single (kept.trace.trans recordedTrace) (iff_of_true isCalled reached)
  | ok value next =>
    have kept := keeps.reached out
    rw [finalState_bind_ok out]
    exact .cons (kept.trace.trans recordedTrace) (rest next kept.input)
      (iff_of_true (.inl isCalled) reached)

theorem dispatches_frame {a b c d : UInt8} {after : Bytes} {fuel : Nat}
    (withBody : isBare msgType = false) (notTerminate : msgType ≠ 88)
    (length : i32Of a b c d = body.length + 4) (stream : conn.input = body ++ after)
    (read : readBody body.length conn = .ok body { conn with input := after })
    (rest : ∀ next, next.input = after →
        Dispatches next (finalState (messageLoop host depth fuel) next) (ReachesCall next.input)) :
    Dispatches conn
      (finalState (dispatch host depth msgType body.length >>= fun _ => messageLoop host depth fuel)
        conn)
      (ReachesCall (msgType :: a :: b :: c :: d :: (body ++ after))) := by
  rw [reachesCall_body_iff withBody notTerminate length]
  by_cases query : msgType = 81
  · subst query
    cases decoded : queryText body with
    | none =>
      unfold finalState
      rw [bind_run_error (dispatch_undecoded decoded read)]
      refine .none rfl ?_
      rintro (⟨_, decodes⟩ | ⟨other, _⟩)
      · cases decodes rfl
      · cases other
    | some text =>
      have handled := @dispatch_query host depth conn after _ _ decoded stream read
      rw [finalState_bind_congr handled]
      exact dispatches_handled (keeps_handleSimpleQuery host depth text) rfl
        rfl (.inl ⟨rfl, fun _ => rfl⟩) rest
  · have handled := @dispatch_body host depth conn _ _ _ _ query withBody read
    rw [finalState_bind_congr handled]
    cases isCalled : isCall msgType with
    | true =>
      exact dispatches_handled (keeps_handleBody host depth msgType body) rfl
        isCalled (.inl ⟨rfl, fun isQuery => absurd isQuery query⟩) rest
    | false =>
      obtain ⟨next, out⟩ := @handleBody_other host depth
          ({ conn with input := after }.recorded msgType body) msgType body isCalled
      have kept := (keeps_handleBody host depth msgType body).reached out
      rw [finalState_bind_ok out]
      refine .cons kept.trace (rest next kept.input) ?_
      rw [isCalled, kept.input]
      simp [PgConn.recorded]

theorem messageLoop_dispatches {fuel : Nat} (enough : conn.input.length ≤ fuel) :
    Dispatches conn (finalState (messageLoop host depth fuel) conn) (ReachesCall conn.input) := by
  induction fuel generalizing conn with
  | zero =>
    have empty : conn.input = [] := length_eq_zero_iff.mp (Nat.le_zero.mp enough)
    refine .none rfl ?_
    rw [empty]
    intro reaches
    cases reaches
  | succ fuel ih =>
    by_cases header : HasHeader conn.input
    · obtain ⟨msgType, a, b, c, d, rest, stream, notTerminate, long⟩ := header
      have shorter : rest.length < fuel := by
        rw [stream] at enough
        simp only [length_cons] at enough
        omega
      have loops := @messageLoop_header host depth fuel conn _ _ _ _ _ _ stream notTerminate long
      rw [stream]
      unfold finalState
      rw [loops]
      cases bare : isBare msgType with
      | true =>
        obtain ⟨next, dispatched, input, trace⟩ :=
          @dispatch_bare host depth { conn with input := rest } msgType
            (asUsize (i32Of a b c d) - 4) bare
        rw [bind_run_ok dispatched, reachesCall_bare_iff bare long]
        have later := @ih next (by rw [input]; exact shorter.le)
        have notCall : ¬ isCall msgType = true := fun isCalled =>
          nomatch (isBare_of_isCall isCalled).1.symm.trans bare
        rw [input] at later
        exact .cons trace later (by simp [notCall])
      | false =>
        rcases @readBody_cases { conn with input := rest } a b c d long with
          ⟨body, after, length, parts, read⟩ |
          ⟨incomplete, fault, next, unread, trace, _⟩
        · have bodyLen : asUsize (i32Of a b c d) - 4 = body.length := by
            rw [asUsize_of_length length]
            omega
          obtain rfl : rest = body ++ after := parts
          rw [length_append] at shorter
          rw [bodyLen] at read ⊢
          refine (dispatches_frame bare notTerminate length rfl read ?_).of_trace_eq rfl
          intro next input
          refine ih ?_
          rw [input]
          omega
        · rw [bind_run_error (dispatch_unread bare unread)]
          refine .none trace ?_
          intro reaches
          exact incomplete (reaches.complete bare)
    · refine .none (messageLoop_ends header).1 ?_
      intro reaches
      exact header reaches.hasHeader

end

theorem callsVerified_append {started added : List Event}
    (startup : ∀ event ∈ started, event.calls = false) (verified : .verified ∈ started) :
    CallsVerified (started ++ added) := by
  intro earlier event later split isCalled
  rcases append_eq_append_iff.mp split with
    ⟨middle, rfl, _⟩ | ⟨middle, rfl, rest⟩
  · exact mem_append_left _ verified
  · cases middle with
    | nil => simpa using verified
    | cons head tail =>
      obtain ⟨rfl, _⟩ := cons.inj rest
      cases isCalled.symm.trans (startup event (by simp))

theorem callsVerified_iff_of_not_verified
    {trace : List Event} (notVerified : ∀ event ∈ trace, event ≠ .verified) :
    CallsVerified trace ↔ ¬ ∃ event ∈ trace, event.calls = true := by
  constructor
  · rintro verified ⟨event, mem, isCalled⟩
    obtain ⟨earlier, later, rfl⟩ := append_of_mem mem
    have before := verified earlier event later rfl isCalled
    exact notVerified _ (mem_append_left _ before) rfl
  · rintro noCall earlier event later rfl isCalled
    exact absurd ⟨event, by simp, isCalled⟩ noCall

section

variable {host : WireHost} {depth : Nat} {authRequired : Bool}
  {conn next : PgConn}

theorem final_of_refused {fault : ConnFault}
    (startup : handleStartup host authRequired (conn.input.length + 1) conn = .error fault next) :
    conn.final host depth authRequired = next := by
  unfold final runLoop finalState
  rw [get_bind_run, bind_run_error startup]

theorem final_of_started
    (startup : handleStartup host authRequired (conn.input.length + 1) conn = .ok () next) :
    conn.final host depth authRequired =
      finalState (messageLoop host depth next.input.length) next := by
  unfold final runLoop finalState
  rw [get_bind_run, bind_run_ok startup, get_bind_run]

end

theorem callsVerified_final_iff {depth : Nat} (empty : conn.trace = []) :
    CallsVerified (conn.final host depth true).trace ↔
      ¬ ∃ rest, CancelsThen conn.input rest ∧ ReachesCall rest := by
  have cancelled : ∀ rest, CancelsThen conn.input rest →
      ∃ next, handleStartup host true (conn.input.length + 1) conn = .ok () next ∧
        next.trace = [] ∧ next.input = rest := by
    intro rest cancels
    rw [← empty]
    exact handleStartup_cancelled host cancels rfl (by omega)
  have records : Records (· = .verified) conn
      (finalState (handleStartup host true (conn.input.length + 1)) conn) :=
    records_handleStartup host _
  obtain ⟨started, startTrace, onlyVerified⟩ := records
  rw [empty, nil_append] at startTrace
  have noCalls : ∀ event ∈ started, event.calls = false := by
    intro event mem
    rw [onlyVerified event mem]
    rfl
  unfold finalState at startTrace
  cases startup : handleStartup host true (conn.input.length + 1) conn with
  | error fault next =>
    rw [startup] at startTrace
    rw [final_of_refused startup, startTrace]
    refine iff_of_true ?_ ?_
    · rintro earlier event later split isCalled
      cases isCalled.symm.trans (noCalls event (by rw [split]; simp))
    · rintro ⟨rest, cancels, _⟩
      obtain ⟨next, ran, _⟩ := cancelled rest cancels
      cases startup.symm.trans ran
  | ok value next =>
    rw [startup] at startTrace
    rw [final_of_started startup]
    obtain ⟨added, trace, notVerified, reaches⟩ :=
      (@messageLoop_dispatches host depth next _ le_rfl).events
    rw [trace]
    rcases handleStartup_returned host startup with
      verified | ⟨unchanged, cancels⟩
    · refine iff_of_true ?_ ?_
      · rw [startTrace] at verified ⊢
        exact callsVerified_append noCalls verified
      · rintro ⟨rest, cancels, _⟩
        obtain ⟨other, ran, otherTrace, _⟩ := cancelled rest cancels
        cases startup.symm.trans ran
        rw [otherTrace] at verified
        cases verified
    · rw [unchanged, empty, nil_append, callsVerified_iff_of_not_verified notVerified, reaches]
      constructor
      · rintro noCall ⟨rest, otherCancels, reached⟩
        obtain ⟨other, ran, _, rfl⟩ := cancelled rest otherCancels
        cases startup.symm.trans ran
        exact noCall reached
      · intro noCall reached
        exact noCall ⟨_, cancels, reached⟩

/-- For a connection that requires authentication: the handlers of queries
are called only after a verified proof exactly when the stream does not reach
one of them behind a cancel request. -/
theorem calls_verified_iff (host : WireHost) (depth : Nat) (input : Bytes) (engine : SqlEngine)
    (passwords : PasswordManager) :
    CallsVerified ((new input engine passwords).final host depth true).trace ↔
      ¬ ∃ rest, CancelsThen input rest ∧ ReachesCall rest :=
  callsVerified_final_iff rfl

def cancelThenQuery : Bytes :=
  [0, 0, 0, 16, 4, 210, 22, 46, 0, 0, 0, 0, 0, 0, 0, 0,
    81, 0, 0, 0, 13, 83, 69, 76, 69, 67, 84, 32, 49, 0]

theorem cancelled_query_is_called : ¬ ∃ (host : WireHost) (depth : Nat) (engine : SqlEngine)
        (passwords : PasswordManager),
      CallsVerified ((new cancelThenQuery engine passwords).final host depth true).trace := by
  rintro ⟨host, depth, engine, passwords, verified⟩
  have cancels : CancelsThen cancelThenQuery [81, 0, 0, 0, 13, 83, 69, 76, 69, 67, 84, 32, 49, 0] :=
    @CancelsThen.cancel 0 0 0 16 [4, 210, 22, 46, 0, 0, 0, 0, 0, 0, 0, 0] _
      ⟨by decide, by decide⟩ (by decide)
  have reaches : ReachesCall [81, 0, 0, 0, 13, 83, 69, 76, 69, 67, 84, 32, 49, 0] :=
    @ReachesCall.call 81 0 0 0 13 [83, 69, 76, 69, 67, 84, 32, 49, 0] []
      rfl (by decide) (fun _ => by decide)
  exact (callsVerified_final_iff rfl).mp verified ⟨_, cancels, reaches⟩

end TurboGP.Server
