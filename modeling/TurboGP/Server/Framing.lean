import TurboGP.Server.Reading

/-! # Frames of the message loop -/

namespace TurboGP.Server

open Sql.Text Engine Effect List

structure Frame where
  msgType : UInt8
  body : Bytes
  deriving DecidableEq, Repr

def Frame.event (frame : Frame) : Event := .dispatched frame.msgType frame.body

/-- The first frame of a stream and what comes after it. -/
def frameOf : Bytes → Option (Frame × Bytes)
  | msgType :: a :: b :: c :: d :: rest =>
    let length := i32Of a b c d
    if 4 ≤ length ∧ (length - 4).toNat ≤ rest.length then
      some
        ({ msgType := msgType, body := rest.take (length - 4).toNat }, rest.drop (length - 4).toNat)
    else none
  | _ => none

/-- The frames up to a Terminate message; each takes a byte at least, so that
the length of the stream is enough `fuel`. -/
def framesWith : Nat → Bytes → List Frame
  | 0, _ => []
  | fuel + 1, input =>
    match frameOf input with
    | none => []
    | some (frame, rest) => if frame.msgType = 88 then [] else frame :: framesWith fuel rest

def frames (input : Bytes) : List Frame := framesWith input.length input

section

variable (host : WireHost) (depth : Nat)

def handleFrame (frame : Frame) : ConnM Unit :=
  if frame.msgType = 83 then sendReadyForQuery
  else if frame.msgType = 72 then return ()
  else handleBody host depth frame.msgType frame.body

def serveFrame (frame : Frame) : ConnM Unit :=
  if frame.msgType = 81 then
    match queryText frame.body with
    | none => throw invalidUtf8
    | some text => do
      record frame.event
      handleSimpleQuery host depth text
  else do
    record frame.event
    handleFrame host depth frame

def frameLoop : Nat → ConnM Unit
  | 0 => return ()
  | fuel + 1 => do
    let conn ← get
    match frameOf conn.input with
    | none => return ()
    | some (frame, rest) =>
      if frame.msgType = 88 then return ()
      else do
        set { conn with input := rest }
        serveFrame host depth frame
        frameLoop fuel

end

section

variable {msgType a b c d : UInt8} {body rest : Bytes}

theorem frameOf_append (length : i32Of a b c d = body.length + 4) :
    frameOf (msgType :: a :: b :: c :: d :: (body ++ rest)) = some (⟨msgType, body⟩, rest) := by
  have size : (i32Of a b c d - 4).toNat = body.length := by omega
  unfold frameOf
  simp only
  rw [size, if_pos ⟨by omega, by simp⟩]
  simp

variable {input : Bytes} {frame : Frame}

theorem frameOf_eq_some (found : frameOf input = some (frame, rest)) :
    ∃ a b c d, input = frame.msgType :: a :: b :: c :: d :: (frame.body ++ rest) ∧
      i32Of a b c d = frame.body.length + 4 := by
  unfold frameOf at found
  split at found
  · next msgType a b c d after =>
    simp only at found
    split at found
    · next fits =>
      cases found
      refine ⟨a, b, c, d, ?_, ?_⟩
      · rw [take_append_drop]
      · rw [length_take]
        omega
    · cases found
  · cases found

theorem frameOf_shorter (found : frameOf input = some (frame, rest)) :
    rest.length < input.length := by
  obtain ⟨a, b, c, d, rfl, _⟩ := frameOf_eq_some found
  simp only [length_cons, length_append]
  omega

end

/-- The length of a header is not negative, and that of Sync and Flush leaves
no body; a Terminate message may have any length. -/
def headerFits : Bytes → Bool
  | msgType :: a :: b :: c :: d :: _ =>
    msgType == 88 ||
      (decide (0 ≤ i32Of a b c d) && (!isBare msgType || decide (i32Of a b c d ≤ 4)))
  | _ => true

/-- `rest` begins after some of the frames of the stream. -/
inductive Boundary : Bytes → Bytes → Prop
  | start (input : Bytes) : Boundary input input
  | next {input rest last : Bytes} {frame : Frame}
      (found : frameOf input = some (frame, rest)) (notTerminate : frame.msgType ≠ 88)
      (later : Boundary rest last) :
      Boundary input last

def WellFramed (input : Bytes) : Prop := ∀ rest, Boundary input rest → headerFits rest = true

theorem headerFits_iff {msgType a b c d : UInt8} {rest : Bytes} (notTerminate : msgType ≠ 88) :
    headerFits (msgType :: a :: b :: c :: d :: rest) = true ↔
      0 ≤ i32Of a b c d ∧ (isBare msgType = true → i32Of a b c d ≤ 4) := by
  unfold headerFits
  simp only
  rw [beq_eq_false_iff_ne.mpr notTerminate, Bool.false_or, Bool.and_eq_true,
    decide_eq_true_eq, Bool.or_eq_true, Bool.not_eq_true', decide_eq_true_eq]
  cases isBare msgType <;> simp

section

variable {host : WireHost} {depth : Nat} {conn : PgConn} {frame : Frame}

theorem dispatch_eq_serveFrame
    {rest : Bytes} {bodyLen : Nat} (stream : conn.input = frame.body ++ rest)
    (length : bodyLen = frame.body.length) (small : bodyLen ≤ maxAllocation)
    (bare : isBare frame.msgType = true → frame.body = []) :
    dispatch host depth frame.msgType bodyLen conn =
      serveFrame host depth frame { conn with input := rest } := by
  obtain ⟨msgType, body⟩ := frame
  subst length
  have read : readBody body.length conn = .ok body { conn with input := rest } := by
    unfold readBody
    rw [if_neg (by simp only at small; omega)]
    exact readExact_append stream
  by_cases query : msgType = 81
  · subst query
    unfold serveFrame
    cases decoded : queryText body with
    | none => exact dispatch_undecoded decoded read
    | some text => exact dispatch_query decoded stream read
  · cases isBareType : isBare msgType with
    | true =>
      obtain rfl : body = [] := bare isBareType
      obtain rfl : rest = conn.input := stream.symm
      unfold isBare at isBareType
      rw [Bool.or_eq_true, beq_iff_eq, beq_iff_eq] at isBareType
      rcases isBareType with rfl | rfl <;> rfl
    | false =>
      rw [dispatch_body query isBareType read]
      unfold isBare at isBareType
      rw [Bool.or_eq_false_iff, beq_eq_false_iff_ne, beq_eq_false_iff_ne] at isBareType
      have handler :
          handleFrame host depth ⟨msgType, body⟩ = handleBody host depth msgType body := by
        unfold handleFrame
        rw [if_neg isBareType.1, if_neg isBareType.2]
      unfold serveFrame
      rw [if_neg query, handler]
      rfl

/-- A query that is no text is refused.  Every other frame is recorded before
its handler runs, which keeps the stream. -/
theorem serveFrame_cases (frame : Frame) :
    serveFrame host depth frame conn = .error invalidUtf8 conn ∨
      ∃ handler : ConnM Unit,
        serveFrame host depth frame conn = handler (conn.recorded frame.msgType frame.body) ∧
          Moves KeepsStream (conn.recorded frame.msgType frame.body) handler := by
  unfold serveFrame
  by_cases query : frame.msgType = 81
  · rw [if_pos query]
    cases queryText frame.body with
    | none => exact .inl rfl
    | some text => exact .inr ⟨_, rfl, keeps_handleSimpleQuery host depth text⟩
  · rw [if_neg query]
    refine .inr ⟨handleFrame host depth frame, rfl, ?_⟩
    unfold handleFrame
    split
    · exact keeps_of_local local_sendReadyForQuery
    split
    · exact .pure _
    · exact keeps_handleBody host depth _ _

theorem serveFrame_returned {next : PgConn}
    (served : serveFrame host depth frame conn = .ok () next) :
    next.input = conn.input ∧ next.trace = conn.trace ++ [frame.event] := by
  rcases @serveFrame_cases host depth conn frame with
    refused | ⟨handler, same, keeps⟩
  · cases refused.symm.trans served
  · have kept := keeps.reached (same.symm.trans served)
    exact ⟨kept.input, kept.trace⟩

theorem serveFrame_failed {fault : ConnFault} {next : PgConn}
    (failed : serveFrame host depth frame conn = .error fault next) :
    next.trace = conn.trace ∨ next.trace = conn.trace ++ [frame.event] := by
  rcases @serveFrame_cases host depth conn frame with
    refused | ⟨handler, same, keeps⟩
  · cases refused.symm.trans failed
    exact .inl rfl
  · exact .inr (keeps.reached_error (same.symm.trans failed)).trace

end

section

variable {buf : Bytes}

/-- The reader keeps its cursor within the message and does not panic. -/
abbrev Reads {α : Type} (buf : Bytes) (read : BufM α) : Prop :=
  Guarded (· ≤ buf.length) (· ≠ ConnFault.panic) read

theorem slice_inside {start stop : Nat} (ordered : start ≤ stop) (inside : stop ≤ buf.length) :
    slice buf start stop = .ok ((buf.drop start).take (stop - start)) := by
  unfold slice
  rw [if_pos ⟨ordered, inside⟩]

theorem reads_readCstring : Reads buf (readCstring buf) := by
  refine .of_run fun start inside => ?_
  have rest := @slice_inside buf start buf.length inside le_rfl
  unfold readCstring
  rw [get_bind_run, rest, ofExcept_bind_run]
  simp only
  cases pos : ((buf.drop start).take (buf.length - start)).findIdx? (· == 0) with
  | none => exact nofun
  | some length =>
    have within : length < buf.length - start := by
      have short := (findIdx?_eq_some_iff_findIdx_eq.mp pos).1
      rw [length_take, length_drop] at short
      omega
    have moved : start + length + 1 ≤ buf.length := by omega
    simp only
    cases fromUtf8 _ with
    | some text => exact moved
    | none => exact nofun

theorem readBytes_run (count : Nat) (error : String) (start : Nat) :
    readBytes buf count error start =
      if buf.length < start + count then
        .error (invalidData error) start
      else .ok ((buf.drop start).take count) (start + count) := by
  unfold readBytes
  rw [get_bind_run]
  by_cases short : buf.length < start + count
  · rw [if_pos short, if_pos short]
    rfl
  · rw [if_neg short, if_neg short, slice_inside (by omega) (by omega), Nat.add_sub_cancel_left]
    rfl

theorem reads_readBytes (count : Nat) (error : String) : Reads buf (readBytes buf count error) := by
  refine .of_run fun start inside => ?_
  rw [readBytes_run]
  by_cases short : buf.length < start + count
  · rw [if_pos short]
    exact nofun
  · rw [if_neg short]
    exact Nat.le_of_not_lt short

theorem readBytes_length {count : Nat} {error : String} {start next : Nat} {bytes : Bytes}
    (read : readBytes buf count error start = .ok bytes next) : bytes.length = count := by
  rw [readBytes_run] at read
  split at read
  · cases read
  · cases read
    rw [length_take, length_drop]
    omega

theorem reads_byteAt {bytes : Bytes} {i : Nat} (inside : i < bytes.length) :
    Reads buf (ofExcept (byteAt bytes i)) := by
  unfold byteAt
  rw [getElem?_eq_getElem inside]
  exact .pure _

theorem reads_readU16 (error : String) : Reads buf (readU16 buf error) := by
  refine .bind_of (reads_readBytes 2 error)
    (fun _ _ _ _ read => readBytes_length read) fun bytes length => ?_
  refine .bind (reads_byteAt (by omega)) fun _ => ?_
  refine .bind (reads_byteAt (by omega)) fun _ => ?_
  exact .pure _

theorem reads_readI16 (error : String) : Reads buf (readI16 buf error) := by
  refine .bind_of (reads_readBytes 2 error)
    (fun _ _ _ _ read => readBytes_length read) fun bytes length => ?_
  refine .bind (reads_byteAt (by omega)) fun _ => ?_
  refine .bind (reads_byteAt (by omega)) fun _ => ?_
  exact .pure _

theorem reads_readU32 (error : String) : Reads buf (readU32 buf error) := by
  refine .bind_of (reads_readBytes 4 error)
    (fun _ _ _ _ read => readBytes_length read) fun bytes length => ?_
  refine .bind (reads_byteAt (by omega)) fun _ => ?_
  refine .bind (reads_byteAt (by omega)) fun _ => ?_
  refine .bind (reads_byteAt (by omega)) fun _ => ?_
  refine .bind (reads_byteAt (by omega)) fun _ => ?_
  exact .pure _

theorem reads_readI32 (error : String) : Reads buf (readI32 buf error) :=
  .bind (reads_readU32 error) fun _ => .pure _

theorem reads_readMany {α : Type} {read : Nat → BufM α} (each : ∀ i, Reads buf (read i))
    (i count : Nat) : Reads buf (readMany read i count) := by
  induction count generalizing i with
  | zero => exact .pure _
  | succ count ih =>
    refine .bind (each i) fun _ => ?_
    refine .bind (ih (i + 1)) fun _ => ?_
    exact .pure _

theorem reads_parseFields : Reads buf (parseFields buf) := by
  refine .bind reads_readCstring fun _ => ?_
  refine .bind reads_readCstring fun _ => ?_
  refine .bind (reads_readU16 _) fun _ => ?_
  refine .bind (reads_readMany (fun _ => reads_readU32 _) _ _) fun _ => ?_
  exact .pure _

theorem reads_bindParam (host : WireHost) (formats : List Int) (i : Nat) :
    Reads buf (bindParam host buf formats i) := by
  refine .bind (reads_readI32 _) fun length => ?_
  split
  · exact .pure _
  · refine .bind (reads_readBytes _ _) fun bytes => ?_
    split
    · exact .pure _
    · exact .pure _

theorem reads_bindFields (host : WireHost) : Reads buf (bindFields host buf) := by
  refine .bind reads_readCstring fun _ => ?_
  refine .bind reads_readCstring fun _ => ?_
  refine .bind (reads_readU16 _) fun _ => ?_
  refine .bind (reads_readMany (fun _ => reads_readI16 _) _ _) fun _ => ?_
  refine .bind (reads_readU16 _) fun _ => ?_
  refine .bind (reads_readMany (reads_bindParam host _) _ _) fun _ => ?_
  refine .bind (reads_readU16 _) fun _ => ?_
  refine .bind (reads_readMany (fun _ => reads_readI16 _) _ _) fun _ => ?_
  exact .pure _

theorem parseBody_noPanic {α : Type} {cursor : Nat} {read : BufM α} (inside : cursor ≤ buf.length)
    (reads : Reads buf read) : Throws (· ≠ .panic) (parseBody cursor read) := by
  unfold parseBody
  cases out : read cursor with
  | ok value next => exact .pure _
  | error fault next => exact .throw ((reads cursor inside).2 fault next out)

theorem send_noPanic (message : BackendMessage) : Throws (· ≠ .panic) (send message) :=
  .modify _

theorem handleParse_noPanic (buf : Bytes) : Throws (· ≠ .panic) (handleParse buf) := by
  refine .bind (parseBody_noPanic (Nat.zero_le _) reads_parseFields) fun _ => ?_
  exact .bind (.modify _) fun _ => send_noPanic _

theorem handleBind_noPanic (host : WireHost) (buf : Bytes) :
    Throws (· ≠ .panic) (handleBind host buf) := by
  refine .bind (parseBody_noPanic (Nat.zero_le _) (reads_bindFields host)) fun _ => ?_
  refine .bind .get fun conn => ?_
  split
  · exact .bind (.set _) fun _ => send_noPanic _
  · exact send_noPanic _

theorem describeStatement_noPanic (name : List Char) :
    Throws (· ≠ .panic) (describeStatement name) := by
  refine .bind .get fun conn => ?_
  split
  · exact send_noPanic _
  · exact .bind (send_noPanic _) fun _ => send_noPanic _

theorem describePortal_noPanic (name : List Char) : Throws (· ≠ .panic) (describePortal name) := by
  refine .bind .get fun conn => ?_
  split
  · exact send_noPanic _
  split
  · exact send_noPanic _
  · exact send_noPanic _

theorem handleDescribe_noPanic (buf : Bytes) : Throws (· ≠ .panic) (handleDescribe buf) := by
  cases buf with
  | nil => exact .throw (by simp [invalidData])
  | cons kind rest =>
    refine .bind (parseBody_noPanic (by simp) (@reads_readCstring (kind :: rest))) fun _ => ?_
    split
    · exact describeStatement_noPanic _
    split
    · exact describePortal_noPanic _
    · exact send_noPanic _

theorem handleClose_noPanic (buf : Bytes) : Throws (· ≠ .panic) (handleClose buf) := by
  unfold handleClose
  split
  · exact .pure _
  split
  · exact .pure _
  · exact .modify _

theorem handleBody_noPanic (host : WireHost) (depth : Nat) {msgType : UInt8}
    (notExecute : msgType ≠ 69) (buf : Bytes) :
    Throws (· ≠ .panic) (handleBody host depth msgType buf) := by
  unfold handleBody
  split
  · exact handleParse_noPanic _
  split
  · exact handleBind_noPanic host _
  split
  · exact handleDescribe_noPanic _
  split
  · exact .bind (handleClose_noPanic _) fun _ => send_noPanic _
  · exact send_noPanic _

theorem serveFrame_panics {host : WireHost} {depth : Nat} {conn next : PgConn} {frame : Frame}
    (isPanic : serveFrame host depth frame conn = .error .panic next) :
    frame.msgType = 81 ∨ frame.msgType = 69 := by
  by_contra other
  rw [not_or] at other
  have noPanic : Throws (· ≠ .panic) (serveFrame host depth frame) := by
    unfold serveFrame handleFrame
    rw [if_neg other.1]
    refine .bind (.modify _) fun _ => ?_
    split
    · exact .bind .get fun _ => send_noPanic _
    split
    · exact .pure _
    · exact handleBody_noPanic host depth other.2 _
  exact noPanic conn .panic next isPanic rfl

end

section

variable {host : WireHost} {depth : Nat} {conn : PgConn} {fuel : Nat}
  {frame : Frame} {rest : Bytes}

theorem frameLoop_none (noFrame : frameOf conn.input = none) :
    frameLoop host depth (fuel + 1) conn = .ok () conn := by
  rw [frameLoop, get_bind_run, noFrame]
  rfl

variable (found : frameOf conn.input = some (frame, rest))

include found

theorem frameLoop_terminate (terminate : frame.msgType = 88) :
    frameLoop host depth (fuel + 1) conn = .ok () conn := by
  rw [frameLoop, get_bind_run, found]
  simp only
  rw [if_pos terminate]
  rfl

theorem frameLoop_frame (notTerminate : frame.msgType ≠ 88) :
    frameLoop host depth (fuel + 1) conn =
      (serveFrame host depth frame >>= fun _ => frameLoop host depth fuel)
        { conn with input := rest } := by
  rw [frameLoop, get_bind_run, found]
  simp only
  rw [if_neg notTerminate]
  rfl

theorem messageLoop_frame
    (notTerminate : frame.msgType ≠ 88) (fits : headerFits conn.input = true) :
    messageLoop host depth (fuel + 1) conn =
      (serveFrame host depth frame >>= fun _ => messageLoop host depth fuel)
        { conn with input := rest } := by
  obtain ⟨a, b, c, d, stream, length⟩ := frameOf_eq_some found
  rw [stream, headerFits_iff notTerminate] at fits
  have bound := i32Of_lt a b c d
  have size : asUsize (i32Of a b c d) - 4 = frame.body.length := by
    unfold asUsize
    rw [if_neg (by omega)]
    omega
  have small : frame.body.length ≤ maxAllocation := by
    unfold maxAllocation
    omega
  have enough : 4 ≤ asUsize (i32Of a b c d) := by
    unfold asUsize
    rw [if_neg (by omega)]
    omega
  rw [messageLoop_header stream notTerminate enough, size]
  apply bind_run_congr
  refine dispatch_eq_serveFrame rfl rfl small ?_
  intro bare
  have short := fits.2 bare
  exact length_eq_zero_iff.mp (by omega)

omit found

theorem messageLoop_noFrame {fuel : Nat} (noFrame : frameOf conn.input = none)
    (fits : headerFits conn.input = true) :
    (finalState (messageLoop host depth (fuel + 1)) conn).trace = conn.trace ∧
      ∀ next, messageLoop host depth (fuel + 1) conn ≠ .error .panic next := by
  by_cases header : HasHeader conn.input
  · obtain ⟨msgType, a, b, c, d, rest, stream, notTerminate, enough⟩ := header
    rw [stream, headerFits_iff notTerminate] at fits
    rw [stream] at noFrame
    have complete :
        ∀ body later : Bytes, i32Of a b c d = body.length + 4 → rest ≠ body ++ later := by
      rintro body later length rfl
      rw [frameOf_append length] at noFrame
      cases noFrame
    have notBare : isBare msgType = false := by
      by_contra isBareType
      rw [Bool.not_eq_false] at isBareType
      have exactly : i32Of a b c d = 4 := by
        have short := fits.2 isBareType
        unfold asUsize at enough
        rw [if_neg (by omega)] at enough
        omega
      exact complete [] rest (by simpa using exactly) rfl
    rcases @readBody_cases { conn with input := rest } a b c d enough with
      ⟨body, later, length, parts, _⟩ |
      ⟨_, fault, next, unread, trace, isEof⟩
    · exact absurd parts (complete body later length)
    · have failed : messageLoop host depth (fuel + 1) conn = .error fault next := by
        rw [messageLoop_header stream notTerminate enough,
          bind_run_error (dispatch_unread notBare unread)]
      unfold finalState
      rw [failed, isEof fits.1]
      exact ⟨trace, fun other isPanic => by cases isPanic⟩
  · exact messageLoop_ends header

/-- The messages that the loop dispatches are those of the loop over frames,
and so is every panic. -/
theorem messageLoop_refines {fuel : Nat} (enough : conn.input.length ≤ fuel)
    (framed : WellFramed conn.input) :
    (finalState (messageLoop host depth fuel) conn).trace =
        (finalState (frameLoop host depth fuel) conn).trace ∧
      ∀ next, messageLoop host depth fuel conn = .error .panic next →
        frameLoop host depth fuel conn = .error .panic next := by
  induction fuel generalizing conn with
  | zero => exact ⟨rfl, fun next isPanic => by cases isPanic⟩
  | succ fuel ih =>
    have fits := framed conn.input (.start _)
    cases found : frameOf conn.input with
    | none =>
      obtain ⟨trace, noPanic⟩ := @messageLoop_noFrame host depth conn fuel found fits
      rw [trace]
      unfold finalState
      rw [frameLoop_none found]
      exact ⟨rfl, fun next isPanic => absurd isPanic (noPanic next)⟩
    | some first =>
      obtain ⟨frame, rest⟩ := first
      by_cases terminate : frame.msgType = 88
      · have noHeader : ¬ HasHeader conn.input := by
          rintro ⟨msgType, a, b, c, d, after, stream, notTerminate, _⟩
          obtain ⟨_, _, _, _, other, _⟩ := frameOf_eq_some found
          rw [stream, terminate] at other
          exact notTerminate (cons.inj other).1
        obtain ⟨trace, noPanic⟩ := @messageLoop_ends host depth fuel conn noHeader
        rw [trace]
        unfold finalState
        rw [frameLoop_terminate found terminate]
        exact ⟨rfl, fun next isPanic => absurd isPanic (noPanic next)⟩
      · have shorter := frameOf_shorter found
        unfold finalState
        rw [messageLoop_frame found terminate fits, frameLoop_frame found terminate]
        cases served : serveFrame host depth frame { conn with input := rest } with
        | error fault next =>
          rw [bind_run_error served, bind_run_error served]
          exact ⟨rfl, fun last isPanic => isPanic⟩
        | ok value next =>
          rw [bind_run_ok served, bind_run_ok served]
          have input := (serveFrame_returned served).1
          simp only at input
          refine ih ?_ ?_
          · rw [input]
            omega
          · rw [input]
            exact fun last boundary => framed last (.next found terminate boundary)

/-- The loop over frames dispatches them in order, all of them unless a
handler fails. -/
theorem frameLoop_dispatches : ∃ dispatched remaining,
      framesWith fuel conn.input = dispatched ++ remaining ∧
        (finalState (frameLoop host depth fuel) conn).trace =
          conn.trace ++ dispatched.map Frame.event ∧
        ((∃ next, frameLoop host depth fuel conn = .ok () next) → remaining = []) := by
  induction fuel generalizing conn with
  | zero => exact ⟨[], [], rfl, (append_nil _).symm, fun _ => rfl⟩
  | succ fuel ih =>
    unfold framesWith finalState
    cases found : frameOf conn.input with
    | none =>
      rw [frameLoop_none found]
      exact ⟨[], [], rfl, (append_nil _).symm, fun _ => rfl⟩
    | some first =>
      obtain ⟨frame, rest⟩ := first
      simp only
      by_cases terminate : frame.msgType = 88
      · rw [frameLoop_terminate found terminate, if_pos terminate]
        exact ⟨[], [], rfl, (append_nil _).symm, fun _ => rfl⟩
      · rw [frameLoop_frame found terminate, if_neg terminate]
        cases served : serveFrame host depth frame { conn with input := rest } with
        | error fault next =>
          rw [bind_run_error served]
          have notReturned : ¬ ∃ last, (EStateM.Result.error fault next :
                EStateM.Result ConnFault PgConn Unit) = .ok () last := by
            rintro ⟨last, ran⟩
            cases ran
          rcases serveFrame_failed served with trace | trace
          · refine ⟨[], frame :: framesWith fuel rest, rfl, ?_, fun ran => absurd ran notReturned⟩
            rw [trace, map_nil, append_nil]
          · exact ⟨[frame], framesWith fuel rest, rfl, trace, fun ran => absurd ran notReturned⟩
        | ok value next =>
          rw [bind_run_ok served]
          obtain ⟨input, trace⟩ := serveFrame_returned served
          obtain ⟨dispatched, remaining, parts, later, complete⟩ := @ih next
          rw [input] at parts
          refine ⟨frame :: dispatched, remaining, ?_, ?_, complete⟩
          · rw [cons_append, ← parts]
          · unfold finalState at later
            rw [later, trace, append_assoc]
            rfl

end

/-- What the message loop makes of the stream of a connection.  It dispatches
the frames in order, and all of them unless the handler of one fails.  It
panics only with the loop over frames, which has no panic of its own: only in
a statement that a Query or an Execute message runs.  And `handle_bind` never
panics. -/
structure ExactFraming (host : WireHost) (depth : Nat) (conn : PgConn) : Prop where
  inOrder : ∃ dispatched remaining, frames conn.input = dispatched ++ remaining ∧
    (finalState (messageLoop host depth conn.input.length) conn).trace =
      conn.trace ++ dispatched.map Frame.event ∧
    ((∃ next, frameLoop host depth conn.input.length conn = .ok () next) → remaining = [])
  safe : ∀ next, messageLoop host depth conn.input.length conn = .error .panic next →
    frameLoop host depth conn.input.length conn = .error .panic next
  handlers : ∀ frame begun next, serveFrame host depth frame begun = .error .panic next →
    frame.msgType = 81 ∨ frame.msgType = 69
  bindSafe : ∀ buf bound next, handleBind host buf bound ≠ .error .panic next

/-- Streams without a body behind Sync and Flush and without negative lengths
are framed exactly, from every state of the connection. -/
theorem framing_exact (host : WireHost) (depth : Nat) (conn : PgConn)
    (framed : WellFramed conn.input) : ExactFraming host depth conn := by
  obtain ⟨trace, panics⟩ := @messageLoop_refines host depth conn _ le_rfl framed
  constructor
  · rw [trace]
    exact frameLoop_dispatches
  · exact panics
  · intro frame begun next isPanic
    exact serveFrame_panics isPanic
  · intro buf bound next isPanic
    exact handleBind_noPanic host buf bound .panic next isPanic rfl

def queryThenTerminate : Bytes := [81, 0, 0, 0, 6, 65, 0, 88, 0, 0, 0, 4]

theorem wellFramed_queryThenTerminate : WellFramed queryThenTerminate := by
  intro rest boundary
  cases boundary with
  | start => decide
  | next found notTerminate later =>
    cases found
    cases later with
    | start => decide
    | next found notTerminate later =>
      cases found
      exact absurd rfl notTerminate

theorem framing_exact_queryThenTerminate :
    ExactFraming (plainWireHost (plainSqlHost fun _ => .ok none)) 1
      (PgConn.new queryThenTerminate SqlEngine.inMemory ∅) :=
  framing_exact _ _ _ wellFramed_queryThenTerminate

/-- The body of a Sync message is taken for the next message, and a negative
length panics. -/
theorem sync_body_and_negative_length : (¬ ∃ (host : WireHost) (depth : Nat) (conn : PgConn),
        conn.input = [83, 0, 0, 0, 5, 0] ∧ ExactFraming host depth conn) ∧
      ¬ ∃ (host : WireHost) (depth : Nat) (conn : PgConn),
        conn.input = [80, 255, 255, 255, 255] ∧ ExactFraming host depth conn := by
  constructor
  · rintro ⟨host, depth, conn, stream, exactly⟩
    have oneFrame : frames conn.input = [⟨83, [0]⟩] := by
      rw [stream]
      decide
    obtain ⟨next, dispatches, input, nextTrace⟩ :=
      @dispatch_bare host depth { conn with input := [0] } 83 1 rfl
    have noHeader : ¬ HasHeader next.input := by
      rw [input]
      rintro ⟨_, _, _, _, _, _, short, _⟩
      cases short
    have final : (finalState (messageLoop host depth conn.input.length) conn).trace =
        conn.trace ++ [.dispatched 83 []] := by
      have runs : messageLoop host depth 6 conn = messageLoop host depth 5 next := by
        rw [messageLoop_header stream (by decide) (by decide)]
        exact bind_run_ok dispatches
      have ends := (@messageLoop_ends host depth 4 next noHeader).1
      have six : conn.input.length = 6 := by
        rw [stream]
        rfl
      unfold finalState at ends ⊢
      rw [six, runs, ends, nextTrace]
    obtain ⟨dispatched, remaining, parts, trace, _⟩ := exactly.inOrder
    rw [final] at trace
    have same := append_cancel_left trace
    rw [oneFrame] at parts
    cases dispatched with
    | nil => cases same
    | cons first others =>
      obtain ⟨rfl, _⟩ := cons.inj parts
      cases same
  · rintro ⟨host, depth, conn, stream, exactly⟩
    have noFrame : frameOf conn.input = none := by
      rw [stream]
      decide
    have five : conn.input.length = 4 + 1 := by
      rw [stream]
      rfl
    have panics : messageLoop host depth conn.input.length conn =
          .error .panic { conn with input := [] } := by
      rw [five, messageLoop_header stream (by decide) (by decide)]
      exact bind_run_error (dispatch_unread rfl rfl)
    have other := exactly.safe _ panics
    rw [five, frameLoop_none noFrame] at other
    cases other

end TurboGP.Server
