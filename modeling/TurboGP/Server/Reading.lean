import TurboGP.Server.Stream

/-! # Reading the stream -/

namespace TurboGP.Server

open Sql.Text Engine Effect List

section

variable {conn : PgConn}

variable {bytes rest : Bytes} {count : Nat}

theorem readExact_append (stream : conn.input = bytes ++ rest) :
    readExact bytes.length conn = .ok bytes { conn with input := rest } := by
  unfold readExact
  rw [stream, if_pos (by simp)]
  simp

theorem readExact_short (short : conn.input.length < count) :
    readExact count conn = .error unexpectedEof { conn with input := [] } := by
  unfold readExact
  rw [if_neg (by omega)]

theorem readExact_eq_ok_iff {next : PgConn} : readExact count conn = .ok bytes next ↔
      bytes.length = count ∧ conn.input = bytes ++ next.input ∧
        next = { conn with input := next.input } := by
  constructor
  · intro ran
    by_cases enough : count ≤ conn.input.length
    · unfold readExact at ran
      rw [if_pos enough] at ran
      cases ran
      refine ⟨?_, ?_, rfl⟩
      · rw [length_take]
        omega
      · exact (take_append_drop count conn.input).symm
    · rw [readExact_short (by omega)] at ran
      cases ran
  · rintro ⟨rfl, stream, same⟩
    rw [readExact_append stream, ← same]

theorem readI32Be_cons {a b c d : UInt8} (stream : conn.input = a :: b :: c :: d :: rest) :
    readI32Be conn = .ok (i32Of a b c d) { conn with input := rest } := by
  have bytes : conn.input = [a, b, c, d] ++ rest := stream
  have read := readExact_append bytes
  show (readExact [a, b, c, d].length >>= _) conn = _
  rw [bind_run_ok read]
  rfl

theorem readI32Be_short (short : conn.input.length < 4) :
    readI32Be conn = .error unexpectedEof { conn with input := [] } := by
  unfold readI32Be
  rw [bind_run_error (readExact_short short)]

theorem four_or_short (input : Bytes) :
    (∃ a b c d rest, input = a :: b :: c :: d :: rest) ∨ input.length < 4 := by
  match input with
  | a :: b :: c :: d :: rest => exact .inl ⟨a, b, c, d, rest, rfl⟩
  | [] | [_] | [_, _] | [_, _, _] => exact .inr (by simp)

theorem i32Of_lt (a b c d : UInt8) : i32Of a b c d < 2 ^ 31 := by
  have first := a.toNat_lt
  have second := b.toNat_lt
  have third := c.toNat_lt
  have fourth := d.toNat_lt
  unfold i32Of signed32 u32Of u16Of
  split <;> omega

theorem i32Of_ge (a b c d : UInt8) : -2 ^ 31 ≤ i32Of a b c d := by
  unfold i32Of signed32
  split <;> omega

end

section

variable {conn : PgConn} {a b c d : UInt8}

theorem readBody_cases (enough : 4 ≤ asUsize (i32Of a b c d)) : (∃ body rest,
        i32Of a b c d = body.length + 4 ∧ conn.input = body ++ rest ∧
          readBody (asUsize (i32Of a b c d) - 4) conn = .ok body { conn with input := rest }) ∨
      (¬ (∃ body rest : Bytes, i32Of a b c d = body.length + 4 ∧ conn.input = body ++ rest)) ∧
        ∃ fault next, readBody (asUsize (i32Of a b c d) - 4) conn = .error fault next ∧
          next.trace = conn.trace ∧ (0 ≤ i32Of a b c d → fault = unexpectedEof) := by
  have bound := i32Of_lt a b c d
  have low := i32Of_ge a b c d
  by_cases negative : i32Of a b c d < 0
  · have large : maxAllocation < asUsize (i32Of a b c d) - 4 := by
      unfold asUsize maxAllocation
      rw [if_pos negative]
      omega
    right
    refine ⟨?_, .panic, conn, ?_, rfl, ?_⟩
    · rintro ⟨body, rest, length, _⟩
      omega
    · unfold readBody
      rw [if_pos large]
      rfl
    · intro nonnegative
      omega
  · have value : asUsize (i32Of a b c d) = (i32Of a b c d).toNat := by
      unfold asUsize
      rw [if_neg negative]
    have small : ¬ maxAllocation < asUsize (i32Of a b c d) - 4 := by
      unfold maxAllocation
      omega
    have body : readBody (asUsize (i32Of a b c d) - 4) =
        readExact (asUsize (i32Of a b c d) - 4) := by
      unfold readBody
      rw [if_neg small]
    rw [body]
    by_cases there : asUsize (i32Of a b c d) - 4 ≤ conn.input.length
    · left
      refine ⟨conn.input.take (asUsize (i32Of a b c d) - 4),
        conn.input.drop (asUsize (i32Of a b c d) - 4), ?_, ?_, ?_⟩
      · rw [length_take]
        omega
      · exact (take_append_drop _ _).symm
      · unfold readExact
        rw [if_pos there]
    · right
      refine ⟨?_, unexpectedEof, _, readExact_short (by omega), rfl, ?_⟩
      · rintro ⟨body, rest, length, stream⟩
        have total := congrArg List.length stream
        rw [length_append] at total
        omega
      · intro _
        rfl

end

/-- The text of a query message, without the NUL bytes at the end. -/
def queryText (body : Bytes) : Option (List Char) :=
  fromUtf8 (body.reverse.dropWhile (· == 0)).reverse

/-- The types of messages whose body the loop leaves in the stream. -/
def isBare (msgType : UInt8) : Bool := msgType == 83 || msgType == 72

/-- The stream begins with the header of a message that is dispatched. -/
def HasHeader (input : Bytes) : Prop :=
  ∃ msgType a b c d rest,
    input = msgType :: a :: b :: c :: d :: rest ∧ msgType ≠ 88 ∧ 4 ≤ asUsize (i32Of a b c d)

def PgConn.recorded (conn : PgConn) (msgType : UInt8) (body : Bytes) : PgConn :=
  { conn with trace := conn.trace ++ [.dispatched msgType body] }

section

variable {host : WireHost} {depth fuel : Nat} {conn : PgConn}
  {msgType a b c d : UInt8} {rest : Bytes}

theorem messageLoop_cons {after : Bytes} (stream : conn.input = msgType :: after) :
    messageLoop host depth (fuel + 1) conn = (readLength msgType >>= fun bodyLen =>
        if msgType = 88 then pure ()
        else do
          dispatch host depth msgType bodyLen
          messageLoop host depth fuel)
        { conn with input := after } := by
  rw [messageLoop, get_bind_run, stream]
  rfl

theorem readLength_ok (stream : conn.input = a :: b :: c :: d :: rest)
    (enough : 4 ≤ asUsize (i32Of a b c d)) :
    readLength msgType conn = .ok (asUsize (i32Of a b c d) - 4) { conn with input := rest } := by
  unfold readLength
  rw [bind_run_ok (readI32Be_cons stream)]
  rw [if_neg (by omega)]
  rfl

theorem readLength_small (stream : conn.input = a :: b :: c :: d :: rest)
    (small : ¬ 4 ≤ asUsize (i32Of a b c d)) :
    ∃ message,
      readLength msgType conn = .error (invalidData message) { conn with input := rest } := by
  unfold readLength
  rw [bind_run_ok (readI32Be_cons stream)]
  rw [if_pos (by omega)]
  exact ⟨_, rfl⟩

theorem readLength_short (short : conn.input.length < 4) :
    readLength msgType conn = .error unexpectedEof { conn with input := [] } := by
  unfold readLength
  rw [bind_run_error (readI32Be_short short)]

theorem messageLoop_header (stream : conn.input = msgType :: a :: b :: c :: d :: rest)
    (notTerminate : msgType ≠ 88) (enough : 4 ≤ asUsize (i32Of a b c d)) :
    messageLoop host depth (fuel + 1) conn =
      (dispatch host depth msgType (asUsize (i32Of a b c d) - 4) >>=
        fun _ => messageLoop host depth fuel) { conn with input := rest } := by
  rw [messageLoop_cons stream, bind_run_ok (readLength_ok rfl enough), if_neg notTerminate]

theorem messageLoop_ends (noHeader : ¬ HasHeader conn.input) :
    (finalState (messageLoop host depth (fuel + 1)) conn).trace = conn.trace ∧
      ∀ next, messageLoop host depth (fuel + 1) conn ≠ .error .panic next := by
  unfold finalState
  cases stream : conn.input with
  | nil =>
    have ends : messageLoop host depth (fuel + 1) conn = .ok () conn := by
      unfold messageLoop
      rw [get_bind_run, stream]
      rfl
    rw [ends]
    exact ⟨rfl, fun next failed => by cases failed⟩
  | cons msgType after =>
    have begins := @messageLoop_cons host depth fuel conn _ _ stream
    rcases four_or_short after with ⟨a, b, c, d, rest, rfl⟩ | short
    · by_cases enough : 4 ≤ asUsize (i32Of a b c d)
      · have terminate : msgType = 88 := by
          by_contra other
          exact noHeader ⟨_, _, _, _, _, _, stream, other, enough⟩
        rw [begins, bind_run_ok (readLength_ok rfl enough), if_pos terminate]
        exact ⟨rfl, fun next failed => by cases failed⟩
      · obtain ⟨message, failed⟩ := @readLength_small
            { conn with input := a :: b :: c :: d :: rest } msgType a b c d rest rfl enough
        rw [begins, bind_run_error failed]
        exact ⟨rfl, fun next failed => by cases failed⟩
    · rw [begins, bind_run_error (readLength_short short)]
      exact ⟨rfl, fun next failed => by cases failed⟩

theorem dispatch_bare (bodyLen : Nat) (bare : isBare msgType = true) : ∃ next,
      dispatch host depth msgType bodyLen conn = .ok () next ∧
        next.input = conn.input ∧ next.trace = conn.trace ++ [.dispatched msgType []] := by
  unfold isBare at bare
  rw [Bool.or_eq_true, beq_iff_eq, beq_iff_eq] at bare
  rcases bare with rfl | rfl
  · exact ⟨_, rfl, rfl, rfl⟩
  · exact ⟨_, rfl, rfl, rfl⟩

variable {bodyLen : Nat} {body : Bytes} {next : PgConn}

theorem dispatch_body (notQuery : msgType ≠ 81) (notBare : isBare msgType = false)
    (read : readBody bodyLen conn = .ok body next) :
    dispatch host depth msgType bodyLen conn =
      handleBody host depth msgType body (next.recorded msgType body) := by
  unfold isBare at notBare
  rw [Bool.or_eq_false_iff, beq_eq_false_iff_ne, beq_eq_false_iff_ne] at notBare
  unfold dispatch
  rw [if_neg notQuery, if_neg notBare.1, if_neg notBare.2, bind_run_ok read]
  rfl

theorem dispatch_unread {fault : ConnFault}
    (notBare : isBare msgType = false) (failed : readBody bodyLen conn = .error fault next) :
    dispatch host depth msgType bodyLen conn = .error fault next := by
  unfold isBare at notBare
  rw [Bool.or_eq_false_iff, beq_eq_false_iff_ne, beq_eq_false_iff_ne] at notBare
  unfold dispatch
  split
  · unfold dispatchQuery
    rw [get_bind_run]
    have unread : readString bodyLen conn = .error fault next := by
      unfold readString
      rw [bind_run_error failed]
    rw [bind_run_error unread]
  · rw [if_neg notBare.1, if_neg notBare.2, bind_run_error failed]

theorem dispatch_query {text : List Char} (decoded : queryText body = some text)
    (stream : conn.input = body ++ rest)
    (read : readBody body.length conn = .ok body { conn with input := rest }) :
    dispatch host depth 81 body.length conn =
      handleSimpleQuery host depth text ({ conn with input := rest }.recorded 81 body) := by
  have readText : readString body.length conn = .ok text { conn with input := rest } := by
    unfold queryText at decoded
    unfold readString
    rw [bind_run_ok read, decoded]
    rfl
  have taken : conn.input.take body.length = body := by
    rw [stream]
    exact take_left
  show dispatchQuery host depth body.length conn = _
  unfold dispatchQuery
  rw [get_bind_run, taken, bind_run_ok readText]
  rfl

theorem dispatch_undecoded
    (undecoded : queryText body = none) (read : readBody bodyLen conn = .ok body next) :
    dispatch host depth 81 bodyLen conn = .error invalidUtf8 next := by
  have readText : readString bodyLen conn = .error invalidUtf8 next := by
    unfold queryText at undecoded
    unfold readString
    rw [bind_run_ok read, undecoded]
    rfl
  show dispatchQuery host depth bodyLen conn = _
  unfold dispatchQuery
  rw [get_bind_run, bind_run_error readText]

end

end TurboGP.Server
