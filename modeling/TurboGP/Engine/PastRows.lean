import Mathlib.Data.List.TakeWhile
import TurboGP.Engine.SqlEngine

/-!
# The past of a temporal table

AS OF queries after any sequence of calls on a temporal table.
-/

namespace TurboGP.Engine.TemporalTable

open Txn List

inductive Change
  | insert (values : List Cell)
  | update (predicate : List Cell → Bool) (newValues : List Cell)
  | delete (predicate : List Cell → Bool)

/-- A call and what `now_millis` returned in it. -/
structure TimedCall where
  now : Nat
  change : Change

def call (temporal : TemporalTable) (made : TimedCall) : TemporalTable :=
  match made.change with
  | .insert values => temporal.insert made.now values
  | .update predicate newValues => temporal.update made.now predicate newValues
  | .delete predicate => temporal.delete made.now predicate

/-- What every call does: some current rows are closed, and others begin. -/
structure Replaces (old new : TemporalTable) (now : Nat) (kept closed : List (List Cell × Nat))
    (added : List (List Cell)) : Prop where
  before : old.currentRows.Perm (kept ++ closed)
  after : new.currentRows.Perm (kept ++ added.map fun values => (values, now))
  history : new.history = old.history ++
    closed.map fun row => { values := row.1, validFrom := row.2, validTo := now }

/-- No version begins or ends after a time. -/
structure Until (temporal : TemporalTable) (last : Nat) : Prop where
  current : ∀ row ∈ temporal.currentRows, row.2 ≤ last
  history : ∀ row ∈ temporal.history, row.validTo ≤ last

variable {temporal next : TemporalTable} {made : TimedCall} {now time last : Nat}
  {kept closed : List (List Cell × Nat)} {added : List (List Cell)}

theorem replaces_call (temporal : TemporalTable) (made : TimedCall) :
    ∃ kept closed added, Replaces temporal (temporal.call made) made.now kept closed added := by
  obtain ⟨now, change⟩ := made
  cases change with
  | insert values =>
    refine ⟨temporal.currentRows, [], [values], ?_, .refl _, (append_nil _).symm⟩
    rw [append_nil]
  | update predicate newValues =>
    show ∃ kept closed added,
      Replaces temporal (temporal.update now predicate newValues) now kept closed added
    unfold update
    cases found : temporal.currentRows.findIdx? fun row => predicate row.1 with
    | none =>
      refine ⟨temporal.currentRows, [], [], ?_, ?_, (append_nil _).symm⟩
      · rw [append_nil]
      · rw [map_nil, append_nil]
    | some i =>
      obtain ⟨inside, -⟩ := findIdx?_eq_some_iff_getElem.mp found
      have around (row : List Cell × Nat) : (temporal.currentRows.set i row).Perm
          (temporal.currentRows.take i ++ temporal.currentRows.drop (i + 1) ++ [row]) := by
        rw [set_eq_take_append_cons_drop, if_pos inside, append_assoc]
        exact (perm_append_singleton _ _).symm.append_left _
      have same := around temporal.currentRows[i]
      rw [set_getElem_self] at same
      refine ⟨_, [temporal.currentRows[i]], [newValues], same, around (newValues, now), ?_⟩
      simp only [getElem?_eq_getElem inside, Option.toList_some]
  | delete predicate =>
    refine ⟨_, _, [], ?_, .of_eq (append_nil _).symm, rfl⟩
    refine (filter_append_perm (fun row => predicate row.1) _).symm.trans ?_
    exact perm_append_comm

theorem Until.replaces (bound : temporal.Until last) (early : now ≤ last)
    (replaces : Replaces temporal next now kept closed added) : next.Until last := by
  constructor
  · intro row mem
    rcases mem_append.mp (replaces.after.mem_iff.mp mem) with old | new
    · exact bound.current row (replaces.before.mem_iff.mpr (mem_append_left _ old))
    · obtain ⟨values, -, rfl⟩ := mem_map.mp new
      exact early
  · intro row mem
    rw [replaces.history] at mem
    rcases mem_append.mp mem with old | new
    · exact bound.history row old
    · obtain ⟨closed, -, rfl⟩ := mem_map.mp new
      exact early

/-- From the last call on, a query returns the current rows. -/
theorem Until.queryAsOf (bound : temporal.Until time) :
    temporal.queryAsOf time = temporal.currentRows.map Prod.fst := by
  have everyRow : temporal.currentRows.filter (fun row => decide (row.2 ≤ time)) =
      temporal.currentRows :=
    filter_eq_self.mpr fun row mem => decide_eq_true (bound.current row mem)
  have noVersion : temporal.history.filter (fun row =>
      decide (row.validFrom ≤ time ∧ time < row.validTo)) = [] := by
    refine filter_eq_nil_iff.mpr fun row mem chosen => ?_
    exact Nat.not_lt.mpr (bound.history row mem) (of_decide_eq_true chosen).2
  unfold TemporalTable.queryAsOf
  rw [everyRow, noVersion, map_nil, append_nil]

/-- What was returned for an earlier time is returned again. -/
theorem Replaces.queryAsOf (replaces : Replaces temporal next now kept closed added)
    (earlier : time < now) : (next.queryAsOf time).Perm (temporal.queryAsOf time) := by
  have notYet : (added.map fun values => (values, now)).filter (fun row => decide (row.2 ≤ time)) =
      [] := by
    refine filter_eq_nil_iff.mpr fun row mem => ?_
    obtain ⟨values, -, rfl⟩ := mem_map.mp mem
    simpa using earlier
  have stillOpen : ((closed.map fun row =>
          ({ values := row.1, validFrom := row.2, validTo := now } : HistoryRow)).filter (fun row =>
        decide (row.validFrom ≤ time ∧ time < row.validTo))).map HistoryRow.values =
      (closed.filter fun row => decide (row.2 ≤ time)).map Prod.fst := by
    rw [filter_map, map_map]
    simp only [Function.comp_def, earlier, and_true]
  have current := (replaces.after.filter fun row => decide (row.2 ≤ time)).map Prod.fst
  have before := (replaces.before.filter fun row => decide (row.2 ≤ time)).map Prod.fst
  rw [filter_append, notYet, append_nil] at current
  rw [filter_append, map_append] at before
  unfold TemporalTable.queryAsOf
  rw [replaces.history, filter_append, map_append, stillOpen]
  refine (current.append_right _).trans (.trans ?_ (before.append_right _).symm)
  rw [append_assoc]
  exact perm_append_comm.append_left _

theorem until_foldl {calls : List TimedCall} (bound : temporal.Until last)
    (early : ∀ made ∈ calls, made.now ≤ last) : (calls.foldl call temporal).Until last := by
  induction calls generalizing temporal with
  | nil => exact bound
  | cons made rest ih =>
    obtain ⟨_, _, _, replaces⟩ := replaces_call temporal made
    exact ih (bound.replaces (early made mem_cons_self) replaces)
      fun other mem => early other (mem_cons_of_mem _ mem)

/-- A query AS OF a time returns the rows that were current after the calls up
to that time, in any order. -/
theorem queryAsOf_past (columnNames : List String) (created : Nat) {calls : List TimedCall}
    (ordered : calls.Pairwise fun first second => first.now ≤ second.now) (time : Nat) :
    ((calls.foldl call (new columnNames created)).queryAsOf time).Perm
      (((calls.takeWhile fun made => decide (made.now ≤ time)).foldl call
        (new columnNames created)).currentRows.map Prod.fst) := by
  induction calls using reverseRecOn with
  | nil => exact .refl _
  | append_singleton calls made ih =>
    obtain ⟨earlier, -, last⟩ := pairwise_append.mp ordered
    by_cases late : made.now ≤ time
    · have early : ∀ other ∈ calls ++ [made], other.now ≤ time := by
        intro other mem
        rcases mem_append.mp mem with before | isLast
        · exact (last other before made (mem_singleton_self _)).trans late
        · rw [mem_singleton.mp isLast]
          exact late
      have everyCall : (calls ++ [made]).takeWhile (fun made => decide (made.now ≤ time)) =
          calls ++ [made] :=
        List.takeWhile_eq_self_iff.mpr fun other mem => decide_eq_true (early other mem)
      have bound : (new columnNames created).Until time := ⟨nofun, nofun⟩
      rw [everyCall, (until_foldl bound early).queryAsOf]
    · have sameCalls : (calls ++ [made]).takeWhile (fun made => decide (made.now ≤ time)) =
          calls.takeWhile fun made => decide (made.now ≤ time) := by
        have stops : [made].takeWhile (fun made => decide (made.now ≤ time)) = [] := by simp [late]
        rw [takeWhile_append]
        split
        · next whole =>
          rw [stops, append_nil, (List.takeWhile_prefix _).eq_of_length whole]
        · rfl
      obtain ⟨_, _, _, replaces⟩ := replaces_call (calls.foldl call (new columnNames created)) made
      rw [sameCalls, foldl_append]
      exact (replaces.queryAsOf (Nat.lt_of_not_le late)).trans (ih earlier)

/-- A row is replaced twice at one time; the query at that time sees the last. -/
theorem queryAsOf_past_twice :
    let calls : List TimedCall := [⟨1, .insert [7]⟩, ⟨2, .update (fun _ => true) [8]⟩,
      ⟨2, .update (fun _ => true) [9]⟩]
    ((calls.foldl call (new ["v"] 0)).queryAsOf 2).Perm [[9]] :=
  queryAsOf_past ["v"] 0 (by decide) 2

end TurboGP.Engine.TemporalTable
