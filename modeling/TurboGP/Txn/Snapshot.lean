import TurboGP.Txn.Visibility

/-! # Snapshot stability -/

namespace TurboGP.Txn

open VersionChain RowVersion MvccTxnManager GuardedRun

namespace MvccWorld

variable {world : MvccWorld} {txn : MvccTransaction}

theorem Running.apply {action : MvccAction} (inv : world.Consistent)
    (running : world.Running txn) (admissible : ∀ txn, action.author = some txn → world.Running txn)
    (foreign : action.author ≠ some txn) : (world.apply action).Running txn := by
  have otherId : ∀ author, action.author = some author → txn.id ≠ author.id := by
    intro author isAuthor sameId
    have same : txn = author :=
      inv.manager.unique txn running.1 author (admissible author isAuthor).1 sameId
    exact foreign (same ▸ isAuthor)
  constructor
  · exact mem_begun_apply action running.1
  · rw [apply_lookup_state]
    cases action with
    | beginWithIsolation level =>
      have below := (inv.manager.idBelow txn running.1).2
      simp [Nat.ne_of_lt below, running.2]
    | commit author | rollback author => simp [otherId author rfl, running.2]
    | cleanupAborted => simp [running.2]
    | _ => exact running.2

/-- A chain whose last version another transaction supersedes reads the same
for a snapshot reader. -/
theorem latestVisible_superseded {older successors : List RowVersion} {version : RowVersion}
    {author : Nat} {accepts : RowVersion → Bool} {seen : Set Nat}
    (acceptsIff : ∀ tested, accepts tested = true ↔ Sees xmin xmax seen seen tested)
    (foreign : author ∉ seen) (opened : version.xmax = none)
    (successorsNew : successors = [] ∨ ∃ values, successors = [new author values]) :
    (latest accepts (older ++ version.delete author :: successors)).map values =
      (latest accepts (older ++ [version])).map values := by
  have marked : accepts (version.delete author) = accepts version := by
    rw [Bool.eq_iff_iff, acceptsIff, acceptsIff]
    exact sees_marked_iff (delete_xmin version author) opened (delete_xmax version author) foreign
  have withoutSuccessor : (latest accepts (older ++ [version.delete author])).map values =
      (latest accepts (older ++ [version])).map values := by
    rw [latest_append_singleton, latest_append_singleton, marked]
    split
    · rfl
    · rfl
  rcases successorsNew with rfl | ⟨values, rfl⟩
  · exact withoutSuccessor
  · have rejected : accepts (new author values) = false := by
      rw [← Bool.not_eq_true, acceptsIff]
      exact not_sees_of_creator foreign
    rw [List.append_cons, latest_append_rejected rejected]
    exact withoutSuccessor

/-- One call made for another transaction leaves what a snapshot reader
scans. -/
theorem scanVisible_values_apply {action : MvccAction} (inv : world.Consistent)
    (running : world.Running txn) (snapshotLevel : txn.isolationLevel ≠ .readUncommitted)
    (admissible : ∀ txn, action.author = some txn → world.Running txn)
    (foreign : action.author ≠ some txn) :
    ((world.apply action).mgr.scanVisible (world.apply action).table txn).map values =
      (world.mgr.scanVisible world.table txn).map values := by
  have sameSeen := seenBy_apply inv admissible running.1
  have sameVisible := visible_congr (by
        rw [creatorsFor_eq_seenBy snapshotLevel, creatorsFor_eq_seenBy snapshotLevel, sameSeen])
      sameSeen
  have acceptsIff : ∀ tested, world.mgr.visible tested txn = true ↔ Sees xmin xmax
          (world.mgr.seenBy txn) (world.mgr.seenBy txn) tested := by
    intro tested
    rw [visible_iff_sees, creatorsFor_eq_seenBy snapshotLevel]
  have authorUnseen : ∀ author, action.author = some author → author.id ∉ world.mgr.seenBy txn := by
    intro author isAuthor
    refine running.notMem_seenBy inv (admissible author isAuthor) ?_
    rintro rfl
    exact foreign isAuthor
  rw [scanVisible_values, scanVisible_values, sameVisible]
  have change := apply_rows world action
  generalize (world.apply action).table.rows = rows at change ⊢
  cases change with
  | unchanged => rfl
  | @inserted author values isInsert =>
    refine observe_append_rejected (latest_eq_none_iff.mpr ?_)
    intro version mem
    rw [List.mem_singleton] at mem
    rw [← Bool.not_eq_true, acceptsIff, mem]
    exact not_sees_of_creator (authorUnseen author (by rw [isInsert]; rfl))
  | @superseded author rowIdx older version isTarget checked held
      opened =>
      exact observe_set held <| latestVisible_superseded acceptsIff
          (authorUnseen author (MvccAction.author_of_target isTarget))
          opened (MvccAction.successors_of_target isTarget)
  | vacuumed isVacuum =>
    refine observe_map fun chain _ => ?_
    congr 1
    refine latest_filter fun version _ visible => ?_
    by_contra dropped
    rw [Bool.not_eq_true] at dropped
    have buried := buried_of_dropped inv dropped
    rw [buried.visible_eq_false running] at visible
    cases visible

/-- Snapshots are stable: from any reachable world, no run of calls made
for other transactions changes the row values a running repeatable-read or
serializable transaction scans. -/
theorem scanVisible_values_stable {world later : MvccWorld} {txn : MvccTransaction}
    {actions : List MvccAction} (reachable : world.Reachable) (running : world.Running txn)
    (level : txn.isolationLevel = .repeatableRead ∨ txn.isolationLevel = .serializable)
    (run : Run (fun _ action => action.author ≠ some txn) world actions later) :
    (later.mgr.scanVisible later.table txn).map values =
      (world.mgr.scanVisible world.table txn).map values := by
  have snapshotLevel : txn.isolationLevel ≠ .readUncommitted := by
    rcases level with same | same <;> simp [same]
  refine run.observation (fun state => state.Consistent ∧ state.Running txn)
      (fun state => (state.mgr.scanVisible state.table txn).map values)
      ?_ ⟨reachable.consistent, running⟩
  rintro state action next ⟨inv, stillRunning⟩ foreign enabled
  obtain ⟨admissible, rfl⟩ := step_eq_some_iff.mp enabled
  exact ⟨⟨consistent_apply inv admissible, stillRunning.apply inv admissible foreign⟩,
    scanVisible_values_apply inv stillRunning snapshotLevel admissible foreign⟩

/-- A serializable reader that begins once a row has been committed. -/
def lateReader : MvccTransaction :=
  { id := 2, snapshotId := 1, state := .inProgress, isolationLevel := .serializable }

/-- Another transaction that begins beside `lateReader`. -/
def lateWriter : MvccTransaction :=
  { lateReader with id := 3, isolationLevel := .repeatableRead }

def oneRowTwoBegun : List MvccAction :=
  [ .beginWithIsolation .repeatableRead, .insert ⟨1, 0, .inProgress, .repeatableRead⟩ [1],
    .commit ⟨1, 0, .inProgress, .repeatableRead⟩, .beginWithIsolation .serializable,
    .beginWithIsolation .repeatableRead ]

def readerBesideWriter : MvccWorld :=
  oneRowTwoBegun.foldl MvccWorld.apply (initial (MvccTable.new "t" ["a"]))

/-- The writer updates the row, commits, and garbage is collected. -/
def overwriteAndVacuum : List MvccAction := [.update lateWriter 0 [2], .commit lateWriter, .vacuum]

theorem readerBesideWriter_reachable : readerBesideWriter.Reachable :=
  .of_exec ⟨"t", ["a"], rfl⟩
    (show exec step anyStep
        (initial (MvccTable.new "t" ["a"])) oneRowTwoBegun = some readerBesideWriter by decide)

theorem scanVisible_values_stable_overwrite : ((overwriteAndVacuum.foldl MvccWorld.apply
          readerBesideWriter).mgr.scanVisible
        (overwriteAndVacuum.foldl MvccWorld.apply readerBesideWriter).table lateReader).map values =
      [[1]] := by
  have run : Run (fun _ action => action.author ≠ some lateReader)
      readerBesideWriter overwriteAndVacuum
      (overwriteAndVacuum.foldl MvccWorld.apply readerBesideWriter) :=
    exec_eq_some_iff.mp (by decide)
  rw [scanVisible_values_stable readerBesideWriter_reachable (by decide) (.inr rfl) run]
  decide

end MvccWorld

end TurboGP.Txn
