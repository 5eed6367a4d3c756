import TurboGP.Engine.EngineMoves
import TurboGP.Txn.MvccInvariant

/-! # The consistency of engines in MVCC mode -/

namespace TurboGP.Engine

open Datasource Sql Txn Effect List

/-- No chain lies past the last row, and every stamp is below `bound`. -/
structure TableInv (bound : Nat) (table : Table) : Prop where
  bounded : table.rowVersions.length ≤ table.rowCount
  stamps : ∀ row, ∀ version ∈ table.chainAt row,
      version.xmin < bound ∧ ∀ deleter, version.xmax = some deleter → deleter < bound

namespace TableInv

variable {bound : Nat} {old new table : Table}

theorem mono {wider : Nat} (inv : TableInv bound table) (le : bound ≤ wider) :
    TableInv wider table where
  bounded := inv.bounded
  stamps := by
    intro row version mem
    obtain ⟨creator, deleter⟩ := inv.stamps row version mem
    exact ⟨creator.trans_le le, fun author deleted => (deleter author deleted).trans_le le⟩

theorem of_noChains (empty : table.rowVersions = []) : TableInv bound table where
  bounded := by simp [empty]
  stamps := by
    intro row version mem
    unfold Table.chainAt at mem
    rw [empty] at mem
    cases mem

variable (inv : TableInv bound old)

include inv

theorem writes {writer : Nat} {pinned : Nat → Prop}
    (moved : Writes writer pinned old new) (below : writer < bound) :
    TableInv bound new where
  bounded := moved.bounded inv.bounded
  stamps := by
    intro row version mem
    obtain ⟨k, inNew⟩ := mem_iff_getElem?.mp mem
    by_cases inOld : k < (old.chainAt row).length
    · have present := getElem?_eq_getElem inOld
      obtain ⟨marked, found, mark⟩ := (moved.chains row).kept k _ present
      rw [found] at inNew
      cases inNew
      obtain ⟨creator, deleter⟩ := inv.stamps row _ (getElem_mem inOld)
      rcases mark with same | ⟨_, same⟩
      · rw [same]
        exact ⟨creator, deleter⟩
      · rw [same]
        refine ⟨creator, fun author deleted => ?_⟩
        cases deleted
        exact below
    · obtain ⟨creator, deleter⟩ := (moved.chains row).added k version (Nat.le_of_not_lt inOld) inNew
      refine ⟨creator.symm ▸ below, fun author deleted => ?_⟩
      rcases deleter with opened | own
      · rw [opened] at deleted
        cases deleted
      · rw [own] at deleted
        cases deleted
        exact below

theorem of_keptChains {mgr : MvccTxnManager} {rows : List Nat}
    (chains : new.rowVersions = rows.map (mgr.keptChain old))
    (bounded : rows.length ≤ new.rowCount) :
    TableInv bound new where
  bounded := by
    rw [chains, length_map]
    exact bounded
  stamps := by
    intro row version mem
    unfold Table.chainAt at mem
    rw [chains, getElem?_map] at mem
    cases pos : rows[row]? with
    | none =>
      rw [pos] at mem
      cases mem
    | some source =>
      rw [pos] at mem
      exact inv.stamps source version (mem_of_mem_filter mem)

theorem vacuum {mgr : MvccTxnManager} {removed : Nat}
    (collected : mgr.vacuumTable old = .ok (removed, new)) : TableInv bound new := by
  by_cases drops : (mgr.keptRows old).length < old.rowCount
  · rw [MvccTxnManager.vacuumTable_drops drops] at collected
    obtain ⟨columns, -, same⟩ := except_map_ok_iff.mp collected
    cases same
    exact inv.of_keptChains rfl (le_refl _)
  · rw [MvccTxnManager.vacuumTable_keeps (Nat.le_of_not_lt drops)] at collected
    cases collected
    refine inv.of_keptChains rfl ?_
    rw [length_range]
    exact inv.bounded

end TableInv

def ActiveRunning (mgr : MvccTxnManager) (begun : List MvccTransaction) : Prop :=
  ∀ txn, mgr.currentActive = some txn → txn ∈ begun ∧ mgr.txnStates.lookup txn.id = some .inProgress

def ManagerConsistent (mgr : MvccTxnManager) : Prop :=
  ∃ begun, ManagerInv mgr begun ∧ ActiveRunning mgr begun

namespace ManagerConsistent

variable {mgr : MvccTxnManager} {begun : List MvccTransaction}

theorem managerInv_withActive (inv : ManagerInv mgr begun) (active : Option MvccTransaction) :
    ManagerInv { mgr with currentActive := active } begun :=
  ⟨inv.idBelow, inv.unique, inv.snapshotLe, inv.recorded,
    inv.committedBetween, inv.snapshots, inv.nextPositive⟩

theorem new : ManagerConsistent .new := ⟨[], .new, fun _ active => by cases active⟩

theorem beginWithIsolation (consistent : ManagerConsistent mgr) (level : IsolationLevel) :
    ManagerConsistent (mgr.beginWithIsolation level).2 := by
  obtain ⟨begun, inv, -⟩ := consistent
  refine ⟨_, inv.beginWithIsolation level, ?_⟩
  intro txn active
  cases active
  refine ⟨mem_append_right _ (mem_singleton_self _), ?_⟩
  simp [MvccTxnManager.beginWithIsolation]

theorem activeRunning_finish (running : ActiveRunning mgr begun) (txnId : Nat) (state : TxnState) :
    ActiveRunning (mgr.finish txnId state) begun := by
  intro txn active
  have wasActive : mgr.currentActive = some txn ∧ txn.id ≠ txnId := by
    simp only [MvccTxnManager.finish] at active
    split at active
    · next old before =>
      split at active
      · cases active
      · next other =>
        cases active
        exact ⟨before, other⟩
    · cases active
  obtain ⟨mem, inProgress⟩ := running txn wasActive.1
  refine ⟨mem, ?_⟩
  simp only [MvccTxnManager.finish, FiniteMap.lookup_insert_eq, if_neg wasActive.2]
  exact inProgress

theorem commit {txnId : Nat} (consistent : ManagerConsistent mgr)
    (running : mgr.txnStates.lookup txnId = some .inProgress) :
    ManagerConsistent (mgr.commit txnId).2 := by
  obtain ⟨begun, inv, active⟩ := consistent
  obtain ⟨txn, mem, rfl⟩ := inv.recorded txnId _ running
  exact ⟨begun, inv.commit mem, activeRunning_finish active _ _⟩

theorem finishActive {txn : MvccTransaction} (isActive : mgr.currentActive = some txn)
    (consistent : ManagerConsistent mgr) :
    ManagerConsistent
        ({ mgr with currentActive := none }.commit txn.id).2 ∧
      ManagerConsistent ({ mgr with currentActive := none }.rollback txn.id) := by
  obtain ⟨begun, inv, active⟩ := consistent
  have member := (active txn isActive).1
  have idle := managerInv_withActive inv none
  constructor
  · refine ⟨begun, idle.commit member, fun other stillActive => ?_⟩
    cases stillActive
  · refine ⟨begun, idle.rollback member, fun other stillActive => ?_⟩
    cases stillActive

theorem cleanupAborted (consistent : ManagerConsistent mgr) :
    ManagerConsistent mgr.cleanupAborted.2 := by
  obtain ⟨begun, inv, active⟩ := consistent
  refine ⟨begun, inv.cleanupAborted, ?_⟩
  intro txn isActive
  obtain ⟨mem, running⟩ := active txn isActive
  refine ⟨mem, ?_⟩
  simp only [MvccTxnManager.cleanupAborted, FiniteMap.lookup_retain_eq, running]
  rfl

/-- An accepted transaction statement keeps the manager consistent and its
ids growing. -/
def KeptBy (control : MvccTxnManager → Except String (Nat × MvccTxnManager)) : Prop :=
  ∀ mgr txnId changed, control mgr = .ok (txnId, changed) →
    ManagerConsistent mgr → ManagerConsistent changed ∧ mgr.nextTxnId ≤ changed.nextTxnId

theorem keptBy_beginCompat : KeptBy MvccTxnManager.beginCompat := by
  intro mgr txnId changed begins inv
  unfold MvccTxnManager.beginCompat at begins
  split at begins
  · cases begins
  · cases begins
    exact ⟨inv.beginWithIsolation default, Nat.le_succ _⟩

theorem keptBy_commitCompat : KeptBy MvccTxnManager.commitCompat := by
  intro mgr txnId changed committed inv
  unfold MvccTxnManager.commitCompat at committed
  split at committed
  · cases committed
  · next txn isActive =>
    cases committed
    exact ⟨(finishActive isActive inv).1, le_refl _⟩

theorem keptBy_rollbackCompat : KeptBy MvccTxnManager.rollbackCompat := by
  intro mgr txnId changed rolledBack inv
  unfold MvccTxnManager.rollbackCompat at rolledBack
  split at rolledBack
  · cases rolledBack
  · next txn isActive =>
    cases rolledBack
    exact ⟨(finishActive isActive inv).2, le_refl _⟩

theorem activeId_lt (consistent : ManagerConsistent mgr) : mgr.activeId.getD 0 < mgr.nextTxnId := by
  obtain ⟨begun, inv, active⟩ := consistent
  unfold MvccTxnManager.activeId
  cases isActive : mgr.currentActive with
  | none => exact inv.nextPositive
  | some txn => exact (inv.idBelow txn (active txn isActive).1).2

end ManagerConsistent

namespace QueryEngine

structure Consistent (engine : QueryEngine) : Prop where
  mode : engine.mvccEnabled = true
  manager : ManagerConsistent engine.mvccTxnManager
  tables : ∀ name table, engine.catalog.lookup name = some table →
      TableInv engine.mvccTxnManager.nextTxnId table

namespace Consistent

variable {engine next : QueryEngine}

theorem of_initial (initial : engine.Initial) : engine.Consistent where
  mode := initial.1
  manager := initial.2.1 ▸ .new
  tables := fun name table held =>
    .of_noChains (initial.2.2 name table held)

theorem withManager {mgr : MvccTxnManager} (inv : engine.Consistent)
    (manager : ManagerConsistent mgr) (later : engine.mvccTxnManager.nextTxnId ≤ mgr.nextTxnId)
    (savepoints : List (List Char × Catalog)) :
    Consistent { engine with mvccTxnManager := mgr, savepoints := savepoints } where
  mode := inv.mode
  manager := manager
  tables := fun name table held => (inv.tables name table held).mono later

theorem moved {versioned : String → Prop} {rel : String → Table → Table → Prop}
    (inv : engine.Consistent) (moves : EngineMoves versioned rel engine next)
    (keeps : ∀ name old new, rel name old new → TableInv engine.mvccTxnManager.nextTxnId old →
          TableInv engine.mvccTxnManager.nextTxnId new) :
    next.Consistent where
  mode := moves.sameMode.trans inv.mode
  manager := moves.sameManager ▸ inv.manager
  tables := by
    intro name table held
    rw [moves.sameManager]
    cases before : engine.catalog.lookup name with
    | none =>
      rw [moves.absent name before] at held
      cases held
    | some old =>
      obtain ⟨changed, inNext, related⟩ := moves.tables name old before
      rw [inNext] at held
      cases held
      exact keeps name old table related (inv.tables name old before)

end Consistent

end QueryEngine

section

variable {host : Host} {depth : Nat} {engine next : QueryEngine}

theorem step_execute {stmt : MvccStatement}
    (enabled : engine.step host depth (.execute stmt) = some next) :
    next = finalState (executeMvcc host depth stmt) engine := by
  unfold QueryEngine.step at enabled
  unfold finalState
  simp only at enabled
  split at enabled
  · next out =>
    rw [out]
    exact (Option.some.inj enabled).symm
  · next out =>
    rw [out]
    exact (Option.some.inj enabled).symm
  · cases enabled

theorem finalState_executeMvcc_dml (stmt : DmlStatement) :
    finalState (executeMvcc host depth (.dml stmt)) engine =
      finalState (executeDml host depth stmt engine.mvccTxnManager.activeId) engine := by
  have run : executeMvcc host depth (.dml stmt) engine =
      executeDml host depth stmt engine.mvccTxnManager.activeId engine := get_bind_run _ engine
  unfold finalState
  rw [run]

variable {control : MvccTxnManager → Except String (Nat × MvccTxnManager)}

theorem controlTransaction_ok {txnId : Nat} {mgr : MvccTxnManager}
    (accepted : control engine.mvccTxnManager = .ok (txnId, mgr)) :
    controlTransaction control engine = .ok () { engine with mvccTxnManager := mgr } := by
  unfold controlTransaction
  rw [get_bind_run]
  simp only [accepted]
  rfl

theorem controlTransaction_error {message : String}
    (refused : control engine.mvccTxnManager = .error message) :
    controlTransaction control engine = .error (.error (.other message)) engine := by
  unfold controlTransaction
  rw [get_bind_run]
  simp only [refused]
  rfl

def KeepsConsistent (old new : QueryEngine) : Prop := old.Consistent → new.Consistent

instance : IsPreorder QueryEngine KeepsConsistent where
  refl := fun _ => id
  trans := fun _ _ _ first second consistent => second (first consistent)

theorem consistent_controlTransaction (keeps : ManagerConsistent.KeptBy control) :
    Moves KeepsConsistent engine (controlTransaction control) := by
  refine .get_bind ?_
  split
  · exact .throw _
  · next txnId mgr accepted =>
    refine .set fun inv => ?_
    obtain ⟨manager, later⟩ := keeps _ _ _ accepted inv.manager
    exact inv.withManager manager later engine.savepoints

theorem consistent_clearSavepoints : Moves KeepsConsistent engine clearSavepoints :=
  .modify fun inv =>
    inv.withManager inv.manager (le_refl _) []

def KeepsTableInv (bound : Nat) (old new : Table) : Prop := TableInv bound old → TableInv bound new

instance (bound : Nat) : IsPreorder Table (KeepsTableInv bound) where
  refl := fun _ => id
  trans := fun _ _ _ first second inv => second (first inv)

theorem keepsTableInv_vacuumClosure (bound : Nat) (table : Table) (mgr : MvccTxnManager) :
    Moves (KeepsTableInv bound) table (vacuumClosure mgr) := by
  refine .get_bind (.ofExcept_bind ?_)
  rintro ⟨removed, compacted⟩ collected
  exact .set fun inv => inv.vacuum collected

theorem consistent_executeVacuum : Moves KeepsConsistent engine (executeVacuum host) := by
  refine .get_bind ?_
  split
  · refine .bind (.set fun inv => ?_) ?_
    · exact inv.withManager inv.manager.cleanupAborted (le_refl _) engine.savepoints
    intro _ cleaned _
    refine .bind (.forM ?_) (fun _ _ _ => .pure _)
    intro name _ cur _ inv
    have moved : Moves
        (EngineMoves (fun _ => True) (fun _ => KeepsTableInv cur.mvccTxnManager.nextTxnId))
        cur (withMut name (vacuumClosure engine.mvccTxnManager.cleanupAborted.2)) :=
      .withMut fun table _ =>
        keepsTableInv_vacuumClosure _ table _
    exact inv.moved moved fun _ _ _ keeps => keeps
  · exact .pure _

theorem consistent_executeMvcc (stmt : MvccStatement) :
    Moves KeepsConsistent engine (executeMvcc host depth stmt) := by
  cases stmt with
  | begin =>
    exact Moves.bind (consistent_controlTransaction ManagerConsistent.keptBy_beginCompat)
      (fun _ _ _ => .pure _)
  | commit =>
    refine Moves.bind (consistent_controlTransaction ManagerConsistent.keptBy_commitCompat) ?_
    exact fun _ _ _ => .bind consistent_clearSavepoints (fun _ _ _ => .pure _)
  | rollback =>
    refine Moves.bind (consistent_controlTransaction ManagerConsistent.keptBy_rollbackCompat) ?_
    exact fun _ _ _ => .bind consistent_clearSavepoints (fun _ _ _ => .pure _)
  | vacuum => exact consistent_executeVacuum
  | dml stmt =>
    refine .get_bind fun consistent => ?_
    have moved := moves_executeDml depth engine.mvccTxnManager.activeId
        consistent.mode (keepsPinned_none host engine stmt)
    exact consistent.moved moved fun _ _ _ writes inv =>
        inv.writes writes consistent.manager.activeId_lt

end

namespace QueryEngine

variable {host : Host} {depth : Nat} {engine next : QueryEngine}

theorem Consistent.step {action : EngineAction} (inv : engine.Consistent)
    (enabled : engine.step host depth action = some next) : next.Consistent := by
  cases action with
  | execute stmt =>
    rw [step_execute enabled]
    exact consistent_executeMvcc stmt inv
  | register table =>
    simp only [QueryEngine.step] at enabled
    split at enabled
    · next noChains =>
      cases enabled
      refine ⟨inv.mode, inv.manager, ?_⟩
      intro name found held
      simp only [FiniteMap.lookup_insert_eq] at held
      split at held
      · cases held
        exact .of_noChains (isEmpty_iff.mp noChains)
      · exact inv.tables name found held
    · cases enabled
  | beginBackground level =>
    cases enabled
    exact inv.withManager (inv.manager.beginWithIsolation level) (Nat.le_succ _) engine.savepoints
  | commitBackground txnId =>
    simp only [QueryEngine.step] at enabled
    split at enabled
    · next running =>
      cases enabled
      exact inv.withManager (inv.manager.commit running) (le_refl _) engine.savepoints
    · cases enabled

theorem Reachable.consistent (reachable : engine.Reachable host depth) : engine.Consistent :=
  GuardedRun.Reachable.invariant reachable
    (fun _ => .of_initial) (fun _ _ _ inv => inv.step)

end QueryEngine

end TurboGP.Engine
