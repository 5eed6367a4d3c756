import TurboGP.Engine.InsertRows

/-! # What a returned statement did -/

namespace TurboGP.Engine

open Effect Datasource Sql Txn List

variable {host : Host} {engine next : QueryEngine} {txnId : Option Nat}
  {res : QueryResult}

structure UpdateReturned (host : Host) (engine : QueryEngine) (upd : Update)
    (table written : Table) (assigns : List Assignment) (mask : List Bool) :
    Prop where
  present : engine.catalog.lookup upd.table = some table
  assigned : parseAssignments host table upd.assignments = .ok assigns
  selected : matchMask host table upd.whereClause = .ok mask
  applied : (maskedRows mask).forM (updateRow assigns)
      (padBitmaps table table.columns.length) = .ok () written

theorem executeUpdate_returned {upd : Update} (mode : engine.mvccEnabled = false)
    (ran : executeUpdate host upd txnId engine = .ok res next) :
    ∃ table written assigns mask, UpdateReturned host engine upd table written assigns mask ∧
      SameTables
        { engine with
          catalog := engine.catalog.insert upd.table written }
        next := by
  obtain ⟨table, _, found, checking⟩ := bind_eq_ok_iff.mp ran
  obtain ⟨same, held⟩ := requireTable_eq_ok found
  rw [same, get_bind_run] at checking
  obtain ⟨_, -, changing⟩ := ofExcept_bind_eq_ok_iff.mp checking
  rw [get_bind_run] at changing
  obtain ⟨⟨updated, updates⟩, middle, changes, logging⟩ := bind_eq_ok_iff.mp changing
  obtain ⟨_, changed, lookup, closure, rfl⟩ := withMut_eq_ok changes
  cases held.symm.trans lookup
  obtain ⟨_, logged, loop, final⟩ := bind_eq_ok_iff.mp logging
  cases final
  unfold updateRows at closure
  rw [get_bind_run] at closure
  obtain ⟨assigns, assigned, closure⟩ := ofExcept_bind_eq_ok_iff.mp closure
  obtain ⟨mask, selected, closure⟩ := ofExcept_bind_eq_ok_iff.mp closure
  rw [modify_bind_run, get_bind_run] at closure
  obtain ⟨_, -, closure⟩ := ofExcept_bind_eq_ok_iff.mp closure
  simp only [mode, Bool.false_eq_true, if_false] at closure
  obtain ⟨_, written, applied, closure⟩ := bind_eq_ok_iff.mp closure
  cases closure
  refine ⟨table, changed, assigns, mask, ?_, sameTables_forM_withTemporal loop⟩
  exact ⟨held, assigned, selected, applied⟩

/-- The foreign keys of other tables do not let a delete reach them. -/
def OnlyRestricts (host : Host) (catalog : Catalog) (parent : String) : Prop :=
  ∀ entry ∈ childForeignKeys host catalog parent,
    entry.2.onDelete.getD .noAction = .restrict ∨ entry.2.onDelete.getD .noAction = .noAction

structure RestrictChecked (engine : QueryEngine) (parentName : String)
    (rows : List Nat) (entry : String × TableForeignKey) : Prop where
  checked : ∃ parent child deletedVals, engine.catalog.lookup parentName = some parent ∧
    engine.catalog.lookup entry.1 = some child ∧
    deletedParentVals parent entry.2 rows = .ok deletedVals ∧
    checkRestrict child entry.2 parentName entry.1 deletedVals = .ok ()

theorem enforceFkOnDelete_returned {cascade : Delete → EngineM QueryResult}
    {parentName : String} {rows : List Nat}
    (restricts : OnlyRestricts host engine.catalog parentName)
    (ran : enforceFkOnDelete host cascade parentName rows engine = .ok () next) :
    next = engine ∧
      ∀ entry ∈ childForeignKeys host engine.catalog parentName,
        RestrictChecked engine parentName rows entry := by
  unfold enforceFkOnDelete at ran
  rw [get_bind_run] at ran
  unfold OnlyRestricts at restricts
  generalize childForeignKeys host engine.catalog parentName = keys at restricts ran ⊢
  induction keys with
  | nil =>
    cases ran
    exact ⟨rfl, fun _ mem => absurd mem not_mem_nil⟩
  | cons entry rest ih =>
    obtain ⟨isRestrict, restRestricts⟩ := forall_mem_cons.mp restricts
    obtain ⟨_, middle, head, tail⟩ := bind_eq_ok_iff.mp ran
    obtain ⟨parent, first, found, enforced⟩ := bind_eq_ok_iff.mp head
    obtain ⟨rfl, isParent⟩ := requireTable_eq_ok found
    obtain ⟨deletedVals, values, acted⟩ := ofExcept_bind_eq_ok_iff.mp enforced
    have checks : (do
          let child ← requireTable entry.1
          ofExcept (checkRestrict child entry.2 parentName entry.1 deletedVals) :
          EngineM Unit) first = .ok () middle := by
      rcases isRestrict with restrict | noAction
      · rw [restrict] at acted
        exact acted
      · rw [noAction] at acted
        exact acted
    obtain ⟨child, second, foundChild, checked⟩ := bind_eq_ok_iff.mp checks
    obtain ⟨sameEngine, isChild⟩ := requireTable_eq_ok foundChild
    obtain ⟨passes, sameMiddle⟩ := ofExcept_eq_ok_iff.mp checked
    rw [sameMiddle, sameEngine] at tail
    obtain ⟨same, others⟩ := ih restRestricts tail
    refine ⟨same, forall_mem_cons.mpr ⟨⟨?_⟩, others⟩⟩
    exact ⟨parent, child, deletedVals, isParent, isChild, values, passes⟩

/-- A returned DELETE that matched rows and reached no other table. -/
structure DeleteReturned (host : Host) (engine : QueryEngine) (del : Delete)
    (table : Table) (mask : List Bool) : Prop where
  present : engine.catalog.lookup del.table = some table
  selected : matchMask host table del.whereClause = .ok mask
  foreignKeys : maskedRows mask ≠ [] →
      ∀ entry ∈ childForeignKeys host engine.catalog del.table,
        RestrictChecked engine del.table (maskedRows mask) entry

theorem deleteTemporal_returned {name : String} {rows : List Nat}
    (ran : deleteTemporal host name rows engine = .ok () next) : SameTables engine next := by
  obtain ⟨table, first, found, told⟩ := bind_eq_ok_iff.mp ran
  obtain ⟨rfl, -⟩ := requireTable_eq_ok found
  exact sameTables_forM_withTemporal told

theorem SameTables.insert {old new : QueryEngine} (same : SameTables old new)
    (name : String) (table : Table) :
    SameTables { old with catalog := old.catalog.insert name table }
      { new with catalog := new.catalog.insert name table } where
  sameManager := same.sameManager
  sameMode := same.sameMode
  sameTxnManager := same.sameTxnManager
  sameSavepoints := same.sameSavepoints
  absent := by
    intro tested missing
    rw [FiniteMap.lookup_insert_eq] at missing ⊢
    rwa [same.lookup_eq]
  tables := by
    intro tested before found
    refine ⟨before, ?_, rfl⟩
    rw [FiniteMap.lookup_insert_eq] at found ⊢
    rwa [same.lookup_eq]
  sidecars := same.sidecars

theorem executeDelete_returned {depth : Nat} {del : Delete} (mode : engine.mvccEnabled = false)
    (restricts : OnlyRestricts host engine.catalog del.table)
    (returned : executeDelete host depth del txnId engine = .ok res next) :
    ∃ table mask, DeleteReturned host engine del table mask ∧
      (maskedRows mask = [] ∧ next = engine ∨ ∃ changed,
          compactColumns mask table = .ok () changed ∧ SameTables
              { engine with
                catalog := engine.catalog.insert del.table changed } next) := by
  cases depth with
  | zero => cases returned
  | succ depth =>
    obtain ⟨table, first, found, ran⟩ := bind_eq_ok_iff.mp returned
    obtain ⟨rfl, held⟩ := requireTable_eq_ok found
    obtain ⟨mask, selected, ran⟩ := ofExcept_bind_eq_ok_iff.mp ran
    by_cases matched : maskedRows mask = []
    · rw [matched] at ran
      cases ran
      refine ⟨table, mask, ⟨held, selected, ?_⟩, .inl ⟨matched, rfl⟩⟩
      exact fun nonempty => absurd matched nonempty
    · have notEmpty : (maskedRows mask).isEmpty = false :=
        Bool.eq_false_iff.mpr fun empty => matched (isEmpty_iff.mp empty)
      simp only [notEmpty, Bool.false_eq_true, if_false] at ran
      obtain ⟨_, enforced, enforces, changes⟩ := bind_eq_ok_iff.mp ran
      obtain ⟨sameEngine, checked⟩ := enforceFkOnDelete_returned restricts enforces
      rw [sameEngine, get_bind_run] at changes
      refine ⟨table, mask, ⟨held, selected, fun _ => checked⟩, .inr ?_⟩
      simp only [mode, Bool.false_eq_true, if_false] at changes
      obtain ⟨_, told, tells, changes⟩ := bind_eq_ok_iff.mp changes
      obtain ⟨_, final, compacts, changes⟩ := bind_eq_ok_iff.mp changes
      cases changes
      have same := deleteTemporal_returned tells
      obtain ⟨_, changed, lookup, compacted, rfl⟩ := withMut_eq_ok compacts
      rw [same.lookup_eq, held] at lookup
      cases lookup
      exact ⟨changed, compacted, same.insert del.table changed⟩

end TurboGP.Engine
