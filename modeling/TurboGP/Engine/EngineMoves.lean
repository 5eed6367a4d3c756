import TurboGP.Engine.DmlEffect

/-!
# What a DML statement may change in the engine

`EngineMoves versioned relation` lifts a preorder on tables to the engine and
lets the sidecars of the `versioned` tables change; the rules below reduce a
statement to the closures it runs on single tables.
-/

namespace TurboGP.Engine

open Datasource Sql Txn Effect Option

/-- Every table moves along `relation`; no table comes or goes, and the
transaction managers, the savepoints and the sidecars of tables that are not
`versioned` stay. -/
structure EngineMoves (versioned : String → Prop)
    (rel : String → Table → Table → Prop)
    (old new : QueryEngine) : Prop where
  sameManager : new.mvccTxnManager = old.mvccTxnManager
  sameMode : new.mvccEnabled = old.mvccEnabled
  sameTxnManager : new.txnManager = old.txnManager
  sameSavepoints : new.savepoints = old.savepoints
  absent : ∀ name, old.catalog.lookup name = none → new.catalog.lookup name = none
  tables : ∀ name table, old.catalog.lookup name = some table →
      ∃ changed, new.catalog.lookup name = some changed ∧ rel name table changed
  sidecars : ∀ name, ¬ versioned name → new.temporals.lookup name = old.temporals.lookup name

/-- A change of the named table's sidecar is a change of a `versioned` one or
none at all. -/
def SidecarWithin (versioned : String → Prop) (engine : QueryEngine) (name : String) : Prop :=
  versioned name ∨ engine.temporals.lookup name = none

namespace EngineMoves

variable {versioned : String → Prop} {rel : String → Table → Table → Prop} {old new : QueryEngine}

theorem foreignKeys_eq
    (sameSchema : ∀ name table changed, rel name table changed → changed.schema = table.schema)
    (moved : EngineMoves versioned rel old new) (name : String) :
    (new.catalog.lookup name).map Table.foreignKeys =
      (old.catalog.lookup name).map Table.foreignKeys := by
  cases held : old.catalog.lookup name with
  | none => rw [moved.absent name held]
  | some table =>
    obtain ⟨changed, inNew, move⟩ := moved.tables name table held
    have schema := sameSchema name table changed move
    rw [inNew]
    simp only [map_some, Table.foreignKeys, schema]

variable {name : String}

theorem sidecarWithin (moved : EngineMoves versioned rel old new)
    (within : SidecarWithin versioned old name) : SidecarWithin versioned new name := by
  by_cases isVersioned : versioned name
  · exact .inl isVersioned
  · right
    rw [moved.sidecars name isVersioned]
    exact within.resolve_left isVersioned

variable {versioned : String → Prop}
  {rel : String → Table → Table → Prop}
  [∀ name, IsPreorder Table (rel name)]
  {old middle new engine : QueryEngine}

theorem of_sameCatalog (sameManager : new.mvccTxnManager = old.mvccTxnManager)
    (sameMode : new.mvccEnabled = old.mvccEnabled)
    (sameTxnManager : new.txnManager = old.txnManager)
    (sameSavepoints : new.savepoints = old.savepoints) (sameCatalog : new.catalog = old.catalog)
    (sidecars : ∀ name, ¬ versioned name → new.temporals.lookup name = old.temporals.lookup name) :
    EngineMoves versioned rel old new where
  sameManager := sameManager
  sameMode := sameMode
  sameTxnManager := sameTxnManager
  sameSavepoints := sameSavepoints
  absent := fun name missing => by rw [sameCatalog, missing]
  tables := fun name table held =>
    ⟨table, by rw [sameCatalog, held], Std.Refl.refl table⟩
  sidecars := sidecars

theorem trans (first : EngineMoves versioned rel old middle)
    (second : EngineMoves versioned rel middle new) :
    EngineMoves versioned rel old new where
  sameManager := second.sameManager.trans first.sameManager
  sameMode := second.sameMode.trans first.sameMode
  sameTxnManager := second.sameTxnManager.trans first.sameTxnManager
  sameSavepoints := second.sameSavepoints.trans first.sameSavepoints
  absent := fun name missing =>
    second.absent name (first.absent name missing)
  tables := by
    intro name table held
    obtain ⟨changed, inMiddle, firstMove⟩ := first.tables name table held
    obtain ⟨final, inNew, secondMove⟩ := second.tables name changed inMiddle
    exact ⟨final, inNew, Trans.trans firstMove secondMove⟩
  sidecars := fun name free =>
    (second.sidecars name free).trans (first.sidecars name free)

instance : IsPreorder QueryEngine (EngineMoves versioned rel) where
  refl := fun _ => of_sameCatalog rfl rfl rfl rfl rfl fun _ _ => rfl
  trans := fun _ _ _ => trans

theorem insertTable {table changed : Table} (held : old.catalog.lookup name = some table)
    (move : rel name table changed) :
    EngineMoves versioned rel old { old with catalog := old.catalog.insert name changed } where
  sameManager := rfl
  sameMode := rfl
  sameTxnManager := rfl
  sameSavepoints := rfl
  absent := by
    intro tested missing
    rw [FiniteMap.lookup_insert_eq, if_neg, missing]
    rintro rfl
    rw [held] at missing
    cases missing
  tables := by
    intro tested before found
    rw [FiniteMap.lookup_insert_eq]
    by_cases same : tested = name
    · subst same
      rw [held] at found
      cases found
      exact ⟨changed, if_pos rfl, move⟩
    · exact ⟨before, by rw [if_neg same, found], Std.Refl.refl before⟩
  sidecars := fun _ _ => rfl

theorem withMut {α : Type} {closure : TableM α}
    (move :
      ∀ table, engine.catalog.lookup name = some table → Moves (rel name) table closure) :
    Moves (EngineMoves versioned rel) engine (withMut name closure) := by
  unfold Moves finalState Engine.withMut
  cases held : engine.catalog.lookup name with
  | none => exact of_sameCatalog rfl rfl rfl rfl rfl fun _ _ => rfl
  | some table =>
    have moved := move table held
    unfold Moves finalState at moved
    cases out : closure table with
    | ok value changed | error fault changed =>
      rw [out] at moved
      simp only [out]
      exact insertTable held moved

theorem requireTable (name : String) :
    Moves (EngineMoves versioned rel) engine (requireTable name) := by
  refine .get_bind ?_
  split
  · exact .pure _
  · exact .throw _

theorem withTemporal (host : Host) (change : Nat → TemporalTable → TemporalTable)
    (within : SidecarWithin versioned engine name) :
    Moves (EngineMoves versioned rel) engine (withTemporal host name change) := by
  refine .get_bind ?_
  split
  · exact .pure _
  · next temporal held =>
    have isVersioned : versioned name := by
      refine within.resolve_right ?_
      rw [held]
      exact some_ne_none temporal
    refine .bind ?_ ?_
    · refine .get_bind (.bind ?_ fun _ _ _ => .pure _)
      exact .set (of_sameCatalog rfl rfl rfl rfl rfl fun _ _ => rfl)
    · intro now read _
      refine .modify (of_sameCatalog rfl rfl rfl rfl rfl ?_)
      intro tested free
      rw [FiniteMap.lookup_insert_eq, if_neg]
      rintro rfl
      exact free isVersioned

end EngineMoves

variable {engine : QueryEngine} {name : String} {table : Table}

theorem requireTable_eq_ok
    {next : QueryEngine} (found : requireTable name engine = .ok table next) :
    next = engine ∧ engine.catalog.lookup name = some table := by
  unfold requireTable at found
  rw [get_bind_run] at found
  cases held : engine.catalog.lookup name with
  | none =>
    simp only [held] at found
    cases found
  | some table =>
    simp only [held] at found
    cases found
    exact ⟨rfl, rfl⟩

theorem requireTable_ok (held : engine.catalog.lookup name = some table) :
    requireTable name engine = .ok table engine := by
  unfold requireTable
  rw [get_bind_run]
  simp only [held]
  rfl

theorem requireTable_absent (absent : engine.catalog.lookup name = none) :
    requireTable name engine = .error (.error (tableNotFound name)) engine := by
  unfold requireTable
  rw [get_bind_run]
  simp only [absent]
  rfl

variable {changed : Table} {stmt : DmlStatement}

theorem withMut_ok {α : Type} {closure : TableM α} {value : α}
    (held : engine.catalog.lookup name = some table) (ran : closure table = .ok value changed) :
    withMut name closure engine =
      .ok value { engine with catalog := engine.catalog.insert name changed } := by
  unfold withMut
  simp only [held, ran]

variable {host : Host}

theorem withTemporal_none {change : Nat → TemporalTable → TemporalTable}
    (noSidecar : engine.temporals.lookup name = none) :
    withTemporal host name change engine = .ok () engine := by
  unfold withTemporal
  rw [get_bind_run]
  simp only [noSidecar]
  rfl

theorem executeUpdate_ok {upd : Update}
    {txnId : Option Nat} {updated : Nat} {updates : List (Cell × List Cell)}
    (held : engine.catalog.lookup upd.table = some table)
    (noKeys : table.foreignKeys = []) (noSidecar : engine.temporals.lookup upd.table = none)
    (ran : updateRows host engine.mvccEnabled engine.mvccTxnManager txnId upd table =
        .ok (updated, updates) changed) :
    executeUpdate host upd txnId engine = .ok { QueryResult.empty with rowCount := updated }
        { engine with
          catalog := engine.catalog.insert upd.table changed } := by
  have unchecked : checkUpdateForeignKeys host engine.catalog table upd = .ok () := by
    unfold checkUpdateForeignKeys
    rw [noKeys]
    rfl
  unfold executeUpdate
  rw [bind_run_ok (requireTable_ok held), get_bind_run, unchecked]
  rw [bind_run_ok (ofExcept_eq_ok_iff.mpr ⟨rfl, rfl⟩), get_bind_run]
  rw [bind_run_ok (withMut_ok held ran)]
  exact bind_run_ok (forM_run_unchanged fun _ _ => withTemporal_none noSidecar)

section

variable {versioned : String → Prop}
  {rel : String → Table → Table → Prop}
  [∀ name, IsPreorder Table (rel name)] {engine : QueryEngine}

theorem moves_executeInsert (host : Host) (ins : Insert) (txnId : Option Nat)
    (within : SidecarWithin versioned engine ins.table)
    (closure : ∀ table, engine.catalog.lookup ins.table = some table →
        Moves (rel ins.table) table (insertRows host engine.mvccEnabled txnId ins)) :
    Moves (EngineMoves versioned rel) engine (executeInsert host ins txnId) := by
  refine .bind (.requireTable _) ?_
  intro table next found
  obtain ⟨rfl, -⟩ := requireTable_eq_ok found
  refine .get_bind (.ofExcept_bind fun _ _ => ?_)
  have changes : Moves (EngineMoves versioned rel) next
      (withMut ins.table (insertRows host next.mvccEnabled txnId ins)) :=
    .withMut closure
  refine .get_bind (.bind changes ?_)
  intro rows changed out
  refine .bind (.forM ?_) (fun _ _ _ => .pure _)
  intro _ _ cur logged
  have moved := (changes.reached out).trans logged
  exact .withTemporal host _ (moved.sidecarWithin within)

theorem moves_executeUpdate (host : Host) (upd : Update) (txnId : Option Nat)
    (within : SidecarWithin versioned engine upd.table)
    (closure : ∀ table, engine.catalog.lookup upd.table = some table →
        Moves (rel upd.table) table
          (updateRows host engine.mvccEnabled engine.mvccTxnManager txnId upd)) :
    Moves (EngineMoves versioned rel) engine (executeUpdate host upd txnId) := by
  refine .bind (.requireTable _) ?_
  intro table next found
  obtain ⟨rfl, -⟩ := requireTable_eq_ok found
  refine .get_bind (.ofExcept_bind fun _ _ => ?_)
  have changes : Moves (EngineMoves versioned rel) next
      (withMut upd.table (updateRows host next.mvccEnabled next.mvccTxnManager txnId upd)) :=
    .withMut closure
  refine .get_bind (.bind changes ?_)
  intro updates changed out
  refine .bind (.forM ?_) (fun _ _ _ => .pure _)
  intro _ _ cur logged
  have moved := (changes.reached out).trans logged
  exact .withTemporal host _ (moved.sidecarWithin within)

def QueryEngine.foreignKeys (engine : QueryEngine) (name : String) : List TableForeignKey :=
  ((engine.catalog.lookup name).map Table.foreignKeys).getD []

/-- A delete from `parent` may cascade to `target`. -/
inductive Cascades (keys : String → List TableForeignKey) : String → String → Prop
  | refl (parent : String) : Cascades keys parent parent
  | step {parent child target : String} {fk : TableForeignKey} :
      fk ∈ keys child → fk.refTable = parent → fk.onDelete = some .cascade →
      Cascades keys child target → Cascades keys parent target

def SetsNullWithin (keys : String → List TableForeignKey)
    (allowed : String → Prop) (parent : String) : Prop :=
  ∀ middle, Cascades keys parent middle →
    ∀ child fk, fk ∈ keys child → fk.refTable = middle →
    fk.onDelete = some .setNull ∨ fk.onDelete = some .setDefault → allowed child

theorem mem_childForeignKeys {host : Host} {parent child : String}
    {fk : TableForeignKey} (mem : (child, fk) ∈ childForeignKeys host engine.catalog parent) :
    fk ∈ engine.foreignKeys child ∧ fk.refTable = parent := by
  obtain ⟨name, -, inName⟩ := List.mem_flatMap.mp mem
  split at inName
  · cases inName
  · split at inName
    · cases inName
    · next table held =>
      obtain ⟨found, inTable, same⟩ := List.mem_map.mp inName
      cases same
      obtain ⟨declared, refers⟩ := List.mem_filter.mp inTable
      refine ⟨?_, by simpa using refers⟩
      simp only [QueryEngine.foreignKeys, held, map_some, getD_some]
      exact declared

variable {allowed : String → Prop}

theorem moves_enforceFkOnDelete (host : Host) {cascade : Delete → EngineM QueryResult}
    {parent : String} (rows : List Nat)
    (settingNull : ∀ name fk deletedVals table, allowed name →
        Moves (rel name) table (setNullChildren fk deletedVals))
    (cascading : ∀ del cur, EngineMoves versioned rel engine cur →
        (∃ fk ∈ engine.foreignKeys del.table, fk.refTable = parent ∧ fk.onDelete = some .cascade) →
        Moves (EngineMoves versioned rel) cur (cascade del))
    (within : SetsNullWithin engine.foreignKeys allowed parent) :
    Moves (EngineMoves versioned rel) engine (enforceFkOnDelete host cascade parent rows) := by
  refine .get_bind (.forM ?_)
  rintro ⟨child, fk⟩ mem cur reached
  obtain ⟨declared, refers⟩ := mem_childForeignKeys mem
  refine .bind (.requireTable _) ?_
  intro parentTable next found
  obtain ⟨rfl, -⟩ := requireTable_eq_ok found
  refine .ofExcept_bind fun deletedVals _ => ?_
  have setNull : fk.onDelete = some .setNull ∨ fk.onDelete = some .setDefault →
      Moves (EngineMoves versioned rel) next
        (withMut child (setNullChildren fk deletedVals)) := by
    intro action
    refine .withMut fun table _ => settingNull _ _ _ _ ?_
    exact within parent (.refl parent) child fk declared refers action
  have restrict : Moves (EngineMoves versioned rel) next (do
        let childTable ← requireTable child
        ofExcept (checkRestrict childTable fk parent child deletedVals)) := by
    refine .bind (.requireTable _) ?_
    exact fun _ _ _ => .ofExcept _
  cases onDelete : fk.onDelete with
  | none => simpa [onDelete] using restrict
  | some action =>
    cases action with
    | restrict | noAction => simpa [onDelete] using restrict
    | setNull => simpa [onDelete] using setNull (.inl onDelete)
    | setDefault => simpa [onDelete] using setNull (.inr onDelete)
    | cascade =>
      refine .bind ?_ (fun _ _ _ => .pure _)
      exact cascading _ _ reached ⟨fk, declared, refers, onDelete⟩

theorem moves_deleteTemporal (host : Host) (rows : List Nat)
    (within : SidecarWithin versioned engine name) :
    Moves (EngineMoves versioned rel) engine (deleteTemporal host name rows) := by
  refine .bind (.requireTable _) ?_
  intro table next found
  obtain ⟨rfl, -⟩ := requireTable_eq_ok found
  refine .forM ?_
  intro _ _ cur moved
  exact .withTemporal host _ (moved.sidecarWithin within)

/-- A DELETE, from the closures it runs: NULLs are set in `allowed` tables,
and the deleted rows are marked or removed. -/
theorem moves_executeDelete (host : Host) {txnId : Option Nat} {mvccEnabled : Bool}
    (sameSchema : ∀ name table changed, rel name table changed → changed.schema = table.schema)
    (settingNull : ∀ name fk deletedVals table, allowed name →
        Moves (rel name) table (setNullChildren fk deletedVals))
    (tombstoning : mvccEnabled = true → ∀ name rows table,
        Moves (rel name) table (tombstoneRows (txnId.getD 0) rows))
    (compacting :
      mvccEnabled = false → ∀ name mask table, Moves (rel name) table (compactColumns mask)) :
    ∀ (depth : Nat) (del : Delete) (engine : QueryEngine),
      engine.mvccEnabled = mvccEnabled → SetsNullWithin engine.foreignKeys allowed del.table →
      (∀ target, Cascades engine.foreignKeys del.table target →
        SidecarWithin versioned engine target) →
        Moves (EngineMoves versioned rel) engine (executeDelete host depth del txnId) := by
  intro depth
  -- The induction is on the depth left for cascading deletes.
  induction depth with
  | zero => exact fun _ _ _ _ _ => .throw _
  | succ depth ih =>
    intro del engine mode within sidecars
    refine .bind (.requireTable _) ?_
    intro table next found
    obtain ⟨rfl, -⟩ := requireTable_eq_ok found
    refine .ofExcept_bind fun mask _ => ?_
    simp only
    split
    · exact .pure _
    have enforced : Moves (EngineMoves versioned rel) next (enforceFkOnDelete host
          (fun child => executeDelete host depth child txnId) del.table (maskedRows mask)) := by
      refine moves_enforceFkOnDelete host _ settingNull ?_ within
      rintro child cur moved ⟨fk, declared, refers, cascades⟩
      have sameKeys : cur.foreignKeys = next.foreignKeys := by
        funext name
        unfold QueryEngine.foreignKeys
        rw [moved.foreignKeys_eq sameSchema name]
      refine ih child cur (moved.sameMode.trans mode) ?_ ?_
      · rw [sameKeys]
        intro middle path
        exact within middle (.step declared refers cascades path)
      · rw [sameKeys]
        intro target path
        refine moved.sidecarWithin ?_
        exact sidecars target (.step declared refers cascades path)
    refine .bind enforced ?_
    intro _ after out
    have modeAfter : after.mvccEnabled = mvccEnabled := (enforced.reached out).sameMode.trans mode
    have sidecar : SidecarWithin versioned after del.table :=
      (enforced.reached out).sidecarWithin (sidecars del.table (.refl _))
    refine .get_bind ?_
    cases mvccEnabled with
    | true =>
      rw [if_pos modeAfter]
      refine .bind (.requireTable _) ?_
      intro cur same isTable
      obtain ⟨rfl, -⟩ := requireTable_eq_ok isTable
      refine .ofExcept_bind fun _ _ => ?_
      have marked : Moves (EngineMoves versioned rel) same
          (withMut del.table (tombstoneRows (txnId.getD 0) (maskedRows mask))) :=
        .withMut fun table _ => tombstoning rfl _ _ table
      refine .bind marked ?_
      intro _ final isMarked
      have finalSidecar := (marked.reached isMarked).sidecarWithin sidecar
      exact .bind (moves_deleteTemporal host _ finalSidecar) (fun _ _ _ => .pure _)
    | false =>
      rw [if_neg (by rw [modeAfter]; exact Bool.false_ne_true)]
      refine .bind (moves_deleteTemporal host _ sidecar) ?_
      exact fun _ _ _ =>
        .bind
          (.withMut fun table _ => compacting rfl _ _ table) (fun _ _ _ => .pure _)

end

/-- The statement leaves the cells of the `pinned` rows as they are: an UPDATE
gives them only values they hold, and a DELETE sets no NULL in a table with
such rows. -/
def KeepsPinned (host : Host) (pinned : String → Nat → Prop)
    (engine : QueryEngine) : DmlStatement → Prop
  | .insert _ => True
  | .update upd =>
    ∀ table assigns mask, engine.catalog.lookup upd.table = some table →
      parseAssignments host table upd.assignments = .ok assigns →
      matchMask host table upd.whereClause = .ok mask →
      ∀ row ∈ maskedRows mask, pinned upd.table row →
      ∀ assign ∈ assigns, table.cellOf assign.colIdx row = some assign.cell
  | .delete del =>
    SetsNullWithin engine.foreignKeys (fun child => ∀ row, ¬ pinned child row) del.table

theorem keepsPinned_none (host : Host) (engine : QueryEngine) (statement : DmlStatement) :
    KeepsPinned host (fun _ _ => False) engine statement := by
  cases statement with
  | insert ins => exact trivial
  | update upd =>
    intro _ _ _ _ _ _ _ _ isPinned
    exact isPinned.elim
  | delete del =>
    intro _ _ _ _ _ _ _ _
    exact id

theorem moves_executeDml {pinned : String → Nat → Prop} (depth : Nat) (txnId : Option Nat)
    (mode : engine.mvccEnabled = true) (keeps : KeepsPinned host pinned engine stmt) :
    Moves (EngineMoves (fun _ => True) (fun name => Writes (txnId.getD 0) (pinned name)))
      engine (executeDml host depth stmt txnId) := by
  cases stmt with
  | insert ins =>
    refine moves_executeInsert host ins txnId (.inl trivial) fun table _ => ?_
    rw [mode]
    exact moves_insertRows host ins rfl
  | update upd =>
    refine moves_executeUpdate host upd txnId (.inl trivial) fun table held => ?_
    rw [mode]
    refine moves_updateRows host _ upd rfl ?_
    exact fun assigns mask => keeps table assigns mask held
  | delete del =>
    refine moves_executeDelete host (fun _ _ _ moved => moved.sameSchema) ?_
      (fun _ _ rows _ => moves_tombstoneRows rows)
      (fun off => absurd off (by simp)) depth del engine mode keeps (fun _ _ => .inl trivial)
    intro name fk deletedVals table free
    exact moves_setNullChildren fk deletedVals free

/-! ## DML statements without MVCC -/

structure SameIdentity (old new : Table) : Prop where
  name : new.name = old.name
  schema : new.schema = old.schema

namespace SameIdentity

instance : IsPreorder Table SameIdentity where
  refl := fun _ => ⟨rfl, rfl⟩
  trans := fun _ _ _ first second =>
    ⟨second.name.trans first.name, second.schema.trans first.schema⟩

end SameIdentity

section

variable {table : Table}

private theorem identity_of_moves {α : Type} {closure : TableM α}
    (moves : Moves (Writes 0 (fun _ => False)) table closure) : Moves SameIdentity table closure :=
  moves.weaken fun _ _ writes => ⟨writes.sameName, writes.sameSchema⟩

theorem identity_insertRows (host : Host) (ins : Insert) (txnId : Option Nat) :
    Moves SameIdentity table (insertRows host false txnId ins) := by
  refine .get_bind (.ofExcept_bind fun colIndices _ => ?_)
  refine .ofExcept_bind fun _ _ => ?_
  refine .ofExcept_bind fun _ _ => ?_
  refine .bind ?_ ?_
  · exact .forM fun _ _ _ _ => identity_of_moves (moves_pushRow _ _ _)
  intro _ pushed _
  refine .bind (.modify ⟨rfl, rfl⟩) ?_
  intro _ added _
  refine .bind ?_ (fun _ _ _ => .get_bind (.pure _))
  refine .get_bind (.forM ?_)
  intro colIdx _ cur _
  simp only
  split
  · exact .pure _
  · exact identity_of_moves (moves_extendSidecar _ _)

theorem identity_updateRows (host : Host) (mgr : MvccTxnManager) (txnId : Option Nat)
    (upd : Update) : Moves SameIdentity table (updateRows host false mgr txnId upd) := by
  refine .get_bind (.ofExcept_bind fun assigns _ => ?_)
  refine .ofExcept_bind fun mask _ => ?_
  refine .bind (.modify ⟨rfl, rfl⟩) ?_
  intro _ padded _
  refine .get_bind (.ofExcept_bind fun _ _ => ?_)
  refine .bind (.forM ?_) ?_
  · intro row _ cur _
    exact identity_of_moves (moves_updateRow fun isPinned => isPinned.elim)
  · exact fun _ _ _ => .get_bind (.pure _)

theorem identity_compactColumns (mask : List Bool) :
    Moves SameIdentity table (compactColumns mask) := by
  refine .get_bind ?_
  simp only
  split
  · refine .bind (.throw _) ?_
    intro _ _ thrown
    cases thrown
  · exact .ofExcept_bind fun _ _ => .set ⟨rfl, rfl⟩

end

def SidecarsWithin (versioned : String → Prop) (engine : QueryEngine) : DmlStatement → Prop
  | .insert ins => SidecarWithin versioned engine ins.table
  | .update upd => SidecarWithin versioned engine upd.table
  | .delete del =>
    ∀ target, Cascades engine.foreignKeys del.table target → SidecarWithin versioned engine target

theorem sidecarsWithin_all (engine : QueryEngine) (statement : DmlStatement) :
    SidecarsWithin (fun _ => True) engine statement := by
  cases statement with
  | insert ins | update upd => exact .inl trivial
  | delete del => exact fun _ _ => .inl trivial

theorem moves_executeDml_snapshot {versioned : String → Prop} {engine : QueryEngine}
    (host : Host) (depth : Nat) (txnId : Option Nat) (mode : engine.mvccEnabled = false)
    (within : SidecarsWithin versioned engine stmt) :
    Moves (EngineMoves versioned (fun _ => SameIdentity)) engine
      (executeDml host depth stmt txnId) := by
  cases stmt with
  | insert ins =>
    refine moves_executeInsert host ins txnId within fun table _ => ?_
    rw [mode]
    exact identity_insertRows host ins txnId
  | update upd =>
    refine moves_executeUpdate host upd txnId within fun table _ => ?_
    rw [mode]
    exact identity_updateRows host _ txnId upd
  | delete del =>
    have everywhere : SetsNullWithin engine.foreignKeys (fun _ => True) del.table :=
      fun _ _ _ _ _ _ _ => trivial
    exact moves_executeDelete host (fun _ _ _ kept => kept.schema)
        (fun _ fk deletedVals _ _ =>
          identity_of_moves (moves_setNullChildren fk deletedVals fun _ => id))
        (fun on => absurd on (by simp))
        (fun _ _ mask _ => identity_compactColumns mask) depth del engine
        mode everywhere within

end TurboGP.Engine
