import TurboGP.Engine.DmlOutcome

/-! # Refused statements -/

namespace TurboGP.Engine

open Effect Datasource Sql Txn Finmap Table

/-- Bitmaps may be added, but no NULL flag changes. -/
def SameContent (old new : Table) : Prop :=
  (∃ bitmaps, new = { old with nullBitmaps := bitmaps }) ∧
    ∀ colIdx rowIdx, new.nullAt colIdx rowIdx = old.nullAt colIdx rowIdx

theorem SameContent.trans {old middle new : Table} (first : SameContent old middle)
    (second : SameContent middle new) : SameContent old new := by
  obtain ⟨⟨_, rfl⟩, firstFlags⟩ := first
  obtain ⟨⟨_, rfl⟩, secondFlags⟩ := second
  refine ⟨⟨_, rfl⟩, fun colIdx rowIdx => ?_⟩
  rw [secondFlags, firstFlags]

instance : IsPreorder Table SameContent where
  refl := fun _ => ⟨⟨_, rfl⟩, fun _ _ => rfl⟩
  trans := fun _ _ _ => .trans

theorem sameContent_padBitmaps (table : Table) (length : Nat) :
    SameContent table (padBitmaps table length) := by
  refine ⟨⟨_, rfl⟩, fun colIdx rowIdx => ?_⟩
  by_cases inside : colIdx < table.nullBitmaps.length
  · simp [nullAt, padBitmaps, List.getElem?_append_left inside]
  · have outside : table.nullBitmaps[colIdx]? = none := by
      simpa using inside
    simp only [nullAt, padBitmaps, outside]
    rw [List.getElem?_append_right (by omega), List.getElem?_replicate]
    split <;> simp_all

theorem sameContent_ensureBitmap (colIdx : Nat) (table : Table) :
    Moves SameContent table (ensureBitmap colIdx) := by
  apply Moves.modify
  simp only
  split
  · next absent =>
    apply (sameContent_padBitmaps table (colIdx + 1)).trans
    refine ⟨⟨_, rfl⟩, fun tested rowIdx => ?_⟩
    by_cases same : tested = colIdx
    · subst same
      have inside := (List.getElem?_eq_some_iff.mp absent).1
      simp [nullAt, inside, NullBitmap.isNull, NullBitmap.new, List.getElem?_replicate]
      grind
    · simp [nullAt, List.getElem?_set_ne (Ne.symm same)]
  · exact sameContent_padBitmaps table (colIdx + 1)

def HoldsNone (child : Table) (fk : TableForeignKey) (deletedVals : List (List Cell)) : Prop :=
  ∀ rowIdx < child.rowCount, ∀ cells,
    (fk.columns.map child.columnIdx).mapM (fun idx => cellAt child idx rowIdx) = .ok cells →
    deletedVals.contains cells = false

theorem sameContent_setNullChildren {child : Table} {fk : TableForeignKey}
    {deletedVals : List (List Cell)} (none : HoldsNone child fk deletedVals) :
    Moves SameContent child (setNullChildren fk deletedVals) := by
  refine .get_bind (.bind (.forM fun colIdx _ cur _ =>
    sameContent_ensureBitmap colIdx cur) fun _ padded ensured => ?_)
  have same : SameContent child padded :=
    (Moves.forM fun colIdx _ cur _ => sameContent_ensureBitmap colIdx cur).reached ensured
  refine .forM fun rowIdx mem cur reached => .get_bind ?_
  refine .ofExcept_bind fun cells read => ?_
  obtain ⟨⟨_, rfl⟩, -⟩ := same.trans reached
  rw [none rowIdx (List.mem_range.mp mem) cells read]
  exact .pure _

abbrev SameContents : QueryEngine → QueryEngine → Prop :=
  EngineMoves (fun _ => True) (fun _ => SameContent)

theorem throws_updateRow (assigns : List Assignment) (rowIdx : Nat) :
    Throws (· = .panic) (updateRow assigns rowIdx) := by
  refine .forM fun assign _ => .bind ?_ fun _ => .modify _
  refine .bind .get fun table => ?_
  refine .bind (.ofExcept fun _ => index_panics) fun column => ?_
  refine .bind (.ofExcept fun fault failed => ?_) fun _ => .set _
  unfold indexSet at failed
  split at failed
  · cases failed
  · cases failed
    rfl

variable {host : Host} {engine next : QueryEngine} {txnId : Option Nat} {error : Error}

/-- The checks come before the first cell is written. -/
theorem errorKeeps_updateRows {rel : Table → Table → Prop} [IsPreorder Table rel]
    (mvccEnabled : Bool) (mgr : MvccTxnManager) (upd : Update) {table : Table}
    (pads : rel table (padBitmaps table table.columns.length)) :
    ErrorKeeps rel (updateRows host mvccEnabled mgr txnId upd) table := by
  refine .get_bind (.bind (.ofExcept _) fun assigns _ parsed => ?_)
  obtain ⟨-, rfl⟩ := ofExcept_eq_ok_iff.mp parsed
  refine .bind (.ofExcept _) fun mask _ selected => ?_
  obtain ⟨-, rfl⟩ := ofExcept_eq_ok_iff.mp selected
  refine .bind (.modify pads) fun _ _ _ => ?_
  refine .get_bind (.bind (.ofExcept _) fun _ _ _ => ?_)
  have rows : Throws (· = .panic) ((maskedRows mask).forM (updateRow assigns)) :=
    .forM fun rowIdx _ => throws_updateRow assigns rowIdx
  split
  · refine .get_bind (.bind (.ofExcept _) fun _ _ _ => .of_throws ?_)
    refine .bind rows fun _ => ?_
    refine .bind (.forM fun _ _ => .modify _) fun _ => ?_
    exact .bind .get fun _ => .pure _
  · refine .of_throws (.bind rows fun _ => ?_)
    exact .bind .get fun _ => .pure _

theorem errorKeeps_executeUpdate {rel : String → Table → Table → Prop}
    [∀ name, IsPreorder Table (rel name)] (upd : Update)
    (pads : ∀ table, engine.catalog.lookup upd.table = some table →
      rel upd.table table (padBitmaps table table.columns.length)) :
    ErrorKeeps (EngineMoves (fun _ => True) rel) (executeUpdate host upd txnId) engine := by
  refine .bind (.requireTable _) fun _ _ found => ?_
  obtain ⟨rfl, -⟩ := requireTable_eq_ok found
  refine .get_bind (.bind (.ofExcept _) fun _ _ checked => ?_)
  obtain ⟨-, rfl⟩ := ofExcept_eq_ok_iff.mp checked
  refine .get_bind (.bind_throws (.withMut fun table held => ?_) fun _ => ?_)
  · exact errorKeeps_updateRows _ _ _ (pads table held)
  refine .bind (.forM fun _ _ => ?_) fun _ => .pure _
  intro state fault next failed
  exact (throws_withTemporal _ _ state fault next failed).elim

section

variable {rel : String → Table → Table → Prop} [∀ name, IsPreorder Table (rel name)]

theorem moves_enforceFkOnDelete_restricts {cascade : Delete → EngineM QueryResult}
    {parentName : String} {rows : List Nat}
    (restricts : OnlyRestricts host engine.catalog parentName) :
    Moves (EngineMoves (fun _ => True) rel) engine
      (enforceFkOnDelete host cascade parentName rows) := by
  refine .get_bind (.forM fun entry mem cur _ => ?_)
  refine .bind (.requireTable _) fun parent _ _ => ?_
  refine .ofExcept_bind fun deletedVals _ => ?_
  rcases restricts entry mem with action | action <;> simp only [action]
  all_goals exact .bind (.requireTable _) fun _ _ _ => .ofExcept _

/-- A key that restricts is checked before the rows go. -/
theorem errorKeeps_executeDelete {depth : Nat} {del : Delete} (mode : engine.mvccEnabled = false)
    (restricts : OnlyRestricts host engine.catalog del.table) :
    ErrorKeeps (EngineMoves (fun _ => True) rel) (executeDelete host depth del txnId) engine := by
  cases depth with
  | zero =>
    intro error next failed
    cases failed
  | succ depth =>
    refine .bind (.requireTable _) fun _ _ found => ?_
    obtain ⟨rfl, -⟩ := requireTable_eq_ok found
    refine .bind (.ofExcept _) fun mask _ selected => ?_
    obtain ⟨-, rfl⟩ := ofExcept_eq_ok_iff.mp selected
    simp only
    split
    · exact .of_throws (.pure _)
    refine .bind (moves_enforceFkOnDelete_restricts restricts) fun _ _ enforced => ?_
    obtain ⟨rfl, -⟩ := enforceFkOnDelete_returned restricts enforced
    refine .get_bind ?_
    simp only [mode, Bool.false_eq_true, if_false]
    refine .bind (moves_deleteTemporal host _ (.inl trivial)) fun _ _ _ => ?_
    refine .bind_throws (.withMut fun table _ => ?_) fun _ => .pure _
    · refine .get_bind ?_
      simp only
      split
      · intro error next failed
        cases failed
      · exact .bind (.ofExcept _) fun _ _ _ => .of_throws (.set _)

end

/-- If the statement fails on these tables, it changes none of them: an UPDATE
has no bitmap to add, and a DELETE meets only keys that restrict. -/
def FailsClean (host : Host) (catalog : Catalog) : DmlStatement → Prop
  | .insert _ => True
  | .update upd =>
    ∀ table, catalog.lookup upd.table = some table →
      table.columns.length ≤ table.nullBitmaps.length
  | .delete del => OnlyRestricts host catalog del.table

theorem catalog_executeDml_error {depth : Nat} {stmt : DmlStatement}
    (mode : engine.mvccEnabled = false) (clean : FailsClean host engine.catalog stmt)
    (failed : executeDml host depth stmt txnId engine = .error (.error error) next) :
    next.catalog = engine.catalog := by
  have same : SameTables engine next := by
    cases stmt with
    | insert ins => exact errorKeeps_executeInsert ins error next failed
    | update upd =>
      refine errorKeeps_executeUpdate upd (fun table held => ?_) error next failed
      simp [padBitmaps, Nat.sub_eq_zero_of_le (clean table held)]
    | delete del => exact errorKeeps_executeDelete mode clean error next failed
  exact Finmap.ext_lookup same.lookup_eq

def KeyRead (engine : QueryEngine) (parentName : String) (rows : List Nat)
    (entry : String × TableForeignKey) (child : Table) (deletedVals : List (List Cell)) : Prop :=
  (∃ parent, engine.catalog.lookup parentName = some parent ∧
    deletedParentVals parent entry.2 rows = .ok deletedVals) ∧
  engine.catalog.lookup entry.1 = some child

/-- One of the keys refuses, and those before it find no row.  A key that sets
NULLs may add bitmaps. -/
def KeysRefuse (host : Host) (cascade : Delete → QueryEngine → Prop) (parentName : String)
    (rows : List Nat) : List (String × TableForeignKey) → QueryEngine → Prop
  | [], _ => False
  | entry :: keys, engine =>
    ∃ child deletedVals, KeyRead engine parentName rows entry child deletedVals ∧
      match entry.2.onDelete.getD .noAction with
      | .restrict | .noAction =>
        checkRestrict child entry.2 parentName entry.1 deletedVals = .ok () →
          KeysRefuse host cascade parentName rows keys engine
      | .cascade =>
        let whereClause := buildCascadeWhereExpr entry.2.columns deletedVals
        cascade { table := entry.1, whereClause := whereClause } engine ∨
          (∃ mask, matchMask host child whereClause = .ok mask ∧ maskedRows mask = []) ∧
            KeysRefuse host cascade parentName rows keys engine
      | .setNull | .setDefault =>
        HoldsNone child entry.2 deletedVals ∧
          ∀ next, SameContents engine next → KeysRefuse host cascade parentName rows keys next

/-- A DELETE that a foreign key refuses before a row of another table is
reached. -/
def DeleteRefused (host : Host) : Nat → Delete → QueryEngine → Prop
  | 0, _, _ => False
  | depth + 1, del, engine =>
    ∃ table mask, engine.catalog.lookup del.table = some table ∧
      matchMask host table del.whereClause = .ok mask ∧ maskedRows mask ≠ [] ∧
      KeysRefuse host (DeleteRefused host depth) del.table (maskedRows mask)
        (childForeignKeys host engine.catalog del.table) engine

def FailsUnchanged {α : Type} (prog : EngineM α) (engine : QueryEngine) : Prop :=
  ∃ fault next, prog engine = .error fault next ∧ SameContents engine next

variable {α β : Type}

theorem FailsUnchanged.bind {prog : EngineM α} {rest : α → EngineM β}
    (fails : FailsUnchanged prog engine) : FailsUnchanged (prog >>= rest) engine := by
  obtain ⟨fault, next, failed, same⟩ := fails
  exact ⟨fault, next, bind_run_error failed, same⟩

theorem FailsUnchanged.after {prog : EngineM α} {rest : α → EngineM β}
    (moves : Moves SameContents engine prog)
    (later : ∀ value next, prog engine = .ok value next → SameContents engine next →
      FailsUnchanged (rest value) next) :
    FailsUnchanged (prog >>= rest) engine := by
  cases out : prog engine with
  | error fault next => exact ⟨fault, next, bind_run_error out, moves.reached_error out⟩
  | ok value middle =>
    have same := moves.reached out
    obtain ⟨fault, next, failed, kept⟩ := later value middle out same
    exact ⟨fault, next, (bind_run_ok out).trans failed, same.trans kept⟩

theorem KeyRead.run {parentName : String} {rows : List Nat} {entry : String × TableForeignKey}
    {child : Table} {deletedVals : List (List Cell)}
    (read : KeyRead engine parentName rows entry child deletedVals)
    (act : List (List Cell) → EngineM Unit) :
    (do
      let parent ← requireTable parentName
      let deletedVals ← ofExcept (deletedParentVals parent entry.2 rows)
      act deletedVals : EngineM Unit) engine = act deletedVals engine := by
  obtain ⟨⟨parent, isParent, values⟩, -⟩ := read
  rw [bind_run_ok (requireTable_ok isParent), ofExcept_bind_run, values]

theorem FailsUnchanged.congr {prog other : EngineM α} {rest : α → EngineM β}
    (same : prog engine = other engine) (fails : FailsUnchanged (other >>= rest) engine) :
    FailsUnchanged (prog >>= rest) engine := by
  unfold FailsUnchanged
  rwa [bind_run_congr same]

theorem enforce_failsUnchanged {cascade : Delete → EngineM QueryResult}
    {refused : Delete → QueryEngine → Prop}
    (cascades : ∀ del engine, refused del engine → FailsUnchanged (cascade del) engine)
    (skips : ∀ (del : Delete) engine table mask, engine.catalog.lookup del.table = some table →
      matchMask host table del.whereClause = .ok mask → maskedRows mask = [] →
      FailsUnchanged (cascade del) engine ∨ ∃ result, cascade del engine = .ok result engine)
    {parentName : String} {rows : List Nat}
    (refuse : KeysRefuse host refused parentName rows
      (childForeignKeys host engine.catalog parentName) engine) :
    FailsUnchanged (enforceFkOnDelete host cascade parentName rows) engine := by
  change FailsUnchanged (List.forM (childForeignKeys host engine.catalog parentName) _) engine
  generalize childForeignKeys host engine.catalog parentName = keys at refuse ⊢
  induction keys generalizing engine with
  | nil => exact refuse.elim
  | cons entry keys ih =>
    obtain ⟨child, deletedVals, read, refuse⟩ := refuse
    refine .congr (read.run _) ?_
    cases action : entry.2.onDelete.getD .noAction with
    | restrict | noAction =>
      simp only [action] at refuse ⊢
      refine .congr (bind_run_ok (requireTable_ok read.2)) ?_
      cases check : checkRestrict child entry.2 parentName entry.1 deletedVals with
      | error fault => exact .bind ⟨fault, engine, rfl, Std.Refl.refl engine⟩
      | ok _ => exact ih (refuse check)
    | cascade =>
      simp only [action] at refuse ⊢
      rcases refuse with refused | ⟨⟨mask, selected, none⟩, later⟩
      · exact (cascades _ _ refused).bind.bind
      · rcases skips ⟨entry.1, _⟩ engine child mask read.2 selected none with
          fails | ⟨result, ran⟩
        · exact fails.bind.bind
        · exact .congr (bind_run_ok ran) (ih later)
    | setNull | setDefault =>
      simp only [action] at refuse ⊢
      refine .after ?_ fun _ next _ same => ih (refuse.2 next same)
      refine .withMut fun table held => ?_
      cases read.2.symm.trans held
      exact sameContent_setNullChildren refuse.1

variable {depth : Nat} {del : Delete}

variable {table : Table} {mask : List Bool}

theorem executeDelete_refused {fault : Fault} (held : engine.catalog.lookup del.table = some table)
    (selected : matchMask host table del.whereClause = .ok mask) (some : maskedRows mask ≠ [])
    (refused : enforceFkOnDelete host (fun child => executeDelete host depth child txnId) del.table
      (maskedRows mask) engine = .error fault next) :
    executeDelete host (depth + 1) del txnId engine = .error fault next := by
  have run : executeDelete host (depth + 1) del txnId engine = _ :=
    bind_run_ok (requireTable_ok held)
  rw [ofExcept_bind_run, selected] at run
  simp only [List.isEmpty_iff, some, if_false] at run
  rw [run, bind_run_error refused]

theorem executeDelete_skips (depth : Nat) (held : engine.catalog.lookup del.table = some table)
    (selected : matchMask host table del.whereClause = .ok mask) (none : maskedRows mask = []) :
    FailsUnchanged (executeDelete host depth del txnId) engine ∨
      ∃ result, executeDelete host depth del txnId engine = .ok result engine := by
  cases depth with
  | zero => exact .inl ⟨_, engine, rfl, Std.Refl.refl engine⟩
  | succ depth =>
    have run : executeDelete host (depth + 1) del txnId engine = _ :=
      bind_run_ok (requireTable_ok held)
    rw [ofExcept_bind_run, selected] at run
    simp only [none, List.isEmpty_nil, if_true] at run
    exact .inr ⟨QueryResult.empty, run⟩

theorem DeleteRefused.failsUnchanged (refused : DeleteRefused host depth del engine) :
    FailsUnchanged (executeDelete host depth del txnId) engine := by
  -- The induction is on the depth left for cascading deletes.
  induction depth generalizing del engine with
  | zero => exact refused.elim
  | succ depth ih =>
    obtain ⟨table, mask, held, selected, some, keys⟩ := refused
    obtain ⟨fault, next, failed, same⟩ := enforce_failsUnchanged (fun _ _ refused => ih refused)
        (fun _ _ _ _ => executeDelete_skips depth) keys
    exact ⟨fault, next, executeDelete_refused held selected some failed, same⟩

/-- The statement leaves the contents if it is refused: a DELETE must be
refused before a row of another table is reached. -/
def RefusedInTime (host : Host) (depth : Nat) : DmlStatement → QueryEngine → Prop
  | .insert _, _ => True
  | .update _, _ => True
  | .delete del, engine => DeleteRefused host depth del engine

/-- A statement that is refused in time leaves the contents of all tables. -/
theorem executeDml_error_sameContents {statement : DmlStatement}
    (failed : executeDml host depth statement txnId engine = .error (.error error) next)
    (inTime : RefusedInTime host depth statement engine) : SameContents engine next := by
  cases statement with
  | insert ins => exact errorKeeps_executeInsert ins error next failed
  | update upd =>
    exact errorKeeps_executeUpdate upd (fun _ _ => sameContent_padBitmaps _ _) error next failed
  | delete del =>
    obtain ⟨fault, final, ended, same⟩ := DeleteRefused.failsUnchanged inTime
    cases ended.symm.trans failed
    exact same

namespace Example

def parentTable : Table :=
  { name := "p", columns := [[7]], columnNames := ["id"], rowCount := 1, stringColumns := [none]
    nullBitmaps := [none], schema := none, rowVersions := [], i32Columns := [none] }

/-- Two rows that refer to the parent, one by `v` and one by `w`. -/
def childTable (keys : List TableForeignKey) : Table :=
  { name := "c", columns := [[7, 0], [0, 7]], columnNames := ["v", "w"], rowCount := 2
    stringColumns := [none, none], nullBitmaps := [none, none]
    schema := some { columns := [], checks := [], uniqueConstraints := [], foreignKeys := keys }
    rowVersions := [], i32Columns := [none, none] }

def keyOn (column : String) (action : ForeignKeyAction) : TableForeignKey :=
  { columns := [column], refTable := "p", refColumns := ["id"], onDelete := some action }

def keyedEngine (keys : List TableForeignKey) : QueryEngine :=
  { QueryEngine.inMemory with
    catalog := ((∅ : Catalog).insert "p" parentTable).insert "c" (childTable keys) }

/-- The child is listed first. -/
def familyHost : Host :=
  { plainHost with
    tableNames := fun catalog =>
      if "c" ∈ catalog then "c" :: (catalog.keys.erase "c").sort else catalog.keys.sort
    mem_tableNames := fun catalog name => by
      by_cases child : "c" ∈ catalog
      · by_cases same : name = "c" <;> simp [child, same, mem_keys]
      · simp [child, mem_keys]
    nodup_tableNames := fun catalog => by
      by_cases child : "c" ∈ catalog <;> simp [child, Finset.sort_nodup] }

def deleteParent : DmlStatement := .delete { table := "p", whereClause := none }

/-- A key that restricts refuses at once. -/
theorem restrict_refuses_in_time : ∃ error next,
      executeDml familyHost 1 deleteParent none (keyedEngine [keyOn "w" .restrict]) =
          .error (.error error) next ∧
        SameContents (keyedEngine [keyOn "w" .restrict]) next := by
  have inTime : RefusedInTime familyHost 1 deleteParent (keyedEngine [keyOn "w" .restrict]) := by
    refine ⟨parentTable, [true], rfl, rfl, by decide, ?_⟩
    refine ⟨childTable [keyOn "w" .restrict], [[7]], ⟨⟨parentTable, rfl, rfl⟩, rfl⟩, ?_⟩
    intro passes
    cases passes
  have failed : ∃ error next,
      executeDml familyHost 1 deleteParent none (keyedEngine [keyOn "w" .restrict]) =
        .error (.error error) next := by
    refine ⟨?error, ?next, ?run⟩
    case run =>
      apply executeDelete_refused rfl rfl (by decide)
      rfl
  obtain ⟨error, next, failed⟩ := failed
  exact ⟨error, next, failed, executeDml_error_sameContents failed inTime⟩

/-- The row of the first key has lost its value when the second key refuses. -/
theorem nulled_before_refusal : ∃ error next, executeDml familyHost 1 deleteParent none
    (keyedEngine [keyOn "v" .setNull, keyOn "w" .restrict]) = .error (.error error) next ∧
    ¬ SameContents (keyedEngine [keyOn "v" .setNull, keyOn "w" .restrict]) next := by
  have run : ∃ error next, executeDml familyHost 1 deleteParent none
          (keyedEngine [keyOn "v" .setNull, keyOn "w" .restrict]) = .error (.error error) next ∧
        (next.catalog.lookup "c").map columns = some [[0, 0], [0, 7]] := by
    refine ⟨?error, ?next, ?run, ?cells⟩
    case run =>
      apply executeDelete_refused rfl rfl (by decide)
      rfl
    case cells => rfl
  obtain ⟨error, next, failed, cells⟩ := run
  refine ⟨error, next, failed, fun same => ?_⟩
  obtain ⟨changed, found, ⟨⟨_, rfl⟩, -⟩⟩ := same.tables "c" _ (lookup_insert _)
  rw [found] at cells
  cases cells

end Example

end TurboGP.Engine
