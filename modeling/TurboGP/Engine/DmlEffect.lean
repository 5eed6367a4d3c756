import TurboGP.Engine.Session

/-! # What a DML statement may change -/

namespace TurboGP.Engine

open Datasource Sql Txn Effect Table List Option

def MarkedBy (writer : Nat) (version marked : RowVersion) : Prop :=
  marked = version ∨ version.xmax = none ∧ marked = version.delete writer

def CreatedBy (writer : Nat) (version : RowVersion) : Prop :=
  version.xmin = writer ∧ (version.xmax = none ∨ version.xmax = some writer)

/-- `writer` marks the versions of a chain and appends its own. -/
structure ChainGrows (writer : Nat) (old new : List RowVersion) : Prop where
  kept : ∀ (k : Nat) version, old[k]? = some version →
      ∃ marked, new[k]? = some marked ∧ MarkedBy writer version marked
  added : ∀ (k : Nat) version, old.length ≤ k → new[k]? = some version → CreatedBy writer version

namespace ChainGrows

variable {writer : Nat} {old middle new : List RowVersion}

theorem refl (chain : List RowVersion) : ChainGrows writer chain chain where
  kept := fun _ version held => ⟨version, held, .inl rfl⟩
  added := by
    intro k version outside held
    rw [getElem?_eq_none outside] at held
    cases held

theorem trans (first : ChainGrows writer old middle) (second : ChainGrows writer middle new) :
    ChainGrows writer old new where
  kept := by
    intro k version held
    obtain ⟨marked, inMiddle, firstMark⟩ := first.kept k version held
    obtain ⟨final, inNew, secondMark⟩ := second.kept k marked inMiddle
    refine ⟨final, inNew, ?_⟩
    rcases firstMark with rfl | ⟨opened, rfl⟩
    · exact secondMark
    · rcases secondMark with rfl | ⟨stillOpen, -⟩
      · exact .inr ⟨opened, rfl⟩
      · cases stillOpen
  added := by
    intro k version outside held
    cases inMiddle : middle[k]? with
    | none => exact second.added k version (getElem?_eq_none_iff.mp inMiddle) held
    | some before =>
      obtain ⟨creator, deleter⟩ := first.added k before outside inMiddle
      obtain ⟨marked, inNew, mark⟩ := second.kept k before inMiddle
      rw [inNew] at held
      cases held
      rcases mark with rfl | ⟨-, rfl⟩
      · exact ⟨creator, deleter⟩
      · exact ⟨creator, .inr rfl⟩

theorem nonempty (grows : ChainGrows writer old new) (held : old ≠ []) : new ≠ [] := by
  obtain ⟨first, rest, rfl⟩ := exists_cons_of_ne_nil held
  obtain ⟨marked, inNew, -⟩ := grows.kept 0 first rfl
  rintro rfl
  cases inNew

theorem append (chain : List RowVersion) {version : RowVersion} (own : CreatedBy writer version) :
    ChainGrows writer chain (chain ++ [version]) where
  kept := by
    intro k tested held
    have inRange := (List.getElem?_eq_some_iff.mp held).1
    exact ⟨tested, by rw [getElem?_append_left inRange, held], .inl rfl⟩
  added := by
    intro k tested outside held
    rw [getElem?_append_right outside] at held
    obtain ⟨_, same⟩ := List.getElem?_eq_some_iff.mp held
    simp only [getElem_singleton] at same
    exact same ▸ own

theorem tombstone {chain marked : List RowVersion}
    (isMarked : tombstone writer chain = some marked) : ChainGrows writer chain marked := by
  obtain ⟨older, version, rfl, opened, rfl⟩ := tombstone_eq_some_iff.mp isMarked
  constructor
  · intro k tested held
    rw [getElem?_append] at held
    split at held
    · next inOlder => exact ⟨tested, by rw [getElem?_append_left inOlder, held], .inl rfl⟩
    · next outside =>
      obtain ⟨small, same⟩ := List.getElem?_eq_some_iff.mp held
      simp only [getElem_singleton] at same
      subst same
      refine ⟨version.delete writer, ?_, .inr ⟨opened, rfl⟩⟩
      simp only [length_singleton] at small
      rw [getElem?_append_right (Nat.le_of_not_lt outside)]
      have isLast : k - older.length = 0 := by omega
      rw [isLast]
      rfl
  · intro k tested outside held
    have inRange := (List.getElem?_eq_some_iff.mp held).1
    simp only [length_append, length_singleton] at outside inRange
    omega

end ChainGrows

/-- What a statement of `writer` may do to a table in MVCC mode, the cells of
the `pinned` rows left alone. -/
structure Writes (writer : Nat) (pinned : Nat → Prop)
    (old new : Table) : Prop where
  sameName : new.name = old.name
  sameColumnNames : new.columnNames = old.columnNames
  sameSchema : new.schema = old.schema
  rowCountLe : old.rowCount ≤ new.rowCount
  chains : ∀ row, ChainGrows writer (old.chainAt row) (new.chainAt row)
  untracked : ∀ row < old.rowCount, old.chainAt row = [] → new.chainAt row = []
  tracked : ∀ row, old.rowCount ≤ row → row < new.rowCount → new.chainAt row ≠ []
  bounded : old.rowVersions.length ≤ old.rowCount → new.rowVersions.length ≤ new.rowCount
  cells : ∀ colIdx row cell, pinned row → old.cellOf colIdx row = some cell →
      new.cellOf colIdx row = some cell

namespace Writes

variable {writer : Nat} {pinned : Nat → Prop} {old middle new : Table}

theorem refl (table : Table) : Writes writer pinned table table where
  sameName := rfl
  sameColumnNames := rfl
  sameSchema := rfl
  rowCountLe := le_refl _
  chains := fun _ => .refl _
  untracked := fun _ _ empty => empty
  tracked := fun _ above below => absurd below (Nat.not_lt.mpr above)
  bounded := id
  cells := fun _ _ _ _ held => held

theorem trans (first : Writes writer pinned old middle) (second : Writes writer pinned middle new) :
    Writes writer pinned old new where
  sameName := second.sameName.trans first.sameName
  sameColumnNames := second.sameColumnNames.trans first.sameColumnNames
  sameSchema := second.sameSchema.trans first.sameSchema
  rowCountLe := first.rowCountLe.trans second.rowCountLe
  chains := fun row => (first.chains row).trans (second.chains row)
  untracked := fun row inOld empty =>
    second.untracked row (inOld.trans_le first.rowCountLe) (first.untracked row inOld empty)
  tracked := by
    intro row above below
    by_cases inMiddle : row < middle.rowCount
    · exact (second.chains row).nonempty (first.tracked row above inMiddle)
    · exact second.tracked row (Nat.le_of_not_lt inMiddle) below
  bounded := fun inOld => second.bounded (first.bounded inOld)
  cells := fun colIdx row cell isPinned held =>
    second.cells colIdx row cell isPinned (first.cells colIdx row cell isPinned held)

instance : IsPreorder Table (Writes writer pinned) where
  refl := refl
  trans := fun _ _ _ => trans

theorem of_sameRows (sameName : new.name = old.name)
    (sameColumnNames : new.columnNames = old.columnNames)
    (sameSchema : new.schema = old.schema) (sameCount : new.rowCount = old.rowCount)
    (sameVersions : new.rowVersions = old.rowVersions)
    (cells : ∀ colIdx row cell, pinned row → old.cellOf colIdx row = some cell →
        new.cellOf colIdx row = some cell) :
    Writes writer pinned old new := by
  have sameChain : ∀ row, new.chainAt row = old.chainAt row := by
    intro row
    unfold chainAt
    rw [sameVersions]
  constructor
  · exact sameName
  · exact sameColumnNames
  · exact sameSchema
  · exact sameCount.ge
  · intro row
    rw [sameChain]
    exact .refl _
  · intro row _ empty
    rw [sameChain, empty]
  · intro row above below
    omega
  · intro inOld
    rw [sameVersions, sameCount]
    exact inOld
  · exact cells

theorem of_grownChains (sameRest : new = { old with rowVersions := new.rowVersions })
    (sameLength : new.rowVersions.length = old.rowVersions.length)
    (chains : ∀ row, ChainGrows writer (old.chainAt row) (new.chainAt row))
    (untracked : ∀ row, old.chainAt row = [] → new.chainAt row = []) :
    Writes writer pinned old new := by
  have sameCount : new.rowCount = old.rowCount := by rw [sameRest]
  constructor
  · rw [sameRest]
  · rw [sameRest]
  · rw [sameRest]
  · exact sameCount.ge
  · exact chains
  · exact fun row _ => untracked row
  · intro row above below
    omega
  · intro inOld
    rw [sameLength, sameCount]
    exact inOld
  · intro colIdx row cell _ held
    rw [sameRest]
    exact held

theorem of_sidecars
    (sameRest : new =
        { old with
          nullBitmaps := new.nullBitmaps
          stringColumns := new.stringColumns }) :
    Writes writer pinned old new := by
  rw [sameRest]
  exact of_sameRows rfl rfl rfl rfl rfl (fun _ _ _ _ held => held)

end Writes

section

variable {writer : Nat} {pinned : Nat → Prop} {table : Table}

variable {colIdx : Nat} {txnId : Option Nat}

theorem cellOf_setColumn {column : List Cell} (changed : List Cell)
    (held : table.columns[colIdx]? = some column) (tested row : Nat) :
    ({ table with columns := table.columns.set colIdx changed } : Table).cellOf tested row =
      if tested = colIdx then changed[row]?
      else table.cellOf tested row := by
  have inRange := (List.getElem?_eq_some_iff.mp held).1
  unfold cellOf
  by_cases same : tested = colIdx
  · subst same
    simp [getElem?_set_self inRange]
  · simp [getElem?_set_ne (Ne.symm same), same]

theorem moves_pushCell (colIdx : Nat) (cell : Cell) :
    Moves (Writes writer pinned) table (pushCell colIdx cell) := by
  refine .get_bind (.ofExcept_bind ?_)
  intro column found
  have present := index_eq_ok_iff.mp found
  refine .set (.of_sameRows rfl rfl rfl rfl rfl ?_)
  intro tested row old _ before
  rw [cellOf_setColumn _ present]
  split
  · next same =>
    subst same
    unfold cellOf at before
    rw [present, bind_some] at before
    have inRange := (List.getElem?_eq_some_iff.mp before).1
    rw [getElem?_append_left inRange, before]
  · exact before

theorem moves_pushNullFlag (colIdx : Nat) (isNull : Bool) :
    Moves (Writes writer pinned) table (pushNullFlag colIdx isNull) := by
  refine .get_bind ?_
  split
  · refine .ofExcept_bind ?_
    intro bitmap _
    refine .set (.of_sidecars ?_)
    split <;> rfl
  · split
    · exact .set (.of_sidecars rfl)
    · exact .pure _

theorem moves_pushRow (host : Host) (colIndices : List Nat) (rowVals : List String) :
    Moves (Writes writer pinned) table (pushRow host colIndices rowVals) := by
  refine .forM ?_
  intro entry _ current _
  refine .ofExcept_bind fun text _ => ?_
  refine .ofExcept_bind fun cell _ => ?_
  exact .bind (moves_pushCell _ _) (fun _ _ _ => moves_pushNullFlag _ _)

theorem foldl_appendRowVersion (first count : Nat) (version : RowVersion) (table : Table) :
    let res :=
      (range count).foldl (fun current i => current.appendRowVersion (first + i) version) table
    res = { table with rowVersions := res.rowVersions } ∧
      (∀ row, res.chainAt row =
          if first ≤ row ∧ row < first + count then
            table.chainAt row ++ [version]
          else table.chainAt row) ∧
        res.rowVersions.length ≤ max table.rowVersions.length (first + count) := by
  induction count with
  | zero =>
    refine ⟨rfl, fun row => ?_, le_max_left _ _⟩
    rw [if_neg (by omega)]
    rfl
  | succ count ih =>
    obtain ⟨sameRest, chains, length⟩ := ih
    simp only [range_succ, foldl_append, foldl_cons, foldl_nil]
    refine ⟨?_, fun row => ?_, ?_⟩
    · conv_lhs => rw [sameRest]
      rfl
    · rw [chainAt_appendRowVersion, chains, chains]
      by_cases isNew : row = first + count
      · subst isNew
        rw [if_pos rfl, if_neg (by omega), if_pos (by omega)]
      · rw [if_neg isNew]
        by_cases earlier : first ≤ row ∧ row < first + count
        · rw [if_pos earlier, if_pos (by omega)]
        · rw [if_neg earlier, if_neg (by omega)]
    · rw [length_appendRowVersion]
      omega

private theorem foldl_relativeRow
    (newRows rowCount : Nat) (version : RowVersion) (items : List Nat) :
    ∀ current : Table, current.rowCount = rowCount →
      items.foldl
          (fun current i => current.appendRowVersion (current.rowCount - newRows + i) version)
          current =
        items.foldl (fun current i => current.appendRowVersion (rowCount - newRows + i) version)
          current := by
  induction items with
  | nil => exact fun _ _ => rfl
  | cons head tail ih =>
    intro current sameCount
    rw [foldl_cons, foldl_cons, sameCount]
    exact ih _ sameCount

theorem addRows_run (xmin newRows : Nat) : ∃ added : Table,
      addRows true xmin newRows table = .ok () added ∧
        added =
          { table with
            rowCount := table.rowCount + newRows
            rowVersions := added.rowVersions } ∧
          (∀ row, added.chainAt row =
              if table.rowCount ≤ row ∧ row < table.rowCount + newRows then
                table.chainAt row ++ [RowVersion.new xmin []]
              else table.chainAt row) ∧
            added.rowVersions.length ≤ max table.rowVersions.length (table.rowCount + newRows) := by
  let counted : Table := { table with rowCount := table.rowCount + newRows }
  obtain ⟨sameRest, chains, length⟩ :=
    foldl_appendRowVersion table.rowCount newRows (RowVersion.new xmin []) counted
  refine ⟨_, ?_, sameRest, chains, length⟩
  have relative := foldl_relativeRow newRows (table.rowCount + newRows)
      (RowVersion.new xmin []) (range newRows) counted rfl
  rw [Nat.add_sub_cancel] at relative
  rw [← relative]
  exact forM_modify_run (range newRows) _ counted

theorem moves_addRows (newRows : Nat) :
    Moves (Writes writer pinned) table (addRows true writer newRows) := by
  obtain ⟨added, ran, sameRest, chains, length⟩ := @addRows_run table writer newRows
  have moved : Writes writer pinned table added := by
    have sameCount : added.rowCount = table.rowCount + newRows := by
      rw [sameRest]
    constructor
    · rw [sameRest]
    · rw [sameRest]
    · rw [sameRest]
    · omega
    · intro row
      rw [chains]
      split
      · exact .append _ ⟨rfl, .inl rfl⟩
      · exact .refl _
    · intro row inOld empty
      rw [chains, if_neg (by omega), empty]
    · intro row above below
      rw [chains, if_pos (by omega)]
      simp
    · intro inOld
      omega
    · intro colIdx row cell _ held
      rw [sameRest]
      exact held
  unfold Moves finalState
  rw [ran]
  exact moved

theorem moves_extendSidecar (colIdx : Nat) (newStrings : List String) :
    Moves (Writes writer pinned) table (extendSidecar colIdx newStrings) := by
  refine .get_bind ?_
  simp only
  split
  · exact .set (.of_sidecars rfl)
  · split
    · exact .throw _
    · exact .set (.of_sidecars rfl)

theorem moves_insertRows (host : Host) (ins : Insert) (isWriter : txnId.getD 0 = writer) :
    Moves (Writes writer pinned) table (insertRows host true txnId ins) := by
  unfold insertRows
  rw [isWriter]
  refine .get_bind (.ofExcept_bind fun colIndices _ => ?_)
  refine .ofExcept_bind fun _ _ => ?_
  refine .ofExcept_bind fun _ _ => ?_
  refine .bind (.forM fun _ _ _ _ => moves_pushRow _ _ _) ?_
  intro _ pushed _
  refine .bind (moves_addRows _) ?_
  intro _ added _
  refine .bind ?_ ?_
  · refine .get_bind (.forM ?_)
    intro colIdx _ current _
    simp only
    split
    · exact .pure _
    · exact moves_extendSidecar _ _
  · intro _ final _
    exact .get_bind (.pure _)

variable {rowIdx : Nat}

theorem moves_writeCell {cell : Cell}
    (harmless : pinned rowIdx → table.cellOf colIdx rowIdx = some cell) :
    Moves (Writes writer pinned) table (writeCell colIdx rowIdx cell) := by
  refine .get_bind (.ofExcept_bind fun column found => ?_)
  refine .ofExcept_bind fun written stored => ?_
  have present := index_eq_ok_iff.mp found
  obtain ⟨inRange, rfl⟩ := indexSet_eq_ok_iff.mp stored
  refine .set (.of_sameRows rfl rfl rfl rfl rfl ?_)
  intro tested row old isPinned before
  rw [cellOf_setColumn _ present]
  split
  · next same =>
    subst same
    by_cases sameRow : row = rowIdx
    · subst sameRow
      rw [getElem?_set_self inRange, ← before, harmless isPinned]
    · unfold cellOf at before
      rw [present, bind_some] at before
      rw [getElem?_set_ne (Ne.symm sameRow), before]
  · exact before

theorem moves_writeNullFlag (colIdx rowIdx : Nat) (isNull : Bool) :
    Moves (Writes writer pinned) table (writeNullFlag colIdx rowIdx isNull) := by
  refine .modify (.of_sidecars ?_)
  split <;> rfl

theorem moves_updateRow {assigns : List Assignment}
    (harmless :
      pinned rowIdx → ∀ assign ∈ assigns, table.cellOf assign.colIdx rowIdx = some assign.cell) :
    Moves (Writes writer pinned) table (updateRow assigns rowIdx) := by
  refine .forM ?_
  intro assign mem current moved
  refine .bind (moves_writeCell ?_) ?_
  · intro isPinned
    exact moved.cells _ _ _ isPinned (harmless isPinned assign mem)
  · exact fun _ _ _ => moves_writeNullFlag _ _ _

theorem writes_markDeleted (rowIdx : Nat) :
    Writes writer pinned table (table.markDeleted rowIdx writer).2 := by
  refine .of_grownChains ?_ (length_markDeleted _ _ _) ?_ ?_
  · unfold markDeleted
    split <;> rfl
  · intro row
    rw [chainAt_markDeleted]
    split
    · next same =>
      subst same
      cases isMarked : tombstone writer (table.chainAt row) with
      | none => exact .refl _
      | some marked => exact .tombstone isMarked
    · exact .refl _
  · intro row empty
    rw [chainAt_markDeleted]
    split
    · next same =>
      subst same
      rw [empty]
      rfl
    · exact empty

theorem writes_appendRowVersion {version : RowVersion} (nonempty : table.chainAt rowIdx ≠ [])
    (own : CreatedBy writer version) :
    Writes writer pinned table (table.appendRowVersion rowIdx version) := by
  have inRange := lt_length_of_chainAt nonempty
  refine .of_grownChains rfl ?_ ?_ ?_
  · rw [length_appendRowVersion]
    omega
  · intro row
    rw [chainAt_appendRowVersion]
    split
    · next same => exact same ▸ .append _ own
    · exact .refl _
  · intro row empty
    rw [chainAt_appendRowVersion]
    split
    · next same => exact absurd (same ▸ empty) nonempty
    · exact empty

theorem writes_supersedeVersion (rowIdx : Nat) :
    Writes writer pinned table (supersedeVersion table writer rowIdx) := by
  have marking := @writes_markDeleted writer pinned table rowIdx
  have flag := table.markDeleted_flag rowIdx writer
  have chain := table.chainAt_markDeleted rowIdx writer rowIdx
  unfold supersedeVersion
  generalize table.markDeleted rowIdx writer = out at marking flag chain
  obtain ⟨isMarked, marked⟩ := out
  cases isMarked with
  | false => exact marking
  | true =>
    refine marking.trans (writes_appendRowVersion ?_ ⟨rfl, .inl rfl⟩)
    obtain ⟨after, isTombstone⟩ := isSome_iff_exists.mp flag.symm
    obtain ⟨older, version, -, -, rfl⟩ := tombstone_eq_some_iff.mp isTombstone
    simp only [if_true, isTombstone, getD_some] at chain
    rw [chain]
    simp

theorem moves_updateRows (host : Host) (mgr : MvccTxnManager) (upd : Update)
    (isWriter : txnId.getD 0 = writer)
    (harmless : ∀ assigns mask, parseAssignments host table upd.assignments = .ok assigns →
        matchMask host table upd.whereClause = .ok mask →
        ∀ row ∈ maskedRows mask, pinned row → ∀ assign ∈ assigns,
          table.cellOf assign.colIdx row = some assign.cell) :
    Moves (Writes writer pinned) table (updateRows host true mgr txnId upd) := by
  unfold updateRows
  rw [isWriter]
  refine .get_bind (.ofExcept_bind fun assigns parsed => ?_)
  refine .ofExcept_bind fun mask masked => ?_
  refine .bind (.modify (.of_sidecars rfl)) ?_
  intro _ padded isPadded
  have sameCells : padded.columns = table.columns := by
    cases isPadded
    rfl
  refine .get_bind (.ofExcept_bind fun _ _ => ?_)
  refine .get_bind (.ofExcept_bind fun _ _ => ?_)
  refine .bind (.forM ?_) ?_
  · intro row mem current moved
    refine moves_updateRow fun isPinned assign inAssigns => ?_
    refine moved.cells _ _ _ isPinned ?_
    unfold cellOf
    rw [sameCells]
    exact harmless assigns mask parsed masked row mem isPinned assign inAssigns
  intro _ updated _
  refine .bind (.forM ?_) ?_
  · intro row _ current _
    exact .modify (writes_supersedeVersion row)
  · intro _ final _
    exact .get_bind (.pure _)

theorem moves_tombstoneRows (rows : List Nat) :
    Moves (Writes writer pinned) table (tombstoneRows writer rows) := by
  refine .forM ?_
  intro row _ current _
  exact .modify (writes_markDeleted row)

theorem moves_setNullChildren (fk : TableForeignKey) (deletedVals : List (List Cell))
    (free : ∀ row, ¬ pinned row) :
    Moves (Writes writer pinned) table (setNullChildren fk deletedVals) := by
  refine .get_bind (.bind (.forM ?_) ?_)
  · intro colIdx _ current _
    refine .modify (.of_sidecars ?_)
    simp only
    split <;> rfl
  intro _ prepared _
  refine .forM ?_
  intro row _ current _
  refine .get_bind (.ofExcept_bind fun childVals _ => ?_)
  split
  · refine .forM ?_
    intro colIdx _ changed _
    exact .bind (moves_writeCell fun isPinned => absurd isPinned (free row))
      (fun _ _ _ => moves_writeNullFlag _ _ _)
  · exact .pure _

end

end TurboGP.Engine
