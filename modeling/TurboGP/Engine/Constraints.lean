import TurboGP.Engine.State

/-!
# Constraint checks of the DML statements

The checks `engine/dml.rs` makes before a statement touches its table: foreign
keys of new rows, NOT NULL, PRIMARY KEY, CHECK and UNIQUE.  They only read.
-/

namespace TurboGP.Engine

open Datasource Sql Txn

/-! ## Cell encoding and CHECK evaluation -/

/-- The two-byte slices of a hex literal.  A slice that ends inside a
character or past the end panics. -/
def hexPairs : List Char → Except Fault (List (List Char))
  | [] => .ok []
  | [c] => if c.utf8Size = 2 then .ok [[c]] else .error .panic
  | first :: second :: rest =>
    if first.utf8Size = 2 then do
      return [first] :: (← hexPairs (second :: rest))
    else if first.utf8Size = 1 ∧ second.utf8Size = 1 then do
      return [first, second] :: (← hexPairs rest)
    else .error .panic

/-- `u8::from_str_radix` with base 16 on a slice of two bytes; a leading plus
sign is accepted. -/
def hexByte : List Char → Option Nat
  | [high, low] =>
    if high = '+' then Text.hexValue low
    else do return 16 * (← Text.hexValue high) + (← Text.hexValue low)
  | _ => none

def littleEndian (bytes : List Nat) : Nat :=
  (bytes.take 8).foldr (fun byte number => byte + 256 * number) 0

def parseValueCell (host : Host) (text : String) : Except Fault Cell :=
  let trimmed := Text.trim text.toList
  if trimmed = "NULL".toList then .ok 0
  else if Text.isQuoted trimmed then
    .ok (host.xxh3 (Text.inner trimmed))
  else if
      trimmed.take 2 = ['x', Text.quote] ∧
        trimmed.getLast? = some Text.quote ∧ 3 ≤ trimmed.length then do
    let pairs ← hexPairs (trimmed.drop 2).dropLast
    return UInt64.ofNat (littleEndian (pairs.filterMap hexByte))
  else
    let float :=
      if trimmed.any (fun c => c = '.' ∨ c = 'e' ∨ c = 'E') then
        host.parseF64 trimmed
      else none
    match float with
    | some bits => .ok bits
    | none =>
      match Text.parseI64 trimmed with
      | some number => .ok (Int64.ofInt number).toUInt64
      | none =>
        match Text.parseU64 trimmed with
        | some number => .ok (UInt64.ofNat number)
        | none => .ok (host.xxh3 trimmed)

inductive CheckOperand
  | null
  | int (n : Int64)
  | float (bits : UInt64)
  | str (hash : UInt64)

def evalCheckOperand (host : Host) (columnNames : List String)
    (rowValues : List Cell) (nullMask : List Bool) : Expr → CheckOperand
  | .column name =>
    match columnNames.findIdx? (fun other => other == name) with
    | some i =>
      if nullMask[i]?.getD false then .null
      else .int (rowValues[i]?.getD 0).toInt64
    | none => .null
  | .literal (.int n) => .int n
  | .literal (.float bits) => .float bits
  | .literal .null => .null
  | .literal (.string s) => .str (host.xxh3 s.toList)
  | .paren inner => evalCheckOperand host columnNames rowValues nullMask inner
  | _ => .null

/-- A comparison by the order of its operands; unordered operands (a float
that is not a number) are only unequal, and an operator that compares nothing
passes. -/
def compareBy (order : Option Ordering) : BinOp → Bool
  | .eq => order == some .eq
  | .notEq => order != some .eq
  | .lt => order == some .lt
  | .gt => order == some .gt
  | .ltEq => order == some .lt || order == some .eq
  | .gtEq => order == some .gt || order == some .eq
  | _ => true

/-- Two operands of which one is NULL, or a string beside a number, pass. -/
def compareOperands (host : Host) (op : BinOp) : CheckOperand → CheckOperand → Bool
  | .int a, .int b => compareBy (some (compare a b)) op
  | .float a, .float b => compareBy (host.compareF64 a b) op
  | .int a, .float b => compareBy (host.compareF64 (host.f64OfI64 a) b) op
  | .float a, .int b => compareBy (host.compareF64 a (host.f64OfI64 b)) op
  | .str a, .str b =>
    match op with
    | .eq => a == b
    | .notEq => a != b
    | _ => true
  | _, _ => true

/-- Whether a row passes a CHECK expression; what cannot be evaluated
passes. -/
def evalCheckExpr (host : Host) (columnNames : List String)
    (rowValues : List Cell) (nullMask : List Bool) : Expr → Bool
  | .binary left op right =>
    match op with
    | .and =>
      evalCheckExpr host columnNames rowValues nullMask left &&
        evalCheckExpr host columnNames rowValues nullMask right
    | .or =>
      evalCheckExpr host columnNames rowValues nullMask left ||
        evalCheckExpr host columnNames rowValues nullMask right
    | _ =>
      compareOperands host op
        (evalCheckOperand host columnNames rowValues nullMask left)
        (evalCheckOperand host columnNames rowValues nullMask right)
  | .not inner => !evalCheckExpr host columnNames rowValues nullMask inner
  | .paren inner => evalCheckExpr host columnNames rowValues nullMask inner
  | .column name =>
    match columnNames.findIdx? (fun other => other == name) with
    | some i =>
      if nullMask[i]?.getD false then true
      else rowValues[i]?.getD 0 != 0
    | none => true
  | .literal (.int n) => n != 0
  | .literal (.float bits) => host.compareF64 bits 0 != some .eq
  | _ => true

/-- A returned error, in an effect-free check. -/
def reject {α : Type} (message : String) : Except Fault α := .error (.error (.other message))

def joined (names : List String) : String := String.intercalate ", " names

abbrev NewRow := List Cell × List Bool

/-- A cell by an optional column position: no position, or a column that ends
before the row, reads as zero. -/
def cellAt (table : Table) (colIdx : Option Nat) (rowIdx : Nat) : Except Fault Cell :=
  match colIdx with
  | none => .ok 0
  | some i => do
    let column ← index table.columns i
    return column[rowIdx]?.getD 0

def checkForeignKey (catalog : Catalog) (child : Table)
    (fk : TableForeignKey) (rowIdx : Nat) (row : NewRow) :
    Except Fault Unit := do
  let childIdxs := fk.columns.map child.columnIdx
  let anyNull ←
    childIdxs.anyM
      (fun idx =>
        match idx with
        | some i => index row.2 i
        | none => .ok true)
  if anyNull then return ()
  let childVals ←
    childIdxs.mapM
      (fun idx =>
        match idx with
        | some i => index row.1 i
        | none => .ok 0)
  match catalog.lookup fk.refTable with
  | none =>
    let name := fk.refTable
    reject s!"23503: FOREIGN KEY references non-existent table \"{name}\""
  | some parent =>
    let parentIdxs := fk.refColumns.map parent.columnIdx
    let found ←
      (List.range parent.rowCount).anyM
        (fun r => parentIdxs.zipIdx.allM (fun entry =>
              match entry.1 with
              | none => .ok false
              | some i => do
                let existing ← cellAt parent (some i) r
                let wanted ← index childVals entry.2
                return existing == wanted))
    if found then return ()
    else
      let columns := joined fk.columns
      let values := joined (childVals.map (fun cell => toString cell.toNat))
      let name := fk.refTable
      reject s!"23503: FOREIGN KEY constraint violated: ({columns}) = ({values}) references nonexistent row in table \"{name}\" on row {rowIdx}"

def validateForeignKeys (catalog : Catalog) (tableName : String)
    (newRows : List NewRow) : Except Fault Unit :=
  match catalog.lookup tableName with
  | none => .ok ()
  | some child =>
    newRows.zipIdx.forM
      (fun entry => child.foreignKeys.forM (fun fk =>
            checkForeignKey catalog child fk entry.2 entry.1))

def checkInsertedValue (host : Host) (table : Table) (schema : TableSchema)
    (rowIdx colIdx : Nat) (text : String) : Except Fault Unit :=
  let isNull := Text.isNullWord text
  match schema.columns[colIdx]? with
  | none => .ok ()
  | some column => do
    let name := column.name
    if column.notNull && isNull then
      reject s!"23502: NOT NULL constraint violated for column \"{name}\" on row {rowIdx}"
    if column.primaryKey && !isNull then
      let newCell ← parseValueCell host text
      let cells ← index table.columns colIdx
      if cells.contains newCell then
        reject s!"23505: duplicate key value violates UNIQUE constraint for PRIMARY KEY column \"{name}\""

/-- The CHECK constraints of the columns, then those of the table. -/
def checkChecks (host : Host) (table : Table) (schema : TableSchema)
    (rowIdx : Nat) (row : NewRow) : Except Fault Unit := do
  schema.columns.forM
    (fun column =>
      match column.check with
      | none => .ok ()
      | some check =>
        let name := column.name
        if evalCheckExpr host table.columnNames row.1 row.2 check then
          .ok ()
        else
          reject s!"23514: CHECK constraint violated for column \"{name}\" on row {rowIdx}")
  schema.checks.forM
    (fun check =>
      if evalCheckExpr host table.columnNames row.1 row.2 check then .ok ()
      else reject s!"23514: CHECK constraint violated on row {rowIdx}")

def checkUniqueColumns (table : Table) (schema : TableSchema)
    (conflicts : Nat → List Cell → Cell → Bool) (rowIdx : Nat) (row : NewRow) : Except Fault Unit :=
  schema.columns.zipIdx.forM
    (fun entry => do
      let column := entry.1
      let colIdx := entry.2
      if column.unique then
        let isNull ← index row.2 colIdx
        if !isNull then
          let newCell ← index row.1 colIdx
          let cells ← index table.columns colIdx
          let name := column.name
          if conflicts colIdx cells newCell then
            reject s!"23505: UNIQUE constraint violated for column \"{name}\" on row {rowIdx}")

/-- An INSERT compares with the first equal cell of the column only, which
may be the zero of a NULL. -/
def insertConflicts (table : Table) (colIdx : Nat) (cells : List Cell) (newCell : Cell) : Bool :=
  match cells.findIdx? (fun existing => existing == newCell) with
  | some i => !table.nullAt colIdx i
  | none => false

/-- An UPDATE compares with every other row of the column. -/
def updateConflicts (table : Table) (rowIdx colIdx : Nat)
    (cells : List Cell) (newCell : Cell) : Bool :=
  cells.zipIdx.any
    (fun entry => entry.2 != rowIdx && entry.1 == newCell && !table.nullAt colIdx entry.2)

/-- The UNIQUE constraints over several columns, against the rows for which
`skips` is false. -/
def checkUniqueConstraints (table : Table) (schema : TableSchema)
    (skips : Nat → Bool) (rowIdx : Nat) (row : NewRow) :
    Except Fault Unit :=
  schema.uniqueConstraints.forM
    (fun cols => do
      let idxs := cols.map table.columnIdx
      let newCombo ←
        idxs.mapM
          (fun idx =>
            match idx with
            | some i => do
              let cell ← index row.1 i
              let isNull ← index row.2 i
              return (cell, isNull)
            | none => .ok (0, true))
      if newCombo.any Prod.snd then return ()
      let duplicate ←
        ((List.range table.rowCount).filter (fun r => !skips r)).anyM
          (fun r => (idxs.zip newCombo).allM (fun entry => do
                let existing ← cellAt table entry.1 r
                return entry.1.isSome && existing == entry.2.1))
      let names := joined cols
      if duplicate then
        reject s!"23505: UNIQUE constraint violated for columns ({names}) on row {rowIdx}")

end TurboGP.Engine
