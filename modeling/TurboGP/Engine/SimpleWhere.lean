import TurboGP.Engine.Constraints
import TurboGP.Sql.Lexer

/-!
# WHERE clauses of UPDATE and DELETE

`eval_simple_where` of `engine/helpers.rs`: comparisons of a column with a
literal, joined by AND and OR from the left.
-/

namespace TurboGP.Engine

open Datasource Sql Sql.Lexer Txn Effect List

structure WherePred where
  colIdx : Nat
  op : BinOp
  cell : Cell
  rawString : Option (List Char)

def whereOp (symbol : List Char) : Option BinOp :=
  if symbol = ['='] then some .eq
  else if symbol = ['!', '='] ∨ symbol = ['<', '>'] then some .notEq
  else if symbol = ['<'] then some .lt
  else if symbol = ['>'] then some .gt
  else if symbol = ['<', '='] then some .ltEq
  else if symbol = ['>', '='] then some .gtEq
  else none

def isKeyword (word : String) : Token → Bool
  | .keyword found => Text.eqIgnoreAsciiCase found word.toList
  | _ => false

def sidecarAt (table : Table) (colIdx : Nat) : Option (List String) :=
  table.stringColumns[colIdx]?.join

section

variable (unicode : Text.Unicode) (debug : Token → String) (host : Host)

/-- The literal of a comparison: its cell, and its text when it is compared
with the sidecar. -/
def whereValue (table : Table) (colIdx : Nat) : Token → Except Fault (Cell × Option (List Char))
  | .string text =>
    if (sidecarAt table colIdx).isSome then .ok (0, some text)
    else do
      let cell ← parseValueCell host (String.ofList (Text.quote :: text ++ [Text.quote]))
      return (cell, none)
  | .int n => .ok (n.toUInt64, none)
  | .float bits => .ok (bits, none)
  | .hex bytes => .ok (UInt64.ofNat (littleEndian (bytes.map UInt8.toNat)), none)
  | token =>
    let shown := debug token
    if isKeyword "NULL" token then .ok (0, none)
    else reject s!"expected literal value in WHERE clause, got {shown}"

def wherePred (table : Table) (name : List Char) (opToken value : Token) :
    Except Fault WherePred := do
  let shown := String.ofList name
  let symbol ←
    match opToken with
    | .op symbol => .ok symbol
    | other =>
      let found := debug other
      reject s!"expected comparison operator after '{shown}', got {found}"
  let op ←
    match whereOp symbol with
    | some op => .ok op
    | none =>
      let found := String.ofList symbol
      reject s!"unsupported WHERE operator '{found}' in DML WHERE"
  let colIdx ←
    match table.columnIdx shown with
    | some idx => .ok idx
    | none => .error (.error (columnNotFound shown))
  let (cell, rawString) ← whereValue debug host table colIdx value
  return { colIdx := colIdx, op := op, cell := cell, rawString := rawString }

/-- The comparisons, and whether they are joined by AND. -/
def wherePreds (table : Table) : List Token → Except Fault (List WherePred × List Bool)
  | [] => .ok ([], [])
  | token :: rest =>
    if isKeyword "AND" token then do
      let (preds, joins) ← wherePreds table rest
      return (preds, true :: joins)
    else if isKeyword "OR" token then do
      let (preds, joins) ← wherePreds table rest
      return (preds, false :: joins)
    else
      match token, rest with
      | .lParen, rest => wherePreds table rest
      | .rParen, rest => wherePreds table rest
      | .ident name, opToken :: value :: others
      | .keyword name, opToken :: value :: others => do
        let pred ← wherePred debug host table name opToken value
        let (preds, joins) ← wherePreds table others
        return (pred :: preds, joins)
      | .ident name, _ | .keyword name, _ =>
        let shown := String.ofList name
        reject s!"incomplete WHERE predicate near '{shown}'"
      | other, _ =>
        let found := debug other
        reject s!"expected column name in WHERE clause, got {found}"

def predMask (table : Table) (pred : WherePred) : Except Fault (List Bool) := do
  let column ← index table.columns pred.colIdx
  match pred.rawString, sidecarAt table pred.colIdx with
  | some text, some strings =>
    return (range table.rowCount).map
      (fun i => compareBy (some (compare (strings[i]?.getD "") (String.ofList text))) pred.op)
  | _, _ => return column.map (fun cell => compareBy (some (compare cell pred.cell)) pred.op)

/-- `result[j] && mask[j]` or `result[j] || mask[j]` for the first `n`
rows. -/
def joinMasks (n : Nat) (isAnd : Bool) (res mask : List Bool) : Except Fault (List Bool) := do
  let joined ← (range n).mapM
      (fun j => do
        let first ← index res j
        if first = isAnd then index mask j else return first)
  return joined ++ res.drop n

def evalSimpleWhere (table : Table) (text : String) : Except Fault (List Bool) :=
  let n := table.rowCount
  if n = 0 then .ok []
  else
    match tokenize unicode host.parseF64 text.toList with
    | .error message => .error (.error (.parse message))
    | .ok all => do
      let tokens := all.filter (· ≠ .eof)
      let tokens :=
        match tokens with
        | first :: rest => if isKeyword "WHERE" first then rest else first :: rest
        | [] => []
      let (preds, joins) ← wherePreds debug host table tokens
      match ← preds.mapM (predMask table) with
      | [] => return replicate n true
      | first :: others =>
        others.zipIdx.foldlM
          (fun res entry => joinMasks n (joins[entry.2]?.getD true) res entry.1)
          first

def Host.EvaluatesWhere : Prop :=
  ∀ table text,
    host.evalSimpleWhere table text = TurboGP.Engine.evalSimpleWhere unicode debug host table text

end

section

variable {unicode : Text.Unicode} {debug : Token → String} {host : Host}
  {table : Table} {mask : List Bool}

theorem length_predMask (filled : ∀ column ∈ table.columns, column.length = table.rowCount)
    {pred : WherePred} (got : predMask table pred = .ok mask) : mask.length = table.rowCount := by
  obtain ⟨column, found, got⟩ := except_ok_iff.mp got
  have member := mem_of_getElem? (index_eq_ok_iff.mp found)
  split at got
  · cases got
    rw [length_map, length_range]
  · cases got
    rw [length_map]
    exact filled column member

theorem length_joinMasks {n : Nat} {isAnd : Bool} {res joined : List Bool} (length : res.length = n)
    (got : joinMasks n isAnd res mask = .ok joined) : joined.length = n := by
  obtain ⟨changed, rounds, got⟩ := except_ok_iff.mp got
  cases got
  have same := (mapM_eq_ok_iff.mp rounds).length_eq
  rw [length_range] at same
  rw [length_append, length_drop, length, ← same]
  omega

theorem length_evalSimpleWhere
    (filled : ∀ column ∈ table.columns, column.length = table.rowCount) {text : String}
    (got : evalSimpleWhere unicode debug host table text = .ok mask) :
    mask.length = table.rowCount := by
  unfold evalSimpleWhere at got
  simp only at got
  split at got
  · next empty =>
    cases got
    exact empty.symm
  · split at got
    · cases got
    · obtain ⟨⟨preds, joins⟩, -, got⟩ := except_ok_iff.mp got
      obtain ⟨masks, evaluated, got⟩ := except_ok_iff.mp got
      have lengths := forall_of_mapM_ok evaluated
          (fun mask => mask.length = table.rowCount) (fun _ _ _ => length_predMask filled)
      cases masks with
      | nil =>
        cases got
        exact length_replicate
      | cons first others =>
        have firstLength := lengths first mem_cons_self
        clear evaluated lengths
        simp only at got
        generalize others.zipIdx = entries at got
        -- The induction is on the masks still to be joined.
        induction entries generalizing first with
        | nil =>
          cases got
          exact firstLength
        | cons entry rest ih =>
          rw [foldlM_cons] at got
          obtain ⟨joined, joins, got⟩ := except_ok_iff.mp got
          exact ih joined (length_joinMasks firstLength joins) got

end

end TurboGP.Engine
