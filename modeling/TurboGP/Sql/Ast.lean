import Mathlib.Data.List.Basic
import TurboGP.Sql.Text

/-!
# Expressions, DML statements and table schemas

The syntax trees of `sql/ast.rs` and `sql/dml.rs` and the schema of a table
(`schema/table_schema.rs`, `sql/ddl.rs`), with the text an expression prints
as: the DML code evaluates expressions through that text.
-/

namespace TurboGP.Sql

open Text

inductive Value
  | int (n : Int64)
  | float (bits : UInt64)
  | string (s : String)
  | date (days : Int32)
  | hex (bytes : List UInt8)
  | null
  deriving DecidableEq, Repr

inductive BinOp
  | eq | notEq | lt | gt | ltEq | gtEq
  | and | or
  | add | sub | mul | div | mod
  | concat
  deriving DecidableEq, Repr

inductive UnaryOp
  | neg | pos
  deriving DecidableEq, Repr

inductive Expr
  | column (name : String)
  | literal (value : Value)
  | binary (left : Expr) (op : BinOp) (right : Expr)
  | unary (op : UnaryOp) (expr : Expr)
  | not (expr : Expr)
  | case (whenClauses : List (Expr × Expr)) (elseClause : Option Expr)
  | function (name : String) (args : List Expr) (distinct : Bool)
  | like (expr pattern : Expr) (negated : Bool)
  | between (expr low high : Expr) (negated : Bool)
  | inList (expr : Expr) (list : List Expr) (negated : Bool)
  | isNull (expr : Expr) (negated : Bool)
  | inSubquery (expr : Expr) (subquerySql : String) (negated : Bool)
  | exists (subquerySql : String) (negated : Bool)
  | extract (field : String) (expr : Expr)
  | cast (expr : Expr) (targetType : String)
  | wildcard
  | paren (expr : Expr)

def BinOp.asStr : BinOp → String
  | .eq => "="
  | .notEq => "!="
  | .lt => "<"
  | .gt => ">"
  | .ltEq => "<="
  | .gtEq => ">="
  | .and => "AND"
  | .or => "OR"
  | .add => "+"
  | .sub => "-"
  | .mul => "*"
  | .div => "/"
  | .mod => "%"
  | .concat => "||"

/-- The text is upper-cased first, which changes no symbol. -/
def BinOp.fromStr (op : String) : Option BinOp :=
  match op.toUpper with
  | "=" | "==" => some .eq
  | "!=" | "<>" => some .notEq
  | "<" => some .lt
  | ">" => some .gt
  | "<=" => some .ltEq
  | ">=" => some .gtEq
  | "AND" => some .and
  | "OR" => some .or
  | "+" => some .add
  | "-" => some .sub
  | "*" => some .mul
  | "/" => some .div
  | "%" => some .mod
  | "||" => some .concat
  | _ => none

def UnaryOp.asStr : UnaryOp → String
  | .neg => "-"
  | .pos => "+"

def hexDigit (n : Nat) : Char := (Nat.digitChar n).toUpper

def Value.render (formatF64 : UInt64 → List Char) : Value → List Char
  | .int n => (toString n.toInt).toList
  | .float bits => formatF64 bits
  | .string s => quote :: escapeQuotes s.toList ++ [quote]
  | .date days => "DATE ".toList ++ quote :: (toString days.toInt).toList ++ [quote]
  | .hex bytes =>
    'x' :: quote ::
      bytes.flatMap
        (fun byte => [hexDigit (byte.toNat / 16), hexDigit (byte.toNat % 16)]) ++
        [quote]
  | .null => "NULL".toList

def negation (negated : Bool) : List Char :=
  if negated then " NOT".toList else []

def commaSeparated (texts : List (List Char)) : List Char := ", ".toList.intercalate texts

mutual

def Expr.render (formatF64 : UInt64 → List Char) : Expr → List Char
  | .column name => name.toList
  | .literal value => value.render formatF64
  | .binary left op right =>
    '(' :: left.render formatF64 ++ ' ' :: op.asStr.toList ++ ' ' :: right.render formatF64 ++ [')']
  | .unary op expr => '(' :: op.asStr.toList ++ expr.render formatF64 ++ [')']
  | .not expr => "NOT ".toList ++ expr.render formatF64
  | .case whenClauses elseClause =>
    "CASE".toList ++ renderWhens formatF64 whenClauses ++
      renderElse formatF64 elseClause ++ " END".toList
  | .function name args distinct =>
    let everyWildcard := args.all
      (fun arg => match arg with
        | .wildcard => true
        | _ => false)
    name.toList ++ '(' ::
      (if distinct then "DISTINCT ".toList else []) ++
        (if everyWildcard then ['*'] else commaSeparated (renderList formatF64 args)) ++ [')']
  | .like expr pattern negated =>
    expr.render formatF64 ++ negation negated ++ " LIKE ".toList ++ pattern.render formatF64
  | .between expr low high negated =>
    expr.render formatF64 ++ negation negated ++ " BETWEEN ".toList ++
      low.render formatF64 ++ " AND ".toList ++ high.render formatF64
  | .inList expr list negated =>
    expr.render formatF64 ++ negation negated ++ " IN (".toList ++
      commaSeparated (renderList formatF64 list) ++ [')']
  | .isNull expr negated =>
    expr.render formatF64 ++ " IS".toList ++ negation negated ++ " NULL".toList
  | .inSubquery expr _ negated =>
    expr.render formatF64 ++ negation negated ++ " IN (SELECT ...)".toList
  | .exists _ negated => (if negated then "NOT ".toList else []) ++ "EXISTS (SELECT ...)".toList
  | .extract field expr =>
    "EXTRACT(".toList ++ field.toList ++ " FROM ".toList ++ expr.render formatF64 ++ [')']
  | .cast expr targetType =>
    "CAST(".toList ++ expr.render formatF64 ++ " AS ".toList ++ targetType.toList ++ [')']
  | .wildcard => ['*']
  | .paren expr => '(' :: expr.render formatF64 ++ [')']

def renderList (formatF64 : UInt64 → List Char) : List Expr → List (List Char)
  | [] => []
  | expr :: rest => expr.render formatF64 :: renderList formatF64 rest

def renderWhens (formatF64 : UInt64 → List Char) : List (Expr × Expr) → List Char
  | [] => []
  | (condition, res) :: rest =>
    " WHEN ".toList ++ condition.render formatF64 ++ " THEN ".toList ++
      res.render formatF64 ++ renderWhens formatF64 rest

def renderElse (formatF64 : UInt64 → List Char) : Option Expr → List Char
  | none => []
  | some expr => " ELSE ".toList ++ expr.render formatF64

end

inductive ForeignKeyAction
  | cascade | setNull | setDefault | restrict | noAction
  deriving DecidableEq, Repr

/-- A foreign key; the action on update is never read. -/
structure TableForeignKey where
  columns : List String
  refTable : String
  refColumns : List String
  onDelete : Option ForeignKeyAction

inductive ColumnType
  | int | bigInt | smallInt | tinyInt
  | varchar (length : Option Nat)
  | nvarchar (length : Option Nat)
  | text | float | real
  | decimal (precision scale : Option Nat)
  | numeric (precision scale : Option Nat)
  | boolean | bit | date | timestamp | json
  | array (element : ColumnType)
  | uuid | bytea
  | enum (labels : List String)

structure ColumnSchema where
  name : String
  colType : ColumnType
  notNull : Bool
  primaryKey : Bool
  unique : Bool
  check : Option Expr

structure TableSchema where
  columns : List ColumnSchema
  checks : List Expr
  uniqueConstraints : List (List String)
  foreignKeys : List TableForeignKey

/-- Whether the column keeps its texts in a string sidecar. -/
def TableSchema.isString (schema : TableSchema) (idx : Nat) : Bool :=
  match schema.columns[idx]? with
  | some column =>
    match column.colType with
    | .varchar _ | .nvarchar _ | .text | .json | .array _ | .bytea => true
    | _ => false
  | none => false

/-- An INSERT with the texts of its values.  Its source query, conflict and
RETURNING clauses are not read by the executor. -/
structure Insert where
  table : String
  columns : Option (List String)
  values : List (List String)

structure Update where
  table : String
  assignments : List (String × Expr)
  whereClause : Option Expr

structure Delete where
  table : String
  whereClause : Option Expr

inductive DmlStatement
  | insert (ins : Insert)
  | update (upd : Update)
  | delete (del : Delete)

/-! ## SELECT statements -/

inductive NullsOrder
  | first | last | default
  deriving DecidableEq, Repr

/-- A JOIN clause; its type is the keyword before `JOIN`. -/
structure JoinClause where
  table : String
  on : Expr
  joinType : String

inductive SelectItem
  | column (name : String)
  | aggregate (func arg : String) (label : Option String)
  | star
  | literal (value : UInt64)
  | window (func arg overSpec : String) (label : Option String)
  | expression (expr : Expr) (label : Option String)

structure SelectQuery where
  select : List SelectItem
  fromTable : String
  joins : List JoinClause
  whereClause : Option Expr
  groupBy : List String
  having : Option Expr
  orderBy : List (String × Bool × NullsOrder)
  limit : Option Nat
  distinct : Bool

def SelectItem.isAggregate : SelectItem → Bool
  | .aggregate _ _ _ => true
  | _ => false

def SelectItem.isExpression : SelectItem → Bool
  | .expression _ _ => true
  | _ => false

def SelectItem.isStar : SelectItem → Bool
  | .star => true
  | _ => false

/-! ## DDL statements -/

structure ColumnDef where
  name : String
  colType : ColumnType
  notNull : Bool
  primaryKey : Bool
  default : Option String
  references : Option (String × String)
  unique : Bool
  check : Option Expr
  onDelete : Option ForeignKeyAction

structure CreateTable where
  schema : String
  name : String
  columns : List ColumnDef
  ifNotExists : Bool
  checks : List Expr
  uniqueConstraints : List (List String)
  foreignKeys : List TableForeignKey

structure DropTable where
  schema : String
  name : String
  ifExists : Bool

inductive AlterAction
  | addColumn (column : ColumnDef)
  | dropColumn (column : String)
  | alterColumnType (column : String) (newType : ColumnType)

structure AlterTable where
  schema : String
  name : String
  action : AlterAction

structure CreateIndex where
  indexName : String
  table : String
  column : String
  ifNotExists : Bool

structure DropIndex where
  indexName : String
  ifExists : Bool

inductive DdlStatement
  | create (ct : CreateTable)
  | drop (dt : DropTable)
  | createSchema (name : String)
  | alterTable (at_ : AlterTable)
  | createIndex (ci : CreateIndex)
  | dropIndex (di : DropIndex)

/-- The name a table is registered under; `dbo` is the default schema. -/
def fullName (schema name : String) : String :=
  if schema = "dbo" then name else s!"{schema}.{name}"

def ColumnDef.columnSchema (column : ColumnDef) : ColumnSchema :=
  { name := column.name, colType := column.colType, notNull := column.notNull
    primaryKey := column.primaryKey, unique := column.unique, check := column.check }

def columnFksFromDdl (columns : List ColumnDef) : List TableForeignKey :=
  columns.filterMap
    (fun column => column.references.map (fun reference =>
          { columns := [column.name], refTable := reference.1, refColumns := [reference.2]
            onDelete := column.onDelete }))

def TableSchema.fromCreateTable (ct : CreateTable) : TableSchema :=
  { columns := ct.columns.map ColumnDef.columnSchema, checks := ct.checks
    uniqueConstraints := ct.uniqueConstraints
    foreignKeys := ct.foreignKeys ++ columnFksFromDdl ct.columns }

end TurboGP.Sql
