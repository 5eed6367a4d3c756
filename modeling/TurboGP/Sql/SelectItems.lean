import Mathlib.Data.List.DropRight
import TurboGP.Sql.Lexer
import TurboGP.Sql.Ast

/-!
# The select list

`parse_select_list` and `parse_select_item` of `sql/parser.rs`.
-/

namespace TurboGP.Sql

open Text Lexer

/-- What the runtime prints for a float, and for a character between the
quotes of a debugged string. -/
structure Printer where
  escapeDebug : Char → List Char
  debugF64 : UInt64 → List Char
  displayF64 : UInt64 → List Char

section

variable (printer : Printer)

def debugChars (text : List Char) : List Char :=
  text.flatMap
    (fun c =>
      if isAscii c && (c.isAlphanum || c == '_') then [c]
      else printer.escapeDebug c)

def debugVariant (name : String) (field : List Char) : List Char :=
  name.toList ++ '(' :: field ++ [')']

def debugString (name : String) (text : List Char) : List Char :=
  debugVariant name (doubleQuote :: debugChars printer text ++ [doubleQuote])

def debugToken : Token → List Char
  | .keyword word => debugString printer "Keyword" word
  | .ident name => debugString printer "Ident" name
  | .int n => debugVariant "Int" (toString n.toInt).toList
  | .float bits => debugVariant "Float" (printer.debugF64 bits)
  | .string text => debugString printer "String" text
  | .hex bytes => debugVariant "Hex" (toString (bytes.map UInt8.toNat)).toList
  | .param n => debugVariant "Param" (toString n).toList
  | .questionMark => "QuestionMark".toList
  | .op symbol => debugString printer "Op" symbol
  | .lParen => "LParen".toList
  | .rParen => "RParen".toList
  | .comma => "Comma".toList
  | .semicolon => "Semicolon".toList
  | .eof => "EOF".toList

/-- The error `message`, with the token the parser stands at. -/
def expected {α : Type} (message : String) (tokens : List Token) : Except String α :=
  let found := String.ofList (debugToken printer (tokens.headD .eof))
  .error s!"{message}, got {found}"

end

abbrev Parsed (α : Type) := α × List Token

def trimMatches (c : Char) (text : List Char) : List Char :=
  (text.dropWhile (fun d => d == c)).rdropWhile (fun d => d == c)

def matchKeyword (word : String) : List Token → Option (List Token)
  | .keyword found :: rest => if found = word.toList then some rest else none
  | _ => none

def matchIdent (word : String) : List Token → Option (List Token)
  | .ident found :: rest | .keyword found :: rest =>
    if eqIgnoreAsciiCase found word.toList then some rest else none
  | _ => none

section

variable (unicode : Unicode) (printer : Printer)
  (parseExpr : List Token → Except String (Parsed Expr))

def parseOptionalAlias (tokens : List Token) : Except String (Parsed (Option String)) :=
  match matchKeyword "AS" tokens with
  | none => .ok (none, tokens)
  | some (.ident name :: rest) => .ok (some (String.ofList name), rest)
  | some rest => expected printer "expected alias after AS" rest

/-- The loop of `parse_agg_arg`; `depth` counts the open parentheses. -/
def aggArgParts : Nat → List Token → List (List Char) × List Token
  | 0, .rParen :: rest => ([], .rParen :: rest)
  | depth + 1, .rParen :: rest => (aggArgParts depth rest).map ([')'] :: ·) id
  | depth, .lParen :: rest => (aggArgParts (depth + 1) rest).map (['('] :: ·) id
  | depth, .ident name :: rest => (aggArgParts depth rest).map (name :: ·) id
  | depth, .int n :: rest => (aggArgParts depth rest).map ((toString n.toInt).toList :: ·) id
  | depth, .float bits :: rest => (aggArgParts depth rest).map (printer.displayF64 bits :: ·) id
  | depth, .op symbol :: rest => (aggArgParts depth rest).map (symbol :: ·) id
  | depth, .keyword word :: rest =>
    if ["FROM", "WHERE", "GROUP", "ORDER", "HAVING", "LIMIT"].any
        (fun stop => stop.toList == word) then
      ([], .keyword word :: rest)
    else (aggArgParts depth rest).map (word :: ·) id
  | _, tokens => ([], tokens)

def parseAggArg : List Token → String × List Token
  | .op ['*'] :: rest => ("*", rest)
  | tokens =>
    (aggArgParts printer 0 tokens).map (fun parts => String.ofList ([' '].intercalate parts)) id

/-- The function and the argument of a call, after its parenthesis. -/
def parseCallArg (name : List Char) (tokens : List Token) :
    Except String (Parsed (String × String)) :=
  let func := String.ofList (toUppercase unicode name)
  match matchIdent "DISTINCT" tokens with
  | some (.ident column :: rest) => .ok ((func ++ "_DISTINCT", String.ofList column), rest)
  | some rest => expected printer "expected column name after DISTINCT" rest
  | none =>
    let (arg, rest) := parseAggArg printer tokens
    .ok ((func, arg), rest)

/-- The texts of the tokens up to the parenthesis that closes OVER; `depth`
counts those that are open inside. -/
def overParts : Nat → List Token → Except String (Parsed (List (List Char)))
  | _, [] | _, .eof :: _ => .error "unterminated OVER (...)"
  | 0, .rParen :: rest => .ok ([], rest)
  | depth + 1, .rParen :: rest => do
    let (parts, rest) ← overParts depth rest
    return ([')'] :: parts, rest)
  | depth, .lParen :: rest => do
    let (parts, rest) ← overParts (depth + 1) rest
    return (['('] :: parts, rest)
  | depth, token :: rest => do
    let text := trimMatches quote (trimMatches doubleQuote (debugToken printer token))
    let (parts, rest) ← overParts depth rest
    return (text :: parts, rest)

/-- What follows the parenthesis that closes a call. -/
def parseOver (func arg : String) (tokens : List Token) : Except String (Parsed SelectItem) :=
  match matchKeyword "OVER" tokens with
  | some (.lParen :: rest) => do
    let (parts, rest) ← overParts printer 0 rest
    let (label, rest) ← parseOptionalAlias printer rest
    let overSpec := String.ofList ([' '].intercalate parts)
    return (.window func arg overSpec label, rest)
  | some _ => .error "expected ( after OVER"
  | none => do
    let (label, rest) ← parseOptionalAlias printer tokens
    return (.aggregate func arg label, rest)

/-- A column, with the qualified name that may follow its alias. -/
def parseColumnItem (name : List Char) (tokens : List Token) :
    Except String (Parsed SelectItem) := do
  let column (last : List Char) := SelectItem.column (String.ofList (name ++ '.' :: last))
  match ← parseOptionalAlias printer tokens with
  | (_, .op ['.'] :: rest) =>
    match rest with
    | .ident last :: rest | .keyword last :: rest => return (column last, rest)
    | .op ['*'] :: rest => return (column ['*'], rest)
    | _ => expected printer "expected name after '.'" rest
  | (_, rest) => return (.column (String.ofList name), rest)

def parseExpressionItem (tokens : List Token) : Except String (Parsed SelectItem) := do
  let (expr, rest) ← parseExpr tokens
  let (label, rest) ← parseOptionalAlias printer rest
  return (.expression expr label, rest)

def parseSelectItem (tokens : List Token) : Except String (Parsed SelectItem) :=
  let unexpected := expected printer "expected select item" tokens
  match tokens with
  | .op symbol :: rest =>
    if symbol = ['*'] then .ok (.star, rest)
    else if symbol = ['-'] ∨ symbol = ['+'] then
      parseExpressionItem printer parseExpr tokens
    else unexpected
  | .keyword word :: _ =>
    if ["CASE", "EXTRACT", "CAST"].any (fun start => start.toList == word) then
      parseExpressionItem printer parseExpr tokens
    else unexpected
  | .lParen :: _ | .string _ :: _ | .float _ :: _ | .hex _ :: _ =>
    parseExpressionItem printer parseExpr tokens
  | .int n :: rest =>
    let value := n.toInt
    if value < 0 then
      .error s!"negative integer literal in SELECT list: {value}"
    else do
      let (_, rest) ← parseOptionalAlias printer rest
      return (.literal n.toUInt64, rest)
  | .ident name :: .lParen :: rest => do
    let ((func, arg), rest) ← parseCallArg unicode printer name rest
    match rest with
    | .rParen :: rest => parseOver printer func arg rest
    | _ => expected printer "expected ) after aggregate arg" rest
  | .ident name :: rest => parseColumnItem printer name rest
  | _ => unexpected

/-- `fuel` bounds the number of commas. -/
def parseSelectList : Nat → List Token → Except String (Parsed (List SelectItem))
  | 0, _ => .ok ([], [])
  | fuel + 1, tokens => do
    match ← parseSelectItem unicode printer parseExpr tokens with
    | (item, .comma :: rest) => do
      let (items, rest) ← parseSelectList fuel rest
      return (item :: items, rest)
    | (item, rest) => return ([item], rest)

/-- The columns of DISTINCT ON, which no executor reads. -/
def skipDistinctOn : List Token → Except String (List Token)
  | .ident _ :: .comma :: rest => skipDistinctOn rest
  | .ident _ :: .rParen :: rest => .ok rest
  | .ident _ :: rest => expected printer "expected , or ) in DISTINCT ON" rest
  | tokens => expected printer "expected column in DISTINCT ON" tokens

def parseDistinct (tokens : List Token) : Except String (Parsed Bool) :=
  match matchKeyword "DISTINCT" tokens with
  | none => .ok (false, tokens)
  | some rest =>
    match matchKeyword "ON" rest with
    | none => .ok (true, rest)
    | some (.lParen :: columns) => do
      return (true, ← skipDistinctOn printer columns)
    | some _ => .error "expected ( after DISTINCT ON"

def parseSelect (parseClauses : List Token → Except String (Parsed SelectQuery))
    (tokens : List Token) : Except String (Parsed SelectQuery) :=
  match matchKeyword "SELECT" tokens with
  | none => expected printer "expected keyword SELECT" tokens
  | some rest => do
    let (distinct, rest) ← parseDistinct printer rest
    let (select, rest) ← parseSelectList unicode printer parseExpr rest.length rest
    let (query, rest) ← parseClauses rest
    return ({ query with select, distinct }, rest)

def parseSelectText (parseF64 : List Char → Option UInt64)
    (parseClauses : List Token → Except String (Parsed SelectQuery)) (text : List Char) :
    Except String (Parsed SelectQuery) := do
  parseSelect unicode printer parseExpr parseClauses (← tokenize unicode parseF64 text)

end

end TurboGP.Sql
