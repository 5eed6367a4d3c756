import TurboGP.Sql.Text

/-!
# The SQL tokenizer

`sql/lexer.rs`.
-/

namespace TurboGP.Sql.Lexer

open Text

def keywords : List String :=
  ["SELECT", "FROM", "WHERE", "GROUP", "BY", "ORDER", "JOIN", "ON", "LIKE",
    "DATE", "TIMESTAMP", "INTERVAL", "EXTRACT", "CASE", "WHEN", "THEN",
    "ELSE", "END", "DISTINCT", "INSERT", "UPDATE", "DELETE", "BEGIN",
    "TRANSACTION", "COMMIT", "AND", "OR", "NOT", "AS", "APPROXIMATE",
    "WITHIN", "CONFIDENCE", "TIER", "SIMILAR", "TO", "HAMMING", "DISTANCE",
    "CONSISTENCY", "SCOPE", "RACK", "GLOBAL", "ASYNC", "USING", "MEMORY",
    "BUDGET", "ENERGY", "JOULES", "CONTINUOUS", "HAVING", "OUTER", "LEFT",
    "INNER", "QUERY", "CREATE", "TABLE", "DROP", "IF", "EXISTS", "INT",
    "INTEGER", "BIGINT", "SMALLINT", "TINYINT", "VARCHAR", "NVARCHAR",
    "TEXT", "FLOAT", "REAL", "DECIMAL", "NUMERIC", "BIT", "BOOLEAN",
    "JSON", "UUID", "BYTEA", "ENUM", "NULL", "DEFAULT", "PRIMARY", "KEY",
    "REFERENCES", "IDENTITY", "NOT", "SCHEMA", "ALTER", "ROLLBACK", "ADD",
    "COLUMN", "TYPE", "INDEX", "CAST", "YEAR", "MONTH", "DAY", "HOUR",
    "MINUTE", "SECOND", "VALUES", "SET", "INTO", "OUTPUT", "RETURNING",
    "CONFLICT", "NOTHING", "DO", "UNIQUE", "CHECK", "CASCADE", "ACTION",
    "NULLS", "FIRST", "LAST", "NEXT", "FETCH", "OFFSET", "ONLY", "WITH",
    "UNION", "RECURSIVE", "ALL", "OPTION", "MAXRECURSION", "INTERSECT",
    "EXCEPT", "OVER", "PARTITION", "ROWS", "RANGE", "PRECEDING",
    "FOLLOWING", "CURRENT", "ROW", "NUMBER", "BETWEEN", "IN", "IS"]

/-- A token; words, operators and strings are kept as their characters, a
float as its bit pattern. -/
inductive Token
  | keyword (word : List Char)
  | ident (name : List Char)
  | int (n : Int64)
  | float (bits : UInt64)
  | string (text : List Char)
  | hex (bytes : List UInt8)
  | param (n : Nat)
  | questionMark
  | op (symbol : List Char)
  | lParen
  | rParen
  | comma
  | semicolon
  | eof
  deriving DecidableEq, Repr

def doubleQuote : Char := Char.ofNat 34

def backslash : Char := Char.ofNat 92

def newline : Char := Char.ofNat 10

abbrev WithRest (α : Type) := α × List Char

def isWordChar (unicode : Unicode) (c : Char) : Bool := isAlphanumeric unicode c || c == '_'

/-- `push_word`: keywords are uppercased, identifiers keep their case. -/
def wordToken (unicode : Unicode) (word : List Char) : Token :=
  let upper := toUppercase unicode word
  if keywords.any (fun keyword => keyword.toList == upper) then
    .keyword upper
  else .ident word

def readWord (unicode : Unicode) (chars : List Char) : Except String (WithRest (List Token)) :=
  .ok ([wordToken unicode (chars.takeWhile (isWordChar unicode))],
      chars.dropWhile (isWordChar unicode))

/-- The digits after a dollar sign, as a `u16`. -/
def readParamIndex (chars : List Char) : Except String (WithRest (List Token)) :=
  let digits := chars.takeWhile Char.isDigit
  if digits.isEmpty then .error "expected digit after '$'"
  else
    match (parseDigits digits).filter (fun n => decide (n < 2 ^ 16)) with
    | some n => .ok ([.param n], chars.dropWhile Char.isDigit)
    | none =>
      let text := String.ofList digits
      .error s!"invalid parameter index \"{text}\": number too large to fit in target type"

def readExponent : List Char → List Char × List Char
  | [] => ([], [])
  | e :: rest =>
    if e = 'e' ∨ e = 'E' then
      let (sign, digits) :=
        match rest with
        | [] => ([], [])
        | c :: after => if c = '+' ∨ c = '-' then ([c], after) else ([], rest)
      (e :: sign ++ digits.takeWhile Char.isDigit, digits.dropWhile Char.isDigit)
    else ([], e :: rest)

def isMantissaChar (c : Char) : Bool := c.isDigit || c == '.'

/-- A number with a dot or an exponent is a float. -/
def readNumber (parseF64 : List Char → Option UInt64) (chars : List Char) :
    Except String (WithRest (List Token)) :=
  let mantissa := chars.takeWhile isMantissaChar
  let (exponent, rest) := readExponent (chars.dropWhile isMantissaChar)
  let text := mantissa ++ exponent
  if mantissa.contains '.' || !exponent.isEmpty then
    match parseF64 text with
    | some bits => .ok ([.float bits], rest)
    | none =>
      let shown := String.ofList text
      .error s!"invalid float \"{shown}\": invalid float literal"
  else
    match parseI64 text with
    | some n => .ok ([.int (Int64.ofInt n)], rest)
    | none =>
      let shown := String.ofList text
      .error s!"invalid integer \"{shown}\": number too large to fit in target type"

def skipLineComment (chars : List Char) : List Char := chars.dropWhile (fun c => c != newline)

/-- Comments nest; `depth` counts the open ones. -/
def skipBlockComment (depth : Nat) : List Char → Except String (List Char)
  | [] => .error "unterminated block comment"
  | [_] => .error "unterminated block comment"
  | c :: next :: rest =>
    if c = '/' ∧ next = '*' then
      if depth + 1 < 2 ^ 32 then skipBlockComment (depth + 1) rest
      else .error "block comment nesting too deep"
    else if c = '*' ∧ next = '/' then
      if depth = 1 then .ok rest else skipBlockComment (depth - 1) rest
    else skipBlockComment depth (next :: rest)

/-- A text up to its closing delimiter; the doubled delimiter stands for
itself. -/
def readDelimited (delimiter : Char) (unterminated : String) :
    List Char → Except String (WithRest (List Char))
  | [] => .error unterminated
  | [c] => if c = delimiter then .ok ([], []) else .error unterminated
  | c :: next :: rest =>
    if c = delimiter then
      if next = delimiter then do
        let (text, after) ← readDelimited delimiter unterminated rest
        return (c :: text, after)
      else .ok ([], next :: rest)
    else do
      let (text, after) ← readDelimited delimiter unterminated (next :: rest)
      return (c :: text, after)

def readStringLiteral : List Char → Except String (WithRest (List Char)) :=
  readDelimited quote "unterminated string literal"

def readQuotedIdentifier : List Char → Except String (WithRest (List Char)) :=
  readDelimited doubleQuote "unterminated quoted identifier"

def readHexEscape (unicode : Unicode) : Nat → Nat → List Char → Except String (WithRest Nat)
  | 0, value, rest => .ok (value, rest)
  | _ + 1, _, [] => .error "unterminated hex escape"
  | n + 1, value, c :: rest =>
    match hexValue c with
    | none =>
      let shown := String.ofList (unicode.debugChar c)
      .error s!"invalid hex digit in escape: {shown}"
    | some digit => readHexEscape unicode n (16 * value + digit) rest

def hexText : Nat → Nat → List Char
  | 0, _ => []
  | n + 1, value => hexText n (value / 16) ++ [(Nat.digitChar (value % 16)).toUpper]

def readCodePoint (unicode : Unicode) (n : Nat) (chars : List Char) :
    Except String (WithRest Char) := do
  let (value, rest) ← readHexEscape unicode n 0 chars
  if value.isValidChar then return (Char.ofNat value, rest)
  else
    let shown := String.ofList (hexText n value)
    .error s!"invalid Unicode code point U+{shown}"

/-- The character that a backslash and `c` stand for. -/
def readEscape (unicode : Unicode) (c : Char) (rest : List Char) : Except String (WithRest Char) :=
  if c = backslash ∨ c = quote then .ok (c, rest)
  else
    match c with
    | 'b' => .ok (Char.ofNat 8, rest)
    | 'f' => .ok (Char.ofNat 12, rest)
    | 'n' => .ok (newline, rest)
    | 'r' => .ok (Char.ofNat 13, rest)
    | 't' => .ok (Char.ofNat 9, rest)
    | 'v' => .ok (Char.ofNat 11, rest)
    | '0' => .ok (Char.ofNat 0, rest)
    | 'x' => do
      let (value, after) ← readHexEscape unicode 2 0 rest
      return (Char.ofNat value, after)
    | 'u' => readCodePoint unicode 4 rest
    | 'U' => readCodePoint unicode 8 rest
    | _ =>
      let shown := String.singleton c
      .error s!"unknown escape sequence \\{shown}"

/-- An `E` string; `fuel` bounds the length of the text. -/
def readEscapeStringLiteral (unicode : Unicode) :
    Nat → List Char → Except String (WithRest (List Char))
  | 0, _ => .error "unterminated escape string literal"
  | _ + 1, [] => .error "unterminated escape string literal"
  | fuel + 1, c :: rest =>
    if c = quote then
      match rest with
      | [] => .ok ([], [])
      | next :: after =>
        if next = quote then do
          let (text, left) ← readEscapeStringLiteral unicode fuel after
          return (quote :: text, left)
        else .ok ([], rest)
    else if c = backslash then
      match rest with
      | [] => .error "unterminated escape string literal"
      | escaped :: after => do
        let (char, left) ← readEscape unicode escaped after
        let (text, left) ← readEscapeStringLiteral unicode fuel left
        return (char :: text, left)
    else do
      let (text, left) ← readEscapeStringLiteral unicode fuel rest
      return (c :: text, left)

def readHexDigits (unicode : Unicode) : List Char → Except String (WithRest (List Nat))
  | [] => .error "unterminated hex literal"
  | c :: rest =>
    if c = quote then .ok ([], rest)
    else
      match hexValue c with
      | none =>
        let shown := String.ofList (unicode.debugChar c)
        .error s!"invalid hex character: {shown}"
      | some digit => do
        let (digits, after) ← readHexDigits unicode rest
        return (digit :: digits, after)

def hexBytes : List Nat → List UInt8
  | high :: low :: rest => UInt8.ofNat (16 * high + low) :: hexBytes rest
  | _ => []

def readHexLiteral (unicode : Unicode) (chars : List Char) :
    Except String (WithRest (List Token)) := do
  let (digits, rest) ← readHexDigits unicode chars
  let count := digits.length
  if count % 2 = 0 then return ([.hex (hexBytes digits)], rest)
  else
    .error s!"hex literal must have an even number of digits, got {count}"

/-- An operator of one character, or of two if `second` follows. -/
def readOp (first : String) (longer : List (Char × String))
    (rest : List Char) : Except String (WithRest (List Token)) :=
  match rest with
  | [] => .ok ([.op first.toList], [])
  | c :: after =>
    match longer.find? (fun entry => entry.1 == c) with
    | some entry => .ok ([.op entry.2.toList], after)
    | none => .ok ([.op first.toList], rest)

/-- An operator that exists only in its two-character form. -/
def readPair (second : Char) (symbol message : String)
    (rest : List Char) : Except String (WithRest (List Token)) :=
  match rest with
  | [] => .error message
  | c :: after =>
    if c = second then .ok ([.op symbol.toList], after)
    else .error message

/-- A minus sign, the start of a line comment or an arrow. -/
def readMinus (rest : List Char) : Except String (WithRest (List Token)) :=
  match rest with
  | [] => .ok ([.op ['-']], [])
  | c :: after =>
    if c = '-' then .ok ([], skipLineComment after)
    else if c = '>' then readOp "->" [('>', "->>")] after
    else .ok ([.op ['-']], rest)

def readSlash (rest : List Char) : Except String (WithRest (List Token)) :=
  match rest with
  | [] => .ok ([.op ['/']], [])
  | c :: after =>
    if c = '*' then do return ([], ← skipBlockComment 1 after)
    else .ok ([.op ['/']], rest)

/-- The tokens that the first character `c` begins, none for blanks and
comments. -/
def nextToken (unicode : Unicode) (parseF64 : List Char → Option UInt64)
    (c : Char) (rest : List Char) : Except String (WithRest (List Token)) :=
  if c = ' ' ∨ c = Char.ofNat 9 ∨ c = newline ∨ c = Char.ofNat 13 then
    .ok ([], rest)
  else if c = quote then do
    let (text, after) ← readStringLiteral rest
    return ([.string text], after)
  else if c = doubleQuote then do
    let (text, after) ← readQuotedIdentifier rest
    return ([.ident text], after)
  else if c.isDigit then readNumber parseF64 (c :: rest)
  else if (c = 'x' ∨ c = 'X') ∧ rest.head? = some quote then
    readHexLiteral unicode rest.tail
  else if (c = 'e' ∨ c = 'E') ∧ rest.head? = some quote then do
    let (text, after) ← readEscapeStringLiteral unicode rest.length rest.tail
    return ([.string text], after)
  else if c.isAlpha ∨ c = '_' then readWord unicode (c :: rest)
  else
    match c with
    | '(' => .ok ([.lParen], rest)
    | ')' => .ok ([.rParen], rest)
    | ',' => .ok ([.comma], rest)
    | ';' => .ok ([.semicolon], rest)
    | '?' => .ok ([.questionMark], rest)
    | '$' => readParamIndex rest
    | '=' => .ok ([.op ['=']], rest)
    | '!' => readPair '=' "!=" "expected '!=' but found '!' followed by another character" rest
    | '<' => readOp "<" [('=', "<="), ('>', "<>")] rest
    | '>' => readOp ">" [('=', ">=")] rest
    | '+' => .ok ([.op ['+']], rest)
    | '-' => readMinus rest
    | '*' => .ok ([.op ['*']], rest)
    | '/' => readSlash rest
    | '%' => .ok ([.op ['%']], rest)
    | '|' => readPair '|' "||" "expected '||' but found '|' followed by another character" rest
    | ':' => readPair ':' "::" "expected '::' but found ':' followed by another character" rest
    | '.' =>
      match rest with
      | [] => .ok ([.op ['.']], [])
      | next :: _ =>
        if next.isDigit then readNumber parseF64 (c :: rest)
        else .ok ([.op ['.']], rest)
    | _ =>
      let shown := String.ofList (unicode.debugChar c)
      .error s!"unexpected character: {shown}"

/-- The loop of `tokenize`; `fuel` bounds the number of characters left. -/
def tokenizeLoop (unicode : Unicode) (parseF64 : List Char → Option UInt64) :
    Nat → List Char → Except String (List Token)
  | _, [] => .ok [.eof]
  | 0, _ :: _ => .ok [.eof]
  | fuel + 1, c :: rest => do
    let (tokens, after) ← nextToken unicode parseF64 c rest
    return tokens ++ (← tokenizeLoop unicode parseF64 fuel after)

def tokenize (unicode : Unicode) (parseF64 : List Char → Option UInt64)
    (input : List Char) : Except String (List Token) :=
  tokenizeLoop unicode parseF64 input.length input

end TurboGP.Sql.Lexer
