import Mathlib.Algebra.Group.Int.Defs
import Mathlib.Algebra.GroupWithZero.Nat
import Mathlib.Data.List.Basic

/-! # Text functions -/

namespace TurboGP.Sql.Text

def quote : Char := Char.ofNat 39

/-- The characters with the Unicode property `White_Space`. -/
def isWhitespace (c : Char) : Bool :=
  let code := c.toNat
  decide
    (9 ≤ code ∧ code ≤ 13 ∨ code = 32 ∨ code = 133 ∨ code = 160 ∨
      code = 5760 ∨ 8192 ≤ code ∧ code ≤ 8202 ∨ code = 8232 ∨
      code = 8233 ∨ code = 8239 ∨ code = 8287 ∨ code = 12288)

def trimStart (text : List Char) : List Char := text.dropWhile isWhitespace

def trimEnd (text : List Char) : List Char := (text.reverse.dropWhile isWhitespace).reverse

def trim (text : List Char) : List Char := trimEnd (trimStart text)

/-- `eq_ignore_ascii_case`; `Char.toLower` folds the ASCII letters only. -/
def eqIgnoreAsciiCase (first second : List Char) : Bool :=
  first.map Char.toLower == second.map Char.toLower

/-- The test of the DML code for a value that is the word `NULL`. -/
def isNullWord (text : String) : Bool := eqIgnoreAsciiCase (trim text.toList) "null".toList

structure Unicode where
  isAlphanumeric : Char → Bool
  toUppercase : Char → List Char
  toLowercase : List Char → List Char
  debugChar : Char → List Char

def isAscii (c : Char) : Bool := decide (c.toNat < 128)

def isAlphanumeric (unicode : Unicode) (c : Char) : Bool :=
  if isAscii c then c.isAlphanum else unicode.isAlphanumeric c

def toUppercase (unicode : Unicode) (text : List Char) : List Char :=
  text.flatMap (fun c => if isAscii c then [c.toUpper] else unicode.toUppercase c)

/-- `to_lowercase`; beyond ASCII a character may fold by its context. -/
def toLowercase (unicode : Unicode) (text : List Char) : List Char :=
  if text.all isAscii then text.map Char.toLower
  else unicode.toLowercase text

def startsWith (text start : List Char) : Bool := start.isPrefixOf text

def contains (text part : List Char) : Bool := text.tails.any (fun rest => startsWith rest part)

def splitWhitespace (text : List Char) : List (List Char) :=
  (text.splitOnP isWhitespace).filter (fun word => !word.isEmpty)

/-- `replace` of every occurrence from left to right; `fuel` bounds the length
of the text. -/
def replaceAll (part replacement : List Char) : Nat → List Char → List Char
  | 0, text => text
  | _ + 1, [] => []
  | fuel + 1, c :: rest =>
    if startsWith (c :: rest) part then
      replacement ++ replaceAll part replacement fuel ((c :: rest).drop part.length)
    else c :: replaceAll part replacement fuel rest

/-- `starts_with` and `ends_with` a quote, of at least two bytes. -/
def isQuoted (text : List Char) : Bool :=
  text.head? == some quote && text.getLast? == some quote && decide (2 ≤ text.length)

def inner (text : List Char) : List Char := text.tail.dropLast

def unescapeQuotes : List Char → List Char
  | first :: second :: rest =>
    if first = quote ∧ second = quote then quote :: unescapeQuotes rest
    else first :: unescapeQuotes (second :: rest)
  | short => short

/-- `replace` of a quote by a doubled one. -/
def escapeQuotes (text : List Char) : List Char :=
  text.flatMap (fun c => if c = quote then [quote, quote] else [c])

def extractStringLiteral (text : String) : Option String :=
  let trimmed := trim text.toList
  if isQuoted trimmed then
    some (String.ofList (unescapeQuotes (inner trimmed)))
  else none

/-- `to_digit` with base 16. -/
def hexValue (c : Char) : Option Nat :=
  let code := c.toNat
  if 48 ≤ code ∧ code ≤ 57 then some (code - 48)
  else if 97 ≤ code ∧ code ≤ 102 then some (code - 87)
  else if 65 ≤ code ∧ code ≤ 70 then some (code - 55)
  else none

def digitValue (c : Char) : Nat := c.toNat - 48

def parseDigits (text : List Char) : Option Nat :=
  if !text.isEmpty && text.all Char.isDigit then
    some (text.foldl (fun number c => 10 * number + digitValue c) 0)
  else none

def parseI64 (text : List Char) : Option Int :=
  let magnitude : Option Int :=
    match text with
    | [] => none
    | sign :: rest =>
      if sign = '-' then
        (parseDigits rest).map (fun number => -(number : Int))
      else if sign = '+' then (parseDigits rest).map Int.ofNat
      else (parseDigits text).map Int.ofNat
  magnitude.filter (fun number => decide (-(2 ^ 63) ≤ number ∧ number < 2 ^ 63))

def parseU64 (text : List Char) : Option Nat :=
  let magnitude : Option Nat :=
    match text with
    | [] => none
    | sign :: rest => if sign = '+' then parseDigits rest else parseDigits text
  magnitude.filter (fun number => decide (number < 2 ^ 64))

end TurboGP.Sql.Text
