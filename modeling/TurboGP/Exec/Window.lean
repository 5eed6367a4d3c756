import TurboGP.Lib.Effect
import TurboGP.Sql.SelectItems

/-!
# Window specifications

`parse_window_spec` of `exec/window.rs`, which reads the text that
`parse_select_item` made of an OVER clause.
-/

namespace TurboGP.Exec

open Sql Text Lexer List

structure WindowSpec where
  partitionBy : List String := []
  orderBy : List (String × Bool) := []
  frameType : Option String := none
  frameStart : Option String := none
  frameEnd : Option String := none
  deriving DecidableEq

/-- A word of the clause and the same word in upper case.  Both texts are split
at white space, which no change of case makes or removes. -/
structure ClauseWord where
  text : List Char
  upper : List Char

def ClauseWord.isOneOf (word : ClauseWord) (names : List String) : Bool :=
  names.any (fun name => name.toList == word.upper)

def trimEndCommas (text : List Char) : List Char := text.rdropWhile (fun c => c == ',')

def skipWord (name : String) : List ClauseWord → List ClauseWord
  | [] => []
  | word :: rest => if word.isOneOf [name] then rest else word :: rest

def partitionColumns : List ClauseWord → List String × List ClauseWord
  | [] => ([], [])
  | word :: rest =>
    if word.isOneOf ["ORDER", "ROWS", "RANGE"] then ([], word :: rest)
    else
      (partitionColumns rest).map (String.ofList (trimEndCommas word.text) :: ·) id

def endsOrder (word : ClauseWord) : Bool :=
  word.isOneOf ["ROWS", "RANGE", "PARTITION"] ||
    startsWith word.upper "DESC".toList || startsWith word.upper "ASC".toList

def isDirection (name : String) (word : ClauseWord) : Bool :=
  trimEndCommas word.upper == name.toList

def orderColumns : List ClauseWord → List (String × Bool) × List ClauseWord
  | [] => ([], [])
  | word :: rest =>
    let column := trimEndCommas word.text
    if endsOrder word then ([], word :: rest)
    else if column.isEmpty then orderColumns rest
    else
      match rest with
      | [] => ([(String.ofList column, true)], [])
      | next :: after =>
        if isDirection "DESC" next then
          (orderColumns after).map ((String.ofList column, false) :: ·) id
        else if isDirection "ASC" next then
          (orderColumns after).map ((String.ofList column, true) :: ·) id
        else
          (orderColumns (next :: after)).map ((String.ofList column, true) :: ·) id

def frameBound : List ClauseWord → Option String × List ClauseWord
  | [] => (none, [])
  | [_] => (none, [])
  | word :: next :: rest =>
    if word.isOneOf ["CURRENT"] then
      if next.isOneOf ["ROW"] then (some "CURRENT ROW", rest)
      else (none, next :: rest)
    else
      let first := if word.isOneOf ["UNBOUNDED"] then word.upper else word.text
      (some (String.ofList (first ++ ' ' :: next.upper)), rest)

/-- The frame after ROWS or RANGE; a bound that is missing stays as it was. -/
def readFrame (kind : ClauseWord) (words : List ClauseWord)
    (spec : WindowSpec) : WindowSpec × List ClauseWord :=
  let (start, rest) := frameBound (skipWord "BETWEEN" words)
  let spec :=
    { spec with
      frameType := some (String.ofList kind.upper)
      frameStart := start.or spec.frameStart }
  match rest with
  | [] => (spec, [])
  | word :: after =>
    if word.isOneOf ["AND"] then
      let (last, rest) := frameBound after
      ({ spec with frameEnd := last.or spec.frameEnd }, rest)
    else (spec, word :: after)

/-- The loop of `parse_window_spec`; `fuel` bounds the words that are left. -/
def readClauses : Nat → List ClauseWord → WindowSpec → WindowSpec
  | 0, _, spec => spec
  | _, [], spec => spec
  | fuel + 1, word :: rest, spec =>
    if word.isOneOf ["PARTITION"] then
      let (columns, rest) := partitionColumns (skipWord "BY" rest)
      readClauses fuel rest { spec with partitionBy := spec.partitionBy ++ columns }
    else if word.isOneOf ["ORDER"] then
      let (columns, rest) := orderColumns (skipWord "BY" rest)
      let rest := rest.dropWhile (fun word => ["DESC", "ASC", ","].any (isDirection · word))
      readClauses fuel rest { spec with orderBy := spec.orderBy ++ columns }
    else if word.isOneOf ["ROWS", "RANGE"] then
      let (spec, rest) := readFrame word rest spec
      readClauses fuel rest spec
    else readClauses fuel rest spec

/-- It never fails. -/
def parseWindowSpec (unicode : Unicode) (text : String) : WindowSpec :=
  let words := splitWhitespace text.toList
  let uppers := splitWhitespace (toUppercase unicode text.toList)
  readClauses words.length ((words.zip uppers).map (fun entry => ⟨entry.1, entry.2⟩)) {}

/-- A text without a clause word leaves the specification as it is. -/
theorem readClauses_of_no_clause (fuel : Nat) {words : List ClauseWord} (spec : WindowSpec)
    (none : ∀ word ∈ words, word.isOneOf ["PARTITION", "ORDER", "ROWS", "RANGE"] = false) :
    readClauses fuel words spec = spec := by
  induction fuel generalizing words with
  | zero => rfl
  | succ fuel ih =>
    cases words with
    | nil => rfl
    | cons word rest =>
      have first := none word (mem_cons_self ..)
      simp only [ClauseWord.isOneOf, any_cons, any_nil,
        Bool.or_false, Bool.or_eq_false_iff] at first
      simp only [readClauses, ClauseWord.isOneOf, any_cons, any_nil,
        Bool.or_false, first, Bool.false_eq_true, if_false]
      exact ih (fun word mem => none word (mem_cons_of_mem _ mem))

/-- A column of ORDER BY with the word after it, ASC or DESC in any case. -/
structure OrderColumn where
  name : List Char
  direction : Option (List Char)

structure OverClause where
  partitionBy : List (List Char)
  orderBy : List OrderColumn

def OrderColumn.tokens (column : OrderColumn) : List Token :=
  .ident column.name :: column.direction.toList.map .ident

def OrderColumn.key (column : OrderColumn) : String × Bool :=
  (String.ofList column.name,
    column.direction.all (fun word => !eqIgnoreAsciiCase word "DESC".toList))

def commaSeparated (pieces : List (List Token)) : List Token := [Token.comma].intercalate pieces

def byTokens (name : String) (pieces : List (List Token)) : List Token :=
  if pieces.isEmpty then []
  else
    .keyword name.toList :: .keyword "BY".toList :: commaSeparated pieces

def OverClause.tokens (clause : OverClause) : List Token :=
  byTokens "PARTITION" (clause.partitionBy.map (fun name => [.ident name])) ++
    byTokens "ORDER" (clause.orderBy.map OrderColumn.tokens)

def OverClause.names (clause : OverClause) : List (List Char) :=
  clause.partitionBy ++
    clause.orderBy.flatMap (fun column => column.name :: column.direction.toList)

/-- Its names are words of letters, digits and underscores. -/
def OverClause.Plain (unicode : Unicode) (clause : OverClause) : Prop :=
  ∀ name ∈ clause.names, name.all (isWordChar unicode) = true

/-- The executor is to get the columns that the clause names. -/
def OverClause.Reaches (clause : OverClause) (spec : WindowSpec) : Prop :=
  spec.partitionBy = clause.partitionBy.map String.ofList ∧
    spec.orderBy = clause.orderBy.map OrderColumn.key

def IsClauseToken (unicode : Unicode) : Token → Prop
  | .keyword word | .ident word => word.all (isWordChar unicode) = true
  | .comma => True
  | _ => False

section

variable {unicode : Unicode} {printer : Printer} {clause : OverClause}

variable {pieces : List (List Token)} {token : Token} {tokens : List Token}

theorem forall_mem_commaSeparated
    (all : ∀ piece ∈ pieces, ∀ token ∈ piece, IsClauseToken unicode token) :
    ∀ token ∈ commaSeparated pieces, IsClauseToken unicode token := by
  unfold commaSeparated
  induction pieces with
  | nil => simp
  | cons piece pieces ih =>
    simp only [forall_mem_cons] at all
    cases pieces with
    | nil => simpa using all.1
    | cons next pieces =>
      simp only [intercalate_cons_cons, forall_mem_append, forall_mem_singleton]
      exact ⟨⟨all.1, trivial⟩, ih all.2⟩

theorem forall_mem_byTokens {name : String} (word : name.toList.all (isWordChar unicode) = true)
    (all : ∀ piece ∈ pieces, ∀ token ∈ piece, IsClauseToken unicode token) :
    ∀ token ∈ byTokens name pieces, IsClauseToken unicode token := by
  unfold byTokens
  split
  · simp
  · simp only [forall_mem_cons]
    exact ⟨word, rfl, forall_mem_commaSeparated all⟩

theorem OverClause.Plain.forall_mem_tokens (plain : clause.Plain unicode) :
    ∀ token ∈ clause.tokens, IsClauseToken unicode token := by
  obtain ⟨partition, order⟩ := forall_mem_append.mp plain
  simp only [forall_mem_flatMap, forall_mem_cons] at order
  rw [OverClause.tokens, forall_mem_append]
  constructor
  · apply forall_mem_byTokens rfl
    simpa [IsClauseToken] using partition
  · apply forall_mem_byTokens rfl
    simpa [OrderColumn.tokens, IsClauseToken] using order

theorem trimMatches_eq_self {c first last : Char} {middle : List Char}
    (start : (first == c) = false) (stop : (last == c) = false) :
    trimMatches c (first :: middle ++ [last]) = first :: middle ++ [last] := by
  simp only [trimMatches, cons_append, dropWhile_cons, start,
    Bool.false_eq_true, if_false]
  rw [← cons_append, rdropWhile_concat, stop]
  simp

/-- The quotes of the text are inside its parentheses. -/
theorem exists_debugToken (printer : Printer) (inClause : IsClauseToken unicode token) :
    ∃ first middle last, debugToken printer token = first :: middle ++ [last] ∧
      first ∈ ['K', 'I', 'C'] ∧ last ∈ [')', 'a'] := by
  cases token with
  | keyword word => exact ⟨'K', _, ')', rfl, by simp, by simp⟩
  | ident word => exact ⟨'I', _, ')', rfl, by simp, by simp⟩
  | comma => exact ⟨'C', "omm".toList, 'a', rfl, by simp, by simp⟩
  | _ => cases inClause

theorem trim_debugToken (printer : Printer) (inClause : IsClauseToken unicode token) :
    trimMatches quote (trimMatches doubleQuote (debugToken printer token)) =
      debugToken printer token := by
  obtain ⟨first, middle, last, printed, start, stop⟩ := exists_debugToken printer inClause
  have unquoted : ∀ c ∈ ['K', 'I', 'C', ')', 'a'],
      (c == quote) = false ∧ (c == doubleQuote) = false := by
    simp [quote, doubleQuote]
  have starts := unquoted first (by grind)
  have stops := unquoted last (by grind)
  rw [printed, trimMatches_eq_self starts.2 stops.2, trimMatches_eq_self starts.1 stops.1]

theorem overParts_of_clause (rest : List Token)
    (inClause : ∀ token ∈ tokens, IsClauseToken unicode token) :
    overParts printer 0 (tokens ++ .rParen :: rest) =
      .ok (tokens.map (debugToken printer), rest) := by
  induction tokens with
  | nil => rfl
  | cons token tokens ih =>
    simp only [forall_mem_cons] at inClause
    have trimmed := trim_debugToken printer inClause.1
    cases token with
    | keyword word | ident word | comma =>
      simp only [cons_append, overParts, ih inClause.2, trimmed]
      rfl
    | _ => cases inClause.1

def isOneWord (unicode : Unicode) (text : List Char) : Bool :=
  (toUppercase unicode text).all (fun c => !isWhitespace c)

/-- What the runtime prints for a letter or a digit is not white space. -/
def PrintsWords (unicode : Unicode) (printer : Printer) : Prop :=
  ∀ c, isWordChar unicode c = true → isOneWord unicode (printer.escapeDebug c) = true

theorem isOneWord_append {first second : List Char} : isOneWord unicode (first ++ second) =
      (isOneWord unicode first && isOneWord unicode second) := by
  simp [isOneWord, toUppercase]

theorem isOneWord_letter {c : Char} (ascii : isAscii c = true)
    (word : (c.isAlphanum || c == '_') = true) : isOneWord unicode [c] = true := by
  have all : ∀ n < 128, ((Char.ofNat n).isAlphanum || Char.ofNat n == '_') = true →
        isWhitespace (Char.ofNat n).toUpper = false := by decide
  have upper := all c.toNat (of_decide_eq_true ascii) (by simpa using word)
  simpa [isOneWord, toUppercase, ascii] using upper

theorem isOneWord_debugChars (prints : PrintsWords unicode printer)
    {word : List Char} (plain : word.all (isWordChar unicode) = true) :
    isOneWord unicode (debugChars printer word) = true := by
  induction word with
  | nil => rfl
  | cons c word ih =>
    simp only [all_cons, Bool.and_eq_true] at plain
    unfold debugChars
    rw [flatMap_cons, isOneWord_append, Bool.and_eq_true]
    refine ⟨?_, ih plain.2⟩
    split
    · rename_i letter
      rw [Bool.and_eq_true] at letter
      exact isOneWord_letter letter.1 letter.2
    · exact prints c plain.1

theorem isOneWord_debugToken (prints : PrintsWords unicode printer)
    (inClause : IsClauseToken unicode token) :
    isOneWord unicode (debugToken printer token) = true := by
  have inside (name : String) (named : isOneWord unicode name.toList = true)
      {word : List Char} (plain : word.all (isWordChar unicode) = true) :
      isOneWord unicode (debugString printer name word) = true := by
    have parts : debugString printer name word =
        name.toList ++ ['(', doubleQuote] ++ debugChars printer word ++ [doubleQuote, ')'] := by
      simp [debugString, debugVariant]
    have opened : isOneWord unicode ['(', doubleQuote] = true := rfl
    have closed : isOneWord unicode [doubleQuote, ')'] = true := rfl
    simp only [parts, isOneWord_append, named, opened, closed,
      isOneWord_debugChars prints plain, Bool.and_self]
  cases token with
  | keyword word => exact inside "Keyword" rfl inClause
  | ident word => exact inside "Ident" rfl inClause
  | comma => rfl
  | _ => cases inClause

/-- The texts begin with the names of the tokens, so none is a clause word. -/
theorem isOneOf_debugToken (text : List Char) (inClause : IsClauseToken unicode token) :
    ClauseWord.isOneOf ⟨text, toUppercase unicode (debugToken printer token)⟩
      ["PARTITION", "ORDER", "ROWS", "RANGE"] = false := by
  obtain ⟨first, middle, last, printed, start, stop⟩ := exists_debugToken printer inClause
  rw [printed]
  simp only [mem_cons, not_mem_nil, or_false] at start
  rcases start with rfl | rfl | rfl <;> rfl

theorem toUppercase_intercalate (parts : List (List Char)) :
    toUppercase unicode ([' '].intercalate parts) =
      [' '].intercalate (parts.map (toUppercase unicode)) := by
  induction parts with
  | nil => rfl
  | cons part parts ih =>
    cases parts with
    | nil => simp
    | cons next parts =>
      simp only [map_cons, intercalate_cons_cons] at ih ⊢
      rw [← ih, toUppercase, flatMap_append, flatMap_append]
      rfl

/-- The words of texts that are joined by blanks are among these texts. -/
theorem mem_splitWhitespace_intercalate {parts : List (List Char)}
    (solid : ∀ part ∈ parts, ∀ c ∈ part, isWhitespace c = false) :
    ∀ word ∈ splitWhitespace ([' '].intercalate parts), word ∈ parts := by
  intro word mem
  have among := mem_of_mem_filter mem
  have nonempty := of_mem_filter mem
  clear mem
  induction parts with
  | nil =>
    simp at among
    simp [among] at nonempty
  | cons part parts ih =>
    simp only [forall_mem_cons] at solid
    cases parts with
    | nil =>
      rw [intercalate_singleton, splitOnP_eq_singleton solid.1] at among
      exact among
    | cons next parts =>
      rw [intercalate_cons_cons, append_assoc,
        singleton_append, splitOnP_append_cons_of_forall_mem solid.1 ' ' rfl] at among
      rcases mem_cons.mp among with same | later
      · exact mem_cons.mpr (.inl same)
      · exact mem_cons_of_mem _ (ih solid.2 later)

/-- The text of an OVER clause, read again, is an empty specification. -/
theorem parseWindowSpec_of_clause (prints : PrintsWords unicode printer)
    (inClause : ∀ token ∈ tokens, IsClauseToken unicode token) :
    parseWindowSpec unicode
        (String.ofList ([' '].intercalate (tokens.map (debugToken printer)))) = {} := by
  apply readClauses_of_no_clause
  intro word mem
  obtain ⟨entry, zipped, rfl⟩ := mem_map.mp mem
  have upper := (of_mem_zip zipped).2
  rw [String.toList_ofList, toUppercase_intercalate, map_map] at upper
  have solid : ∀ part ∈ tokens.map (toUppercase unicode ∘ debugToken printer),
      ∀ c ∈ part, isWhitespace c = false := by
    intro part mem c inside
    obtain ⟨token, among, rfl⟩ := mem_map.mp mem
    have word := isOneWord_debugToken prints (inClause token among)
    have clear := all_eq_true.mp word c inside
    simpa using clear
  obtain ⟨token, among, same⟩ := mem_map.mp (mem_splitWhitespace_intercalate solid _ upper)
  rw [← same]
  exact isOneOf_debugToken entry.1 (inClause token among)

end

section

variable (unicode : Unicode) (printer : Printer)
  (parseExpr : List Token → Except String (Parsed Expr))

structure Piece where
  tokens : List Token
  item : SelectItem

/-- The parser reads the item up to the next comma or the end of the list. -/
def Piece.Reads (tail : List Token) (piece : Piece) : Prop :=
  ∀ rest, rest.head? = some .comma ∨ rest = tail →
    parseSelectItem unicode printer parseExpr (piece.tokens ++ rest) = .ok (piece.item, rest)

/-- A call `name(argument) OVER (clause)`, with its alias if it has one. -/
structure WindowCall where
  name : List Char
  argument : List Token
  clause : OverClause
  label : Option (List Char)

def WindowCall.tokens (call : WindowCall) : List Token :=
  .ident call.name :: .lParen :: call.argument ++
    .rParen :: .keyword "OVER".toList :: .lParen :: call.clause.tokens ++
      .rParen :: call.label.elim [] (fun name => [.keyword "AS".toList, .ident name])

def WindowCall.ReadsCall (call : WindowCall) (func arg : String) : Prop :=
  ∀ rest, parseCallArg unicode printer call.name (call.argument ++ .rParen :: rest) =
    .ok ((func, arg), .rParen :: rest)

def OverClause.spec (clause : OverClause) : String :=
  String.ofList ([' '].intercalate (clause.tokens.map (debugToken printer)))

def WindowCall.piece (call : WindowCall) (func arg : String) : Piece :=
  ⟨call.tokens, .window func arg (call.clause.spec printer) (call.label.map String.ofList)⟩

variable {unicode printer parseExpr} {tail : List Token}

theorem parseOptionalAlias_label (label : Option (List Char)) {rest : List Token}
    (ended : rest.head? ≠ some (.keyword "AS".toList)) :
    parseOptionalAlias printer
        (label.elim [] (fun name => [.keyword "AS".toList, .ident name]) ++ rest) =
      .ok (label.map String.ofList, rest) := by
  cases label with
  | some name => rfl
  | none =>
    have unmatched : matchKeyword "AS" rest = none := by
      unfold matchKeyword
      split
      · simpa using ended
      · rfl
    simp [parseOptionalAlias, unmatched]

theorem WindowCall.reads {call : WindowCall} {func arg : String}
    (reads : call.ReadsCall unicode printer func arg) (plain : call.clause.Plain unicode)
    (ended : tail.head? ≠ some (.keyword "AS".toList)) :
    (call.piece printer func arg).Reads unicode printer parseExpr tail := by
  intro rest follows
  have notAlias : rest.head? ≠ some (.keyword "AS".toList) := by
    rcases follows with comma | rfl
    · simp [comma]
    · exact ended
  have shape : call.tokens ++ rest = .ident call.name :: .lParen :: (call.argument ++ .rParen ::
      .keyword "OVER".toList :: .lParen :: (call.clause.tokens ++ .rParen ::
        (call.label.elim [] (fun name => [.keyword "AS".toList, .ident name]) ++ rest))) := by
    simp [WindowCall.tokens]
  have isOver : ∀ after, matchKeyword "OVER" (.keyword "OVER".toList :: after) = some after :=
    fun after => by simp [matchKeyword]
  simp only [WindowCall.piece, shape, parseSelectItem, reads _, bind, Except.bind,
    parseOver, isOver, overParts_of_clause _ plain.forall_mem_tokens,
    parseOptionalAlias_label _ notAlias]
  rfl

theorem Piece.Reads.ne_nil {piece : Piece}
    (reads : piece.Reads unicode printer parseExpr tail) : piece.tokens ≠ [] := by
  intro empty
  have read := reads [.comma] (.inl rfl)
  rw [empty] at read
  cases read

theorem parseSelectList_pieces (ended : tail.head? ≠ some .comma) {pieces : List Piece}
    (some : pieces ≠ []) (reads : ∀ piece ∈ pieces, piece.Reads unicode printer parseExpr tail)
    (fuel : Nat) (enough : (commaSeparated (pieces.map Piece.tokens)).length ≤ fuel) :
    parseSelectList unicode printer parseExpr fuel
        (commaSeparated (pieces.map Piece.tokens) ++ tail) =
      .ok (pieces.map Piece.item, tail) := by
  induction pieces generalizing fuel with
  | nil => exact absurd rfl some
  | cons piece pieces ih =>
    simp only [forall_mem_cons] at reads
    have positive := length_pos_iff.mpr reads.1.ne_nil
    cases pieces with
    | nil =>
      simp only [map_cons, map_nil, commaSeparated,
        intercalate_singleton] at enough ⊢
      obtain ⟨fuel, rfl⟩ := Nat.exists_eq_add_of_lt (Nat.lt_of_lt_of_le positive enough)
      simp only [Nat.zero_add, parseSelectList, reads.1 tail (.inr rfl)]
      cases tail with
      | nil => rfl
      | cons token after => cases token <;> first | rfl | simp at ended
    | cons next pieces =>
      simp only [map_cons, commaSeparated, intercalate_cons_cons,
        length_append, length_singleton] at enough ih ⊢
      obtain ⟨fuel, rfl⟩ : ∃ more, fuel = more + 1 := ⟨fuel - 1, by omega⟩
      have later := ih (cons_ne_nil _ _) reads.2 fuel (by omega)
      rw [append_assoc, append_assoc, parseSelectList, reads.1 _ (.inl rfl)]
      simp only [bind, Except.bind, singleton_append, later]
      rfl

/-- Whether the columns of an OVER clause reach the executor: the text that
`parse_select_item` makes of the clause prints every token with its kind, and
no clause word is found in it again. -/
theorem overClause_reaches_iff {parseF64 : List Char → Option UInt64}
    {parseClauses : List Token → Except String (Parsed SelectQuery)}
    (prints : PrintsWords unicode printer) {text : List Char} {after rest : List Token}
    {distinct : Bool} {before later : List Piece} {call : WindowCall} {func arg : String}
    {query : SelectQuery}
    (lexed : tokenize unicode parseF64 text = .ok (.keyword "SELECT".toList :: after))
    (listed : parseDistinct printer after = .ok (distinct, commaSeparated
        ((before ++ call.piece printer func arg :: later).map Piece.tokens) ++ tail))
    (ended : tail.head? ≠ some .comma ∧ tail.head? ≠ some (.keyword "AS".toList))
    (others : ∀ piece ∈ before ++ later, piece.Reads unicode printer parseExpr tail)
    (reads : call.ReadsCall unicode printer func arg) (plain : call.clause.Plain unicode)
    (parsed : parseSelectText unicode printer parseExpr parseF64 parseClauses text =
      .ok (query, rest)) :
    ∃ overSpec, query.select = before.map Piece.item ++
      .window func arg overSpec (call.label.map String.ofList) :: later.map Piece.item ∧
      (call.clause.Reaches (parseWindowSpec unicode overSpec) ↔
      call.clause.partitionBy = [] ∧ call.clause.orderBy = []) := by
  refine ⟨call.clause.spec printer, ?_, ?_⟩
  · have all : ∀ piece ∈ before ++ call.piece printer func arg :: later,
        piece.Reads unicode printer parseExpr tail := by
      have window : (call.piece printer func arg).Reads unicode printer parseExpr tail :=
        WindowCall.reads reads plain ended.2
      grind
    have list := parseSelectList_pieces ended.1 (by simp) all
    have start : matchKeyword "SELECT" (.keyword "SELECT".toList :: after) = some after := by
      simp [matchKeyword]
    simp only [parseSelectText, lexed, parseSelect, start, listed, bind, Except.bind] at parsed
    rw [list _ (by simp)] at parsed
    cases clauses : parseClauses tail with
    | error message => simp [clauses] at parsed
    | ok res =>
      simp only [clauses] at parsed
      cases parsed
      simp [WindowCall.piece]
  · rw [OverClause.Reaches, OverClause.spec,
      parseWindowSpec_of_clause prints plain.forall_mem_tokens]
    simp

end

namespace Example

/-- Beyond ASCII there are no letters, and every character prints as itself. -/
def asciiUnicode : Unicode := ⟨fun _ => false, fun c => [c], id, fun c => [c]⟩

def plainPrinter : Printer := ⟨fun c => [c], fun _ => [], fun _ => []⟩

theorem printsWords_ascii : PrintsWords asciiUnicode plainPrinter := by
  intro c word
  by_cases ascii : isAscii c = true
  · apply isOneWord_letter ascii
    simpa [isWordChar, isAlphanumeric, ascii] using word
  · have underscore : c = '_' := by
      simpa [isWordChar, isAlphanumeric, ascii, asciiUnicode] using word
    exact absurd (underscore ▸ rfl) ascii

def emptyQuery : SelectQuery :=
  { select := [], fromTable := "emp", joins := [], whereClause := none, groupBy := []
    having := none, orderBy := [], limit := none, distinct := false }

def parseText (text : String) : Except String (Parsed SelectQuery) :=
  parseSelectText asciiUnicode plainPrinter (fun _ => .error "") (fun _ => none)
    (fun tokens => .ok (emptyQuery, tokens)) text.toList

/-- `OVER ()` reaches the executor. -/
theorem empty_over_reaches : ∃ query rest overSpec,
      parseText "SELECT rank() OVER () FROM emp" = .ok (query, rest) ∧
        query.select = [.window "RANK" "" overSpec none] ∧
        (OverClause.mk [] []).Reaches (parseWindowSpec asciiUnicode overSpec) := by
  let call : WindowCall :=
    { name := "rank".toList, argument := [], clause := ⟨[], []⟩, label := none }
  have parsed : ∃ query rest,
      parseText "SELECT rank() OVER () FROM emp" = .ok (query, rest) := ⟨_, _, rfl⟩
  obtain ⟨query, rest, parsed⟩ := parsed
  obtain ⟨overSpec, select, iff⟩ :=
    @overClause_reaches_iff _ _ _ [.keyword "FROM".toList, .ident "emp".toList, .eof] _ _
      printsWords_ascii _ _ _ _ [] [] call "RANK" "" _ rfl rfl (by decide) (by simp)
      (fun rest => rfl) (by simp [OverClause.Plain, OverClause.names, call]) parsed
  exact ⟨query, rest, overSpec, parsed, select, iff.mpr ⟨rfl, rfl⟩⟩

def deptSpec : String := "Keyword(\"PARTITION\") Keyword(\"BY\") Ident(\"dept\")"

/-- The column of PARTITION BY is lost on the way to the executor. -/
theorem partition_by_lost : (∃ query rest,
      parseText "SELECT rank() OVER (PARTITION BY dept) FROM emp" = .ok (query, rest) ∧
        query.select = [.window "RANK" "" deptSpec none]) ∧
      ¬ (OverClause.mk ["dept".toList] []).Reaches (parseWindowSpec asciiUnicode deptSpec) := by
  have lost : parseWindowSpec asciiUnicode deptSpec = {} := by decide +kernel
  refine ⟨⟨_, _, rfl, rfl⟩, ?_⟩
  simp [OverClause.Reaches, lost]

end Example

end TurboGP.Exec
