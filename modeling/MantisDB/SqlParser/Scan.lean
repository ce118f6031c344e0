import MantisDB.SqlParser.Keywords
import MantisDB.SqlParser.Skip

/-!
# The scanners and `lexer_next_token`

`lexer_scan_string`, `lexer_scan_number`, `lexer_scan_identifier`,
`lexer_scan_operator` and `lexer_next_token` (`src/cgo/sql_parser.c`, lines
354-761), translated statement by statement.  Each returns the `bool` of the C
function with the lexer it leaves; the token is `current_token` of that lexer.

The `while` loops are recursions on a `fuel` of `input_len - pos`: every round
consumes at least one byte, so the fuel runs out only where the loop's own test
fails, and running out returns what that test's failure returns.
-/

namespace MantisDB
namespace SqlParser

/-- `token->type = k`. -/
def Lexer.setType (lexer : Lexer) (k : TokenType) : Lexer :=
  { lexer with currentToken := { lexer.currentToken with type := k } }

/-- `lexer_scan_string`: the opening quote is the byte under the cursor; the body is
`input[start, pos)` when the closing quote is reached. -/
def lexerScanString (lexer : Lexer) : Bool × Lexer :=
  let quote := lexerPeek lexer
  let lexer := lexerAdvance lexer
  go quote lexer.pos (lexer.input.length - lexer.pos) lexer
where
  go (quote : Char) (start : ℕ) : ℕ → Lexer → Bool × Lexer
  | 0, lexer => (false, lexerSetError lexer "unterminated string literal")
  | fuel + 1, lexer =>
    if lexer.pos < lexer.input.length then
      if lexerPeek lexer = quote then
        if lexer.pos + 1 < lexer.input.length ∧ lexer.input[lexer.pos + 1]? = some quote then
          go quote start fuel (lexerAdvance (lexerAdvance lexer))
        else
          (true, lexerAdvance { lexer with
            currentToken := lexer.currentToken.setText lexer.input start (lexer.pos - start) })
      else if lexerPeek lexer = '\\' then
        let lexer := lexerAdvance lexer
        go quote start fuel (if lexer.pos < lexer.input.length then lexerAdvance lexer else lexer)
      else go quote start fuel (lexerAdvance lexer)
    else (false, lexerSetError lexer "unterminated string literal")

/-- `lexer_scan_number`: the integer part, then `.` and digits when a digit follows the
`.`, then the exponent. -/
def lexerScanNumber (lexer : Lexer) : Bool × Lexer :=
  let start := lexer.pos
  let lexer := lexerAdvanceWhile isDigit lexer
  let hasDot := lexer.pos < lexer.input.length ∧ lexerPeek lexer = '.' ∧
    lexer.pos + 1 < lexer.input.length ∧ isDigit ((lexer.input[lexer.pos + 1]?).getD '\x00')
  let lexer := if hasDot then lexerAdvanceWhile isDigit (lexerAdvance lexer) else lexer
  exponent start hasDot lexer
where
  /-- From "Check for exponent" on: `e`/`E`, an optional sign, then at least one digit. -/
  exponent (start : ℕ) (hasDot : Bool) (lexer : Lexer) : Bool × Lexer :=
    if lexer.pos < lexer.input.length ∧ (lexerPeek lexer = 'e' ∨ lexerPeek lexer = 'E') then
      let lexer := lexerAdvance lexer
      let lexer :=
        if lexer.pos < lexer.input.length ∧ (lexerPeek lexer = '+' ∨ lexerPeek lexer = '-') then
          lexerAdvance lexer
        else lexer
      if lexer.input.length ≤ lexer.pos ∨ isDigit (lexerPeek lexer) = false then
        (false, lexerSetError lexer "invalid number format")
      else (true, numberToken start true (lexerAdvanceWhile isDigit lexer))
    else (true, numberToken start hasDot lexer)
  /-- The token of `input[start, pos)`: `TOKEN_FCONST`, or `TOKEN_ICONST` with
  `ival = strtoll(value)`. -/
  numberToken (start : ℕ) (isFloat : Bool) (lexer : Lexer) : Lexer :=
    let t := lexer.currentToken.setText lexer.input start (lexer.pos - start)
    { lexer with currentToken :=
        if isFloat then { t with type := .FCONST } else { t with type := .ICONST, ival := strtoll t.text } }

/-- `lexer_scan_identifier`; the keyword lookup gets the copied text and its length. -/
def lexerScanIdentifier (lexer : Lexer) : Bool × Lexer :=
  let start := lexer.pos
  if isAlpha (lexerPeek lexer) = false then (false, lexerSetError lexer "invalid identifier")
  else
    let lexer := lexerAdvanceWhile isAlnum (lexerAdvance lexer)
    let t := lexer.currentToken.setText lexer.input start (lexer.pos - start)
    (true, { lexer with currentToken := { t with type := lookupKeyword t.text (lexer.pos - start) } })

/-- The two- and three-byte operators: `token->type = k`, `value[1..]` gets `tail` and a
NUL after it, `token->length = 1 + |tail|`, then one `lexer_advance` per byte of `tail`. -/
def Lexer.longOperator (lexer : Lexer) (k : TokenType) (tail : List Char) : Lexer :=
  let t := lexer.currentToken
  lexerAdvanceN tail.length { lexer with currentToken := { t with
    type := k
    value := t.value.map fun b => (b.memcpy 1 tail).write (tail.length + 1) '\x00'
    length := tail.length + 1 } }

/-- `lexer_scan_operator`: `c` and `next` are read, the one-byte text `c` is stored, and
the cursor moves past `c` before the `switch`. -/
def lexerScanOperator (lexer : Lexer) : Bool × Lexer :=
  let c := lexerPeek lexer
  let next := if lexer.pos + 1 < lexer.input.length then (lexer.input[lexer.pos + 1]?).getD '\x00'
    else '\x00'
  let lexer := lexerAdvance { lexer with currentToken := { lexer.currentToken with
    value := some (((palloc 3).write 0 c).write 1 '\x00'), length := 1 } }
  switch c next lexer
where
  /-- The `switch (c)`, on the lexer past `c`: its tests `input[pos + 1]` read the byte
  after `next`. -/
  switch (c next : Char) (lexer : Lexer) : Bool × Lexer :=
    let third (d : Char) : Prop := lexer.pos + 1 < lexer.input.length ∧ lexer.input[lexer.pos + 1]? = some d
    match c with
    | '(' => (true, lexer.setType .LPAREN)
    | ')' => (true, lexer.setType .RPAREN)
    | '[' => (true, lexer.setType .LBRACKET)
    | ']' => (true, lexer.setType .RBRACKET)
    | '{' => (true, lexer.setType .LBRACE)
    | '}' => (true, lexer.setType .RBRACE)
    | ',' => (true, lexer.setType .COMMA)
    | ';' => (true, lexer.setType .SEMICOLON)
    | '.' => (true, lexer.setType .DOT)
    | '+' => (true, lexer.setType .PLUS)
    | '-' =>
      if next = '>' then
        if third '>' then (true, lexer.longOperator .JSON_EXTRACT_TEXT ['>', '>'])
        else (true, lexer.longOperator .JSON_EXTRACT ['>'])
      else (true, lexer.setType .MINUS)
    | '*' => (true, lexer.setType .MULTIPLY)
    | '/' => (true, lexer.setType .DIVIDE)
    | '%' => (true, lexer.setType .MODULO)
    | '^' => (true, lexer.setType .POWER)
    | '<' =>
      if next = '=' then (true, lexer.longOperator .LE ['='])
      else if next = '>' then (true, lexer.longOperator .NE ['>'])
      else if next = '<' then (true, lexer.longOperator .LSHIFT ['<'])
      else (true, lexer.setType .LT)
    | '>' =>
      if next = '=' then (true, lexer.longOperator .GE ['='])
      else if next = '>' then (true, lexer.longOperator .RSHIFT ['>'])
      else (true, lexer.setType .GT)
    | '=' => (true, lexer.setType .EQ)
    | '!' =>
      if next = '=' then (true, lexer.longOperator .NE ['='])
      else if next = '~' then
        if third '*' then (true, lexer.longOperator .REGEX_INMATCH ['~', '*'])
        else (true, lexer.longOperator .REGEX_NMATCH ['~'])
      else (false, lexerSetError lexer "unexpected character '!'")
    | '|' =>
      if next = '|' then (true, lexer.longOperator .CONCAT ['|'])
      else (true, lexer.setType .BITOR)
    | '&' => (true, lexer.setType .BITAND)
    | '#' =>
      if next = '>' then
        if third '>' then (true, lexer.longOperator .JSON_PATH_TEXT ['>', '>'])
        else (true, lexer.longOperator .JSON_PATH ['>'])
      else (true, lexer.setType .BITXOR)
    | '~' =>
      if next = '*' then (true, lexer.longOperator .REGEX_IMATCH ['*'])
      else (true, lexer.setType .REGEX_MATCH)
    | ':' =>
      if next = ':' then (true, lexer.longOperator .TYPECAST [':'])
      else (true, lexer.setType .COLON)
    | '$' =>
      if isDigit next then
        let start := lexer.pos
        let lexer := lexerAdvanceWhile isDigit lexer
        let len := lexer.pos - start + 1
        let value := (((palloc (len + 1)).write 0 '$').memcpy 1
          ((lexer.input.drop start).take (len - 1))).write len '\x00'
        (true, { lexer with currentToken := { lexer.currentToken with
          value := some value, length := len, type := .PARAM,
          ival := strtoll ((value.data.drop 1).takeWhile (· != '\x00')) } })
      else (false, lexerSetError lexer "invalid parameter marker")
    | _ => (false, lexerSetError lexer "unexpected character")

/-- The dispatch of `lexer_next_token`, once the location is set (lines 737-760). -/
def lexerDispatch (lexer : Lexer) : Bool × Lexer :=
  if lexer.input.length ≤ lexer.pos then
    (true, { lexer with
      currentToken := { lexer.currentToken with type := .EOF, value := none, length := 0 },
      hasCurrent := true })
  else
    let c := lexerPeek lexer
    let r :=
      if c = '\'' ∨ c = '"' then lexerScanString (lexer.setType .SCONST)
      else if isDigit c then lexerScanNumber lexer
      else if isAlpha c then lexerScanIdentifier lexer
      else lexerScanOperator lexer
    (r.1, { r.2 with hasCurrent := r.1 })

/-- `lexer_next_token`: drop the previous token's text, skip, set the location, dispatch. -/
def lexerNextToken (lexer : Lexer) : Bool × Lexer :=
  lexerDispatch (start lexer)
where
  /-- Lines 710-735: the state the dispatch runs on, the token's location set to the
  cursor after the skip loop. -/
  start (lexer : Lexer) : Lexer :=
    let lexer := if lexer.hasCurrent ∧ lexer.currentToken.value.isSome then
        { lexer with currentToken := { lexer.currentToken with value := none } }
      else lexer
    let lexer := skipWhitespaceAndComments lexer
    { lexer with currentToken := { lexer.currentToken with
      location := ⟨lexer.line, lexer.column, int32 lexer.pos⟩ } }

/-! ### Which scanner runs -/

section Dispatch

variable {lx : Lexer} {c : Char} {w : List Char}

@[simp] theorem Lexer.setType_input (lx : Lexer) (k : TokenType) : (lx.setType k).input = lx.input := rfl

@[simp] theorem Lexer.setType_pos (lx : Lexer) (k : TokenType) : (lx.setType k).pos = lx.pos := rfl

@[simp] theorem Lexer.setType_rest (lx : Lexer) (k : TokenType) : (lx.setType k).rest = lx.rest := rfl

@[simp] theorem Lexer.setType_currentToken (lx : Lexer) (k : TokenType) :
    (lx.setType k).currentToken = { lx.currentToken with type := k } := rfl

@[simp] theorem Lexer.setType_errorMsg (lx : Lexer) (k : TokenType) :
    (lx.setType k).errorMsg = lx.errorMsg := rfl

theorem lexerDispatch_hasCurrent (lx : Lexer) : (lexerDispatch lx).2.hasCurrent = (lexerDispatch lx).1 := by
  unfold lexerDispatch; split <;> rfl

theorem lexerDispatch_of_rest_nil (hr : lx.rest = []) :
    lexerDispatch lx = (true, { lx with
      currentToken := { lx.currentToken with type := .EOF, value := none, length := 0 },
      hasCurrent := true }) :=
  if_pos ((rest_eq_nil_iff lx).1 hr)

theorem lexerDispatch_of_digit (hr : lx.rest = c :: w) (hc : isDigit c = true) :
    lexerDispatch lx = ((lexerScanNumber lx).1,
      { (lexerScanNumber lx).2 with hasCurrent := (lexerScanNumber lx).1 }) := by
  have hq : ¬ (c = '\'' ∨ c = '"') := by rintro (rfl | rfl) <;> simp [isDigit] at hc
  rw [lexerDispatch, if_neg (by rw [← rest_eq_nil_iff, hr]; simp), lexerPeek_eq, hr]
  simp only [List.headD_cons, if_neg hq, if_pos hc]

theorem lexerDispatch_of_alpha (hr : lx.rest = c :: w) (hd : isDigit c = false) (ha : isAlpha c = true) :
    lexerDispatch lx = ((lexerScanIdentifier lx).1,
      { (lexerScanIdentifier lx).2 with hasCurrent := (lexerScanIdentifier lx).1 }) := by
  have hq : ¬ (c = '\'' ∨ c = '"') := by rintro (rfl | rfl) <;> simp [isAlpha] at ha
  rw [lexerDispatch, if_neg (by rw [← rest_eq_nil_iff, hr]; simp), lexerPeek_eq, hr]
  simp only [List.headD_cons, if_neg hq, hd, ha]; rfl

theorem lexerDispatch_of_operator (hr : lx.rest = c :: w) (hq : ¬ (c = '\'' ∨ c = '"'))
    (hd : isDigit c = false) (ha : isAlpha c = false) :
    lexerDispatch lx = ((lexerScanOperator lx).1,
      { (lexerScanOperator lx).2 with hasCurrent := (lexerScanOperator lx).1 }) := by
  rw [lexerDispatch, if_neg (by rw [← rest_eq_nil_iff, hr]; simp), lexerPeek_eq, hr]
  simp only [List.headD_cons, if_neg hq, hd, ha]; rfl

theorem lexerDispatch_of_quote (hr : lx.rest = c :: w) (hc : c = '\'' ∨ c = '"') :
    lexerDispatch lx = ((lexerScanString (lx.setType .SCONST)).1,
      { (lexerScanString (lx.setType .SCONST)).2 with hasCurrent := (lexerScanString (lx.setType .SCONST)).1 }) := by
  rw [lexerDispatch, if_neg (by rw [← rest_eq_nil_iff, hr]; simp), lexerPeek_eq, hr]
  simp only [List.headD_cons, if_pos hc]

end Dispatch

/-- `lexer_current_token`. -/
def lexerCurrentToken (lexer : Lexer) : Option Token :=
  if lexer.hasCurrent then some lexer.currentToken else none

/-- `lexer_error`. -/
def lexerError (lexer : Lexer) : Option String := lexer.errorMsg

end SqlParser
end MantisDB
