import MantisDB.CInt
import Mathlib.Data.List.Basic

/-!
# Tokens, heap blocks and the lexer state

`src/cgo/sql_parser.h` (`TokenType`, `Location`, `Token`, `Lexer`) and the
helpers at the top of `src/cgo/sql_parser.c` (`palloc`, `pstrdup`,
`lexer_create`, `lexer_set_error`, `lexer_peek`, `lexer_advance` and the
character classes).

The input is the byte buffer `input[0, input_len)`, a `List Char` whose length is
`input_len`; bytes are the characters below 256, and every character class of the
scanner only asks for ASCII ranges, so a byte at or above 128 falls in none of them
whatever its C signedness.  `pos` is a `size_t` and never exceeds `input_len`, so
it is a natural number.  `line`, `column` and the three `Location` fields are C
`int`s: every value they take goes through `int32`.

A token's `value` is a block from `palloc`, modelled by `Buf`: its cells are the
`data`, a write outside them is dropped and recorded in `overflow`.  The union
`data` of a `Token` keeps only its integer member `ival`: the `fval` that
`lexer_scan_number` stores with `strtod` is a floating-point value and is not
modelled, and nothing in the lexer or the parser reads it back.
-/

namespace MantisDB
namespace SqlParser

/-- `TokenType`, restricted to the kinds `lexer_next_token` can produce, in the order
of `sql_parser.h`; the four kinds the keyword table names but the header does not
declare come last. -/
inductive TokenType
  | EOF | ICONST | FCONST | SCONST | PARAM | IDENT | TYPECAST
  | DOT | COMMA | SEMICOLON | COLON | PLUS | MINUS | MULTIPLY | DIVIDE | MODULO | POWER
  | LT | LE | GT | GE | EQ | NE | CONCAT | LSHIFT | RSHIFT | BITAND | BITOR | BITXOR
  | REGEX_MATCH | REGEX_IMATCH | REGEX_NMATCH | REGEX_INMATCH
  | JSON_EXTRACT | JSON_EXTRACT_TEXT | JSON_PATH | JSON_PATH_TEXT
  | LPAREN | RPAREN | LBRACKET | RBRACKET | LBRACE | RBRACE
  | SELECT | FROM | WHERE | INSERT | UPDATE | DELETE | CREATE | DROP | ALTER | TABLE
  | INDEX | VIEW | FUNCTION | PROCEDURE | TRIGGER | SCHEMA | DATABASE | WITH | RECURSIVE
  | AS | DISTINCT | ALL | ANY | SOME | EXISTS | IN | BETWEEN | LIKE | ILIKE | SIMILAR | IS
  | NULL_P | TRUE_P | FALSE_P | AND | OR | NOT | CASE | WHEN | THEN | ELSE | END_P | IF_P
  | JOIN | INNER_P | LEFT | RIGHT | OUTER_P | CROSS | NATURAL | ON | USING | GROUP_P | BY
  | HAVING | ORDER | ASC | DESC | LIMIT | OFFSET | UNION | INTERSECT | EXCEPT | WINDOW
  | PARTITION | OVER | RANGE | ROWS | UNBOUNDED | PRECEDING | FOLLOWING | CURRENT_P | ROW
  | CAST | EXTRACT | OVERLAY | POSITION | SUBSTRING | TRIM | LEADING | TRAILING | BOTH
  | COLLATE | CONSTRAINT | DEFAULT | CHECK | PRIMARY | KEY | UNIQUE | FOREIGN | REFERENCES
  | MATCH | PARTIAL | FULL_P | CASCADE | RESTRICT | SET | ACTION | NO | DEFERRABLE
  | INITIALLY | DEFERRED | IMMEDIATE | TEMPORARY | TEMP | LOCAL | COMMIT | ROLLBACK | WORK
  | TRANSACTION | BEGIN_P | START | LEVEL | READ | WRITE | ONLY | SERIALIZABLE | COMMITTED
  | UNCOMMITTED | EXPLAIN | GRANT | REVOKE | ROLE | USER | PUBLIC | EXECUTE | TRUNCATE
  | VACUUM | ANALYZE_P | REINDEX | CLUSTER | COPY | BOOLEAN | CHAR_P | CHARACTER | VARCHAR
  | TEXT | SMALLINT | INTEGER | BIGINT | REAL | DOUBLE_P | PRECISION | DECIMAL_P | NUMERIC
  | DATE | TIME | TIMESTAMP | INTERVAL | BIT | JSON | JSONB | ARRAY
  /-- Modelled from the spec: `TOKEN_FOR` is named by the keyword table but declared
  nowhere in `src/`; a reserved-word kind of its own. -/
  | FOR
  /-- Modelled from the spec: `TOKEN_COALESCE_EXPR`, named by the keyword table only. -/
  | COALESCE_EXPR
  /-- Modelled from the spec: `TOKEN_COLUMN_REF`, named by the keyword table only. -/
  | COLUMN_REF
  /-- Modelled from the spec: `TOKEN_INTO_CLAUSE`, named by the keyword table only. -/
  | INTO_CLAUSE
  deriving DecidableEq, Repr, Inhabited

/-- `Location`: line, column and byte offset, three `int`s. -/
structure Location where
  line : ℤ
  column : ℤ
  offset : ℤ
  deriving DecidableEq, Repr

/-- A block from `palloc`: its cells are `data`; a write outside them is dropped and
sets `overflow`.  The cells `palloc` leaves uninitialised are NUL bytes here. -/
structure Buf where
  data : List Char
  overflow : Bool
  deriving DecidableEq, Repr

/-- `palloc(size)`. -/
def palloc (size : ℕ) : Buf := ⟨List.replicate size '\x00', false⟩

/-- `b[i] = c`, bounds-checked. -/
def Buf.write (b : Buf) (i : ℕ) (c : Char) : Buf :=
  if i < b.data.length then { b with data := b.data.set i c } else { b with overflow := true }

/-- `memcpy(b + off, src, src.length)`: one write per byte, in order. -/
def Buf.memcpy (b : Buf) (off : ℕ) : List Char → Buf
  | [] => b
  | c :: cs => (b.write off c).memcpy (off + 1) cs

/-- The C string a block holds: its bytes up to the first NUL. -/
def Buf.cstr (b : Buf) : List Char := b.data.takeWhile (· != '\x00')

/-- `pstrdup`: a fresh block of `strlen + 1` bytes holding the string and its NUL. -/
def pstrdup (b : Buf) : Buf := (palloc (b.cstr.length + 1)).memcpy 0 (b.cstr ++ ['\x00'])

@[simp] theorem Buf.write_data_length (b : Buf) (i : ℕ) (c : Char) :
    (b.write i c).data.length = b.data.length := by
  unfold Buf.write; split <;> simp

@[simp] theorem Buf.memcpy_data_length (b : Buf) (off : ℕ) (src : List Char) :
    (b.memcpy off src).data.length = b.data.length := by
  induction src generalizing b off <;> simp [Buf.memcpy, *]

/-- `memcpy` into cells that are there writes exactly the source over them. -/
theorem Buf.memcpy_eq (o : Bool) (src : List Char) :
    ∀ (pre mid post : List Char), mid.length = src.length →
      (⟨pre ++ mid ++ post, o⟩ : Buf).memcpy pre.length src = ⟨pre ++ src ++ post, o⟩ := by
  induction src with
  | nil => intro pre mid post h; rw [List.length_eq_zero.1 h]; rfl
  | cons c src ih =>
    intro pre mid post h
    obtain ⟨m, mid, rfl⟩ := List.exists_cons_of_length_eq_add_one h
    have hw : (⟨pre ++ m :: mid ++ post, o⟩ : Buf).write pre.length c = ⟨pre ++ [c] ++ mid ++ post, o⟩ := by
      simp [Buf.write, List.set_append_right]
    rw [Buf.memcpy, hw, ← List.length_singleton (a := c), ← List.length_append,
      ih _ _ _ (by simpa using h)]
    simp

/-- The block `palloc(n + 1)` after `memcpy` of `n` bytes and a NUL at `n`. -/
theorem palloc_memcpy_write (src : List Char) :
    ((palloc (src.length + 1)).memcpy 0 src).write src.length '\x00' = ⟨src ++ ['\x00'], false⟩ := by
  have h := Buf.memcpy_eq false src [] (List.replicate src.length '\x00') ['\x00'] (by simp)
  simp only [List.nil_append, List.length_nil] at h
  rw [palloc, List.replicate_succ', h]
  simp [Buf.write, List.set_append_right]

/-- `strtoll(s, NULL, 10)`: white space, an optional sign, the longest run of decimal
digits; a value outside `long long` saturates to `LLONG_MAX` or `LLONG_MIN`. -/
def strtoll (s : List Char) : ℤ :=
  let s := s.dropWhile fun c => c == ' ' || ('\t' ≤ c && c ≤ '\r')
  let (neg, s) := match s with
    | '-' :: t => (true, t)
    | '+' :: t => (false, t)
    | _ => (false, s)
  let n : ℤ := (s.takeWhile fun c => '0' ≤ c && c ≤ '9').foldl (fun acc d => 10 * acc + (d.toNat - 48)) 0
  if neg then max (-n) (-2 ^ 63) else min n (2 ^ 63 - 1)

/-- A block that holds a string without NUL bytes and its NUL holds that C string. -/
theorem Buf.cstr_append_nul {l : List Char} (h : '\x00' ∉ l) (o : Bool) :
    (⟨l ++ ['\x00'], o⟩ : Buf).cstr = l := by
  have hp : ∀ x ∈ l, (x != '\x00') = true := fun x hx => bne_iff_ne.2 fun e => h (e ▸ hx)
  simp [Buf.cstr, List.takeWhile_append_of_pos hp]

theorem Buf.nul_not_mem_cstr (b : Buf) : '\x00' ∉ b.cstr := fun h => by
  simpa using List.mem_takeWhile_imp h

/-- `pstrdup` copies the C string. -/
theorem pstrdup_eq (b : Buf) : pstrdup b = ⟨b.cstr ++ ['\x00'], false⟩ := by
  have h := Buf.memcpy_eq false (b.cstr ++ ['\x00']) [] (List.replicate (b.cstr.length + 1) '\x00') []
    (by simp)
  simpa [pstrdup, palloc] using h

/-- `Token`.  `data.fval` and `data.bval` are not modelled (see the module header). -/
structure Token where
  type : TokenType
  value : Option Buf
  length : ℕ
  location : Location
  ival : ℤ
  deriving DecidableEq, Repr

/-- The C string the token's value holds, what `strtoll` and `pstrdup` read. -/
def Token.text (t : Token) : List Char := (t.value.map Buf.cstr).getD []

/-- `token->value = palloc(len + 1); memcpy(token->value, input + start, len);
token->value[len] = '\0'; token->length = len;` — the text of a token copied out of
the input, in `lexer_scan_string`, `lexer_scan_number` and `lexer_scan_identifier`. -/
def Token.setText (t : Token) (input : List Char) (start len : ℕ) : Token :=
  { t with
    value := some (((palloc (len + 1)).memcpy 0 ((input.drop start).take len)).write len '\x00')
    length := len }

theorem Token.setText_value (t : Token) {input : List Char} {start len : ℕ}
    (h : start + len ≤ input.length) :
    (t.setText input start len).value = some ⟨(input.drop start).take len ++ ['\x00'], false⟩ := by
  have key := palloc_memcpy_write ((input.drop start).take len)
  rw [show ((input.drop start).take len).length = len by simp; omega] at key
  simp only [Token.setText, key]

/-- A copy of bytes without NUL: the token's text is the bytes copied. -/
theorem Token.setText_text (t : Token) {input : List Char} {start len : ℕ}
    (h : start + len ≤ input.length) (h0 : '\x00' ∉ (input.drop start).take len) :
    (t.setText input start len).text = (input.drop start).take len := by
  rw [Token.text, Token.setText_value t h, Option.map_some', Option.getD_some, Buf.cstr_append_nul h0]

/-- The token `palloc0` leaves in a fresh `Lexer`: every field zero. -/
def Token.zero : Token := ⟨.EOF, none, 0, ⟨0, 0, 0⟩, 0⟩

/-- `Lexer`; `input_len` is `input.length`. -/
structure Lexer where
  input : List Char
  pos : ℕ
  line : ℤ
  column : ℤ
  currentToken : Token
  hasCurrent : Bool
  errorMsg : Option String
  deriving DecidableEq, Repr

/-- `lexer_create`. -/
def lexerCreate (input : List Char) : Lexer :=
  ⟨input, 0, 1, 1, Token.zero, false, none⟩

/-- `lexer_set_error`: the message replaces the previous one. -/
def lexerSetError (lexer : Lexer) (msg : String) : Lexer :=
  { lexer with errorMsg := some msg }

/-- `lexer_peek`: the byte at `pos`, NUL past the end. -/
def lexerPeek (lexer : Lexer) : Char := (lexer.input[lexer.pos]?).getD '\x00'

/-- `lexer_advance`, on the state; the byte it returns is `lexerPeek` of the state it
is given.  Past the end it does nothing. -/
def lexerAdvance (lexer : Lexer) : Lexer :=
  match lexer.input[lexer.pos]? with
  | none => lexer
  | some c =>
    if c = '\n' then { lexer with pos := lexer.pos + 1, line := int32 (lexer.line + 1), column := 1 }
    else { lexer with pos := lexer.pos + 1, column := int32 (lexer.column + 1) }

/-- `is_alpha`. -/
def isAlpha (c : Char) : Bool := ('a' ≤ c && c ≤ 'z') || ('A' ≤ c && c ≤ 'Z') || c == '_'

/-- `is_digit`. -/
def isDigit (c : Char) : Bool := '0' ≤ c && c ≤ '9'

/-- `is_alnum`. -/
def isAlnum (c : Char) : Bool := isAlpha c || isDigit c

/-- `is_space`. -/
def isSpace (c : Char) : Bool :=
  c == ' ' || c == '\t' || c == '\n' || c == '\r' || c == '\x0c'

end SqlParser
end MantisDB
