import MantisDB.SqlParser.LexerRun

/-!
# `parser_parse` and the lexer's error

`parser_create`, `parser_parse` and `parser_error` (`src/cgo/sql_parser.c`, lines
911-977), with `lexer_error` and `lexer_current_token`.  The parser only tokenizes: it
calls `lexer_next_token` until a call fails or returns `TOKEN_EOF`, and copies every
other token.  So a truncated token stream and a complete one differ only in the
error, and the lexer's error is reported exactly when a call failed:

* the lexer's error stays `NULL` until the first failed call, each failed call sets
  the message of its scanner, and a successful call sets nothing (`lexerRun_errorMsg_eq_none`);
* `parser_parse` returns copies of the tokens of the calls before the first `TOKEN_EOF`
  or failure, and `parser_error` is `NULL` exactly when the run reached `TOKEN_EOF`
  (`parserParse_tokens`);
* the loop ends: a call that produces a token consumes a byte (`lexerNextToken_rest_lt`),
  and a call at the end of the input returns `TOKEN_EOF` located at the cursor and
  leaves the cursor (`lexerNextToken_at_end`), so on `n` bytes the parser makes at most
  `n + 1` calls and returns at most `n` tokens (`parserParse_run`).  The `TOKEN_EOF`
  token's `offset` is an `int`, so at `2^31` bytes it wraps.
-/

namespace MantisDB
namespace SqlParser

/-- `Parser`: the lexer, `error_msg` and `parse_tree`.  `tokens`, `token_count` and
`token_pos` are set by `parser_create` only and read by nothing modelled. -/
structure Parser where
  lexer : Lexer
  errorMsg : Option String
  parseTree : Option (List Token)
  deriving DecidableEq, Repr

/-- `parser_create`. -/
def parserCreate (input : List Char) : Parser := ⟨lexerCreate input, none, none⟩

/-- `*token_copy = *token; if (token->value) token_copy->value = pstrdup(token->value);` -/
def Token.copy (t : Token) : Token := { t with value := t.value.map pstrdup }

/-- `parser_parse`: the tokens before the first `TOKEN_EOF` or failed call, which the
parser also keeps as its parse tree. -/
def parserParse (parser : Parser) : List Token × Parser :=
  let r := loop (parser.lexer.rest.length + 1) parser.lexer []
  (r.1, { parser with lexer := r.2, parseTree := some r.1 })
where
  /-- `while (lexer_next_token(lexer)) { ... }`, appending each copy to `tokens`.  A
  round that does not stop consumes a byte (`lexerNextToken_rest_lt`), so one more
  round than there are bytes left bounds the loop. -/
  loop : ℕ → Lexer → List Token → List Token × Lexer
  | 0, lexer, tokens => (tokens, lexer)
  | fuel + 1, lexer, tokens =>
    let r := lexerNextToken lexer
    if r.1 then
      match lexerCurrentToken r.2 with
      | none => (tokens, r.2)
      | some token =>
        if token.type = .EOF then (tokens, r.2)
        else loop fuel r.2 (tokens ++ [token.copy])
    else (tokens, r.2)

/-- `parser_error`: the parser's own message, or else the lexer's. -/
def parserError (parser : Parser) : Option String :=
  match parser.errorMsg with
  | some msg => some msg
  | none => lexerError parser.lexer

/-! ### The lexer's error over a run -/

section Error

theorem lexerRun_shift (lx : Lexer) : ∀ i, lexerRun (lexerNextToken lx).2 i = lexerRun lx (i + 1)
  | 0 => rfl
  | i + 1 => by rw [lexerRun_succ, lexerRun_shift lx i]; rfl

/-- The error of a run is `NULL` exactly while no call has failed. -/
theorem lexerRun_errorMsg_eq_none {lx : Lexer} (h : lx.errorMsg = none) : ∀ k,
    (lexerRun lx k).errorMsg = none ↔ ∀ i < k, (lexerNextToken (lexerRun lx i)).1 = true
  | 0 => by simpa using h
  | k + 1 => by
    rw [lexerRun_succ]
    cases hk : (lexerNextToken (lexerRun lx k)).1
    · obtain ⟨c, w, -, he⟩ := lexerNextToken_errorMsg_of_false hk
      simp only [he, reduceCtorEq, false_iff, not_forall]
      exact ⟨k, Nat.lt_succ_self k, by simp [hk]⟩
    · rw [lexerNextToken_errorMsg_of_true hk, lexerRun_errorMsg_eq_none h k]
      constructor
      · intro hi i hik
        rcases Nat.lt_succ_iff_lt_or_eq.1 hik with hik | rfl
        · exact hi i hik
        · exact hk
      · exact fun hi i hik => hi i (Nat.lt_succ_of_lt hik)

end Error

/-! ### The parse loop -/

section Loop

/-- Call `i` of the run from `lx` returned a token other than `TOKEN_EOF`. -/
def lexerRun.produced (lx : Lexer) (i : ℕ) : Prop :=
  (lexerNextToken (lexerRun lx i)).1 = true ∧ (lexerRun lx (i + 1)).currentToken.type ≠ .EOF

theorem lexerCurrentToken_of_true {lx : Lexer} (h : (lexerNextToken lx).1 = true) :
    lexerCurrentToken (lexerNextToken lx).2 = some (lexerNextToken lx).2.currentToken := by
  rw [lexerCurrentToken, if_pos ((lexerNextToken_result lx).hasCurrent.trans h)]

/-- **The loop appends the copies of the tokens of the calls before the first
`TOKEN_EOF` or failure**, given more rounds than bytes left, and stops on the state that
call left. -/
theorem parserParse_loop_eq : ∀ (fuel : ℕ) (lx : Lexer) (acc : List Token), lx.rest.length < fuel →
    ∃ m, (∀ i < m, lexerRun.produced lx i) ∧ ¬ lexerRun.produced lx m ∧
      parserParse.loop fuel lx acc =
        (acc ++ (List.range m).map fun i => (lexerRun lx (i + 1)).currentToken.copy, lexerRun lx (m + 1))
  | 0, _, _, h => absurd h (Nat.not_lt_zero _)
  | fuel + 1, lx, acc, hf => by
    have hstop : ∀ r, ¬ lexerRun.produced lx 0 → r = (acc, (lexerNextToken lx).2) →
        ∃ m, (∀ i < m, lexerRun.produced lx i) ∧ ¬ lexerRun.produced lx m ∧
          r = (acc ++ (List.range m).map fun i => (lexerRun lx (i + 1)).currentToken.copy,
            lexerRun lx (m + 1)) :=
      fun r hn hr => ⟨0, fun i hi => absurd hi (Nat.not_lt_zero i), hn, by simpa using hr⟩
    rw [parserParse.loop]
    cases h1 : (lexerNextToken lx).1
    · exact hstop _ (fun hp => by simp [lexerRun.produced, h1] at hp) rfl
    rw [if_pos rfl, lexerCurrentToken_of_true h1]
    dsimp only
    by_cases he : (lexerNextToken lx).2.currentToken.type = .EOF
    · exact hstop _ (fun hp => hp.2 he) (if_pos he)
    rw [if_neg he]
    obtain ⟨m, hpre, hm, heq⟩ := parserParse_loop_eq fuel (lexerNextToken lx).2 _
      (Nat.lt_of_lt_of_le (lexerNextToken_rest_lt h1 he) (Nat.lt_succ_iff.1 hf))
    have hprod : ∀ i, lexerRun.produced (lexerNextToken lx).2 i ↔ lexerRun.produced lx (i + 1) := by
      intro i; simp only [lexerRun.produced, lexerRun_shift]
    refine ⟨m + 1, fun i hi => ?_, (hprod m).not.1 hm, ?_⟩
    · rcases i with _ | i
      · exact ⟨h1, he⟩
      · exact (hprod i).1 (hpre i (Nat.lt_of_succ_lt_succ hi))
    · rw [heq, List.range_succ_eq_map, List.map_cons, List.map_map]
      simp [lexerRun_shift, Function.comp_def]
      rfl

end Loop

/-! ### What the parser returns -/

/-- A copy holds the same text. -/
theorem Token.copy_text (t : Token) : t.copy.text = t.text := by
  cases hv : t.value <;>
    simp [Token.copy, Token.text, hv, pstrdup_eq, Buf.cstr_append_nul (Buf.nul_not_mem_cstr _)]

/-- **The lexer's error, and what `parser_parse` returns.**  For every input: along the
run from `lexer_create`, `lexer_error` is `NULL` exactly until the first call that
returns false; a call that returns false sets the message of the scanner that failed
at the token's first byte, and a call that returns true sets nothing.  `parser_parse`
returns, in order, the copies of the tokens of the calls before the first call that
fails or returns `TOKEN_EOF`, and `parser_error` is then `NULL` exactly when that call
returned `TOKEN_EOF`. -/
theorem parserParse_tokens (input : List Char) :
    (∀ k, (lexerRun (lexerCreate input) k).errorMsg = none ↔
      ∀ i < k, (lexerNextToken (lexerRun (lexerCreate input) i)).1 = true) ∧
    (∀ lx : Lexer, ((lexerNextToken lx).1 = true → (lexerNextToken lx).2.errorMsg = lx.errorMsg) ∧
      ((lexerNextToken lx).1 = false → ∃ c w, (lexerNextToken.start lx).rest = c :: w ∧
        (lexerNextToken lx).2.errorMsg = some (scanMessage c))) ∧
    ∃ m, (∀ i < m, (lexerNextToken (lexerRun (lexerCreate input) i)).1 = true ∧
        (lexerRun (lexerCreate input) (i + 1)).currentToken.type ≠ .EOF) ∧
      ((lexerNextToken (lexerRun (lexerCreate input) m)).1 = false ∨
        (lexerRun (lexerCreate input) (m + 1)).currentToken.type = .EOF) ∧
      (parserParse (parserCreate input)).1 =
        (List.range m).map (fun i => (lexerRun (lexerCreate input) (i + 1)).currentToken.copy) ∧
      (parserError (parserParse (parserCreate input)).2 = none ↔
        (lexerNextToken (lexerRun (lexerCreate input) m)).1 = true ∧
          (lexerRun (lexerCreate input) (m + 1)).currentToken.type = .EOF) := by
  have herr := @lexerRun_errorMsg_eq_none (lexerCreate input) rfl
  refine ⟨herr, fun lx => ⟨lexerNextToken_errorMsg_of_true, lexerNextToken_errorMsg_of_false⟩, ?_⟩
  obtain ⟨m, hpre, hm, heq⟩ := parserParse_loop_eq ((lexerCreate input).rest.length + 1) (lexerCreate input) []
    (Nat.lt_succ_self _)
  have hstop : (lexerNextToken (lexerRun (lexerCreate input) m)).1 = false ∨
      (lexerRun (lexerCreate input) (m + 1)).currentToken.type = .EOF := by
    by_contra h
    simp only [not_or, Bool.not_eq_false] at h
    exact hm h
  refine ⟨m, hpre, hstop, by simp [parserParse, parserCreate, heq], ?_⟩
  have hE : parserError (parserParse (parserCreate input)).2 = (lexerRun (lexerCreate input) (m + 1)).errorMsg := by
    simp [parserParse, parserCreate, heq, parserError, lexerError]
  rw [hE, herr]
  constructor
  · intro h
    have hm1 := h m (Nat.lt_succ_self m)
    exact ⟨hm1, hstop.resolve_left (by simp [hm1])⟩
  · intro h i hi
    rcases Nat.lt_succ_iff_lt_or_eq.1 hi with hi | rfl
    · exact (hpre i hi).1
    · exact h.1

/-! ### Termination -/

section Termination

variable {lx : Lexer}

theorem lexerAdvanceN_of_rest_nil (h : lx.rest = []) : ∀ k, lexerAdvanceN k lx = lx
  | 0 => rfl
  | k + 1 => by rw [lexerAdvanceN, lexerAdvance_of_rest_nil h, lexerAdvanceN_of_rest_nil h k]

/-- At the end of the input a call only sets `TOKEN_EOF`: the cursor stays, and the
location is the cursor, `offset` as an `int`. -/
theorem lexerNextToken_at_end (hp : lx.input.length ≤ lx.pos) :
    (lexerNextToken lx).1 = true ∧ (lexerNextToken lx).2.currentToken.type = .EOF ∧
      (lexerNextToken lx).2.currentToken.location = ⟨lx.line, lx.column, int32 lx.pos⟩ ∧
      (lexerNextToken lx).2.pos = lx.pos ∧ (lexerNextToken lx).2.line = lx.line ∧
      (lexerNextToken lx).2.column = lx.column := by
  have hr : lx.rest = [] := (rest_eq_nil_iff lx).2 hp
  obtain ⟨k, t, b, e, hk⟩ := lexerNextToken_start_moved lx
  have hS : lexerNextToken.start lx = { lx with currentToken := t, hasCurrent := b, errorMsg := e } := by
    rw [hk, lexerAdvanceN_of_rest_nil hr]
  have hSr : (lexerNextToken.start lx).rest = [] := by rw [hS, Lexer.rest_with, hr]
  have hloc := lexerNextToken_start_location lx
  rw [hS] at hloc
  rw [lexerNextToken, lexerDispatch_of_rest_nil hSr, hS]
  exact ⟨rfl, rfl, hloc, rfl, rfl, rfl⟩

/-- While the calls produce tokens, each consumes a byte: after `i` of them at most
`n - i` bytes are left. -/
theorem lexerRun_rest_length_add (lx : Lexer) : ∀ i, (∀ j < i, lexerRun.produced lx j) →
    (lexerRun lx i).rest.length + i ≤ lx.rest.length
  | 0, _ => le_refl _
  | i + 1, h => by
    have ih := lexerRun_rest_length_add lx i fun j hj => h j (Nat.lt_succ_of_lt hj)
    have hlt := lexerNextToken_rest_lt (h i (Nat.lt_succ_self i)).1 (h i (Nat.lt_succ_self i)).2
    rw [lexerRun_succ]
    omega

/-- The first call of a run that does not produce a token is unique. -/
theorem lexerRun_first_stop_unique {m m' : ℕ} (hm : (∀ i < m, lexerRun.produced lx i) ∧ ¬ lexerRun.produced lx m)
    (hm' : (∀ i < m', lexerRun.produced lx i) ∧ ¬ lexerRun.produced lx m') : m = m' := by
  rcases Nat.lt_trichotomy m m' with h | h | h
  · exact absurd (hm'.1 m h) hm.2
  · exact h
  · exact absurd (hm.1 m' h) hm'.2

/-- `parser_parse` stops at the first call `m` that does not produce a token, `m` at most
the input's length, and returns the copies of the `m` tokens before it. -/
theorem parserParse_run (input : List Char) :
    ∃ m ≤ input.length, (∀ i < m, lexerRun.produced (lexerCreate input) i) ∧
      ¬ lexerRun.produced (lexerCreate input) m ∧
      (parserParse (parserCreate input)).1 =
        (List.range m).map (fun i => (lexerRun (lexerCreate input) (i + 1)).currentToken.copy) ∧
      (parserParse (parserCreate input)).2.lexer = lexerRun (lexerCreate input) (m + 1) := by
  obtain ⟨m, hpre, hm, heq⟩ := parserParse_loop_eq ((lexerCreate input).rest.length + 1) (lexerCreate input) []
    (Nat.lt_succ_self _)
  have hle := lexerRun_rest_length_add (lexerCreate input) m hpre
  have hn : (lexerCreate input).rest.length = input.length := rfl
  exact ⟨m, by omega, hpre, hm, by simp [parserParse, parserCreate, heq], by simp [parserParse, parserCreate, heq]⟩

end Termination

/-- **`parser_parse` terminates.**  Every call of `lexer_next_token` that returns a token
other than `TOKEN_EOF` moves `pos` on; a call made at `pos = n` returns `TOKEN_EOF`,
located at the cursor (the lexer's `line` and `column`, and the `int` of `n` as its
`offset`), and leaves `pos`, `line` and `column`.  So on every input of `n` bytes the first call that fails or returns `TOKEN_EOF`
is call `m ≤ n`: `parser_parse` stops after `m + 1 ≤ n + 1` calls with `m ≤ n` tokens, and
its loop gives that result for every bound above `n`. -/
theorem parserParse_terminates (input : List Char) :
    (∀ lx : Lexer, (lexerNextToken lx).1 = true → (lexerNextToken lx).2.currentToken.type ≠ .EOF →
      lx.pos < (lexerNextToken lx).2.pos) ∧
    (∀ lx : Lexer, lx.pos = lx.input.length →
      (lexerNextToken lx).1 = true ∧ (lexerNextToken lx).2.currentToken.type = .EOF ∧
      (lexerNextToken lx).2.currentToken.location = ⟨lx.line, lx.column, int32 lx.input.length⟩ ∧
      (lexerNextToken lx).2.pos = lx.pos ∧ (lexerNextToken lx).2.line = lx.line ∧
      (lexerNextToken lx).2.column = lx.column) ∧
    ∃ m ≤ input.length, (∀ i < m, lexerRun.produced (lexerCreate input) i) ∧
      ¬ lexerRun.produced (lexerCreate input) m ∧
      (parserParse (parserCreate input)).2.lexer = lexerRun (lexerCreate input) (m + 1) ∧
      (parserParse (parserCreate input)).1.length = m ∧
      ∀ fuel, input.length < fuel → parserParse.loop fuel (lexerCreate input) [] =
        ((parserParse (parserCreate input)).1, (parserParse (parserCreate input)).2.lexer) := by
  refine ⟨fun lx h he => ?_, fun lx hp => ?_, ?_⟩
  · have hlt := lexerNextToken_rest_lt h he
    obtain ⟨k, hk⟩ := lexerNextToken_moved lx
    simp only [Lexer.rest, List.length_drop, hk.input] at hlt
    omega
  · obtain ⟨h1, he, hloc, hpos, hl, hc⟩ := lexerNextToken_at_end hp.ge
    exact ⟨h1, he, by rw [hloc, hp], hpos, hl, hc⟩
  · obtain ⟨m, hle, hpre, hm, htok, hlex⟩ := parserParse_run input
    refine ⟨m, hle, hpre, hm, hlex, by simp [htok], fun fuel hf => ?_⟩
    obtain ⟨m', hpre', hm', heq'⟩ := parserParse_loop_eq fuel (lexerCreate input) [] hf
    obtain rfl := lexerRun_first_stop_unique ⟨hpre', hm'⟩ ⟨hpre, hm⟩
    rw [heq', htok, hlex, List.nil_append]

/-- At the end of `2^31` blank bytes a call returns `TOKEN_EOF` at `offset` `INT_MIN`:
`2^31` does not fit the `int` field. -/
theorem lexerNextToken_eof_offset_wrap :
    (lexerRun (lexerCreate (List.replicate (2 ^ 31) ' ')) 1).pos =
      (List.replicate (2 ^ 31) ' ').length ∧
    (lexerNextToken (lexerRun (lexerCreate (List.replicate (2 ^ 31) ' ')) 1)).2.currentToken.type = .EOF ∧
    (lexerNextToken (lexerRun (lexerCreate (List.replicate (2 ^ 31) ' ')) 1)).2.currentToken.location.offset =
      -2 ^ 31 := by
  have hp : (lexerRun (lexerCreate (List.replicate (2 ^ 31) ' ')) 1).pos =
      (List.replicate (2 ^ 31) ' ').length := by
    rw [lexerRun_succ, lexerRun_zero, lexerNextToken_pos_of_space (Nat.zero_le _), lexerCreate_input]
    intro c hc
    rw [List.eq_of_mem_replicate (List.mem_of_mem_drop hc)]; rfl
  have hin : (lexerRun (lexerCreate (List.replicate (2 ^ 31) ' ')) 1).input = List.replicate (2 ^ 31) ' ' := by
    rw [lexerRun_input, lexerCreate_input]
  obtain ⟨-, he, hloc, -⟩ := lexerNextToken_at_end (by rw [hin, hp])
  refine ⟨hp, he, ?_⟩
  rw [hloc, hp, List.length_replicate, int32]
  rfl

end SqlParser
end MantisDB
