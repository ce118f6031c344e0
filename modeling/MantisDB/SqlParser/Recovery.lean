import MantisDB.SqlParser.Parser

/-!
# Calls after a failure

`lexer_next_token` is in the interface of `src/cgo/sql_parser.h`, and nothing stops a
caller from calling it again after a call that returned `false`, which `parser_parse`
never does.  A failed call leaves the cursor past the bytes its scanner consumed
(`lexerDispatch_fail_rest`):

* at a quote with no closing quote, the whole rest of the input;
* at a number whose `e`/`E` and sign no digit follows, the digits, the fraction, the
  `e`/`E` and the sign;
* at a byte no operator starts with (`!` without `=` or `~`, `$` without a digit, or
  any other byte no scanner takes), that byte.

So every call that does not return `TOKEN_EOF` consumes a byte, one at the end of the
input returns `TOKEN_EOF` and stays there, and every run of calls from `lexer_create`,
whatever each call returns, returns `TOKEN_EOF` from call `n + 1` on, `n` the length of
the input (`lexerRun_eof`).
-/

namespace MantisDB
namespace SqlParser

/-- What a failed call leaves of the input `v` after its skip phase: nothing after an
opening quote, the bytes after the `e`/`E` and its sign after a number, and the bytes
after the first one otherwise. -/
def failRest : List Char → List Char
  | [] => []
  | c :: w =>
    if c = '\'' ∨ c = '"' then []
    else if isDigit c then (numberAfter (c :: w)).drop (1 + (signAt (numberAfter (c :: w)).tail).length)
    else w

theorem failRest_length_lt (c : Char) (w : List Char) : (failRest (c :: w)).length < (c :: w).length := by
  have hn : (numberAfter (c :: w)).length ≤ (c :: w).length := by
    simp only [numberAfter, List.length_drop]
    exact (Nat.sub_le _ _).trans (List.dropWhile_suffix _).length_le
  rw [failRest]
  split_ifs
  · simp
  · rw [List.length_drop, List.length_cons] at *; omega
  · simp

/-- A failing `switch` of `lexer_scan_operator` sets its message on the lexer past `c`
and moves nothing. -/
theorem lexerScanOperator_switch_fail {c next : Char} {L : Lexer}
    (h : (lexerScanOperator.switch c next L).1 = false) :
    (lexerScanOperator.switch c next L).2 = lexerSetError L (operatorMessage c) := by
  revert h
  rw [lexerScanOperator.switch.eq_def]
  dsimp only
  split <;> (try split_ifs) <;> first
    | exact fun _ => rfl
    | exact fun h => Bool.noConfusion h
    | exact False.elim
    | exact fun _ => by rw [operatorMessage, if_neg (by assumption), if_neg (by assumption)]

section Calls

variable {lx L : Lexer}

theorem rest_with_hasCurrent (L : Lexer) (b : Bool) : { L with hasCurrent := b }.rest = L.rest := rfl

/-- The dispatch, when it fails, leaves what `failRest` leaves of its input. -/
theorem lexerDispatch_fail_rest (h : (lexerDispatch L).1 = false) :
    (lexerDispatch L).2.rest = failRest L.rest := by
  cases hr : L.rest with
  | nil => rw [lexerDispatch_of_rest_nil hr] at h; cases h
  | cons c w =>
    by_cases hq : c = '\'' ∨ c = '"'
    · by_cases hs : ∃ b r, StringSplit c w b r
      · obtain ⟨b, r, hs⟩ := hs
        rw [(lexerDispatch_string_ok hq hr hs).1] at h; cases h
      · have hm := (lexerDispatch_string_fail hq hr fun b r h' => hs ⟨b, r, h'⟩).2.1
        rw [hm.rest, hr, failRest, if_pos hq]
        simp
    by_cases hd : isDigit c = true
    · rw [lexerDispatch_of_digit hr hd] at h ⊢
      rw [rest_with_hasCurrent]
      cases he : exponentAt (numberAfter L.rest) with
      | some e => rw [lexerScanNumber_of_some he] at h; cases h
      | none =>
        rw [lexerScanNumber_eq, lexerScanNumber_exponent, rest_number, he]
        show (lexerAdvanceN _ _).rest = _
        rw [rest_lexerAdvanceN, rest_number, failRest, if_neg hq, if_pos hd, hr]
    by_cases ha : isAlpha c = true
    · rw [lexerDispatch_of_alpha hr (by simpa using hd) ha, lexerScanIdentifier_of_alpha hr ha] at h; cases h
    obtain ⟨L', hS, heq⟩ := lexerScanOperator_switch hr
    rw [lexerDispatch_of_operator hr hq (by simpa using hd) (by simpa using ha), heq] at h ⊢
    rw [rest_with_hasCurrent, lexerScanOperator_switch_fail h]
    show L'.rest = _
    rw [hS.rest hr, failRest, if_neg hq, if_neg hd]

/-- **A failed call.**  For every lexer state, a call of `lexer_next_token` that returns
`false` failed at the first byte `c` its skip phase left, set the message of the scanner
of `c`, and leaves unconsumed what `failRest` leaves: nothing after a quote, the bytes
after the exponent marker and its sign after a number, and the bytes after `c`
otherwise. -/
theorem lexerNextToken_fail (h : (lexerNextToken lx).1 = false) :
    ∃ c w, skipRest lx.rest = c :: w ∧ (lexerNextToken lx).2.errorMsg = some (scanMessage c) ∧
      (lexerNextToken lx).2.rest = failRest (c :: w) := by
  obtain ⟨c, w, hcw, he⟩ := lexerNextToken_errorMsg_of_false h
  rw [lexerNextToken_start_rest] at hcw
  refine ⟨c, w, hcw, he, ?_⟩
  rw [← hcw, ← lexerNextToken_start_rest]
  exact lexerDispatch_fail_rest h

theorem lexerNextToken_fail_number :
    (lexerNextToken (lexerCreate "1e+ x".toList)).1 = false ∧
    ∃ c w, skipRest (lexerCreate "1e+ x".toList).rest = c :: w ∧
      (lexerNextToken (lexerCreate "1e+ x".toList)).2.errorMsg = some (scanMessage c) ∧
      (lexerNextToken (lexerCreate "1e+ x".toList)).2.rest = failRest (c :: w) :=
  ⟨by decide, lexerNextToken_fail (by decide)⟩

/-- A call returns `TOKEN_EOF` with `true`. -/
def ReturnsEof (lx : Lexer) : Prop :=
  (lexerNextToken lx).1 = true ∧ (lexerNextToken lx).2.currentToken.type = .EOF

/-- A call that does not return `TOKEN_EOF` consumes a byte, whether it returns a token
or fails. -/
theorem lexerNextToken_rest_lt_of_not_eof (h : ¬ ReturnsEof lx) :
    (lexerNextToken lx).2.rest.length < lx.rest.length := by
  cases h1 : (lexerNextToken lx).1
  · obtain ⟨c, w, hcw, -⟩ := lexerNextToken_errorMsg_of_false h1
    obtain ⟨k, hk⟩ := lexerNextToken_start_moved lx
    have hle : (c :: w).length ≤ lx.rest.length := by
      rw [← hcw, hk.rest, List.length_drop]; exact Nat.sub_le _ _
    have hr : (lexerNextToken lx).2.rest = failRest (c :: w) := hcw ▸ lexerDispatch_fail_rest h1
    rw [hr]
    exact (failRest_length_lt c w).trans_le hle
  · exact lexerNextToken_rest_lt h1 fun he => h ⟨h1, he⟩

/-- At the end of the input a call returns `TOKEN_EOF`. -/
theorem returnsEof_of_rest_nil (hr : lx.rest = []) : ReturnsEof lx :=
  (lexerNextToken_eof_iff lx).2 (by
    rw [lexerNextToken_start_rest, hr, skipRest_of_stop (by simp) (by simp)]; rfl)

/-- A call that returns `TOKEN_EOF` leaves nothing unconsumed. -/
theorem rest_of_returnsEof (h : ReturnsEof lx) : (lexerNextToken lx).2.rest = [] := by
  obtain ⟨k, hk⟩ := (lexerNextToken_result lx).moved
  rw [hk.rest, (lexerNextToken_eof_iff lx).1 h, List.drop_nil]

/-- Call `m` of a run returns `TOKEN_EOF`, or each of the `m` calls before it consumed a
byte. -/
theorem lexerRun_returnsEof_or (lx : Lexer) :
    ∀ m, ReturnsEof (lexerRun lx m) ∨ (lexerRun lx m).rest.length + m ≤ lx.rest.length
  | 0 => .inr le_rfl
  | m + 1 => by
    rw [lexerRun_succ]
    by_cases he : ReturnsEof (lexerRun lx m)
    · exact .inl (returnsEof_of_rest_nil (rest_of_returnsEof he))
    · have hlt := lexerNextToken_rest_lt_of_not_eof he
      have hle := (lexerRun_returnsEof_or lx m).resolve_left he
      exact .inr (by omega)

end Calls

/-- **Every run of calls reaches `TOKEN_EOF`.**  For every input of `n` bytes, a caller
that calls `lexer_next_token` again and again from `lexer_create`, going on after
failed calls, gets `true` and `TOKEN_EOF` from call `n + 1` on. -/
theorem lexerRun_eof (input : List Char) (m : ℕ) (hm : input.length ≤ m) :
    (lexerNextToken (lexerRun (lexerCreate input) m)).1 = true ∧
      (lexerNextToken (lexerRun (lexerCreate input) m)).2.currentToken.type = .EOF := by
  have hn : (lexerCreate input).rest.length = input.length := rfl
  rcases lexerRun_returnsEof_or (lexerCreate input) m with he | hle
  · exact he
  · exact returnsEof_of_rest_nil (List.length_eq_zero.1 (by omega))

theorem lexerRun_eof_after_failures :
    "1e+ ! x".toList.length ≤ 7 ∧
    ((lexerNextToken (lexerRun (lexerCreate "1e+ ! x".toList) 7)).1 = true ∧
      (lexerNextToken (lexerRun (lexerCreate "1e+ ! x".toList) 7)).2.currentToken.type = .EOF) :=
  ⟨by decide, lexerRun_eof _ _ (by decide)⟩

end SqlParser
end MantisDB
