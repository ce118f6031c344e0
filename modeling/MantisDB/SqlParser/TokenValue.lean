import MantisDB.SqlParser.NextToken
import Mathlib.Data.Nat.Digits

/-!
# What a token's value block and integer hold

The blocks `lexer_next_token`'s scanners write the token's text into, and the
`data.ival` of `TOKEN_ICONST` and `TOKEN_PARAM` (`src/cgo/sql_parser.c`, lines
354-707).

| scanner | block | bytes written | `ival` |
| --- | --- | --- | --- |
| string, number, identifier | `palloc(length + 1)` | `0 .. length` | `strtoll(value)` for `TOKEN_ICONST` |
| operator, one or two bytes | `palloc(3)` | `0 .. length` | |
| operator, three bytes | `palloc(3)` | `0 .. 3` | |
| parameter `$ D+` | `palloc(length + 1)` | `0 .. length` | `strtoll(value + 1)` |

A write lands in the block exactly when its index is below the block's size
(`Buf.write_overflow`, `Buf.memcpy_overflow`), so after every call that returns `true`
the block has been written past its end exactly when the token is one of the three
three-byte operators `->>`, `#>>`, `!~*` (`lexerNextToken_overflow`).

The integer of `TOKEN_ICONST` and `TOKEN_PARAM` is `strtoll` of a run of decimal digits:
their decimal value (`decimalValue`, through `Nat.ofDigits`) cut at `LLONG_MAX`
(`strtoll_of_digits`).  The number scanner takes digit runs of any length, so a
numeral above `2^63 - 1` is stored as `LLONG_MAX` (`lexerNextToken_ival`).
-/

namespace MantisDB
namespace SqlParser

/-! ### Writes inside and outside a block -/

/-- `b[i] = c` lands outside the block exactly when `i` is not below its size. -/
theorem Buf.write_overflow (b : Buf) (i : ℕ) (c : Char) :
    (b.write i c).overflow = (b.overflow || decide (b.data.length ≤ i)) := by
  unfold Buf.write
  split_ifs with h
  · simp [Nat.not_le.2 h]
  · simp [Nat.not_lt.1 h]

/-- A `memcpy` lands outside the block exactly when it copies something and ends past
the block's end. -/
theorem Buf.memcpy_overflow (b : Buf) (off : ℕ) (src : List Char) :
    (b.memcpy off src).overflow =
      (b.overflow || decide (src ≠ [] ∧ b.data.length < off + src.length)) := by
  induction src generalizing b off with
  | nil => simp [Buf.memcpy]
  | cons c s ih =>
    rw [Buf.memcpy, ih, Buf.write_overflow, Buf.write_data_length, Bool.or_assoc]
    congr 1
    rw [Bool.eq_iff_iff]
    cases s <;> simp <;> omega

/-- A copy out of the input writes `0 .. len` of its `len + 1` bytes, never past them. -/
theorem Token.setText_overflow (t : Token) (input : List Char) (start len : ℕ) :
    (t.setText input start len).value.any Buf.overflow = false := by
  have hle : ((input.drop start).take len).length ≤ len := List.length_take_le _ _
  simp [Token.setText, Buf.write_overflow, Buf.memcpy_overflow, palloc]

/-! ### `strtoll` on a run of digits -/

/-- The value of a run of decimal digits, most significant first. -/
def decimalValue (s : List Char) : ℕ :=
  Nat.ofDigits 10 (s.map fun d => d.toNat - '0'.toNat).reverse

theorem decimalValue_cons (d : Char) (s : List Char) :
    decimalValue (d :: s) = (d.toNat - 48) * 10 ^ s.length + decimalValue s := by
  simp only [decimalValue, List.map_cons, List.reverse_cons, Nat.ofDigits_append,
    Nat.ofDigits_singleton, List.length_reverse, List.length_map]
  rw [Nat.add_comm, Nat.mul_comm]; rfl

/-- `strtoll`'s accumulator after the digits `s`, from `acc`. -/
theorem strtoll_foldl {s : List Char} (hs : ∀ c ∈ s, isDigit c = true) (acc : ℤ) :
    s.foldl (fun acc d => 10 * acc + ((d.toNat : ℤ) - 48)) acc =
      acc * 10 ^ s.length + decimalValue s := by
  induction s generalizing acc with
  | nil => simp [decimalValue]
  | cons d s ih =>
    have hd : 48 ≤ d.toNat := by
      have := hs d (List.mem_cons_self _ _)
      simp only [isDigit, Bool.and_eq_true, decide_eq_true_eq] at this
      exact this.1
    rw [List.foldl_cons, ih (fun c hc => hs c (List.mem_cons_of_mem _ hc)), decimalValue_cons,
      List.length_cons, Nat.cast_add, Nat.cast_mul, Nat.cast_sub hd]
    push_cast
    ring

/-- **`strtoll` of a run of digits** is its decimal value, saturated at `LLONG_MAX`. -/
theorem strtoll_of_digits {s : List Char} (hs : ∀ c ∈ s, isDigit c = true) :
    strtoll s = min (decimalValue s : ℤ) (2 ^ 63 - 1) := by
  have hsp : ∀ c ∈ s, ¬ ((c == ' ' || ('\t' ≤ c && c ≤ '\r')) = true) := fun c hc h => by
    have := hs c hc
    simp only [isDigit, Bool.and_eq_true, decide_eq_true_eq] at this
    simp only [Bool.or_eq_true, beq_iff_eq, Bool.and_eq_true, decide_eq_true_eq] at h
    rcases h with rfl | ⟨-, h⟩
    · exact absurd this.1 (by decide)
    · exact absurd (this.1.trans h) (by decide)
  have hdrop : s.dropWhile (fun c => c == ' ' || ('\t' ≤ c && c ≤ '\r')) = s := by
    cases s with
    | nil => rfl
    | cons c t => simp [List.dropWhile_cons, hsp c (List.mem_cons_self _ _)]
  have htake : s.takeWhile (fun c => '0' ≤ c && c ≤ '9') = s :=
    List.takeWhile_eq_self_iff.2 fun c hc => hs c hc
  unfold strtoll
  dsimp only
  rw [hdrop]
  -- a digit is not a sign: both sign branches of the `match` are impossible
  split
  · exfalso
    split at *
    · exact absurd (hs _ (List.mem_cons_self _ _)) (by decide)
    · exact Bool.false_ne_true ‹_›
    · exact Bool.false_ne_true ‹_›
  · split
    · exact absurd (hs _ (List.mem_cons_self _ _)) (by decide)
    · exact absurd (hs _ (List.mem_cons_self _ _)) (by decide)
    · simp only [htake, strtoll_foldl hs, Int.zero_mul, Int.zero_add]

/-! ### The operator scanner's branches -/

/-- The kinds whose branch of `lexer_scan_operator` writes `value[3]`. -/
def threeByteKinds : List TokenType := [.JSON_EXTRACT_TEXT, .JSON_PATH_TEXT, .REGEX_INMATCH]

/-- The kinds a token with an integer or a block past its end has. -/
def valueKinds : List TokenType := .ICONST :: .PARAM :: threeByteKinds

/-- **The branches of the `switch` of `lexer_scan_operator`**: a failure; a one-byte
operator, its kind set on the block `c`, NUL; a two- or three-byte operator `c · tail`,
of a kind of `threeByteKinds` exactly when it has three bytes; or a parameter marker. -/
theorem lexerScanOperator_switch_cases (c next : Char) (L : Lexer) :
    (lexerScanOperator.switch c next L).1 = false ∨
    (∃ k, k ∉ valueKinds ∧ lexerScanOperator.switch c next L = (true, L.setType k)) ∨
    (∃ k tail, tail ≠ [] ∧ tail.length ≤ 2 ∧ k ∉ [.ICONST, .PARAM] ∧
      (k ∈ threeByteKinds ↔ tail.length = 2) ∧
      lexerScanOperator.switch c next L = (true, L.longOperator k tail)) ∨
    c = '$' ∧ isDigit next = true := by
  rw [lexerScanOperator.switch.eq_def]
  dsimp only
  split <;> (try split_ifs) <;> first
    | exact .inl rfl
    | exact .inr (.inl ⟨_, by decide, rfl⟩)
    | exact .inr (.inr (.inl ⟨_, _, by decide, by decide, by decide, by decide, rfl⟩))
    | exact .inr (.inr (.inr ⟨rfl, ‹_›⟩))

/-- The parameter branch: `$`, the digits after it and a NUL, in a block of their size,
and `ival` the `strtoll` of the digits. -/
theorem lexerScanOperator_switch_param {L : Lexer} (hd : isDigit (L.rest.headD '\x00') = true) :
    (lexerScanOperator.switch '$' (L.rest.headD '\x00') L).1 = true ∧
    (lexerScanOperator.switch '$' (L.rest.headD '\x00') L).2.currentToken.type = .PARAM ∧
    (lexerScanOperator.switch '$' (L.rest.headD '\x00') L).2.currentToken.value =
      some ⟨'$' :: L.rest.takeWhile isDigit ++ ['\x00'], false⟩ ∧
    (lexerScanOperator.switch '$' (L.rest.headD '\x00') L).2.currentToken.ival =
      strtoll (L.rest.takeWhile isDigit) := by
  have hpos := lexerAdvanceN_pos_of_le (List.takeWhile_prefix isDigit (l := L.rest)).length_le
  have htake : (L.input.drop L.pos).take (L.rest.takeWhile isDigit).length = L.rest.takeWhile isDigit :=
    (List.prefix_iff_eq_take.1 (List.takeWhile_prefix _)).symm
  have hnul : ∀ x ∈ L.rest.takeWhile isDigit, (x != '\x00') = true := fun x hx =>
    bne_iff_ne.2 fun h => absurd (h ▸ isDigit_of_mem_takeWhile hx) (by decide)
  rw [lexerScanOperator.switch.eq_def]
  dsimp only
  rw [if_pos hd]
  simp only [lexerAdvanceWhile_eq, hpos, lexerAdvanceN_input, Nat.add_sub_cancel_left,
    Nat.add_sub_cancel, htake, param_value]
  simp [List.takeWhile_append_of_pos hnul]

/-! ### Every successful call -/

set_option maxRecDepth 100000 in
theorem keywords_valueKinds : ∀ e ∈ keywords, e.2 ∉ valueKinds := by
  decide

theorem lookupKeyword_not_valueKinds {s : List Char} (hs : 0 < s.length) :
    lookupKeyword s s.length ∉ valueKinds := by
  rcases lookupKeyword_mem hs with h | ⟨e, he, h⟩
  · rw [h]; decide
  · rw [h]; exact keywords_valueKinds e he

/-- What the block and the integer of a token a scanner produced hold: the block was
written past its end exactly for a three-byte operator; a `TOKEN_ICONST` holds digits
and their `strtoll`; a `TOKEN_PARAM` holds `$`, digits, and the digits' `strtoll`. -/
structure ScannedValue (t : Token) : Prop where
  overflow : t.value.any Buf.overflow = true ↔ t.type ∈ threeByteKinds
  iconst : t.type = .ICONST → t.text ≠ [] ∧ (∀ c ∈ t.text, isDigit c = true) ∧ t.ival = strtoll t.text
  param : t.type = .PARAM → ∃ ds, t.text = '$' :: ds ∧ ds ≠ [] ∧ (∀ c ∈ ds, isDigit c = true) ∧
    t.ival = strtoll ds

section Dispatch

variable {lx : Lexer} {c : Char} {w : List Char}

/-- A token of none of `valueKinds`, its block inside its bounds. -/
theorem ScannedValue.of_kind {t : Token} (hk : t.type ∉ valueKinds)
    (ho : t.value.any Buf.overflow = false) : ScannedValue t where
  overflow := iff_of_false (by simp [ho]) fun h =>
    hk (List.mem_cons_of_mem _ (List.mem_cons_of_mem _ h))
  iconst h := absurd (h ▸ List.mem_cons_self _ _) hk
  param h := absurd (h ▸ List.mem_cons_of_mem _ (List.mem_cons_self _ _)) hk

theorem scannedValue_string (hr : lx.rest = c :: w) (hc : c = '\'' ∨ c = '"')
    (h : (lexerDispatch lx).1 = true) : ScannedValue (lexerDispatch lx).2.currentToken := by
  by_cases hs : ∃ b r, StringSplit c w b r
  · obtain ⟨b, r, hs⟩ := hs
    obtain ⟨-, -, htype, hval, -⟩ := lexerDispatch_string_token hc hr hs
    exact .of_kind (by rw [htype]; decide) (by rw [hval]; rfl)
  · simp only [not_exists] at hs
    simp [(lexerDispatch_string_fail hc hr hs).1] at h

theorem scannedValue_number (hr : lx.rest = c :: w) (hc : isDigit c = true)
    (h : (lexerDispatch lx).1 = true) : ScannedValue (lexerDispatch lx).2.currentToken := by
  rw [lexerDispatch_of_digit hr hc] at h ⊢
  cases he : exponentAt (numberAfter lx.rest) with
  | none => simp [(lexerScanNumber_of_none he).1] at h
  | some e =>
    have hw : lx.rest.takeWhile isDigit ≠ [] := by rw [hr]; simp [List.takeWhile_cons, hc]
    obtain ⟨hlit, hpre⟩ := numberPrefix_numberLit hw he
    rw [lexerScanNumber_of_some he]
    generalize hf : (decide (fractionAt (lx.rest.dropWhile isDigit) ≠ []) || !e.isEmpty) = isFloat
    set p := lx.rest.takeWhile isDigit ++ (fractionAt (lx.rest.dropWhile isDigit) ++ e)
    set L := lexerScanNumber.numberToken lx.pos isFloat (lexerAdvanceN p.length lx)
    obtain ⟨hv, -, -, -, -⟩ := numberToken_currentToken lx.pos isFloat (lexerAdvanceN p.length lx)
    simp only [lexerAdvanceN_currentToken, lexerAdvanceN_input, lexerAdvanceN_pos_of_le hpre.length_le,
      Nat.add_sub_cancel_left] at hv
    have htext : L.currentToken.text = p := by
      rw [Token.text, hv, ← Token.text]
      exact setText_text_of_prefix lx.currentToken hpre (by simp [p, hw]) hlit.nul_not_mem
    have ho : L.currentToken.value.any Buf.overflow = false := by
      rw [hv]; exact Token.setText_overflow _ _ _ _
    show ScannedValue L.currentToken
    cases isFloat with
    | true => exact .of_kind (by rw [numberToken_type]; decide) ho
    | false =>
      simp only [Bool.or_eq_false_iff, decide_eq_false_iff_not, not_not, Bool.not_eq_false',
        List.isEmpty_iff] at hf
      have hp : p = lx.rest.takeWhile isDigit := by simp [p, hf.1, hf.2]
      refine ⟨iff_of_false (by simp [ho]) (by rw [numberToken_type]; decide), fun _ => ⟨?_, ?_, rfl⟩,
        fun h => absurd h (by rw [numberToken_type]; decide)⟩
      · rw [htext, hp]; exact hw
      · rw [htext, hp]; exact fun c hc => isDigit_of_mem_takeWhile hc

theorem scannedValue_identifier (hr : lx.rest = c :: w) (hd : isDigit c = false)
    (ha : isAlpha c = true) : ScannedValue (lexerDispatch lx).2.currentToken := by
  have hk := @lookupKeyword_not_valueKinds (identAt c w) (Nat.succ_pos _)
  rw [lexerDispatch_of_alpha hr hd ha, lexerScanIdentifier_of_alpha hr ha]
  generalize lookupKeyword (identAt c w) (identAt c w).length = kt at hk ⊢
  exact .of_kind hk (Token.setText_overflow lx.currentToken lx.input lx.pos _)

/-- The block `lexer_scan_operator` allocates and writes `c`, NUL into. -/
theorem palloc_three_overflow (c : Char) : (((palloc 3).write 0 c).write 1 '\x00').overflow = false := by
  simp [palloc, Buf.write_overflow]

/-- `c · tail` writes its NUL at `value[tail.length + 1]`: past the block exactly when the
operator has three bytes. -/
theorem OperatorStart.longOperator_overflow {L : Lexer} (hS : OperatorStart lx c L) {tail : List Char}
    (hne : tail ≠ []) (k : TokenType) :
    (L.longOperator k tail).currentToken.value.any Buf.overflow = decide (2 ≤ tail.length) := by
  simp only [Lexer.longOperator, lexerAdvanceN_currentToken, hS.token, Option.map_some',
    Option.any_some]
  rw [Buf.write_overflow, Buf.memcpy_overflow, palloc_three_overflow, Buf.memcpy_data_length,
    Bool.eq_iff_iff]
  simp [palloc, hne]
  omega

/-- The parameter branch holds `$`, the digits after it, and their `strtoll`. -/
theorem scannedValue_param {L : Lexer} (hdg : isDigit (L.rest.headD '\x00') = true) :
    ScannedValue (lexerScanOperator.switch '$' (L.rest.headD '\x00') L).2.currentToken := by
  obtain ⟨-, htype, hval, hival⟩ := lexerScanOperator_switch_param hdg
  have hnul : '\x00' ∉ '$' :: L.rest.takeWhile isDigit := fun hx => by
    rcases List.mem_cons.1 hx with hx | hx
    · exact absurd hx (by decide)
    · exact absurd (isDigit_of_mem_takeWhile hx) (by decide)
  have hne : L.rest.takeWhile isDigit ≠ [] := by
    cases hL : L.rest with
    | nil => rw [hL] at hdg; exact absurd hdg (by decide)
    | cons d v => rw [hL, List.headD_cons] at hdg; simp [List.takeWhile_cons, hdg]
  refine ⟨iff_of_false (by rw [hval]; exact Bool.false_ne_true) (by rw [htype]; decide),
    fun h => absurd (htype.symm.trans h) (by decide),
    fun _ => ⟨L.rest.takeWhile isDigit, ?_, hne, fun c hc => isDigit_of_mem_takeWhile hc, hival⟩⟩
  rw [Token.text, hval]
  exact Buf.cstr_append_nul hnul false

theorem scannedValue_operator (hr : lx.rest = c :: w) (hq : ¬ (c = '\'' ∨ c = '"'))
    (hd : isDigit c = false) (ha : isAlpha c = false) (h : (lexerDispatch lx).1 = true) :
    ScannedValue (lexerDispatch lx).2.currentToken := by
  rw [lexerDispatch_of_operator hr hq hd ha] at h ⊢
  obtain ⟨L, hS, heq⟩ := lexerScanOperator_switch hr
  rw [heq] at h ⊢
  show ScannedValue (lexerScanOperator.switch c (w.headD '\x00') L).2.currentToken
  rcases lexerScanOperator_switch_cases c (w.headD '\x00') L with
    h1 | ⟨k, hk, he⟩ | ⟨k, t, hne, hl, hk, hkt, he⟩ | ⟨rfl, hdg⟩
  · simp only [h1, Bool.false_eq_true] at h
  · rw [he]; exact .of_kind hk (by simp [hS.token, palloc_three_overflow])
  · rw [he]
    have hty : (L.longOperator k t).currentToken.type = k := by simp [Lexer.longOperator]
    refine ⟨?_, fun h => (hk (by rw [hty.symm.trans h]; decide)).elim,
      fun h => (hk (by rw [hty.symm.trans h]; decide)).elim⟩
    rw [hS.longOperator_overflow hne, hty, hkt, decide_eq_true_iff]
    omega
  · rw [← hS.rest hr] at hdg ⊢
    exact scannedValue_param hdg

end Dispatch

/-- **Every successful dispatch's token has a `ScannedValue`**, whichever scanner ran. -/
theorem lexerDispatch_scannedValue (lx : Lexer) (h : (lexerDispatch lx).1 = true) :
    ScannedValue (lexerDispatch lx).2.currentToken := by
  cases hr : lx.rest with
  | nil =>
    rw [lexerDispatch_of_rest_nil hr]
    exact .of_kind (show TokenType.EOF ∉ valueKinds by decide) rfl
  | cons c w =>
    by_cases hq : c = '\'' ∨ c = '"'
    · exact scannedValue_string hr hq h
    cases hd : isDigit c
    · cases ha : isAlpha c
      · exact scannedValue_operator hr hq hd ha h
      · exact scannedValue_identifier hr hd ha
    · exact scannedValue_number hr hd h

/-! ### Every call -/

/-- **After every call that returns `true`, the token's block has been written past its
end exactly when the token is `->>`, `#>>` or `!~*`.**  Every other branch of every
scanner writes only inside the block it allocated. -/
theorem lexerNextToken_overflow (lx : Lexer) (h : (lexerNextToken lx).1 = true) :
    (lexerNextToken lx).2.currentToken.value.any Buf.overflow = true ↔
      (lexerNextToken lx).2.currentToken.type ∈ threeByteKinds :=
  (lexerDispatch_scannedValue _ h).overflow

theorem lexerNextToken_overflow_json_text :
    (lexerNextToken (lexerCreate "->>".toList)).1 = true ∧
    ((lexerNextToken (lexerCreate "->>".toList)).2.currentToken.value.any Buf.overflow = true ↔
      (lexerNextToken (lexerCreate "->>".toList)).2.currentToken.type ∈ threeByteKinds) :=
  ⟨by decide, lexerNextToken_overflow _ (by decide)⟩

/-- **The integer of every `TOKEN_ICONST` and `TOKEN_PARAM` a call produces** is the
decimal value of its digits cut at `LLONG_MAX`: the value itself up to `2^63 - 1`,
`LLONG_MAX` above. -/
theorem lexerNextToken_ival (lx : Lexer) (h : (lexerNextToken lx).1 = true) :
    ((lexerNextToken lx).2.currentToken.type = .ICONST →
      (lexerNextToken lx).2.currentToken.text ≠ [] ∧
      (∀ c ∈ (lexerNextToken lx).2.currentToken.text, isDigit c = true) ∧
      (lexerNextToken lx).2.currentToken.ival =
        min (decimalValue (lexerNextToken lx).2.currentToken.text : ℤ) (2 ^ 63 - 1)) ∧
    ((lexerNextToken lx).2.currentToken.type = .PARAM → ∃ ds,
      (lexerNextToken lx).2.currentToken.text = '$' :: ds ∧ ds ≠ [] ∧
      (∀ c ∈ ds, isDigit c = true) ∧
      (lexerNextToken lx).2.currentToken.ival = min (decimalValue ds : ℤ) (2 ^ 63 - 1)) := by
  have hv := lexerDispatch_scannedValue _ h
  refine ⟨fun hk => ?_, fun hk => ?_⟩
  · obtain ⟨hne, hd, hi⟩ := hv.iconst hk
    exact ⟨hne, hd, hi.trans (strtoll_of_digits hd)⟩
  · obtain ⟨ds, ht, hne, hd, hi⟩ := hv.param hk
    exact ⟨ds, ht, hne, hd, hi.trans (strtoll_of_digits hd)⟩

theorem lexerNextToken_ival_param :
    (lexerNextToken (lexerCreate "$12".toList)).1 = true ∧
    (((lexerNextToken (lexerCreate "$12".toList)).2.currentToken.type = .ICONST →
      (lexerNextToken (lexerCreate "$12".toList)).2.currentToken.text ≠ [] ∧
      (∀ c ∈ (lexerNextToken (lexerCreate "$12".toList)).2.currentToken.text, isDigit c = true) ∧
      (lexerNextToken (lexerCreate "$12".toList)).2.currentToken.ival =
        min (decimalValue (lexerNextToken (lexerCreate "$12".toList)).2.currentToken.text : ℤ)
          (2 ^ 63 - 1)) ∧
    ((lexerNextToken (lexerCreate "$12".toList)).2.currentToken.type = .PARAM → ∃ ds,
      (lexerNextToken (lexerCreate "$12".toList)).2.currentToken.text = '$' :: ds ∧ ds ≠ [] ∧
      (∀ c ∈ ds, isDigit c = true) ∧
      (lexerNextToken (lexerCreate "$12".toList)).2.currentToken.ival =
        min (decimalValue ds : ℤ) (2 ^ 63 - 1))) :=
  ⟨by decide, lexerNextToken_ival _ (by decide)⟩

/-- The numeral `2^63` is a `TOKEN_ICONST`, and its `ival` is `LLONG_MAX`, one less than
its value. -/
theorem lexerNextToken_iconst_saturated :
    (lexerNextToken (lexerCreate "9223372036854775808".toList)).1 = true ∧
    (lexerNextToken (lexerCreate "9223372036854775808".toList)).2.currentToken.type = .ICONST ∧
    decimalValue (lexerNextToken (lexerCreate "9223372036854775808".toList)).2.currentToken.text =
      2 ^ 63 ∧
    (lexerNextToken (lexerCreate "9223372036854775808".toList)).2.currentToken.ival = 2 ^ 63 - 1 := by
  decide

end SqlParser
end MantisDB
