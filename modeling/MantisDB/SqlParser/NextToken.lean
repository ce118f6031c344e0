import MantisDB.SqlParser.StringLit
import MantisDB.SqlParser.Operator
import Mathlib.Data.List.Infix

/-!
# One call of `lexer_next_token`

`lexer_next_token` (`src/cgo/sql_parser.c`, lines 709-761) drops the previous token's
text, skips whitespace and comments, sets the token's location to the cursor, and hands
the cursor to one of four scanners.  This module says once what a call can do, for
every scanner (`DispatchResult`, `lexerNextToken_result`):

* it only moves the cursor (`Lexer.Moved`), and the location it set stays;
* a success leaves the error as it was and gives either `TOKEN_EOF` at the end of the
  input, or a token whose text is the bytes the scanner consumed (`Lexeme`; a string
  literal's value is its body, between the quotes);
* a failure sets the message of the scanner that failed (`scanMessage`).

The skip phase leaves `skipRest` of the remaining input, so a call returns `TOKEN_EOF`
exactly when `skipRest` is empty; after an unterminated block comment that is so only
when the comment is empty or ends in whitespace (`lexerNextToken_unterminated_eof`).

Everything the lexer's runs and the parser are proved to do is derived from these.
-/

namespace MantisDB
namespace SqlParser

/-! ### Identifiers -/

section Identifier

variable {lx : Lexer} {c : Char} {w : List Char}

/-- The identifier `lexer_scan_identifier` consumes at `c :: w`. -/
def identAt (c : Char) (w : List Char) : List Char := c :: w.takeWhile isAlnum

theorem identAt_prefix (hr : lx.rest = c :: w) : identAt c w <+: lx.rest :=
  hr ▸ List.cons_prefix_cons.2 ⟨rfl, List.takeWhile_prefix _⟩

theorem identAt_nul (ha : isAlpha c = true) : '\x00' ∉ identAt c w := by
  rintro (_ | ⟨_, h⟩)
  · exact absurd ha (by decide)
  · exact absurd (List.mem_takeWhile_imp h) (by decide)

/-- At a letter, `lexer_scan_identifier` consumes the letter and the letters, digits and
`_` after it, copies them, and gives them the kind `lookup_keyword` finds. -/
theorem lexerScanIdentifier_of_alpha (hr : lx.rest = c :: w) (ha : isAlpha c = true) :
    lexerScanIdentifier lx = (true, { lexerAdvanceN (identAt c w).length lx with
      currentToken := { lx.currentToken.setText lx.input lx.pos (identAt c w).length with
        type := lookupKeyword (identAt c w) (identAt c w).length } }) := by
  have hpre := identAt_prefix hr
  have hpos := lexerAdvanceN_pos_of_le hpre.length_le
  have htake : (lx.input.drop lx.pos).take (identAt c w).length = identAt c w :=
    (List.prefix_iff_eq_take.1 hpre).symm
  have hle : lx.pos + (identAt c w).length ≤ lx.input.length := by
    have := hpre.length_le
    have : 0 < (identAt c w).length := Nat.succ_pos _
    simp only [Lexer.rest, List.length_drop] at *; omega
  have htext := Token.setText_text lx.currentToken hle (by rw [htake]; exact identAt_nul ha)
  have hadv : lexerAdvanceWhile isAlnum (lexerAdvance lx) = lexerAdvanceN (identAt c w).length lx := by
    rw [lexerAdvanceWhile_eq, rest_lexerAdvance, hr, List.tail_cons, ← lexerAdvanceN_one,
      ← lexerAdvanceN_add, Nat.add_comm]; rfl
  simp only [lexerScanIdentifier, lexerPeek_eq, hr, List.headD_cons, ha, hadv, hpos,
    Nat.add_sub_cancel_left, lexerAdvanceN_currentToken, lexerAdvanceN_input, htext, htake]
  rfl

/-- `lookup_keyword` gives `TOKEN_IDENT` or the kind of an entry of the table. -/
theorem lookupKeyword_mem {s : List Char} (hs : 0 < s.length) :
    lookupKeyword s s.length = .IDENT ∨ ∃ e ∈ keywords, lookupKeyword s s.length = e.2 := by
  refine or_iff_not_imp_left.2 fun h => ?_
  obtain ⟨m, -, hl, heq⟩ := lookupKeyword_go_sound s s.length _ _ _ h
  rw [lookupKeyword, heq]
  rw [List.getD_eq_getElem?_getD] at hl ⊢
  cases hm : keywords[m]? with
  | none => rw [hm, Option.getD_none] at hl; exact absurd hl (by change 0 ≠ s.length; omega)
  | some e => exact ⟨e, List.getElem?_mem hm, rfl⟩

/-- `lookup_keyword` gives a reserved-word kind or `TOKEN_IDENT`, never a literal's kind
or `TOKEN_EOF`. -/
theorem lookupKeyword_kind {s : List Char} (hs : 0 < s.length) :
    lookupKeyword s s.length ≠ .SCONST ∧ lookupKeyword s s.length ≠ .EOF := by
  rcases lookupKeyword_mem hs with h | ⟨e, he, h⟩
  · rw [h]; decide
  · rw [h]; exact keywords_kind e he

set_option maxRecDepth 20000 in
/-- `as` is a reserved word of the table, and the lexer gives it `TOKEN_IDENT`. -/
theorem lexerNextToken_as :
    keywordLinear "as".toList = .AS ∧ (lexerNextToken (lexerCreate "as".toList)).1 = true ∧
    (lexerNextToken (lexerCreate "as".toList)).2.currentToken.type = .IDENT := by
  decide

end Identifier

/-! ### What a call leaves -/

/-- The number of source bytes a token covers: a string literal's body and its two
quotes, the text of any other token. -/
def Token.span (t : Token) : ℕ := if t.type = .SCONST then t.length + 2 else t.length

theorem Token.span_of_ne {t : Token} (h : t.type ≠ .SCONST) : t.span = t.length := if_neg h

theorem Token.text_with_type (t : Token) (k : TokenType) : { t with type := k }.text = t.text := rfl

/-- The token of `L`, after a successful scan from `lx`, is the source text the scan
consumed: the cursor moved over `span` bytes of the input.  A string literal holds its
body `b` (escapes kept) and a NUL, from between its two quotes; any other token holds
exactly the bytes consumed, none of them NUL, so that `strlen(value) = length`. -/
structure Lexeme (lx L : Lexer) : Prop where
  moved : Lexer.Moved L.currentToken.span lx L
  span_le : L.currentToken.span ≤ lx.rest.length
  type_ne : L.currentToken.type ≠ .EOF
  string : L.currentToken.type = .SCONST → ∃ q b, (q = '\'' ∨ q = '"') ∧ q :: b ++ [q] <+: lx.rest ∧
    L.currentToken.length = b.length ∧ L.currentToken.value = some ⟨b ++ ['\x00'], false⟩
  text : L.currentToken.type ≠ .SCONST → L.currentToken.text = lx.rest.take L.currentToken.length ∧
    '\x00' ∉ L.currentToken.text ∧ 0 < L.currentToken.length

/-- The message a scan that fails at the byte `c` sets: the string scanner's, the number
scanner's, or the operator scanner's for `c`.  The identifier scanner runs on letters
only and never fails: its `invalid identifier` is never set. -/
def scanMessage (c : Char) : String :=
  if c = '\'' ∨ c = '"' then "unterminated string literal"
  else if isDigit c then "invalid number format"
  else operatorMessage c

/-- What the dispatch of `lexer_next_token` leaves, for every scanner: the cursor moved
on, the location kept and `has_current` the result; on success the error kept and
`TOKEN_EOF` at the end of the input or a `Lexeme` before it; on failure the message of
the scanner that failed. -/
structure DispatchResult (lx : Lexer) (r : Bool × Lexer) : Prop where
  moved : ∃ k, Lexer.Moved k lx r.2
  location : r.2.currentToken.location = lx.currentToken.location
  hasCurrent : r.2.hasCurrent = r.1
  eof : lx.rest = [] → r.1 = true ∧ r.2.currentToken.type = .EOF
  ok : r.1 = true → r.2.errorMsg = lx.errorMsg
  lexeme : lx.rest ≠ [] → r.1 = true → Lexeme lx r.2
  fail : r.1 = false → ∃ c w, lx.rest = c :: w ∧ r.2.errorMsg = some (scanMessage c)

section Result

variable {lx L : Lexer} {c : Char} {w : List Char}

theorem Lexeme.span_pos (h : Lexeme lx L) : 0 < L.currentToken.span := by
  unfold Token.span
  split_ifs with hs
  · omega
  · exact (h.text hs).2.2

theorem Lexeme.with_hasCurrent (h : Lexeme lx L) (b : Bool) : Lexeme lx { L with hasCurrent := b } :=
  ⟨h.moved.update _ _ _, h.span_le, h.type_ne, h.string, h.text⟩

/-- A token other than a string literal that holds the nonempty, NUL-free prefix `p` of
the unconsumed input its scanner moved over. -/
theorem Lexeme.of_prefix {p : List Char} (hm : Lexer.Moved p.length lx L) (hpre : p <+: lx.rest)
    (hpos : 0 < p.length) (h0 : '\x00' ∉ p) (hs : L.currentToken.type ≠ .SCONST)
    (he : L.currentToken.type ≠ .EOF) (hl : L.currentToken.length = p.length)
    (ht : L.currentToken.text = p) : Lexeme lx L := by
  have hspan : L.currentToken.span = p.length := by rw [Token.span_of_ne hs, hl]
  exact ⟨hspan ▸ hm, hspan ▸ hpre.length_le, he, fun h => absurd h hs,
    fun _ => ⟨by rw [ht, hl]; exact List.prefix_iff_eq_take.1 hpre, ht ▸ h0, hl ▸ hpos⟩⟩

/-- A scanner's result, with `has_current` set from it as the dispatch does. -/
theorem DispatchResult.of_scan {s : Bool × Lexer} (hne : lx.rest ≠ [])
    (hm : ∃ k, Lexer.Moved k lx s.2) (hloc : s.2.currentToken.location = lx.currentToken.location)
    (hok : s.1 = true → s.2.errorMsg = lx.errorMsg ∧ Lexeme lx s.2)
    (hfail : s.1 = false → ∃ c w, lx.rest = c :: w ∧ s.2.errorMsg = some (scanMessage c)) :
    DispatchResult lx (s.1, { s.2 with hasCurrent := s.1 }) :=
  let ⟨k, hk⟩ := hm
  ⟨⟨k, hk.update _ _ _⟩, hloc, rfl, fun h => absurd h hne, fun h => (hok h).1,
    fun _ h => (hok h).2.with_hasCurrent _, hfail⟩

theorem dispatchResult_eof (hr : lx.rest = []) : DispatchResult lx (lexerDispatch lx) := by
  rw [lexerDispatch_of_rest_nil hr]
  exact ⟨⟨0, (Lexer.Moved.refl lx).update _ _ _⟩, rfl, rfl, fun _ => ⟨rfl, rfl⟩, fun _ => rfl,
    fun h => absurd hr h, fun h => Bool.noConfusion h⟩

theorem dispatchResult_string (hr : lx.rest = c :: w) (hc : c = '\'' ∨ c = '"') :
    DispatchResult lx (lexerDispatch lx) := by
  by_cases hs : ∃ b r, StringSplit c w b r
  · obtain ⟨b, r, hs⟩ := hs
    obtain ⟨h1, hm, ht, he⟩ := lexerDispatch_string_ok hc hr hs
    obtain ⟨-, htake, htype, hval, hlen⟩ := lexerDispatch_string_token hc hr hs
    have hspan : (lexerDispatch lx).2.currentToken.span = b.length + 2 := by
      rw [Token.span, if_pos htype, hlen]
    have hpre : c :: b ++ [c] <+: lx.rest := htake ▸ List.take_prefix _ _
    refine ⟨⟨_, hm⟩, by rw [ht]; rfl, lexerDispatch_hasCurrent lx, fun h => absurd hr (by simp [h]),
      fun _ => he, fun _ _ => ⟨hspan ▸ hm, ?_, by rw [htype]; decide,
        fun _ => ⟨c, b, hc, hpre, hlen, hval⟩, fun h => absurd htype h⟩, fun h => by simp [h1] at h⟩
    rw [hspan]; simpa using hpre.length_le
  · simp only [not_exists] at hs
    obtain ⟨h1, hm, ht, he⟩ := lexerDispatch_string_fail hc hr hs
    exact ⟨⟨_, hm⟩, by rw [ht], lexerDispatch_hasCurrent lx, fun h => absurd hr (by simp [h]),
      fun h => by simp [h1] at h, fun _ h => by simp [h1] at h,
      fun _ => ⟨c, w, hr, by rw [he, scanMessage, if_pos hc]⟩⟩

/-- A copy of a nonempty prefix of the unconsumed input without NUL bytes: the text is
that prefix. -/
theorem setText_text_of_prefix (t : Token) {p : List Char} (hp : p <+: lx.rest) (hne : p ≠ [])
    (h0 : '\x00' ∉ p) : (t.setText lx.input lx.pos p.length).text = p := by
  have htake : (lx.input.drop lx.pos).take p.length = p := (List.prefix_iff_eq_take.1 hp).symm
  have hle : lx.pos + p.length ≤ lx.input.length := by
    have h1 := hp.length_le
    have h2 := List.length_pos.2 hne
    simp only [Lexer.rest, List.length_drop] at h1; omega
  rw [Token.setText_text t hle (by rw [htake]; exact h0), htake]

theorem numberToken_currentToken (start : ℕ) (b : Bool) (L : Lexer) :
    (lexerScanNumber.numberToken start b L).currentToken.value =
      (L.currentToken.setText L.input start (L.pos - start)).value ∧
    (lexerScanNumber.numberToken start b L).currentToken.length = L.pos - start ∧
    (lexerScanNumber.numberToken start b L).currentToken.location = L.currentToken.location ∧
    (lexerScanNumber.numberToken start b L).currentToken.type ≠ .SCONST ∧
    (lexerScanNumber.numberToken start b L).currentToken.type ≠ .EOF := by
  cases b <;> exact ⟨rfl, rfl, rfl, by simp [lexerScanNumber.numberToken],
    by simp [lexerScanNumber.numberToken]⟩

theorem dispatchResult_number (hr : lx.rest = c :: w) (hc : isDigit c = true) :
    DispatchResult lx (lexerDispatch lx) := by
  have hne : lx.rest ≠ [] := by simp [hr]
  have hq : ¬ (c = '\'' ∨ c = '"') := by rintro (rfl | rfl) <;> simp [isDigit] at hc
  rw [lexerDispatch_of_digit hr hc]
  cases he : exponentAt (numberAfter lx.rest) with
  | none =>
    obtain ⟨h1, hm, ht, he'⟩ := lexerScanNumber_of_none he
    exact DispatchResult.of_scan hne hm (by rw [ht]) (fun h => by simp [h1] at h)
      fun _ => ⟨c, w, hr, by rw [he', scanMessage, if_neg hq, if_pos hc]⟩
  | some e =>
    have hw : lx.rest.takeWhile isDigit ≠ [] := by rw [hr]; simp [List.takeWhile_cons, hc]
    obtain ⟨hlit, hpre⟩ := numberPrefix_numberLit hw he
    rw [lexerScanNumber_of_some he]
    set p := lx.rest.takeWhile isDigit ++ (fractionAt (lx.rest.dropWhile isDigit) ++ e)
    set L := lexerScanNumber.numberToken lx.pos
      (decide (fractionAt (lx.rest.dropWhile isDigit) ≠ []) || !e.isEmpty) (lexerAdvanceN p.length lx)
    have hm : Lexer.Moved p.length lx L := (Lexer.Moved.advanced _ lx).update _ _ _
    obtain ⟨hv, hl, hloc, hs, heof⟩ := numberToken_currentToken lx.pos
      (decide (fractionAt (lx.rest.dropWhile isDigit) ≠ []) || !e.isEmpty) (lexerAdvanceN p.length lx)
    simp only [lexerAdvanceN_currentToken, lexerAdvanceN_input, lexerAdvanceN_pos_of_le hpre.length_le,
      Nat.add_sub_cancel_left] at hv hl hloc
    refine DispatchResult.of_scan hne ⟨_, hm⟩ hloc (fun _ => ⟨lexerAdvanceN_errorMsg _ _,
      Lexeme.of_prefix hm hpre (by simp [p, List.length_pos, hw]) hlit.nul_not_mem hs heof hl ?_⟩)
      (fun h => by simp at h)
    rw [Token.text, hv, ← Token.text]
    exact setText_text_of_prefix lx.currentToken hpre (by simp [p, hw]) hlit.nul_not_mem

theorem dispatchResult_identifier (hr : lx.rest = c :: w) (hd : isDigit c = false)
    (ha : isAlpha c = true) : DispatchResult lx (lexerDispatch lx) := by
  have hpre := identAt_prefix hr
  have htext := setText_text_of_prefix lx.currentToken hpre (List.cons_ne_nil _ _) (identAt_nul ha)
  have hk := lookupKeyword_kind (s := identAt c w) (Nat.succ_pos _)
  rw [lexerDispatch_of_alpha hr hd ha, lexerScanIdentifier_of_alpha hr ha]
  generalize lookupKeyword (identAt c w) (identAt c w).length = kt at hk ⊢
  set L : Lexer := { lexerAdvanceN (identAt c w).length lx with
    currentToken := { lx.currentToken.setText lx.input lx.pos (identAt c w).length with type := kt } }
  have hm : Lexer.Moved (identAt c w).length lx L := (Lexer.Moved.advanced _ lx).update _ _ _
  exact DispatchResult.of_scan (by simp [hr]) ⟨_, hm⟩ rfl
    (fun _ => ⟨lexerAdvanceN_errorMsg _ _, Lexeme.of_prefix hm hpre (Nat.succ_pos _) (identAt_nul ha)
      hk.1 hk.2 rfl ((Token.text_with_type _ _).trans htext)⟩) (fun h => by simp at h)

theorem dispatchResult_operator (hr : lx.rest = c :: w) (hq : ¬ (c = '\'' ∨ c = '"'))
    (hd : isDigit c = false) (ha : isAlpha c = false) : DispatchResult lx (lexerDispatch lx) := by
  have hne : lx.rest ≠ [] := by simp [hr]
  rw [lexerDispatch_of_operator hr hq hd ha]
  rcases lexerScanOperator_outcome hr with ⟨h1, s, hl, hm, hk, htext, hlen, hloc, he⟩ |
    ⟨h1, -, hm, hloc, he⟩
  · have hns := operatorKind_kind hk
    exact DispatchResult.of_scan hne ⟨_, hm⟩ hloc (fun _ => ⟨he, Lexeme.of_prefix hm hl.2.1 hl.1.length_pos
      hl.1.nul_not_mem hns.1 hns.2 hlen htext⟩) (fun h => by simp [h1] at h)
  · refine DispatchResult.of_scan hne hm hloc (fun h => by simp [h1] at h) fun _ => ⟨c, w, hr, ?_⟩
    rw [he, lexerPeek_eq, hr, List.headD_cons, scanMessage, if_neg hq, if_neg (by simp [hd])]

/-- **Every call's dispatch has a `DispatchResult`**, whichever scanner runs. -/
theorem lexerDispatch_result (lx : Lexer) : DispatchResult lx (lexerDispatch lx) := by
  cases hr : lx.rest with
  | nil => exact dispatchResult_eof hr
  | cons c w =>
    by_cases hq : c = '\'' ∨ c = '"'
    · exact dispatchResult_string hr hq
    cases hd : isDigit c
    · cases ha : isAlpha c
      · exact dispatchResult_operator hr hq hd ha
      · exact dispatchResult_identifier hr hd ha
    · exact dispatchResult_number hr hd

end Result

/-! ### The call -/

section Call

variable {lx : Lexer}

/-- Before the dispatch, `lexer_next_token` only moves the cursor (over whitespace and
comments) and rewrites the token. -/
theorem lexerNextToken_start_eq (lx : Lexer) : ∃ k t, lexerNextToken.start lx =
    { lexerAdvanceN k lx with currentToken := t, hasCurrent := lx.hasCurrent, errorMsg := lx.errorMsg } := by
  obtain ⟨t', ht'⟩ : ∃ t', (if lx.hasCurrent ∧ lx.currentToken.value.isSome then
      { lx with currentToken := { lx.currentToken with value := none } } else lx) =
      { lx with currentToken := t', hasCurrent := lx.hasCurrent, errorMsg := lx.errorMsg } := by
    split_ifs
    exacts [⟨_, rfl⟩, ⟨_, rfl⟩]
  obtain ⟨k, hk⟩ := skipWhitespaceAndComments_eq
    { lx with currentToken := t', hasCurrent := lx.hasCurrent, errorMsg := lx.errorMsg }
  exact ⟨k, _, by dsimp only [lexerNextToken.start]; rw [ht', hk, lexerAdvanceN_with]⟩

theorem lexerNextToken_start_moved (lx : Lexer) : ∃ k, Lexer.Moved k lx (lexerNextToken.start lx) :=
  let ⟨k, _, h⟩ := lexerNextToken_start_eq lx
  ⟨k, h ▸ (Lexer.Moved.advanced k lx).update _ _ _⟩

theorem lexerNextToken_start_errorMsg (lx : Lexer) :
    (lexerNextToken.start lx).errorMsg = lx.errorMsg := by
  obtain ⟨k, t, h⟩ := lexerNextToken_start_eq lx
  rw [h]

/-- The location is the cursor after the skip loop. -/
theorem lexerNextToken_start_location (lx : Lexer) :
    (lexerNextToken.start lx).currentToken.location =
      ⟨(lexerNextToken.start lx).line, (lexerNextToken.start lx).column,
        int32 (lexerNextToken.start lx).pos⟩ := rfl

/-- The skip loop stops at the end of the input or at a byte that starts a token. -/
theorem lexerNextToken_start_stop (lx : Lexer) : SkipStop (lexerNextToken.start lx) :=
  skipWhitespaceAndComments_stop _

set_option maxRecDepth 20000 in
/-- An unterminated block comment leaves its last byte to the scanners: on `/*ab` the
call returns the identifier `b`, not `TOKEN_EOF`. -/
theorem lexerNextToken_unterminated_comment :
    (lexerNextToken (lexerCreate "/*ab".toList)).1 = true ∧
    (lexerNextToken (lexerCreate "/*ab".toList)).2.currentToken.type = .IDENT ∧
    (lexerNextToken (lexerCreate "/*ab".toList)).2.currentToken.text = ['b'] ∧
    (lexerNextToken (lexerCreate "/*ab".toList)).2.pos = 4 := by
  decide

/-- **One call of `lexer_next_token`** has the `DispatchResult` of the state after its
skip loop. -/
theorem lexerNextToken_result (lx : Lexer) :
    DispatchResult (lexerNextToken.start lx) (lexerNextToken lx) :=
  lexerDispatch_result _

/-- A call only moves the cursor. -/
theorem lexerNextToken_moved (lx : Lexer) : ∃ k, Lexer.Moved k lx (lexerNextToken lx).2 :=
  let ⟨_, h₁⟩ := lexerNextToken_start_moved lx
  let ⟨_, h₂⟩ := (lexerNextToken_result lx).moved
  ⟨_, h₁.trans h₂⟩

/-- A call that returns true leaves the error as it was. -/
theorem lexerNextToken_errorMsg_of_true (h : (lexerNextToken lx).1 = true) :
    (lexerNextToken lx).2.errorMsg = lx.errorMsg :=
  ((lexerNextToken_result lx).ok h).trans (lexerNextToken_start_errorMsg lx)

/-- A call that returns false sets the message of the scanner that failed, at the byte
the token starts with. -/
theorem lexerNextToken_errorMsg_of_false (h : (lexerNextToken lx).1 = false) :
    ∃ c w, (lexerNextToken.start lx).rest = c :: w ∧
      (lexerNextToken lx).2.errorMsg = some (scanMessage c) :=
  (lexerNextToken_result lx).fail h

/-- A call that returns a token other than `TOKEN_EOF` consumes at least one byte. -/
theorem lexerNextToken_rest_lt (h : (lexerNextToken lx).1 = true)
    (he : (lexerNextToken lx).2.currentToken.type ≠ .EOF) :
    (lexerNextToken lx).2.rest.length < lx.rest.length := by
  obtain ⟨k, hk⟩ := lexerNextToken_start_moved lx
  have hne : (lexerNextToken.start lx).rest ≠ [] := fun hr =>
    he ((lexerNextToken_result lx).eof hr).2
  have hx := (lexerNextToken_result lx).lexeme hne h
  rw [hx.moved.rest, hk.rest, List.drop_drop, List.length_drop]
  have := hx.span_pos
  have := hx.span_le
  rw [hk.rest, List.length_drop] at this
  omega

/-- The skip phase of a call leaves `skipRest` of the remaining input. -/
theorem lexerNextToken_start_rest (lx : Lexer) : (lexerNextToken.start lx).rest = skipRest lx.rest := by
  dsimp only [lexerNextToken.start]
  split_ifs <;> exact skipWhitespaceAndComments_rest _

/-- A call returns `TOKEN_EOF` exactly when its skip phase reaches the end of the input. -/
theorem lexerNextToken_eof_iff (lx : Lexer) :
    ((lexerNextToken lx).1 = true ∧ (lexerNextToken lx).2.currentToken.type = .EOF) ↔
      (lexerNextToken.start lx).rest = [] :=
  ⟨fun ⟨h1, he⟩ => by_contra fun hne => ((lexerNextToken_result lx).lexeme hne h1).type_ne he,
    (lexerNextToken_result lx).eof⟩

/-- **What the skip phase consumes.**  For every lexer state, the skip phase of
`lexer_next_token` leaves exactly `skipRest` of the remaining input (whitespace, line
comments up to their newline, block comments through their first `*/`, an unterminated
one but for its last byte), and the call returns `TOKEN_EOF` exactly when nothing is
left. -/
theorem lexerNextToken_skipRest (lx : Lexer) :
    (lexerNextToken.start lx).rest = skipRest lx.rest ∧
      ((lexerNextToken lx).1 = true ∧ (lexerNextToken lx).2.currentToken.type = .EOF ↔
        skipRest lx.rest = []) :=
  ⟨lexerNextToken_start_rest lx, (lexerNextToken_eof_iff lx).trans (by rw [lexerNextToken_start_rest])⟩

/-- **An unterminated block comment, on every input.**  When the remaining input is
whitespace, `/*` and a tail `t` with no `*/`, the skip phase leaves the last byte of `t`
unless it is whitespace, so the call returns `TOKEN_EOF` exactly when `t` is empty or
ends in whitespace; otherwise that byte is scanned as a token of its own. -/
theorem lexerNextToken_unterminated_eof {s t : List Char} (hr : lx.rest = s ++ '/' :: '*' :: t)
    (hs : ∀ c ∈ s, isSpace c = true) (ht : ¬ ['*', '/'] <:+: t) :
    (lexerNextToken.start lx).rest = (t.drop (t.length - 1)).dropWhile isSpace ∧
      ((lexerNextToken lx).1 = true ∧ (lexerNextToken lx).2.currentToken.type = .EOF ↔
        (t.drop (t.length - 1)).dropWhile isSpace = []) := by
  have h : (lexerNextToken.start lx).rest = (t.drop (t.length - 1)).dropWhile isSpace := by
    rw [lexerNextToken_start_rest, hr, skipRest_unterminated hs ht]
  exact ⟨h, (lexerNextToken_eof_iff lx).trans (by rw [h])⟩

theorem lexerNextToken_unterminated_eof_space :
    (lexerCreate " /*a ".toList).rest = [' '] ++ '/' :: '*' :: ['a', ' '] ∧
    (∀ c ∈ [' '], isSpace c = true) ∧ ¬ ['*', '/'] <:+: ['a', ' '] ∧
    ((lexerNextToken.start (lexerCreate " /*a ".toList)).rest =
        ((['a', ' '] : List Char).drop (['a', ' '].length - 1)).dropWhile isSpace ∧
      ((lexerNextToken (lexerCreate " /*a ".toList)).1 = true ∧
          (lexerNextToken (lexerCreate " /*a ".toList)).2.currentToken.type = .EOF ↔
        ((['a', ' '] : List Char).drop (['a', ' '].length - 1)).dropWhile isSpace = [])) :=
  ⟨rfl, by decide, by decide,
    lexerNextToken_unterminated_eof (s := [' ']) (t := ['a', ' ']) rfl (by decide) (by decide)⟩

end Call

end SqlParser
end MantisDB
