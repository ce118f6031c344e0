import MantisDB.SqlParser.Parser
import Mathlib.Data.List.Nodup

/-!
# The lexer as a function of the input

`lexer_next_token` (`src/cgo/sql_parser.c`, lines 709-761) works on a cursor, a line
and a column, a token record and an error message, and `parser_parse` (lines 937-967)
calls it until it fails or returns `TOKEN_EOF`.  What a call makes of the input
depends on the bytes it has not consumed and on nothing else.  This module states
that as a second lexer, written on those bytes, and proves that the C lexer computes
it:

    lexOne   : unconsumed input → TOKEN_EOF | token (kind, text, input left) | error
    tokenize : lexOne on what each token leaves, to TOKEN_EOF or the first error

* `lexOne v` drops whitespace and comments as the skip loop does (`skipRest`), then
  reads one token by its first byte: a string literal's body (`stringAt`), a number
  (`numberAfter`, `exponentAt`), an identifier and its keyword kind (`identAt`,
  `lookupKeyword`), or the longest operator (`operatorAt`);
* every call of `lexer_next_token`, from every lexer state, makes of the input what
  `lexOne` makes of the unconsumed bytes (`lexerNextToken_lexOne`);
* so `parser_parse` returns the kinds and texts `tokenize` gives, and `parser_error`
  its error (`parserParse_tokenize`); and parsing the input left after any of the
  tokens returns the tokens after it, with the same error (`parserParse_resume`).
-/

namespace MantisDB
namespace SqlParser

/-! ### String literals and operators on the input -/

/-- The string literal `lexer_scan_string` reads after the quote `q`: its body, escapes
as written, and the input after the closing quote; `none` when the input ends first. -/
def stringAt (q : Char) : List Char → Option (List Char × List Char)
  | [] => none
  | [c] => if c = q then some ([], []) else none
  | c :: d :: w =>
    if c = q then
      if d = q then (stringAt q w).map fun p => (q :: q :: p.1, p.2) else some ([], d :: w)
    else if c = '\\' then (stringAt q w).map fun p => ('\\' :: d :: p.1, p.2)
    else (stringAt q (d :: w)).map fun p => (c :: p.1, p.2)

/-- The longest spelling of `operatorKinds` at the front of `v`, with its kind, tried
from three bytes down. -/
def spellingAt (v : List Char) : Option (List Char × TokenType) :=
  [3, 2, 1].findSome? fun n => if n ≤ v.length then operatorKinds.find? (·.1 = v.take n) else none

/-- The longest operator at the front of `v`, with its kind: `$` and the digits after it
where a digit follows the `$`, else the longest spelling of the table. -/
def operatorAt (v : List Char) : Option (List Char × TokenType) :=
  match v with
  | '$' :: w => if w.takeWhile isDigit = [] then none else some ('$' :: w.takeWhile isDigit, .PARAM)
  | _ => spellingAt v

section Functions

variable {q : Char} {v w b r s : List Char} {k : TokenType}

/-- A body that grows by a fixed prefix. -/
theorem map_body_eq_some {o : Option (List Char × List Char)} {P : List Char → List Char → Prop}
    (f : List Char → List Char) (h : ∀ {b r}, o = some (b, r) ↔ P b r) {b r : List Char} :
    o.map (fun p => (f p.1, p.2)) = some (b, r) ↔ ∃ b', b = f b' ∧ P b' r := by
  rw [Option.map_eq_some']
  constructor
  · rintro ⟨⟨b', r'⟩, h', he⟩
    obtain ⟨rfl, rfl⟩ := Prod.mk.inj he
    exact ⟨b', rfl, h.1 h'⟩
  · rintro ⟨b', rfl, h'⟩
    exact ⟨(b', r), h.2 h', rfl⟩

theorem stringAt_eq_some (hq : q ≠ '\\') (w : List Char) :
    ∀ {b r : List Char}, stringAt q w = some (b, r) ↔ StringSplit q w b r := by
  induction w using stringAt.induct q with
  | case1 => simp [stringAt, stringSplit_nil]
  | case2 =>
    intro b r
    rw [@stringSplit_close q [] b r hq (by simp)]
    simp [stringAt, eq_comm, and_comm]
  | case3 c hc =>
    intro b r
    by_cases hc' : c = '\\'
    · subst hc'; simp [stringAt, hc, stringSplit_backslash hq]
    · simp [stringAt, hc, stringSplit_plain hc hc', stringSplit_nil]
  | case4 w ih =>
    intro b r
    rw [stringAt.eq_3, if_pos rfl, if_pos rfl, stringSplit_doubled hq]
    exact map_body_eq_some (fun l => q :: q :: l) ih
  | case5 d w hd =>
    intro b r
    rw [stringSplit_close hq (by simpa using hd)]
    simp [stringAt, hd, eq_comm, and_comm]
  | case6 d w hq' ih =>
    intro b r
    rw [stringAt.eq_3, if_neg hq', if_pos rfl, stringSplit_escape hq]
    exact map_body_eq_some (fun l => '\\' :: d :: l) ih
  | case7 c d w hc hc' ih =>
    intro b r
    rw [stringAt.eq_3, if_neg hc, if_neg hc', stringSplit_plain hc hc']
    exact map_body_eq_some (fun l => c :: l) ih

theorem stringAt_eq_none (hq : q ≠ '\\') : stringAt q w = none ↔ ∀ b r, ¬ StringSplit q w b r := by
  rw [Option.eq_none_iff_forall_not_mem]
  exact ⟨fun h b r hs => h (b, r) ((stringAt_eq_some hq w).2 hs),
    fun h ⟨b, r⟩ hs => h b r ((stringAt_eq_some hq w).1 hs)⟩

/-- Each spelling of the table has one kind. -/
theorem operatorKinds_nodup : (operatorKinds.map Prod.fst).Nodup := by decide

/-- Two longest operators at the front of the same input are the same. -/
theorem LongestOperator.unique {s' : List Char} (h : LongestOperator s v) (h' : LongestOperator s' v) :
    s = s' :=
  (List.prefix_of_prefix_length_le h.2.1 h'.2.1 (h'.2.2 s h.1 h.2.1)).eq_of_length
    (le_antisymm (h'.2.2 s h.1 h.2.1) (h.2.2 s' h'.1 h'.2.1))

theorem spellingAt_of_none (h : ∀ e ∈ operatorKinds, ¬ e.1 <+: v) : spellingAt v = none :=
  List.findSome?_eq_none_iff.2 fun n _ => by
    split_ifs
    · exact List.find?_eq_none.2 fun e he hp => h e he (of_decide_eq_true hp ▸ List.take_prefix _ _)
    · rfl

theorem spellingAt_of_longest (hk : (s, k) ∈ operatorKinds) (hl : LongestOperator s v) :
    spellingAt v = some (s, k) := by
  have hnone : ∀ n, s.length < n →
      (if n ≤ v.length then operatorKinds.find? (·.1 = v.take n) else none) = none := by
    intro n hn
    split_ifs with hv
    · refine List.find?_eq_none.2 fun e he hp => ?_
      have he1 : e.1 = v.take n := of_decide_eq_true hp
      have hle := hl.2.2 e.1 (.inl ⟨e.2, he⟩) (he1 ▸ List.take_prefix _ _)
      rw [he1, List.length_take, Nat.min_eq_left hv] at hle
      omega
    · rfl
  have hsome : (if s.length ≤ v.length then operatorKinds.find? (·.1 = v.take s.length) else none) =
      some (s, k) := by
    rw [if_pos hl.2.1.length_le, ← List.prefix_iff_eq_take.1 hl.2.1]
    cases hf : operatorKinds.find? (fun e => decide (e.1 = s)) with
    | none => exact absurd (List.find?_eq_none.1 hf _ hk) (by simp)
    | some e =>
      have he : e.1 = s := by simpa using List.find?_some hf
      rw [List.inj_on_of_nodup_map operatorKinds_nodup (List.mem_of_find?_eq_some hf) hk he]
  have hlen : s.length ≤ 3 := operatorKinds_length _ hk
  have hpos : 0 < s.length := List.length_pos.2 (operatorKinds_ne_nil _ hk)
  simp only [spellingAt, List.findSome?_cons]
  rcases (by omega : s.length = 3 ∨ s.length = 2 ∨ s.length = 1) with h | h | h <;> rw [h] at hsome hnone
  · simp only [hsome]
  · simp only [hnone 3 (by omega), hsome]
  · simp only [hnone 3 (by omega), hnone 2 (by omega), hsome]

theorem operatorAt_of_head_ne (h : v.head? ≠ some '$') : operatorAt v = spellingAt v :=
  operatorAt.eq_2 v fun w hw => h (by rw [hw]; rfl)

/-- Where the longest operator at the front of `v` is `s`, of kind `k`, `operatorAt`
finds them. -/
theorem operatorAt_of_longest (hl : LongestOperator s v) (hk : OperatorKind s k) :
    operatorAt v = some (s, k) := by
  rcases hk with hk | ⟨⟨d, rfl, hd⟩, rfl⟩
  · obtain ⟨a, s', rfl⟩ := List.exists_cons_of_ne_nil (operatorKinds_ne_nil _ hk)
    obtain ⟨t, rfl⟩ := hl.2.1
    have hh : (a :: s' ++ t).head? ≠ some '$' := by simpa using operatorKinds_head_ne_dollar _ hk
    rw [operatorAt_of_head_ne hh, spellingAt_of_longest hk hl]
  · obtain ⟨t, rfl⟩ := hl.2.1
    obtain ⟨x, d', rfl⟩ := List.exists_cons_of_ne_nil hd.1
    have hx : isDigit x = true := hd.2 x (List.mem_cons_self _ _)
    simp only [List.cons_append] at hl ⊢
    have heq := hl.unique (longestOperator_param (by simpa using hx))
    rw [operatorAt.eq_1, if_neg (by simp [List.takeWhile_cons, hx]), ← heq]

/-- Where no operator starts `v`, `operatorAt` finds none. -/
theorem operatorAt_of_none (h : ∀ s, IsOperator s → ¬ s <+: v) : operatorAt v = none := by
  rcases v with _ | ⟨c, w⟩
  · rfl
  by_cases hc : c = '$'
  · subst hc
    rw [operatorAt.eq_1, if_pos (by_contra fun hne => h _ (.inr ⟨_, rfl, hne,
      fun c hc => isDigit_of_mem_takeWhile hc⟩) (List.cons_prefix_cons.2 ⟨rfl, List.takeWhile_prefix _⟩))]
  · rw [operatorAt_of_head_ne (by simpa using hc)]
    exact spellingAt_of_none fun e he hp => h e.1 (.inl ⟨e.2, he⟩) hp

end Functions

/-! ### One call, on the unconsumed input -/

/-- What one call of `lexer_next_token` makes of the input: `TOKEN_EOF`; a token, with
its kind, its text as a C string and the input left after it; or the error it sets. -/
inductive Lexed
  | eof
  | token (type : TokenType) (text : List Char) (rest : List Char)
  | error (msg : String)
  deriving DecidableEq, Repr

/-- The token the scanners read at `v`, the input after the skip loop, chosen by its
first byte as `lexer_next_token` chooses the scanner.  A string literal's text is its
body up to a NUL byte in it, as `strlen` sees the value. -/
def lexToken : List Char → Lexed
  | [] => .eof
  | c :: w =>
    if c = '\'' ∨ c = '"' then
      match stringAt c w with
      | some (b, r) => .token .SCONST (b.takeWhile (· != '\x00')) r
      | none => .error "unterminated string literal"
    else if isDigit c then
      match exponentAt (numberAfter (c :: w)) with
      | some e =>
        let f := fractionAt ((c :: w).dropWhile isDigit)
        let p := (c :: w).takeWhile isDigit ++ (f ++ e)
        .token (if f ≠ [] ∨ e ≠ [] then .FCONST else .ICONST) p ((c :: w).drop p.length)
      | none => .error "invalid number format"
    else if isAlpha c then
      .token (lookupKeyword (identAt c w) (identAt c w).length) (identAt c w) (w.dropWhile isAlnum)
    else
      match operatorAt (c :: w) with
      | some (s, k) => .token k s ((c :: w).drop s.length)
      | none => .error (operatorMessage c)

/-- **The lexer on the unconsumed input**: whitespace and comments dropped as the skip
loop drops them, then one token. -/
def lexOne (v : List Char) : Lexed := lexToken (skipRest v)

/-- What a call's result says of the input: `TOKEN_EOF`, or the token's kind and text
and the input left, or the error set. -/
def Lexed.ofCall (r : Bool × Lexer) : Lexed :=
  if r.1 then
    if r.2.currentToken.type = .EOF then .eof
    else .token r.2.currentToken.type r.2.currentToken.text r.2.rest
  else .error (r.2.errorMsg.getD "")

section Square

variable {L : Lexer} {c : Char} {w : List Char}

theorem Lexed.ofCall_true {r : Bool × Lexer} (h1 : r.1 = true) (he : r.2.currentToken.type ≠ .EOF) :
    Lexed.ofCall r = .token r.2.currentToken.type r.2.currentToken.text r.2.rest := by
  rw [Lexed.ofCall, if_pos h1, if_neg he]

@[simp] theorem Lexed.ofCall_hasCurrent (r : Bool × Lexer) (b : Bool) :
    Lexed.ofCall (r.1, { r.2 with hasCurrent := b }) = Lexed.ofCall r := rfl

theorem Lexed.ofCall_false {r : Bool × Lexer} {msg : String} (h1 : r.1 = false)
    (he : r.2.errorMsg = some msg) : Lexed.ofCall r = .error msg := by
  rw [Lexed.ofCall, if_neg (by simp [h1]), he, Option.getD_some]

/-- The C string of a copied string body. -/
theorem Buf.cstr_append_nul_eq (b : List Char) (o : Bool) :
    (⟨b ++ ['\x00'], o⟩ : Buf).cstr = b.takeWhile (· != '\x00') := by
  rw [Buf.cstr, List.takeWhile_append]
  split_ifs with h
  · rw [(List.takeWhile_prefix _).eq_of_length h]
    simp
  · rfl

theorem lexed_eof (hr : L.rest = []) : Lexed.ofCall (lexerDispatch L) = lexToken L.rest := by
  rw [lexerDispatch_of_rest_nil hr, hr]; rfl

theorem lexed_string (hr : L.rest = c :: w) (hq : c = '\'' ∨ c = '"') :
    Lexed.ofCall (lexerDispatch L) = lexToken L.rest := by
  rw [hr, lexToken, if_pos hq]
  cases hs : stringAt c w with
  | none =>
    obtain ⟨h1, -, -, he⟩ := lexerDispatch_string_fail hq hr ((stringAt_eq_none (quote_ne_backslash hq)).1 hs)
    exact Lexed.ofCall_false h1 he
  | some p =>
    obtain ⟨b, r⟩ := p
    have hsp := (stringAt_eq_some (quote_ne_backslash hq) w).1 hs
    obtain ⟨h1, hm, -, -⟩ := lexerDispatch_string_ok hq hr hsp
    obtain ⟨-, -, htype, hval, -⟩ := lexerDispatch_string_token hq hr hsp
    rw [Lexed.ofCall_true h1 (by rw [htype]; decide), htype, Token.text, hval, Option.map_some',
      Option.getD_some, Buf.cstr_append_nul_eq, hm.rest, hr, hsp.1]
    simp

theorem numberToken_rest (start : ℕ) (b : Bool) (L : Lexer) :
    (lexerScanNumber.numberToken start b L).rest = L.rest := rfl

theorem lexed_number (hr : L.rest = c :: w) (hc : isDigit c = true) :
    Lexed.ofCall (lexerDispatch L) = lexToken L.rest := by
  have hq : ¬ (c = '\'' ∨ c = '"') := by rintro (rfl | rfl) <;> simp [isDigit] at hc
  rw [lexerDispatch_of_digit hr hc, Lexed.ofCall_hasCurrent, hr, lexToken, if_neg hq, if_pos hc, ← hr]
  cases he : exponentAt (numberAfter L.rest) with
  | none =>
    obtain ⟨h1, -, -, he'⟩ := lexerScanNumber_of_none he
    exact Lexed.ofCall_false h1 he'
  | some e =>
    have hw : L.rest.takeWhile isDigit ≠ [] := by rw [hr]; simp [List.takeWhile_cons, hc]
    obtain ⟨hlit, hpre⟩ := numberPrefix_numberLit hw he
    obtain ⟨hv, -, -, -, heof⟩ := numberToken_currentToken L.pos
      (decide (fractionAt (L.rest.dropWhile isDigit) ≠ []) || !e.isEmpty)
      (lexerAdvanceN (L.rest.takeWhile isDigit ++ (fractionAt (L.rest.dropWhile isDigit) ++ e)).length L)
    simp only [lexerAdvanceN_currentToken, lexerAdvanceN_input, lexerAdvanceN_pos_of_le hpre.length_le,
      Nat.add_sub_cancel_left] at hv
    have hb : (decide (fractionAt (L.rest.dropWhile isDigit) ≠ []) || !e.isEmpty) = true ↔
        (fractionAt (L.rest.dropWhile isDigit) ≠ [] ∨ e ≠ []) := by
      cases e <;> simp
    rw [lexerScanNumber_of_some he, Lexed.ofCall_true rfl heof]
    dsimp only
    rw [numberToken_type, Token.text, hv, ← Token.text, numberToken_rest, rest_lexerAdvanceN,
      setText_text_of_prefix L.currentToken hpre (by simp [hw]) hlit.nul_not_mem]
    simp only [hb]

theorem lexed_identifier (hr : L.rest = c :: w) (hd : isDigit c = false) (ha : isAlpha c = true) :
    Lexed.ofCall (lexerDispatch L) = lexToken L.rest := by
  have hq : ¬ (c = '\'' ∨ c = '"') := by rintro (rfl | rfl) <;> simp [isAlpha] at ha
  have hpre := identAt_prefix hr
  have htext := setText_text_of_prefix L.currentToken hpre (List.cons_ne_nil _ _) (identAt_nul ha)
  have hk := @lookupKeyword_kind (identAt c w) (Nat.succ_pos _)
  rw [lexerDispatch_of_alpha hr hd ha, lexerScanIdentifier_of_alpha hr ha, hr, lexToken, if_neg hq,
    if_neg (by simp [hd]), if_pos ha]
  generalize lookupKeyword (identAt c w) (identAt c w).length = kt at hk ⊢
  rw [Lexed.ofCall_hasCurrent, Lexed.ofCall_true rfl hk.2]
  simp only [Token.text_with_type, htext, Lexer.rest_with, rest_lexerAdvanceN, hr]
  simp only [identAt, List.length_cons, List.drop_succ_cons, drop_length_takeWhile]

theorem lexed_operator (hr : L.rest = c :: w) (hq : ¬ (c = '\'' ∨ c = '"')) (hd : isDigit c = false)
    (ha : isAlpha c = false) : Lexed.ofCall (lexerDispatch L) = lexToken L.rest := by
  rw [lexerDispatch_of_operator hr hq hd ha, hr, lexToken, if_neg hq, if_neg (by simp [hd]),
    if_neg (by simp [ha])]
  rcases lexerScanOperator_outcome hr with ⟨h1, s, hl, hm, hk, htext, -, -, -⟩ | ⟨h1, hno, -, -, he⟩
  · rw [operatorAt_of_longest (hr ▸ hl) hk, Lexed.ofCall_hasCurrent, Lexed.ofCall_true h1 (operatorKind_kind hk).2]
    simp only [htext, hm.rest, hr]
  · rw [lexerPeek_eq, hr, List.headD_cons] at he
    rw [operatorAt_of_none (hr ▸ hno), Lexed.ofCall_hasCurrent]
    exact Lexed.ofCall_false h1 he

/-- The dispatch of `lexer_next_token` reads the token `lexToken` reads. -/
theorem lexerDispatch_lexToken (L : Lexer) : Lexed.ofCall (lexerDispatch L) = lexToken L.rest := by
  cases hr : L.rest with
  | nil => exact hr ▸ lexed_eof hr
  | cons c w =>
    rw [← hr]
    by_cases hq : c = '\'' ∨ c = '"'
    · exact lexed_string hr hq
    cases hd : isDigit c
    · cases ha : isAlpha c
      · exact lexed_operator hr hq hd ha
      · exact lexed_identifier hr hd ha
    · exact lexed_number hr hd

end Square

/-- `lexOne` on the unconsumed input is the skip phase, then the dispatch. -/
theorem lexOne_eq_ofCall (lx : Lexer) : lexOne lx.rest = Lexed.ofCall (lexerNextToken lx) := by
  rw [lexOne, ← lexerNextToken_start_rest]
  exact (lexerDispatch_lexToken _).symm

/-- **One call of `lexer_next_token` is `lexOne` of the unconsumed input.**  From every
lexer state, whatever its line, column, previous token and error: the call returns
`TOKEN_EOF` exactly when `lexOne` does; it returns a token exactly when `lexOne` reads
one, with the kind and text `lexOne` gives, and leaves unconsumed the input `lexOne`
leaves; and it fails exactly when `lexOne` reports an error, setting that message. -/
theorem lexerNextToken_lexOne (lx : Lexer) : Lexed.ofCall (lexerNextToken lx) = lexOne lx.rest :=
  (lexOne_eq_ofCall lx).symm

/-! ### Whole runs -/

/-- A token's kind and text, what `lexOne` says of it. -/
def Token.kindText (t : Token) : TokenType × List Char := (t.type, t.text)

/-- A copy has the kind and text of its token. -/
@[simp] theorem Token.kindText_copy (t : Token) : t.copy.kindText = t.kindText := by
  rw [Token.kindText, Token.kindText, Token.copy_text]; rfl

/-- **The tokens of an input**: `lexOne` on what each token leaves, until `TOKEN_EOF`
or an error, with that error; at most one round per byte and one more. -/
def tokenize (v : List Char) : List (TokenType × List Char) × Option String :=
  go (v.length + 1) v
where
  /-- At most `fuel` rounds of `lexOne`. -/
  go : ℕ → List Char → List (TokenType × List Char) × Option String
  | 0, _ => ([], none)
  | fuel + 1, v =>
    match lexOne v with
    | .eof => ([], none)
    | .token k s r => ((k, s) :: (go fuel r).1, (go fuel r).2)
    | .error msg => ([], some msg)

section Runs

variable {v r s : List Char} {k : TokenType}

/-- A token `lexOne` reads leaves less input than it had. -/
theorem lexOne_rest_lt (h : lexOne v = .token k s r) : r.length < v.length := by
  have hsq := lexOne_eq_ofCall (lexerCreate v)
  rw [show (lexerCreate v).rest = v from List.drop_zero _, h, Lexed.ofCall] at hsq
  split_ifs at hsq with h1 he
  cases hsq
  exact lexerNextToken_rest_lt h1 he

/-- Rounds beyond the length of the input change nothing. -/
theorem tokenize_go_eq : ∀ (fuel : ℕ) (v : List Char), v.length < fuel → tokenize.go fuel v = tokenize v
  | 0, _, h => absurd h (Nat.not_lt_zero _)
  | fuel + 1, v, h => by
    rw [tokenize, tokenize.go, tokenize.go]
    cases hv : lexOne v with
    | eof | error => rfl
    | token k s r =>
      have hr := lexOne_rest_lt hv
      simp only [tokenize_go_eq fuel r (by omega), tokenize_go_eq v.length r (by omega)]

/-- After a token, `tokenize` goes on from the input the token leaves. -/
theorem tokenize_of_token (h : lexOne v = .token k s r) :
    tokenize v = ((k, s) :: (tokenize r).1, (tokenize r).2) := by
  rw [tokenize, tokenize.go, h]
  dsimp only
  rw [tokenize_go_eq _ r (lexOne_rest_lt h)]

/-- The parse loop copies the tokens `tokenize` reads from the lexer's unconsumed input
and stops with its error, from every lexer state without an error, whatever the
number of rounds it is given. -/
theorem parserParse_loop_tokenize : ∀ (fuel : ℕ) (lx : Lexer) (acc : List Token), lx.errorMsg = none →
    ((parserParse.loop fuel lx acc).1.map Token.kindText, (parserParse.loop fuel lx acc).2.errorMsg) =
      (acc.map Token.kindText ++ (tokenize.go fuel lx.rest).1, (tokenize.go fuel lx.rest).2)
  | 0, lx, acc, h => by simp [parserParse.loop, tokenize.go, h]
  | fuel + 1, lx, acc, h => by
    rw [parserParse.loop, tokenize.go, lexOne_eq_ofCall lx, Lexed.ofCall]
    cases h1 : (lexerNextToken lx).1
    · obtain ⟨c, w, -, he⟩ := lexerNextToken_errorMsg_of_false h1
      simp [he]
    rw [if_pos rfl, if_pos rfl, lexerCurrentToken_of_true h1]
    dsimp only
    have he := (lexerNextToken_errorMsg_of_true h1).trans h
    by_cases hE : (lexerNextToken lx).2.currentToken.type = .EOF
    · simp [hE, he]
    · rw [if_neg hE, if_neg hE, parserParse_loop_tokenize fuel _ _ he]
      simp only [List.map_append, List.map_cons, List.map_nil, Token.kindText_copy, List.append_assoc,
        List.singleton_append]
      rfl

/-- The tokens and the error of `parser_parse` on a fresh parser, one by one. -/
theorem parserParse_kindText_error (input : List Char) :
    (parserParse (parserCreate input)).1.map Token.kindText = (tokenize input).1 ∧
      parserError (parserParse (parserCreate input)).2 = (tokenize input).2 := by
  have hr : (lexerCreate input).rest = input := List.drop_zero _
  have h := parserParse_loop_tokenize (input.length + 1) (lexerCreate input) [] rfl
  rw [hr, Prod.ext_iff] at h
  simpa [parserParse, parserCreate, parserError, lexerError, tokenize, hr] using h

/-- **`parser_parse` returns the tokens of `tokenize`.**  For every input, the kinds
and texts of the tokens `parser_parse` returns are those `tokenize` reads from the
input, in order, and `parser_error` is the error `tokenize` stops at, `NULL` when it
reaches `TOKEN_EOF`. -/
theorem parserParse_tokenize (input : List Char) :
    ((parserParse (parserCreate input)).1.map Token.kindText, parserError (parserParse (parserCreate input)).2) =
      tokenize input :=
  Prod.ext_iff.2 (parserParse_kindText_error input)

/-- The tokens `tokenize` reads after the first `m` calls of a run that produced
tokens are those the run's lexer reads from where it stands. -/
theorem tokenize_lexerRun (lx : Lexer) : ∀ m, (∀ i < m, lexerRun.produced lx i) →
    (tokenize lx.rest).1.drop m = (tokenize (lexerRun lx m).rest).1 ∧
      (tokenize lx.rest).2 = (tokenize (lexerRun lx m).rest).2
  | 0, _ => ⟨rfl, rfl⟩
  | m + 1, hp => by
    obtain ⟨ih₁, ih₂⟩ := tokenize_lexerRun lx m fun i hi => hp i (Nat.lt_succ_of_lt hi)
    obtain ⟨h1, he⟩ := hp m (Nat.lt_succ_self m)
    have hsq := lexOne_eq_ofCall (lexerRun lx m)
    rw [Lexed.ofCall_true h1 he] at hsq
    rw [tokenize_of_token hsq] at ih₁ ih₂
    rw [← List.drop_drop, ih₁, ih₂]
    exact ⟨rfl, rfl⟩

end Runs

/-- **Parsing resumes where a token ends.**  For every input and every `m` no greater
than the number of tokens `parser_parse` returns, parsing the input left after the
`m`-th token (the lexer's unconsumed bytes after `m` calls from `lexer_create`) returns
the kinds and texts of the tokens after the `m`-th, and the same `parser_error`. -/
theorem parserParse_resume (input : List Char) (m : ℕ) (hm : m ≤ (parserParse (parserCreate input)).1.length) :
    (parserParse (parserCreate (lexerRun (lexerCreate input) m).rest)).1.map Token.kindText =
      ((parserParse (parserCreate input)).1.map Token.kindText).drop m ∧
    parserError (parserParse (parserCreate (lexerRun (lexerCreate input) m).rest)).2 =
      parserError (parserParse (parserCreate input)).2 := by
  obtain ⟨m', -, hpre, -, htok, -⟩ := parserParse_run input
  have hlen : m ≤ m' := by rw [htok, List.length_map, List.length_range] at hm; exact hm
  obtain ⟨h₁, h₂⟩ := tokenize_lexerRun (lexerCreate input) m fun i hi => hpre i (by omega)
  have e₁ := parserParse_kindText_error input
  have e₂ := parserParse_kindText_error (lexerRun (lexerCreate input) m).rest
  rw [show (lexerCreate input).rest = input from List.drop_zero _] at h₁ h₂
  exact ⟨by rw [e₂.1, e₁.1, h₁], by rw [e₂.2, e₁.2, h₂]⟩

theorem parserParse_resume_numbers :
    1 ≤ (parserParse (parserCreate "1 2".toList)).1.length ∧
    ((parserParse (parserCreate (lexerRun (lexerCreate "1 2".toList) 1).rest)).1.map Token.kindText =
      ((parserParse (parserCreate "1 2".toList)).1.map Token.kindText).drop 1 ∧
    parserError (parserParse (parserCreate (lexerRun (lexerCreate "1 2".toList) 1).rest)).2 =
      parserError (parserParse (parserCreate "1 2".toList)).2) :=
  ⟨by decide, parserParse_resume _ 1 (by decide)⟩

end SqlParser
end MantisDB
