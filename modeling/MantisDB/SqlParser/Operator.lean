import MantisDB.SqlParser.Number

/-!
# Operators and parameter markers

`lexer_scan_operator` (`src/cgo/sql_parser.c`, lines 477-707) against the operators
of `sql_parser.h` (`operatorKinds`, each with the kind the header's comment pairs it
with) and the parameter markers `$ D+`.

The scanner decides with one or two bytes of lookahead; it takes the longest
operator at the cursor exactly when none of the bytes that would extend what it took
to a longer operator follows it (`operatorNext`, `operator_length_le`).  Every branch
of the scanner is one of a few shapes (`OperatorOutcome`), and from them
`lexerDispatch_operator`: the scan succeeds exactly when an operator starts the
input, takes the longest one, and gives it its kind.
-/

namespace MantisDB
namespace SqlParser

/-- The operators of `sql_parser.h`, each with the kind its comment there pairs it
with.  The header gives `~` as the comment of `TOKEN_BITNOT` as well, a kind that no
scanner produces. -/
def operatorKinds : List (List Char × TokenType) :=
  [(['.'], TokenType.DOT), ([','], TokenType.COMMA), ([';'], TokenType.SEMICOLON),
   ([':'], TokenType.COLON), ([':', ':'], TokenType.TYPECAST), (['+'], TokenType.PLUS),
   (['-'], TokenType.MINUS), (['*'], TokenType.MULTIPLY), (['/'], TokenType.DIVIDE),
   (['%'], TokenType.MODULO), (['^'], TokenType.POWER), (['<'], TokenType.LT),
   (['<', '='], TokenType.LE), (['>'], TokenType.GT), (['>', '='], TokenType.GE),
   (['='], TokenType.EQ), (['<', '>'], TokenType.NE), (['!', '='], TokenType.NE),
   (['|', '|'], TokenType.CONCAT), (['<', '<'], TokenType.LSHIFT), (['>', '>'], TokenType.RSHIFT),
   (['&'], TokenType.BITAND), (['|'], TokenType.BITOR), (['#'], TokenType.BITXOR),
   (['~'], TokenType.REGEX_MATCH), (['~', '*'], TokenType.REGEX_IMATCH),
   (['!', '~'], TokenType.REGEX_NMATCH), (['!', '~', '*'], TokenType.REGEX_INMATCH),
   (['-', '>'], TokenType.JSON_EXTRACT), (['-', '>', '>'], TokenType.JSON_EXTRACT_TEXT),
   (['#', '>'], TokenType.JSON_PATH), (['#', '>', '>'], TokenType.JSON_PATH_TEXT),
   (['('], TokenType.LPAREN), ([')'], TokenType.RPAREN), (['['], TokenType.LBRACKET),
   ([']'], TokenType.RBRACKET), (['{'], TokenType.LBRACE), (['}'], TokenType.RBRACE)]

/-- A parameter marker: `$` and a run of digits. -/
def IsParam (s : List Char) : Prop := ∃ d, s = '$' :: d ∧ IsDigits d

/-- An operator of the header, or a parameter marker. -/
def IsOperator (s : List Char) : Prop := (∃ k, (s, k) ∈ operatorKinds) ∨ IsParam s

/-- `s` is the longest operator at the front of `v`. -/
def LongestOperator (s v : List Char) : Prop :=
  IsOperator s ∧ s <+: v ∧ ∀ s', IsOperator s' → s' <+: v → s'.length ≤ s.length

/-- The bytes that extend `pre` to a longer operator of the table. -/
def operatorNext (pre : List Char) : List Char :=
  operatorKinds.filterMap fun e => if e.1.take pre.length = pre then e.1[pre.length]? else none

theorem operatorKinds_head_ne_dollar : ∀ e ∈ operatorKinds, e.1.head? ≠ some '$' := by decide

theorem operatorKinds_ne_nil : ∀ e ∈ operatorKinds, e.1 ≠ [] := by decide

/-- **What the lookahead has to rule out.**  When none of the bytes of `operatorNext pre`
follows a prefix `pre` of `v`, no operator of the table longer than `pre` starts `v`. -/
theorem operator_length_le {pre v : List Char} (hpre : pre <+: v)
    (hnext : ∀ x ∈ operatorNext pre, v[pre.length]? ≠ some x) :
    ∀ e ∈ operatorKinds, e.1 <+: v → e.1.length ≤ pre.length := by
  intro e he hev
  by_contra hlt
  push_neg at hlt
  have htake : e.1.take pre.length = pre := by
    rw [List.prefix_iff_eq_take.1 hev, List.take_take, Nat.min_eq_left hlt.le,
      ← List.prefix_iff_eq_take.1 hpre]
  have hv : v[pre.length]? = e.1[pre.length]? := by
    conv_rhs => rw [List.prefix_iff_eq_take.1 hev]
    rw [List.getElem?_take_of_lt hlt]
  refine hnext e.1[pre.length] (List.mem_filterMap.2 ⟨e, he, ?_⟩) (by rw [hv, List.getElem?_eq_getElem])
  rw [if_pos htake, List.getElem?_eq_getElem]

/-- The kind an operator is given: its kind in the table, `TOKEN_PARAM` for a parameter
marker. -/
def OperatorKind (s : List Char) (k : TokenType) : Prop :=
  (s, k) ∈ operatorKinds ∨ (IsParam s ∧ k = .PARAM)

theorem operatorKinds_length : ∀ e ∈ operatorKinds, e.1.length ≤ 3 := by decide

theorem operatorKinds_nul : ∀ e ∈ operatorKinds, '\x00' ∉ e.1 := by decide

theorem operatorKinds_kind : ∀ e ∈ operatorKinds, e.2 ≠ .SCONST ∧ e.2 ≠ .EOF := by decide

theorem operatorKind_kind {s : List Char} {k : TokenType} (h : OperatorKind s k) :
    k ≠ .SCONST ∧ k ≠ .EOF := by
  rcases h with h | ⟨-, rfl⟩
  · exact operatorKinds_kind _ h
  · decide

theorem IsOperator.nul_not_mem {s : List Char} (h : IsOperator s) : '\x00' ∉ s := by
  rcases h with ⟨k, hk⟩ | ⟨d, rfl, hd⟩
  · exact operatorKinds_nul _ hk
  · rintro (_ | ⟨_, h0⟩)
    exact absurd (hd.2 _ h0) (by decide)

theorem IsOperator.length_pos {s : List Char} (h : IsOperator s) : 0 < s.length := by
  rcases h with ⟨k, hk⟩ | ⟨d, rfl, -⟩
  · exact List.length_pos.2 (operatorKinds_ne_nil _ hk)
  · exact Nat.succ_pos _

section Longest

variable {s v w : List Char} {c : Char} {k : TokenType}

/-- A table operator that no byte of `operatorNext` extends is the longest operator. -/
theorem longestOperator_of_mem (hk : (s, k) ∈ operatorKinds) (hs : s <+: v)
    (hn : ∀ x ∈ operatorNext s, v[s.length]? ≠ some x) : LongestOperator s v := by
  refine ⟨.inl ⟨k, hk⟩, hs, fun s' hs' hp => ?_⟩
  rcases hs' with ⟨k', hk'⟩ | ⟨d, rfl, -⟩
  · exact operator_length_le hs hn (s', k') hk' hp
  · obtain ⟨a, s'', rfl⟩ := List.exists_cons_of_ne_nil (operatorKinds_ne_nil _ hk)
    obtain ⟨t, rfl⟩ := hp
    obtain ⟨rfl, -⟩ := List.cons_prefix_cons.1 hs
    exact absurd rfl (operatorKinds_head_ne_dollar _ hk)

/-- `$` and the digits after it are the longest operator there. -/
theorem longestOperator_param (hd : isDigit (w.headD '\x00') = true) :
    LongestOperator ('$' :: w.takeWhile isDigit) ('$' :: w) := by
  have hw : w.takeWhile isDigit ≠ [] := by
    rcases w with _ | ⟨d, w⟩
    · simp [isDigit] at hd
    · simp [List.takeWhile_cons, show isDigit d = true from hd]
  refine ⟨.inr ⟨_, rfl, hw, fun c hc => isDigit_of_mem_takeWhile hc⟩,
    List.cons_prefix_cons.2 ⟨rfl, List.takeWhile_prefix _⟩, fun s' hs' hp => ?_⟩
  rcases hs' with ⟨k', hk'⟩ | ⟨d, rfl, hd'⟩
  · obtain ⟨a, s'', rfl⟩ := List.exists_cons_of_ne_nil (operatorKinds_ne_nil _ hk')
    obtain ⟨rfl, -⟩ := List.cons_prefix_cons.1 hp
    exact absurd rfl (operatorKinds_head_ne_dollar _ hk')
  · obtain ⟨t, ht⟩ := (List.cons_prefix_cons.1 hp).2
    have := digits_le t hd'.2
    rw [ht] at this
    simpa using this

/-- Where the bytes of `operatorNext pre` do not follow `pre`, only operators no longer
than `pre` can start the input; when none of those is a prefix of `pre`, and no
parameter marker starts the input, no operator does. -/
theorem not_operator_of {p : List Char} (hpre : p <+: v)
    (hn : ∀ x ∈ operatorNext p, v[p.length]? ≠ some x)
    (hshort : ∀ e ∈ operatorKinds, e.1.length ≤ p.length → ¬ e.1 <+: p)
    (hparam : ∀ d, IsDigits d → ¬ '$' :: d <+: v) : ∀ s, IsOperator s → ¬ s <+: v := by
  rintro s (⟨k, hk⟩ | ⟨d, rfl, hd⟩) hs
  · have hle := operator_length_le hpre hn (s, k) hk hs
    exact hshort (s, k) hk hle (List.prefix_of_prefix_length_le hs hpre hle)
  · exact hparam d hd hs

end Longest

/-! ### The scanner's branches -/

/-- The message `lexer_scan_operator` fails with at the byte `c`. -/
def operatorMessage (c : Char) : String :=
  if c = '!' then "unexpected character '!'"
  else if c = '$' then "invalid parameter marker"
  else "unexpected character"

theorem operatorMessage_mem (c : Char) : some (operatorMessage c) ∈
    [some "unexpected character '!'", some "invalid parameter marker", some "unexpected character"] := by
  unfold operatorMessage; split_ifs <;> simp

/-- What `lexer_scan_operator` may leave at `lx`: the longest operator at the cursor
consumed, with its kind, its text and its length in the token; or a failure where no
operator starts the input, with one of the scanner's messages. -/
def OperatorOutcome (lx : Lexer) (r : Bool × Lexer) : Prop :=
  (r.1 = true ∧ ∃ s, LongestOperator s lx.rest ∧ Lexer.Moved s.length lx r.2 ∧
    OperatorKind s r.2.currentToken.type ∧ r.2.currentToken.text = s ∧
    r.2.currentToken.length = s.length ∧ r.2.currentToken.location = lx.currentToken.location ∧
    r.2.errorMsg = lx.errorMsg) ∨
  (r.1 = false ∧ (∀ s, IsOperator s → ¬ s <+: lx.rest) ∧ (∃ k, Lexer.Moved k lx r.2) ∧
    r.2.currentToken.location = lx.currentToken.location ∧
    r.2.errorMsg = some (operatorMessage (lexerPeek lx)))

/-- The state the `switch` of `lexer_scan_operator` runs on: `lx` past the byte `c`,
with the one-byte text `c` stored. -/
structure OperatorStart (lx : Lexer) (c : Char) (L : Lexer) : Prop where
  moved : Lexer.Moved 1 lx L
  token : L.currentToken =
    { lx.currentToken with value := some (((palloc 3).write 0 c).write 1 '\x00'), length := 1 }
  errorMsg : L.errorMsg = lx.errorMsg

section Branches

variable {lx L : Lexer} {c : Char} {w : List Char} {k : TokenType}

theorem cstr_palloc_three (hc : c ≠ '\x00') : (((palloc 3).write 0 c).write 1 '\x00').cstr = [c] := by
  simp [palloc, Buf.write, Buf.cstr, List.replicate, hc]

theorem cstr_palloc_three_memcpy {tail : List Char} (hc : c ≠ '\x00') (h0 : '\x00' ∉ tail)
    (hl : tail.length ≤ 2) (hne : tail ≠ []) :
    (((((palloc 3).write 0 c).write 1 '\x00').memcpy 1 tail).write (tail.length + 1) '\x00').cstr =
      c :: tail := by
  rcases tail with _ | ⟨x, _ | ⟨y, _ | ⟨z, t⟩⟩⟩
  · exact absurd rfl hne
  · simp at h0; simp [palloc, Buf.write, Buf.memcpy, Buf.cstr, List.replicate, hc, Ne.symm h0]
  · simp at h0; simp [palloc, Buf.write, Buf.memcpy, Buf.cstr, List.replicate, hc, Ne.symm h0.1, Ne.symm h0.2]
  · simp at hl

theorem OperatorStart.rest (hS : OperatorStart lx c L) (hr : lx.rest = c :: w) : L.rest = w := by
  rw [hS.moved.rest, hr]; rfl

/-- A one-byte operator that nothing extends. -/
theorem OperatorStart.single (hS : OperatorStart lx c L) (hr : lx.rest = c :: w)
    (hk : ([c], k) ∈ operatorKinds) (hn : ∀ x ∈ operatorNext [c], w[0]? ≠ some x) :
    OperatorOutcome lx (true, L.setType k) := by
  have hc : c ≠ '\x00' := fun h => operatorKinds_nul _ hk (by simp [h])
  refine .inl ⟨rfl, [c], longestOperator_of_mem hk (by rw [hr]; exact List.cons_prefix_cons.2 ⟨rfl, List.nil_prefix⟩)
    (by rw [hr]; simpa using hn), (hS.moved.update _ _ _), .inl (by simpa [hS.token] using hk), ?_,
    by simp [hS.token], by simp [hS.token], by simp [hS.errorMsg]⟩
  simp [hS.token, Token.text, cstr_palloc_three hc]

/-- A two- or three-byte operator `c · tail` that nothing extends. -/
theorem OperatorStart.long (hS : OperatorStart lx c L) (hr : lx.rest = c :: w) {t : List Char}
    (hk : (c :: t, k) ∈ operatorKinds) (ht : t <+: w) (hne : t ≠ [])
    (hn : ∀ x ∈ operatorNext (c :: t), w[t.length]? ≠ some x) :
    OperatorOutcome lx (true, L.longOperator k t) := by
  have h0 := operatorKinds_nul _ hk
  have hl := operatorKinds_length _ hk
  simp only [List.mem_cons, not_or] at h0
  simp only [List.length_cons] at hl
  refine .inl ⟨rfl, c :: t, longestOperator_of_mem hk
    (by rw [hr]; exact List.cons_prefix_cons.2 ⟨rfl, ht⟩) (by rw [hr]; simpa using hn), ?_,
    .inl (by simpa [Lexer.longOperator] using hk), ?_, by simp [Lexer.longOperator],
    by simp [Lexer.longOperator, hS.token], by simp [Lexer.longOperator, hS.errorMsg]⟩
  · rw [List.length_cons, Nat.add_comm]
    exact (hS.moved.update _ _ _).advanceN t.length
  simp only [Lexer.longOperator, lexerAdvanceN_currentToken, hS.token, Token.text, Option.map_some',
    Option.getD_some]
  exact cstr_palloc_three_memcpy (Ne.symm h0.1) h0.2 (by omega) hne

/-- A failure where no operator starts the input. -/
theorem OperatorStart.fail (hS : OperatorStart lx c L) (hr : lx.rest = c :: w) {msg : String}
    (hno : ∀ s, IsOperator s → ¬ s <+: c :: w)
    (hmsg : msg = operatorMessage c) :
    OperatorOutcome lx (false, lexerSetError L msg) :=
  .inr ⟨rfl, by rw [hr]; exact hno, ⟨1, hS.moved.update _ _ _⟩, by simp [lexerSetError, hS.token],
    by rw [lexerPeek_eq, hr, hmsg]; rfl⟩

theorem param_value (ds : List Char) :
    (((palloc (ds.length + 1 + 1)).write 0 '$').memcpy 1 ds).write (ds.length + 1) '\x00' =
      ⟨'$' :: ds ++ ['\x00'], false⟩ := by
  have h := Buf.memcpy_eq false ds ['$'] (List.replicate ds.length '\x00') ['\x00'] (by simp)
  have hw : (palloc (ds.length + 1 + 1)).write 0 '$' =
      ⟨['$'] ++ List.replicate ds.length '\x00' ++ ['\x00'], false⟩ := by
    rw [palloc, List.replicate_succ, List.replicate_succ']
    simp [Buf.write]
  rw [hw, show (1 : ℕ) = ['$'].length from rfl, h]
  simp [Buf.write, List.set_append_right]

/-- A parameter marker: `$` and the digits after it. -/
theorem OperatorStart.param (hS : OperatorStart lx '$' L) (hr : lx.rest = '$' :: w)
    (hd : isDigit (w.headD '\x00') = true) :
    OperatorOutcome lx
      (let start := L.pos
       let lexer := lexerAdvanceWhile isDigit L
       let len := lexer.pos - start + 1
       let value := (((palloc (len + 1)).write 0 '$').memcpy 1
         ((lexer.input.drop start).take (len - 1))).write len '\x00'
       (true, { lexer with currentToken := { lexer.currentToken with
         value := some value, length := len, type := .PARAM,
         ival := strtoll ((value.data.drop 1).takeWhile (· != '\x00')) } })) := by
  have hLr := hS.rest hr
  have hle : (w.takeWhile isDigit).length ≤ L.rest.length := by rw [hLr]; exact (List.takeWhile_prefix _).length_le
  have hpos := lexerAdvanceN_pos_of_le hle
  have htake : (L.input.drop L.pos).take (w.takeWhile isDigit).length = w.takeWhile isDigit := by
    rw [← Lexer.rest, hLr]; exact (List.prefix_iff_eq_take.1 (List.takeWhile_prefix _)).symm
  have hnul : '\x00' ∉ w.takeWhile isDigit := fun h => by simpa [isDigit] using isDigit_of_mem_takeWhile h
  simp only [lexerAdvanceWhile_eq, hLr, hpos, lexerAdvanceN_input, Nat.add_sub_cancel_left,
    Nat.add_sub_cancel, htake, param_value]
  refine .inl ⟨rfl, '$' :: w.takeWhile isDigit, hr ▸ longestOperator_param hd, ?_,
    .inr ⟨(longestOperator_param hd).1.resolve_left ?_, rfl⟩, ?_, rfl, by simp [hS.token],
    by simp [hS.errorMsg]⟩
  · rw [List.length_cons, Nat.add_comm]
    exact (hS.moved.advanceN _).of_cursor (by simp) hpos.symm rfl rfl
  · rintro ⟨k', hk'⟩
    exact operatorKinds_head_ne_dollar _ hk' rfl
  · have hp : ∀ x ∈ w.takeWhile isDigit, (x != '\x00') = true := fun x hx =>
      bne_iff_ne.2 fun h => hnul (h ▸ hx)
    simp [Token.text, Buf.cstr, List.takeWhile_append_of_pos hp]

theorem OperatorStart.single_of_nil (hS : OperatorStart lx c L) (hr : lx.rest = c :: w)
    (hk : ([c], k) ∈ operatorKinds) (hn : operatorNext [c] = []) :
    OperatorOutcome lx (true, L.setType k) :=
  hS.single hr hk (by simp [hn])

theorem operatorStart_of (lx : Lexer) : OperatorStart lx (lexerPeek lx)
    (lexerAdvance { lx with currentToken := { lx.currentToken with
      value := some (((palloc 3).write 0 (lexerPeek lx)).write 1 '\x00'), length := 1 } }) :=
  ⟨((Lexer.Moved.refl lx).update _ _ _).advance, by simp, by simp⟩

/-- `lexer_scan_operator` is its `switch` on the byte `c` under the cursor, the byte
after it, and the state past `c`. -/
theorem lexerScanOperator_switch (hr : lx.rest = c :: w) :
    ∃ L, OperatorStart lx c L ∧ lexerScanOperator lx = lexerScanOperator.switch c (w.headD '\x00') L := by
  have hpk : lexerPeek lx = c := by rw [lexerPeek_eq, hr]; rfl
  have hnext : (if lx.pos + 1 < lx.input.length then (lx.input[lx.pos + 1]?).getD '\x00' else '\x00') =
      w.headD '\x00' := by
    simp only [pos_add_lt_iff, getElem?_pos_add, hr]
    cases w <;> simp
  exact ⟨_, hpk ▸ operatorStart_of lx, by rw [lexerScanOperator]; simp only [hnext, hpk]⟩

end Branches

section Lookahead

variable {w : List Char} {d e : Char}

theorem prefix_one (h : w.headD '\x00' = d) (hd : d ≠ '\x00') : [d] <+: w := by
  rcases w with _ | ⟨a, w⟩
  · exact absurd h.symm hd
  · exact List.cons_prefix_cons.2 ⟨h.symm, List.nil_prefix⟩

theorem prefix_two (h : w.headD '\x00' = d) (h' : w[1]? = some e) : [d, e] <+: w := by
  rcases w with _ | ⟨a, _ | ⟨b, w⟩⟩
  · simp at h'
  · simp at h'
  · simp at h h'
    subst h h'
    exact List.cons_prefix_cons.2 ⟨rfl, List.cons_prefix_cons.2 ⟨rfl, List.nil_prefix⟩⟩

theorem getElem?_zero_ne (h : ¬ w.headD '\x00' = d) : w[0]? ≠ some d := by
  rcases w with _ | ⟨a, w⟩
  · simp
  · simpa using h

end Lookahead

/-- **Every branch of `lexer_scan_operator` has an operator outcome.** -/
theorem lexerScanOperator_outcome {lx : Lexer} {c : Char} {w : List Char} (hr : lx.rest = c :: w) :
    OperatorOutcome lx (lexerScanOperator lx) := by
  obtain ⟨L, hS, heq⟩ := lexerScanOperator_switch hr
  have hthird : ∀ d, (L.pos + 1 < L.input.length ∧ L.input[L.pos + 1]? = some d) ↔ w[1]? = some d := by
    intro d
    rw [pos_add_lt_iff, getElem?_pos_add, hS.rest hr]
    constructor
    · exact fun h => h.2
    · intro h; exact ⟨(List.getElem?_eq_some_iff.1 h).1, h⟩
  rw [heq, lexerScanOperator.switch.eq_def]
  dsimp only
  split
  · exact hS.single_of_nil hr (by decide) rfl
  · exact hS.single_of_nil hr (by decide) rfl
  · exact hS.single_of_nil hr (by decide) rfl
  · exact hS.single_of_nil hr (by decide) rfl
  · exact hS.single_of_nil hr (by decide) rfl
  · exact hS.single_of_nil hr (by decide) rfl
  · exact hS.single_of_nil hr (by decide) rfl
  · exact hS.single_of_nil hr (by decide) rfl
  · exact hS.single_of_nil hr (by decide) rfl
  · exact hS.single_of_nil hr (by decide) rfl
  · -- `-`, `->`, `->>`
    split_ifs with h1 h2
    · exact hS.long hr (t := ['>', '>']) (by decide) (prefix_two h1 ((hthird _).1 h2))
        (List.cons_ne_nil _ _) (by simp [show operatorNext ['-', '>', '>'] = [] from rfl])
    · exact hS.long hr (t := ['>']) (by decide) (prefix_one h1 (by decide)) (List.cons_ne_nil _ _)
        (by simpa [show operatorNext ['-', '>'] = ['>'] from rfl] using (hthird _).not.1 h2)
    · exact hS.single hr (by decide)
        (by simpa [show operatorNext ['-'] = ['>', '>'] from rfl] using getElem?_zero_ne h1)
  · exact hS.single_of_nil hr (by decide) rfl
  · exact hS.single_of_nil hr (by decide) rfl
  · exact hS.single_of_nil hr (by decide) rfl
  · exact hS.single_of_nil hr (by decide) rfl
  · -- `<`, `<=`, `<>`, `<<`
    split_ifs with h1 h2 h3
    · exact hS.long hr (t := ['=']) (by decide) (prefix_one h1 (by decide)) (List.cons_ne_nil _ _)
        (by simp [show operatorNext ['<', '='] = [] from rfl])
    · exact hS.long hr (t := ['>']) (by decide) (prefix_one h2 (by decide)) (List.cons_ne_nil _ _)
        (by simp [show operatorNext ['<', '>'] = [] from rfl])
    · exact hS.long hr (t := ['<']) (by decide) (prefix_one h3 (by decide)) (List.cons_ne_nil _ _)
        (by simp [show operatorNext ['<', '<'] = [] from rfl])
    · exact hS.single hr (by decide) (by
        simpa [show operatorNext ['<'] = ['=', '>', '<'] from rfl] using
          ⟨getElem?_zero_ne h1, getElem?_zero_ne h2, getElem?_zero_ne h3⟩)
  · -- `>`, `>=`, `>>`
    split_ifs with h1 h2
    · exact hS.long hr (t := ['=']) (by decide) (prefix_one h1 (by decide)) (List.cons_ne_nil _ _)
        (by simp [show operatorNext ['>', '='] = [] from rfl])
    · exact hS.long hr (t := ['>']) (by decide) (prefix_one h2 (by decide)) (List.cons_ne_nil _ _)
        (by simp [show operatorNext ['>', '>'] = [] from rfl])
    · exact hS.single hr (by decide) (by
        simpa [show operatorNext ['>'] = ['=', '>'] from rfl] using ⟨getElem?_zero_ne h1, getElem?_zero_ne h2⟩)
  · exact hS.single_of_nil hr (by decide) rfl
  · -- `!=`, `!~`, `!~*`, and a bare `!`
    split_ifs with h1 h2 h3
    · exact hS.long hr (t := ['=']) (by decide) (prefix_one h1 (by decide)) (List.cons_ne_nil _ _)
        (by simp [show operatorNext ['!', '='] = [] from rfl])
    · exact hS.long hr (t := ['~', '*']) (by decide) (prefix_two h2 ((hthird _).1 h3))
        (List.cons_ne_nil _ _) (by simp [show operatorNext ['!', '~', '*'] = [] from rfl])
    · exact hS.long hr (t := ['~']) (by decide) (prefix_one h2 (by decide)) (List.cons_ne_nil _ _)
        (by simpa [show operatorNext ['!', '~'] = ['*'] from rfl] using (hthird _).not.1 h3)
    · refine hS.fail hr (not_operator_of (p := ['!']) (List.cons_prefix_cons.2 ⟨rfl, List.nil_prefix⟩)
        ?_ (by decide) ?_) rfl
      · simpa [show operatorNext ['!'] = ['=', '~', '~'] from rfl] using
          ⟨getElem?_zero_ne h1, getElem?_zero_ne h2⟩
      · intro d _ h; simp at h
  · -- `|`, `||`
    split_ifs with h1
    · exact hS.long hr (t := ['|']) (by decide) (prefix_one h1 (by decide)) (List.cons_ne_nil _ _)
        (by simp [show operatorNext ['|', '|'] = [] from rfl])
    · exact hS.single hr (by decide)
        (by simpa [show operatorNext ['|'] = ['|'] from rfl] using getElem?_zero_ne h1)
  · exact hS.single_of_nil hr (by decide) rfl
  · -- `#`, `#>`, `#>>`
    split_ifs with h1 h2
    · exact hS.long hr (t := ['>', '>']) (by decide) (prefix_two h1 ((hthird _).1 h2))
        (List.cons_ne_nil _ _) (by simp [show operatorNext ['#', '>', '>'] = [] from rfl])
    · exact hS.long hr (t := ['>']) (by decide) (prefix_one h1 (by decide)) (List.cons_ne_nil _ _)
        (by simpa [show operatorNext ['#', '>'] = ['>'] from rfl] using (hthird _).not.1 h2)
    · exact hS.single hr (by decide)
        (by simpa [show operatorNext ['#'] = ['>', '>'] from rfl] using getElem?_zero_ne h1)
  · -- `~`, `~*`
    split_ifs with h1
    · exact hS.long hr (t := ['*']) (by decide) (prefix_one h1 (by decide)) (List.cons_ne_nil _ _)
        (by simp [show operatorNext ['~', '*'] = [] from rfl])
    · exact hS.single hr (by decide)
        (by simpa [show operatorNext ['~'] = ['*'] from rfl] using getElem?_zero_ne h1)
  · -- `:`, `::`
    split_ifs with h1
    · exact hS.long hr (t := [':']) (by decide) (prefix_one h1 (by decide)) (List.cons_ne_nil _ _)
        (by simp [show operatorNext [':', ':'] = [] from rfl])
    · exact hS.single hr (by decide)
        (by simpa [show operatorNext [':'] = [':'] from rfl] using getElem?_zero_ne h1)
  · -- `$` and its digits
    split_ifs with h1
    · exact hS.param hr h1
    · refine hS.fail hr (not_operator_of (p := ['$']) (List.cons_prefix_cons.2 ⟨rfl, List.nil_prefix⟩)
        (by simp [show operatorNext ['$'] = [] from rfl]) (by decide) ?_) rfl
      rintro d ⟨hd, hd'⟩ ⟨t, ht⟩
      obtain ⟨d0, ds, rfl⟩ := List.exists_cons_of_ne_nil hd
      simp only [List.cons_append, List.cons.injEq] at ht
      rw [← ht.2] at h1
      exact h1 (hd' d0 (List.mem_cons_self _ _))
  · -- every other byte
    refine hS.fail hr (not_operator_of (p := []) List.nil_prefix ?_ (by decide) ?_) ?_
    · rw [show operatorNext [] = ['.', ',', ';', ':', ':', '+', '-', '*', '/', '%', '^', '<', '<', '>',
        '>', '=', '<', '!', '|', '<', '>', '&', '|', '#', '~', '~', '!', '!', '-', '-', '#', '#', '(',
        ')', '[', ']', '{', '}'] from rfl]
      intro x hx h
      rw [List.length_nil, List.getElem?_cons_zero, Option.some.injEq] at h
      subst h
      simp_all only [List.mem_cons, List.not_mem_nil, or_false, imp_false]
    · rintro d - h
      exact absurd (List.cons_prefix_cons.1 h).1.symm ‹_›
    · rw [operatorMessage, if_neg ‹_›, if_neg ‹_›]

/-- **Operators.**  At a byte that is not a quote, a digit or a letter, the scan succeeds
exactly when an operator of the header or a parameter marker starts the input.  It then
consumes the longest one and gives it the kind the header pairs with it (`TOKEN_PARAM`
for a parameter marker); otherwise it fails with one of its three messages. -/
theorem lexerDispatch_operator {lx : Lexer} {c : Char} {w : List Char} (hr : lx.rest = c :: w)
    (hq : ¬ (c = '\'' ∨ c = '"')) (hd : isDigit c = false) (ha : isAlpha c = false) :
    ((lexerDispatch lx).1 = true ↔ ∃ s, IsOperator s ∧ s <+: lx.rest) ∧
    ((lexerDispatch lx).1 = true → ∃ s, LongestOperator s lx.rest ∧
      (lexerDispatch lx).2.pos = lx.pos + s.length ∧
      OperatorKind s (lexerDispatch lx).2.currentToken.type) ∧
    ((lexerDispatch lx).1 = false → (lexerDispatch lx).2.errorMsg ∈
      [some "unexpected character '!'", some "invalid parameter marker", some "unexpected character"]) := by
  rw [lexerDispatch_of_operator hr hq hd ha]
  rcases lexerScanOperator_outcome hr with ⟨h1, s, hl, hm, hk, -⟩ | ⟨h1, hno, -, -, hmsg⟩
  · refine ⟨iff_of_true h1 ⟨s, hl.1, hl.2.1⟩, fun _ => ⟨s, hl, ?_, hk⟩, fun h => by simp [h1] at h⟩
    rw [(hm.update _ _ _).pos, Nat.min_eq_left hl.2.1.length_le]
  · exact ⟨iff_of_false (by simp [h1]) fun ⟨s, hs, hp⟩ => hno s hs hp, fun h => by simp [h1] at h,
      fun _ => by simp only [hmsg, operatorMessage_mem]⟩

theorem lexerDispatch_operator_json :
    (lexerCreate "->>x".toList).rest = '-' :: ">>x".toList ∧ ¬ ('-' = '\'' ∨ '-' = '"') ∧
    isDigit '-' = false ∧ isAlpha '-' = false ∧
    (((lexerDispatch (lexerCreate "->>x".toList)).1 = true ↔
        ∃ s, IsOperator s ∧ s <+: (lexerCreate "->>x".toList).rest) ∧
      ((lexerDispatch (lexerCreate "->>x".toList)).1 = true → ∃ s,
        LongestOperator s (lexerCreate "->>x".toList).rest ∧
        (lexerDispatch (lexerCreate "->>x".toList)).2.pos = (lexerCreate "->>x".toList).pos + s.length ∧
        OperatorKind s (lexerDispatch (lexerCreate "->>x".toList)).2.currentToken.type) ∧
      ((lexerDispatch (lexerCreate "->>x".toList)).1 = false →
        (lexerDispatch (lexerCreate "->>x".toList)).2.errorMsg ∈
          [some "unexpected character '!'", some "invalid parameter marker", some "unexpected character"])) :=
  ⟨rfl, by decide, rfl, rfl, lexerDispatch_operator rfl (by decide) rfl rfl⟩

/-- The scanner's `palloc(3)` holds two bytes and their NUL.  The three-byte operators
`->>`, `#>>` and `!~*` fill it and then write their NUL at `value[3]`, one byte past the
block: the write lands outside it (`overflow`), and the block holds the three bytes with
no NUL after them. -/
theorem lexerNextToken_operator_overflow :
    ["->>".toList, "#>>".toList, "!~*".toList].map (fun s => ((lexerNextToken (lexerCreate s)).1,
      (lexerNextToken (lexerCreate s)).2.currentToken.length,
      (lexerNextToken (lexerCreate s)).2.currentToken.value)) =
    [(true, 3, some ⟨"->>".toList, true⟩), (true, 3, some ⟨"#>>".toList, true⟩),
      (true, 3, some ⟨"!~*".toList, true⟩)] := by
  decide

end SqlParser
end MantisDB
