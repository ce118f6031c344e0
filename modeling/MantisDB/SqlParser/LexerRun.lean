import MantisDB.SqlParser.NextToken

/-!
# Runs of `lexer_next_token`

A run is `lexer_create` followed by calls of `lexer_next_token`, successful or not,
each on the state the one before left (`lexerRun`).  What one call does
(`lexerNextToken_result`) gives what every run does:

* the cursor: `pos` never decreases and never passes the end of the input, and `line`
  and `column` are those of offset `pos` — through `int`, so exactly those for inputs
  shorter than `2^31 - 1` bytes (`lexerRun_cursor`); on `2^31 - 1` newlines `line`
  wraps (`lexerRun_line_overflow`);
* the tokens: each token is the source text it covers, a string literal its body
  between the two quotes (`TokenSource`); each call skips whitespace and comments, the
  bytes `skipRest` drops (`lexerRun_tokenStart_rest`), and the calls' skipped bytes and
  token spans follow each other and tile the input (`lexerRun_tokens`).
-/

namespace MantisDB
namespace SqlParser

/-- `k` calls of `lexer_next_token` from `lexer`. -/
def lexerRun (lexer : Lexer) : ℕ → Lexer
  | 0 => lexer
  | k + 1 => (lexerNextToken (lexerRun lexer k)).2

/-- The offset at which the token of call `k` starts: the cursor after its skip loop. -/
def lexerRun.tokenStart (lexer : Lexer) (k : ℕ) : ℕ := (lexerNextToken.start (lexerRun lexer k)).pos

/-- `input[a, b)`. -/
def slice (input : List Char) (a b : ℕ) : List Char := (input.drop a).take (b - a)

section Run

variable {lx : Lexer} {j k : ℕ}

@[simp] theorem lexerRun_zero (lx : Lexer) : lexerRun lx 0 = lx := rfl

theorem lexerRun_succ (lx : Lexer) (k : ℕ) : lexerRun lx (k + 1) = (lexerNextToken (lexerRun lx k)).2 := rfl

theorem lexerRun_moved (lx : Lexer) : ∀ k, ∃ m, Lexer.Moved m lx (lexerRun lx k)
  | 0 => ⟨0, Lexer.Moved.refl lx⟩
  | k + 1 =>
    let ⟨_, h₁⟩ := lexerRun_moved lx k
    let ⟨_, h₂⟩ := lexerNextToken_moved (lexerRun lx k)
    ⟨_, h₁.trans h₂⟩

@[simp] theorem lexerRun_input (lx : Lexer) (k : ℕ) : (lexerRun lx k).input = lx.input :=
  let ⟨_, h⟩ := lexerRun_moved lx k
  h.input

theorem lexerRun_cursorInv (h : CursorInv lx) (k : ℕ) : CursorInv (lexerRun lx k) :=
  let ⟨_, hm⟩ := lexerRun_moved lx k
  hm.cursorInv h

theorem Lexer.Moved.pos_le {m : ℕ} {lx' : Lexer} (h : Lexer.Moved m lx lx') : lx.pos ≤ lx'.pos := by
  rw [h.pos]; omega

/-- The skip loop of call `k` starts where the run is and stops where the call ends. -/
theorem lexerRun_tokenStart_le (lx : Lexer) (k : ℕ) :
    (lexerRun lx k).pos ≤ lexerRun.tokenStart lx k ∧ lexerRun.tokenStart lx k ≤ (lexerRun lx (k + 1)).pos :=
  let ⟨_, h₁⟩ := lexerNextToken_start_moved (lexerRun lx k)
  let ⟨_, h₂⟩ := (lexerNextToken_result (lexerRun lx k)).moved
  ⟨h₁.pos_le, h₂.pos_le⟩

theorem lexerRun_pos_le_succ (lx : Lexer) (k : ℕ) : (lexerRun lx k).pos ≤ (lexerRun lx (k + 1)).pos :=
  (lexerRun_tokenStart_le lx k).1.trans (lexerRun_tokenStart_le lx k).2

/-- **`pos` never decreases.** -/
theorem lexerRun_pos_mono (lx : Lexer) (h : j ≤ k) : (lexerRun lx j).pos ≤ (lexerRun lx k).pos := by
  induction h with
  | refl => exact le_rfl
  | step _ ih => exact ih.trans (lexerRun_pos_le_succ lx _)

end Run

/-! ### Line and column as `int`s -/

section Bounds

variable {input : List Char} {p : ℕ}

theorem one_le_lineAt (input : List Char) (p : ℕ) : 1 ≤ lineAt input p := by
  unfold lineAt; omega

theorem lineAt_le (input : List Char) (p : ℕ) : lineAt input p ≤ 1 + p := by
  have h := (List.count_le_length '\n' (input.take p)).trans (List.length_take_le p input)
  unfold lineAt; omega

theorem one_le_columnAt (input : List Char) (p : ℕ) : 1 ≤ columnAt input p := by
  unfold columnAt; omega

theorem columnAt_le (input : List Char) (p : ℕ) : columnAt input p ≤ 1 + p := by
  have h := (List.takeWhile_prefix (· != '\n')).length_le.trans
    ((List.length_reverse (input.take p)).le.trans (List.length_take_le p input))
  unfold columnAt; omega

theorem int32_of_le {x : ℤ} {p : ℕ} (h0 : 1 ≤ x) (h : x ≤ 1 + p) (hp : p + 1 < 2 ^ 31) : int32 x = x :=
  int32_of_lt (by omega) (by omega)

/-- On an input shorter than `2^31 - 1` bytes the cursor's `int`s are exact. -/
theorem CursorInv.exact {lx : Lexer} (h : CursorInv lx) (hn : lx.input.length < 2 ^ 31 - 1) :
    lx.line = lineAt lx.input lx.pos ∧ lx.column = columnAt lx.input lx.pos := by
  have hp : lx.pos + 1 < 2 ^ 31 := by have := h.pos_le; omega
  exact ⟨h.line_eq.trans (int32_of_le (one_le_lineAt _ _) (lineAt_le _ _) hp),
    h.column_eq.trans (int32_of_le (one_le_columnAt _ _) (columnAt_le _ _) hp)⟩

end Bounds

/-! ### The cursor over a run -/

section Cursor

variable {lx : Lexer}

@[simp] theorem lexerCreate_input (input : List Char) : (lexerCreate input).input = input := rfl

/-- The token of call `k` is located at the cursor after its skip loop. -/
theorem lexerRun_location (lx : Lexer) (k : ℕ) :
    (lexerRun lx (k + 1)).currentToken.location =
      ⟨(lexerNextToken.start (lexerRun lx k)).line, (lexerNextToken.start (lexerRun lx k)).column,
        int32 (lexerRun.tokenStart lx k)⟩ :=
  (lexerNextToken_result _).location.trans (lexerNextToken_start_location _)

theorem lexerRun_start_cursorInv (h : CursorInv lx) (k : ℕ) :
    CursorInv (lexerNextToken.start (lexerRun lx k)) :=
  let ⟨_, hm⟩ := lexerNextToken_start_moved (lexerRun lx k)
  hm.cursorInv (lexerRun_cursorInv h k)

theorem lexerRun_start_input (lx : Lexer) (k : ℕ) : (lexerNextToken.start (lexerRun lx k)).input = lx.input :=
  let ⟨_, hm⟩ := lexerNextToken_start_moved (lexerRun lx k)
  hm.input.trans (lexerRun_input lx k)

/-- The token of call `k` starts where its skip loop stops: the bytes the call skips are
those `skipRest` drops, whitespace and comments. -/
theorem lexerRun_tokenStart_rest (lx : Lexer) (k : ℕ) :
    lx.input.drop (lexerRun.tokenStart lx k) = skipRest (lx.input.drop (lexerRun lx k).pos) := by
  have h := lexerNextToken_start_rest (lexerRun lx k)
  unfold Lexer.rest at h
  rwa [lexerRun_start_input, lexerRun_input] at h

/-- **The cursor over every run.**  On an input shorter than `2^31 - 1` bytes, after any
number of calls from `lexer_create`, successful or not: `pos` is at most the input's
length and never decreased; `line` and `column` are the line and column of offset
`pos`; and the token of the last call is located at the line, column and offset of the
byte its scanner started at, which lies between the positions before and after the
call. -/
theorem lexerRun_cursor (input : List Char) (hn : input.length < 2 ^ 31 - 1) (k : ℕ) :
    (lexerRun (lexerCreate input) k).pos ≤ input.length ∧
    (∀ j ≤ k, (lexerRun (lexerCreate input) j).pos ≤ (lexerRun (lexerCreate input) k).pos) ∧
    (lexerRun (lexerCreate input) k).line = lineAt input (lexerRun (lexerCreate input) k).pos ∧
    (lexerRun (lexerCreate input) k).column = columnAt input (lexerRun (lexerCreate input) k).pos ∧
    (lexerRun (lexerCreate input) k).pos ≤ lexerRun.tokenStart (lexerCreate input) k ∧
    lexerRun.tokenStart (lexerCreate input) k ≤ (lexerRun (lexerCreate input) (k + 1)).pos ∧
    (lexerRun (lexerCreate input) (k + 1)).currentToken.location =
      ⟨lineAt input (lexerRun.tokenStart (lexerCreate input) k),
        columnAt input (lexerRun.tokenStart (lexerCreate input) k),
        lexerRun.tokenStart (lexerCreate input) k⟩ := by
  have hinv := lexerRun_cursorInv (cursorInv_lexerCreate input) k
  have hS := lexerRun_start_cursorInv (cursorInv_lexerCreate input) k
  have hSi : (lexerNextToken.start (lexerRun (lexerCreate input) k)).input = input :=
    lexerRun_start_input _ k
  obtain ⟨hl, hc⟩ := hinv.exact (by simpa using hn)
  obtain ⟨hSl, hSc⟩ := hS.exact (by rwa [hSi])
  have hp := hinv.pos_le
  have hSp := hS.pos_le
  simp only [lexerRun_input, lexerCreate_input] at hl hc hp
  rw [hSi] at hSl hSc hSp
  obtain ⟨h1, h2⟩ := lexerRun_tokenStart_le (lexerCreate input) k
  refine ⟨hp, fun j hj => lexerRun_pos_mono _ hj, hl, hc, h1, h2, ?_⟩
  rw [lexerRun_location, hSl, hSc, lexerRun.tokenStart, int32_of_lt (by omega) (by omega)]

theorem lexerRun_cursor_two_lines :
    "a\nb".toList.length < 2 ^ 31 - 1 ∧
    ((lexerRun (lexerCreate "a\nb".toList) 1).pos ≤ "a\nb".toList.length ∧
      (∀ j ≤ 1, (lexerRun (lexerCreate "a\nb".toList) j).pos ≤ (lexerRun (lexerCreate "a\nb".toList) 1).pos) ∧
      (lexerRun (lexerCreate "a\nb".toList) 1).line = lineAt "a\nb".toList (lexerRun (lexerCreate "a\nb".toList) 1).pos ∧
      (lexerRun (lexerCreate "a\nb".toList) 1).column = columnAt "a\nb".toList (lexerRun (lexerCreate "a\nb".toList) 1).pos ∧
      (lexerRun (lexerCreate "a\nb".toList) 1).pos ≤ lexerRun.tokenStart (lexerCreate "a\nb".toList) 1 ∧
      lexerRun.tokenStart (lexerCreate "a\nb".toList) 1 ≤ (lexerRun (lexerCreate "a\nb".toList) (1 + 1)).pos ∧
      (lexerRun (lexerCreate "a\nb".toList) (1 + 1)).currentToken.location =
        ⟨lineAt "a\nb".toList (lexerRun.tokenStart (lexerCreate "a\nb".toList) 1),
          columnAt "a\nb".toList (lexerRun.tokenStart (lexerCreate "a\nb".toList) 1),
          lexerRun.tokenStart (lexerCreate "a\nb".toList) 1⟩) :=
  ⟨by decide, lexerRun_cursor _ (by decide) 1⟩

/-- A call on whitespace only consumes it all and stops at the end of the input. -/
theorem lexerNextToken_pos_of_space (hp : lx.pos ≤ lx.input.length) (h : ∀ c ∈ lx.rest, isSpace c = true) :
    (lexerNextToken lx).2.pos = lx.input.length := by
  obtain ⟨k, hk⟩ := lexerNextToken_start_moved lx
  have hnil : (lexerNextToken.start lx).rest = [] := by
    rcases lexerNextToken_start_stop lx with h0 | ⟨hs, -, -⟩
    · exact h0
    cases hr : (lexerNextToken.start lx).rest with
    | nil => rfl
    | cons c w =>
      have hc : c ∈ lx.rest := List.mem_of_mem_drop (hk.rest ▸ hr ▸ List.mem_cons_self c w)
      rw [lexerPeek_eq, hr, List.headD_cons, h c hc] at hs
      exact absurd hs (by decide)
  obtain ⟨m, hm⟩ := (lexerNextToken_result lx).moved
  have h1 := (rest_eq_nil_iff _).1 hnil
  have h2 := hk.pos
  have h3 : lx.rest.length = lx.input.length - lx.pos := by simp [Lexer.rest]
  rw [hm.pos, hnil, List.length_nil, Nat.min_zero, Nat.add_zero]
  rw [hk.input] at h1
  omega

/-- **`line` wraps on `2^31 - 1` newlines.**  The input is shorter than `2^31` bytes,
one call consumes it all, and `line` is then `INT_MIN`, not the `2^31` lines there are. -/
theorem lexerRun_line_overflow :
    (List.replicate (2 ^ 31 - 1) '\n').length < 2 ^ 31 ∧
    (lexerRun (lexerCreate (List.replicate (2 ^ 31 - 1) '\n')) 1).line = -2 ^ 31 ∧
    lineAt (List.replicate (2 ^ 31 - 1) '\n')
      (lexerRun (lexerCreate (List.replicate (2 ^ 31 - 1) '\n')) 1).pos = 2 ^ 31 := by
  have hp : (lexerRun (lexerCreate (List.replicate (2 ^ 31 - 1) '\n')) 1).pos = 2 ^ 31 - 1 := by
    rw [lexerRun_succ, lexerRun_zero, lexerNextToken_pos_of_space (Nat.zero_le _), lexerCreate_input,
      List.length_replicate]
    intro c hc
    rw [List.eq_of_mem_replicate (List.mem_of_mem_drop hc)]; rfl
  have hl : lineAt (List.replicate (2 ^ 31 - 1) '\n') (2 ^ 31 - 1) = 2 ^ 31 := by
    rw [lineAt, List.take_of_length_le (List.length_replicate _ _).le, List.count_replicate_self]; omega
  have hinv := lexerRun_cursorInv (cursorInv_lexerCreate (List.replicate (2 ^ 31 - 1) '\n')) 1
  refine ⟨by rw [List.length_replicate]; omega, ?_, by rw [hp, hl]⟩
  rw [hinv.line_eq, lexerRun_input, lexerCreate_input, hp, hl, int32]
  rfl

end Cursor

/-! ### Tokens over a run -/

section Tokens

/-- The token of `L` is the source text at offset `o` of `input` that it covers, and the
cursor of `L` is just past that text: a string literal `q · b · q` holds its body `b`
and a NUL, with `length = |b|`; any other token holds `input[o, o + length)`, of
`strlen` its `length`.  The location's offset is `o`. -/
def TokenSource (input : List Char) (o : ℕ) (L : Lexer) : Prop :=
  L.currentToken.location.offset = o ∧
  (L.currentToken.type ≠ .SCONST →
    L.currentToken.text = slice input o (o + L.currentToken.length) ∧
    L.currentToken.text.length = L.currentToken.length ∧ L.pos = o + L.currentToken.length) ∧
  (L.currentToken.type = .SCONST → ∃ q, (q = '\'' ∨ q = '"') ∧
    slice input o (o + L.currentToken.length + 2) =
      q :: slice input (o + 1) (o + 1 + L.currentToken.length) ++ [q] ∧
    L.currentToken.value = some ⟨slice input (o + 1) (o + 1 + L.currentToken.length) ++ ['\x00'], false⟩ ∧
    L.pos = o + L.currentToken.length + 2)

theorem slice_add (input : List Char) (o n : ℕ) : slice input o (o + n) = (input.drop o).take n := by
  rw [slice, Nat.add_sub_cancel_left]

/-- A lexeme read off the cursor is the source text at the cursor's offset. -/
theorem Lexeme.tokenSource {L₀ L : Lexer} (h : Lexeme L₀ L)
    (hloc : L.currentToken.location.offset = L₀.pos) : TokenSource L₀.input L₀.pos L := by
  have hrest : L₀.input.drop L₀.pos = L₀.rest := rfl
  refine ⟨hloc, fun hs => ?_, fun hs => ?_⟩
  · obtain ⟨htext, -, -⟩ := h.text hs
    have hspan := Token.span_of_ne hs
    have hle := h.span_le
    rw [hspan] at hle
    refine ⟨by rw [htext, slice_add, hrest], by rw [htext, List.length_take]; omega, ?_⟩
    rw [h.moved.pos, hspan, Nat.min_eq_left hle]
  · obtain ⟨q, b, hq, ⟨r, hr⟩, hlen, hval⟩ := h.string hs
    have hspan : L.currentToken.span = b.length + 2 := by rw [Token.span, if_pos hs, hlen]
    have hd : L₀.input.drop L₀.pos = q :: (b ++ q :: r) := by rw [hrest, ← hr]; simp
    have hd1 : L₀.input.drop (L₀.pos + 1) = b ++ q :: r := by rw [← List.drop_drop, hd]; rfl
    have hle := h.span_le
    rw [hspan] at hle
    refine ⟨q, hq, ?_, ?_, ?_⟩
    · rw [Nat.add_assoc, slice_add, slice_add, hd, hd1, hlen]
      simp [List.take_append_eq_append_take]
    · rw [hval, slice_add, hd1, hlen, List.take_left]
    · rw [h.moved.pos, hspan, Nat.min_eq_left hle, hlen, Nat.add_assoc]

theorem take_eq_take_append_slice (l : List Char) {a b : ℕ} (h : a ≤ b) :
    l.take b = l.take a ++ slice l a b := by
  rw [slice, ← List.take_add, Nat.add_sub_cancel' h]

theorem slice_append (l : List Char) {a b c : ℕ} (h1 : a ≤ b) (h2 : b ≤ c) :
    slice l a b ++ slice l b c = slice l a c := by
  have e := take_eq_take_append_slice l (h1.trans h2)
  rw [take_eq_take_append_slice l h2, take_eq_take_append_slice l h1, List.append_assoc] at e
  exact List.append_cancel_left e

/-- The calls of a run follow each other through the input: each call's skipped bytes,
then its token's span. -/
theorem lexerRun_tiles (lx : Lexer) : ∀ k, lx.input.take (lexerRun lx k).pos =
    lx.input.take lx.pos ++ (List.range k).flatMap fun i =>
      slice lx.input (lexerRun lx i).pos (lexerRun.tokenStart lx i) ++
      slice lx.input (lexerRun.tokenStart lx i) (lexerRun lx (i + 1)).pos
  | 0 => by simp
  | k + 1 => by
    obtain ⟨h1, h2⟩ := lexerRun_tokenStart_le lx k
    rw [List.range_succ, List.flatMap_append, ← List.append_assoc, ← lexerRun_tiles lx k,
      take_eq_take_append_slice _ (h1.trans h2)]
    simp only [List.flatMap_cons, List.flatMap_nil, List.append_nil, slice_append _ h1 h2]

/-- **Token texts over a run.**  On an input shorter than `2^31` bytes, for every call
of a run from `lexer_create`: a call that returns a token other than `TOKEN_EOF` returns
the source text at the offset it located the token at (`TokenSource`: the token's text
for any token but a string literal, whose value is the body between its quotes); each
token's span ends before any later call's token starts; the bytes each call skips are
whitespace and comments: its token starts where `skipRest` stops; and the calls' skipped
bytes and token spans, in order, are the input read so far. -/
theorem lexerRun_tokens (input : List Char) (hn : input.length < 2 ^ 31) (k : ℕ) :
    ((lexerNextToken (lexerRun (lexerCreate input) k)).1 = true →
      (lexerRun (lexerCreate input) (k + 1)).currentToken.type ≠ .EOF →
      TokenSource input (lexerRun.tokenStart (lexerCreate input) k) (lexerRun (lexerCreate input) (k + 1))) ∧
    (∀ i j, i < j → (lexerRun (lexerCreate input) (i + 1)).pos ≤ lexerRun.tokenStart (lexerCreate input) j) ∧
    (∀ i, input.drop (lexerRun.tokenStart (lexerCreate input) i) =
      skipRest (input.drop (lexerRun (lexerCreate input) i).pos)) ∧
    input.take (lexerRun (lexerCreate input) k).pos = (List.range k).flatMap fun i =>
      slice input (lexerRun (lexerCreate input) i).pos (lexerRun.tokenStart (lexerCreate input) i) ++
      slice input (lexerRun.tokenStart (lexerCreate input) i) (lexerRun (lexerCreate input) (i + 1)).pos := by
  refine ⟨fun h he => ?_, fun i j hij => (lexerRun_pos_mono _ hij).trans (lexerRun_tokenStart_le _ j).1,
    lexerRun_tokenStart_rest (lexerCreate input), by simpa using lexerRun_tiles (lexerCreate input) k⟩
  have hS := (lexerRun_start_cursorInv (cursorInv_lexerCreate input) k).pos_le
  have hSi : (lexerNextToken.start (lexerRun (lexerCreate input) k)).input = input :=
    lexerRun_start_input _ k
  have hne : (lexerNextToken.start (lexerRun (lexerCreate input) k)).rest ≠ [] := fun hr =>
    he ((lexerNextToken_result _).eof hr).2
  have hx := ((lexerNextToken_result _).lexeme hne h).tokenSource (by
    rw [(lexerNextToken_result _).location, lexerNextToken_start_location]
    rw [hSi] at hS
    dsimp only
    exact int32_of_lt (by omega) (by omega))
  rw [hSi] at hx
  rw [lexerRun_succ]
  exact hx

theorem lexerRun_tokens_string :
    "x 'y'".toList.length < 2 ^ 31 ∧
    (((lexerNextToken (lexerRun (lexerCreate "x 'y'".toList) 1)).1 = true →
        (lexerRun (lexerCreate "x 'y'".toList) (1 + 1)).currentToken.type ≠ .EOF →
        TokenSource "x 'y'".toList (lexerRun.tokenStart (lexerCreate "x 'y'".toList) 1) (lexerRun (lexerCreate "x 'y'".toList) (1 + 1))) ∧
      (∀ i j, i < j → (lexerRun (lexerCreate "x 'y'".toList) (i + 1)).pos ≤ lexerRun.tokenStart (lexerCreate "x 'y'".toList) j) ∧
      (∀ i, "x 'y'".toList.drop (lexerRun.tokenStart (lexerCreate "x 'y'".toList) i) =
        skipRest ("x 'y'".toList.drop (lexerRun (lexerCreate "x 'y'".toList) i).pos)) ∧
      "x 'y'".toList.take (lexerRun (lexerCreate "x 'y'".toList) 1).pos = (List.range 1).flatMap fun i =>
        slice "x 'y'".toList (lexerRun (lexerCreate "x 'y'".toList) i).pos (lexerRun.tokenStart (lexerCreate "x 'y'".toList) i) ++
        slice "x 'y'".toList (lexerRun.tokenStart (lexerCreate "x 'y'".toList) i) (lexerRun (lexerCreate "x 'y'".toList) (i + 1)).pos) :=
  ⟨by decide, lexerRun_tokens _ (by decide) 1⟩

set_option maxRecDepth 20000 in
/-- A string literal is not its source text: on `'a'` the call returns a `TOKEN_SCONST`
at offset 0 holding `a`, of length 1, where the input's first byte is the quote, and the
cursor stops at 3, not at 1. -/
theorem lexerNextToken_quoted :
    (lexerNextToken (lexerCreate "'a'".toList)).1 = true ∧
    (lexerNextToken (lexerCreate "'a'".toList)).2.currentToken.type = .SCONST ∧
    (lexerNextToken (lexerCreate "'a'".toList)).2.currentToken.location.offset = 0 ∧
    (lexerNextToken (lexerCreate "'a'".toList)).2.currentToken.length = 1 ∧
    (lexerNextToken (lexerCreate "'a'".toList)).2.currentToken.text = ['a'] ∧
    slice "'a'".toList 0 (0 + 1) = ['\''] ∧
    (lexerNextToken (lexerCreate "'a'".toList)).2.pos = 3 := by
  decide

end Tokens

end SqlParser
end MantisDB
