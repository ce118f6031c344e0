import MantisDB.SqlParser.Token

/-!
# The character cursor

Every byte the lexer consumes goes through `lexer_advance`
(`src/cgo/sql_parser.c`, lines 300-320), and every loop of the scanners is a
`while` over `lexer_peek` and `lexer_advance`.  This module says once what
`lexer_advance` does to the unconsumed input `Lexer.rest` and to the line and
column counters, so that no scanner proof looks inside it again:

* `k` advances drop `k` bytes of `rest` (`rest_lexerAdvanceN`) and move `pos` by
  as many as there were (`lexerAdvanceN_pos`);
* the loop `lexerAdvanceWhile p` is `rest.takeWhile p` advances
  (`lexerAdvanceWhile_eq`);
* `CursorInv` — `line` and `column` are the line and column of offset `pos`,
  through `int32` — holds at `lexer_create` and after every advance
  (`CursorInv.advanceN`).
-/

namespace MantisDB
namespace SqlParser

variable {lx : Lexer}

/-- The input not consumed yet, `input[pos, input_len)`. -/
def Lexer.rest (lexer : Lexer) : List Char := lexer.input.drop lexer.pos

/-- `k` calls of `lexer_advance`. -/
def lexerAdvanceN : ℕ → Lexer → Lexer
  | 0, lexer => lexer
  | k + 1, lexer => lexerAdvanceN k (lexerAdvance lexer)

/-- `while (lexer->pos < lexer->input_len && p(lexer_peek(lexer))) lexer_advance(lexer);`
Each round consumes a byte, so `input_len - pos` rounds bound the loop and the
recursion on `fuel` stops only where the `while` does. -/
def lexerAdvanceWhile (p : Char → Bool) (lexer : Lexer) : Lexer :=
  go (lexer.input.length - lexer.pos) lexer
where
  go : ℕ → Lexer → Lexer
  | 0, lexer => lexer
  | fuel + 1, lexer =>
    if lexer.pos < lexer.input.length ∧ p (lexerPeek lexer) then go fuel (lexerAdvance lexer)
    else lexer

/-! ### Reading the cursor -/

theorem getElem?_pos (lx : Lexer) : lx.input[lx.pos]? = lx.rest.head? := by
  simp [Lexer.rest, List.head?_drop]

theorem getElem?_pos_add (lx : Lexer) (i : ℕ) : lx.input[lx.pos + i]? = lx.rest[i]? := by
  simp [Lexer.rest]

theorem lexerPeek_eq (lx : Lexer) : lexerPeek lx = lx.rest.headD '\x00' := by
  rw [lexerPeek, getElem?_pos, List.headD_eq_head?_getD]

theorem rest_eq_nil_iff (lx : Lexer) : lx.rest = [] ↔ lx.input.length ≤ lx.pos := by
  simp [Lexer.rest]

theorem pos_lt_iff_rest_ne_nil (lx : Lexer) : lx.pos < lx.input.length ↔ lx.rest ≠ [] := by
  rw [Ne, rest_eq_nil_iff]; omega

@[simp] theorem Lexer.rest_with (lx : Lexer) (t : Token) (b : Bool) (e : Option String) :
    Lexer.rest { lx with currentToken := t, hasCurrent := b, errorMsg := e } = lx.rest := rfl

@[simp] theorem lexerPeek_with (lx : Lexer) (t : Token) (b : Bool) (e : Option String) :
    lexerPeek { lx with currentToken := t, hasCurrent := b, errorMsg := e } = lexerPeek lx := rfl

/-! ### One advance -/

theorem lexerAdvance_of_rest_nil (h : lx.rest = []) : lexerAdvance lx = lx := by
  rw [lexerAdvance, getElem?_pos, h, List.head?_nil]

theorem lexerAdvance_of_rest_cons {c : Char} {w : List Char} (h : lx.rest = c :: w) :
    lexerAdvance lx = if c = '\n'
      then { lx with pos := lx.pos + 1, line := int32 (lx.line + 1), column := 1 }
      else { lx with pos := lx.pos + 1, column := int32 (lx.column + 1) } := by
  rw [lexerAdvance, getElem?_pos, h, List.head?_cons]

@[simp] theorem lexerAdvance_input (lx : Lexer) : (lexerAdvance lx).input = lx.input := by
  unfold lexerAdvance; split <;> [rfl; split <;> rfl]

@[simp] theorem lexerAdvance_currentToken (lx : Lexer) :
    (lexerAdvance lx).currentToken = lx.currentToken := by
  unfold lexerAdvance; split <;> [rfl; split <;> rfl]

@[simp] theorem lexerAdvance_hasCurrent (lx : Lexer) :
    (lexerAdvance lx).hasCurrent = lx.hasCurrent := by
  unfold lexerAdvance; split <;> [rfl; split <;> rfl]

@[simp] theorem lexerAdvance_errorMsg (lx : Lexer) : (lexerAdvance lx).errorMsg = lx.errorMsg := by
  unfold lexerAdvance; split <;> [rfl; split <;> rfl]

theorem lexerAdvance_pos (lx : Lexer) :
    (lexerAdvance lx).pos = if lx.rest = [] then lx.pos else lx.pos + 1 := by
  cases h : lx.rest with
  | nil => rw [lexerAdvance_of_rest_nil h, if_pos rfl]
  | cons c w => rw [lexerAdvance_of_rest_cons h, if_neg (List.cons_ne_nil c w)]; split <;> rfl

@[simp] theorem rest_lexerAdvance (lx : Lexer) : (lexerAdvance lx).rest = lx.rest.tail := by
  cases h : lx.rest with
  | nil => rw [lexerAdvance_of_rest_nil h, h, List.tail_nil]
  | cons c w =>
    have : lx.input.drop (lx.pos + 1) = w := by rw [← List.drop_drop, ← Lexer.rest, h]; rfl
    rw [Lexer.rest, lexerAdvance_input, lexerAdvance_pos, h, if_neg (List.cons_ne_nil c w), this,
      List.tail_cons]

/-- The token, the error and `has_current` ride along an advance. -/
@[simp] theorem lexerAdvance_with (lx : Lexer) (t : Token) (b : Bool) (e : Option String) :
    lexerAdvance { lx with currentToken := t, hasCurrent := b, errorMsg := e } =
      { lexerAdvance lx with currentToken := t, hasCurrent := b, errorMsg := e } := by
  have hr : Lexer.rest { lx with currentToken := t, hasCurrent := b, errorMsg := e } = lx.rest := rfl
  cases h : lx.rest with
  | nil => rw [lexerAdvance_of_rest_nil h, lexerAdvance_of_rest_nil (hr.trans h)]
  | cons c w =>
    rw [lexerAdvance_of_rest_cons h, lexerAdvance_of_rest_cons (hr.trans h)]
    split <;> rfl

/-! ### Many advances -/

@[simp] theorem lexerAdvanceN_input (k : ℕ) (lx : Lexer) : (lexerAdvanceN k lx).input = lx.input := by
  induction k generalizing lx <;> simp [lexerAdvanceN, *]

@[simp] theorem lexerAdvanceN_currentToken (k : ℕ) (lx : Lexer) :
    (lexerAdvanceN k lx).currentToken = lx.currentToken := by
  induction k generalizing lx <;> simp [lexerAdvanceN, *]

@[simp] theorem lexerAdvanceN_hasCurrent (k : ℕ) (lx : Lexer) :
    (lexerAdvanceN k lx).hasCurrent = lx.hasCurrent := by
  induction k generalizing lx <;> simp [lexerAdvanceN, *]

@[simp] theorem lexerAdvanceN_errorMsg (k : ℕ) (lx : Lexer) :
    (lexerAdvanceN k lx).errorMsg = lx.errorMsg := by
  induction k generalizing lx <;> simp [lexerAdvanceN, *]

@[simp] theorem rest_lexerAdvanceN (k : ℕ) (lx : Lexer) : (lexerAdvanceN k lx).rest = lx.rest.drop k := by
  induction k generalizing lx with
  | zero => rfl
  | succ k ih => rw [lexerAdvanceN, ih, rest_lexerAdvance, List.drop_tail, Nat.add_comm]

theorem lexerAdvanceN_pos (k : ℕ) (lx : Lexer) :
    (lexerAdvanceN k lx).pos = lx.pos + min k lx.rest.length := by
  induction k generalizing lx with
  | zero => simp [lexerAdvanceN]
  | succ k ih =>
    rw [lexerAdvanceN, ih, lexerAdvance_pos, rest_lexerAdvance]
    cases lx.rest <;> simp; omega

theorem lexerAdvanceN_add (j k : ℕ) (lx : Lexer) :
    lexerAdvanceN (j + k) lx = lexerAdvanceN k (lexerAdvanceN j lx) := by
  induction j generalizing lx with
  | zero => simp [lexerAdvanceN]
  | succ j ih => rw [Nat.add_right_comm, lexerAdvanceN, lexerAdvanceN, ih]

@[simp] theorem lexerAdvanceN_with (k : ℕ) (lx : Lexer) (t : Token) (b : Bool) (e : Option String) :
    lexerAdvanceN k { lx with currentToken := t, hasCurrent := b, errorMsg := e } =
      { lexerAdvanceN k lx with currentToken := t, hasCurrent := b, errorMsg := e } := by
  induction k generalizing lx with
  | zero => rfl
  | succ k ih => rw [lexerAdvanceN, lexerAdvance_with, ih]; rfl

theorem lexerAdvanceN_pos_of_le {k : ℕ} (h : k ≤ lx.rest.length) :
    (lexerAdvanceN k lx).pos = lx.pos + k := by
  rw [lexerAdvanceN_pos, Nat.min_eq_left h]

theorem pos_add_lt_iff (lx : Lexer) (i : ℕ) : lx.pos + i < lx.input.length ↔ i < lx.rest.length := by
  simp only [Lexer.rest, List.length_drop]; omega

theorem lexerAdvanceN_one (lx : Lexer) : lexerAdvanceN 1 lx = lexerAdvance lx := rfl

theorem lexerAdvanceN_two (lx : Lexer) : lexerAdvanceN 2 lx = lexerAdvance (lexerAdvance lx) := rfl

/-! ### The `while` loop -/

theorem lexerAdvanceWhile_go_eq (p : Char → Bool) :
    ∀ (fuel : ℕ) (lx : Lexer), lx.rest.length ≤ fuel →
      lexerAdvanceWhile.go p fuel lx = lexerAdvanceN (lx.rest.takeWhile p).length lx
  | 0, lx, h => by rw [List.length_eq_zero.1 (Nat.le_zero.1 h)]; rfl
  | fuel + 1, lx, h => by
    simp only [lexerAdvanceWhile.go, pos_lt_iff_rest_ne_nil, lexerPeek_eq]
    cases hr : lx.rest with
    | nil => simp [lexerAdvanceN]
    | cons c w =>
      rw [hr] at h
      by_cases hc : p c
      · rw [if_pos ⟨List.cons_ne_nil c w, hc⟩, lexerAdvanceWhile_go_eq p fuel _
          (by rw [rest_lexerAdvance, hr]; simpa using h)]
        simp [List.takeWhile_cons, hc, hr, lexerAdvanceN]
      · simp [hc, List.takeWhile_cons, lexerAdvanceN]

theorem drop_length_takeWhile (p : Char → Bool) (l : List Char) :
    l.drop (l.takeWhile p).length = l.dropWhile p := by
  have h := List.drop_left (l.takeWhile p) (l.dropWhile p)
  rwa [List.takeWhile_append_dropWhile] at h

/-- **The loop consumes the longest run of bytes satisfying `p`.** -/
theorem lexerAdvanceWhile_eq (p : Char → Bool) (lx : Lexer) :
    lexerAdvanceWhile p lx = lexerAdvanceN (lx.rest.takeWhile p).length lx :=
  lexerAdvanceWhile_go_eq p _ lx (by simp [Lexer.rest])

/-! ### Line and column -/

/-- The line of input offset `p`: one more than the newlines before it. -/
def lineAt (input : List Char) (p : ℕ) : ℤ := 1 + (input.take p).count '\n'

/-- The column of input offset `p`: one more than the bytes after the last newline
before it (or after the start). -/
def columnAt (input : List Char) (p : ℕ) : ℤ :=
  1 + ((input.take p).reverse.takeWhile (· != '\n')).length

/-- The cursor is where its counters say: `pos` inside the input, `line` and
`column` those of offset `pos`, as `int`s. -/
structure CursorInv (lx : Lexer) : Prop where
  pos_le : lx.pos ≤ lx.input.length
  line_eq : lx.line = int32 (lineAt lx.input lx.pos)
  column_eq : lx.column = int32 (columnAt lx.input lx.pos)

theorem cursorInv_lexerCreate (input : List Char) : CursorInv (lexerCreate input) :=
  ⟨Nat.zero_le _, by simp [lexerCreate, lineAt, int32], by simp [lexerCreate, columnAt, int32]⟩

theorem lineAt_succ {input : List Char} {p : ℕ} {c : Char} (h : input[p]? = some c) :
    lineAt input (p + 1) = lineAt input p + if c = '\n' then 1 else 0 := by
  rw [lineAt, lineAt, List.take_succ, h, Option.toList_some, List.count_append]
  split_ifs with hc <;> simp [hc, List.count_singleton]; omega

theorem columnAt_succ {input : List Char} {p : ℕ} {c : Char} (h : input[p]? = some c) :
    columnAt input (p + 1) = if c = '\n' then 1 else columnAt input p + 1 := by
  rw [columnAt, columnAt, List.take_succ, h, Option.toList_some, List.reverse_append]
  split_ifs with hc <;> simp [hc, List.takeWhile_cons]; omega

theorem CursorInv.advance (h : CursorInv lx) : CursorInv (lexerAdvance lx) := by
  cases hr : lx.input[lx.pos]? with
  | none => rwa [lexerAdvance, hr]
  | some c =>
    have hlt : lx.pos < lx.input.length := (List.getElem?_eq_some_iff.1 hr).1
    simp only [lexerAdvance, hr]
    split_ifs with hc
    · exact ⟨hlt, by simp [h.line_eq, lineAt_succ hr, hc], by simp [columnAt_succ hr, hc, int32]⟩
    · exact ⟨hlt, by simp [h.line_eq, lineAt_succ hr, hc], by simp [h.column_eq, columnAt_succ hr, hc]⟩

theorem CursorInv.advanceN (k : ℕ) (h : CursorInv lx) : CursorInv (lexerAdvanceN k lx) := by
  induction k generalizing lx with
  | zero => exact h
  | succ k ih => exact ih h.advance

/-! ### States that only moved the cursor -/

/-- `lx'` is `lx` with its cursor moved on by `k` calls of `lexer_advance`; its token,
`has_current` and error may be anything.  Every scanner leaves such a state. -/
def Lexer.Moved (k : ℕ) (lx lx' : Lexer) : Prop :=
  ∃ t b e, lx' = { lexerAdvanceN k lx with currentToken := t, hasCurrent := b, errorMsg := e }

namespace Lexer.Moved

variable {j k : ℕ} {lx' lx'' : Lexer}

theorem refl (lx : Lexer) : Moved 0 lx lx := ⟨_, _, _, rfl⟩

theorem advanced (k : ℕ) (lx : Lexer) : Moved k lx (lexerAdvanceN k lx) := ⟨_, _, _, rfl⟩

theorem update (h : Moved k lx lx') (t : Token) (b : Bool) (e : Option String) :
    Moved k lx { lx' with currentToken := t, hasCurrent := b, errorMsg := e } := by
  obtain ⟨_, _, _, rfl⟩ := h; exact ⟨t, b, e, rfl⟩

theorem advanceN (h : Moved k lx lx') (j : ℕ) : Moved (k + j) lx (lexerAdvanceN j lx') := by
  obtain ⟨t, b, e, rfl⟩ := h; exact ⟨t, b, e, by rw [lexerAdvanceN_with, lexerAdvanceN_add]⟩

theorem advance (h : Moved k lx lx') : Moved (k + 1) lx (lexerAdvance lx') := h.advanceN 1

theorem trans (h : Moved j lx lx') (h' : Moved k lx' lx'') : Moved (j + k) lx lx'' := by
  obtain ⟨t, b, e, rfl⟩ := h'; exact (h.advanceN k).update t b e

theorem of_update {t : Token} {b : Bool} {e : Option String}
    (h : Moved k { lx with currentToken := t, hasCurrent := b, errorMsg := e } lx') : Moved k lx lx' := by
  obtain ⟨t', b', e', rfl⟩ := h; exact ⟨t', b', e', by rw [lexerAdvanceN_with]⟩

/-- A state with the cursor fields of one moved `k` bytes on is moved `k` bytes on. -/
theorem of_cursor {L : Lexer} (h : Moved k lx lx') (hi : L.input = lx'.input) (hp : L.pos = lx'.pos)
    (hl : L.line = lx'.line) (hc : L.column = lx'.column) : Moved k lx L := by
  obtain ⟨t, b, e, rfl⟩ := h
  exact ⟨L.currentToken, L.hasCurrent, L.errorMsg, by cases L; simp_all⟩

theorem input (h : Moved k lx lx') : lx'.input = lx.input := by
  obtain ⟨_, _, _, rfl⟩ := h; exact lexerAdvanceN_input k lx

theorem rest (h : Moved k lx lx') : lx'.rest = lx.rest.drop k := by
  obtain ⟨_, _, _, rfl⟩ := h; exact rest_lexerAdvanceN k lx

theorem pos (h : Moved k lx lx') : lx'.pos = lx.pos + min k lx.rest.length := by
  obtain ⟨_, _, _, rfl⟩ := h; exact lexerAdvanceN_pos k lx

theorem cursorInv (h : Moved k lx lx') (hi : CursorInv lx) : CursorInv lx' := by
  obtain ⟨_, _, _, rfl⟩ := h
  have := hi.advanceN k
  exact ⟨this.pos_le, this.line_eq, this.column_eq⟩

end Lexer.Moved

end SqlParser
end MantisDB
