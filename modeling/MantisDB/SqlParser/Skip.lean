import MantisDB.SqlParser.Cursor

/-!
# Skipping whitespace and comments

`lexer_skip_whitespace`, `lexer_skip_comment` (`src/cgo/sql_parser.c`, lines
322-352) and the loop at the head of `lexer_next_token` (lines 715-730) that
alternates them.

Everything here only advances the cursor (`skipWhitespaceAndComments_eq`), and the
loop stops at the end of the input or at a byte that is neither whitespace nor the
first of `--` or `/*` (`skipWhitespaceAndComments_stop`).  What it does not do is
consume an unterminated block comment to the end: the block-comment loop runs
`while (pos + 1 < input_len)` and leaves the last byte of the input to the
scanners.  `skipRest` says on the remaining input what the loop leaves of it, an
unterminated comment's last byte included, and the loop computes it
(`skipWhitespaceAndComments_rest`).
-/

namespace MantisDB
namespace SqlParser

variable {lx : Lexer}

/-- `lexer_skip_whitespace`. -/
def lexerSkipWhitespace (lexer : Lexer) : Lexer := lexerAdvanceWhile isSpace lexer

/-- `c == '-' && pos + 1 < input_len && input[pos + 1] == '-'`, with `c` the peeked byte. -/
def lineCommentAt (lexer : Lexer) : Bool :=
  lexerPeek lexer == '-' && lexer.input[lexer.pos + 1]? == some '-'

/-- `c == '/' && pos + 1 < input_len && input[pos + 1] == '*'`. -/
def blockCommentAt (lexer : Lexer) : Bool :=
  lexerPeek lexer == '/' && lexer.input[lexer.pos + 1]? == some '*'

/-- The loop of a block comment: `while (pos + 1 < input_len)`, stopping after the
first `*/`.  Each round consumes a byte, so `input_len - pos` rounds bound it. -/
def lexerSkipBlockComment (lexer : Lexer) : Lexer :=
  go (lexer.input.length - lexer.pos) lexer
where
  go : ℕ → Lexer → Lexer
  | 0, lexer => lexer
  | fuel + 1, lexer =>
    if lexer.pos + 1 < lexer.input.length then
      if lexerPeek lexer = '*' ∧ lexer.input[lexer.pos + 1]? = some '/' then
        lexerAdvance (lexerAdvance lexer)
      else go fuel (lexerAdvance lexer)
    else lexer

/-- `lexer_skip_comment`: a line comment up to (not including) its newline, or a block
comment, after its two opening bytes. -/
def lexerSkipComment (lexer : Lexer) : Lexer :=
  if lineCommentAt lexer then lexerAdvanceWhile (· != '\n') (lexerAdvance (lexerAdvance lexer))
  else if blockCommentAt lexer then lexerSkipBlockComment (lexerAdvance (lexerAdvance lexer))
  else lexer

/-- The skip loop of `lexer_next_token`.  A round that does not stop consumes the two
opening bytes of a comment, so `input_len - pos` rounds bound it. -/
def skipWhitespaceAndComments (lexer : Lexer) : Lexer :=
  go (lexer.input.length - lexer.pos) lexer
where
  go : ℕ → Lexer → Lexer
  | 0, lexer => lexer
  | fuel + 1, lexer =>
    if lexer.pos < lexer.input.length then
      let lexer := lexerSkipWhitespace lexer
      if lexer.input.length ≤ lexer.pos then lexer
      else if lineCommentAt lexer ∨ blockCommentAt lexer then go fuel (lexerSkipComment lexer)
      else lexer
    else lexer

/-! ### Comment openers on the unconsumed input -/

theorem lineCommentAt_iff (lx : Lexer) : lineCommentAt lx ↔ ∃ w, lx.rest = '-' :: '-' :: w := by
  rw [lineCommentAt, lexerPeek_eq, getElem?_pos_add]
  rcases lx.rest with _ | ⟨a, _ | ⟨b, w⟩⟩ <;> simp

theorem blockCommentAt_iff (lx : Lexer) : blockCommentAt lx ↔ ∃ w, lx.rest = '/' :: '*' :: w := by
  rw [blockCommentAt, lexerPeek_eq, getElem?_pos_add]
  rcases lx.rest with _ | ⟨a, _ | ⟨b, w⟩⟩ <;> simp

/-! ### The skips only advance -/

theorem lexerSkipBlockComment_go_eq (fuel : ℕ) (lx : Lexer) :
    ∃ k, lexerSkipBlockComment.go fuel lx = lexerAdvanceN k lx := by
  induction fuel generalizing lx with
  | zero => exact ⟨0, rfl⟩
  | succ fuel ih =>
    rw [lexerSkipBlockComment.go]
    split_ifs
    · exact ⟨2, rfl⟩
    · obtain ⟨k, hk⟩ := ih (lexerAdvance lx)
      exact ⟨k + 1, hk⟩
    · exact ⟨0, rfl⟩

/-- A comment's skip advances past its two opening bytes at least. -/
theorem lexerSkipComment_eq (h : lineCommentAt lx ∨ blockCommentAt lx) :
    ∃ k, 2 ≤ k ∧ lexerSkipComment lx = lexerAdvanceN k lx := by
  rw [lexerSkipComment]
  split_ifs with hl hb
  · refine ⟨2 + ((lexerAdvanceN 2 lx).rest.takeWhile (· != '\n')).length, by omega, ?_⟩
    rw [lexerAdvanceN_add, lexerAdvanceWhile_eq]; rfl
  · obtain ⟨k, hk⟩ := lexerSkipBlockComment_go_eq
      ((lexerAdvanceN 2 lx).input.length - (lexerAdvanceN 2 lx).pos) (lexerAdvanceN 2 lx)
    exact ⟨2 + k, by omega, by rw [lexerAdvanceN_add, ← hk]; rfl⟩
  · simp_all

theorem lexerSkipWhitespace_eq (lx : Lexer) :
    lexerSkipWhitespace lx = lexerAdvanceN (lx.rest.takeWhile isSpace).length lx :=
  lexerAdvanceWhile_eq isSpace lx

/-- The skip loop only advances the cursor. -/
theorem skipWhitespaceAndComments_go_eq (fuel : ℕ) (lx : Lexer) :
    ∃ k, skipWhitespaceAndComments.go fuel lx = lexerAdvanceN k lx := by
  induction fuel generalizing lx with
  | zero => exact ⟨0, rfl⟩
  | succ fuel ih =>
    rw [skipWhitespaceAndComments.go]
    simp only [lexerSkipWhitespace_eq]
    split_ifs with h₁ h₂ h₃
    · exact ⟨_, rfl⟩
    · obtain ⟨k, -, hk⟩ := lexerSkipComment_eq (by simpa using h₃)
      obtain ⟨j, hj⟩ := ih (lexerSkipComment _)
      exact ⟨_ + k + j, by rw [hj, hk, lexerAdvanceN_add, lexerAdvanceN_add]⟩
    · exact ⟨_, rfl⟩
    · exact ⟨0, rfl⟩

theorem skipWhitespaceAndComments_eq (lx : Lexer) :
    ∃ k, skipWhitespaceAndComments lx = lexerAdvanceN k lx :=
  skipWhitespaceAndComments_go_eq _ lx

/-- Where the skip loop stops: at the end of the input, or at a byte that is not
whitespace and does not open a comment. -/
def SkipStop (lx : Lexer) : Prop :=
  lx.rest = [] ∨ (isSpace (lexerPeek lx) = false ∧ lineCommentAt lx = false ∧ blockCommentAt lx = false)

theorem skipWhitespaceAndComments_go_stop :
    ∀ (fuel : ℕ) (lx : Lexer), lx.rest.length ≤ fuel → SkipStop (skipWhitespaceAndComments.go fuel lx)
  | 0, lx, h => .inl (List.length_eq_zero.1 (Nat.le_zero.1 h))
  | fuel + 1, lx, h => by
    rw [skipWhitespaceAndComments.go]
    simp only [lexerSkipWhitespace_eq]
    set ws := lexerAdvanceN (lx.rest.takeWhile isSpace).length lx with hws
    have hrest : ws.rest = lx.rest.dropWhile isSpace := by
      rw [hws, rest_lexerAdvanceN, drop_length_takeWhile]
    split_ifs with h₁ h₂ h₃
    · exact .inl ((rest_eq_nil_iff _).2 h₂)
    · obtain ⟨k, hk2, hk⟩ := lexerSkipComment_eq (by simpa using h₃)
      refine skipWhitespaceAndComments_go_stop fuel _ ?_
      have hlen : ws.rest.length ≤ lx.rest.length := by rw [hrest]; exact (List.dropWhile_suffix _).length_le
      have hne : 2 ≤ ws.rest.length := by
        rcases h₃ with h₃ | h₃
        · obtain ⟨w, hw⟩ := (lineCommentAt_iff ws).1 h₃; simp [hw]
        · obtain ⟨w, hw⟩ := (blockCommentAt_iff ws).1 h₃; simp [hw]
      rw [hk, rest_lexerAdvanceN, List.length_drop]; omega
    · refine .inr ⟨?_, by simpa using (not_or.1 h₃).1, by simpa using (not_or.1 h₃).2⟩
      rw [lexerPeek_eq, hrest]
      have hne : lx.rest.dropWhile isSpace ≠ [] := by rw [← hrest, Ne, rest_eq_nil_iff]; omega
      obtain ⟨c, w, hcw⟩ := List.exists_cons_of_ne_nil hne
      have := List.head_dropWhile_not isSpace lx.rest hne
      simp_all
    · exact .inl ((rest_eq_nil_iff _).2 (by omega))

theorem skipWhitespaceAndComments_stop (lx : Lexer) : SkipStop (skipWhitespaceAndComments lx) :=
  skipWhitespaceAndComments_go_stop _ lx (by simp [Lexer.rest])

/-! ### What the skip loop leaves of the input -/

section Rest

/-- What a block comment's loop leaves of the bytes after `/*`: those after the first
`*/`, or, when no `*/` comes, the last byte, since the loop runs only while two bytes
are left. -/
def blockCommentRest : List Char → List Char
  | c :: d :: w => if c = '*' ∧ d = '/' then w else blockCommentRest (d :: w)
  | w => w

theorem blockCommentRest_length_le : ∀ w : List Char, (blockCommentRest w).length ≤ w.length
  | [] | [_] => le_rfl
  | c :: d :: w => by
    rw [blockCommentRest]
    split_ifs
    · simp only [List.length_cons]; omega
    · exact (blockCommentRest_length_le (d :: w)).trans (Nat.le_succ _)

/-- Without a `*/`, a block comment's loop leaves the last byte. -/
theorem blockCommentRest_of_not_infix : ∀ {w : List Char}, ¬ ['*', '/'] <:+: w →
    blockCommentRest w = w.drop (w.length - 1)
  | [], _ | [_], _ => rfl
  | c :: d :: w, h => by
    have hcd : ¬ (c = '*' ∧ d = '/') := by
      rintro ⟨rfl, rfl⟩; exact h (List.IsPrefix.isInfix ⟨w, rfl⟩)
    rw [blockCommentRest, if_neg hcd,
      blockCommentRest_of_not_infix fun h' => h (h'.trans (List.suffix_cons c _).isInfix)]
    simp

/-- What the skip loop leaves of the remaining input `v`: it drops whitespace, then a
line comment up to its newline, or a block comment as `blockCommentRest` leaves it, and
starts again, until the input ends or a byte opens no comment. -/
def skipRest (v : List Char) : List Char :=
  match hv : v.dropWhile isSpace with
  | '-' :: '-' :: w =>
    have : (w.dropWhile (· != '\n')).length < v.length := by
      have := (List.dropWhile_suffix isSpace (l := v)).length_le
      have := (List.dropWhile_suffix (· != '\n') (l := w)).length_le
      simp only [hv, List.length_cons] at *; omega
    skipRest (w.dropWhile (· != '\n'))
  | '/' :: '*' :: w =>
    have : (blockCommentRest w).length < v.length := by
      have := (List.dropWhile_suffix isSpace (l := v)).length_le
      have := blockCommentRest_length_le w
      simp only [hv, List.length_cons] at *; omega
    skipRest (blockCommentRest w)
  | v' => v'
termination_by v.length

variable {v w : List Char}

theorem skipRest_of_line (h : v.dropWhile isSpace = '-' :: '-' :: w) :
    skipRest v = skipRest (w.dropWhile (· != '\n')) := by
  rw [skipRest]; split <;> simp_all

theorem skipRest_of_block (h : v.dropWhile isSpace = '/' :: '*' :: w) :
    skipRest v = skipRest (blockCommentRest w) := by
  rw [skipRest]; split <;> simp_all

theorem skipRest_of_stop (hl : ∀ w, v.dropWhile isSpace ≠ '-' :: '-' :: w)
    (hb : ∀ w, v.dropWhile isSpace ≠ '/' :: '*' :: w) : skipRest v = v.dropWhile isSpace := by
  rw [skipRest]; split <;> simp_all

/-- The block comment's loop leaves `blockCommentRest` of the bytes after `/*`. -/
theorem lexerSkipBlockComment_go_rest :
    ∀ (fuel : ℕ) (lx : Lexer), lx.rest.length ≤ fuel →
      (lexerSkipBlockComment.go fuel lx).rest = blockCommentRest lx.rest
  | 0, lx, hf => by show lx.rest = _; rw [List.length_eq_zero.1 (Nat.le_zero.1 hf)]; rfl
  | fuel + 1, lx, hf => by
    have hlt : lx.pos + 1 < lx.input.length ↔ 2 ≤ lx.rest.length := by
      simp only [Lexer.rest, List.length_drop]; omega
    rw [lexerSkipBlockComment.go]
    rcases hr : lx.rest with _ | ⟨c, _ | ⟨d, w⟩⟩
    · rw [if_neg (by simp [hlt, hr]), hr]; rfl
    · rw [if_neg (by simp [hlt, hr]), hr]; rfl
    · have hcd : (lexerPeek lx = '*' ∧ lx.input[lx.pos + 1]? = some '/') ↔ (c = '*' ∧ d = '/') := by
        rw [lexerPeek_eq, getElem?_pos_add, hr]; simp
      rw [if_pos (by simp [hlt, hr]), blockCommentRest]
      by_cases h : c = '*' ∧ d = '/'
      · rw [if_pos (hcd.2 h), if_pos h, rest_lexerAdvance, rest_lexerAdvance, hr]; rfl
      · rw [if_neg (mt hcd.1 h), if_neg h, lexerSkipBlockComment_go_rest fuel _
          (by rw [rest_lexerAdvance, hr]; simp only [hr, List.length_cons] at hf; simpa using hf),
          rest_lexerAdvance, hr]; rfl

theorem lexerSkipComment_rest_line {lx : Lexer} (h : lx.rest = '-' :: '-' :: w) :
    (lexerSkipComment lx).rest = w.dropWhile (· != '\n') := by
  rw [lexerSkipComment, if_pos ((lineCommentAt_iff lx).2 ⟨w, h⟩), lexerAdvanceWhile_eq, rest_lexerAdvanceN,
    drop_length_takeWhile, rest_lexerAdvance, rest_lexerAdvance, h]; rfl

theorem lexerSkipComment_rest_block {lx : Lexer} (h : lx.rest = '/' :: '*' :: w) :
    (lexerSkipComment lx).rest = blockCommentRest w := by
  have hl : ¬ lineCommentAt lx := by rw [lineCommentAt_iff, h]; simp
  rw [lexerSkipComment, if_neg hl, if_pos ((blockCommentAt_iff lx).2 ⟨w, h⟩), lexerSkipBlockComment,
    lexerSkipBlockComment_go_rest _ _ (by simp [Lexer.rest]), rest_lexerAdvance, rest_lexerAdvance, h]; rfl

theorem skipWhitespaceAndComments_go_rest :
    ∀ (fuel : ℕ) (lx : Lexer), lx.rest.length ≤ fuel →
      (skipWhitespaceAndComments.go fuel lx).rest = skipRest lx.rest
  | 0, lx, h => by
    show lx.rest = _
    rw [List.length_eq_zero.1 (Nat.le_zero.1 h), skipRest_of_stop (by simp) (by simp)]; rfl
  | fuel + 1, lx, h => by
    rw [skipWhitespaceAndComments.go]
    simp only [lexerSkipWhitespace_eq]
    set ws := lexerAdvanceN (lx.rest.takeWhile isSpace).length lx with hws
    have hrest : ws.rest = lx.rest.dropWhile isSpace := by
      rw [hws, rest_lexerAdvanceN, drop_length_takeWhile]
    split_ifs with h₁ h₂ h₃
    · have hnil : ws.rest = [] := (rest_eq_nil_iff _).2 h₂
      rw [skipRest_of_stop (by simp [← hrest, hnil]) (by simp [← hrest, hnil]), ← hrest]
    · have hlen : ws.rest.length ≤ lx.rest.length := by rw [hrest]; exact (List.dropWhile_suffix _).length_le
      obtain ⟨k, hk2, hk⟩ := lexerSkipComment_eq (by simpa using h₃)
      rw [skipWhitespaceAndComments_go_rest fuel _ (by
        rw [hk, rest_lexerAdvanceN, List.length_drop]; omega)]
      rcases h₃ with h₃ | h₃
      · obtain ⟨w, hw⟩ := (lineCommentAt_iff ws).1 h₃
        rw [lexerSkipComment_rest_line hw]
        exact (skipRest_of_line (hrest.symm.trans hw)).symm
      · obtain ⟨w, hw⟩ := (blockCommentAt_iff ws).1 h₃
        rw [lexerSkipComment_rest_block hw]
        exact (skipRest_of_block (hrest.symm.trans hw)).symm
    · obtain ⟨hl, hb⟩ := not_or.1 h₃
      rw [lineCommentAt_iff, hrest] at hl
      rw [blockCommentAt_iff, hrest] at hb
      rw [skipRest_of_stop (fun w hw => hl ⟨w, hw⟩) (fun w hw => hb ⟨w, hw⟩), hrest]
    · have hnil : lx.rest = [] := (rest_eq_nil_iff _).2 (by omega)
      rw [hnil, skipRest_of_stop (by simp) (by simp)]; rfl

/-- **What the skip phase leaves**: `skipRest` of the remaining input. -/
theorem skipWhitespaceAndComments_rest (lx : Lexer) :
    (skipWhitespaceAndComments lx).rest = skipRest lx.rest :=
  skipWhitespaceAndComments_go_rest _ lx (by simp [Lexer.rest])

/-- After whitespace, an unterminated block comment leaves the last byte of its tail,
unless that byte is whitespace. -/
theorem skipRest_unterminated {s t : List Char} (hs : ∀ c ∈ s, isSpace c = true)
    (ht : ¬ ['*', '/'] <:+: t) :
    skipRest (s ++ '/' :: '*' :: t) = (t.drop (t.length - 1)).dropWhile isSpace := by
  rw [skipRest_of_block (by rw [List.dropWhile_append_of_pos hs]; rfl), blockCommentRest_of_not_infix ht]
  have hlen := ((List.dropWhile_suffix isSpace (l := t.drop (t.length - 1))).length_le).trans
    (by simp only [List.length_drop]; omega : (t.drop (t.length - 1)).length ≤ 1)
  exact skipRest_of_stop (fun w hw => by simp [hw] at hlen) (fun w hw => by simp [hw] at hlen)

end Rest

end SqlParser
end MantisDB
