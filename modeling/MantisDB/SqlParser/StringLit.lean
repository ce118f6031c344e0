import MantisDB.SqlParser.Scan

/-!
# String literals

`lexer_scan_string` (`src/cgo/sql_parser.c`, lines 354-388) against the grammar of
string bodies: a body is a sequence of units — a byte other than the quote and `\`,
a doubled quote, or `\` followed by any byte (`StringBody`).  The scanner accepts
exactly the inputs `body · quote · rest` with `rest` not starting with the quote
(`StringSplit`), such a split is unique, and the scanner stops right after its
closing quote with the body, still escaped, as the token's text
(`lexerDispatch_string`).  Without such a split it runs to the end of the input and
reports `unterminated string literal`.
-/

namespace MantisDB
namespace SqlParser

/-- String bodies for the quote `q`: units `c` (not `q`, not `\`), `q q`, and `\ c`. -/
inductive StringBody (q : Char) : List Char → Prop
  | nil : StringBody q []
  | plain {c : Char} {b : List Char} : c ≠ q → c ≠ '\\' → StringBody q b → StringBody q (c :: b)
  | doubled {b : List Char} : StringBody q b → StringBody q (q :: q :: b)
  | escape {c : Char} {b : List Char} : StringBody q b → StringBody q ('\\' :: c :: b)

/-- `w` is a body `b`, the closing quote, and a rest `r` that does not start with `q`. -/
def StringSplit (q : Char) (w b r : List Char) : Prop :=
  w = b ++ q :: r ∧ StringBody q b ∧ r.head? ≠ some q

section Split

variable {q c d : Char} {w b r : List Char}

theorem stringSplit_nil : ¬ StringSplit q [] b r := by
  rintro ⟨h, -, -⟩; cases b <;> simp at h

theorem stringSplit_backslash (hq : q ≠ '\\') : ¬ StringSplit q ['\\'] b r := by
  rintro ⟨h, hb, -⟩
  cases hb with
  | nil => simp [Ne.symm hq] at h
  | plain _ h₂ => simp [h₂] at h
  | doubled => simp [hq] at h
  | escape => simp at h

theorem stringSplit_plain (hc : c ≠ q) (hc' : c ≠ '\\') :
    StringSplit q (c :: w) b r ↔ ∃ b', b = c :: b' ∧ StringSplit q w b' r := by
  constructor
  · rintro ⟨h, hb, hr⟩
    cases hb <;> simp only [List.cons_append, List.nil_append, List.cons.injEq] at h
    · exact absurd h.1 hc
    · exact ⟨_, by rw [h.1], h.2, ‹_›, hr⟩
    · exact absurd h.1 hc
    · exact absurd h.1 hc'
  · rintro ⟨b', rfl, h, hb, hr⟩
    exact ⟨by simp [h], .plain hc hc' hb, hr⟩

theorem stringSplit_doubled (hq : q ≠ '\\') :
    StringSplit q (q :: q :: w) b r ↔ ∃ b', b = q :: q :: b' ∧ StringSplit q w b' r := by
  constructor
  · rintro ⟨h, hb, hr⟩
    cases hb <;> simp only [List.cons_append, List.nil_append, List.cons.injEq] at h
    · exact absurd (by rw [← h.2]; rfl) hr
    · exact absurd h.1.symm ‹_›
    · exact ⟨_, rfl, h.2.2, ‹_›, hr⟩
    · exact absurd h.1 hq
  · rintro ⟨b', rfl, h, hb, hr⟩
    exact ⟨by simp [h], .doubled hb, hr⟩

theorem stringSplit_close (hq : q ≠ '\\') (hw : w.head? ≠ some q) :
    StringSplit q (q :: w) b r ↔ b = [] ∧ r = w := by
  constructor
  · rintro ⟨h, hb, hr⟩
    cases hb <;> simp only [List.cons_append, List.nil_append, List.cons.injEq] at h
    · exact ⟨rfl, h.2.symm⟩
    · exact absurd h.1.symm ‹_›
    · exact absurd (by rw [h.2]; rfl) hw
    · exact absurd h.1 hq
  · rintro ⟨rfl, rfl⟩
    exact ⟨rfl, .nil, hw⟩

theorem stringSplit_escape (hq : q ≠ '\\') :
    StringSplit q ('\\' :: d :: w) b r ↔ ∃ b', b = '\\' :: d :: b' ∧ StringSplit q w b' r := by
  constructor
  · rintro ⟨h, hb, hr⟩
    cases hb <;> simp only [List.cons_append, List.nil_append, List.cons.injEq] at h
    · exact absurd h.1.symm hq
    · exact absurd h.1.symm ‹_›
    · exact absurd h.1.symm hq
    · exact ⟨_, by rw [h.2.1], h.2.2, ‹_›, hr⟩
  · rintro ⟨b', rfl, h, hb, hr⟩
    exact ⟨by simp [h], .escape hb, hr⟩

end Split

/-- What the loop of `lexer_scan_string` does from `lx`: with a split of the unconsumed
input, it consumes the body, copies `input[start, pos)` and consumes the closing quote;
without one, it consumes everything and fails. -/
def StringLoopSpec (q : Char) (start : ℕ) (lx : Lexer) (res : Bool × Lexer) : Prop :=
  (∀ b r, StringSplit q lx.rest b r → res = (true, lexerAdvance { lexerAdvanceN b.length lx with
    currentToken := lx.currentToken.setText lx.input start (lx.pos + b.length - start) })) ∧
  ((∀ b r, ¬ StringSplit q lx.rest b r) →
    res = (false, lexerSetError (lexerAdvanceN lx.rest.length lx) "unterminated string literal"))

/-- A round that consumes a whole unit of `m` bytes keeps the loop's outcome. -/
theorem StringLoopSpec.of_advance {q : Char} {start m : ℕ} {lx : Lexer} {res : Bool × Lexer}
    (hm : m ≤ lx.rest.length)
    (hs : ∀ b r, StringSplit q lx.rest b r ↔
      ∃ b', b = lx.rest.take m ++ b' ∧ StringSplit q (lx.rest.drop m) b' r)
    (h : StringLoopSpec q start (lexerAdvanceN m lx) res) : StringLoopSpec q start lx res := by
  have hpos := lexerAdvanceN_pos_of_le hm
  have htake : (lx.rest.take m).length = m := by simp; omega
  refine ⟨fun b r hb => ?_, fun hn => ?_⟩
  · obtain ⟨b', rfl, hb'⟩ := (hs b r).1 hb
    rw [h.1 b' r (by rwa [rest_lexerAdvanceN]), lexerAdvanceN_currentToken, lexerAdvanceN_input, hpos,
      ← lexerAdvanceN_add, List.length_append, htake, Nat.add_assoc]
  · rw [h.2 (fun b' r hb' => hn _ r ((hs _ r).2 ⟨b', rfl, by rwa [rest_lexerAdvanceN] at hb'⟩)),
      ← lexerAdvanceN_add, rest_lexerAdvanceN, List.length_drop, Nat.add_sub_cancel' hm]

/-- **The string loop's outcome**, for every state and every fuel that bounds it. -/
theorem lexerScanString_go_spec (q : Char) (hq : q ≠ '\\') (start : ℕ) :
    ∀ (fuel : ℕ) (lx : Lexer), lx.rest.length ≤ fuel →
      StringLoopSpec q start lx (lexerScanString.go q start fuel lx)
  | 0, lx, hf => by
    have hr := List.length_eq_zero.1 (Nat.le_zero.1 hf)
    exact ⟨fun b r h => absurd (hr ▸ h) stringSplit_nil, fun _ => by rw [hr]; rfl⟩
  | fuel + 1, lx, hf => by
    have ih := lexerScanString_go_spec q hq start fuel
    rw [lexerScanString.go]
    cases hr : lx.rest with
    | nil =>
      rw [if_neg (by rw [pos_lt_iff_rest_ne_nil, hr]; simp)]
      exact ⟨fun b r h => absurd (hr ▸ h) stringSplit_nil, fun _ => by simp [hr]; rfl⟩
    | cons c w =>
      rw [hr, List.length_cons] at hf
      have hpk : lexerPeek lx = c := by rw [lexerPeek_eq, hr]; rfl
      have hnext : lx.pos + 1 < lx.input.length ∧ lx.input[lx.pos + 1]? = some q ↔ w.head? = some q := by
        rw [pos_add_lt_iff, getElem?_pos_add, hr]; cases w <;> simp
      rw [if_pos (by rw [pos_lt_iff_rest_ne_nil, hr]; simp), hpk]
      by_cases hcq : c = q
      · subst hcq
        rw [if_pos rfl]
        by_cases hw : w.head? = some c
        · -- a doubled quote
          obtain ⟨w', rfl⟩ : ∃ w', w = c :: w' := by cases w <;> simp_all
          rw [if_pos (hnext.2 hw), ← lexerAdvanceN_two]
          exact .of_advance (by simp [hr]) (fun b r => by rw [hr, stringSplit_doubled hq]; rfl)
            (ih _ (by simp [hr] at hf ⊢; omega))
        · -- the closing quote
          rw [if_neg (mt hnext.1 hw)]
          refine ⟨fun b r hb => ?_, fun hn => absurd ((stringSplit_close hq hw).2 ⟨rfl, rfl⟩) (hr ▸ hn [] w)⟩
          obtain ⟨rfl, rfl⟩ := (stringSplit_close hq hw).1 (hr ▸ hb)
          rfl
      · rw [if_neg hcq]
        by_cases hcb : c = '\\'
        · subst hcb
          rw [if_pos rfl]
          show StringLoopSpec q start lx (lexerScanString.go q start fuel
            (if (lexerAdvance lx).pos < (lexerAdvance lx).input.length then lexerAdvance (lexerAdvance lx)
              else lexerAdvance lx))
          cases w with
          | cons d w' =>
            rw [if_pos (by rw [pos_lt_iff_rest_ne_nil, rest_lexerAdvance, hr]; simp), ← lexerAdvanceN_two]
            exact .of_advance (by simp [hr]) (fun b r => by rw [hr, stringSplit_escape hq]; rfl)
              (ih _ (by simp [hr] at hf ⊢; omega))
          | nil =>
            rw [if_neg (by rw [pos_lt_iff_rest_ne_nil, rest_lexerAdvance, hr]; simp), ← lexerAdvanceN_one]
            exact .of_advance (by simp [hr])
              (fun b r => by rw [hr]; simp [stringSplit_backslash hq, stringSplit_nil]) (ih _ (by simp [hr]))
        · rw [if_neg hcb, ← lexerAdvanceN_one]
          exact .of_advance (by simp [hr]) (fun b r => by rw [hr, stringSplit_plain hcq hcb]; rfl)
            (ih _ (by simp [hr] at hf ⊢; omega))

/-- `lexer_scan_string` from a quote `q`: the loop runs from the byte after it. -/
theorem lexerScanString_spec {lx : Lexer} {q : Char} {w : List Char} (hq : q ≠ '\\')
    (hr : lx.rest = q :: w) :
    StringLoopSpec q (lx.pos + 1) (lexerAdvance lx) (lexerScanString lx) := by
  have hpos : (lexerAdvance lx).pos = lx.pos + 1 := by
    rw [lexerAdvance_pos, hr, if_neg (List.cons_ne_nil _ _)]
  obtain rfl : lexerPeek lx = q := by rw [lexerPeek_eq, hr]; rfl
  rw [← hpos]
  exact lexerScanString_go_spec _ hq _ _ _ (by simp [Lexer.rest])

/-- The scanner is a function, so a string body has at most one split: both would
leave the cursor after their closing quote. -/
theorem stringSplit_unique {q : Char} {w b r b' r' : List Char} (hq : q ≠ '\\')
    (h : StringSplit q w b r) (h' : StringSplit q w b' r') : b = b' ∧ r = r' := by
  let lx := lexerCreate w
  have hlen : ∀ {b r}, StringSplit q w b r → b.length < lx.rest.length := fun h => by
    simp [lx, Lexer.rest, lexerCreate, h.1]
  have key := ((lexerScanString_go_spec q hq 0 w.length lx le_rfl).1 b r h).symm.trans
    ((lexerScanString_go_spec q hq 0 w.length lx le_rfl).1 b' r' h')
  have hb : b.length = b'.length := by
    have := congrArg (fun x => x.2.rest.length) key
    simp only [lexerAdvance_with, Lexer.rest_with, rest_lexerAdvance, rest_lexerAdvanceN, List.length_tail,
      List.length_drop] at this
    have := hlen h; have := hlen h'; omega
  obtain ⟨rfl, hr⟩ := List.append_inj (h.1.symm.trans h'.1) hb
  exact ⟨rfl, List.cons_injective hr⟩

section Outcome

variable {lx : Lexer} {q : Char} {w b r : List Char}

/-- A closed literal: the scanner moves past `q · b · q` and copies `b`. -/
theorem lexerScanString_ok (lx : Lexer) (hq : q ≠ '\\') (hr : lx.rest = q :: w) (hs : StringSplit q w b r) :
    (lexerScanString lx).1 = true ∧ Lexer.Moved (b.length + 2) lx (lexerScanString lx).2 ∧
    (lexerScanString lx).2.currentToken = lx.currentToken.setText lx.input (lx.pos + 1) b.length ∧
    (lexerScanString lx).2.errorMsg = lx.errorMsg := by
  have hpos : (lexerAdvance lx).pos = lx.pos + 1 := by
    rw [lexerAdvance_pos, hr, if_neg (List.cons_ne_nil _ _)]
  rw [(lexerScanString_spec hq hr).1 b r (by rw [rest_lexerAdvance, hr]; exact hs)]
  exact ⟨rfl, ((Lexer.Moved.advanced (b.length + 1) lx).update _ _ _).advance,
    by simp [hpos], by simp⟩

/-- An unterminated literal: the scanner consumes the rest of the input and fails. -/
theorem lexerScanString_fail (lx : Lexer) (hq : q ≠ '\\') (hr : lx.rest = q :: w)
    (hn : ∀ b r, ¬ StringSplit q w b r) :
    (lexerScanString lx).1 = false ∧ Lexer.Moved (w.length + 1) lx (lexerScanString lx).2 ∧
    (lexerScanString lx).2.currentToken = lx.currentToken ∧
    (lexerScanString lx).2.errorMsg = some "unterminated string literal" := by
  rw [(lexerScanString_spec hq hr).2 (by rw [rest_lexerAdvance, hr]; exact hn), rest_lexerAdvance, hr,
    List.tail_cons]
  exact ⟨rfl, (Lexer.Moved.advanced (w.length + 1) lx).update _ _ _, by simp [lexerSetError], rfl⟩

end Outcome

section Dispatch

variable {lx : Lexer} {q : Char} {w b r : List Char}

theorem quote_ne_backslash (hq : q = '\'' ∨ q = '"') : q ≠ '\\' := by
  rcases hq with rfl | rfl <;> decide

theorem lexerDispatch_string_ok (hq : q = '\'' ∨ q = '"') (hr : lx.rest = q :: w)
    (hs : StringSplit q w b r) :
    (lexerDispatch lx).1 = true ∧ Lexer.Moved (b.length + 2) lx (lexerDispatch lx).2 ∧
    (lexerDispatch lx).2.currentToken =
      { lx.currentToken with type := .SCONST }.setText lx.input (lx.pos + 1) b.length ∧
    (lexerDispatch lx).2.errorMsg = lx.errorMsg := by
  obtain ⟨h1, hm, ht, he⟩ := lexerScanString_ok (lx.setType .SCONST) (quote_ne_backslash hq) hr hs
  rw [lexerDispatch_of_quote hr hq]
  exact ⟨h1, (hm.update _ _ _).of_update, ht, he⟩

theorem lexerDispatch_string_fail (hq : q = '\'' ∨ q = '"') (hr : lx.rest = q :: w)
    (hn : ∀ b r, ¬ StringSplit q w b r) :
    (lexerDispatch lx).1 = false ∧ Lexer.Moved (w.length + 1) lx (lexerDispatch lx).2 ∧
    (lexerDispatch lx).2.currentToken = { lx.currentToken with type := .SCONST } ∧
    (lexerDispatch lx).2.errorMsg = some "unterminated string literal" := by
  obtain ⟨h1, hm, ht, he⟩ := lexerScanString_fail (lx.setType .SCONST) (quote_ne_backslash hq) hr hn
  rw [lexerDispatch_of_quote hr hq]
  exact ⟨h1, (hm.update _ _ _).of_update, ht, he⟩

/-- A closed literal's token, read off the input: the cursor past `q · b · q`, and `b`
with a NUL as the value. -/
theorem lexerDispatch_string_token (hq : q = '\'' ∨ q = '"') (hr : lx.rest = q :: w)
    (hs : StringSplit q w b r) :
    (lexerDispatch lx).2.pos = lx.pos + b.length + 2 ∧
    lx.rest.take (b.length + 2) = q :: b ++ [q] ∧
    (lexerDispatch lx).2.currentToken.type = .SCONST ∧
    (lexerDispatch lx).2.currentToken.value = some ⟨b ++ ['\x00'], false⟩ ∧
    (lexerDispatch lx).2.currentToken.length = b.length := by
  obtain ⟨-, hm, ht, -⟩ := lexerDispatch_string_ok hq hr hs
  have hw : lx.rest = q :: (b ++ q :: r) := hr.trans (by rw [hs.1])
  have hdrop : lx.input.drop (lx.pos + 1) = b ++ q :: r := by
    rw [← List.drop_drop, ← Lexer.rest, hw]; rfl
  refine ⟨?_, by simp [hw, List.take_append_eq_append_take], by simp [ht, Token.setText], ?_,
    by simp [ht, Token.setText]⟩
  · rw [hm.pos, hw]; simp; omega
  · have hl := congrArg List.length hdrop
    simp only [List.length_drop, List.length_append, List.length_cons] at hl
    rw [ht, Token.setText_value _ (by omega), hdrop, List.take_left]

/-- **String literals.**  At a quote `q`, the scan succeeds exactly when the input after
the quote splits as `b · q · r` with `b` a string body and `r` not starting with `q`.
Such a split is unique; the cursor stops right after its closing quote, the bytes
consumed are `q · b · q`, and the token is a `TOKEN_SCONST` holding `b` (escapes kept).
Without a split the scan fails with `unterminated string literal` at the end of the
input. -/
theorem lexerDispatch_string (hq : q = '\'' ∨ q = '"') (hr : lx.rest = q :: w) :
    ((lexerDispatch lx).1 = true ↔ ∃ b r, StringSplit q w b r) ∧
    (∀ b r b' r', StringSplit q w b r → StringSplit q w b' r' → b = b' ∧ r = r') ∧
    (∀ b r, StringSplit q w b r →
      (lexerDispatch lx).2.pos = lx.pos + b.length + 2 ∧
      lx.rest.take (b.length + 2) = q :: b ++ [q] ∧
      (lexerDispatch lx).2.currentToken.type = .SCONST ∧
      (lexerDispatch lx).2.currentToken.value = some ⟨b ++ ['\x00'], false⟩ ∧
      (lexerDispatch lx).2.currentToken.length = b.length) ∧
    ((∀ b r, ¬ StringSplit q w b r) →
      (lexerDispatch lx).2.errorMsg = some "unterminated string literal" ∧
      (lexerDispatch lx).2.pos = lx.input.length) := by
  have hlen : lx.rest.length = lx.input.length - lx.pos := by simp [Lexer.rest]
  refine ⟨⟨fun h => ?_, fun ⟨b, r, hs⟩ => (lexerDispatch_string_ok hq hr hs).1⟩,
    fun b r b' r' => stringSplit_unique (quote_ne_backslash hq),
    fun b r hs => lexerDispatch_string_token hq hr hs, fun hn => ?_⟩
  · by_contra hn
    simp only [not_exists] at hn
    simp [(lexerDispatch_string_fail hq hr hn).1] at h
  · obtain ⟨-, hm, -, he⟩ := lexerDispatch_string_fail hq hr hn
    refine ⟨he, ?_⟩
    have hl : w.length + 1 = lx.input.length - lx.pos := by rw [← hlen, hr, List.length_cons]
    rw [hm.pos, hr, List.length_cons, Nat.min_self]
    omega

theorem lexerDispatch_string_doubled :
    ('\'' = '\'' ∨ '\'' = '"') ∧ (lexerCreate "'it''s'".toList).rest = '\'' :: "it''s'".toList ∧
    (((lexerDispatch (lexerCreate "'it''s'".toList)).1 = true ↔
        ∃ b r, StringSplit '\'' "it''s'".toList b r) ∧
      (∀ b r b' r', StringSplit '\'' "it''s'".toList b r → StringSplit '\'' "it''s'".toList b' r' →
        b = b' ∧ r = r') ∧
      (∀ b r, StringSplit '\'' "it''s'".toList b r →
        (lexerDispatch (lexerCreate "'it''s'".toList)).2.pos = (lexerCreate "'it''s'".toList).pos + b.length + 2 ∧
        (lexerCreate "'it''s'".toList).rest.take (b.length + 2) = '\'' :: b ++ ['\''] ∧
        (lexerDispatch (lexerCreate "'it''s'".toList)).2.currentToken.type = .SCONST ∧
        (lexerDispatch (lexerCreate "'it''s'".toList)).2.currentToken.value = some ⟨b ++ ['\x00'], false⟩ ∧
        (lexerDispatch (lexerCreate "'it''s'".toList)).2.currentToken.length = b.length) ∧
      ((∀ b r, ¬ StringSplit '\'' "it''s'".toList b r) →
        (lexerDispatch (lexerCreate "'it''s'".toList)).2.errorMsg = some "unterminated string literal" ∧
        (lexerDispatch (lexerCreate "'it''s'".toList)).2.pos = (lexerCreate "'it''s'".toList).input.length)) :=
  ⟨.inl rfl, rfl, lexerDispatch_string (.inl rfl) rfl⟩

end Dispatch

end SqlParser
end MantisDB
