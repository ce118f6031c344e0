import MantisDB.SqlParser.Token
import Mathlib.Data.String.Basic

/-!
# The keyword table and its binary search

`keywords`, `num_keywords` and `lookup_keyword` in `src/cgo/sql_parser.c`
(lines 62-249).
-/

namespace MantisDB
namespace SqlParser

/-- `keywords`: each `KeywordEntry` `{name, token}` is a pair of a lower-case spelling
and its reserved-word kind; the table is sorted by spelling. -/
def keywords : List (String × TokenType) := [
  ("action", TokenType.ACTION),
  ("all", TokenType.ALL),
  ("alter", TokenType.ALTER),
  ("analyze", TokenType.ANALYZE_P),
  ("and", TokenType.AND),
  ("any", TokenType.ANY),
  ("array", TokenType.ARRAY),
  ("as", TokenType.AS),
  ("asc", TokenType.ASC),
  ("begin", TokenType.BEGIN_P),
  ("between", TokenType.BETWEEN),
  ("bigint", TokenType.BIGINT),
  ("bit", TokenType.BIT),
  ("boolean", TokenType.BOOLEAN),
  ("both", TokenType.BOTH),
  ("by", TokenType.BY),
  ("cascade", TokenType.CASCADE),
  ("case", TokenType.CASE),
  ("cast", TokenType.CAST),
  ("char", TokenType.CHAR_P),
  ("character", TokenType.CHARACTER),
  ("check", TokenType.CHECK),
  ("cluster", TokenType.CLUSTER),
  ("coalesce", TokenType.COALESCE_EXPR),
  ("collate", TokenType.COLLATE),
  ("column", TokenType.COLUMN_REF),
  ("commit", TokenType.COMMIT),
  ("committed", TokenType.COMMITTED),
  ("constraint", TokenType.CONSTRAINT),
  ("copy", TokenType.COPY),
  ("create", TokenType.CREATE),
  ("cross", TokenType.CROSS),
  ("current", TokenType.CURRENT_P),
  ("database", TokenType.DATABASE),
  ("date", TokenType.DATE),
  ("decimal", TokenType.DECIMAL_P),
  ("default", TokenType.DEFAULT),
  ("deferrable", TokenType.DEFERRABLE),
  ("deferred", TokenType.DEFERRED),
  ("delete", TokenType.DELETE),
  ("desc", TokenType.DESC),
  ("distinct", TokenType.DISTINCT),
  ("double", TokenType.DOUBLE_P),
  ("drop", TokenType.DROP),
  ("else", TokenType.ELSE),
  ("end", TokenType.END_P),
  ("except", TokenType.EXCEPT),
  ("execute", TokenType.EXECUTE),
  ("exists", TokenType.EXISTS),
  ("explain", TokenType.EXPLAIN),
  ("extract", TokenType.EXTRACT),
  ("false", TokenType.FALSE_P),
  ("following", TokenType.FOLLOWING),
  ("for", TokenType.FOR),
  ("foreign", TokenType.FOREIGN),
  ("from", TokenType.FROM),
  ("full", TokenType.FULL_P),
  ("function", TokenType.FUNCTION),
  ("grant", TokenType.GRANT),
  ("group", TokenType.GROUP_P),
  ("having", TokenType.HAVING),
  ("if", TokenType.IF_P),
  ("ilike", TokenType.ILIKE),
  ("immediate", TokenType.IMMEDIATE),
  ("in", TokenType.IN),
  ("index", TokenType.INDEX),
  ("initially", TokenType.INITIALLY),
  ("inner", TokenType.INNER_P),
  ("insert", TokenType.INSERT),
  ("integer", TokenType.INTEGER),
  ("intersect", TokenType.INTERSECT),
  ("interval", TokenType.INTERVAL),
  ("into", TokenType.INTO_CLAUSE),
  ("is", TokenType.IS),
  ("join", TokenType.JOIN),
  ("json", TokenType.JSON),
  ("jsonb", TokenType.JSONB),
  ("key", TokenType.KEY),
  ("leading", TokenType.LEADING),
  ("left", TokenType.LEFT),
  ("level", TokenType.LEVEL),
  ("like", TokenType.LIKE),
  ("limit", TokenType.LIMIT),
  ("local", TokenType.LOCAL),
  ("match", TokenType.MATCH),
  ("natural", TokenType.NATURAL),
  ("no", TokenType.NO),
  ("not", TokenType.NOT),
  ("null", TokenType.NULL_P),
  ("numeric", TokenType.NUMERIC),
  ("offset", TokenType.OFFSET),
  ("on", TokenType.ON),
  ("only", TokenType.ONLY),
  ("or", TokenType.OR),
  ("order", TokenType.ORDER),
  ("outer", TokenType.OUTER_P),
  ("over", TokenType.OVER),
  ("overlay", TokenType.OVERLAY),
  ("partial", TokenType.PARTIAL),
  ("partition", TokenType.PARTITION),
  ("position", TokenType.POSITION),
  ("preceding", TokenType.PRECEDING),
  ("precision", TokenType.PRECISION),
  ("primary", TokenType.PRIMARY),
  ("procedure", TokenType.PROCEDURE),
  ("public", TokenType.PUBLIC),
  ("range", TokenType.RANGE),
  ("read", TokenType.READ),
  ("real", TokenType.REAL),
  ("recursive", TokenType.RECURSIVE),
  ("references", TokenType.REFERENCES),
  ("reindex", TokenType.REINDEX),
  ("restrict", TokenType.RESTRICT),
  ("revoke", TokenType.REVOKE),
  ("right", TokenType.RIGHT),
  ("role", TokenType.ROLE),
  ("rollback", TokenType.ROLLBACK),
  ("row", TokenType.ROW),
  ("rows", TokenType.ROWS),
  ("schema", TokenType.SCHEMA),
  ("select", TokenType.SELECT),
  ("serializable", TokenType.SERIALIZABLE),
  ("set", TokenType.SET),
  ("similar", TokenType.SIMILAR),
  ("smallint", TokenType.SMALLINT),
  ("some", TokenType.SOME),
  ("start", TokenType.START),
  ("substring", TokenType.SUBSTRING),
  ("table", TokenType.TABLE),
  ("temp", TokenType.TEMP),
  ("temporary", TokenType.TEMPORARY),
  ("text", TokenType.TEXT),
  ("then", TokenType.THEN),
  ("time", TokenType.TIME),
  ("timestamp", TokenType.TIMESTAMP),
  ("trailing", TokenType.TRAILING),
  ("transaction", TokenType.TRANSACTION),
  ("trigger", TokenType.TRIGGER),
  ("trim", TokenType.TRIM),
  ("true", TokenType.TRUE_P),
  ("truncate", TokenType.TRUNCATE),
  ("unbounded", TokenType.UNBOUNDED),
  ("uncommitted", TokenType.UNCOMMITTED),
  ("union", TokenType.UNION),
  ("unique", TokenType.UNIQUE),
  ("update", TokenType.UPDATE),
  ("user", TokenType.USER),
  ("using", TokenType.USING),
  ("vacuum", TokenType.VACUUM),
  ("varchar", TokenType.VARCHAR),
  ("view", TokenType.VIEW),
  ("when", TokenType.WHEN),
  ("where", TokenType.WHERE),
  ("window", TokenType.WINDOW),
  ("with", TokenType.WITH),
  ("work", TokenType.WORK),
  ("write", TokenType.WRITE)]

/-- `strncasecmp(s1, s2, n)`: at most `n` bytes of each string, lowered by `tolower`,
compared as unsigned bytes; the end of a list is the string's NUL, where the
comparison stops.  Only the sign of the result is ever used. -/
def strncasecmp : List Char → List Char → ℕ → ℤ
  | _, _, 0 => 0
  | [], [], _ + 1 => 0
  | [], b :: _, _ + 1 => -(b.toLower.toNat : ℤ)
  | a :: _, [], _ + 1 => a.toLower.toNat
  | a :: as, b :: bs, n + 1 =>
    if a.toLower = b.toLower then (if a = '\x00' then 0 else strncasecmp as bs n)
    else (a.toLower.toNat : ℤ) - b.toLower.toNat

/-- `lookup_keyword(str, len)`: binary search over `keywords` between `left` and
`right` (C `int`s).  Each round shrinks `[left, right]`, so `num_keywords` rounds
are enough: the recursion on `fuel` ends only where the `while` loop does. -/
def lookupKeyword (str : List Char) (len : ℕ) : TokenType :=
  go keywords.length 0 (keywords.length - 1)
where
  go : ℕ → ℤ → ℤ → TokenType
  | 0, _, _ => .IDENT
  | fuel + 1, left, right =>
    if left ≤ right then
      let mid := (left + right) / 2
      let entry := keywords.getD mid.toNat default
      let cmp := strncasecmp str entry.1.toList len
      if cmp = 0 ∧ entry.1.length = len then entry.2
      else if cmp < 0 then go fuel left (mid - 1)
      else go fuel (mid + 1) right
    else .IDENT

/-- The reference the binary search is meant to compute: the first entry whose
spelling is the candidate with its ASCII letters lowered, `TOKEN_IDENT` if none. -/
def keywordLinear (s : List Char) : TokenType :=
  match keywords.find? (fun e => e.1.toList == s.map Char.toLower) with
  | some e => e.2
  | none => .IDENT

/-- An identifier lexeme, as `lexer_scan_identifier` consumes it: a letter or `_`,
then letters, digits and `_`. -/
def IsIdentLexeme : List Char → Prop
  | [] => False
  | c :: cs => isAlpha c ∧ ∀ d ∈ cs, isAlnum d

/-- The spellings the binary search misses: each is a proper prefix of the entry
some midpoint of its search lands on. -/
def missedKeywords : List String := ["as", "char", "in", "no", "on", "or", "over", "time"]

/-! ### `tolower` on characters -/

theorem Char.toNat_ofNat_of_lt {m : ℕ} (h : m < 55296) : (Char.ofNat m).toNat = m := by
  rw [Char.ofNat, dif_pos (Or.inl h)]
  rfl

theorem Char.eq_iff_toNat {c d : Char} : c = d ↔ c.toNat = d.toNat :=
  ⟨fun h => h ▸ rfl, fun h => by rw [← Char.ofNat_toNat c, h, Char.ofNat_toNat]⟩

theorem Char.toLower_toNat (c : Char) :
    c.toLower.toNat = if 65 ≤ c.toNat ∧ c.toNat ≤ 90 then c.toNat + 32 else c.toNat := by
  by_cases h : 65 ≤ c.toNat ∧ c.toNat ≤ 90
  · simp only [Char.toLower, ge_iff_le, if_pos h]
    exact Char.toNat_ofNat_of_lt (by omega)
  · simp only [Char.toLower, ge_iff_le, if_neg h]

@[simp] theorem Char.toLower_toLower (c : Char) : c.toLower.toLower = c.toLower := by
  rw [Char.eq_iff_toNat, Char.toLower_toNat, Char.toLower_toNat]
  split_ifs <;> omega

@[simp] theorem Char.toLower_eq_nul (c : Char) : c.toLower = '\x00' ↔ c = '\x00' := by
  rw [Char.eq_iff_toNat, Char.eq_iff_toNat, Char.toLower_toNat, show '\x00'.toNat = 0 from rfl]
  split_ifs
  · exact ⟨False.elim, fun h => by omega⟩
  · exact Iff.rfl

/-! ### `strncasecmp` sees lowered strings -/

theorem strncasecmp_map_toLower (s t : List Char) (n : ℕ) :
    strncasecmp (s.map Char.toLower) t n = strncasecmp s t n := by
  induction s generalizing t n with
  | nil => rfl
  | cons a s ih => cases t <;> cases n <;> simp [strncasecmp, ih]

/-- On strings of one length and without NUL, `strncasecmp` over that length is `0`
exactly on equal lowered strings. -/
theorem strncasecmp_eq_zero_iff {s t : List Char} (ht : t.length = s.length) (h0 : '\x00' ∉ s) :
    strncasecmp s t s.length = 0 ↔ s.map Char.toLower = t.map Char.toLower := by
  induction s generalizing t with
  | nil => rw [List.length_eq_zero.1 ht]; simp [strncasecmp]
  | cons a s ih =>
    cases t with
    | nil => simp at ht
    | cons b t =>
      simp only [List.mem_cons, not_or] at h0
      by_cases hab : a.toLower = b.toLower
      · simp [strncasecmp, hab, Ne.symm h0.1, ih (by simpa using ht) h0.2]
      · simp only [List.length_cons, strncasecmp, hab, if_false, List.map_cons, List.cons.injEq,
          false_and, iff_false]
        rw [Char.eq_iff_toNat] at hab
        omega

/-! ### What the binary search can return -/

/-- Every kind `go` returns other than `TOKEN_IDENT` is the kind of a slot whose
spelling compared equal over `len` bytes and has length `len`. -/
theorem lookupKeyword_go_sound (str : List Char) (len fuel : ℕ) (l r : ℤ)
    (h : lookupKeyword.go str len fuel l r ≠ .IDENT) :
    ∃ m, strncasecmp str (keywords.getD m default).1.toList len = 0 ∧
      (keywords.getD m default).1.length = len ∧
      lookupKeyword.go str len fuel l r = (keywords.getD m default).2 := by
  induction fuel generalizing l r with
  | zero => exact absurd rfl h
  | succ fuel ih =>
    simp only [lookupKeyword.go] at h ⊢
    split_ifs at h ⊢ with hlr hm hc
    · exact ⟨_, hm.1, hm.2, rfl⟩
    · exact ih _ _ h
    · exact ih _ _ h
    · exact absurd rfl h

theorem lookupKeyword_go_map_toLower (str : List Char) (len fuel : ℕ) (l r : ℤ) :
    lookupKeyword.go (str.map Char.toLower) len fuel l r = lookupKeyword.go str len fuel l r := by
  induction fuel generalizing l r with
  | zero => rfl
  | succ fuel ih => simp only [lookupKeyword.go, strncasecmp_map_toLower, ih]

theorem keywordLinear_map_toLower (s : List Char) :
    keywordLinear (s.map Char.toLower) = keywordLinear s := by
  simp [keywordLinear, List.map_map, Function.comp_def]

/-! ### The table, checked entry by entry -/

set_option maxRecDepth 100000 in
theorem keywords_lower : ∀ e ∈ keywords, e.1.toList.map Char.toLower = e.1.toList := by
  decide

set_option maxRecDepth 100000 in
theorem keywords_search :
    ∀ e ∈ keywords, lookupKeyword e.1.toList e.1.length =
      if e.1 ∈ missedKeywords then .IDENT else e.2 := by
  decide

set_option maxRecDepth 100000 in
theorem keywords_linear : ∀ e ∈ keywords, keywordLinear e.1.toList = e.2 := by
  decide

set_option maxRecDepth 100000 in
theorem keywords_kind : ∀ e ∈ keywords, e.2 ≠ .SCONST ∧ e.2 ≠ .EOF := by
  decide

set_option maxRecDepth 100000 in
theorem missedKeywords_mem : ∀ m ∈ missedKeywords, ∃ e ∈ keywords, e.1 = m := by
  decide

/-! ### The binary search against the linear lookup -/

theorem IsIdentLexeme.nul_not_mem {s : List Char} (hs : IsIdentLexeme s) : '\x00' ∉ s := by
  cases s with
  | nil => exact hs.elim
  | cons c cs =>
    rintro (_ | ⟨_, h⟩)
    · exact absurd hs.1 (by decide)
    · exact absurd (hs.2 _ h) (by decide)

theorem IsIdentLexeme.length_pos {s : List Char} (hs : IsIdentLexeme s) : 0 < s.length := by
  cases s with
  | nil => exact hs.elim
  | cons => simp

theorem keywordLinear_of_not_mem {s : List Char}
    (hk : ∀ e ∈ keywords, e.1.toList ≠ s.map Char.toLower) : keywordLinear s = .IDENT := by
  rw [keywordLinear, List.find?_eq_none.2 (fun e he => by simpa using hk e he)]

/-- A lexeme whose lowered spelling is in no entry is never found by the search. -/
theorem lookupKeyword_of_not_mem {s : List Char} (hs : IsIdentLexeme s)
    (hk : ∀ e ∈ keywords, e.1.toList ≠ s.map Char.toLower) : lookupKeyword s s.length = .IDENT := by
  by_contra h
  obtain ⟨m, hc, hl, -⟩ := lookupKeyword_go_sound s s.length _ _ _ h
  rw [List.getD_eq_getElem?_getD] at hc hl
  cases hm : keywords[m]? with
  | none =>
    rw [hm] at hl
    exact hs.length_pos.ne (hl : 0 = s.length)
  | some e =>
    rw [hm, Option.getD_some] at hc hl
    have he := List.getElem?_mem hm
    rw [@strncasecmp_eq_zero_iff s e.1.toList ((String.length_data e.1).trans hl) hs.nul_not_mem,
      keywords_lower e he] at hc
    exact hk e he hc.symm

/-- **The binary search misses eight keywords, and only those.**  For every identifier
lexeme `s`, `lookup_keyword(s, |s|)` — the call `lexer_scan_identifier` makes — returns
what the linear lookup `keywordLinear` returns, except when `s` lowered is one of
`missedKeywords` (`as`, `char`, `in`, `no`, `on`, `or`, `over`, `time`): there it returns
`TOKEN_IDENT`.  Each of the eight is a proper prefix of the entry at some midpoint of its
search (`asc`, `character`, `into`, `not`/`only`, ...), where `strncasecmp` over `|s|`
bytes is `0`, the length test fails, and the search goes right instead of left. -/
theorem lookupKeyword_eq_keywordLinear (s : List Char) (hs : IsIdentLexeme s) :
    lookupKeyword s s.length =
      if (⟨s.map Char.toLower⟩ : String) ∈ missedKeywords then .IDENT else keywordLinear s := by
  by_cases hk : ∃ e ∈ keywords, e.1.toList = s.map Char.toLower
  · obtain ⟨e, he, heq⟩ := hk
    have hlen : s.length = e.1.length := by
      rw [← String.length_data, ← List.length_map s Char.toLower, ← heq]; rfl
    have h1 : lookupKeyword s s.length = lookupKeyword e.1.toList e.1.length := by
      rw [hlen, lookupKeyword, lookupKeyword, heq, ← lookupKeyword_go_map_toLower s]
    have h2 : keywordLinear s = e.2 := by
      rw [← keywordLinear_map_toLower, ← heq, keywords_linear e he]
    rw [h1, keywords_search e he, h2, ← heq]
    rfl
  · push_neg at hk
    rw [lookupKeyword_of_not_mem hs hk, keywordLinear_of_not_mem hk, if_neg]
    intro hm
    obtain ⟨e, he, hee⟩ := missedKeywords_mem _ hm
    exact hk e he (by rw [hee]; rfl)

theorem lookupKeyword_eq_keywordLinear_mixed_case :
    IsIdentLexeme "sElEcT".toList ∧
    lookupKeyword "sElEcT".toList "sElEcT".toList.length =
      if (⟨"sElEcT".toList.map Char.toLower⟩ : String) ∈ missedKeywords then .IDENT
      else keywordLinear "sElEcT".toList :=
  ⟨⟨rfl, by decide⟩, lookupKeyword_eq_keywordLinear _ ⟨rfl, by decide⟩⟩

end SqlParser
end MantisDB
