import MantisDB.SqlParser.Tokenize

/-!
# Case folding

`pg_strcasecmp` (`src/cgo/sql_parser.c`, lines 46-56), and the lexer of the same file
under `tolower`.

`pg_strcasecmp` walks two C strings while both have a byte, comparing the bytes through
`tolower`, and when one ends compares the bytes it stopped at.  On two strings it is
`true` exactly when they agree up to the case of ASCII letters; its `NULL` branch
returns `s1 != s2`, so a `NULL` against a string is `true` as well, and two `NULL`s are
`false` (`pgStrcasecmp_iff`).

The lexer reads letters only through `is_alpha` and `is_alnum`, the exponent marker
`e`/`E`, and the keyword search, whose `strncasecmp` lowers both sides; no operator,
quote, comment marker or whitespace byte is a letter.  So lowering the ASCII letters
of the input lowers the texts of the tokens and the input they leave, and changes
nothing else `lexOne` decides (`lexOne_map_toLower`).  Two inputs that agree up to case
give `parser_parse` tokens of the same kinds, with texts that agree up to case, and the
same `parser_error` (`parserParse_case_insensitive`).
-/

namespace MantisDB
namespace SqlParser

/-! ### `tolower` on the lexer's classes of bytes -/

section Chars

variable {c d : Char}

theorem Char.le_iff_toNat : c ≤ d ↔ c.toNat ≤ d.toNat := Iff.rfl

theorem isDigit_iff : isDigit c = true ↔ 48 ≤ c.toNat ∧ c.toNat ≤ 57 := by
  simp only [isDigit, Bool.and_eq_true, decide_eq_true_eq, Char.le_iff_toNat]; rfl

theorem isAlpha_iff :
    isAlpha c = true ↔ (97 ≤ c.toNat ∧ c.toNat ≤ 122) ∨ (65 ≤ c.toNat ∧ c.toNat ≤ 90) ∨ c.toNat = 95 := by
  simp only [isAlpha, Bool.or_eq_true, Bool.and_eq_true, decide_eq_true_eq, beq_iff_eq,
    Char.le_iff_toNat, Char.eq_iff_toNat, or_assoc]; rfl

@[simp] theorem isDigit_toLower (c : Char) : isDigit c.toLower = isDigit c := by
  rw [Bool.eq_iff_iff, isDigit_iff, isDigit_iff, Char.toLower_toNat]; split_ifs <;> omega

@[simp] theorem isAlpha_toLower (c : Char) : isAlpha c.toLower = isAlpha c := by
  rw [Bool.eq_iff_iff, isAlpha_iff, isAlpha_iff, Char.toLower_toNat]; split_ifs <;> omega

@[simp] theorem isAlnum_toLower (c : Char) : isAlnum c.toLower = isAlnum c := by
  simp only [isAlnum, isAlpha_toLower, isDigit_toLower]

/-- `tolower` keeps every byte that is no letter. -/
theorem toLower_of_not_alpha (hc : isAlpha c = false) : c.toLower = c := by
  have h := mt (@isAlpha_iff c).2 (by simp [hc])
  rw [Char.eq_iff_toNat, Char.toLower_toNat, if_neg (by omega)]

/-- Only a byte itself lowers to a byte that is no letter. -/
theorem toLower_eq_iff (hd : isAlpha d = false) : c.toLower = d ↔ c = d := by
  have h := mt (@isAlpha_iff d).2 (by simp [hd])
  rw [Char.eq_iff_toNat, Char.eq_iff_toNat, Char.toLower_toNat]
  split_ifs <;> omega

theorem toLower_beq (hd : isAlpha d = false) : (c.toLower == d) = (c == d) := by
  rw [Bool.eq_iff_iff, beq_iff_eq, beq_iff_eq, toLower_eq_iff hd]

@[simp] theorem isSpace_toLower (c : Char) : isSpace c.toLower = isSpace c := by
  simp (disch := decide) only [isSpace, toLower_beq]

/-- The exponent marker: `e` or `E` before lowering, `e` after. -/
theorem toLower_exponent : (c.toLower = 'e' ∨ c.toLower = 'E') ↔ (c = 'e' ∨ c = 'E') := by
  simp only [Char.eq_iff_toNat, Char.toLower_toNat, show 'e'.toNat = 101 from rfl,
    show 'E'.toNat = 69 from rfl]
  split_ifs <;> omega

end Chars

/-! ### `tolower` through the scanners' pieces of input -/

section Lists

variable {v w s : List Char} {a b : Char}

theorem takeWhile_map_toLower {p : Char → Bool} (hp : ∀ c, p c.toLower = p c) (v : List Char) :
    (v.map Char.toLower).takeWhile p = (v.takeWhile p).map Char.toLower := by
  rw [List.takeWhile_map, show p ∘ Char.toLower = p from funext hp]

theorem dropWhile_map_toLower {p : Char → Bool} (hp : ∀ c, p c.toLower = p c) (v : List Char) :
    (v.map Char.toLower).dropWhile p = (v.dropWhile p).map Char.toLower := by
  rw [List.dropWhile_map, show p ∘ Char.toLower = p from funext hp]

theorem bne_toLower (hd : isAlpha d = false) (c : Char) : (c.toLower != d) = (c != d) := by
  rw [bne, bne, toLower_beq hd]

theorem map_toLower_eq_cons (hb : isAlpha b = false) :
    v.map Char.toLower = b :: s ↔ ∃ w, v = b :: w ∧ w.map Char.toLower = s := by
  cases v with
  | nil => simp
  | cons c w =>
    rw [List.map_cons, List.cons.injEq, toLower_eq_iff hb]
    exact ⟨fun ⟨h₁, h₂⟩ => ⟨w, h₁ ▸ rfl, h₂⟩, fun ⟨_, h₁, h₂⟩ => by cases h₁; exact ⟨rfl, h₂⟩⟩

theorem map_toLower_eq_iff : ∀ {v s : List Char}, (∀ d ∈ s, isAlpha d = false) →
    (v.map Char.toLower = s ↔ v = s)
  | [], _, _ => by simp [eq_comm]
  | _ :: _, [], _ => by simp
  | c :: v, d :: s, hs => by
    rw [List.forall_mem_cons] at hs
    rw [List.map_cons, List.cons.injEq, List.cons.injEq, toLower_eq_iff hs.1, map_toLower_eq_iff hs.2]

theorem map_toLower_of_not_alpha (hs : ∀ d ∈ s, isAlpha d = false) : s.map Char.toLower = s :=
  (map_toLower_eq_iff hs).2 rfl

end Lists

/-! ### The skip phase -/

theorem blockCommentRest_map_toLower :
    ∀ w : List Char, blockCommentRest (w.map Char.toLower) = (blockCommentRest w).map Char.toLower
  | [] | [_] => rfl
  | c :: d :: w => by
    simp only [List.map_cons, blockCommentRest, toLower_eq_iff (d := '*') (by decide),
      toLower_eq_iff (d := '/') (by decide)]
    split_ifs
    · rfl
    · rw [← List.map_cons, blockCommentRest_map_toLower (d :: w)]

/-- A comment opener, `a` then `b`, stands before the lowered bytes where it stands
before the bytes. -/
theorem dropWhile_map_toLower_eq {a b : Char} (ha : isAlpha a = false) (hb : isAlpha b = false)
    {v w' : List Char} :
    (v.map Char.toLower).dropWhile isSpace = a :: b :: w' ↔
      ∃ w, v.dropWhile isSpace = a :: b :: w ∧ w.map Char.toLower = w' := by
  rw [dropWhile_map_toLower isSpace_toLower, map_toLower_eq_cons ha]
  constructor
  · rintro ⟨u, hu, hw⟩
    obtain ⟨w, rfl, rfl⟩ := (map_toLower_eq_cons hb).1 hw
    exact ⟨w, hu, rfl⟩
  · rintro ⟨w, hw, rfl⟩
    exact ⟨b :: w, hw, by rw [List.map_cons, toLower_of_not_alpha hb]⟩

theorem dropWhile_map_toLower_ne {a b : Char} (ha : isAlpha a = false) (hb : isAlpha b = false)
    {v : List Char} (h : ∀ w, v.dropWhile isSpace = a :: b :: w → False) (w' : List Char) :
    (v.map Char.toLower).dropWhile isSpace = a :: b :: w' → False := fun h' =>
  let ⟨w, hw, _⟩ := (dropWhile_map_toLower_eq ha hb).1 h'
  h w hw

/-- The skip phase leaves of the lowered input the lowered bytes it leaves. -/
theorem skipRest_map_toLower (v : List Char) :
    skipRest (v.map Char.toLower) = (skipRest v).map Char.toLower := by
  induction v using skipRest.induct with
  | case1 v w hv _ ih =>
    have hl : (v.map Char.toLower).dropWhile isSpace = '-' :: '-' :: w.map Char.toLower :=
      (dropWhile_map_toLower_eq (by decide) (by decide)).2 ⟨w, hv, rfl⟩
    rw [skipRest_of_line hv, skipRest_of_line hl, ← ih,
      dropWhile_map_toLower (bne_toLower (d := '\n') (by decide))]
  | case2 v w hv _ ih =>
    have hb : (v.map Char.toLower).dropWhile isSpace = '/' :: '*' :: w.map Char.toLower :=
      (dropWhile_map_toLower_eq (by decide) (by decide)).2 ⟨w, hv, rfl⟩
    rw [skipRest_of_block hv, skipRest_of_block hb, ← ih, blockCommentRest_map_toLower]
  | case3 v hl hb =>
    rw [skipRest_of_stop hl hb, ← dropWhile_map_toLower isSpace_toLower,
      skipRest_of_stop (dropWhile_map_toLower_ne (by decide) (by decide) hl)
        (dropWhile_map_toLower_ne (by decide) (by decide) hb)]

/-! ### The scanners -/

theorem stringAt_map_toLower {q : Char} (hq : isAlpha q = false) (w : List Char) :
    stringAt q (w.map Char.toLower) =
      (stringAt q w).map fun p => (p.1.map Char.toLower, p.2.map Char.toLower) := by
  induction w using stringAt.induct q with
  | case1 => rfl
  | case2 => simp [stringAt, toLower_of_not_alpha hq]
  | case3 c hc => simp [stringAt, toLower_eq_iff hq, hc]
  | case4 w ih => simp [stringAt, toLower_of_not_alpha hq, ih, Option.map_map, Function.comp_def]
  | case5 d w hd => simp [stringAt, toLower_of_not_alpha hq, toLower_eq_iff hq, hd]
  | case6 d w hq' ih =>
    simp [stringAt, toLower_of_not_alpha hq, toLower_eq_iff hq, hq', ih, Option.map_map,
      Function.comp_def]
  | case7 c d w hc hc' ih =>
    rw [List.map_cons] at ih
    simp [stringAt, toLower_eq_iff hq, toLower_eq_iff (d := '\\') (by decide), hc, hc', ih,
      Option.map_map, Function.comp_def]

theorem fractionAt_map_toLower :
    ∀ v : List Char, fractionAt (v.map Char.toLower) = (fractionAt v).map Char.toLower
  | [] | [_] => rfl
  | c :: d :: r => by
    simp only [List.map_cons, fractionAt, toLower_eq_iff (d := '.') (by decide), isDigit_toLower]
    split_ifs
    · rw [← List.map_cons, takeWhile_map_toLower isDigit_toLower, List.map_cons]
    · rfl

theorem signAt_map_toLower : ∀ v : List Char, signAt (v.map Char.toLower) = (signAt v).map Char.toLower
  | [] => rfl
  | c :: _ => by
    simp only [List.map_cons, signAt, toLower_eq_iff (d := '+') (by decide),
      toLower_eq_iff (d := '-') (by decide)]
    split_ifs <;> rfl

theorem exponentAt_map_toLower :
    ∀ v : List Char, exponentAt (v.map Char.toLower) = (exponentAt v).map (List.map Char.toLower)
  | [] => rfl
  | x :: t => by
    simp only [List.map_cons, exponentAt, toLower_exponent, signAt_map_toLower, List.length_map,
      ← List.map_drop]
    split_ifs
    · cases t.drop (signAt t).length with
      | nil => rfl
      | cons d r =>
        simp only [List.map_cons, isDigit_toLower]
        split_ifs
        · rw [← List.map_cons Char.toLower d r, takeWhile_map_toLower isDigit_toLower]; simp
        · rfl
    · rfl

theorem numberAfter_map_toLower (w : List Char) :
    numberAfter (w.map Char.toLower) = (numberAfter w).map Char.toLower := by
  rw [numberAfter, numberAfter, dropWhile_map_toLower isDigit_toLower, fractionAt_map_toLower,
    List.length_map, List.map_drop]

theorem lookupKeyword_map_toLower (s : List Char) (len : ℕ) :
    lookupKeyword (s.map Char.toLower) len = lookupKeyword s len :=
  lookupKeyword_go_map_toLower s len _ _ _

theorem operatorKinds_not_alpha : ∀ e ∈ operatorKinds, ∀ d ∈ e.1, isAlpha d = false := by decide

theorem find?_congr {α : Type} {l : List α} {p q : α → Bool} (h : ∀ a ∈ l, p a = q a) :
    l.find? p = l.find? q := by
  induction l with
  | nil => rfl
  | cons a l ih =>
    rw [List.forall_mem_cons] at h
    rw [List.find?_cons, List.find?_cons, h.1, ih h.2]

/-- The operator table is read the same on the lowered input: no spelling has a letter. -/
theorem spellingAt_map_toLower (v : List Char) : spellingAt (v.map Char.toLower) = spellingAt v := by
  have h : ∀ n, operatorKinds.find? (·.1 = (v.take n).map Char.toLower) =
      operatorKinds.find? (·.1 = v.take n) :=
    fun n => find?_congr fun e he => decide_eq_decide.2
      (eq_comm.trans ((map_toLower_eq_iff (operatorKinds_not_alpha e he)).trans eq_comm))
  simp only [spellingAt, List.length_map, ← List.map_take, h]

theorem spellingAt_mem {p : List Char × TokenType} (h : spellingAt v = some p) : p ∈ operatorKinds := by
  obtain ⟨n, -, hn⟩ := List.exists_of_findSome?_eq_some h
  split_ifs at hn
  exact List.mem_of_find?_eq_some hn

theorem operatorAt_map_toLower (v : List Char) :
    operatorAt (v.map Char.toLower) = (operatorAt v).map fun p => (p.1.map Char.toLower, p.2) := by
  by_cases hv : ∃ w, v = '$' :: w
  · obtain ⟨w, rfl⟩ := hv
    simp only [List.map_cons, show '$'.toLower = '$' from rfl, operatorAt,
      takeWhile_map_toLower isDigit_toLower, List.map_eq_nil_iff]
    split_ifs <;> rfl
  · have hv' : ∀ w, v.map Char.toLower = '$' :: w → False := fun w h => by
      obtain ⟨u, rfl, -⟩ := (map_toLower_eq_cons (by decide)).1 h
      exact hv ⟨u, rfl⟩
    rw [operatorAt.eq_2 v fun w h => hv ⟨w, h⟩, operatorAt.eq_2 _ hv', spellingAt_map_toLower]
    cases hs : spellingAt v with
    | none => rfl
    | some p => rw [Option.map_some', map_toLower_of_not_alpha (operatorKinds_not_alpha _ (spellingAt_mem hs))]

/-! ### One step and a whole run of the lexer -/

/-- What lowering the input does to a lexer step's outcome: the token's text and the
input it leaves are lowered, its kind and an error stay. -/
def Lexed.lower : Lexed → Lexed
  | .token k s r => .token k (s.map Char.toLower) (r.map Char.toLower)
  | l => l

theorem lexToken_map_toLower (v : List Char) : lexToken (v.map Char.toLower) = (lexToken v).lower := by
  cases v with
  | nil => rfl
  | cons c w =>
    simp only [List.map_cons, lexToken, toLower_eq_iff (d := '\'') (by decide),
      toLower_eq_iff (d := '"') (by decide), isDigit_toLower, isAlpha_toLower]
    split_ifs with hq hd ha
    · have hq' : isAlpha c = false := by rcases hq with rfl | rfl <;> rfl
      rw [toLower_of_not_alpha hq', stringAt_map_toLower hq']
      cases stringAt c w with
      | none => rfl
      | some p =>
        simp only [Option.map_some', Lexed.lower, takeWhile_map_toLower (p := (· != '\x00')) (bne_toLower (by decide))]
    · rw [← List.map_cons, numberAfter_map_toLower, exponentAt_map_toLower]
      cases exponentAt (numberAfter (c :: w)) with
      | none => rfl
      | some e =>
        simp only [Option.map_some', Lexed.lower, dropWhile_map_toLower isDigit_toLower,
          fractionAt_map_toLower, takeWhile_map_toLower isDigit_toLower, ne_eq, List.map_eq_nil_iff,
          ← List.map_append, List.length_map, List.map_drop]
    · simp only [Lexed.lower, identAt, takeWhile_map_toLower isAlnum_toLower, ← List.map_cons,
        lookupKeyword_map_toLower, List.length_map, dropWhile_map_toLower isAlnum_toLower]
    · rw [← List.map_cons, operatorAt_map_toLower]
      cases operatorAt (c :: w) with
      | none => rw [Option.map_none', toLower_of_not_alpha (by simpa using ha)]; rfl
      | some p => simp only [Option.map_some', Lexed.lower, List.length_map, List.map_drop]

/-- **`lexOne` on lowered input.**  For every input, the lexer reads from the input with
its ASCII letters lowered the token of the same kind, with its text and the input it
leaves lowered, and fails with the same message. -/
theorem lexOne_map_toLower (v : List Char) : lexOne (v.map Char.toLower) = (lexOne v).lower := by
  rw [lexOne, lexOne, skipRest_map_toLower, lexToken_map_toLower]

theorem tokenize_go_map_toLower : ∀ (fuel : ℕ) (v : List Char),
    tokenize.go fuel (v.map Char.toLower) =
      ((tokenize.go fuel v).1.map fun t => (t.1, t.2.map Char.toLower), (tokenize.go fuel v).2)
  | 0, _ => rfl
  | fuel + 1, v => by
    rw [tokenize.go, tokenize.go, lexOne_map_toLower]
    cases lexOne v with
    | eof | error => rfl
    | token k s r => simp only [Lexed.lower, tokenize_go_map_toLower fuel r, List.map_cons]

theorem tokenize_map_toLower (v : List Char) :
    tokenize (v.map Char.toLower) = ((tokenize v).1.map fun t => (t.1, t.2.map Char.toLower), (tokenize v).2) := by
  rw [tokenize, tokenize, List.length_map, tokenize_go_map_toLower]

/-- `parser_parse`'s tokens, their texts lowered, and its error are those `tokenize`
reads from the lowered input. -/
theorem parserParse_lowered (input : List Char) :
    (parserParse (parserCreate input)).1.map (fun t => (t.type, t.text.map Char.toLower)) =
      (tokenize (input.map Char.toLower)).1 ∧
    parserError (parserParse (parserCreate input)).2 = (tokenize (input.map Char.toLower)).2 := by
  obtain ⟨h₁, h₂⟩ := parserParse_kindText_error input
  rw [tokenize_map_toLower, ← h₁, ← h₂, List.map_map]
  exact ⟨rfl, rfl⟩

/-- **The lexer does not see letter case.**  For every two inputs that agree once their
ASCII letters are lowered, `parser_parse` returns as many tokens on each, of the same
kinds in the same order, with texts that agree up to case, and `parser_error` is the
same: a keyword is one in any case, and an input fails or not whatever its case. -/
theorem parserParse_case_insensitive (input input' : List Char)
    (h : input.map Char.toLower = input'.map Char.toLower) :
    (parserParse (parserCreate input)).1.map (fun t => (t.type, t.text.map Char.toLower)) =
      (parserParse (parserCreate input')).1.map (fun t => (t.type, t.text.map Char.toLower)) ∧
    parserError (parserParse (parserCreate input)).2 = parserError (parserParse (parserCreate input')).2 := by
  obtain ⟨h₁, h₂⟩ := parserParse_lowered input
  obtain ⟨h₁', h₂'⟩ := parserParse_lowered input'
  rw [h₁, h₂, h₁', h₂', h]
  exact ⟨rfl, rfl⟩

theorem parserParse_case_insensitive_select :
    "SELECT Name FROM t".toList.map Char.toLower = "select name from T".toList.map Char.toLower ∧
    ((parserParse (parserCreate "SELECT Name FROM t".toList)).1.map (fun t => (t.type, t.text.map Char.toLower)) =
      (parserParse (parserCreate "select name from T".toList)).1.map (fun t => (t.type, t.text.map Char.toLower)) ∧
    parserError (parserParse (parserCreate "SELECT Name FROM t".toList)).2 =
      parserError (parserParse (parserCreate "select name from T".toList)).2) :=
  ⟨by decide, parserParse_case_insensitive _ _ (by decide)⟩

/-! ### `pg_strcasecmp` -/

/-- `pg_strcasecmp(s1, s2)`: `s1 != s2` when either is `NULL`; otherwise the bytes of the
two blocks, each through `tolower`, while neither is NUL, then whether the bytes it
stopped at are equal.  The end of a block's data reads as its NUL, as in `Buf.cstr`. -/
def pgStrcasecmp : Option Buf → Option Buf → Bool
  | some s1, some s2 => go s1.data s2.data
  | s1, s2 => s1.isSome != s2.isSome
where
  /-- The `while (*s1 && *s2)` loop and the final `*s1 == *s2`. -/
  go : List Char → List Char → Bool
  | a :: s1, b :: s2 =>
    if a ≠ '\x00' ∧ b ≠ '\x00' then (if a.toLower ≠ b.toLower then false else go s1 s2) else a = b
  | [], [] => true
  | [], b :: _ => b = '\x00'
  | a :: _, [] => a = '\x00'

theorem pgStrcasecmp_go_iff : ∀ s t : List Char,
    pgStrcasecmp.go s t = true ↔
      (s.takeWhile (· != '\x00')).map Char.toLower = (t.takeWhile (· != '\x00')).map Char.toLower
  | [], [] => by simp [pgStrcasecmp.go]
  | [], b :: _ => by by_cases hb : b = '\x00' <;> simp [pgStrcasecmp.go, hb]
  | a :: _, [] => by by_cases ha : a = '\x00' <;> simp [pgStrcasecmp.go, ha]
  | a :: s, b :: t => by
    by_cases ha : a = '\x00' <;> by_cases hb : b = '\x00'
    · simp [pgStrcasecmp.go, ha, hb]
    · simp [pgStrcasecmp.go, ha, hb, Ne.symm hb]
    · simp [pgStrcasecmp.go, ha, hb]
    · simp [pgStrcasecmp.go, ha, hb, pgStrcasecmp_go_iff s t]

/-- **`pg_strcasecmp` answers "equal up to case", and `true` on one `NULL`.**  On every two
strings it is `true` exactly when their C strings agree once lowered by `tolower`; its
`NULL` branch returns `s1 != s2`: `true` for a `NULL` and a string, `false` for two
`NULL`s, the other way round from what the loop answers on equal strings. -/
theorem pgStrcasecmp_iff :
    (∀ b1 b2 : Buf, pgStrcasecmp (some b1) (some b2) = true ↔
      b1.cstr.map Char.toLower = b2.cstr.map Char.toLower) ∧
    ∀ s : Option Buf, pgStrcasecmp none s = s.isSome ∧ pgStrcasecmp s none = s.isSome :=
  ⟨fun b1 b2 => pgStrcasecmp_go_iff b1.data b2.data, fun s => by cases s <;> exact ⟨rfl, rfl⟩⟩

end SqlParser
end MantisDB
