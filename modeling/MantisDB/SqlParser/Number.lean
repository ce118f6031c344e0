import MantisDB.SqlParser.Scan

/-!
# Numeric literals

`lexer_scan_number` (`src/cgo/sql_parser.c`, lines 390-447) against the language
`D+ (. D+)? ([eE] [+-]? D+)?` (`NumberLit`).  The scanner first reads what it
consumes off the unconsumed input (`fractionAt`, `signAt`, `exponentAt`,
`lexerScanNumber_eq`); the rest of the module is about those lists only:

* the scan fails exactly on `D+ (. D+)? [eE]` not followed by an optionally signed
  digit (`BadExponent`, `exponentAt_eq_none_iff`);
* otherwise it consumes the longest prefix of the input in the language
  (`numberPrefix_longest`), as `TOKEN_FCONST` exactly when that prefix holds a `.`,
  `e` or `E` (`lexerDispatch_number`).
-/

namespace MantisDB
namespace SqlParser

/-! ### The language -/

/-- `D+`: a nonempty run of ASCII digits. -/
def IsDigits (s : List Char) : Prop := s ≠ [] ∧ ∀ c ∈ s, isDigit c = true

/-- `[+-]?`. -/
def IsSign (s : List Char) : Prop := s = [] ∨ s = ['+'] ∨ s = ['-']

/-- `(. D+)?`. -/
def IsFraction (f : List Char) : Prop := f = [] ∨ ∃ d, f = '.' :: d ∧ IsDigits d

/-- `([eE] [+-]? D+)?`. -/
def IsExponent (e : List Char) : Prop :=
  e = [] ∨ ∃ x sg d, e = x :: (sg ++ d) ∧ (x = 'e' ∨ x = 'E') ∧ IsSign sg ∧ IsDigits d

/-- `D+ (. D+)? ([eE] [+-]? D+)?`, the numbers of `lexer_scan_number`. -/
def NumberLit (s : List Char) : Prop :=
  ∃ i f e, s = i ++ (f ++ e) ∧ IsDigits i ∧ IsFraction f ∧ IsExponent e

/-- `D+ (. D+)? [eE]` where no optionally signed digit follows the `e`/`E`: the inputs
`lexer_scan_number` rejects with `invalid number format`. -/
def BadExponent (w : List Char) : Prop :=
  ∃ i f x t, w = i ++ (f ++ x :: t) ∧ IsDigits i ∧ IsFraction f ∧ (x = 'e' ∨ x = 'E') ∧
    ¬ ∃ sg d t', t = sg ++ d :: t' ∧ IsSign sg ∧ isDigit d = true

/-! ### What the scanner takes -/

/-- The fraction the scanner takes at `v`: the `.` and its digits, when a digit follows
the `.`. -/
def fractionAt : List Char → List Char
  | c :: d :: r => if c = '.' ∧ isDigit d = true then c :: (d :: r).takeWhile isDigit else []
  | _ => []

/-- The sign the scanner takes after an `e`/`E`. -/
def signAt : List Char → List Char
  | c :: _ => if c = '+' ∨ c = '-' then [c] else []
  | [] => []

/-- The exponent the scanner takes at `v`: `some []` where no `e`/`E` starts `v`,
`none` where the `e`/`E` and its sign are not followed by a digit. -/
def exponentAt : List Char → Option (List Char)
  | x :: t =>
    if x = 'e' ∨ x = 'E' then
      match t.drop (signAt t).length with
      | d :: r => if isDigit d = true then some (x :: (signAt t ++ (d :: r).takeWhile isDigit)) else none
      | [] => none
    else some []
  | [] => some []

/-- What follows the digits and the fraction the scanner takes from `w`. -/
def numberAfter (w : List Char) : List Char :=
  (w.dropWhile isDigit).drop (fractionAt (w.dropWhile isDigit)).length

section Lists

variable {v w s t : List Char} {c x : Char}

theorem isDigit_of_mem_takeWhile (h : c ∈ w.takeWhile isDigit) : isDigit c = true :=
  List.mem_takeWhile_imp h

theorem signAt_prefix (t : List Char) : signAt t ++ t.drop (signAt t).length = t := by
  rcases t with _ | ⟨c, t⟩
  · rfl
  · simp only [signAt]; split_ifs <;> rfl

theorem signAt_isSign (t : List Char) : IsSign (signAt t) := by
  rcases t with _ | ⟨c, t⟩
  · exact .inl rfl
  · simp only [signAt]
    split_ifs with h
    · rcases h with rfl | rfl
      · exact .inr (.inl rfl)
      · exact .inr (.inr rfl)
    · exact .inl rfl

/-- A sign followed by a digit is the sign `signAt` takes. -/
theorem signAt_of_isSign (hs : IsSign s) (hd : isDigit c = true) (ht : t = s ++ c :: v) :
    signAt t = s := by
  rcases hs with rfl | rfl | rfl
  · subst ht
    have : ¬ (c = '+' ∨ c = '-') := by rintro (rfl | rfl) <;> simp [isDigit] at hd
    simp [signAt, this]
  all_goals subst ht; simp [signAt]

theorem fractionAt_isFraction (v : List Char) : IsFraction (fractionAt v) := by
  rcases v with _ | ⟨c, _ | ⟨d, r⟩⟩
  · exact .inl rfl
  · exact .inl rfl
  · simp only [fractionAt]
    split_ifs with h
    · exact .inr ⟨_, by rw [h.1], by simp [List.takeWhile_cons, h.2],
        fun c hc => isDigit_of_mem_takeWhile hc⟩
    · exact .inl rfl

/-- A run of digits at the front of `v ++ s` is a prefix of the longest one; when it is
shorter, a digit follows it. -/
theorem digits_split {v : List Char} (s : List Char) (ha : ∀ c ∈ v, isDigit c = true) :
    (v = (v ++ s).takeWhile isDigit ∧ s = (v ++ s).dropWhile isDigit) ∨
      (v.length < ((v ++ s).takeWhile isDigit).length ∧ ∃ d s', s = d :: s' ∧ isDigit d = true) := by
  induction v with
  | nil =>
    rcases s with _ | ⟨d, s'⟩
    · exact .inl ⟨rfl, rfl⟩
    · by_cases hd : isDigit d = true
      · exact .inr ⟨by simp [List.takeWhile_cons, hd], d, s', rfl, hd⟩
      · exact .inl ⟨by simp [List.takeWhile_cons, hd], by simp [List.dropWhile_cons, hd]⟩
  | cons c v ih =>
    have hc := ha c (List.mem_cons_self c v)
    rcases ih (fun c hc' => ha c (List.mem_cons_of_mem _ hc')) with ⟨h1, h2⟩ | ⟨h1, h2⟩
    · exact .inl ⟨by simp [List.takeWhile_cons, hc, ← h1], by simp [List.dropWhile_cons, hc, ← h2]⟩
    · exact .inr ⟨by simpa [List.takeWhile_cons, hc] using h1, h2⟩

theorem fractionAt_ne_nil {v : List Char} (h : fractionAt v ≠ []) :
    ∃ d r, v = '.' :: d :: r ∧ isDigit d = true ∧ fractionAt v = '.' :: (d :: r).takeWhile isDigit := by
  rcases v with _ | ⟨c, _ | ⟨d, r⟩⟩
  · exact absurd rfl h
  · exact absurd rfl h
  · simp only [fractionAt] at h ⊢
    split_ifs at h ⊢ with hc
    · exact ⟨d, r, by rw [hc.1], hc.2, by rw [hc.1]⟩
    · exact absurd rfl h

theorem fractionAt_prefix (v : List Char) : fractionAt v ++ v.drop (fractionAt v).length = v := by
  by_cases h : fractionAt v = []
  · rw [h]; rfl
  · obtain ⟨d, r, rfl, -, hf⟩ := fractionAt_ne_nil h
    rw [hf, List.length_cons, List.cons_append, List.drop_succ_cons, drop_length_takeWhile,
      List.takeWhile_append_dropWhile]

theorem fractionAt_of_ne (h : x ≠ '.') : fractionAt (x :: t) = [] := by
  rcases t with _ | ⟨d, r⟩
  · rfl
  · simp [fractionAt, h]

/-- A digit run is no longer than the longest one at the same place. -/
theorem digits_le {v : List Char} (s : List Char) (ha : ∀ c ∈ v, isDigit c = true) :
    v.length ≤ ((v ++ s).takeWhile isDigit).length := by
  rcases digits_split s ha with ⟨h, -⟩ | ⟨h, -⟩
  · exact h ▸ le_rfl
  · exact h.le

theorem exponentAt_of_not_exp (h : ¬ (x = 'e' ∨ x = 'E')) : exponentAt (x :: t) = some [] := by
  simp [exponentAt, h]

/-- What `exponentAt` takes is an exponent, at the front of its input. -/
theorem exponentAt_some {e : List Char} (h : exponentAt v = some e) : IsExponent e ∧ e <+: v := by
  rcases v with _ | ⟨x, t⟩
  · cases h; exact ⟨.inl rfl, List.nil_prefix⟩
  · by_cases hx : x = 'e' ∨ x = 'E'
    · simp only [exponentAt, if_pos hx] at h
      split at h
      · rename_i d r ht
        split_ifs at h with hd
        cases h
        refine ⟨.inr ⟨x, signAt t, (d :: r).takeWhile isDigit, rfl, hx, signAt_isSign t,
          by simp [List.takeWhile_cons, hd], fun c hc => isDigit_of_mem_takeWhile hc⟩, ?_⟩
        have h1 : signAt t ++ (d :: r).takeWhile isDigit <+: signAt t ++ d :: r :=
          (List.prefix_append_right_inj _).2 (List.takeWhile_prefix _)
        have h2 : signAt t ++ d :: r = t := by rw [← ht, signAt_prefix]
        rw [h2] at h1
        exact (List.prefix_cons_inj x).2 h1
      · cases h
    · rw [exponentAt_of_not_exp hx] at h; cases h; exact ⟨.inl rfl, List.nil_prefix⟩

end Lists

/-! ### The scanner's number against the language -/

section Longest

variable {w : List Char}

/-- Digits and a fraction followed by `e`/`E` are the scanner's: the whole digit run
and `fractionAt` of what follows it. -/
theorem number_parts_eq {i f t : List Char} {x : Char} (hi : IsDigits i) (hf : IsFraction f)
    (hx : x = 'e' ∨ x = 'E') (hw : w = i ++ (f ++ x :: t)) :
    i = w.takeWhile isDigit ∧ f = fractionAt (w.dropWhile isDigit) ∧ x :: t = numberAfter w := by
  have hxd : isDigit x = false := by rcases hx with rfl | rfl <;> rfl
  have hxdot : x ≠ '.' := by rcases hx with rfl | rfl <;> decide
  subst hw
  rcases digits_split (f ++ x :: t) hi.2 with ⟨h1, h2⟩ | ⟨-, d, s', hs, hd⟩
  · rw [numberAfter, ← h1, ← h2]
    refine ⟨rfl, ?_⟩
    rcases hf with rfl | ⟨d', rfl, hd'⟩
    · simp [fractionAt_of_ne hxdot]
    · obtain ⟨d0, ds, rfl⟩ := List.exists_cons_of_ne_nil hd'.1
      have h0 := hd'.2 d0 (List.mem_cons_self _ _)
      rcases digits_split (x :: t) hd'.2 with ⟨h3, -⟩ | ⟨-, d, s', hs, hd⟩
      · have hfr : fractionAt (('.' :: d0 :: ds) ++ x :: t) = '.' :: d0 :: ds := by
          rw [List.cons_append, List.cons_append, fractionAt, if_pos ⟨rfl, h0⟩, ← List.cons_append, ← h3]
        rw [hfr]; simp
      · cases hs; simp [hxd] at hd
  · rcases hf with rfl | ⟨d', rfl, -⟩
    · cases hs; simp [hxd] at hd
    · cases hs; simp [isDigit] at hd

/-- Digits and a fraction at the front of `w` are no longer than the scanner's. -/
theorem int_frac_le {i f z : List Char} (hi : IsDigits i) (hf : IsFraction f) (hw : w = i ++ (f ++ z)) :
    i.length + f.length ≤ (w.takeWhile isDigit).length + (fractionAt (w.dropWhile isDigit)).length := by
  subst hw
  rcases digits_split (f ++ z) hi.2 with ⟨h1, h2⟩ | ⟨h1, d, s', hs, hd⟩
  · rw [← h1, ← h2]
    rcases hf with rfl | ⟨d', rfl, hd'⟩
    · simp
    · obtain ⟨d0, ds, rfl⟩ := List.exists_cons_of_ne_nil hd'.1
      have h0 := hd'.2 d0 (List.mem_cons_self _ _)
      have hfr : fractionAt (('.' :: d0 :: ds) ++ z) = '.' :: (d0 :: ds ++ z).takeWhile isDigit := by
        rw [List.cons_append, List.cons_append, fractionAt, if_pos ⟨rfl, h0⟩, ← List.cons_append]
      rw [hfr]
      have := digits_le z hd'.2
      simp only [List.length_cons] at this ⊢
      omega
  · rcases hf with rfl | ⟨d', rfl, -⟩
    · simp only [List.length_nil, Nat.add_zero]; omega
    · cases hs; simp [isDigit] at hd

/-- An exponent at the front of the input is no longer than the one `exponentAt`
takes there. -/
theorem exponentAt_longest {t z sg d e : List Char} {x : Char} (hs : IsSign sg) (hd : IsDigits d)
    (he : exponentAt (x :: t) = some e) (hx : x = 'e' ∨ x = 'E') (ht : t = sg ++ (d ++ z)) :
    (x :: (sg ++ d)).length ≤ e.length := by
  obtain ⟨d0, ds, rfl⟩ := List.exists_cons_of_ne_nil hd.1
  have h0 := hd.2 d0 (List.mem_cons_self _ _)
  have hsg : signAt t = sg := signAt_of_isSign hs h0 (by rw [ht]; rfl)
  have hdrop : t.drop (signAt t).length = d0 :: (ds ++ z) := by rw [hsg, ht]; simp
  simp only [exponentAt, if_pos hx, hdrop, if_pos h0, Option.some.injEq] at he
  subst he
  rw [hsg]
  have := digits_le z hd.2
  simp only [List.length_cons, List.length_append, List.cons_append] at this ⊢
  omega

/-- The scanner fails exactly on a bad exponent. -/
theorem exponentAt_eq_none_iff (hw : w.takeWhile isDigit ≠ []) :
    exponentAt (numberAfter w) = none ↔ BadExponent w := by
  constructor
  · intro h
    rcases hv : numberAfter w with _ | ⟨x, t⟩
    · rw [hv] at h; cases h
    · by_cases hx : x = 'e' ∨ x = 'E'
      · refine ⟨w.takeWhile isDigit, fractionAt (w.dropWhile isDigit), x, t, ?_,
          ⟨hw, fun c hc => isDigit_of_mem_takeWhile hc⟩, fractionAt_isFraction _, hx, ?_⟩
        · rw [← hv, numberAfter, fractionAt_prefix, List.takeWhile_append_dropWhile]
        · rintro ⟨sg, d, t', rfl, hs, hd⟩
          rw [hv] at h
          simp [exponentAt, hx, signAt_of_isSign hs hd rfl, hd] at h
      · rw [hv, exponentAt_of_not_exp hx] at h; cases h
  · rintro ⟨i, f, x, t, hw', hi, hf, hx, hno⟩
    rw [← (number_parts_eq hi hf hx hw').2.2]
    simp only [exponentAt, if_pos hx]
    split
    · rename_i d r ht
      split_ifs with hd
      · exact absurd ⟨signAt t, d, r, by rw [← ht, signAt_prefix], signAt_isSign t, hd⟩ hno
      · rfl
    · rfl

/-- **The scanner's number is the longest prefix in the language.** -/
theorem numberPrefix_longest {e p : List Char} (he : exponentAt (numberAfter w) = some e)
    (hp : p <+: w) (hn : NumberLit p) :
    p.length ≤ (w.takeWhile isDigit ++ (fractionAt (w.dropWhile isDigit) ++ e)).length := by
  obtain ⟨i, f, e', rfl, hi, hf, he'⟩ := hn
  obtain ⟨z, hz⟩ := hp
  simp only [List.length_append]
  rcases he' with rfl | ⟨x, sg, d, rfl, hx, hs, hd⟩
  · have := int_frac_le (w := w) hi hf (z := z) (by rw [← hz]; simp)
    simp only [List.length_nil]; omega
  · obtain ⟨h1, h2, h3⟩ := number_parts_eq (w := w) hi hf hx (t := sg ++ (d ++ z)) (by rw [← hz]; simp)
    rw [← h3] at he
    have := exponentAt_longest hs hd he hx rfl
    rw [h1, h2] at *
    simp only [List.length_append, List.length_cons] at this ⊢
    omega

/-- The scanner's number is in the language, at the front of the input. -/
theorem numberPrefix_numberLit {e : List Char} (hw : w.takeWhile isDigit ≠ [])
    (he : exponentAt (numberAfter w) = some e) :
    NumberLit (w.takeWhile isDigit ++ (fractionAt (w.dropWhile isDigit) ++ e)) ∧
      w.takeWhile isDigit ++ (fractionAt (w.dropWhile isDigit) ++ e) <+: w := by
  obtain ⟨hexp, hpre⟩ := exponentAt_some he
  refine ⟨⟨_, _, _, rfl, ⟨hw, fun c hc => isDigit_of_mem_takeWhile hc⟩, fractionAt_isFraction _, hexp⟩, ?_⟩
  conv_rhs => rw [← List.takeWhile_append_dropWhile isDigit w, ← fractionAt_prefix (w.dropWhile isDigit)]
  exact (List.prefix_append_right_inj _).2 ((List.prefix_append_right_inj _).2 hpre)

/-- A number holds no NUL byte. -/
theorem NumberLit.nul_not_mem {s : List Char} (h : NumberLit s) : '\x00' ∉ s := by
  have hd : ∀ {d : List Char}, IsDigits d → '\x00' ∉ d := fun hd h0 => absurd (hd.2 _ h0) (by decide)
  obtain ⟨i, f, e, rfl, hi, hf, he⟩ := h
  simp only [List.mem_append, not_or]
  refine ⟨hd hi, ?_, ?_⟩
  · rcases hf with rfl | ⟨d, rfl, hd'⟩
    · simp
    · simpa using hd hd'
  · rcases he with rfl | ⟨x, sg, d, rfl, hx, hs, hd'⟩
    · simp
    · rcases hs with rfl | rfl | rfl <;> rcases hx with rfl | rfl <;> simpa using hd hd'

/-- The scanner's number holds a `.`, `e` or `E` exactly when it has a fraction or an
exponent. -/
theorem numberPrefix_float_iff {u v e : List Char} (he : exponentAt v = some e) :
    (fractionAt u ≠ [] ∨ e ≠ []) ↔
      ('.' ∈ w.takeWhile isDigit ++ (fractionAt u ++ e) ∨ 'e' ∈ w.takeWhile isDigit ++ (fractionAt u ++ e) ∨
        'E' ∈ w.takeWhile isDigit ++ (fractionAt u ++ e)) := by
  have key : ∀ c, isDigit c = false → c ∈ w.takeWhile isDigit ++ (fractionAt u ++ e) →
      fractionAt u ≠ [] ∨ e ≠ [] := by
    intro c hc h
    rcases List.mem_append.1 h with h | h
    · simp [isDigit_of_mem_takeWhile h] at hc
    · rcases List.mem_append.1 h with h | h
      · exact .inl (List.ne_nil_of_mem h)
      · exact .inr (List.ne_nil_of_mem h)
  refine ⟨?_, by rintro (h | h | h) <;> exact key _ (by decide) h⟩
  rintro (hf | hne)
  · obtain ⟨d, r, -, -, hfe⟩ := fractionAt_ne_nil hf
    exact .inl (by simp [hfe])
  · rcases (exponentAt_some he).1 with rfl | ⟨x, sg, d, rfl, hx | hx, -, -⟩
    · exact absurd rfl hne
    · exact .inr (.inl (by simp [hx]))
    · exact .inr (.inr (by simp [hx]))

end Longest

/-! ### The scanner reads those lists off the input -/

section Scanner

variable {L : Lexer}

/-- The test for a decimal point is `fractionAt` of the rest being nonempty. -/
theorem lexerScanNumber_hasDot (L : Lexer) :
    (L.pos < L.input.length ∧ lexerPeek L = '.' ∧ L.pos + 1 < L.input.length ∧
        isDigit ((L.input[L.pos + 1]?).getD '\x00') = true) ↔ fractionAt L.rest ≠ [] := by
  rw [pos_lt_iff_rest_ne_nil, lexerPeek_eq, pos_add_lt_iff, getElem?_pos_add]
  rcases L.rest with _ | ⟨a, _ | ⟨d, r⟩⟩
  · simp [fractionAt]
  · simp [fractionAt]
  · by_cases h : a = '.' ∧ isDigit d = true
    · simp [fractionAt, h]
    · simp only [fractionAt, if_neg h]; simpa using h

/-- The decimal point and its digits: `fractionAt` of the rest. -/
theorem lexerScanNumber_fraction (L : Lexer) :
    (if fractionAt L.rest ≠ [] then lexerAdvanceWhile isDigit (lexerAdvance L) else L) =
      lexerAdvanceN (fractionAt L.rest).length L := by
  split_ifs with h
  · obtain ⟨d, r, hr, -, hf⟩ := fractionAt_ne_nil h
    rw [lexerAdvanceWhile_eq, rest_lexerAdvance, hf, hr]; rfl
  · rw [not_not.1 h]; rfl

/-- The sign of the exponent: `signAt` of the rest. -/
theorem lexerScanNumber_sign (L : Lexer) :
    (if L.pos < L.input.length ∧ (lexerPeek L = '+' ∨ lexerPeek L = '-') then lexerAdvance L else L) =
      lexerAdvanceN (signAt L.rest).length L := by
  simp only [pos_lt_iff_rest_ne_nil, lexerPeek_eq]
  rcases h : L.rest with _ | ⟨c, t⟩
  · rw [if_neg (by simp)]; rfl
  · simp only [signAt, List.headD_cons]
    split_ifs with h1 h2 h2 <;> first | rfl | simp_all

/-- The exponent: `exponentAt` of the rest decides the outcome. -/
theorem lexerScanNumber_exponent (start : ℕ) (hasDot : Bool) (L : Lexer) :
    lexerScanNumber.exponent start hasDot L =
      match exponentAt L.rest with
      | some e => (true, lexerScanNumber.numberToken start (hasDot || !e.isEmpty) (lexerAdvanceN e.length L))
      | none => (false, lexerSetError (lexerAdvanceN (1 + (signAt L.rest.tail).length) L)
          "invalid number format") := by
  rw [lexerScanNumber.exponent]
  simp only [lexerScanNumber_sign]
  simp only [pos_lt_iff_rest_ne_nil, lexerPeek_eq, ← rest_eq_nil_iff, rest_lexerAdvanceN, rest_lexerAdvance,
    lexerAdvanceWhile_eq]
  rcases hr : L.rest with _ | ⟨x, t⟩
  · simp [exponentAt]; rfl
  · by_cases hx : x = 'e' ∨ x = 'E'
    · have hk : ∀ k, lexerAdvanceN k (lexerAdvance L) = lexerAdvanceN (1 + k) L := fun k => by
        rw [lexerAdvanceN_add]; rfl
      simp only [exponentAt, if_pos hx, List.tail_cons]
      rw [if_pos ⟨List.cons_ne_nil _ _, by simpa using hx⟩]
      rcases ht : t.drop (signAt t).length with _ | ⟨d, r⟩
      · simp [hk]
      · by_cases hd : isDigit d = true
        · simp [hd, hk, ← lexerAdvanceN_add]
          congr 2; omega
        · simp [hd, hk]
    · simp [exponentAt, hx]; rfl

/-- **The scanner in list terms**: the digits, `fractionAt` of what follows them, and
the exponent phase from there. -/
theorem lexerScanNumber_eq (lx : Lexer) :
    lexerScanNumber lx = lexerScanNumber.exponent lx.pos
      (decide (fractionAt (lx.rest.dropWhile isDigit) ≠ []))
      (lexerAdvanceN ((lx.rest.takeWhile isDigit).length +
        (fractionAt (lx.rest.dropWhile isDigit)).length) lx) := by
  rw [lexerScanNumber, lexerAdvanceWhile_eq isDigit lx]
  simp only [lexerScanNumber_hasDot]
  simp only [lexerScanNumber_fraction]
  simp only [rest_lexerAdvanceN, drop_length_takeWhile, ← lexerAdvanceN_add]

end Scanner

/-! ### The number token -/

section Outcome

variable {lx : Lexer} {e : List Char}

@[simp] theorem numberToken_pos (start : ℕ) (b : Bool) (L : Lexer) :
    (lexerScanNumber.numberToken start b L).pos = L.pos := rfl

theorem numberToken_type (start : ℕ) (b : Bool) (L : Lexer) :
    (lexerScanNumber.numberToken start b L).currentToken.type = if b then .FCONST else .ICONST := by
  cases b <;> rfl

/-- After the digits and the fraction, the scanner is at `numberAfter`. -/
theorem rest_number (lx : Lexer) :
    (lexerAdvanceN ((lx.rest.takeWhile isDigit).length +
      (fractionAt (lx.rest.dropWhile isDigit)).length) lx).rest = numberAfter lx.rest := by
  rw [rest_lexerAdvanceN, ← List.drop_drop, drop_length_takeWhile]; rfl

/-- With a good exponent (or none) the scanner succeeds on digits, fraction and exponent. -/
theorem lexerScanNumber_of_some (he : exponentAt (numberAfter lx.rest) = some e) :
    lexerScanNumber lx = (true, lexerScanNumber.numberToken lx.pos
      (decide (fractionAt (lx.rest.dropWhile isDigit) ≠ []) || !e.isEmpty)
      (lexerAdvanceN (lx.rest.takeWhile isDigit ++ (fractionAt (lx.rest.dropWhile isDigit) ++ e)).length
        lx)) := by
  rw [lexerScanNumber_eq, lexerScanNumber_exponent, rest_number, he]
  simp only [← lexerAdvanceN_add, List.length_append, Nat.add_assoc]

/-- With a bad exponent the scanner fails, having only moved the cursor. -/
theorem lexerScanNumber_of_none (he : exponentAt (numberAfter lx.rest) = none) :
    (lexerScanNumber lx).1 = false ∧ (∃ k, Lexer.Moved k lx (lexerScanNumber lx).2) ∧
      (lexerScanNumber lx).2.currentToken = lx.currentToken ∧
      (lexerScanNumber lx).2.errorMsg = some "invalid number format" := by
  rw [lexerScanNumber_eq, lexerScanNumber_exponent, rest_number, he]
  refine ⟨rfl, ⟨_, ((Lexer.Moved.advanced _ lx).advanceN _).update _ _ _⟩, by simp [lexerSetError], rfl⟩

/-- **Numbers.**  At a digit, the scan fails, with `invalid number format`, exactly when
the input starts with `D+ (. D+)? [eE]` and no optionally signed digit follows the
`e`/`E`.  Otherwise it consumes the longest prefix of the input in
`D+ (. D+)? ([eE] [+-]? D+)?`, as a `TOKEN_FCONST` when that prefix holds a `.`, `e` or
`E` and as a `TOKEN_ICONST` when it does not. -/
theorem lexerDispatch_number {c : Char} {w : List Char} (hr : lx.rest = c :: w)
    (hc : isDigit c = true) :
    ((lexerDispatch lx).1 = false ↔ BadExponent lx.rest) ∧
    ((lexerDispatch lx).1 = false → (lexerDispatch lx).2.errorMsg = some "invalid number format") ∧
    ((lexerDispatch lx).1 = true → ∃ p, p <+: lx.rest ∧ (lexerDispatch lx).2.pos = lx.pos + p.length ∧
      NumberLit p ∧ (∀ p', p' <+: lx.rest → NumberLit p' → p'.length ≤ p.length) ∧
      ((lexerDispatch lx).2.currentToken.type = .FCONST ↔ '.' ∈ p ∨ 'e' ∈ p ∨ 'E' ∈ p) ∧
      ((lexerDispatch lx).2.currentToken.type = .ICONST ↔ ¬ ('.' ∈ p ∨ 'e' ∈ p ∨ 'E' ∈ p))) := by
  have hw : lx.rest.takeWhile isDigit ≠ [] := by rw [hr]; simp [List.takeWhile_cons, hc]
  rw [lexerDispatch_of_digit hr hc]
  cases he : exponentAt (numberAfter lx.rest) with
  | none =>
    obtain ⟨h1, -, -, h4⟩ := lexerScanNumber_of_none he
    exact ⟨iff_of_true h1 ((exponentAt_eq_none_iff hw).1 he), fun _ => h4, fun h => by simp [h1] at h⟩
  | some e =>
    have hbad : ¬ BadExponent lx.rest := by rw [← exponentAt_eq_none_iff hw, he]; simp
    obtain ⟨hlit, hpre⟩ := numberPrefix_numberLit hw he
    rw [lexerScanNumber_of_some he]
    refine ⟨iff_of_false (by simp) hbad, fun h => by simp at h, fun _ => ⟨_, hpre, ?_, hlit,
      fun p' hp' hn => numberPrefix_longest he hp' hn, ?_, ?_⟩⟩
    · exact lexerAdvanceN_pos_of_le hpre.length_le
    · simp only [numberToken_type, ← numberPrefix_float_iff he]
      cases e <;> by_cases hf : fractionAt (lx.rest.dropWhile isDigit) = [] <;> simp [hf]
    · simp only [numberToken_type, ← numberPrefix_float_iff he]
      cases e <;> by_cases hf : fractionAt (lx.rest.dropWhile isDigit) = [] <;> simp [hf]

theorem lexerDispatch_number_signed_exponent :
    (lexerCreate "1.5e-3".toList).rest = '1' :: ".5e-3".toList ∧ isDigit '1' = true ∧
    (((lexerDispatch (lexerCreate "1.5e-3".toList)).1 = false ↔
        BadExponent (lexerCreate "1.5e-3".toList).rest) ∧
      ((lexerDispatch (lexerCreate "1.5e-3".toList)).1 = false →
        (lexerDispatch (lexerCreate "1.5e-3".toList)).2.errorMsg = some "invalid number format") ∧
      ((lexerDispatch (lexerCreate "1.5e-3".toList)).1 = true → ∃ p,
        p <+: (lexerCreate "1.5e-3".toList).rest ∧
        (lexerDispatch (lexerCreate "1.5e-3".toList)).2.pos = (lexerCreate "1.5e-3".toList).pos + p.length ∧
        NumberLit p ∧
        (∀ p', p' <+: (lexerCreate "1.5e-3".toList).rest → NumberLit p' → p'.length ≤ p.length) ∧
        ((lexerDispatch (lexerCreate "1.5e-3".toList)).2.currentToken.type = .FCONST ↔
          '.' ∈ p ∨ 'e' ∈ p ∨ 'E' ∈ p) ∧
        ((lexerDispatch (lexerCreate "1.5e-3".toList)).2.currentToken.type = .ICONST ↔
          ¬ ('.' ∈ p ∨ 'e' ∈ p ∨ 'E' ∈ p)))) :=
  ⟨rfl, rfl, lexerDispatch_number rfl rfl⟩

end Outcome

end SqlParser
end MantisDB
