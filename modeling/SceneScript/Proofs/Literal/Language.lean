import Mathlib
import SceneScript.Proofs.Literal.Alphabet

/-!
# Proofs — Literal — the two languages of bare literals

The bare literals as formal languages, built from single characters by union, concatenation and
repetition: `identifiers` and `numbers`.  A text belongs to a concatenation when there is some way
to cut it into the parts, so nothing here says how far a part reaches.

The recognizers do say so: each takes as many characters of a class as there are.  That loses
nothing when what follows may also do without those characters (`mem_run_mul`), which covers the
letters that hexadecimal digits and suffixes share; for an exponent, whose letter may as well start
the suffix, both readings are tried.

**The recognizers are exact** (`isIdentifier_iff`, `isNumber_iff`), the two languages have no text in
common (`disjoint_identifiers_numbers`), and both keep to the alphabet of `Literal.isBareChar`.
-/

namespace SceneScript.Literal

open Text Computability

/-! ### Languages -/

/-- One character of a class. -/
def one (p : Char → Bool) : Language Char :=
  {s | ∃ c, p c ∧ s = [c]}

/-- One character from `lo` to `hi`. -/
def between (lo hi : Char) : Language Char :=
  one fun c => lo ≤ c && c ≤ hi

/-- The character `c`. -/
def mark (c : Char) : Language Char :=
  one (· = c)

def letter : Language Char := between 'A' 'Z' + between 'a' 'z'

def digit : Language Char := between '0' '9'

def hexDigit : Language Char := digit + between 'a' 'f' + between 'A' 'F'

/-- A name: a letter or underscore, and then letters, digits and underscores. -/
def segment : Language Char :=
  (letter + mark '_') * (letter + digit + mark '_')∗

/-- What stands between two names: `::` or `.`. -/
def joint : Language Char :=
  mark ':' * mark ':' + mark '.'

/-- Any run of `&` and `*`, and then names with a joint between each two. -/
def identifiers : Language Char :=
  (mark '&' + mark '*')∗ * segment * (joint * segment)∗

/-- A sign, or none. -/
def sign : Language Char :=
  1 + mark '+' + mark '-'

/-- `0x` or `0X` and at least one hexadecimal digit. -/
def hexadecimal : Language Char :=
  mark '0' * (mark 'x' + mark 'X') * (hexDigit * hexDigit∗)

/-- Digits with or without a point and a fraction, or a point and at least one digit. -/
def decimal : Language Char :=
  digit * digit∗ * (1 + mark '.') * digit∗ + mark '.' * (digit * digit∗)

/-- `e` or `E`, a sign or none, and at least one digit. -/
def exponent : Language Char :=
  (mark 'e' + mark 'E') * sign * (digit * digit∗)

/-- Any run of letters. -/
def suffix : Language Char :=
  letter∗

/-- Signed or not, hexadecimal or decimal, the latter with or without an exponent; and a suffix. -/
def numbers : Language Char :=
  sign * (hexadecimal + decimal * (1 + exponent)) * suffix

/-! ### Parts of a text -/

section Parts

variable {p q : Char → Bool} {L K : Language Char} {c : Char} {s : List Char}

theorem one_add_one (p q : Char → Bool) : one p + one q = one fun c => p c || q c := by
  ext s
  simp only [one, Bool.or_eq_true]
  constructor
  · rintro (⟨c, hc, rfl⟩ | ⟨c, hc, rfl⟩)
    · exact ⟨c, .inl hc, rfl⟩
    · exact ⟨c, .inr hc, rfl⟩
  · rintro ⟨c, hc | hc, rfl⟩
    · exact .inl ⟨c, hc, rfl⟩
    · exact .inr ⟨c, hc, rfl⟩

theorem cons_mem_one_mul : c :: s ∈ one p * L ↔ p c ∧ s ∈ L := by
  rw [Language.mem_mul]
  constructor
  · rintro ⟨_, ⟨d, hd, rfl⟩, t, ht, h⟩
    cases h
    exact ⟨hd, ht⟩
  · rintro ⟨hc, hs⟩
    exact ⟨[c], ⟨c, hc, rfl⟩, s, hs, rfl⟩

theorem nil_notMem_one_mul : [] ∉ one p * L := by
  rw [Language.mem_mul]
  rintro ⟨_, ⟨d, -, rfl⟩, t, -, h⟩
  cases h

theorem mem_mark_mul : s ∈ mark c * L ↔ ∃ r, s = c :: r ∧ r ∈ L := by
  cases s with
  | nil => exact iff_of_false nil_notMem_one_mul nofun
  | cons d s =>
      rw [mark, cons_mem_one_mul, decide_eq_true_eq]
      constructor
      · rintro ⟨rfl, h⟩
        exact ⟨s, rfl, h⟩
      · rintro ⟨r, h, hr⟩
        cases h
        exact ⟨rfl, hr⟩

theorem kstar_mul (K L : Language Char) : K∗ * L = L + K * (K∗ * L) := by
  conv_lhs => rw [← Language.one_add_self_mul_kstar_eq_kstar]
  rw [add_mul, one_mul, mul_assoc]

/-- **A run of a class may be taken as long as it goes**, if what follows can do without characters
of that class at its front. -/
theorem mem_run_mul (hL : ∀ c s, p c → c :: s ∈ L → s ∈ L) :
    s ∈ (one p)∗ * L ↔ s.dropWhile p ∈ L := by
  induction s with
  | nil =>
      rw [kstar_mul, Language.mem_add, or_iff_left nil_notMem_one_mul]
      rfl
  | cons c s ih =>
      rw [kstar_mul, Language.mem_add, cons_mem_one_mul, ih]
      by_cases hc : p c
      · rw [List.dropWhile_cons_of_pos hc]
        refine ⟨?_, fun h => .inr ⟨hc, h⟩⟩
        rintro (h | ⟨-, h⟩)
        · exact ih.mp (Language.append_mem_mul (Language.nil_mem_kstar _) (hL c s hc h))
        · exact h
      · rw [List.dropWhile_cons_of_neg hc]
        exact or_iff_left fun h => hc h.1

theorem mem_run : s ∈ (one p)∗ ↔ s.all p := by
  have h := mem_run_mul (p := p) (L := 1) (s := s) fun _ _ _ h => by cases h
  rw [mul_one, Language.mem_one, List.dropWhile_eq_nil_iff] at h
  rw [h, List.all_eq_true]

end Parts

/-! ### Classes of characters -/

theorem letter_eq : letter = one Char.isAlpha := by
  have h (c : Char) : ('A' ≤ c && c ≤ 'Z' || 'a' ≤ c && c ≤ 'z') = c.isAlpha := by
    simp only [Char.isAlpha, Char.isUpper, Char.isLower, Bool.decide_and]
    rfl
  rw [letter, between, between, one_add_one, funext h]

theorem digit_eq : digit = one Char.isDigit := rfl

theorem hexDigit_eq : hexDigit = one isHexDigit := by
  rw [hexDigit, digit_eq, between, between, one_add_one, one_add_one]
  rfl

theorem nameStart_eq : letter + mark '_' = one isNameStart := by
  rw [letter_eq, mark, one_add_one]
  rfl

theorem nameChar_eq : letter + digit + mark '_' = one isNameChar := by
  rw [letter_eq, digit_eq, mark, one_add_one, one_add_one]
  rfl

/-! ### Numbers -/

section Numbers

variable {L : Language Char} {c : Char} {s : List Char}

theorem isSuffix_iff : isSuffix s ↔ s ∈ suffix := by
  rw [suffix, letter_eq, mem_run]
  rfl

theorem cons_mem_suffix : c :: s ∈ suffix ↔ c.isAlpha ∧ s ∈ suffix := by
  rw [← isSuffix_iff, ← isSuffix_iff, isSuffix, isSuffix, List.all_cons, Bool.and_eq_true]

theorem mem_sign_mul (hL : ∀ c s, c :: s ∈ L → c ≠ '+' ∧ c ≠ '-') :
    s ∈ sign * L ↔ dropSign s ∈ L := by
  rw [sign, add_mul, add_mul, one_mul, Language.mem_add, Language.mem_add, mark, mark]
  cases s with
  | nil => rw [or_iff_left nil_notMem_one_mul, or_iff_left nil_notMem_one_mul]; rfl
  | cons c s =>
      rw [cons_mem_one_mul, cons_mem_one_mul, decide_eq_true_eq, decide_eq_true_eq]
      by_cases hp : c = '+'
      · subst hp
        simp [dropSign, show '+' :: s ∉ L from fun h => (hL _ _ h).1 rfl]
      · by_cases hm : c = '-'
        · subst hm
          simp [dropSign, show '-' :: s ∉ L from fun h => (hL _ _ h).2 rfl]
        · simp [dropSign, hp, hm]

theorem isDigitsSuffix_iff : isDigitsSuffix s ↔ s ∈ digit * digit∗ * suffix := by
  rw [digit_eq, mul_assoc]
  cases s with
  | nil => exact iff_of_false nofun nil_notMem_one_mul
  | cons d s =>
      rw [cons_mem_one_mul, mem_run_mul fun _ _ _ h => (cons_mem_suffix.mp h).2, isDigitsSuffix,
        Bool.and_eq_true, isSuffix_iff]

theorem isExponentSuffix_iff : isExponentSuffix s ↔ s ∈ exponent * suffix := by
  have hd : ∀ c s, c :: s ∈ digit * digit∗ * suffix → c ≠ '+' ∧ c ≠ '-' := by
    intro c s h
    rw [digit_eq, mul_assoc, cons_mem_one_mul] at h
    constructor
    · rintro rfl
      cases h.1
    · rintro rfl
      cases h.1
  rw [exponent, mul_assoc, mul_assoc, mark, mark, one_add_one]
  cases s with
  | nil => exact iff_of_false nofun nil_notMem_one_mul
  | cons e s =>
      rw [cons_mem_one_mul, mem_sign_mul hd, isExponentSuffix, Bool.and_eq_true, isDigitsSuffix_iff]

theorem isHexadecimal_iff : isHexadecimal s ↔ s ∈ hexadecimal * suffix := by
  rw [hexadecimal, hexDigit_eq, mul_assoc, mul_assoc, mul_assoc, mark, mark, mark, one_add_one]
  cases s with
  | nil => exact iff_of_false nofun nil_notMem_one_mul
  | cons z s =>
      rw [cons_mem_one_mul, decide_eq_true_eq]
      by_cases hz : z = '0'
      · subst hz
        match s with
        | [] => exact iff_of_false nofun fun h => nil_notMem_one_mul h.2
        | [x] =>
            rw [cons_mem_one_mul]
            exact iff_of_false nofun fun h => nil_notMem_one_mul h.2.2
        | x :: d :: s =>
            rw [cons_mem_one_mul, cons_mem_one_mul,
              mem_run_mul fun _ _ _ h => (cons_mem_suffix.mp h).2, isHexadecimal, Bool.and_eq_true,
              Bool.and_eq_true, isSuffix_iff, and_assoc]
            simp
      · refine iff_of_false ?_ fun h => hz h.1
        unfold isHexadecimal
        split
        · next h => cases h; exact absurd rfl hz
        · exact nofun

/-- What follows the digits of a decimal number: a suffix, with or without an exponent before it. -/
theorem mem_ending_iff : s ∈ (1 + exponent) * suffix ↔ isSuffix s || isExponentSuffix s := by
  rw [add_mul, one_mul, Language.mem_add, ← isSuffix_iff, ← isExponentSuffix_iff, Bool.or_eq_true]

theorem isAlpha_of_cons_mem_ending (h : c :: s ∈ (1 + exponent) * suffix) : c.isAlpha := by
  rw [mem_ending_iff, Bool.or_eq_true, isSuffix_iff, cons_mem_suffix, isExponentSuffix,
    Bool.and_eq_true, Bool.or_eq_true, decide_eq_true_eq, decide_eq_true_eq] at h
  rcases h with ⟨h, -⟩ | ⟨rfl | rfl, -⟩
  · exact h
  · rfl
  · rfl

theorem isDigit_eq_false_of_isAlpha (h : c.isAlpha) : c.isDigit = false := by
  simp only [Char.isAlpha, Char.isUpper, Char.isLower, Char.isDigit, Bool.or_eq_true,
    Bool.and_eq_true, decide_eq_true_eq, ge_iff_le, UInt32.le_iff_toNat_le, Bool.and_eq_false_iff,
    decide_eq_false_iff_not, Char.reduceVal, UInt32.reduceToNat] at h ⊢
  omega

theorem cons_mem_digit_mul : c :: s ∈ digit * L ↔ c.isDigit ∧ s ∈ L :=
  cons_mem_one_mul

theorem mem_digits_mul (hL : ∀ c s, c :: s ∈ L → c.isDigit = false) :
    s ∈ digit∗ * L ↔ s.dropWhile Char.isDigit ∈ L := by
  refine mem_run_mul fun c s hc h => ?_
  have hn := hL c s h
  rw [show c.isDigit = true from hc] at hn
  cases hn

/-- A point and a fraction, or digits that stand without a point. -/
theorem mem_fraction_mul (hL : ∀ c s, c :: s ∈ L → c.isDigit = false) :
    s ∈ (1 + mark '.') * (digit∗ * L) ↔
      s.dropWhile Char.isDigit ∈ L ∨ ∃ r, s = '.' :: r ∧ r.dropWhile Char.isDigit ∈ L := by
  rw [add_mul, one_mul, Language.mem_add, mem_mark_mul, mem_digits_mul hL]
  refine or_congr_right (exists_congr fun r => ?_)
  rw [mem_digits_mul hL]

/-- A decimal number that starts with a digit. -/
theorem mem_whole_mul (hL : ∀ c s, c :: s ∈ L → c.isDigit = false) :
    c :: s ∈ digit * (digit∗ * ((1 + mark '.') * (digit∗ * L))) ↔
      c.isDigit ∧ (s.dropWhile Char.isDigit ∈ L ∨
        ∃ r, s.dropWhile Char.isDigit = '.' :: r ∧ r.dropWhile Char.isDigit ∈ L) := by
  -- a digit in front of what follows the first digits is one of those that need no point
  have hF : ∀ c s, c.isDigit → c :: s ∈ (1 + mark '.') * (digit∗ * L) →
      s ∈ (1 + mark '.') * (digit∗ * L) := by
    intro c s hc h
    rw [mem_fraction_mul hL] at h ⊢
    rcases h with h | ⟨r, h, -⟩
    · rw [List.dropWhile_cons_of_pos hc] at h
      exact .inl h
    · cases h
      cases hc
  have hrun : s ∈ digit∗ * ((1 + mark '.') * (digit∗ * L)) ↔
      s.dropWhile Char.isDigit ∈ (1 + mark '.') * (digit∗ * L) := mem_run_mul hF
  rw [cons_mem_digit_mul, hrun, mem_fraction_mul hL, List.dropWhile_idempotent]

/-- A decimal number that starts with its point. -/
theorem mem_point_mul (hL : ∀ c s, c :: s ∈ L → c.isDigit = false) :
    c :: s ∈ mark '.' * (digit * (digit∗ * L)) ↔
      c = '.' ∧ ∃ d r, s = d :: r ∧ d.isDigit ∧ r.dropWhile Char.isDigit ∈ L := by
  rw [mark, cons_mem_one_mul, decide_eq_true_eq]
  refine and_congr_right fun _ => ?_
  cases s with
  | nil => exact iff_of_false nil_notMem_one_mul nofun
  | cons d s =>
      rw [cons_mem_digit_mul, mem_digits_mul hL]
      constructor
      · rintro ⟨hd, h⟩
        exact ⟨d, s, rfl, hd, h⟩
      · rintro ⟨d, r, h, hd, hr⟩
        cases h
        exact ⟨hd, hr⟩

/-- **The digits of a decimal number end where `afterDecimal?` says**, if what may follow them
starts with a letter. -/
theorem mem_decimal_mul (hL : ∀ c s, c :: s ∈ L → c.isAlpha) :
    s ∈ decimal * L ↔ ∃ r, afterDecimal? s = some r ∧ r ∈ L := by
  have hdigit : ∀ c s, c :: s ∈ L → c.isDigit = false :=
    fun c s h => isDigit_eq_false_of_isAlpha (hL c s h)
  rw [decimal, add_mul, Language.mem_add]
  simp only [mul_assoc]
  cases s with
  | nil => exact iff_of_false (not_or.mpr ⟨nil_notMem_one_mul, nil_notMem_one_mul⟩) nofun
  | cons c s =>
      rw [mem_whole_mul hdigit, mem_point_mul hdigit]
      by_cases hp : c = '.'
      · subst hp
        cases s with
        | nil => simp [afterDecimal?]
        | cons d s => by_cases hd : d.isDigit <;> simp [afterDecimal?, hd]
      · by_cases hd : c.isDigit
        · have hnot (r : List Char) : '.' :: r ∉ L := fun h => by cases hL _ _ h
          rw [or_iff_left fun h => hp h.1, and_iff_right hd, afterDecimal?, if_pos hd]
          · split
            · next r e => simp [e, hnot]
            · next r e =>
                rw [or_iff_left fun ⟨r, h, _⟩ => e r h]
                simp
          · exact fun d r h _ => hp h
        · simp [afterDecimal?, hp, hd]

theorem isDecimal_iff : isDecimal s ↔ s ∈ decimal * ((1 + exponent) * suffix) := by
  rw [mem_decimal_mul fun c s => isAlpha_of_cons_mem_ending, isDecimal]
  split
  · next r e => simp only [e, Option.some.injEq, exists_eq_left', mem_ending_iff]
  · next e => simp [e]

theorem head_of_mem_unsigned
    (h : c :: s ∈ hexadecimal * suffix + decimal * ((1 + exponent) * suffix)) :
    c = '.' ∨ c.isDigit := by
  rw [Language.mem_add, ← isDecimal_iff, hexadecimal, mul_assoc, mul_assoc, mem_mark_mul] at h
  rcases h with ⟨r, h, -⟩ | h
  · cases h
    exact .inr rfl
  · by_cases hp : c = '.'
    · exact .inl hp
    · by_cases hd : c.isDigit
      · exact .inr hd
      · simp [isDecimal, afterDecimal?, hp, hd] at h

theorem numbers_eq :
    numbers = sign * (hexadecimal * suffix + decimal * ((1 + exponent) * suffix)) := by
  rw [numbers, mul_assoc, add_mul, mul_assoc decimal]

/-- **A number is what `isNumber` accepts.** -/
theorem isNumber_iff : isNumber s ↔ s ∈ numbers := by
  rw [numbers_eq, mem_sign_mul, Language.mem_add, isNumber, Bool.or_eq_true, isHexadecimal_iff,
    isDecimal_iff]
  intro c s h
  have hc := head_of_mem_unsigned h
  constructor
  · rintro rfl
    exact absurd hc (by decide)
  · rintro rfl
    exact absurd hc (by decide)

end Numbers

/-! ### Identifiers -/

section Identifiers

variable {c : Char} {s : List Char}

/-- Names with a joint between each two. -/
def path : Language Char :=
  segment * (joint * segment)∗

/-- What may follow the first character of a name: the rest of it, and more names. -/
def pathTail : Language Char :=
  (one isNameChar)∗ * (joint * segment)∗

theorem segment_eq : segment = one isNameStart * (one isNameChar)∗ := by
  rw [segment, nameStart_eq, nameChar_eq]

theorem path_eq : path = one isNameStart * pathTail := by
  rw [path, pathTail, ← mul_assoc, ← segment_eq]

theorem mem_joint_mul {L : Language Char} :
    s ∈ joint * L ↔ (∃ r, s = ':' :: ':' :: r ∧ r ∈ L) ∨ ∃ r, s = '.' :: r ∧ r ∈ L := by
  rw [joint, add_mul, Language.mem_add, mul_assoc, mem_mark_mul, mem_mark_mul]
  refine or_congr_left ⟨?_, ?_⟩
  · rintro ⟨_, rfl, h⟩
    obtain ⟨r, rfl, hr⟩ := mem_mark_mul.mp h
    exact ⟨r, rfl, hr⟩
  · rintro ⟨r, rfl, h⟩
    exact ⟨_, rfl, mem_mark_mul.mpr ⟨r, rfl, h⟩⟩

/-- A name goes on, or it stops: the text ends there, or a joint follows. -/
theorem mem_pathTail :
    s ∈ pathTail ↔ s ∈ one isNameChar * pathTail ∨ s = [] ∨ s ∈ joint * path := by
  have hjoints : (joint * segment)∗ = 1 + joint * path := by
    rw [path, ← mul_assoc, Language.one_add_self_mul_kstar_eq_kstar]
  have h : pathTail = one isNameChar * pathTail + (1 + joint * path) := by
    conv_lhs => rw [pathTail, kstar_mul, add_comm]
    rw [← hjoints, pathTail]
  conv_lhs => rw [h, Language.mem_add, Language.mem_add, Language.mem_one]

theorem isPath_iff (inside : Bool) : isPath inside s ↔ s ∈ if inside then pathTail else path := by
  fun_induction isPath inside s with
  | case1 inside =>
      cases inside with
      | false => exact iff_of_false Bool.false_ne_true (path_eq ▸ nil_notMem_one_mul)
      | true => exact iff_of_true rfl (mem_pathTail.mpr (.inr (.inl rfl)))
  | case2 s ih =>
      rw [ih, if_pos rfl, mem_pathTail, mem_joint_mul, cons_mem_one_mul]
      simp [show isNameChar ':' = false from rfl]
  | case3 s ih =>
      rw [ih, if_pos rfl, mem_pathTail, mem_joint_mul, cons_mem_one_mul]
      simp [show isNameChar '.' = false from rfl]
  | case4 c s hcolon hpoint ih =>
      rw [Bool.and_eq_true, ih, if_pos rfl, mem_pathTail (s := c :: s), mem_joint_mul,
        cons_mem_one_mul]
      refine (or_iff_left ?_).symm
      rintro (h | ⟨r, h, -⟩ | ⟨r, h, -⟩)
      · cases h
      · cases h
        exact hcolon r rfl rfl
      · cases h
        exact hpoint rfl
  | case5 c s ih =>
      rw [Bool.and_eq_true, ih, if_pos rfl, if_neg Bool.false_ne_true, path_eq, cons_mem_one_mul]

/-- **An identifier is what `isIdentifier` accepts.** -/
theorem isIdentifier_iff : isIdentifier s ↔ s ∈ identifiers := by
  rw [identifiers, mul_assoc, mark, mark, one_add_one, ← path, mem_run_mul, isIdentifier,
    isPath_iff]
  · rfl
  · intro c s hc h
    rw [path_eq, cons_mem_one_mul] at h
    rw [Bool.or_eq_true, decide_eq_true_eq, decide_eq_true_eq] at hc
    rcases hc with rfl | rfl
    · cases h.1
    · cases h.1

end Identifiers

/-! ### Bare literals -/

section Bare

variable {c : Char} {s : List Char}

theorem isBare_iff : isBare s ↔ s ∈ identifiers + numbers := by
  rw [isBare, Bool.or_eq_true, isIdentifier_iff, isNumber_iff, Language.mem_add]

theorem head_of_mem_identifiers (h : c :: s ∈ identifiers) :
    (c = '&' ∨ c = '*') ∨ isNameStart c := by
  rw [identifiers, mul_assoc, ← path, mark, mark, one_add_one, kstar_mul, Language.mem_add,
    cons_mem_one_mul, path_eq, cons_mem_one_mul, Bool.or_eq_true, decide_eq_true_eq,
    decide_eq_true_eq] at h
  rcases h with ⟨h, -⟩ | ⟨h, -⟩
  · exact .inr h
  · exact .inl h

theorem head_of_mem_numbers (h : c :: s ∈ numbers) :
    (c = '+' ∨ c = '-' ∨ c = '.') ∨ c.isDigit := by
  rw [numbers_eq, sign, add_mul, add_mul, one_mul, Language.mem_add, Language.mem_add,
    mem_mark_mul, mem_mark_mul] at h
  rcases h with (h | ⟨r, h, -⟩) | ⟨r, h, -⟩
  · rcases head_of_mem_unsigned h with h | h
    · exact .inl (.inr (.inr h))
    · exact .inr h
  · cases h
    exact .inl (.inl rfl)
  · cases h
    exact .inl (.inr (.inl rfl))

/-- **An identifier is no number**: no character may start both. -/
theorem disjoint_identifiers_numbers : Disjoint identifiers numbers := by
  refine Set.disjoint_left.mpr fun s hi hn => ?_
  cases s with
  | nil =>
      have hnil := isIdentifier_iff.mpr hi
      cases hnil
  | cons c s =>
      rcases head_of_mem_identifiers hi with (rfl | rfl) | hs
      · exact absurd (head_of_mem_numbers hn) (by decide)
      · exact absurd (head_of_mem_numbers hn) (by decide)
      · rcases head_of_mem_numbers hn with (rfl | rfl | rfl) | hd
        · cases hs
        · cases hs
        · cases hs
        · rw [isNameStart, Bool.or_eq_true, decide_eq_true_eq] at hs
          rcases hs with hs | rfl
          · rw [isDigit_eq_false_of_isAlpha hs] at hd
            cases hd
          · cases hd

theorem not_isBlank_of_isBareChar (h : isBareChar c) : isBlank c = false := by
  rw [isBareChar, isNameChar, Bool.or_eq_true, Bool.or_eq_true, decide_eq_true_eq] at h
  rcases h with (h | rfl) | h
  · -- letters and digits stand apart from all ranges of blanks
    have hn : c.toNat = c.val.toNat := rfl
    simp only [Char.isAlphanum, Char.isAlpha, Char.isUpper, Char.isLower, Char.isDigit,
      Bool.or_eq_true, Bool.and_eq_true, decide_eq_true_eq, ge_iff_le, UInt32.le_iff_toNat_le,
      Char.reduceVal, UInt32.reduceToNat, ← hn] at h
    simp only [isBlank, blankRanges, List.any_cons, List.any_nil, Bool.or_false,
      Bool.or_eq_false_iff, Bool.and_eq_false_imp, decide_eq_true_eq, decide_eq_false_iff_not]
    omega
  · rfl
  · simp only [List.contains_iff_mem, List.mem_cons, List.not_mem_nil, or_false] at h
    rcases h with rfl | rfl | rfl | rfl | rfl | rfl <;> rfl

/-- Nothing that has a meaning around a bare literal stands in one. -/
theorem excluded_of_isBare (h : isBare s) (hc : c ∈ s) :
    isBlank c = false ∧ isQuote c = false ∧ c ∉ ['(', ')', ',', '/', '\\'] := by
  have hb := isBareChar_of_mem h hc
  refine ⟨not_isBlank_of_isBareChar hb, not_isQuote_of_isBareChar hb, fun hm => ?_⟩
  simp only [List.mem_cons, List.not_mem_nil, or_false] at hm
  rcases hm with rfl | rfl | rfl | rfl | rfl <;> cases hb

/-- A decimal number with all the letters after it in the suffix. -/
theorem mem_decimal_mul_suffix : s ∈ decimal * suffix ↔ (afterDecimal? s).any isSuffix := by
  rw [mem_decimal_mul fun c s h => (cons_mem_suffix.mp h).1]
  cases afterDecimal? s with
  | none => simp
  | some r => simp [isSuffix_iff]

end Bare

/-- **Bare literals are exactly the identifiers and the numbers.**  The languages allow every way to
cut a text into the parts, so that letters which look like the start of a hexadecimal number or of
an exponent may be a suffix.  No text is both an identifier and a number, and none is empty or holds
a blank, a quote, a parenthesis, a comma, a slash or a backslash. -/
theorem isBare_exact :
    (∀ s, isBare s ↔ s ∈ identifiers + numbers) ∧ Disjoint identifiers numbers ∧
    (∀ t ∈ ["0x", "0xZ", "1e", "1ef"], t.toList ∈ numbers ∧ t.toList ∈ decimal * suffix) ∧
    (∀ t ∈ ["1e+", "0xg1", "."], t.toList ∉ identifiers + numbers) ∧
    ∀ s, isBare s → s ≠ [] ∧
      ∀ c ∈ s, isBlank c = false ∧ isQuote c = false ∧ c ∉ ['(', ')', ',', '/', '\\'] := by
  refine ⟨fun s => isBare_iff, disjoint_identifiers_numbers, ?_, ?_, fun s h => ⟨?_, ?_⟩⟩
  · simp only [← isNumber_iff, mem_decimal_mul_suffix]
    decide
  · simp only [← isBare_iff]
    decide
  · rintro rfl
    cases h
  · exact fun c hc => excluded_of_isBare h hc

/-- A sign, a fraction without digits before its point, an exponent with a sign, and a suffix. -/
theorem isBare_exact_exponent :
    let s := "-.5e+3f".toList
    isBare s ∧ s ∈ identifiers + numbers ∧ s ∉ identifiers ∧ '3' ∈ s ∧ isBlank '3' = false := by
  intro s
  obtain ⟨hiff, hdisj, -, -, hchars⟩ := isBare_exact
  have hb : isBare s := by decide
  have hn : s ∈ numbers := isNumber_iff.mp (by decide)
  have h3 : '3' ∈ s := by decide
  exact ⟨hb, (hiff s).mp hb, fun hi => Set.disjoint_left.mp hdisj hi hn, h3,
    ((hchars s hb).2 '3' h3).1⟩

end SceneScript.Literal
