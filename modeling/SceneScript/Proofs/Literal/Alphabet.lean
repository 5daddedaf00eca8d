import SceneScript.Literal
import SceneScript.Proofs.Text.Quote

/-!
# Proofs — Literal — the characters of a bare literal

A bare literal is not empty (`not_isBare_nil`) and is written in few characters
(`all_isBareChar_of_isBare`): letters, digits, the underscore and six marks.  None of them is a gap,
a quote or a slash, so a bare literal is a token of its own, and neither a quoted run nor a comment
starts inside it.
-/

namespace SceneScript.Literal

open Text

/-- `c` may stand in a bare literal. -/
def isBareChar (c : Char) : Bool :=
  isNameChar c || ['&', '*', ':', '.', '+', '-'].contains c

/-! ### Classes of characters -/

section Classes

variable {c : Char}

theorem isBareChar_of_isNameChar (h : isNameChar c) : isBareChar c := by
  simp [isBareChar, h]

theorem isBareChar_of_isAlpha (h : c.isAlpha) : isBareChar c :=
  isBareChar_of_isNameChar (by simp [isNameChar, Char.isAlphanum, h])

theorem isBareChar_of_isDigit (h : c.isDigit) : isBareChar c :=
  isBareChar_of_isNameChar (by simp [isNameChar, Char.isAlphanum, h])

theorem isBareChar_of_isNameStart (h : isNameStart c) : isBareChar c := by
  rw [isNameStart, Bool.or_eq_true, decide_eq_true_eq] at h
  rcases h with h | rfl
  · exact isBareChar_of_isAlpha h
  · rfl

theorem isBareChar_of_isHexDigit (h : isHexDigit c) : isBareChar c := by
  simp only [isHexDigit, Bool.or_eq_true, Bool.and_eq_true, decide_eq_true_eq] at h
  -- the letters up to `f` are among the letters
  have lower (ha : 'a' ≤ c) (hf : c ≤ 'f') : c.isLower :=
    Bool.and_eq_true_iff.mpr ⟨decide_eq_true ha, decide_eq_true (Char.le_trans hf (by decide))⟩
  have upper (ha : 'A' ≤ c) (hf : c ≤ 'F') : c.isUpper :=
    decide_eq_true ⟨ha, Char.le_trans hf (by decide)⟩
  rcases h with (h | ⟨ha, hf⟩) | ⟨ha, hf⟩
  · exact isBareChar_of_isDigit h
  · exact isBareChar_of_isAlpha (Bool.or_eq_true_iff.mpr (.inr (lower ha hf)))
  · exact isBareChar_of_isAlpha (Bool.or_eq_true_iff.mpr (.inl (upper ha hf)))

theorem not_isGap_of_isBareChar (h : isBareChar c) : isGap c = false := by
  cases hg : isGap c with
  | false => rfl
  | true =>
      simp only [isGap, Bool.or_eq_true, decide_eq_true_eq] at hg
      rcases hg with (((rfl | rfl) | rfl) | rfl) | rfl <;> cases h

theorem not_isQuote_of_isBareChar (h : isBareChar c) : isQuote c = false := by
  cases hq : isQuote c with
  | false => rfl
  | true => rcases isQuote_iff.mp hq with rfl | rfl <;> cases h

theorem ne_slash_of_isBareChar (h : isBareChar c) : c ≠ '/' := by
  rintro rfl
  cases h

end Classes

/-! ### Identifiers and numbers -/

variable {s : List Char}

theorem all_of_all_dropWhile {p q : Char → Bool} (hpq : ∀ c, p c → q c)
    (h : (s.dropWhile p).all q) : s.all q := by
  induction s with
  | nil => rfl
  | cons c s ih =>
      rw [List.all_cons, Bool.and_eq_true]
      cases hc : p c with
      | true =>
          rw [List.dropWhile_cons_of_pos hc] at h
          exact ⟨hpq c hc, ih h⟩
      | false =>
          rw [List.dropWhile_cons_of_neg (by simp [hc]), List.all_cons, Bool.and_eq_true] at h
          exact h

theorem all_isBareChar_of_isPath {inside : Bool} (h : isPath inside s) : s.all isBareChar := by
  fun_induction isPath inside s with
  | case1 => rfl
  | case2 cs ih => simpa [show isBareChar ':' = true from rfl] using ih h
  | case3 cs ih => simpa [show isBareChar '.' = true from rfl] using ih h
  | case4 c cs _ _ ih =>
      rw [Bool.and_eq_true] at h
      simp [isBareChar_of_isNameChar h.1, ih h.2]
  | case5 c cs ih =>
      rw [Bool.and_eq_true] at h
      rw [List.all_cons, isBareChar_of_isNameStart h.1]
      exact ih h.2

theorem all_isBareChar_of_isIdentifier (h : isIdentifier s) : s.all isBareChar := by
  refine all_of_all_dropWhile (fun c hc => ?_) (all_isBareChar_of_isPath h)
  simp only [Bool.or_eq_true, decide_eq_true_eq] at hc
  rcases hc with rfl | rfl <;> rfl

theorem all_isBareChar_of_dropSign (h : (dropSign s).all isBareChar) : s.all isBareChar := by
  unfold dropSign at h
  split at h
  · exact h
  · exact h
  · exact h

theorem all_isBareChar_of_isSuffix (h : isSuffix s) : s.all isBareChar :=
  List.all_eq_true.mpr fun c hc => isBareChar_of_isAlpha (List.all_eq_true.mp h c hc)

theorem all_isBareChar_of_isDigitsSuffix (h : isDigitsSuffix s) : s.all isBareChar := by
  unfold isDigitsSuffix at h
  split at h
  · next d cs =>
      rw [Bool.and_eq_true] at h
      rw [List.all_cons, isBareChar_of_isDigit h.1]
      exact all_of_all_dropWhile (fun _ => isBareChar_of_isDigit) (all_isBareChar_of_isSuffix h.2)
  · rfl

theorem all_isBareChar_of_isExponentSuffix (h : isExponentSuffix s) : s.all isBareChar := by
  unfold isExponentSuffix at h
  split at h
  · next e cs =>
      simp only [Bool.and_eq_true, Bool.or_eq_true, decide_eq_true_eq] at h
      have he : isBareChar e := by rcases h.1 with rfl | rfl <;> rfl
      rw [List.all_cons, he]
      exact all_isBareChar_of_dropSign (all_isBareChar_of_isDigitsSuffix h.2)
  · rfl

theorem all_isBareChar_of_isHexadecimal (h : isHexadecimal s) : s.all isBareChar := by
  unfold isHexadecimal at h
  split at h
  · next x d cs =>
      simp only [Bool.and_eq_true, Bool.or_eq_true, decide_eq_true_eq] at h
      have hx : isBareChar x := by rcases h.1.1 with rfl | rfl <;> rfl
      rw [List.all_cons, List.all_cons, List.all_cons, hx, isBareChar_of_isHexDigit h.1.2]
      exact all_of_all_dropWhile (fun _ => isBareChar_of_isHexDigit)
        (all_isBareChar_of_isSuffix h.2)
  · cases h

/-- What stands before the suffix of a decimal number are digits and at most one point. -/
theorem all_isBareChar_of_afterDecimal? {r : List Char} (hr : afterDecimal? s = some r)
    (h : r.all isBareChar) : s.all isBareChar := by
  have digits {t : List Char} : (t.dropWhile Char.isDigit).all isBareChar → t.all isBareChar :=
    all_of_all_dropWhile fun _ => isBareChar_of_isDigit
  unfold afterDecimal? at hr
  split at hr
  · next d cs =>
      split at hr
      · next hd =>
          cases hr
          rw [List.all_cons, List.all_cons, isBareChar_of_isDigit hd]
          exact digits h
      · cases hr
  · next d cs _ =>
      split at hr
      · next hd =>
          rw [List.all_cons, isBareChar_of_isDigit hd]
          refine digits ?_
          split at hr
          · next r' e =>
              cases hr
              rw [e, List.all_cons]
              exact digits h
          · cases hr
            exact h
      · cases hr
  · cases hr

theorem all_isBareChar_of_isDecimal (h : isDecimal s) : s.all isBareChar := by
  unfold isDecimal at h
  split at h
  · next r hr =>
      rw [Bool.or_eq_true] at h
      refine all_isBareChar_of_afterDecimal? hr ?_
      rcases h with h | h
      · exact all_isBareChar_of_isSuffix h
      · exact all_isBareChar_of_isExponentSuffix h
  · cases h

/-- **The characters of a bare literal.** -/
theorem all_isBareChar_of_isBare (h : isBare s) : s.all isBareChar := by
  simp only [isBare, isNumber, Bool.or_eq_true] at h
  rcases h with h | h | h
  · exact all_isBareChar_of_isIdentifier h
  · exact all_isBareChar_of_dropSign (all_isBareChar_of_isHexadecimal h)
  · exact all_isBareChar_of_dropSign (all_isBareChar_of_isDecimal h)

theorem isBareChar_of_mem {c : Char} (h : isBare s) (hc : c ∈ s) : isBareChar c :=
  List.all_eq_true.mp (all_isBareChar_of_isBare h) c hc

theorem not_isBare_nil : isBare [] = false := rfl

end SceneScript.Literal
