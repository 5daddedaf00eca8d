import Mathlib.Tactic.SplitIfs
import SceneScript.Text.Line

/-!
# Proofs — Text — bytes

The bytes of a text, to say of offsets and lengths what they measure: `byteLength` counts them
(`length_bytes`), and a byte below `0x80` is a character of its own (`toNat_of_mem_utf8EncodeChar`),
so that the line feeds among the bytes are those among the characters (`newlinesBefore_eq_count`).
The table of line starts has one entry for each of them (`exists_startsAfter_eq_append`).
-/

namespace SceneScript.Text

/-- The bytes of `s` in UTF-8. -/
def bytes (s : List Char) : List UInt8 :=
  s.flatMap String.utf8EncodeChar

/-- The byte of a line feed. -/
def newlineByte : UInt8 := 0x0A

@[simp] theorem bytes_cons (c : Char) (s : List Char) :
    bytes (c :: s) = String.utf8EncodeChar c ++ bytes s :=
  List.flatMap_cons

@[simp] theorem bytes_append (s t : List Char) : bytes (s ++ t) = bytes s ++ bytes t :=
  List.flatMap_append

@[simp] theorem length_bytes (s : List Char) : (bytes s).length = byteLength s := by
  induction s with
  | nil => rfl
  | cons c cs ih => simp [ih]

theorem utf8ByteSize_eq_byteLength (s : String) : s.utf8ByteSize = byteLength s.toList := by
  have h : (String.ofList s.toList).utf8ByteSize = (bytes s.toList).length := by
    rw [String.utf8ByteSize, String.toByteArray_ofList, List.utf8Encode, List.size_toByteArray,
      bytes]
  rwa [String.ofList_toList, length_bytes] at h

/-- What precedes a character is shorter than the text. -/
theorem byteLength_lt_append_cons (u : List Char) (c : Char) (v : List Char) :
    byteLength u < byteLength (u ++ c :: v) := by
  have := c.utf8Size_pos
  rw [byteLength_append, byteLength_cons]
  omega

/-- A byte below `0x80` in the form of a character is that character's number. -/
theorem toNat_of_mem_utf8EncodeChar {c : Char} {b : UInt8} (hb : b ∈ String.utf8EncodeChar c)
    (h : b.toNat < 0x80) : c.toNat = b.toNat := by
  -- the bytes of a longer form all have their highest bit set
  have high : ∀ {n k m : Nat}, b = UInt8.ofNat (n % k + m) → 0 < k → 0x80 ≤ m → k + m ≤ 0x100 →
      c.toNat = b.toNat := by
    rintro n k m rfl hk hm hkm
    have := Nat.mod_lt n hk
    rw [UInt8.toNat_ofNat', Nat.mod_eq_of_lt (by omega)] at h
    omega
  unfold String.utf8EncodeChar at hb
  dsimp only at hb
  split_ifs at hb with h₁ h₂ h₃ <;>
    simp only [List.mem_cons, List.not_mem_nil, or_false] at hb
  · subst hb
    rw [UInt8.toNat_ofNat', Nat.mod_eq_of_lt (Nat.lt_of_le_of_lt h₁ (by decide))]
    rfl
  · rcases hb with hb | hb <;> exact high hb (by decide) (by decide) (by decide)
  · rcases hb with hb | hb | hb <;> exact high hb (by decide) (by decide) (by decide)
  · rcases hb with hb | hb | hb | hb <;> exact high hb (by decide) (by decide) (by decide)

theorem count_newline_utf8EncodeChar (c : Char) (n : Nat) :
    ((String.utf8EncodeChar c).take (n + 1)).count newlineByte = if c = '\n' then 1 else 0 := by
  split
  · next h =>
      subst h
      rw [show String.utf8EncodeChar '\n' = [newlineByte] by decide]
      simp
  · next h =>
      refine List.count_eq_zero.mpr fun hb => h ?_
      exact Char.toNat_inj.mp (toNat_of_mem_utf8EncodeChar (List.mem_of_mem_take hb) (by decide))

/-- The number of line feeds among the first `n` bytes of `s`. -/
def newlinesBefore : Nat → List Char → Nat
  | _,     []      => 0
  | 0,     _       => 0
  | n + 1, c :: cs => (if c = '\n' then 1 else 0) + newlinesBefore (n + 1 - c.utf8Size) cs

theorem newlinesBefore_eq_count (s : List Char) (n : Nat) :
    newlinesBefore n s = ((bytes s).take n).count newlineByte := by
  induction s generalizing n with
  | nil => cases n <;> rfl
  | cons c cs ih =>
      cases n with
      | zero => rfl
      | succ n =>
          rw [newlinesBefore, ih, bytes_cons, List.take_append, List.count_append,
            count_newline_utf8EncodeChar, String.length_utf8EncodeChar]

theorem count_newline_bytes (s : List Char) : (bytes s).count newlineByte = s.count '\n' := by
  induction s with
  | nil => rfl
  | cons c s ih =>
      have h := count_newline_utf8EncodeChar c (String.utf8EncodeChar c).length
      rw [List.take_of_length_le (Nat.le_succ _)] at h
      rw [bytes_cons, List.count_append, h, ih, List.count_cons, Nat.add_comm]
      simp

/-! ### The table of line starts -/

theorem lt_of_mem_startsAfter {s : List Char} {offset start : Nat}
    (h : start ∈ startsAfter offset s) : offset < start := by
  induction s generalizing offset with
  | nil => cases h
  | cons c s ih =>
      have hpos := c.utf8Size_pos
      rw [startsAfter] at h
      split at h
      · rcases List.mem_cons.mp h with rfl | h
        · omega
        · have := ih h
          omega
      · have := ih h
        omega

/-- **The starts up to a byte are one for each line feed before it**, and come before the others. -/
theorem exists_startsAfter_eq_append (s : List Char) (offset n : Nat) :
    ∃ ys zs, startsAfter offset s = ys ++ zs ∧ (∀ y ∈ ys, y ≤ offset + n) ∧
      (∀ z ∈ zs, offset + n < z) ∧ ys.length = newlinesBefore n s := by
  induction s generalizing offset n with
  | nil => exact ⟨[], [], rfl, nofun, nofun, by cases n <;> rfl⟩
  | cons c s ih =>
      cases n with
      | zero => exact ⟨[], _, rfl, nofun, fun z hz => lt_of_mem_startsAfter (s := c :: s) hz, rfl⟩
      | succ n =>
          rw [startsAfter, newlinesBefore]
          obtain ⟨ys, zs, e, hy, hz, hlen⟩ := ih (offset + c.utf8Size) (n + 1 - c.utf8Size)
          by_cases hn : n + 1 < c.utf8Size
          -- the offset is inside `c`, which is then no line feed, and all starts lie further on
          · have hc : c ≠ '\n' := by
              rintro rfl
              exact absurd (Nat.lt_of_le_of_lt (Nat.le_add_left 1 n) hn) (by decide)
            refine ⟨[], startsAfter (offset + c.utf8Size) s, by simp [hc], nofun, fun z hz => ?_, ?_⟩
            · have := lt_of_mem_startsAfter hz
              omega
            · rw [Nat.sub_eq_zero_of_le (Nat.le_of_lt hn)]
              cases s <;> simp [newlinesBefore, hc]
          · have he : offset + c.utf8Size + (n + 1 - c.utf8Size) = offset + (n + 1) := by omega
            rw [he] at hy hz
            rw [e]
            by_cases hc : c = '\n'
            · refine ⟨(offset + c.utf8Size) :: ys, zs, by simp [hc], ?_, hz, ?_⟩
              · exact List.forall_mem_cons.mpr ⟨by omega, hy⟩
              · simp [hc, hlen, Nat.add_comm]
            · exact ⟨ys, zs, by simp [hc], hy, hz, by simp [hc, hlen]⟩

/-! ### Line feeds before an offset, part by part -/

theorem newlinesBefore_append_of_le {n : Nat} {s : List Char} (h : n ≤ byteLength s)
    (t : List Char) : newlinesBefore n (s ++ t) = newlinesBefore n s := by
  rw [newlinesBefore_eq_count, newlinesBefore_eq_count, bytes_append,
    List.take_append_of_le_length (by rwa [length_bytes])]

theorem newlinesBefore_append (s t : List Char) (n : Nat) :
    newlinesBefore (byteLength s + n) (s ++ t) = s.count '\n' + newlinesBefore n t := by
  rw [newlinesBefore_eq_count, newlinesBefore_eq_count, bytes_append, ← length_bytes,
    List.take_length_add_append, List.count_append, count_newline_bytes]

end SceneScript.Text
