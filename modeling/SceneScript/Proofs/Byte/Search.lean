import SceneScript.Comment
import SceneScript.Proofs.Byte.Slice
import SceneScript.Proofs.Text.Quote

/-!
# Proofs — Byte — what a scan looks for

A scan looks at single bytes, and goes on from the first offset at which it finds what it looks for
(`firstFrom`).  All that it looks for is in ASCII.  Such a character is one byte, and that byte is
part of no other character (`eq_toUInt8_iff`), so nothing is found inside a character, and what is
found stands in the text: the end of a run of characters (`seek_bytes`), the quote that closes
another (`closingQuote_bytes`), the end of a block comment (`find_bytes`).
-/

namespace SceneScript.Byte

open Text

/-! ### Characters of one byte -/

section Ascii

variable {a c : Char} {b : UInt8}

theorem utf8Size_of_lt (ha : a.toNat < 0x80) : a.utf8Size = 1 :=
  Char.utf8Size_eq_one_iff.mpr (Nat.le_of_lt_succ ha)

theorem utf8EncodeChar_of_lt (ha : a.toNat < 0x80) : String.utf8EncodeChar a = [a.toUInt8] :=
  String.utf8EncodeChar_eq_singleton (utf8Size_of_lt ha)

/-- **A character of one byte** is part of no other. -/
theorem eq_toUInt8_iff (ha : a.toNat < 0x80) (hb : b ∈ String.utf8EncodeChar c) :
    b = a.toUInt8 ↔ c = a := by
  constructor
  · rintro rfl
    have hn : a.toUInt8.toNat = a.toNat := by
      rw [Char.toUInt8, UInt32.toNat_toUInt8]
      exact Nat.mod_eq_of_lt (Nat.lt_trans ha (by decide))
    have hc := toNat_of_mem_utf8EncodeChar hb (by rwa [hn])
    exact Char.toNat_inj.mp (hc.trans hn)
  · rintro rfl
    rw [utf8EncodeChar_of_lt ha] at hb
    exact List.mem_singleton.mp hb

/-- Every byte of a character is found where it stands. -/
theorem exists_byte (u : List Char) (c : Char) (v : List Char) {k : Nat} (hk : k < c.utf8Size) :
    ∃ b ∈ String.utf8EncodeChar c, (bytes (u ++ c :: v))[byteLength u + k]? = some b := by
  have hk' : k < (String.utf8EncodeChar c).length := by simpa using hk
  exact ⟨_, List.getElem_mem hk', by rw [getElem?_bytes u c v hk, List.getElem?_eq_getElem hk']⟩

theorem getElem?_bytes_iff (ha : a.toNat < 0x80) (u v : List Char) {k : Nat}
    (hk : k < c.utf8Size) :
    (bytes (u ++ c :: v))[byteLength u + k]? = some a.toUInt8 ↔ c = a := by
  obtain ⟨b, hb, e⟩ := exists_byte u c v hk
  rw [e, Option.some_inj, eq_toUInt8_iff ha hb]

/-- A character of one byte at a boundary. -/
theorem getElem?_boundary (ha : a.toNat < 0x80) (u v : List Char) :
    (bytes (u ++ v))[byteLength u]? = some a.toUInt8 ↔ v.head? = some a := by
  cases v with
  | nil => simp
  | cons c v => simpa using getElem?_bytes_iff ha u v (k := 0) c.utf8Size_pos

/-- The byte is one of the characters. -/
def oneOf (cs : List Char) (b : UInt8) : Bool :=
  cs.any fun c => b = c.toUInt8

theorem oneOf_of_mem {cs : List Char} (hcs : ∀ a ∈ cs, a.toNat < 0x80)
    (hb : b ∈ String.utf8EncodeChar c) : oneOf cs b = cs.contains c := by
  rw [Bool.eq_iff_iff, oneOf, List.any_eq_true, List.contains_iff_mem]
  constructor
  · rintro ⟨a, ha, e⟩
    rw [decide_eq_true_eq, eq_toUInt8_iff (hcs a ha) hb] at e
    rwa [e]
  · intro hc
    exact ⟨c, hc, decide_eq_true ((eq_toUInt8_iff (hcs c hc) hb).mpr rfl)⟩

end Ascii

/-! ### The first offset -/

/-- The first offset of the text, from `start` on, of which `p` holds. -/
def firstFrom (text : List UInt8) (start : Nat) (p : Nat → Bool) : Option Nat :=
  (List.range' start (text.length - start)).find? p

section FirstFrom

variable {text : List UInt8} {i j : Nat} {p : Nat → Bool}

theorem le_of_firstFrom (h : firstFrom text i p = some j) : i ≤ j :=
  (List.mem_range'_1.mp (List.mem_of_find?_eq_some h)).1

theorem of_firstFrom (h : firstFrom text i p = some j) : p j :=
  List.find?_some h

theorem firstFrom_of_le (h : text.length ≤ i) : firstFrom text i p = none := by
  rw [firstFrom, Nat.sub_eq_zero_of_le h]
  rfl

/-- What `p` does not hold of is passed over. -/
theorem firstFrom_skip (hij : i ≤ j) (hj : j ≤ text.length) (h : ∀ k, i ≤ k → k < j → p k = false) :
    firstFrom text i p = firstFrom text j p := by
  have hnone : (List.range' i (j - i)).find? p = none := by
    refine List.find?_eq_none.mpr fun k hk => ?_
    obtain ⟨hik, hkj⟩ := List.mem_range'_1.mp hk
    rw [h k hik (by omega)]
    exact Bool.false_ne_true
  have hsplit := List.range'_append_1 (s := i) (m := j - i) (n := text.length - j)
  rw [Nat.add_sub_cancel' hij, show j - i + (text.length - j) = text.length - i by omega] at hsplit
  rw [firstFrom, ← hsplit, List.find?_append, hnone, Option.none_or, firstFrom]

end FirstFrom

section Character

variable {p : Nat → Bool} (u : List Char) (c : Char) (v : List Char)

/-- A character is found when `p` holds of its first byte. -/
theorem firstFrom_char (h : p (byteLength u)) :
    firstFrom (bytes (u ++ c :: v)) (byteLength u) p = some (byteLength u) := by
  have hlt := byteLength_lt_append_cons u c v
  obtain ⟨n, hn⟩ := Nat.exists_eq_add_of_lt hlt
  have hlen : (bytes (u ++ c :: v)).length - byteLength u = n + 1 := by
    rw [length_bytes]
    omega
  rw [firstFrom, hlen, List.range'_succ, List.find?_cons_of_pos h]

/-- A character is passed over when `p` holds of none of its bytes. -/
theorem firstFrom_skip_char (h : ∀ k < c.utf8Size, p (byteLength u + k) = false) :
    firstFrom (bytes (u ++ c :: v)) (byteLength u) p =
      firstFrom (bytes (u ++ c :: v)) (byteLength (u ++ [c])) p := by
  refine firstFrom_skip (by simp) (by simp) fun k hk hk' => ?_
  have e := h (k - byteLength u) (by simp at hk'; omega)
  rwa [Nat.add_sub_cancel' hk] at e

end Character

/-! ### Runs of characters -/

/-- The first offset, from `start` on, at which one of the characters stands. -/
def position (cs : List Char) (text : List UInt8) (start : Nat) : Option Nat :=
  firstFrom text start fun i => text[i]?.any (oneOf cs)

/-- The first offset, from `start` on, at which one of the characters stands, or else the end. -/
def seek (cs : List Char) (text : List UInt8) (start : Nat) : Nat :=
  (position cs text start).getD text.length

/-- A byte that is none of the characters is passed over. -/
theorem lt_seek {cs : List Char} {text : List UInt8} {i : Nat} {b : UInt8}
    (h : text[i]? = some b) (hb : oneOf cs b = false) : i < seek cs text i := by
  cases hp : position cs text i with
  | none => simpa [seek, hp] using (List.getElem?_eq_some_iff.mp h).1
  | some j =>
      have hj : text[j]?.any (oneOf cs) := of_firstFrom hp
      have hne : i ≠ j := by
        rintro rfl
        rw [h, Option.any_some, hb] at hj
        cases hj
      simpa [seek, hp] using Nat.lt_of_le_of_ne (le_of_firstFrom hp) hne

section Position

variable {cs : List Char} (hcs : ∀ a ∈ cs, a.toNat < 0x80)

include hcs

theorem any_oneOf (u : List Char) (c : Char) (v : List Char) {k : Nat} (hk : k < c.utf8Size) :
    (bytes (u ++ c :: v))[byteLength u + k]?.any (oneOf cs) = cs.contains c := by
  obtain ⟨b, hb, e⟩ := exists_byte u c v hk
  rw [e, Option.any_some, oneOf_of_mem hcs hb]

theorem position_skip {w : List Char} (hw : ∀ c ∈ w, c ∉ cs) (u v : List Char) :
    position cs (bytes (u ++ (w ++ v))) (byteLength u) =
      position cs (bytes (u ++ (w ++ v))) (byteLength (u ++ w)) := by
  induction w generalizing u with
  | nil => simp
  | cons c w ih =>
      have hc : cs.contains c = false := by simpa using hw c List.mem_cons_self
      have hstep : position cs (bytes (u ++ c :: (w ++ v))) (byteLength u) = position cs _ _ :=
        firstFrom_skip_char u c (w ++ v) fun k hk => (any_oneOf hcs u c (w ++ v) hk).trans hc
      have ih := ih (fun d hd => hw d (List.mem_cons_of_mem c hd)) (u ++ [c])
      rw [List.append_assoc, List.append_assoc] at ih
      exact hstep.trans ih

theorem position_of_not_mem {w : List Char} (hw : ∀ c ∈ w, c ∉ cs) (u : List Char) :
    position cs (bytes (u ++ w)) (byteLength u) = none := by
  have h := position_skip hcs hw u []
  rw [List.append_nil] at h
  rw [h]
  exact firstFrom_of_le (by simp)

/-- **The first of the characters is found** where it stands. -/
theorem position_of_mem {w : List Char} (hw : ∀ c ∈ w, c ∉ cs) {a : Char} (ha : a ∈ cs)
    (u v : List Char) :
    position cs (bytes (u ++ (w ++ a :: v))) (byteLength u) = some (byteLength (u ++ w)) := by
  rw [position_skip hcs hw u, ← List.append_assoc]
  refine firstFrom_char _ _ _ ?_
  exact (any_oneOf hcs (u ++ w) a v a.utf8Size_pos).trans (by simpa using ha)

/-- **The end of a run** of other characters. -/
theorem seek_bytes (u s : List Char) :
    seek cs (bytes (u ++ s)) (byteLength u) = byteLength (u ++ s.takeWhile (!cs.contains ·)) := by
  have hw : ∀ c ∈ s.takeWhile (!cs.contains ·), c ∉ cs := by
    intro c hc
    simpa using List.all_eq_true.mp List.all_takeWhile c hc
  have hv := List.head?_dropWhile_not (!cs.contains ·) s
  have hs := List.takeWhile_append_dropWhile (p := (!cs.contains ·)) (l := s)
  generalize s.takeWhile (!cs.contains ·) = w at hw hs ⊢
  cases hd : s.dropWhile (!cs.contains ·) with
  | nil =>
      rw [hd, List.append_nil] at hs
      rw [← hs, seek, position_of_not_mem hcs hw, Option.getD_none, length_bytes]
  | cons a v =>
      rw [hd] at hv hs
      rw [← hs, seek, position_of_mem hcs hw (by simpa using hv), Option.getD_some]

end Position

/-! ### Closing quotes -/

/-- The characters that open a quoted run. -/
def quotes : List Char := ['"', '\'']

theorem oneOf_quotes {c : Char} {b : UInt8} (hb : b ∈ String.utf8EncodeChar c) :
    oneOf quotes b = isQuote c := by
  rw [oneOf_of_mem (by simp [quotes]) hb]
  simp [quotes, isQuote]

/-- The byte at `j` is `quote`, and the one before it is no backslash. -/
def closes (text : List UInt8) (quote : UInt8) (j : Nat) : Bool :=
  text[j]? = some quote ∧ text[j - 1]? ≠ some '\\'.toUInt8

/-- The first `quote` after `opening` that does not directly follow a backslash. -/
def closingQuote (text : List UInt8) (opening : Nat) (quote : UInt8) : Option Nat :=
  firstFrom text (opening + 1) (closes text quote)

/-- A quote in the bytes is one in the text, and the byte before it a backslash when the character
before it is. -/
theorem closes_bytes {q : Char} (hq : q.toNat < 0x80) (u : List Char) (prev c : Char)
    (v : List Char) {k : Nat} (hk : k < c.utf8Size) :
    closes (bytes (u ++ prev :: c :: v)) q.toUInt8 (byteLength (u ++ [prev]) + k) =
      decide (c = q ∧ prev ≠ '\\') := by
  have hc := getElem?_bytes_iff hq (u ++ [prev]) v hk
  rw [List.append_assoc, List.singleton_append] at hc
  refine decide_eq_decide.mpr ?_
  rw [hc]
  refine and_congr_right fun e => not_congr ?_
  -- a quote is one byte, so the byte before it is the last one of `prev`
  have hsize : c.utf8Size = 1 := e ▸ utf8Size_of_lt hq
  have hprev := prev.utf8Size_pos
  have hi : byteLength (u ++ [prev]) + k - 1 = byteLength u + (prev.utf8Size - 1) := by
    simp only [byteLength_append, byteLength_cons, byteLength_nil]
    omega
  rw [hi]
  exact getElem?_bytes_iff (by decide) u (c :: v) (by omega)

/-- The search for `q` behind the character `prev`. -/
theorem firstFrom_closes {q : Char} (hq : q.toNat < 0x80) (u : List Char) (prev : Char)
    (s : List Char) :
    firstFrom (bytes (u ++ prev :: s)) (byteLength (u ++ [prev]))
        (closes (bytes (u ++ prev :: s)) q.toUInt8) =
      (closeQuote q prev s).map fun r => byteLength (u ++ prev :: r.1) - 1 := by
  induction s generalizing u prev with
  | nil => exact firstFrom_of_le (by simp)
  | cons c cs ih =>
      have hc : ∀ k < c.utf8Size, _ := fun k hk => closes_bytes hq u prev c cs hk
      have ih := ih (u ++ [prev]) c
      rw [← List.singleton_append, ← List.append_assoc] at hc ⊢
      rw [closeQuote]
      split
      · next h =>
          have hsize : c.utf8Size = 1 := h.1 ▸ utf8Size_of_lt hq
          rw [firstFrom_char _ _ _ ((hc 0 c.utf8Size_pos).trans (decide_eq_true h))]
          simp [hsize]
      · next h =>
          rw [firstFrom_skip_char _ _ _ fun k hk => (hc k hk).trans (decide_eq_false h), ih]
          cases closeQuote q c cs <;> simp

theorem toNat_lt_of_isQuote {q : Char} (hq : isQuote q) : q.toNat < 0x80 := by
  rcases isQuote_iff.mp hq with rfl | rfl <;> decide

/-- **A quote closes at the same place** in the bytes of a text. -/
theorem closingQuote_bytes {q : Char} (hq : isQuote q) (u s : List Char) :
    closingQuote (bytes (u ++ q :: s)) (byteLength u) q.toUInt8 =
      (closeQuote q q s).map fun r => byteLength (u ++ q :: r.1) - 1 := by
  have hlt := toNat_lt_of_isQuote hq
  have h := firstFrom_closes hlt u q s
  rwa [byteLength_append, byteLength_cons, utf8Size_of_lt hlt] at h

/-! ### The end of a block comment -/

/-- The first offset, from `start` on, at which `needle` stands. -/
def find (text : List UInt8) (start : Nat) (needle : List UInt8) : Option Nat :=
  firstFrom text start fun i => needle.isPrefixOf (text.drop i)

theorem isPrefixOf_drop {a b : UInt8} {text : List UInt8} {i : Nat} :
    [a, b].isPrefixOf (text.drop i) ↔ text[i]? = some a ∧ text[i + 1]? = some b := by
  rw [← List.head?_drop, ← List.head?_drop, ← List.tail_drop]
  cases text.drop i with
  | nil => simp
  | cons c cs => cases cs <;> simp [@eq_comm _ a, @eq_comm _ b]

/-- `*/` stands in the bytes where it stands in the text. -/
theorem isPrefixOf_drop_bytes (u : List Char) (c : Char) (v : List Char) {k : Nat}
    (hk : k < c.utf8Size) :
    ['*'.toUInt8, '/'.toUInt8].isPrefixOf ((bytes (u ++ c :: v)).drop (byteLength u + k)) ↔
      c = '*' ∧ v.head? = some '/' := by
  rw [isPrefixOf_drop, getElem?_bytes_iff (by decide) u v hk]
  refine and_congr_right ?_
  rintro rfl
  -- a star is one byte, so what follows it is the next character
  have hk : k = 0 := Nat.lt_one_iff.mp hk
  have h := getElem?_boundary (a := '/') (by decide) (u ++ ['*']) v
  rw [List.append_assoc, byteLength_append] at h
  rw [hk]
  exact h

/-- **A block comment ends at the same place** in the bytes of a text. -/
theorem find_bytes (u s : List Char) :
    find (bytes (u ++ s)) (byteLength u) ['*'.toUInt8, '/'.toUInt8] =
      (closeBlock s).map fun r => byteLength (u ++ r.1) := by
  fun_induction closeBlock s generalizing u with
  | case1 => exact firstFrom_of_le (by simp)
  | case2 cs =>
      have hfound := (isPrefixOf_drop_bytes u '*' ('/' :: cs) (k := 0) (by decide)).mpr ⟨rfl, rfl⟩
      refine (firstFrom_char u '*' ('/' :: cs) hfound).trans ?_
      simp
  | case3 c cs hn ih =>
      have hopen : ¬ (c = '*' ∧ cs.head? = some '/') := by
        rintro ⟨hc, hd⟩
        obtain ⟨cs', rfl⟩ := List.head?_eq_some_iff.mp hd
        exact hn cs' hc rfl
      have hstep : find (bytes (u ++ c :: cs)) (byteLength u) _ = find _ _ _ :=
        firstFrom_skip_char u c cs fun k hk =>
          Bool.eq_false_iff.mpr (mt (isPrefixOf_drop_bytes u c cs hk).mp hopen)
      have ih := ih (u ++ [c])
      rw [List.append_assoc, List.singleton_append] at ih
      rw [hstep, ih]
      cases closeBlock cs <;> simp

end SceneScript.Byte
