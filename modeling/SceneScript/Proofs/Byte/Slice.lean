import SceneScript.Proofs.Text.Byte

/-!
# Proofs — Byte — slices

A text is kept as its bytes, and a part of it is taken out between two byte offsets.  That is no
text unless both offsets are boundaries, which is seen from the bytes alone.  In the bytes of a text
the boundaries are the places between two characters (`isBoundary_bytes`), so what is cut out there
is the bytes of the characters between (`value_slice`).

A scan that takes slices keeps a record of them (`Sliced`), and the first that is not clean ends
it without a value.  So a scan has a value exactly when all the slices it took are clean.
-/

namespace SceneScript.Byte

open Text

/-- The characters of a text, from its bytes; none if these are not the bytes of a text. -/
def decode (text : List UInt8) : List Char :=
  (text.toByteArray.utf8Decode?.map Array.toList).getD []

@[simp] theorem decode_bytes (s : List Char) : decode (bytes s) = s := by
  have h : (bytes s).toByteArray.utf8Decode? = some s.toArray := List.utf8Decode?_utf8Encode
  rw [decode, h]
  rfl

/-! ### Boundaries -/

/-- Byte `i` of the text starts a character, or the text ends there. -/
def isBoundary (text : List UInt8) (i : Nat) : Bool :=
  match text[i]? with
  | some b => b.IsUTF8FirstByte
  | none   => i = text.length

theorem getElem?_bytes (u : List Char) (c : Char) (v : List Char) {k : Nat} (hk : k < c.utf8Size) :
    (bytes (u ++ c :: v))[byteLength u + k]? = (String.utf8EncodeChar c)[k]? := by
  rw [bytes_append, bytes_cons, ← length_bytes, List.getElem?_append_right (Nat.le_add_right _ _),
    Nat.add_sub_cancel_left, List.getElem?_append_left (by simpa using hk)]

/-- Inside a character there is no boundary. -/
theorem isBoundary_inside (u : List Char) (c : Char) (v : List Char) {k : Nat}
    (hk : k < c.utf8Size) :
    isBoundary (bytes (u ++ c :: v)) (byteLength u + k) = decide (k = 0) := by
  have hk' : k < (String.utf8EncodeChar c).length := by simpa using hk
  rw [isBoundary, getElem?_bytes u c v hk, List.getElem?_eq_getElem hk']
  exact decide_eq_decide.mpr UInt8.isUTF8FirstByte_getElem_utf8EncodeChar

/-- Every byte is one of a character. -/
theorem exists_char_of_lt {s : List Char} {i : Nat} (h : i < byteLength s) :
    ∃ u c v k, s = u ++ c :: v ∧ k < c.utf8Size ∧ i = byteLength u + k := by
  induction s generalizing i with
  | nil => cases h
  | cons c s ih =>
      by_cases hi : i < c.utf8Size
      · exact ⟨[], c, s, i, rfl, hi, (Nat.zero_add i).symm⟩
      · rw [byteLength_cons] at h
        obtain ⟨u, d, v, k, rfl, hk, hik⟩ := ih (i := i - c.utf8Size) (by omega)
        refine ⟨c :: u, d, v, k, rfl, hk, ?_⟩
        rw [byteLength_cons]
        omega

/-- **The boundaries of a text** are the places between two characters, and its ends. -/
theorem isBoundary_bytes {s : List Char} {i : Nat} :
    isBoundary (bytes s) i ↔ ∃ u v, s = u ++ v ∧ i = byteLength u := by
  constructor
  · intro h
    by_cases hi : i < byteLength s
    · obtain ⟨u, c, v, k, rfl, hk, rfl⟩ := exists_char_of_lt hi
      rw [isBoundary_inside u c v hk, decide_eq_true_eq] at h
      exact ⟨u, c :: v, rfl, by rw [h, Nat.add_zero]⟩
    · have hend : (bytes s)[i]? = none := List.getElem?_eq_none (by simpa using hi)
      rw [isBoundary, hend, decide_eq_true_eq, length_bytes] at h
      exact ⟨s, [], by simp, h⟩
  · rintro ⟨u, v, rfl, rfl⟩
    cases v with
    | nil => simp [isBoundary]
    | cons c v => exact isBoundary_inside u c v (k := 0) c.utf8Size_pos

/-! ### Slices -/

/-- A slice of a text, given by the bytes of the text and two offsets. -/
structure Slice where
  text  : List UInt8
  start : Nat
  stop  : Nat

namespace Slice

/-- The slice is in bounds, and starts and ends on boundaries. -/
def Clean (s : Slice) : Prop :=
  s.start ≤ s.stop ∧ s.stop ≤ s.text.length ∧ isBoundary s.text s.start ∧ isBoundary s.text s.stop

instance (s : Slice) : Decidable s.Clean :=
  inferInstanceAs (Decidable (_ ∧ _))

/-- The bytes of the slice. -/
def content (s : Slice) : List UInt8 :=
  (s.text.drop s.start).take (s.stop - s.start)

end Slice

/-- The slices that a computation has taken, and its value: it has one as long as they are clean. -/
structure Sliced (α : Type) where
  slices       : List Slice
  value        : Option α
  isSome_value : value.isSome ↔ ∀ s ∈ slices, s.Clean

/-- Takes a slice. -/
def slice (text : List UInt8) (start stop : Nat) : Sliced (List UInt8) where
  slices := [⟨text, start, stop⟩]
  value :=
    let s : Slice := ⟨text, start, stop⟩
    if s.Clean then some s.content else none
  isSome_value := by simp

instance : Monad Sliced where
  pure a := ⟨[], some a, by simp⟩
  bind x f :=
    { slices := x.slices ++ (x.value.map fun a => (f a).slices).getD []
      value := x.value.bind fun a => (f a).value
      isSome_value := by
        have hx := x.isSome_value
        cases h : x.value with
        | none => simpa [h] using hx
        | some a =>
            have hx : ∀ s ∈ x.slices, s.Clean := hx.mp (by simp [h])
            refine (f a).isSome_value.trans ⟨fun ha s hs => ?_, fun ha s hs => ?_⟩
            · exact (List.mem_append.mp hs).elim (hx s) (ha s)
            · exact ha s (List.mem_append_right _ hs) }

namespace Sliced

variable {α β : Type}

@[simp] theorem value_pure (a : α) : (pure a : Sliced α).value = some a := rfl

@[simp] theorem value_bind (x : Sliced α) (f : α → Sliced β) :
    (x >>= f).value = x.value.bind fun a => (f a).value := rfl

/-- The computation takes clean slices only, and gives `a`. -/
def Gives (x : Sliced α) (a : α) : Prop :=
  (∀ s ∈ x.slices, s.Clean) ∧ x.value = some a

/-- A value is only given when all slices were clean. -/
theorem Gives.of_value {x : Sliced α} {a : α} (h : x.value = some a) : x.Gives a :=
  ⟨x.isSome_value.mp (by simp [h]), h⟩

end Sliced

/-- **A slice between characters** holds the bytes of those in it. -/
theorem value_slice (u v w : List Char) :
    (slice (bytes (u ++ (v ++ w))) (byteLength u) (byteLength (u ++ v))).value =
      some (bytes v) := by
  have hclean : Slice.Clean ⟨bytes (u ++ (v ++ w)), byteLength u, byteLength (u ++ v)⟩ := by
    refine ⟨by simp, by simp, isBoundary_bytes.mpr ⟨u, v ++ w, rfl, rfl⟩, ?_⟩
    exact isBoundary_bytes.mpr ⟨u ++ v, w, (List.append_assoc u v w).symm, rfl⟩
  refine (if_pos hclean).trans (congrArg some ?_)
  simp [Slice.content, ← length_bytes]

/-- The slice from a place on. -/
theorem value_slice_rest (u v : List Char) :
    (slice (bytes (u ++ v)) (byteLength u) (bytes (u ++ v)).length).value = some (bytes v) := by
  have h := value_slice u v []
  rwa [List.append_nil, ← length_bytes (u ++ v)] at h

/-- A character of two bytes cannot be cut in half. -/
example : (slice (bytes ['é']) 0 1).value = none := by decide

end SceneScript.Byte
