import Mathlib.Data.List.TakeWhile
import SceneScript.Proofs.Template.Escape
import SceneScript.Proofs.Text.Byte

/-!
# Proofs — Template — seams

A template text is read mark by mark, and a mark is spelled the same way whatever follows it
(`Denotes`): a doubled brace, a name in braces, or any other character.  So a text is scanned up to
where the marks end (`Reads.scan_append`), and what is left starts with a fault or is nothing
(`splits`).  A fault is a brace with nothing to match it, or a name that no placeholder has
(`Faulty`), and it is reported where it stands.

From these two facts a text that compiles and any text after it are compiled part by part, and the
error of the second moves on by the bytes of the first (`compile_seams`).
-/

namespace SceneScript

open Text

/-- The same error, `n` bytes further on. -/
def TemplateError.shift (n : Nat) : TemplateError → TemplateError
  | .unknownPlaceholder name p => .unknownPlaceholder name (n + p)
  | .unclosed p                => .unclosed (n + p)
  | .strayClose p              => .strayClose (n + p)

/-- The brace at which an error stands. -/
def TemplateError.brace : TemplateError → Char
  | .unknownPlaceholder _ _ => '{'
  | .unclosed _             => '{'
  | .strayClose _           => '}'

namespace Template

variable {φ β : Type} [Placeholder φ β]

/-! ### Marks and faults of a text -/

/-- The text spells the mark, whatever follows it. -/
inductive Denotes : List Char → Mark φ → Prop where
  | opening : Denotes ['{', '{'] (.char '{')
  | closing : Denotes ['}', '}'] (.char '}')
  | field {w : List Char} {f : φ} (ho : w.head? ≠ some '{') (hc : '}' ∉ w)
      (hf : Placeholder.named? (String.ofList (trim w)) = some f) :
      Denotes ('{' :: (w ++ ['}'])) (.field f)
  | char {c : Char} (ho : c ≠ '{') (hc : c ≠ '}') : Denotes [c] (.char c)

/-- The text spells the marks, one after another. -/
inductive Reads : List Char → List (Mark φ) → Prop where
  | nil : Reads [] []
  | cons {w s : List Char} {m : Mark φ} {ms : List (Mark φ)} (hm : Denotes w m) (h : Reads s ms) :
      Reads (w ++ s) (m :: ms)

variable (φ) in
/-- The text, which starts at byte `pos`, starts with a fault. -/
inductive Faulty (pos : Nat) : List Char → TemplateError → Prop where
  | stray {s : List Char} (h : s.head? ≠ some '}') : Faulty pos ('}' :: s) (.strayClose pos)
  | unclosed {s : List Char} (ho : s.head? ≠ some '{') (hc : '}' ∉ s) :
      Faulty pos ('{' :: s) (.unclosed pos)
  | unknown {w s : List Char} (ho : w.head? ≠ some '{') (hc : '}' ∉ w)
      (hn : Placeholder.named? (φ := φ) (String.ofList (trim w)) = none) :
      Faulty pos ('{' :: (w ++ '}' :: s)) (.unknownPlaceholder (String.ofList (trim w)) pos)

/-- **A mark is read whole**, whatever follows it. -/
theorem Denotes.scan_append {w : List Char} {m : Mark φ} (h : Denotes w m) (pos : Nat)
    (s : List Char) : scan pos (w ++ s) = (scan (pos + byteLength w) s).map (m :: ·) := by
  cases h with
  | opening =>
      rw [List.cons_append, List.singleton_append, scan]
      rfl
  | closing =>
      rw [List.cons_append, List.singleton_append, scan]
      rfl
  | field ho hc hf =>
      have hl : ∀ w : List Char, byteLength ('{' :: (w ++ ['}'])) = byteLength w + 2 := by
        intro w
        have h : '{'.utf8Size = 1 ∧ '}'.utf8Size = 1 := by decide
        simp only [byteLength_cons, byteLength_append, byteLength_nil, h]
        omega
      rw [List.cons_append, List.append_assoc, List.singleton_append, scan_placeholder ho hc, hf, hl,
        Nat.add_assoc]
  | char ho hc =>
      rw [List.singleton_append, scan_char ho hc]
      rfl

/-- **A text is read up to where its marks end.** -/
theorem Reads.scan_append {u : List Char} {ms : List (Mark φ)} (h : Reads u ms) (pos : Nat)
    (v : List Char) :
    scan pos (u ++ v) = (scan (pos + byteLength u) v).map (ms ++ ·) := by
  induction h generalizing pos with
  | nil =>
      cases hv : scan (φ := φ) pos v <;> simp [hv, Except.map]
  | cons hm _ ih =>
      rw [List.append_assoc, hm.scan_append, ih, byteLength_append, ← Nat.add_assoc]
      cases scan (φ := φ) _ v <;> rfl

/-- **At a fault the reading stops**, and the fault is reported. -/
theorem Faulty.scan_eq {pos : Nat} {s : List Char} {e : TemplateError} (h : Faulty φ pos s e) :
    scan (φ := φ) pos s = .error e := by
  cases h with
  | @stray s h =>
      rw [scan]
      rintro cs rfl
      exact h rfl
  | @unclosed s ho hc =>
      have hd : s.dropWhile staysInside = [] :=
        List.dropWhile_eq_nil_iff.mpr (forall_ne_of_not_mem hc)
      rw [scan]
      · split
        · rfl
        · next h => rw [hd] at h; cases h
      · rintro cs rfl
        exact ho rfl
  | unknown ho hc hn => rw [scan_placeholder ho hc, hn]

/-- What is left of a text in front of its first `}`, and the `}`. -/
theorem eq_append_of_dropWhile {cs rest : List Char} {d : Char}
    (h : cs.dropWhile staysInside = d :: rest) :
    cs = cs.takeWhile staysInside ++ '}' :: rest ∧ '}' ∉ cs.takeWhile staysInside := by
  have hd : d = '}' := by
    have hs := List.head?_dropWhile_not staysInside cs
    rw [h] at hs
    simpa [staysInside] using hs
  constructor
  · conv_lhs => rw [← List.takeWhile_append_dropWhile (p := staysInside) (l := cs), h, hd]
  · intro hm
    simpa [staysInside] using List.mem_takeWhile_imp hm

/-- The marks at the front of a text, and what follows them: nothing, or a fault. -/
def Splits (φ : Type) {β : Type} [Placeholder φ β] (s : List Char) : Prop :=
  ∃ u v ms, s = u ++ v ∧ Reads (φ := φ) u ms ∧ (v = [] ∨ ∀ pos, ∃ e, Faulty φ pos v e)

theorem Splits.cons {w s : List Char} {m : Mark φ} (hm : Denotes w m) (h : Splits φ s) :
    Splits φ (w ++ s) := by
  obtain ⟨u, v, ms, rfl, hu, hv⟩ := h
  exact ⟨w ++ u, v, m :: ms, (List.append_assoc w u v).symm, .cons hm hu, hv⟩

theorem Splits.of_faulty {s : List Char} (h : ∀ pos, ∃ e, Faulty φ pos s e) : Splits φ s :=
  ⟨[], s, [], rfl, .nil, .inr h⟩

/-- **A text spells marks up to its end or its first fault.** -/
theorem splits (s : List Char) : Splits φ s := by
  have head? {c : Char} {cs : List Char} (h : ∀ cs', cs = c :: cs' → False) :
      cs.head? ≠ some c := by
    intro e
    obtain ⟨cs', rfl⟩ := List.head?_eq_some_iff.mp e
    exact h cs' rfl
  fun_induction scan (φ := φ) 0 s with
  | case1 => exact ⟨[], [], [], rfl, .nil, .inl rfl⟩
  | case2 _ cs ih => exact .cons .opening ih
  | case3 _ cs ih => exact .cons .closing ih
  | case4 _ cs h => exact .of_faulty fun pos => ⟨_, .stray (head? h)⟩
  | case5 _ cs h hd =>
      have hc : '}' ∉ cs := fun hm => by
        simpa [staysInside] using List.dropWhile_eq_nil_iff.mp hd _ hm
      exact .of_faulty fun pos => ⟨_, .unclosed (head? h) hc⟩
  | case6 _ cs h d rest hd name hn =>
      obtain ⟨e, hc⟩ := eq_append_of_dropWhile hd
      have ho : (cs.takeWhile staysInside).head? ≠ some '{' := fun hm => head? h (by rw [e]; simp [hm])
      rw [e]
      exact .of_faulty fun pos => ⟨_, .unknown ho hc hn⟩
  | case7 _ cs h d rest hd name f hf ih =>
      obtain ⟨e, hc⟩ := eq_append_of_dropWhile hd
      have ho : (cs.takeWhile staysInside).head? ≠ some '{' := fun hm => head? h (by rw [e]; simp [hm])
      have hs := ih.cons (.field ho hc hf)
      rw [e]
      simpa using hs
  | case8 _ c cs _ _ hc ho ih => exact .cons (.char ho hc) ih

theorem scan_eq_ok {pos : Nat} {s : List Char} {ms : List (Mark φ)} :
    scan pos s = .ok ms ↔ Reads s ms := by
  have ok {u : List Char} {ms : List (Mark φ)} (hu : Reads u ms) : scan pos u = .ok ms := by
    have h := hu.scan_append pos []
    rw [List.append_nil, scan] at h
    simpa [Except.map] using h
  refine ⟨fun h => ?_, ok⟩
  obtain ⟨u, v, ms', rfl, hu, rfl | hv⟩ := splits (φ := φ) s
  · rw [List.append_nil] at h ⊢
    rw [ok hu] at h
    cases h
    exact hu
  · obtain ⟨e, hv⟩ := hv (pos + byteLength u)
    rw [hu.scan_append, hv.scan_eq] at h
    cases h

/-- **A text is refused at its first fault**, after the marks that stand before it. -/
theorem scan_eq_error {pos : Nat} {s : List Char} {e : TemplateError} :
    scan (φ := φ) pos s = .error e ↔
      ∃ u v ms, s = u ++ v ∧ Reads (φ := φ) u ms ∧ Faulty φ (pos + byteLength u) v e := by
  constructor
  · intro h
    obtain ⟨u, v, ms, rfl, hu, rfl | hv⟩ := splits (φ := φ) s
    · rw [List.append_nil, scan_eq_ok.mpr hu] at h
      cases h
    · obtain ⟨e', hv⟩ := hv (pos + byteLength u)
      rw [hu.scan_append, hv.scan_eq] at h
      cases h
      exact ⟨u, v, ms, rfl, hu, hv⟩
  · rintro ⟨u, v, ms, rfl, hu, hv⟩
    rw [hu.scan_append, hv.scan_eq]
    rfl

/-! ### Seams -/

theorem Reads.append {s s' : List Char} {ms ms' : List (Mark φ)} (h : Reads s ms)
    (h' : Reads s' ms') : Reads (s ++ s') (ms ++ ms') := by
  induction h with
  | nil => exact h'
  | cons hm _ ih =>
      rw [List.append_assoc]
      exact .cons hm ih

theorem Faulty.shift {pos : Nat} {s : List Char} {e : TemplateError} (h : Faulty φ pos s e)
    (n : Nat) : Faulty φ (n + pos) s (e.shift n) := by
  cases h with
  | stray h => exact .stray h
  | unclosed ho hc => exact .unclosed ho hc
  | unknown ho hc hn => exact .unknown ho hc hn

/-- A fault is a brace, and its place is the one reported. -/
theorem Faulty.exists_cons {pos : Nat} {s : List Char} {e : TemplateError} (h : Faulty φ pos s e) :
    e.position = pos ∧ ∃ rest, s = e.brace :: rest := by
  cases h with
  | stray _ => exact ⟨rfl, _, rfl⟩
  | unclosed _ _ => exact ⟨rfl, _, rfl⟩
  | unknown _ _ _ => exact ⟨rfl, _, rfl⟩

theorem compile_eq_ok {source : String} {t : Template φ} :
    compile source = .ok t ↔ ∃ ms, Reads source.toList ms ∧ ⟨fuse ms⟩ = t := by
  simp only [compile, map_eq_ok, scan_eq_ok]

theorem compile_eq_error {source : String} {e : TemplateError} :
    compile (φ := φ) source = .error e ↔
      ∃ u v ms, source.toList = u ++ v ∧ Reads (φ := φ) u ms ∧ Faulty φ (byteLength u) v e := by
  simp only [compile, map_eq_error, scan_eq_error, Nat.zero_add]

theorem expand_fuse (ms : List (Mark φ)) (b : β) :
    (⟨fuse ms⟩ : Template φ).expand b = String.ofList (ms.flatMap (expandMark b)) := by
  rw [expand, flatMap_expandSegment, flatMap_marks_fuse]

end Template

/-- The byte at which a brace stands is the brace. -/
theorem TemplateError.getElem?_bytes_brace (e : TemplateError) (u v : List Char) :
    (bytes (u ++ e.brace :: v))[byteLength u]? = some e.brace.toUInt8 := by
  have hb : String.utf8EncodeChar e.brace = [e.brace.toUInt8] := by
    cases e <;> rfl
  rw [bytes_append, bytes_cons, hb, ← length_bytes, List.getElem?_append_right (Nat.le_refl _),
    Nat.sub_self]
  rfl

namespace Template

variable {φ β : Type} [Placeholder φ β]

/-- **Templates are compiled part by part, and errors are placed exactly.**  After a text that
compiles, a text that compiles gives the two expansions one after the other, and a text that does
not gives its own error, moved on by the bytes before it.  The place of an error is the offset of a
character: the brace that is at fault, and the text before it compiles. -/
theorem compile_seams (φ : Type) {β : Type} [Placeholder φ β] :
    (∀ (s₁ s₂ : String) (t₁ : Template φ), compile s₁ = .ok t₁ →
      (∀ t₂ : Template φ, compile s₂ = .ok t₂ →
        ∃ t : Template φ, compile (s₁ ++ s₂) = .ok t ∧
          ∀ b : β, t.expand b = t₁.expand b ++ t₂.expand b) ∧
      ∀ e, compile (φ := φ) s₂ = .error e →
        compile (φ := φ) (s₁ ++ s₂) = .error (e.shift (byteLength s₁.toList))) ∧
    ∀ (s : String) (e : TemplateError), compile (φ := φ) s = .error e →
      (∃ u v, s.toList = u ++ e.brace :: v ∧ byteLength u = e.position ∧
        ∃ t : Template φ, compile (String.ofList u) = .ok t) ∧
      (bytes s.toList)[e.position]? = some e.brace.toUInt8 := by
  refine ⟨fun s₁ s₂ t₁ h₁ => ?_, fun s e h => ?_⟩
  · obtain ⟨ms₁, hr, rfl⟩ := compile_eq_ok.mp h₁
    refine ⟨fun t₂ h₂ => ?_, fun e h₂ => ?_⟩
    · obtain ⟨ms₂, hr', rfl⟩ := compile_eq_ok.mp h₂
      refine ⟨⟨fuse (ms₁ ++ ms₂)⟩, compile_eq_ok.mpr ⟨_, ?_, rfl⟩, fun b => ?_⟩
      · rw [String.toList_append]
        exact hr.append hr'
      · rw [expand_fuse, expand_fuse, expand_fuse, List.flatMap_append, String.ofList_append]
    · obtain ⟨u, v, ms, hs, hu, hv⟩ := compile_eq_error.mp h₂
      refine compile_eq_error.mpr ⟨s₁.toList ++ u, v, ms₁ ++ ms, ?_, hr.append hu, ?_⟩
      · rw [String.toList_append, hs, List.append_assoc]
      · rw [byteLength_append]
        exact hv.shift _
  · obtain ⟨u, v, ms, hs, hu, hv⟩ := compile_eq_error.mp h
    obtain ⟨hp, rest, rfl⟩ := hv.exists_cons
    refine ⟨⟨u, rest, hs, hp.symm, ⟨fuse ms⟩, compile_eq_ok.mpr ⟨ms, ?_, rfl⟩⟩, ?_⟩
    · rwa [String.toList_ofList]
    · rw [hs, hp]
      exact e.getElem?_bytes_brace u rest

/-- Braces on both sides of the seam and characters of more than one byte: two closing braces after a
placeholder are one, a single one is astray, and a name with a brace in it is unknown. -/
theorem compile_seams_braces :
    let s₁ := "é\x7b\x7b\x7b args \x7d"
    let t₁ : Template InvokeField := ⟨[.literal ['é', '{'], .field .args]⟩
    let t₂ : Template InvokeField := ⟨[.literal ['}', 'ß']]⟩
    compile s₁ = .ok t₁ ∧ compile "\x7d\x7dß" = .ok t₂ ∧
      (∃ t : Template InvokeField, compile (s₁ ++ "\x7d\x7dß") = .ok t ∧
        ∀ b, t.expand b = t₁.expand b ++ t₂.expand b) ∧
      compile (φ := InvokeField) "ß\x7b \x7bé \x7d" = .error (.unknownPlaceholder "\x7bé" 2) ∧
      compile (φ := InvokeField) (s₁ ++ "ß\x7b \x7bé \x7d") =
        .error (.unknownPlaceholder "\x7bé" 14) ∧
      compile (φ := InvokeField) (s₁ ++ "\x7d") = .error (.strayClose 12) ∧
      ∃ u v, (s₁ ++ "\x7d").toList = u ++ '}' :: v ∧ byteLength u = 12 ∧
        ∃ t : Template InvokeField, compile (String.ofList u) = .ok t := by
  intro s₁ t₁ t₂
  obtain ⟨hjoin, hplace⟩ := compile_seams InvokeField
  have h₁ : compile s₁ = .ok t₁ := by decide +kernel
  have h₂ : compile "\x7d\x7dß" = .ok t₂ := by decide +kernel
  have hu : compile (φ := InvokeField) "ß\x7b \x7bé \x7d" =
      .error (.unknownPlaceholder "\x7bé" 2) := by decide +kernel
  have hs : compile (φ := InvokeField) "\x7d" = .error (.strayClose 0) := by decide +kernel
  have hl : byteLength s₁.toList = 12 := by decide +kernel
  have hunknown := (hjoin s₁ _ t₁ h₁).2 _ hu
  have hstray := (hjoin s₁ _ t₁ h₁).2 _ hs
  rw [hl] at hunknown hstray
  exact ⟨h₁, h₂, (hjoin s₁ _ t₁ h₁).1 t₂ h₂, hu, hunknown, hstray, (hplace _ _ hstray).1⟩

end Template

end SceneScript
