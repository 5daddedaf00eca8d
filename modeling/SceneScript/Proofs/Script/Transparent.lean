import SceneScript.Proofs.Comment.Seam
import SceneScript.Proofs.Script.Refusal

/-!
# Proofs — Script — comments say nothing

A comment that stands after a closed text can be taken out, or a space put in its place, and the
script says the same (`comments_transparent`).

Both cases are one: two scripts are cut into the same pieces but for a part in the middle, and that
part leaves the same blanks behind, or nothing (`Differ`).  Then the same text is left of both, so
they say the same or are refused at the same byte of it (`Differ.agree`).  That byte is not one of
the blanks in the middle, so it was copied from the pieces before it, where both scripts are alike
(`Differ.sourceLine_front`), or from those after it, where the lines are off by the line feeds in
the middle (`Differ.sourceLine_back`).
-/

namespace SceneScript

open Text Script

namespace Script

/-- The statements that are read do not depend on where the lines came from, nor on the counters. -/
theorem readRows_eq_ok_congr {s : Stripped} {p p' : Progress} {rs : List Row} {S : List Statement}
    (h : (readRows s p rs).1 = .ok S) (s' : Stripped) (hp : p'.statements = p.statements) :
    (readRows s' p' rs).1 = .ok S := by
  induction rs generalizing p p' with
  | nil => rwa [readRows, hp]
  | cons r rs ih =>
      rw [readRows] at h ⊢
      cases hr : Line.read r.text with
      | error e => rw [hr] at h; cases h
      | ok o =>
          rw [hr] at h
          cases o with
          | none => exact ih h hp
          | some st => exact ih h (congrArg (·.push st) hp)

end Script

/-- The scripts `s₁` and `s₂` are cut alike, but for `mid₁` here and `mid₂` there, and both leave
the same blanks behind. -/
structure Differ (s₁ s₂ : String) (front mid₁ mid₂ back : List Piece) : Prop where
  pieces₁ : pieces s₁.toList = front ++ (mid₁ ++ back)
  pieces₂ : pieces s₂.toList = front ++ (mid₂ ++ back)
  residue : mid₁.flatMap Piece.residue = mid₂.flatMap Piece.residue
  blank   : ∀ c ∈ mid₁.flatMap Piece.residue, isBlank c

/-- A character that is not in the middle part stands before it, or after it. -/
theorem byteLength_lt_or_eq {x mid y u v : List Char} {c : Char} (hc : c ∉ mid)
    (h : x ++ (mid ++ y) = u ++ c :: v) :
    byteLength u < byteLength x ∨ ∃ k, byteLength u = byteLength x + (byteLength mid + k) := by
  rcases List.append_eq_append_iff.mp h with ⟨u', rfl, h'⟩ | ⟨x', rfl, h'⟩
  · -- what precedes the character reaches into the middle part, and so beyond its end
    rcases List.append_eq_append_iff.mp h' with ⟨y', rfl, -⟩ | ⟨m', rfl, e⟩
    · exact .inr ⟨byteLength y', by simp⟩
    · cases m' with
      | nil => exact .inr ⟨0, by simp⟩
      | cons d m' => cases e; exact absurd (List.mem_append_right u' List.mem_cons_self) hc
  · cases x' with
    | nil =>
        cases mid with
        | nil => exact .inr ⟨0, by simp⟩
        | cons d mid => cases h'; exact absurd List.mem_cons_self hc
    | cons d x' => exact .inl (byteLength_lt_append_cons u d x')

namespace Differ

variable {s₁ s₂ : String} {front mid₁ mid₂ back : List Piece}

theorem symm (h : Differ s₁ s₂ front mid₁ mid₂ back) : Differ s₂ s₁ front mid₂ mid₁ back :=
  ⟨h.pieces₂, h.pieces₁, h.residue.symm, h.residue ▸ h.blank⟩

theorem residue_eq (h : Differ s₁ s₂ front mid₁ mid₂ back) :
    (strip s₁).residue = front.flatMap Piece.residue ++
      (mid₁.flatMap Piece.residue ++ back.flatMap Piece.residue) := by
  rw [SceneScript.residue_strip, h.pieces₁, List.flatMap_append, List.flatMap_append]

theorem residue_strip (h : Differ s₁ s₂ front mid₁ mid₂ back) :
    (strip s₂).residue = (strip s₁).residue := by
  rw [h.residue_eq, h.symm.residue_eq, h.residue]

/-- The line of a byte from before the middle. -/
theorem sourceLine_front (h : Differ s₁ s₂ front mid₁ mid₂ back) {n : Nat}
    (hn : n < byteLength (front.flatMap Piece.residue)) :
    (strip s₁).sourceLine n =
      1 + newlinesBefore (place front n) (front.flatMap Piece.source) := by
  have hlt : n < byteLength (strip s₁).residue := by
    rw [h.residue_eq, byteLength_append]
    omega
  rw [sourceLine_eq hlt, h.pieces₁, newlinesBefore_place_left hn]

/-- The line of a byte from after the middle. -/
theorem sourceLine_back (h : Differ s₁ s₂ front mid₁ mid₂ back) {n k : Nat}
    (hn : n < byteLength (strip s₁).residue)
    (hk : n = byteLength (front.flatMap Piece.residue) +
      (byteLength (mid₁.flatMap Piece.residue) + k)) :
    (strip s₁).sourceLine n =
      1 + ((front.flatMap Piece.source).count '\n' + ((mid₁.flatMap Piece.source).count '\n' +
        newlinesBefore (place back k) (back.flatMap Piece.source))) := by
  rw [sourceLine_eq hn, h.pieces₁, hk, newlinesBefore_place_right, newlinesBefore_place_right]

/-- **Scripts that differ in what leaves blanks say the same**, or are refused at the same byte of
what is left: one that was copied from before the middle, or from after it. -/
theorem agree (h : Differ s₁ s₂ front mid₁ mid₂ back) :
    (∃ S, (normalize s₁).value = .ok S ∧ (normalize s₂).value = .ok S) ∨
    ∃ e₁ e₂ start src, (normalize s₁).value = .error e₁ ∧ (normalize s₂).value = .error e₂ ∧
      FirstRefused ((strip s₁).residue.splitOn '\n') start ∧ Copied (pieces s₁.toList) start src ∧
      ((src < byteLength (front.flatMap Piece.source) ∧ e₁.line = e₂.line) ∨
        (byteLength (front.flatMap Piece.source) + byteLength (mid₁.flatMap Piece.source) ≤ src ∧
          e₁.line + (mid₂.flatMap Piece.source).count '\n' =
            e₂.line + (mid₁.flatMap Piece.source).count '\n')) := by
  cases hv : (normalize s₁).value with
  | ok S =>
      refine .inl ⟨S, rfl, ?_⟩
      rw [value_normalize] at hv ⊢
      rw [h.residue_strip]
      exact readRows_eq_ok_congr hv (strip s₂) rfl
  | error e =>
      obtain ⟨start, hf, rfl⟩ := normalize_eq_error.mp hv
      have hv₂ : (normalize s₂).value = .error ⟨(strip s₂).sourceLine start⟩ :=
        normalize_eq_error.mpr ⟨start, h.residue_strip ▸ hf, rfl⟩
      obtain ⟨u, c, v, hu, rfl, hc⟩ := hf.exists_char
      have hne : c ≠ ' ' := by rintro rfl; cases hc
      have hmid : c ∉ mid₁.flatMap Piece.residue := fun hm => by
        rw [h.blank c hm] at hc
        cases hc
      have hcopy := exists_source_of_residue hne ((SceneScript.residue_strip s₁).symm.trans hu)
      refine .inr ⟨_, _, byteLength u, _, rfl, hv₂, hf, hcopy.1, ?_⟩
      have hlt : byteLength u < byteLength (strip s₁).residue :=
        hu ▸ byteLength_lt_append_cons u c v
      rcases byteLength_lt_or_eq hmid (h.residue_eq.symm.trans hu) with hn | ⟨k, hk⟩
      · left
        rw [h.sourceLine_front hn, h.symm.sourceLine_front hn, h.pieces₁, place_append_left hn]
        exact ⟨place_lt hn, rfl⟩
      · right
        have hl₂ := h.symm.sourceLine_back (h.residue_strip ▸ hlt) (h.residue ▸ hk)
        rw [h.sourceLine_back hlt hk, hl₂, h.pieces₁, hk, place_append_right, place_append_right]
        dsimp only
        constructor <;> omega

end Differ

/-! ### The two kinds of comments -/

section Comments

variable {a b : String}

theorem differ_line (ha : Closed (pieces a.toList)) (hb : ∀ d ∈ b.toList, d ≠ '\r' ∧ d ≠ '\n')
    (c : String) :
    Differ (a ++ "//" ++ b ++ "\n" ++ c) (a ++ "\n" ++ c) (pieces a.toList) [.line b.toList] []
      (pieces ('\n' :: c.toList)) where
  pieces₁ := by
    have hl : Piece.Stands (.line b.toList) ('\n' :: c.toList) :=
      .line (fun d hd => by simp [staysOnLine, hb d hd]) (by simp [staysOnLine])
    have hp := cuts_iff.mp (.cons hl (cuts_pieces ('\n' :: c.toList)))
    have h := ha.cutsInto ((Piece.line b.toList).source ++ '\n' :: c.toList)
    rw [hp] at h
    simpa [Piece.source] using h
  pieces₂ := by
    have h := ha.cutsInto ('\n' :: c.toList)
    simpa using h
  residue := rfl
  blank := nofun

theorem differ_block (ha : Closed (pieces a.toList)) (hb : Unclosed b.toList) (c : String) :
    Differ (a ++ "/*" ++ b ++ "*/" ++ c) (a ++ " " ++ c) (pieces a.toList) [.block b.toList]
      [.kept [' ']] (pieces c.toList) where
  pieces₁ := by
    have h := (ha.cutsInto.append (.block hb)) c.toList
    simpa [Piece.source] using h
  pieces₂ := by
    have h := (ha.cutsInto.append (.char (c := ' ') rfl (by decide))) c.toList
    simpa using h
  residue := rfl
  blank := by simp [Piece.residue, show isBlank ' ' = true from rfl]

end Comments

/-- **Comments say nothing.**  After a closed text, a line comment can be taken out of a script, and
the outcome is the same, the line of a refusal included.  A space can be put in the place of a block
comment: the script says the same, or is refused with and without it, and then on the same line if
what is refused starts before the comment, and further on by the line feeds in the comment if it
starts after it. -/
theorem comments_transparent {a : String} (ha : Closed (pieces a.toList)) (b c : String) :
    ((∀ d ∈ b.toList, d ≠ '\r' ∧ d ≠ '\n') →
      (normalize (a ++ "//" ++ b ++ "\n" ++ c)).value = (normalize (a ++ "\n" ++ c)).value) ∧
    (Unclosed b.toList →
      let s₁ := a ++ "/*" ++ b ++ "*/" ++ c
      let s₂ := a ++ " " ++ c
      (∃ S, (normalize s₁).value = .ok S ∧ (normalize s₂).value = .ok S) ∨
      ∃ e₁ e₂ start src, (normalize s₁).value = .error e₁ ∧ (normalize s₂).value = .error e₂ ∧
        FirstRefused ((strip s₁).text.toList.splitOn '\n') start ∧
        Copied (pieces s₁.toList) start src ∧
        ((src < byteLength a.toList ∧ e₁.line = e₂.line) ∨
          (byteLength (a ++ "/*" ++ b ++ "*/").toList ≤ src ∧
            e₁.line = e₂.line + b.toList.count '\n'))) := by
  constructor
  · intro hb
    have hn : (Piece.line b.toList).source.count '\n' = 0 := by
      rw [List.count_eq_zero]
      simpa [Piece.source] using fun h => (hb _ h).2 rfl
    rcases (differ_line ha hb c).agree with ⟨S, h₁, h₂⟩ | ⟨e₁, e₂, _, _, h₁, h₂, -, -, hl⟩
    · rw [h₁, h₂]
    · have hl : e₁.line = e₂.line := by
        rcases hl with hl | hl
        · exact hl.2
        · simpa [hn] using hl.2
      rw [h₁, h₂, show e₁ = e₂ from congrArg SyntaxError.mk hl]
  · intro hb s₁ s₂
    have hc : (Piece.block b.toList).source.count '\n' = b.toList.count '\n' := by
      simp [Piece.source]
    have hlen : byteLength (a ++ "/*" ++ b ++ "*/").toList =
        byteLength a.toList + byteLength (Piece.block b.toList).source := by
      simp [Piece.source]
    have h := (differ_block ha hb c).agree
    rw [flatMap_source_pieces] at h
    rw [hlen]
    simpa [s₁, s₂, hc, Piece.source, Stripped.residue] using h

/-- Quotes and marks in both comments, and a quote without a partner on the line after them, which
is refused. -/
theorem comments_transparent_quotes :
    let a := "p -> q ('//')\n"
    let c := "r -> s (')"
    let s₁ := a ++ "/*" ++ "\nit's //" ++ "*/" ++ c
    Closed (pieces a.toList) ∧
      (normalize (a ++ "//" ++ "it's /*" ++ "\n" ++ c)).value = (normalize (a ++ "\n" ++ c)).value ∧
      (normalize s₁).value = .error ⟨3⟩ ∧ (normalize (a ++ " " ++ c)).value = .error ⟨2⟩ ∧
      ∃ start src, FirstRefused ((strip s₁).text.toList.splitOn '\n') start ∧
        Copied (pieces s₁.toList) start src ∧
        byteLength (a ++ "/*" ++ "\nit's //" ++ "*/").toList ≤ src := by
  intro a c s₁
  have ha : Closed (pieces a.toList) := by decide +kernel
  have h₁ : (normalize s₁).value = .error ⟨3⟩ := by decide +kernel
  have h₂ : (normalize (a ++ " " ++ c)).value = .error ⟨2⟩ := by decide +kernel
  refine ⟨ha, (comments_transparent ha "it's /*" c).1 (by simp), h₁, h₂, ?_⟩
  rcases (comments_transparent ha "\nit's //" c).2 (by unfold Unclosed; decide +kernel) with
    ⟨S, h, -⟩ | ⟨e₁, e₂, start, src, h, h', hf, hs, hl⟩
  · rw [h₁] at h
    cases h
  · rw [h₁] at h
    rw [h₂] at h'
    cases h
    cases h'
    rcases hl with ⟨-, hl⟩ | ⟨hl, -⟩
    · cases hl
    · exact ⟨start, src, hf, hs, hl⟩

end SceneScript
