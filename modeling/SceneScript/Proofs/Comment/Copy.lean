import SceneScript.Proofs.Comment.Scan

/-!
# Proofs — Comment — copied characters

A character of what is left of a script that is not the space of a block comment was copied from
the script (`Copied`), and `place` says from where: the character itself stands at that place
(`exists_source_of_residue`), on the line that is reported for it (`sourceLine_kept`).
-/

namespace SceneScript

open Text

/-- Byte `out` of what the pieces leave behind is copied from byte `src` of their text: both are
the same byte of a kept run. -/
def Copied (ps : List Piece) (out src : Nat) : Prop :=
  ∃ before run after k, ps = before ++ .kept run :: after ∧ k < byteLength run ∧
    out = byteLength (before.flatMap Piece.residue) + k ∧
    src = byteLength (before.flatMap Piece.source) + k

/-- The line reported for a byte that is left. -/
theorem sourceLine_eq {source : String} {n : Nat} (hn : n < byteLength (strip source).residue) :
    (strip source).sourceLine n =
      1 + newlinesBefore (place (pieces source.toList) n)
        ((pieces source.toList).flatMap Piece.source) := by
  rw [sourceLine_eq_newlinesBefore, sourceOffset_eq_place hn, flatMap_source_pieces]

/-! ### The place of a character -/

/-- A character that is not a space belongs to a kept run. -/
theorem exists_kept_of_residue {ps : List Piece} {u v : List Char} {c : Char} (hc : c ≠ ' ')
    (h : ps.flatMap Piece.residue = u ++ c :: v) :
    ∃ before r₁ r₂ after, ps = before ++ .kept (r₁ ++ c :: r₂) :: after ∧
      u = before.flatMap Piece.residue ++ r₁ := by
  induction ps generalizing u with
  | nil => simp at h
  | cons p ps ih =>
      rw [List.flatMap_cons] at h
      rcases List.append_eq_append_iff.mp h with ⟨u', rfl, h'⟩ | ⟨r, hr, h'⟩
      · obtain ⟨before, r₁, r₂, after, rfl, rfl⟩ := ih h'
        exact ⟨p :: before, r₁, r₂, after, rfl, by simp⟩
      · -- the character is the first one of what remains of `p`
        cases r with
        | nil =>
            obtain ⟨before, r₁, r₂, after, rfl, e⟩ := ih (u := []) h'.symm
            refine ⟨p :: before, r₁, r₂, after, rfl, ?_⟩
            rw [List.flatMap_cons, List.append_assoc, ← e, hr, List.append_nil, List.append_nil]
        | cons d r =>
            cases h'
            cases p with
            | kept run =>
                obtain rfl : run = u ++ c :: r := hr
                exact ⟨[], u, r, ps, rfl, rfl⟩
            | line body => simp [Piece.residue] at hr
            | block body =>
                -- a space is left here, and nothing else
                have hm : c ∈ (Piece.block body).residue := by rw [hr]; simp
                exact absurd (List.mem_singleton.mp hm) hc

/-- The line of a character of a kept run. -/
theorem sourceLine_kept {source : String} {before after : List Piece} {r₁ r₂ : List Char} {c : Char}
    (h : pieces source.toList = before ++ .kept (r₁ ++ c :: r₂) :: after) :
    (strip source).sourceLine (byteLength (before.flatMap Piece.residue ++ r₁)) =
      1 + (before.flatMap Piece.source ++ r₁).count '\n' := by
  have hk := byteLength_lt_append_cons r₁ c r₂
  have hn : byteLength (before.flatMap Piece.residue ++ r₁) <
      byteLength (strip source).residue := by
    rw [residue_strip, h, List.flatMap_append, List.flatMap_cons, byteLength_append,
      byteLength_append, byteLength_append, Piece.residue]
    omega
  have hr := newlinesBefore_append r₁ (c :: r₂ ++ after.flatMap Piece.source) 0
  rw [sourceLine_eq hn, h, byteLength_append, newlinesBefore_place_right, place, Piece.residue,
    if_pos hk, List.flatMap_cons, Piece.source, List.append_assoc, ← Nat.add_zero (byteLength r₁),
    hr, List.count_append]
  rfl

/-- **A copied character stands where `place` says.** -/
theorem exists_source_of_residue {ps : List Piece} {u v : List Char} {c : Char} (hc : c ≠ ' ')
    (h : ps.flatMap Piece.residue = u ++ c :: v) :
    Copied ps (byteLength u) (place ps (byteLength u)) ∧
      ∃ x y, ps.flatMap Piece.source = x ++ c :: y ∧ byteLength x = place ps (byteLength u) := by
  obtain ⟨before, r₁, r₂, after, rfl, rfl⟩ := exists_kept_of_residue hc h
  have hk := byteLength_lt_append_cons r₁ c r₂
  have hp : place (before ++ .kept (r₁ ++ c :: r₂) :: after)
      (byteLength (before.flatMap Piece.residue ++ r₁)) =
      byteLength (before.flatMap Piece.source) + byteLength r₁ := by
    rw [byteLength_append, place_append_right, place, Piece.residue, if_pos hk]
  rw [hp]
  refine ⟨⟨before, _, after, byteLength r₁, rfl, hk, byteLength_append _ _, rfl⟩,
    before.flatMap Piece.source ++ r₁, r₂ ++ after.flatMap Piece.source, ?_, byteLength_append _ _⟩
  simp [Piece.source]

end SceneScript
