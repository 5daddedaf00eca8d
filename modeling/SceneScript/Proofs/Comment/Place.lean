import SceneScript.Proofs.Comment.Cut
import SceneScript.Proofs.Text.Byte

/-!
# Proofs — Comment — places

Every byte of what is left of a script is a byte of a kept run, or the space that a block comment
left behind (`Comes`).  `place` walks over the pieces to say where it stood: each byte is sent to
where it came from (`comes_place`), and a later byte to a later place (`place_lt_place`).

Places go part by part: the pieces in front take up their residue on one side and their text on the
other (`place_append_left`, `place_append_right`), and so do the line feeds before a place
(`newlinesBefore_place_left`, `newlinesBefore_place_right`).
-/

namespace SceneScript

open Text

/-- Byte `out` of what the pieces leave behind comes from byte `src` of their text. -/
inductive Comes (ps : List Piece) (out src : Nat) : Prop where
  /-- It is byte `k` of a kept run. -/
  | kept (before : List Piece) (run : List Char) (after : List Piece) (k : Nat)
      (hps : ps = before ++ .kept run :: after) (hk : k < byteLength run)
      (hout : out = byteLength (before.flatMap Piece.residue) + k)
      (hsrc : src = byteLength (before.flatMap Piece.source) + k)
  /-- It is the space for a block comment that starts there. -/
  | space (before : List Piece) (body : List Char) (after : List Piece)
      (hps : ps = before ++ .block body :: after)
      (hout : out = byteLength (before.flatMap Piece.residue))
      (hsrc : src = byteLength (before.flatMap Piece.source))

/-- A piece in front moves both ends. -/
theorem Comes.cons {ps : List Piece} {out src : Nat} (p : Piece) (h : Comes ps out src) :
    Comes (p :: ps) (byteLength p.residue + out) (byteLength p.source + src) := by
  cases h with
  | kept before run after k hps hk hout hsrc =>
      subst hps hout hsrc
      exact .kept (p :: before) run after k rfl hk
        (by simp [Nat.add_assoc]) (by simp [Nat.add_assoc])
  | space before body after hps hout hsrc =>
      subst hps hout hsrc
      exact .space (p :: before) body after rfl (by simp) (by simp)

/-! ### Piece by piece -/

/-- Where byte `n` of what the pieces leave behind stood, found piece by piece. -/
def place : List Piece → Nat → Nat
  | [],      n => n
  | p :: ps, n =>
    if n < byteLength p.residue then n
    else byteLength p.source + place ps (n - byteLength p.residue)

theorem Piece.byteLength_residue_le (p : Piece) : byteLength p.residue ≤ byteLength p.source := by
  cases p with
  | kept run => exact Nat.le_refl _
  | line body => exact Nat.zero_le _
  | block body =>
      have h : byteLength [' '] ≤ byteLength ['/'] := by decide
      simp only [residue, source, byteLength_cons, byteLength_nil] at h ⊢
      omega

/-- **Every byte is sent to where it came from.** -/
theorem comes_place {ps : List Piece} {n : Nat} (hn : n < byteLength (ps.flatMap Piece.residue)) :
    Comes ps n (place ps n) := by
  induction ps generalizing n with
  | nil => cases hn
  | cons p ps ih =>
      rw [place]
      split
      · next h =>
          cases p with
          | kept run => exact .kept [] run ps n rfl h (by simp) (by simp)
          | line body => cases h
          | block body =>
              have h0 : n = 0 := Nat.lt_one_iff.mp h
              exact .space [] body ps rfl h0 h0
      · next h =>
          rw [List.flatMap_cons, byteLength_append] at hn
          have hc := (ih (n := n - byteLength p.residue) (by omega)).cons p
          rwa [Nat.add_sub_cancel' (Nat.le_of_not_lt h)] at hc

/-- **A later byte is sent to a later place.** -/
theorem place_lt_place {ps : List Piece} {i j : Nat} (hij : i < j)
    (hj : j < byteLength (ps.flatMap Piece.residue)) : place ps i < place ps j := by
  induction ps generalizing i j with
  | nil => exact hij
  | cons p ps ih =>
      have hp := p.byteLength_residue_le
      rw [List.flatMap_cons, byteLength_append] at hj
      rw [place, place]
      split
      · split
        · exact hij
        -- `i` is left by `p` and `j` by a later piece, and `p` leaves no more than it took up
        · omega
      · next hi =>
          rw [if_neg (by omega)]
          have := ih (i := i - byteLength p.residue) (j := j - byteLength p.residue)
            (by omega) (by omega)
          omega

/-! ### Part by part -/

theorem place_append_left {ps : List Piece} {n : Nat}
    (hn : n < byteLength (ps.flatMap Piece.residue)) (qs : List Piece) :
    place (ps ++ qs) n = place ps n := by
  induction ps generalizing n with
  | nil => cases hn
  | cons p ps ih =>
      rw [List.flatMap_cons, byteLength_append] at hn
      rw [List.cons_append, place, place]
      split
      · rfl
      · rw [ih (by omega)]

theorem place_append_right (ps qs : List Piece) (n : Nat) :
    place (ps ++ qs) (byteLength (ps.flatMap Piece.residue) + n) =
      byteLength (ps.flatMap Piece.source) + place qs n := by
  induction ps with
  | nil => simp
  | cons p ps ih =>
      rw [List.cons_append, place, List.flatMap_cons, List.flatMap_cons, byteLength_append,
        byteLength_append, if_neg (by omega), Nat.add_assoc, Nat.add_sub_cancel_left, ih,
        Nat.add_assoc]

theorem place_lt {ps : List Piece} {n : Nat} (hn : n < byteLength (ps.flatMap Piece.residue)) :
    place ps n < byteLength (ps.flatMap Piece.source) := by
  induction ps generalizing n with
  | nil => cases hn
  | cons p ps ih =>
      have hp := p.byteLength_residue_le
      rw [List.flatMap_cons, byteLength_append] at hn ⊢
      rw [place]
      split
      · omega
      · have := ih (n := n - byteLength p.residue) (by omega)
        omega

theorem newlinesBefore_place_left {ps : List Piece} {n : Nat}
    (hn : n < byteLength (ps.flatMap Piece.residue)) (qs : List Piece) :
    newlinesBefore (place (ps ++ qs) n) ((ps ++ qs).flatMap Piece.source) =
      newlinesBefore (place ps n) (ps.flatMap Piece.source) := by
  rw [place_append_left hn, List.flatMap_append,
    newlinesBefore_append_of_le (Nat.le_of_lt (place_lt hn))]

theorem newlinesBefore_place_right (ps qs : List Piece) (n : Nat) :
    newlinesBefore (place (ps ++ qs) (byteLength (ps.flatMap Piece.residue) + n))
        ((ps ++ qs).flatMap Piece.source) =
      (ps.flatMap Piece.source).count '\n' +
        newlinesBefore (place qs n) (qs.flatMap Piece.source) := by
  rw [place_append_right, List.flatMap_append, newlinesBefore_append]

end SceneScript
