import SceneScript.Proofs.Comment.Scan

/-!
# Proofs — Comment — taking comments out twice

What is left of a script holds no comment: cutting it gives the same kept pieces again, and a
single space where a block comment stood (`Cuts.residue`).  So taking comments out twice leaves
what taking them out once does (`text_strip_text`).

A quoted run is cut the same way whatever follows it.  A character that opened nothing has to go
on opening nothing, though what follows it has changed, and that is three facts about what is left
of a text:
* it starts as the text does, unless a comment started there (`Cuts.head?_residue`);
* a quote that was guarded in the text is guarded in it (`Cuts.guarded_residue`);
* it holds no `*/` if the text holds none (`Cuts.unclosed_residue`).
-/

namespace SceneScript

open Text

namespace Cuts

variable {s : List Char} {ps : List Piece}

theorem head?_residue (h : Cuts s ps) (hs : s.head? ≠ some '/') :
    (ps.flatMap Piece.residue).head? = s.head? := by
  cases h with
  | nil => rfl
  | cons hp _ =>
      cases hp with
      | quoted _ _ _ => rfl
      | plain _ => rfl
      | line _ _ => exact absurd rfl hs
      | block _ => exact absurd rfl hs

/-- A guarded quote stays guarded: a comment ends before a line end or with a `/`, so the
character before a quote is never taken away. -/
theorem guarded_residue {q : Char} (hq : isQuote q) (h : Cuts s ps) :
    ∀ {a : Char}, Guarded q (a :: s) → Guarded q (a :: ps.flatMap Piece.residue) := by
  induction h with
  | nil => exact id
  | @cons p rest ps hp h ih =>
      intro a hg
      obtain ⟨b, hb⟩ : ∃ b, (a :: p.source).getLast? = some b := ⟨_, List.getLast?_cons⟩
      obtain ⟨hg₁, hg₂⟩ := (guarded_append hb).mp hg
      have ih := ih hg₂
      rw [List.flatMap_cons]
      cases hp with
      | quoted _ _ _ => exact (guarded_append hb).mpr ⟨hg₁, ih⟩
      | plain _ => exact (guarded_append hb).mpr ⟨hg₁, ih⟩
      | line _ hr =>
          -- what follows is a line end or nothing, and no quote
          have hs : rest.head? ≠ some '/' := fun e => by cases hr '/' e
          change Guarded q (a :: ps.flatMap Piece.residue)
          refine List.IsChain.cons (List.IsChain.tail ih) fun y hy => ?_
          rw [h.head?_residue hs] at hy
          rintro rfl
          have hy := hr y hy
          rcases isQuote_iff.mp hq with rfl | rfl <;> cases hy
      | @block body _ _ =>
          have e : a :: (Piece.block body).source = a :: '/' :: '*' :: (body ++ ['*']) ++ ['/'] := by
            simp [Piece.source]
          rw [e, List.getLast?_concat] at hb
          cases hb
          have hq' : ' ' ≠ q := by rintro rfl; cases hq
          refine guarded_cons_cons.mpr ⟨fun e => absurd e hq', List.IsChain.imp_head ?_ ih⟩
          intro z hz e
          cases hz e

theorem unclosed_residue (h : Cuts s ps) (hu : Unclosed s) :
    Unclosed (ps.flatMap Piece.residue) := by
  induction h with
  | nil => exact .nil
  | @cons p rest ps hp h ih =>
      obtain ⟨hu₁, hu₂, hj⟩ := List.isChain_append.mp hu
      have ih := ih hu₂
      rw [List.flatMap_cons]
      have kept : ∀ {run}, p = .kept run → Unclosed (p.residue ++ ps.flatMap Piece.residue) := by
        rintro run rfl
        refine List.IsChain.append hu₁ ih fun x hx y hy => ?_
        -- a `/` at the start of what follows may go with its comment, but no `*` stands before it
        by_cases hs : rest.head? = some '/'
        · exact fun e => hj x hx '/' hs ⟨e.1, rfl⟩
        · rw [h.head?_residue hs] at hy
          exact hj x hx y hy
      cases hp with
      | quoted _ _ _ => exact kept rfl
      | plain _ => exact kept rfl
      | line _ _ => exact ih
      | @block body _ _ => exact absurd hu₁ (not_unclosed_close ('/' :: '*' :: body) [])

end Cuts

namespace Piece

/-- A character that opens nothing opens nothing before what is left of what follows it. -/
theorem Plain.residue {c : Char} {rest : List Char} {ps : List Piece} (hc : Plain c rest)
    (h : Cuts rest ps) : Plain c (ps.flatMap Piece.residue) where
  quote hq := h.guarded_residue hq (hc.quote hq)
  line e := by rw [h.head?_residue (hc.line e)]; exact hc.line e
  block := by
    rintro rfl r e
    have hr : rest.head? = some '*' := by rw [← h.head?_residue (hc.line rfl), e]; rfl
    obtain ⟨r', rfl⟩ := List.head?_eq_some_iff.mp hr
    -- the `*` is a piece of its own, and what is left of the rest follows it
    rw [← cuts_iff.mp h, pieces_of_plain (.of_ne rfl (by decide) r')] at e
    cases e
    exact (cuts_pieces r').unclosed_residue (hc.block rfl r' rfl)

/-- What a piece is once comments are out. -/
def settled : Piece → Option Piece
  | .kept run => some (.kept run)
  | .line _   => none
  | .block _  => some (.kept [' '])

theorem flatMap_residue_settled (ps : List Piece) :
    (ps.filterMap settled).flatMap residue = ps.flatMap residue := by
  induction ps with
  | nil => rfl
  | cons p ps ih => cases p <;> simp [List.filterMap_cons, settled, residue, ih]

end Piece

/-- **What is left holds no comment**: it is cut into what the pieces of the script have become. -/
theorem Cuts.residue {s : List Char} {ps : List Piece} (h : Cuts s ps) :
    Cuts (ps.flatMap Piece.residue) (ps.filterMap Piece.settled) := by
  induction h with
  | nil => exact .nil
  | cons hp h ih =>
      cases hp with
      | quoted hq hg hl => exact .cons (.quoted hq hg hl) ih
      | plain hc => exact .cons (.plain (hc.residue h)) ih
      | line _ _ => exact ih
      | block _ => exact .cons (.plain (.of_ne rfl (by decide) _)) ih

/-- **Taking comments out twice leaves what taking them out once does.** -/
theorem text_strip_text (source : String) :
    (strip (strip source).text).text = (strip source).text := by
  have h := cuts_iff.mp (cuts_pieces source.toList).residue
  have hs : (strip source).text.toList = _ := residue_strip source
  have ht : (strip (strip source).text).text.toList = _ := residue_strip (strip source).text
  rw [hs, h, Piece.flatMap_residue_settled, ← hs] at ht
  exact String.toList_inj.mp ht

end SceneScript
