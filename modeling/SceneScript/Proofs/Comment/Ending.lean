import SceneScript.Proofs.Comment.Copy
import SceneScript.Proofs.Text.Ending

/-!
# Proofs — Comment — line endings

A carriage return before every line feed of a script leaves its pieces as they are, but for the same
carriage returns inside of them; a line feed that is kept becomes two pieces (`Piece.crlf`,
`cuts_crlf`).  A line comment ends one character earlier than its line feed, where it leaves the
carriage return behind; a quote is guarded as before, and `*/` stands where it stood.

So what is left has carriage returns before its line feeds, and no other (`residue_strip_crlf`), and
a character of it that is not blank comes from the same line of the script (`sourceLine_crlf`).
-/

namespace SceneScript

open Text

theorem Unclosed.crlf {s : List Char} (h : Unclosed s) : Unclosed (crlf s) := by
  have hs : Unclosed (' ' :: s) := h.cons fun _ hc => absurd hc (by decide)
  exact Unclosed.tail (isChain_crlf (by simp) (by simp) hs)

theorem Text.Guarded.crlf {q a : Char} (hq : isQuote q) {s : List Char} (h : Guarded q (a :: s)) :
    Guarded q (a :: crlf s) := by
  have hr : '\r' ≠ q := by rintro rfl; cases hq
  have hn : '\n' ≠ q := by rintro rfl; cases hq
  exact isChain_crlf (fun _ e => absurd e hr) (fun e => absurd e hn) h

namespace Piece

/-- The pieces that a piece becomes. -/
def crlf : Piece → List Piece
  | .kept run   =>
    if run = ['\n'] then [.kept ['\r'], .kept ['\n']] else [.kept (Text.crlf run)]
  | .line body  => [.line (Text.crlf body)]
  | .block body => [.block (Text.crlf body)]

theorem flatMap_source_crlf (p : Piece) : p.crlf.flatMap source = Text.crlf p.source := by
  cases p with
  | kept run =>
      rw [crlf]
      split
      · next h => rw [h]; rfl
      · simp [source]
  | line body => simp [crlf, source, crlf_cons_of_ne]
  | block body => simp [crlf, source, crlf_cons_of_ne]

theorem flatMap_residue_crlf (p : Piece) : p.crlf.flatMap residue = Text.crlf p.residue := by
  cases p with
  | kept run =>
      rw [crlf]
      split
      · next h => rw [h]; rfl
      · simp [residue]
  | line body => rfl
  | block body => rfl

theorem crlf_kept {run : List Char} (h : run ≠ ['\n']) : (kept run).crlf = [kept (Text.crlf run)] :=
  if_neg h

theorem Plain.crlf {c : Char} {rest : List Char} (h : Plain c rest) : Plain c (Text.crlf rest) where
  quote hq := (h.quote hq).crlf hq
  line hc e := by
    rw [head?_crlf] at e
    obtain ⟨d, hd, e⟩ := Option.map_eq_some_iff.mp e
    split at e
    · cases e
    · exact h.line hc (e ▸ hd)
  block hc r e := by
    cases rest with
    | nil => cases e
    | cons d rest =>
        by_cases hd : d = '\n'
        · subst hd
          cases e
        · rw [crlf_cons_of_ne hd] at e
          cases e
          exact (h.block hc rest rfl).crlf

/-- **A piece that stands becomes pieces that stand.** -/
theorem Stands.crlf {p : Piece} {rest : List Char} (h : p.Stands rest) {ps : List Piece}
    (hps : Cuts (Text.crlf rest) ps) : Cuts (Text.crlf (p.source ++ rest)) (p.crlf ++ ps) := by
  have single {p p' : Piece} (e : p.crlf = [p']) (hp : p'.Stands (Text.crlf rest)) :
      Cuts (Text.crlf (p.source ++ rest)) (p.crlf ++ ps) := by
    rw [crlf_append, ← flatMap_source_crlf, e, List.flatMap_singleton]
    exact .cons hp hps
  cases h with
  | @quoted q body _ hq hg hl =>
      have hn : q ≠ '\n' := by rintro rfl; cases hq
      have e : Text.crlf (q :: (body ++ [q])) = q :: (Text.crlf body ++ [q]) := by
        rw [crlf_cons_of_ne hn, crlf_append, crlf_cons_of_ne hn, crlf_nil]
      refine single (crlf_kept fun h => hn (List.cons.inj h).1) ?_
      rw [e]
      refine .quoted hq (hg.crlf hq) ?_
      rwa [List.getLast?_cons, getLast?_crlf, ← List.getLast?_cons]
  | @plain c _ hc =>
      by_cases hn : c = '\n'
      · -- the carriage return is a piece of its own, and the line feed another
        subst hn
        exact .cons (p := .kept ['\r']) (.plain (.of_ne rfl (by decide) _))
          (.cons (p := .kept ['\n']) (.plain (.of_ne rfl (by decide) _)) hps)
      · have e : Text.crlf [c] = [c] := crlf_cons_of_ne hn []
        refine single (crlf_kept fun h => hn (List.cons.inj h).1) ?_
        rw [e]
        exact .plain hc.crlf
  | @line body _ hb hr =>
      have e : Text.crlf body = body := crlf_eq_self fun h => absurd (hb _ h) (by decide)
      refine single rfl (.line (e.symm ▸ hb) fun c hc => ?_)
      -- the line ends where it did, or at the carriage return before that
      rw [head?_crlf] at hc
      obtain ⟨d, hd, rfl⟩ := Option.map_eq_some_iff.mp hc
      split
      · rfl
      · exact hr d hd
  | block h => exact single rfl (.block h.crlf)

end Piece

/-- **A script with carriage returns is cut alike.** -/
theorem cuts_crlf {s : List Char} {ps : List Piece} (h : Cuts s ps) :
    Cuts (crlf s) (ps.flatMap Piece.crlf) := by
  induction h with
  | nil => exact .nil
  | cons hp _ ih => exact hp.crlf ih

theorem pieces_crlf (source : String) :
    pieces (withCrlf source).toList = (pieces source.toList).flatMap Piece.crlf := by
  rw [withCrlf, String.toList_ofList]
  exact cuts_iff.mp (cuts_crlf (cuts_pieces source.toList))

theorem flatMap_crlf_flatMap {f : Piece → List Char} (hf : ∀ p : Piece, p.crlf.flatMap f = crlf (f p))
    (ps : List Piece) : (ps.flatMap Piece.crlf).flatMap f = crlf (ps.flatMap f) := by
  induction ps with
  | nil => rfl
  | cons p ps ih =>
      rw [List.flatMap_cons, List.flatMap_append, hf, ih, List.flatMap_cons, crlf_append]

theorem residue_strip_crlf (source : String) :
    (strip (withCrlf source)).residue = crlf (strip source).residue := by
  rw [residue_strip, residue_strip, pieces_crlf, flatMap_crlf_flatMap Piece.flatMap_residue_crlf]

/-- **A character that is not blank comes from the same line.** -/
theorem sourceLine_crlf {source : String} {u v : List Char} {c : Char} (hc : isBlank c = false)
    (h : (strip source).residue = u ++ c :: v) :
    (strip (withCrlf source)).sourceLine (byteLength (crlf u)) =
      (strip source).sourceLine (byteLength u) := by
  have hs : c ≠ ' ' := by rintro rfl; cases hc
  have hn : c ≠ '\n' := by rintro rfl; cases hc
  rw [residue_strip] at h
  obtain ⟨before, r₁, r₂, after, hp, rfl⟩ := exists_kept_of_residue hs h
  have hp' : pieces (withCrlf source).toList =
      before.flatMap Piece.crlf ++ .kept (crlf r₁ ++ c :: crlf r₂) :: after.flatMap Piece.crlf := by
    have hk : r₁ ++ c :: r₂ ≠ ['\n'] := fun e =>
      hn (List.mem_singleton.mp (e ▸ List.mem_append_right r₁ List.mem_cons_self))
    rw [pieces_crlf, hp, List.flatMap_append, List.flatMap_cons, Piece.crlf_kept hk,
      crlf_append, crlf_cons_of_ne hn, List.singleton_append]
  have hl := sourceLine_kept hp'
  rw [flatMap_crlf_flatMap Piece.flatMap_residue_crlf, flatMap_crlf_flatMap Piece.flatMap_source_crlf,
    ← crlf_append, ← crlf_append, count_newline_crlf] at hl
  rw [hl, sourceLine_kept hp]

end SceneScript
