import Mathlib.Data.List.Infix
import SceneScript.Proofs.Comment.Scan

/-!
# Proofs — Comment — seams

Where a text is cut the same way whatever follows it (`CutsInto`), a script can be cut part by part.
A piece is such a text unless it waits for something: a line comment for the end of its line, a
quote for its partner, a `/` for what makes it a comment.  A text whose pieces wait for nothing is
*closed* (`Closed`), and a script is cut at the end of a closed text whatever follows
(`Closed.cutsInto`).

A text that is cut into kept pieces holds no comment (`Inert`): so do quoted runs (`Inert.quoted`),
and words in which no `/` stands before what would make it a comment (`inert_append_space`).
-/

namespace SceneScript

open Text

/-- `a` is cut into `ps` whatever follows it. -/
def CutsInto (a : List Char) (ps : List Piece) : Prop :=
  ∀ rest, pieces (a ++ rest) = ps ++ pieces rest

namespace CutsInto

variable {a b : List Char} {ps qs : List Piece}

theorem nil : CutsInto [] [] := fun _ => rfl

theorem append (ha : CutsInto a ps) (hb : CutsInto b qs) : CutsInto (a ++ b) (ps ++ qs) := by
  intro rest
  rw [List.append_assoc, ha, hb, List.append_assoc]

theorem piece {p : Piece} (h : ∀ rest, p.Stands rest) : CutsInto p.source [p] :=
  fun rest => cuts_iff.mp (.cons (h rest) (cuts_pieces rest))

theorem char {c : Char} (hq : isQuote c = false) (hc : c ≠ '/') : CutsInto [c] [.kept [c]] :=
  piece fun rest => .plain (.of_ne hq hc rest)

theorem block {body : List Char} (h : Unclosed body) :
    CutsInto (Piece.block body).source [.block body] :=
  piece fun _ => .block h

end CutsInto

/-! ### Closed texts -/

/-- The pieces leave nothing open: no quote is without its partner, no `/*` without its `*/`, and
the last piece is neither a line comment nor a `/`.  A quote that is a piece of its own is one
without a partner, and a `/` that is one opens no comment, even before a `*`. -/
structure Closed (ps : List Piece) : Prop where
  quote : ∀ q, isQuote q → .kept [q] ∉ ps
  block : ¬ [.kept ['/'], .kept ['*']] <:+: ps
  line  : ∀ body, ps.getLast? ≠ some (.line body)
  slash : ps.getLast? ≠ some (.kept ['/'])

/-- The piece is a line comment. -/
def Piece.isLine : Piece → Bool
  | .line _ => true
  | _       => false

instance (ps : List Piece) : Decidable (Closed ps) :=
  decidable_of_iff
    ((.kept ['"'] ∉ ps ∧ .kept ['\''] ∉ ps) ∧ ¬ [.kept ['/'], .kept ['*']] <:+: ps ∧
      (∀ p ∈ ps.getLast?, p.isLine = false) ∧ ps.getLast? ≠ some (.kept ['/'])) <| by
    constructor
    · rintro ⟨⟨hd, hs⟩, hb, hl, hsl⟩
      refine ⟨fun q hq => ?_, hb, fun body e => ?_, hsl⟩
      · rcases isQuote_iff.mp hq with rfl | rfl
        · exact hd
        · exact hs
      · cases hl _ e
    · intro h
      refine ⟨⟨h.quote _ rfl, h.quote _ rfl⟩, h.block, fun p hp => ?_, h.slash⟩
      cases p with
      | line body => exact absurd hp (h.line body)
      | kept run => rfl
      | block body => rfl

theorem Closed.tail {p : Piece} {ps : List Piece} (h : Closed (p :: ps)) : Closed ps where
  quote q hq hm := h.quote q hq (List.mem_cons_of_mem p hm)
  block hi := h.block (List.infix_cons hi)
  line body e := by
    cases ps with
    | nil => cases e
    | cons p' ps => exact h.line body (by rwa [List.getLast?_cons_cons])
  slash e := by
    cases ps with
    | nil => cases e
    | cons p' ps => exact h.slash (by rwa [List.getLast?_cons_cons])

/-- The first of closed pieces stands where it does, also when more text follows. -/
theorem Closed.stands {p : Piece} {ps : List Piece} {rest : List Char} (hc : Closed (p :: ps))
    (hp : p.Stands rest) (h : Cuts rest ps) (more : List Char) : p.Stands (rest ++ more) := by
  have hnil : rest = [] → ps = [] := by
    rintro rfl
    rw [← cuts_iff.mp h, pieces]
  -- a piece that is not the last one has its next character before it already
  have head (hne : ps ≠ []) : (rest ++ more).head? = rest.head? := by
    cases rest with
    | nil => exact absurd (hnil rfl) hne
    | cons => rfl
  cases hp with
  | quoted hq hg hl => exact .quoted hq hg hl
  | block hu => exact .block hu
  | line hb hr =>
      refine .line hb ?_
      rwa [head]
      rintro rfl
      exact hc.line _ rfl
  | @plain c _ hpl =>
      refine .plain ⟨fun hq => absurd List.mem_cons_self (hc.quote c hq), ?_, ?_⟩
      · rintro rfl
        rw [head]
        · exact hpl.line rfl
        · rintro rfl
          exact hc.slash rfl
      · rintro rfl r e
        cases rest with
        | nil =>
            rw [hnil rfl] at hc
            exact absurd rfl hc.slash
        | cons d ds =>
            cases e
            rw [← cuts_iff.mp h, pieces_of_plain (.of_ne rfl (by decide) ds)] at hc
            exact absurd ⟨[], pieces ds, rfl⟩ hc.block

theorem Cuts.append_of_closed {a : List Char} {ps : List Piece} (h : Cuts a ps) (hc : Closed ps)
    (rest : List Char) : Cuts (a ++ rest) (ps ++ pieces rest) := by
  induction h with
  | nil => exact cuts_pieces rest
  | cons hp h ih =>
      rw [List.append_assoc]
      exact .cons (hc.stands hp h rest) (ih hc.tail)

/-- **A script is cut at the end of a closed text**, whatever follows. -/
theorem Closed.cutsInto {a : List Char} (h : Closed (pieces a)) : CutsInto a (pieces a) :=
  fun rest => cuts_iff.mp ((cuts_pieces a).append_of_closed h rest)

/-! ### Texts without comments -/

/-- `s` is kept as it is, whatever follows it. -/
def Inert (s : List Char) : Prop :=
  ∃ ps, CutsInto s ps ∧ ps.flatMap Piece.residue = s

namespace Inert

theorem nil : Inert [] := ⟨[], .nil, rfl⟩

theorem append {s t : List Char} (hs : Inert s) (ht : Inert t) : Inert (s ++ t) := by
  obtain ⟨ps, hps, es⟩ := hs
  obtain ⟨qs, hqs, et⟩ := ht
  exact ⟨ps ++ qs, hps.append hqs, by rw [List.flatMap_append, es, et]⟩

theorem char {c : Char} (hq : isQuote c = false) (hc : c ≠ '/') : Inert [c] :=
  ⟨_, .char hq hc, rfl⟩

theorem quoted {q : Char} {body : List Char} (hq : isQuote q) (hg : Guarded q (q :: body))
    (hl : (q :: body).getLast? ≠ some '\\') : Inert (q :: (body ++ [q])) :=
  ⟨_, .piece fun _ => .quoted hq hg hl, by simp [Piece.residue]⟩

/-- A text without comments is what is left of it. -/
theorem residue_strip {s : String} (h : Inert s.toList) : (strip s).residue = s.toList := by
  obtain ⟨ps, hps, e⟩ := h
  have hp := hps []
  rw [List.append_nil, pieces, List.append_nil] at hp
  rw [SceneScript.residue_strip, hp, e]

end Inert

theorem Inert.of_forall {s : List Char} (h : ∀ c ∈ s, isQuote c = false ∧ c ≠ '/') : Inert s := by
  induction s with
  | nil => exact .nil
  | cons c s ih =>
      obtain ⟨hc, hs⟩ := List.forall_mem_cons.mp h
      exact (Inert.char hc.1 hc.2).append (ih hs)

/-- **A word that opens nothing is kept**, together with the space after it: it holds no quote, and
no `/` in it stands before what would make it a comment. -/
theorem inert_append_space {s : List Char} (hq : ∀ c ∈ s, isQuote c = false)
    (hl : ¬ ['/', '/'] <:+: s) (hb : ¬ ['/', '*'] <:+: s) : Inert (s ++ [' ']) := by
  induction s with
  | nil => exact .char rfl (by decide)
  | cons c s ih =>
      obtain ⟨hc, hq⟩ := List.forall_mem_cons.mp hq
      obtain ⟨ps, hps, e⟩ := ih hq (fun h => hl (List.infix_cons h)) fun h => hb (List.infix_cons h)
      refine ⟨.kept [c] :: ps, fun rest => ?_, by rw [List.flatMap_cons, e]; rfl⟩
      have hp : Piece.Plain c (s ++ [' '] ++ rest) := by
        refine ⟨fun h => ?_, ?_, ?_⟩
        · rw [hc] at h
          cases h
        · rintro rfl h
          cases s with
          | nil => cases h
          | cons d s => cases h; exact hl ⟨[], s, rfl⟩
        · rintro rfl r h
          cases s with
          | nil => cases h
          | cons d s => cases h; exact absurd ⟨[], s, rfl⟩ hb
      rw [List.cons_append, List.cons_append, pieces_of_plain hp, hps]
      rfl

end SceneScript
