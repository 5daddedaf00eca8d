import SceneScript.Comment
import SceneScript.Proofs.Text.Quote

/-!
# Proofs — Comment — the one way to cut a script

What a piece is depends on itself and on what follows it (`Piece.Stands`): a line comment ends
where its line does, a block comment at its first `*/`, a quoted run at its first quote that is not
guarded, and any other piece is a single character that opens nothing.  A script is cut into such
pieces in one way only, and `pieces` finds it (`cuts_iff`).

Later proofs work with `Cuts`, and change the text around a piece by changing what `Stands` asks
of it.
-/

namespace SceneScript

open Text

/-- `*/` stands nowhere in `s`. -/
def Unclosed (s : List Char) : Prop :=
  s.IsChain fun a b => ¬ (a = '*' ∧ b = '/')

theorem unclosed_cons_cons {a b : Char} {s : List Char} :
    Unclosed (a :: b :: s) ↔ ¬ (a = '*' ∧ b = '/') ∧ Unclosed (b :: s) :=
  List.isChain_cons_cons

theorem Unclosed.tail {c : Char} {s : List Char} (h : Unclosed (c :: s)) : Unclosed s :=
  List.IsChain.tail h

theorem Unclosed.cons {c : Char} {s : List Char} (h : Unclosed s)
    (hn : ∀ cs, c = '*' → s = '/' :: cs → False) : Unclosed (c :: s) := by
  cases s with
  | nil => exact .singleton c
  | cons d ds => exact unclosed_cons_cons.mpr ⟨fun e => hn ds e.1 (by rw [e.2]), h⟩

theorem not_unclosed_close (s rest : List Char) : ¬ Unclosed (s ++ '*' :: '/' :: rest) :=
  fun h => (List.isChain_append_cons_cons.mp h).2.1 ⟨rfl, rfl⟩

/-- **A block comment closes** at the first `*/` after its opening. -/
theorem closeBlock_of_unclosed {body : List Char} (h : Unclosed body) (rest : List Char) :
    closeBlock (body ++ '*' :: '/' :: rest) = some (body, rest) := by
  induction body with
  | nil => rfl
  | cons c cs ih =>
      have hn : ∀ cs', c = '*' → cs ++ '*' :: '/' :: rest = '/' :: cs' → False := by
        rintro cs' rfl e
        cases cs with
        | nil => cases e
        | cons d ds =>
            cases e
            exact (unclosed_cons_cons.mp h).1 ⟨rfl, rfl⟩
      rw [List.cons_append, closeBlock]
      · rw [ih h.tail]; rfl
      · exact hn

theorem closeBlock_eq_some {s body rest : List Char} (h : closeBlock s = some (body, rest)) :
    s = body ++ '*' :: '/' :: rest ∧ Unclosed body := by
  fun_induction closeBlock s generalizing body with
  | case1 => cases h
  | case2 cs => cases h; exact ⟨rfl, .nil⟩
  | case3 c cs hn ih =>
      obtain ⟨⟨body', rest'⟩, h', e⟩ := Option.map_eq_some_iff.mp h
      cases e
      obtain ⟨rfl, hu⟩ := ih h'
      refine ⟨rfl, hu.cons fun cs' hc e => ?_⟩
      subst e
      exact hn _ hc rfl

/-- **A block comment stays open** when no `*/` follows its opening. -/
theorem closeBlock_eq_none {s : List Char} : closeBlock s = none ↔ Unclosed s := by
  constructor
  · intro h
    fun_induction closeBlock s with
    | case1 => exact .nil
    | case2 cs => cases h
    | case3 c cs hn ih => exact (ih (Option.map_eq_none_iff.mp h)).cons hn
  · intro h
    cases hc : closeBlock s with
    | none => rfl
    | some r =>
        obtain ⟨rfl, -⟩ := closeBlock_eq_some hc
        exact absurd h (not_unclosed_close _ _)

namespace Piece

/-- `c` is a piece of its own before `rest`: it opens neither a quoted run that closes nor a
comment. -/
structure Plain (c : Char) (rest : List Char) : Prop where
  quote : isQuote c → Guarded c (c :: rest)
  line  : c = '/' → rest.head? ≠ some '/'
  block : c = '/' → ∀ r, rest = '*' :: r → Unclosed r

theorem Plain.of_ne {c : Char} (hq : isQuote c = false) (hc : c ≠ '/') (rest : List Char) :
    Plain c rest where
  quote h := by rw [hq] at h; cases h
  line e := absurd e hc
  block e := absurd e hc

/-- The piece is what a script is cut into where `rest` follows it. -/
inductive Stands : Piece → List Char → Prop where
  /-- A quoted run, up to its first quote that is not guarded. -/
  | quoted {q : Char} {body rest : List Char} (hq : isQuote q) (hg : Guarded q (q :: body))
      (hl : (q :: body).getLast? ≠ some '\\') : Stands (.kept (q :: (body ++ [q]))) rest
  /-- A character that opens nothing. -/
  | plain {c : Char} {rest : List Char} (h : Plain c rest) : Stands (.kept [c]) rest
  /-- A line comment, up to the end of its line. -/
  | line {body rest : List Char} (hb : ∀ c ∈ body, staysOnLine c)
      (hr : ∀ c ∈ rest.head?, staysOnLine c = false) : Stands (.line body) rest
  /-- A block comment, up to its first `*/`. -/
  | block {body rest : List Char} (h : Unclosed body) : Stands (.block body) rest

theorem source_ne_nil {p : Piece} {rest : List Char} (h : p.Stands rest) : p.source ≠ [] := by
  cases h <;> simp [source]

/-- The piece that `next` finds stands where it was found. -/
theorem stands_next (c : Char) (cs : List Char) : (next c cs).1.Stands (next c cs).2 := by
  unfold next
  split
  · next hq =>
      split
      · next run rest h =>
          obtain ⟨body, rfl, rfl, hg, hl⟩ := closeQuote_eq_some.mp h
          exact .quoted hq hg hl
      · next h =>
          refine .plain ⟨fun _ => closeQuote_eq_none.mp h, ?_, ?_⟩ <;> rintro rfl <;> cases hq
  · next hq =>
      split
      · next r =>
          refine .line (List.all_eq_true.mp List.all_takeWhile) (fun c hc => ?_)
          have hd := List.head?_dropWhile_not staysOnLine r
          rwa [Option.mem_def.mp hc] at hd
      · next r =>
          split
          · next body rest h => exact .block (closeBlock_eq_some h).2
          · next h =>
              -- a `/*` that is never closed: its `/` is a character like any other
              refine .plain ⟨nofun, fun _ => by simp, fun _ r' e => ?_⟩
              cases e
              exact closeBlock_eq_none.mp h
      · next h₁ h₂ =>
          refine .plain ⟨fun h => absurd h hq, fun hc => ?_, fun hc r e => (h₂ r hc e).elim⟩
          intro e
          cases cs with
          | nil => cases e
          | cons d ds => cases e; exact h₁ ds hc rfl

/-- **A piece that stands is the next one.** -/
theorem next_of_stands {p : Piece} {c : Char} {cs rest : List Char} (h : p.Stands rest)
    (e : p.source ++ rest = c :: cs) : next c cs = (p, rest) := by
  cases h with
  | quoted hq hg hl =>
      simp only [source, List.cons_append, List.append_assoc, List.nil_append, List.cons.injEq] at e
      obtain ⟨rfl, rfl⟩ := e
      unfold next
      rw [if_pos hq, closeQuote_of_guarded hg hl]
  | plain h =>
      simp only [source, List.cons_append, List.nil_append, List.cons.injEq] at e
      obtain ⟨rfl, rfl⟩ := e
      unfold next
      split
      · next hq => rw [closeQuote_eq_none.mpr (h.quote hq)]
      · split
        · next => exact absurd rfl (h.line rfl)
        · next => rw [closeBlock_eq_none.mpr (h.block rfl _ rfl)]
        · rfl
  | line hb hr =>
      simp only [source, List.cons_append, List.cons.injEq] at e
      obtain ⟨rfl, rfl⟩ := e
      have hd : rest.dropWhile staysOnLine = rest ∧ rest.takeWhile staysOnLine = [] := by
        cases rest with
        | nil => exact ⟨rfl, rfl⟩
        | cons d ds => simp [hr d rfl]
      rw [next, if_neg (by decide)]
      simp [List.takeWhile_append_of_pos hb, List.dropWhile_append_of_pos hb, hd]
  | block h =>
      simp only [source, List.cons_append, List.append_assoc, List.nil_append, List.cons.injEq] at e
      obtain ⟨rfl, rfl⟩ := e
      rw [next, if_neg (by decide)]
      simp [closeBlock_of_unclosed h]

end Piece

/-- `ps` are the pieces of `s`, each of them standing where it does. -/
inductive Cuts : List Char → List Piece → Prop where
  | nil : Cuts [] []
  | cons {p : Piece} {rest : List Char} {ps : List Piece} (hp : p.Stands rest) (h : Cuts rest ps) :
      Cuts (p.source ++ rest) (p :: ps)

theorem cuts_pieces (s : List Char) : Cuts s (pieces s) := by
  fun_induction pieces s with
  | case1 => exact .nil
  | case2 c cs ih =>
      rw [← Piece.source_next c cs]
      exact .cons (Piece.stands_next c cs) ih

/-- **A script is cut in one way only.** -/
theorem cuts_iff {s : List Char} {ps : List Piece} : Cuts s ps ↔ pieces s = ps := by
  refine ⟨fun h => ?_, fun h => h ▸ cuts_pieces s⟩
  induction h with
  | nil => rw [pieces]
  | @cons p rest ps hp _ ih =>
      cases e : p.source ++ rest with
      | nil => exact absurd (List.append_eq_nil_iff.mp e).1 (Piece.source_ne_nil hp)
      | cons c cs => rw [pieces, Piece.next_of_stands hp e, ih]

theorem pieces_of_plain {c : Char} {rest : List Char} (h : Piece.Plain c rest) :
    pieces (c :: rest) = .kept [c] :: pieces rest :=
  cuts_iff.mp (.cons (.plain h) (cuts_pieces rest))

end SceneScript
