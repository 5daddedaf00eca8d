import SceneScript.Proofs.Argument.Token

/-!
# Proofs — Argument — the grammar of argument lists

An argument list written out is `(w₀ t₁ w₁ … tₙ wₙ)`: tokens, with gaps around them and at least one
gap between two.  `Laid` says so of the gaps `w₀` and the pairs `(tᵢ, wᵢ)`, and `spell` puts them
together.

**The reader follows the grammar** (`read_exact`).  It gives the tokens of a list that is laid out
like this, and no other list is accepted.  What it reports otherwise is the leftmost fault: before it
stand laid out tokens, each with a gap after it, and at it starts something that is no token
(`Offends`).

That something starts with a quote or not, and both cases rest on one fact each: a token that starts
with a quote ends where the quote closes (`closeQuote_of_isToken`), and any other is all that stands
before the next gap (`eq_word_of_isToken`).
-/

namespace SceneScript.Argument

open Text

/-- Gaps only, or nothing. -/
def IsGaps (w : List Char) : Prop :=
  ∀ c ∈ w, isGap c

/-- Gaps, and then tokens with the gaps that follow each. -/
def spell (w : List Char) (ps : List (String × List Char)) : List Char :=
  w ++ ps.flatMap fun p => p.1.toList ++ p.2

/-- `w₀ t₁ w₁ … tₙ wₙ`: tokens with gaps around them, of which only the first and the last may be
empty. -/
structure Laid (w : List Char) (ps : List (String × List Char)) : Prop where
  lead    : IsGaps w
  tokens  : ∀ p ∈ ps, IsToken p.1.toList
  gaps    : ∀ p ∈ ps, IsGaps p.2
  between : ∀ p ∈ ps.dropLast, p.2 ≠ []

/-- No token starts here, and this is what is reported. -/
inductive Offends : List Char → ArgumentError → Prop where
  /-- A quote that is never closed. -/
  | unterminated {q : Char} {s : List Char} (hq : isQuote q) (hg : Guarded q (q :: s)) :
      Offends (q :: s) .unterminatedString
  /-- Anything else that is no token with a gap or the end after it.  What stands before the next gap
  is reported, even if that gap is inside quotes. -/
  | bad {w rest : List Char} (hne : w ≠ []) (hw : ∀ c ∈ w, isGap c = false) (hr : endsToken rest)
      (hq : ∀ q s, w ++ rest = q :: s → isQuote q → ¬ Guarded q (q :: s))
      (hn : ∀ t r, w ++ rest = t ++ r → IsToken t → endsToken r = false) :
      Offends (w ++ rest) (.badToken (String.ofList w))

variable {s t r : List Char} {ts : List String} {w : List Char} {ps : List (String × List Char)}

/-! ### Where a token ends -/

theorem IsToken.exists_cons (h : IsToken t) : ∃ c cs, t = c :: cs ∧ isGap c = false := by
  rcases h with hb | ⟨q, body, rfl, hq, -⟩
  · cases t with
    | nil => rw [Literal.not_isBare_nil] at hb; cases hb
    | cons c cs =>
        have hc := Literal.isBareChar_of_mem hb List.mem_cons_self
        exact ⟨c, cs, rfl, Literal.not_isGap_of_isBareChar hc⟩
  · refine ⟨q, body ++ [q], rfl, ?_⟩
    rcases isQuote_iff.mp hq with rfl | rfl <;> rfl

/-- **A token that starts with a quote ends where the quote closes.** -/
theorem closeQuote_of_isToken {q : Char} (hq : isQuote q) (ht : IsToken t) (h : q :: s = t ++ r) :
    ∃ run, t = q :: run ∧ closeQuote q q s = some (run, r) := by
  rcases ht with hb | ⟨q', body, rfl, -, hg, hl⟩
  · cases t with
    | nil => rw [Literal.not_isBare_nil] at hb; cases hb
    | cons c cs =>
        cases h
        have := Literal.not_isQuote_of_isBareChar (Literal.isBareChar_of_mem hb List.mem_cons_self)
        rw [hq] at this
        cases this
  · cases h
    exact ⟨body ++ [q], rfl, closeQuote_eq_some.mpr ⟨body, rfl, rfl, hg, hl⟩⟩

/-- **Any other token is all that stands before the next gap**, and bare. -/
theorem eq_word_of_isToken {c : Char} (hc : isQuote c = false) (ht : IsToken t) (hr : endsToken r)
    (h : c :: s = t ++ r) : t = c :: word s ∧ Literal.isBare t := by
  rcases ht with hb | ⟨q, body, rfl, hq, -⟩
  · have hgap : ∀ d ∈ t, isGap d = false :=
      fun d hd => Literal.not_isGap_of_isBareChar (Literal.isBareChar_of_mem hb hd)
    cases t with
    | nil => rw [Literal.not_isBare_nil] at hb; cases hb
    | cons d ds =>
        obtain ⟨rfl, rfl⟩ := List.cons.inj h
        rw [List.append_eq, (word_append (fun e he => hgap e (List.mem_cons_of_mem _ he)) hr).1]
        exact ⟨rfl, hb⟩
  · cases h
    rw [hq] at hc
    cases hc

theorem word_cons {c : Char} (hc : isGap c = false) (s : List Char) :
    word (c :: s) = c :: word s := by
  simp [word, hc]

theorem word_append_afterWord (s : List Char) : word s ++ afterWord s = s :=
  List.takeWhile_append_dropWhile

theorem not_isGap_of_mem_word {c : Char} (h : c ∈ word s) : isGap c = false := by
  simpa using List.all_eq_true.mp List.all_takeWhile c h

/-! ### What is accepted -/

theorem spell_cons (w : List Char) (p : String × List Char) (ps : List (String × List Char)) :
    spell w (p :: ps) = w ++ (p.1.toList ++ spell p.2 ps) := by
  simp [spell]

theorem Spells.gaps (hw : IsGaps w) (h : Spells s ts) : Spells (w ++ s) ts := by
  induction w with
  | nil => exact h
  | cons c w ih =>
      obtain ⟨hc, hw⟩ := List.forall_mem_cons.mp hw
      exact .gap hc (ih hw)

/-- What follows a token is not empty before another one: tokens do not start with a gap. -/
theorem gaps_ne_nil {rest : List Char} (hts : ∀ p ∈ ps, IsToken p.1.toList)
    (he : endsToken (spell w ps ++ rest)) (hne : ps = [] → endsToken rest = false) : w ≠ [] := by
  rintro rfl
  cases ps with
  | nil =>
      rw [show spell [] [] ++ rest = rest from rfl, hne rfl] at he
      cases he
  | cons p ps =>
      obtain ⟨c, cs, hc, hgap⟩ := (hts p List.mem_cons_self).exists_cons
      rw [spell_cons, hc, List.nil_append, List.append_assoc, List.cons_append, endsToken, hgap] at he
      cases he

theorem Laid.nil : Laid [] [] :=
  ⟨nofun, nofun, nofun, nofun⟩

/-- One more token in front. -/
theorem Laid.cons {t : String} (h : Laid w ps) (ht : IsToken t.toList) (hne : ps ≠ [] → w ≠ []) :
    Laid [] ((t, w) :: ps) where
  lead    := nofun
  tokens  := List.forall_mem_cons.mpr ⟨ht, h.tokens⟩
  gaps    := List.forall_mem_cons.mpr ⟨h.lead, h.gaps⟩
  between := by
    cases ps with
    | nil => exact nofun
    | cons p ps => exact List.forall_mem_cons.mpr ⟨hne nofun, h.between⟩

theorem Laid.gap {c : Char} (h : Laid w ps) (hc : isGap c) : Laid (c :: w) ps :=
  { h with lead := List.forall_mem_cons.mpr ⟨hc, h.lead⟩ }

theorem Laid.tail {p : String × List Char} (h : Laid w (p :: ps)) : Laid p.2 ps where
  lead    := h.gaps p List.mem_cons_self
  tokens  := fun q hq => h.tokens q (List.mem_cons_of_mem _ hq)
  gaps    := fun q hq => h.gaps q (List.mem_cons_of_mem _ hq)
  between := fun q hq => by
    cases ps with
    | nil => cases hq
    | cons p' ps => exact h.between q (List.mem_cons_of_mem _ hq)

/-- **Spelled tokens are laid out**, and the other way round. -/
theorem spells_iff : Spells s ts ↔ ∃ w ps, s = spell w ps ∧ Laid w ps ∧ ts = ps.map (·.1) := by
  constructor
  · intro h
    induction h with
    | nil => exact ⟨[], [], rfl, .nil, rfl⟩
    | gap hc _ ih =>
        obtain ⟨w, ps, rfl, hl, rfl⟩ := ih
        exact ⟨_ :: w, ps, rfl, hl.gap hc, rfl⟩
    | @token t s ts ht hs _ ih =>
        obtain ⟨w, ps, rfl, hl, rfl⟩ := ih
        refine ⟨[], (t, w) :: ps, by rw [spell_cons, List.nil_append], hl.cons ht fun hne => ?_, rfl⟩
        rw [← List.append_nil (spell w ps)] at hs
        exact gaps_ne_nil hl.tokens hs fun e => absurd e hne
  · rintro ⟨w, ps, rfl, hl, rfl⟩
    induction ps generalizing w with
    | nil => exact Spells.gaps hl.lead .nil
    | cons p ps ih =>
        rw [spell_cons]
        refine Spells.gaps hl.lead (.token (hl.tokens p List.mem_cons_self) ?_ (ih p.2 hl.tail))
        -- after the last token comes nothing or a gap, and after any other a gap
        cases hp : p.2 with
        | nil =>
            cases ps with
            | nil => rfl
            | cons p' ps => exact absurd hp (hl.between p List.mem_cons_self)
        | cons c cs => exact hl.gaps p List.mem_cons_self c (hp ▸ List.mem_cons_self)

/-! ### What is reported -/

theorem Offends.endsToken_eq_false {e : ArgumentError} (h : Offends s e) : endsToken s = false := by
  cases h with
  | @unterminated q s hq _ => rcases isQuote_iff.mp hq with rfl | rfl <;> rfl
  | @bad w rest hne hw _ _ _ =>
      cases w with
      | nil => exact absurd rfl hne
      | cons c cs => exact hw c List.mem_cons_self

/-- What stands before the next gap is reported. -/
theorem Offends.of_word {c : Char} (hc : isGap c = false) (hq : isQuote c → ¬ Guarded c (c :: s))
    (hn : ∀ t r, c :: s = t ++ r → IsToken t → endsToken r = false) :
    Offends (c :: s) (.badToken (String.ofList (c :: word s))) := by
  have hs : c :: word s ++ afterWord s = c :: s := by
    rw [List.cons_append, word_append_afterWord]
  rw [← hs]
  refine .bad nofun (List.forall_mem_cons.mpr ⟨hc, fun d hd => not_isGap_of_mem_word hd⟩)
    (endsToken_afterWord s) ?_ ?_
  · rw [hs]
    rintro q s' e
    cases e
    exact hq
  · rwa [hs]

theorem readTokens_gaps (hw : IsGaps w) (s : List Char) : readTokens (w ++ s) = readTokens s := by
  induction w with
  | nil => rfl
  | cons c w ih =>
      obtain ⟨hc, hw⟩ := List.forall_mem_cons.mp hw
      rw [List.cons_append, readTokens, if_pos hc, ih hw]

/-- **At a fault the reader stops**, and reports it. -/
theorem Offends.readTokens_eq {e : ArgumentError} (h : Offends s e) : readTokens s = .error e := by
  cases h with
  | @unterminated q s hq hg =>
      have hgap : isGap q = false := by rcases isQuote_iff.mp hq with rfl | rfl <;> rfl
      rw [readTokens, hgap, hq]
      simp only [Bool.false_eq_true, if_false, if_true]
      split
      · rfl
      · next h => rw [closeQuote_eq_none.mpr hg] at h; cases h
  | @bad w rest hne hw hr hq hn =>
      obtain ⟨hword, -⟩ := word_append hw hr
      cases w with
      | nil => exact absurd rfl hne
      | cons c cs =>
          have hc : isGap c = false := hw c List.mem_cons_self
          rw [List.cons_append] at hword ⊢
          have hws : c :: word (cs ++ rest) = c :: cs := by rw [← word_cons hc, hword]
          rw [readTokens, hc]
          simp only [Bool.false_eq_true, if_false]
          split
          · next hqc =>
              split
              · next h => exact absurd (closeQuote_eq_none.mp h) (hq c _ rfl hqc)
              · next run r h =>
                  obtain ⟨body, rfl, e, hg, hl⟩ := closeQuote_eq_some.mp h
                  have her := hn (c :: (body ++ [c])) r (by rw [List.cons_append, e]; rfl)
                    (.inr ⟨c, body, rfl, hqc, hg, hl⟩)
                  rw [her, hword]
                  rfl
          · rw [hws]
            split
            · next hb =>
                rw [hn (c :: cs) rest rfl (.inl hb)] at hr
                cases hr
            · rfl

/-- **The leftmost fault**: laid out tokens stand before it, each with a gap after it. -/
theorem readTokens_eq_error {e : ArgumentError} :
    readTokens s = .error e ↔
      ∃ w ps rest, s = spell w ps ++ rest ∧ Laid w ps ∧ (∀ p ∈ ps, p.2 ≠ []) ∧ Offends rest e := by
  constructor
  · intro h
    -- nothing is read before a fault that stands first
    have here {rest : List Char} (ho : Offends rest e) :
        ∃ w ps r, rest = spell w ps ++ r ∧ Laid w ps ∧ (∀ p ∈ ps, p.2 ≠ []) ∧ Offends r e :=
      ⟨[], [], rest, rfl, .nil, List.forall_mem_nil _, ho⟩
    -- a token that was read goes in front of what the reader says about the rest
    have cons {t rest : List Char} (ht : IsToken t) (hr : endsToken rest)
        (ih : ∃ w ps r, rest = spell w ps ++ r ∧ Laid w ps ∧ (∀ p ∈ ps, p.2 ≠ []) ∧ Offends r e) :
        ∃ w ps r, t ++ rest = spell w ps ++ r ∧ Laid w ps ∧ (∀ p ∈ ps, p.2 ≠ []) ∧ Offends r e := by
      obtain ⟨w, ps, r, rfl, hl, hne, ho⟩ := ih
      have hw : w ≠ [] := gaps_ne_nil hl.tokens hr fun _ => ho.endsToken_eq_false
      refine ⟨[], (String.ofList t, w) :: ps, r, ?_, ?_, List.forall_mem_cons.mpr ⟨hw, hne⟩, ho⟩
      · simp [spell_cons]
      · exact hl.cons (by simpa using ht) fun _ => hw
    fun_induction readTokens s with
    | case1 => cases h
    | case2 c cs hc ih =>
        obtain ⟨w, ps, rest, rfl, hl, hne, ho⟩ := ih h
        exact ⟨c :: w, ps, rest, rfl, hl.gap hc, hne, ho⟩
    | case3 c cs _ hq hn =>
        cases h
        exact here (.unterminated hq (closeQuote_eq_none.mp hn))
    | case4 c cs _ hq run rest hr he ih =>
        obtain ⟨body, rfl, rfl, hg, hl⟩ := closeQuote_eq_some.mp hr
        exact cons (.inr ⟨c, body, rfl, hq, hg, hl⟩) he (ih (map_eq_error.mp h))
    | case5 c cs hc hq run rest hr he =>
        cases h
        refine here ?_
        rw [word_cons (by simpa using hc)]
        refine .of_word (by simpa using hc) (fun _ hg => ?_) fun t r heq ht => ?_
        · rw [closeQuote_eq_none.mpr hg] at hr
          cases hr
        · obtain ⟨run', rfl, h'⟩ := closeQuote_of_isToken hq ht heq
          rw [hr] at h'
          cases h'
          simpa using he
    | case6 c cs _ hq hb ih =>
        have hs := cons (.inl hb) (endsToken_afterWord cs) (ih (map_eq_error.mp h))
        rwa [List.cons_append, word_append_afterWord] at hs
    | case7 c cs hc hq hb =>
        cases h
        refine here ?_
        refine .of_word (by simpa using hc) (fun hq' => absurd hq' hq) fun t r heq ht => ?_
        by_contra hr
        obtain ⟨rfl, hb'⟩ := eq_word_of_isToken (by simpa using hq) ht (by simpa using hr) heq
        exact hb hb'
  · rintro ⟨w, ps, rest, rfl, hl, hne, ho⟩
    induction ps generalizing w with
    | nil =>
        rw [show spell w [] ++ rest = w ++ rest by simp [spell], readTokens_gaps hl.lead]
        exact ho.readTokens_eq
    | cons p ps ih =>
        obtain ⟨hp, hne⟩ := List.forall_mem_cons.mp hne
        have he : endsToken (spell p.2 ps ++ rest) := by
          cases e : p.2 with
          | nil => exact absurd e hp
          | cons c cs => exact hl.gaps p List.mem_cons_self c (e ▸ List.mem_cons_self)
        rw [spell_cons, List.append_assoc, readTokens_gaps hl.lead, List.append_assoc,
          readTokens_token (hl.tokens p List.mem_cons_self) he, ih p.2 hl.tail hne]
        rfl

/-! ### The whole list -/

theorem readTokens_ne_missingParen (s : List Char) : readTokens s ≠ .error .missingParen := by
  intro h
  obtain ⟨_, _, _, -, -, -, ho⟩ := readTokens_eq_error.mp h
  cases ho

theorem read_eq_error {e : ArgumentError} :
    read s = .error e ↔
      (trim s ≠ [] ∧ (∀ inner, trim s ≠ '(' :: (inner ++ [')'])) ∧ e = .missingParen) ∨
      ∃ inner, trim s = '(' :: (inner ++ [')']) ∧ readTokens inner = .error e := by
  unfold read
  split
  · next he => simp [List.isEmpty_iff.mp he]
  · next he =>
      have hne : trim s ≠ [] := fun h => he (List.isEmpty_iff.mpr h)
      simp only [ne_eq, hne, not_false_eq_true, true_and, ← inside?_eq_some]
      cases inside? (trim s) <;> simp [eq_comm]

/-- **Argument lists, exactly.**  A text gives tokens if there is nothing in it, or if they are laid
out in parentheses.  It lacks parentheses if there is something else in it that does not stand in
them.  And in parentheses the leftmost fault is reported: laid out tokens stand before it, each with a
gap after it, and no token starts at it. -/
theorem read_exact (s : List Char) :
    (∀ ts, read s = .ok ts ↔
      (trim s = [] ∧ ts = []) ∨
      ∃ w ps, trim s = '(' :: (spell w ps ++ [')']) ∧ Laid w ps ∧ ts = ps.map (·.1)) ∧
    (read s = .error .missingParen ↔ trim s ≠ [] ∧ ∀ inner, trim s ≠ '(' :: (inner ++ [')'])) ∧
    ∀ e, (read s = .error e ∧ e ≠ .missingParen) ↔
      ∃ w ps rest, trim s = '(' :: (spell w ps ++ rest ++ [')']) ∧ Laid w ps ∧
        (∀ p ∈ ps, p.2 ≠ []) ∧ Offends rest e := by
  refine ⟨fun ts => ?_, ?_, fun e => ?_⟩
  · rw [read_eq_ok]
    refine or_congr Iff.rfl ⟨?_, ?_⟩
    · rintro ⟨inner, h, hs⟩
      obtain ⟨w, ps, rfl, hl, rfl⟩ := spells_iff.mp hs
      exact ⟨w, ps, h, hl, rfl⟩
    · rintro ⟨w, ps, h, hl, rfl⟩
      exact ⟨spell w ps, h, spells_iff.mpr ⟨w, ps, rfl, hl, rfl⟩⟩
  · rw [read_eq_error]
    constructor
    · rintro (⟨hne, hn, -⟩ | ⟨inner, -, h⟩)
      · exact ⟨hne, hn⟩
      · exact absurd h (readTokens_ne_missingParen inner)
    · rintro ⟨hne, hn⟩
      exact .inl ⟨hne, hn, rfl⟩
  · rw [read_eq_error]
    constructor
    · rintro ⟨⟨-, -, rfl⟩ | ⟨inner, h, he⟩, hne⟩
      · exact absurd rfl hne
      · obtain ⟨w, ps, rest, rfl, ho⟩ := readTokens_eq_error.mp he
        exact ⟨w, ps, rest, h, ho⟩
    · rintro ⟨w, ps, rest, h, ho⟩
      have he := readTokens_eq_error.mpr ⟨w, ps, rest, rfl, ho⟩
      refine ⟨.inr ⟨_, h, he⟩, ?_⟩
      rintro rfl
      exact readTokens_ne_missingParen _ he

-- junk after a closing quote: what is reported ends at the gap inside the quotes
example : read "( a 'b c'd )".toList = .error (.badToken "'b") := by decide +kernel

end SceneScript.Argument
