import SceneScript.Argument
import SceneScript.Proofs.Literal.Alphabet
import SceneScript.Proofs.Result
import SceneScript.Proofs.Text.Cut

/-!
# Proofs — Argument — the tokens of an argument list

A token is a bare literal or a quoted run that closes at its very end (`IsToken`).  `Spells` says
how tokens are written one after another: gaps may stand anywhere around them, and something that
can end a token follows each.  The reader accepts such texts and no others (`readTokens_eq_ok`), and
a whole list is one in parentheses, or nothing (`read_eq_ok`).
-/

namespace SceneScript.Argument

open Text

/-- A quoted token: a quote, and the first equal one after it that is not guarded is the last
character. -/
def IsQuoted (s : List Char) : Prop :=
  ∃ q body, s = q :: (body ++ [q]) ∧ isQuote q ∧ Guarded q (q :: body) ∧
    (q :: body).getLast? ≠ some '\\'

/-- A token: a bare literal, or quoted. -/
def IsToken (s : List Char) : Prop :=
  Literal.isBare s ∨ IsQuoted s

/-- `s` spells the tokens, in order. -/
inductive Spells : List Char → List String → Prop where
  | nil : Spells [] []
  | gap {c : Char} {s : List Char} {ts : List String} (hc : isGap c) (h : Spells s ts) :
      Spells (c :: s) ts
  | token {t : String} {s : List Char} {ts : List String} (ht : IsToken t.toList)
      (hs : endsToken s) (h : Spells s ts) : Spells (t.toList ++ s) (t :: ts)

variable {s : List Char} {ts : List String}

theorem isQuoted_cons {q : Char} :
    IsQuoted (q :: s) ↔ isQuote q ∧ closeQuote q q s = some (s, []) := by
  rw [closeQuote_eq_some]
  constructor
  · rintro ⟨q, body, e, hq, hg, hl⟩
    cases e
    exact ⟨hq, body, rfl, (List.append_nil _).symm, hg, hl⟩
  · rintro ⟨hq, body, rfl, -, hg, hl⟩
    exact ⟨q, body, rfl, hq, hg, hl⟩

instance : (s : List Char) → Decidable (IsQuoted s)
  | []     => .isFalse fun ⟨_, _, e, _⟩ => by cases e
  | _ :: _ => decidable_of_iff _ isQuoted_cons.symm

instance (s : List Char) : Decidable (IsToken s) :=
  inferInstanceAs (Decidable (_ ∨ _))

/-! ### One token -/

theorem word_append (hs : ∀ c ∈ s, isGap c = false) {rest : List Char} (hr : endsToken rest) :
    word (s ++ rest) = s ∧ afterWord (s ++ rest) = rest := by
  have hp : ∀ c ∈ s, (!isGap c) = true := fun c hc => by rw [hs c hc]; rfl
  rw [word, afterWord, List.takeWhile_append_of_pos hp, List.dropWhile_append_of_pos hp]
  cases rest with
  | nil => simp
  | cons c cs => simp [show isGap c = true from hr]

/-- **A token is read whole**, whatever follows it. -/
theorem readTokens_token {t : String} {rest : List Char} (ht : IsToken t.toList)
    (hr : endsToken rest) : readTokens (t.toList ++ rest) = (readTokens rest).map (t :: ·) := by
  rcases ht with hb | ⟨q, body, e, hq, hg, hl⟩
  · cases e : t.toList with
    | nil => rw [e, Literal.not_isBare_nil] at hb; cases hb
    | cons c cs =>
        rw [e] at hb
        have hgap : ∀ d ∈ c :: cs, isGap d = false :=
          fun d hd => Literal.not_isGap_of_isBareChar (Literal.isBareChar_of_mem hb hd)
        obtain ⟨hc, hcs⟩ := List.forall_mem_cons.mp hgap
        have hq : isQuote c = false :=
          Literal.not_isQuote_of_isBareChar (Literal.isBareChar_of_mem hb List.mem_cons_self)
        obtain ⟨hw, ha⟩ := word_append hcs hr
        rw [List.cons_append, readTokens, hc, hq, hw, ha, hb, ← e, String.ofList_toList]
        rfl
  · have hgap : isGap q = false := by rcases isQuote_iff.mp hq with rfl | rfl <;> rfl
    rw [e, List.cons_append, List.append_assoc, readTokens, hgap, hq]
    simp only [Bool.false_eq_true, if_false, if_true]
    split
    · next h =>
        rw [List.singleton_append, closeQuote_of_guarded hg hl] at h
        cases h
    · next run rest' h =>
        rw [List.singleton_append, closeQuote_of_guarded hg hl] at h
        cases h
        rw [if_pos hr, ← e, String.ofList_toList]

theorem endsToken_afterWord (s : List Char) : endsToken (afterWord s) := by
  have h := List.head?_dropWhile_not (fun c => !isGap c) s
  rw [← afterWord] at h
  cases e : afterWord s with
  | nil => rfl
  | cons c cs =>
      rw [e] at h
      simpa [endsToken] using h

/-! ### All tokens -/

theorem Spells.ofList {t : List Char} (ht : IsToken t) (hs : endsToken s) (h : Spells s ts) :
    Spells (t ++ s) (String.ofList t :: ts) := by
  rw [← String.toList_ofList (l := t)] at ht
  simpa using Spells.token ht hs h

/-- **The reader accepts what spells its tokens**, and nothing else. -/
theorem readTokens_eq_ok : readTokens s = .ok ts ↔ Spells s ts := by
  constructor
  · intro h
    fun_induction readTokens s generalizing ts with
    | case1 => cases h; exact .nil
    | case2 c cs hc ih => exact .gap hc (ih h)
    | case3 => cases h
    | case4 c cs _ hq run rest hr he ih =>
        obtain ⟨ts', h', rfl⟩ := map_eq_ok.mp h
        obtain ⟨body, rfl, rfl, hg, hl⟩ := closeQuote_eq_some.mp hr
        exact .ofList (.inr ⟨c, body, rfl, hq, hg, hl⟩) he (ih h')
    | case5 => cases h
    | case6 c cs _ hq hb ih =>
        obtain ⟨ts', h', rfl⟩ := map_eq_ok.mp h
        have hs : word cs ++ afterWord cs = cs := List.takeWhile_append_dropWhile
        have hsp := Spells.ofList (.inl hb) (endsToken_afterWord cs) (ih h')
        rwa [List.cons_append, hs] at hsp
    | case7 => cases h
  · intro h
    induction h with
    | nil => rw [readTokens]
    | gap hc _ ih => rw [readTokens, if_pos hc, ih]
    | token ht hs _ ih => rw [readTokens_token ht hs, ih]; rfl

/-- Every token is one, and is taken from the text. -/
theorem Spells.isToken_of_mem (h : Spells s ts) {t : String} (ht : t ∈ ts) :
    IsToken t.toList ∧ ∀ c ∈ t.toList, c ∈ s := by
  induction h with
  | nil => cases ht
  | gap hc _ ih => exact ⟨(ih ht).1, fun c hm => List.mem_cons_of_mem _ ((ih ht).2 c hm)⟩
  | @token t' s ts ht' _ _ ih =>
      rcases List.mem_cons.mp ht with rfl | ht
      · exact ⟨ht', fun c hm => List.mem_append_left s hm⟩
      · exact ⟨(ih ht).1, fun c hm => List.mem_append_right t'.toList ((ih ht).2 c hm)⟩

/-- Tokens with a space between them are spelled. -/
theorem spells_intercalate :
    ∀ {ts : List String}, (∀ t ∈ ts, IsToken t.toList) →
      Spells ([' '].intercalate (ts.map String.toList)) ts
  | [], _ => .nil
  | [t], h => by
      have hs := Spells.token (h t List.mem_cons_self) rfl .nil
      simpa [List.intercalate] using hs
  | t :: t' :: ts, h => by
      obtain ⟨ht, hts⟩ := List.forall_mem_cons.mp h
      have hs := Spells.token ht rfl (.gap (c := ' ') rfl (spells_intercalate hts))
      simpa [List.intercalate_cons_cons] using hs

/-! ### The whole list -/

theorem inside?_eq_some {inner : List Char} :
    inside? s = some inner ↔ s = '(' :: (inner ++ [')']) := by
  unfold inside?
  split
  · next cs =>
      rw [dropLast_eq_some]
      simp
  · next hn => exact ⟨nofun, fun e => absurd e (hn _)⟩

/-- **An argument list** is nothing at all, or spelled tokens in parentheses. -/
theorem read_eq_ok :
    read s = .ok ts ↔
      (trim s = [] ∧ ts = []) ∨ ∃ inner, trim s = '(' :: (inner ++ [')']) ∧ Spells inner ts := by
  unfold read
  split
  · next he =>
      rw [List.isEmpty_iff.mp he]
      refine ⟨fun h => .inl ⟨rfl, (Except.ok.inj h).symm⟩, ?_⟩
      rintro (⟨-, rfl⟩ | ⟨inner, e, -⟩)
      · rfl
      · cases e
  · next he =>
      have hne : trim s ≠ [] := fun h => he (List.isEmpty_iff.mpr h)
      simp only [hne, false_and, false_or, ← inside?_eq_some, ← readTokens_eq_ok]
      cases inside? (trim s) <;> simp

end SceneScript.Argument
