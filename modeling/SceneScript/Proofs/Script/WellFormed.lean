import SceneScript.Proofs.Argument.Token
import SceneScript.Proofs.Script.Name
import SceneScript.Proofs.Text.Cut
import SceneScript.Proofs.Text.Line

/-!
# Proofs — Script — what a line can say

The statements of a script are well formed (`Statement.WellFormed`): names are words without quotes
and opening parentheses, and arguments are tokens that end on the line they start on.

A name holds no `(` because a marker only counts before the first one: it is found there, and so all
that stands before it lies there as well (`cut_of_holds_head`).  An argument is spelled in the line
(`isToken_of_readCall`), and a line holds no line feed.
-/

namespace SceneScript

open Text

/-- A name: a word with neither a quote nor an opening parenthesis in it. -/
def Text.IsName (s : String) : Prop :=
  IsWord s ∧ ∀ c ∈ s.toList, isQuote c = false ∧ c ≠ '('

instance (s : String) : Decidable (IsName s) :=
  have := List.decidableBAll (fun c => isQuote c = false ∧ c ≠ '(') s.toList
  instDecidableAnd

/-- A statement as a script can make it. -/
structure Statement.WellFormed (s : Statement) : Prop where
  names : ∀ n ∈ s.names, IsName n
  args  : ∀ a ∈ s.args, Argument.IsToken a.toList ∧ '\n' ∉ a.toList

instance (s : Statement) : Decidable s.WellFormed :=
  decidable_of_iff
    ((∀ n ∈ s.names, IsName n) ∧ ∀ a ∈ s.args, Argument.IsToken a.toList ∧ '\n' ∉ a.toList)
    ⟨fun h => ⟨h.1, h.2⟩, fun h => ⟨h.names, h.args⟩⟩

namespace Line

theorem isName_of_readName {field : NameField} {s : List Char} {n : String}
    (h : readName field s = .ok n) (hs : '(' ∉ s) : IsName n := by
  refine ⟨isWord_of_readName h, ?_⟩
  obtain ⟨rfl, -, -, hq⟩ := readName_eq_ok.mp h
  rw [String.toList_ofList]
  intro c hc
  refine ⟨hq c hc, ?_⟩
  rintro rfl
  exact hs (mem_of_mem_trim hc)

theorem head_append (s : List Char) : head s ++ s.dropWhile (· ≠ '(') = s :=
  List.takeWhile_append_dropWhile

theorem not_mem_head (s : List Char) : '(' ∉ head s := by
  intro h
  simpa using List.all_eq_true.mp List.all_takeWhile _ h

/-- **A marker that counts is the first one of its line**, and no `(` stands before it. -/
theorem cut_of_holds_head {mark s u v : List Char} (h : holds mark (head s))
    (hc : cut mark s = some (u, v)) : '(' ∉ u := by
  obtain ⟨⟨u', v'⟩, h'⟩ := Option.isSome_iff_exists.mp h
  have he := cut_append h' (s.dropWhile (· ≠ '('))
  rw [head_append, hc] at he
  cases he
  have hs := append_of_cut h'
  intro hu
  exact not_mem_head s (by rw [hs]; exact List.mem_append_left _ hu)

/-- All that a call goes through before it gives its name and its arguments. -/
theorem readCall_eq_ok {s name : List Char} {args : List String} :
    readCall s = .ok (name, args) ↔
      Argument.read ((trim s).dropWhile (· ≠ '(')) = .ok args ∧ name = head (trim s) := by
  unfold readCall
  split
  · next args' ha =>
      rw [ha]
      refine ⟨fun h => ?_, fun ⟨ht, hn⟩ => ?_⟩
      · cases h
        exact ⟨rfl, rfl⟩
      · cases ht
        rw [hn]
        rfl
  · next e ha =>
      rw [ha]
      exact ⟨nofun, nofun⟩

theorem not_mem_of_readCall {s name : List Char} {args : List String}
    (h : readCall s = .ok (name, args)) : '(' ∉ name := by
  obtain ⟨-, rfl⟩ := readCall_eq_ok.mp h
  exact not_mem_head (trim s)

/-- The arguments of a call are tokens, and taken from its text. -/
theorem isToken_of_readCall {s name : List Char} {args : List String}
    (h : readCall s = .ok (name, args)) {a : String} (ha : a ∈ args) :
    Argument.IsToken a.toList ∧ ∀ c ∈ a.toList, c ∈ s := by
  rcases Argument.read_eq_ok.mp (readCall_eq_ok.mp h).1 with ⟨-, rfl⟩ | ⟨inner, hi, hsp⟩
  · cases ha
  · obtain ⟨ht, hc⟩ := hsp.isToken_of_mem ha
    refine ⟨ht, fun c hm => ?_⟩
    have hd : c ∈ trim ((trim s).dropWhile (· ≠ '(')) := by rw [hi]; simp [hc c hm]
    exact mem_of_mem_trim ((List.dropWhile_sublist _).mem (mem_of_mem_trim hd))

/-- **What a line says is well formed.** -/
theorem wellFormed_of_read {line : List Char} {st : Statement} (hn : '\n' ∉ line)
    (h : read line = .ok (some st)) : st.WellFormed := by
  have hpad : '\n' ∉ pad line := by simpa [pad] using hn
  -- the arguments come from what follows the marker
  have token : ∀ {mark u call : List Char} {args : List String} {name : List Char},
      cut mark (pad line) = some (u, call) → readCall call = .ok (name, args) →
      ∀ a ∈ args, Argument.IsToken a.toList ∧ '\n' ∉ a.toList := by
    intro mark u call args name hc hr a ha
    obtain ⟨ht, hm⟩ := isToken_of_readCall hr ha
    refine ⟨ht, fun hl => hpad ?_⟩
    rw [append_of_cut hc]
    exact List.mem_append_right u (List.mem_append_right mark (hm _ hl))
  rcases read_eq_some.mp h with ⟨hh, hc⟩ | ⟨-, hh, hi⟩
  · obtain ⟨decl, call, t, n, cls, c, hcut, hdecl, hcall, ht, hv, hk, rfl⟩ :=
      readConstruct_eq_ok.mp hc
    have hp : '(' ∉ decl := cut_of_holds_head hh hcut
    rw [append_of_cut hdecl] at hp
    simp only [List.mem_append, not_or] at hp
    refine ⟨?_, token hcut hcall⟩
    simp only [Statement.names, List.forall_mem_cons]
    exact ⟨isName_of_readName ht hp.1, isName_of_readName hv hp.2.2,
      isName_of_readName hk (not_mem_of_readCall hcall), List.forall_mem_nil _⟩
  · obtain ⟨r, call, m, i, hcut, hcall, hr, hm, rfl⟩ := readInvoke_eq_ok.mp hi
    refine ⟨?_, token hcut hcall⟩
    simp only [Statement.names, List.forall_mem_cons]
    exact ⟨isName_of_readName hr (cut_of_holds_head hh hcut),
      isName_of_readName hm (not_mem_of_readCall hcall), List.forall_mem_nil _⟩

end Line

namespace Script

theorem exists_line_of_mem_rows {offset : Nat} {ls : List (List Char)} {r : Row}
    (h : r ∈ rows offset ls) : ∃ l ∈ ls, r.text = trim l := by
  induction ls generalizing offset with
  | nil => cases h
  | cons l ls ih =>
      rw [rows] at h
      split at h
      · obtain ⟨l', hl', e⟩ := ih h
        exact ⟨l', List.mem_cons_of_mem l hl', e⟩
      · rcases List.mem_cons.mp h with rfl | h
        · exact ⟨l, List.mem_cons_self, rfl⟩
        · obtain ⟨l', hl', e⟩ := ih h
          exact ⟨l', List.mem_cons_of_mem l hl', e⟩

end Script

/-- **What a script says is well formed**, whatever it holds. -/
theorem wellFormed_of_normalize {source : String} {S : List Statement}
    (h : (normalize source).value = .ok S) : ∀ st ∈ S, st.WellFormed := by
  intro st hst
  obtain ⟨r, hr, hread⟩ := exists_row_of_normalize h hst
  obtain ⟨l, hl, e⟩ := Script.exists_line_of_mem_rows hr
  rw [e] at hread
  exact Line.wellFormed_of_read (fun hm => newline_not_mem_of_mem_splitOn hl (mem_of_mem_trim hm))
    hread

end SceneScript
