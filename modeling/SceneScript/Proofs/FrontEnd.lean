import SceneScript.Proofs.Intermediate.RoundTrip
import SceneScript.Proofs.Script.WellFormed

/-!
# Proofs — what either front end gives

Statements come from a script or from an intermediate text, and both keep to what the rest of the
library goes by (`front_ends_sound`).  A script gives well-formed statements
(`wellFormed_of_normalize`).  The names in an intermediate text are fields, and a field is a word
(`isWord_of_readField`), so what is read from it can be written and read again, however the text
itself was spelled.
-/

namespace SceneScript

open Text

namespace Intermediate

theorem isWord_of_readField {s rest : List Char} {w : String} (h : readField s = some (w, rest)) :
    IsWord w := by
  unfold readField at h
  split at h
  · next c rest' e =>
      cases h
      refine ⟨fun hw => ?_, fun d hd => ?_⟩
      · -- without a character that is not blank there would be nothing to end the field
        have hw : (trimStart s).takeWhile (fun c => !isBlank c) = [] := by
          simpa using congrArg String.toList hw
        cases ht : trimStart s with
        | nil => rw [ht] at e; cases e
        | cons d ds =>
            have hd : isBlank d = false := not_isBlank_of_head?_trimStart (s := s) (by rw [ht]; rfl)
            rw [ht] at hw
            simp [hd] at hw
      · rw [String.toList_ofList] at hd
        simpa using List.all_eq_true.mp List.all_takeWhile d hd
  · cases h

/-- All that a line goes through before it gives a statement. -/
theorem readLine_eq_some {line : List Char} {st : Statement} :
    readLine line = some st ↔
      (∃ r₀ r₁ r₂ r₃ c, readField line = some ("var", r₀) ∧
        readField r₀ = some (c.varType, r₁) ∧ readField r₁ = some (c.varName, r₂) ∧
        readField r₂ = some (c.className, r₃) ∧ ListLiteral.read r₃ = some c.args ∧
        st = .construct c) ∨
      (∃ r₀ r₁ r₂ i, readField line = some ("method", r₀) ∧
        readField r₀ = some (i.receiver, r₁) ∧ readField r₁ = some (i.methodName, r₂) ∧
        ListLiteral.read r₂ = some i.args ∧ st = .invoke i) := by
  unfold readLine
  constructor
  · intro h
    obtain ⟨⟨keyword, r₀⟩, h₀, h⟩ := Option.bind_eq_some_iff.mp h
    dsimp only at h
    split at h
    · next hk =>
        obtain ⟨⟨t, r₁⟩, h₁, h⟩ := Option.bind_eq_some_iff.mp h
        obtain ⟨⟨n, r₂⟩, h₂, h⟩ := Option.bind_eq_some_iff.mp h
        obtain ⟨⟨k, r₃⟩, h₃, h⟩ := Option.bind_eq_some_iff.mp h
        obtain ⟨args, h₄, h⟩ := Option.bind_eq_some_iff.mp h
        cases h
        exact .inl ⟨r₀, r₁, r₂, r₃, ⟨t, n, k, args⟩, hk ▸ h₀, h₁, h₂, h₃, h₄, rfl⟩
    · split at h
      · next hk =>
          obtain ⟨⟨r, r₁⟩, h₁, h⟩ := Option.bind_eq_some_iff.mp h
          obtain ⟨⟨m, r₂⟩, h₂, h⟩ := Option.bind_eq_some_iff.mp h
          obtain ⟨args, h₃, h⟩ := Option.bind_eq_some_iff.mp h
          cases h
          exact .inr ⟨r₀, r₁, r₂, ⟨r, m, args⟩, hk ▸ h₀, h₁, h₂, h₃, rfl⟩
      · cases h
  · rintro (⟨r₀, r₁, r₂, r₃, c, h₀, h₁, h₂, h₃, h₄, rfl⟩ | ⟨r₀, r₁, r₂, i, h₀, h₁, h₂, h₃, rfl⟩)
    · simp [h₀, h₁, h₂, h₃, h₄]
    · simp [h₀, h₁, h₂, h₃]

theorem hasWords_of_readLine {line : List Char} {st : Statement} (h : readLine line = some st) :
    st.HasWords := by
  rcases readLine_eq_some.mp h with ⟨_, _, _, _, c, -, ht, hn, hk, -, rfl⟩ |
      ⟨_, _, _, i, -, hr, hm, -, rfl⟩
  · simp only [Statement.HasWords, Statement.names, List.forall_mem_cons]
    exact ⟨isWord_of_readField ht, isWord_of_readField hn, isWord_of_readField hk,
      List.forall_mem_nil _⟩
  · simp only [Statement.HasWords, Statement.names, List.forall_mem_cons]
    exact ⟨isWord_of_readField hr, isWord_of_readField hm, List.forall_mem_nil _⟩

/-- **The names in an intermediate text are words**: each statement is read from a line. -/
theorem hasWords_of_readLines {n : Nat} {ls : List (List Char)} {S : List Statement}
    (h : readLines n ls = .ok S) : ∀ st ∈ S, st.HasWords := by
  induction ls generalizing n S with
  | nil => cases h; exact nofun
  | cons l ls ih =>
      rw [readLines] at h
      split at h
      · exact ih h
      · split at h
        · next st hl =>
            obtain ⟨S', hS, rfl⟩ := map_eq_ok.mp h
            exact List.forall_mem_cons.mpr ⟨hasWords_of_readLine hl, ih hS⟩
        · cases h

end Intermediate

/-- **Both front ends give sound statements.**  Those of a script have names that are words without
quotes and opening parentheses, and arguments that are bare literals or quoted tokens and hold no
line feed.  Those of an intermediate text have words for names, so that they are read back when they
are written again. -/
theorem front_ends_sound :
    (∀ source S, (normalize source).value = .ok S → ∀ st ∈ S, st.WellFormed) ∧
    ∀ text S, Intermediate.read text = .ok S →
      (∀ st ∈ S, st.HasWords) ∧ Intermediate.read (Intermediate.write S) = .ok S := by
  refine ⟨fun source S h => wellFormed_of_normalize h, fun text S h => ?_⟩
  have hw := Intermediate.hasWords_of_readLines h
  exact ⟨hw, Intermediate.read_write hw⟩

/-- A script with a parenthesis, a marker and both quotes in its arguments, and an intermediate text
that is spelled as no writer would. -/
theorem front_ends_sound_quotes :
    let source := "é - m ::= C ('(\"\\' -> ' 0x1f\t&a::b) // c\n"
    let st : Statement := .construct ⟨"é", "m", "C", ["'(\"\\' -> '", "0x1f", "&a::b"]⟩
    let text := "\tmethod  a\tb [ \"c\\d\" , ]\n"
    let st' : Statement := .invoke ⟨"a", "b", ["c\\d"]⟩
    (normalize source).value = .ok [st] ∧ st.WellFormed ∧
      Intermediate.read text = .ok [st'] ∧ st'.HasWords ∧
      Intermediate.read (Intermediate.write [st']) = .ok [st'] := by
  intro source st text st'
  have hs : (normalize source).value = .ok [st] := by decide +kernel
  have ht : Intermediate.read text = .ok [st'] := by decide +kernel
  obtain ⟨hw, hr⟩ := front_ends_sound.2 text [st'] ht
  exact ⟨hs, front_ends_sound.1 source [st] hs st List.mem_cons_self, ht,
    hw st' List.mem_cons_self, hr⟩

end SceneScript
