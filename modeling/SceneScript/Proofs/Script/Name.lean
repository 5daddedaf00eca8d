import Mathlib.Tactic.SplitIfs
import SceneScript.Proofs.Result
import SceneScript.Proofs.Statement
import SceneScript.Script

/-!
# Proofs — Script — the names a script can give

Every statement of a script was read from one of its lines (`exists_row_of_mem`), and a line gives
a statement only through `readName`, which lets nothing through but words without quotes
(`readName_eq_ok`).  So all names of all statements of a script are words (`hasWords_of_normalize`),
whatever the script holds.
-/

namespace SceneScript

open Text

namespace Line

/-- What a name is: the trimmed text, not empty and with neither a blank nor a quote in it. -/
theorem readName_eq_ok {field : NameField} {s : List Char} {n : String} :
    readName field s = .ok n ↔
      String.ofList (trim s) = n ∧ trim s ≠ [] ∧ (∀ c ∈ trim s, isBlank c = false) ∧
        ∀ c ∈ trim s, isQuote c = false := by
  unfold readName
  split_ifs with h₁ h₂ h₃
  · simp [List.isEmpty_iff.mp h₁]
  · simp only [List.any_eq_true] at h₂
    obtain ⟨c, hc, hb⟩ := h₂
    refine ⟨nofun, fun h => ?_⟩
    rw [h.2.2.1 c hc] at hb
    cases hb
  · simp only [List.any_eq_true] at h₃
    obtain ⟨c, hc, hq⟩ := h₃
    refine ⟨nofun, fun h => ?_⟩
    rw [h.2.2.2 c hc] at hq
    cases hq
  · simp only [List.isEmpty_iff] at h₁
    simp only [List.any_eq_true, not_exists, not_and, Bool.not_eq_true] at h₂ h₃
    refine ⟨fun h => ⟨Except.ok.inj h, h₁, h₂, h₃⟩, fun h => ?_⟩
    rw [h.1]

theorem isWord_of_readName {field : NameField} {s : List Char} {n : String}
    (h : readName field s = .ok n) : IsWord n := by
  obtain ⟨rfl, hne, hb, -⟩ := readName_eq_ok.mp h
  refine ⟨fun h => hne ?_, by simpa using hb⟩
  simpa using congrArg String.toList h

/-- All that a line with the construction marker goes through before it gives a statement. -/
theorem readConstruct_eq_ok {s : List Char} {st : Statement} :
    readConstruct s = .ok st ↔
      ∃ decl call t n cls c,
        cut constructMark s = some (decl, call) ∧ cut typeMark decl = some (t, n) ∧
        readCall call = .ok (cls, c.args) ∧ readName .varType t = .ok c.varType ∧
        readName .varName n = .ok c.varName ∧ readName .className cls = .ok c.className ∧
        st = .construct c := by
  unfold readConstruct
  constructor
  · intro h
    cases h₁ : cut constructMark s with
    | none => simp [h₁, throw, throwThe, MonadExceptOf.throw] at h
    | some r =>
        cases h₂ : cut typeMark r.1 with
        | none => simp [h₁, h₂, throw, throwThe, MonadExceptOf.throw] at h
        | some d =>
            simp only [h₁, h₂, bind_eq_ok, pure, Except.pure, Except.ok.injEq] at h
            obtain ⟨⟨cls, args⟩, h₃, t, h₄, n, h₅, c, h₆, rfl⟩ := h
            exact ⟨r.1, r.2, d.1, d.2, cls, ⟨t, n, c, args⟩, rfl, h₂, h₃, h₄, h₅, h₆, rfl⟩
  · rintro ⟨decl, call, t, n, cls, c, h₁, h₂, h₃, h₄, h₅, h₆, rfl⟩
    simp only [h₁, h₂, bind_eq_ok]
    exact ⟨_, h₃, _, h₄, _, h₅, _, h₆, rfl⟩

/-- All that a line with the call marker goes through before it gives a statement. -/
theorem readInvoke_eq_ok {s : List Char} {st : Statement} :
    readInvoke s = .ok st ↔
      ∃ r call m i,
        cut invokeMark s = some (r, call) ∧ readCall call = .ok (m, i.args) ∧
        readName .receiver r = .ok i.receiver ∧ readName .methodName m = .ok i.methodName ∧
        st = .invoke i := by
  unfold readInvoke
  constructor
  · intro h
    cases h₁ : cut invokeMark s with
    | none => simp [h₁, throw, throwThe, MonadExceptOf.throw] at h
    | some r =>
        simp only [h₁, bind_eq_ok, pure, Except.pure, Except.ok.injEq] at h
        obtain ⟨⟨m, args⟩, h₂, r', h₃, m', h₄, rfl⟩ := h
        exact ⟨r.1, r.2, m, ⟨r', m', args⟩, rfl, h₂, h₃, h₄, rfl⟩
  · rintro ⟨r, call, m, i, h₁, h₂, h₃, h₄, rfl⟩
    simp only [h₁, bind_eq_ok]
    exact ⟨_, h₂, _, h₃, _, h₄, rfl⟩

/-- A line gives a statement as a construction, or else as a call. -/
theorem read_eq_some {line : List Char} {st : Statement} :
    read line = .ok (some st) ↔
      (holds constructMark (head (pad line)) ∧ readConstruct (pad line) = .ok st) ∨
      (holds constructMark (head (pad line)) = false ∧ holds invokeMark (head (pad line)) ∧
        readInvoke (pad line) = .ok st) := by
  unfold read
  split_ifs with hc hi
  · simp [hc, map_eq_ok]
  · simp [hc, hi, map_eq_ok]
  · simp [hc, hi]

/-- **The names that a line gives are words.** -/
theorem hasWords_of_read {line : List Char} {st : Statement} (h : read line = .ok (some st)) :
    st.HasWords := by
  rcases read_eq_some.mp h with ⟨-, hc⟩ | ⟨-, -, hi⟩
  · obtain ⟨_, _, _, _, _, c, -, -, -, ht, hn, hk, rfl⟩ := readConstruct_eq_ok.mp hc
    simp only [Statement.HasWords, Statement.names, List.forall_mem_cons]
    exact ⟨isWord_of_readName ht, isWord_of_readName hn, isWord_of_readName hk, nofun⟩
  · obtain ⟨_, _, _, i, -, -, hr, hm, rfl⟩ := readInvoke_eq_ok.mp hi
    simp only [Statement.HasWords, Statement.names, List.forall_mem_cons]
    exact ⟨isWord_of_readName hr, isWord_of_readName hm, nofun⟩

end Line

namespace Script

/-- **Every statement of a reading comes from one of its lines**, or was there before. -/
theorem exists_row_of_mem {s : Stripped} {p : Progress} {rs : List Row} {S : List Statement}
    (h : (readRows s p rs).1 = .ok S) {st : Statement} (hst : st ∈ S) :
    st ∈ p.statements ∨ ∃ r ∈ rs, Line.read r.text = .ok (some st) := by
  induction rs generalizing p with
  | nil =>
      cases h
      exact .inl (Array.mem_toList_iff.mp hst)
  | cons r rs ih =>
      rcases readRows_cons s p r rs with ⟨st', hr, e⟩ | ⟨hr, e⟩ | ⟨reason, hr, e⟩ <;> rw [e] at h
      · rcases ih h with hm | ⟨r', hr', h'⟩
        · rcases Array.mem_push.mp hm with hm | rfl
          · exact .inl hm
          · exact .inr ⟨r, List.mem_cons_self, hr⟩
        · exact .inr ⟨r', List.mem_cons_of_mem r hr', h'⟩
      · rcases ih h with hm | ⟨r', hr', h'⟩
        · exact .inl hm
        · exact .inr ⟨r', List.mem_cons_of_mem r hr', h'⟩
      · cases h

end Script

theorem exists_row_of_normalize {source : String} {S : List Statement}
    (h : (normalize source).value = .ok S) {st : Statement} (hst : st ∈ S) :
    ∃ r ∈ Script.rows 0 ((strip source).residue.splitOn '\n'), Line.read r.text = .ok (some st) :=
  (Script.exists_row_of_mem h hst).resolve_left (by simp)

/-- **The names that a script gives are words**, whatever it holds. -/
theorem hasWords_of_normalize {source : String} {S : List Statement}
    (h : (normalize source).value = .ok S) : ∀ st ∈ S, st.HasWords := by
  intro st hst
  obtain ⟨r, -, hr⟩ := exists_row_of_normalize h hst
  exact Line.hasWords_of_read hr

end SceneScript
