import SceneScript.Convert
import SceneScript.Proofs.Intermediate.RoundTrip
import SceneScript.Proofs.Script.Name

/-!
# Proofs — Convert — one stage and two

A script can be taken to a language at once, or to the intermediate text and from there to the
language.  The two ways agree (`stages_agree`): what a script gives has words for names, so the
intermediate text keeps it (`Intermediate.read_write`), and the second stage starts from the very
statements that the first one ended with.

Each conversion is first put in terms of the two things it depends on, the rules of its target and
what the script gives (`convertSource_intermediate`, `convertSource_language`,
`convertIntermediate_of_get?`); an unknown target is refused before either text is looked at.
-/

namespace SceneScript

theorem Registry.contains_eq_isSome (r : Registry) (id : String) :
    r.contains id = (r.get? id).isSome := by
  rw [contains, get?, Table.contains, Table.get?, Option.isSome_map, Bool.eq_iff_iff,
    List.find?_isSome, List.any_eq_true]

/-! ### What is rendered -/

namespace CompiledRules

theorem foldl_append (r : CompiledRules) (out : String) (S : List Statement) :
    S.foldl r.append out = out ++ String.join (S.map r.renderStatement) := by
  induction S generalizing out with
  | nil => exact String.append_empty.symm
  | cons s S ih =>
      rw [List.foldl_cons, ih, append, List.map_cons, String.join_cons, String.append_assoc]

/-- **What is rendered**: the start, each statement in order by the template of its kind, and the
end. -/
theorem render_eq {r : RuleSet} {rules : CompiledRules} (h : r.compile = .ok rules)
    (S : List Statement) :
    rules.render S = r.start ++ String.join (S.map rules.renderStatement) ++ r.finish ∧
      Template.compile r.construct = .ok rules.construct ∧
      Template.compile r.invoke = .ok rules.invoke := by
  obtain ⟨construct, hc, h⟩ := bind_eq_ok.mp h
  obtain ⟨invoke, hi, h⟩ := bind_eq_ok.mp h
  cases h
  exact ⟨congrArg (· ++ r.finish) (foldl_append _ _ S), hc, hi⟩

end CompiledRules

/-! ### The conversions, by their targets -/

theorem convertSource_intermediate (source : String) (r : Registry) :
    (convertSource source .intermediate r).value =
      match (normalize source).value with
      | .ok S    => .ok (Intermediate.write S)
      | .error e => .error (.malformed e) :=
  rfl

theorem convertSource_language {r : Registry} {id : String} {rules : CompiledRules}
    (h : r.get? id = some rules) (source : String) :
    (convertSource source (.language id) r).value =
      match (normalize source).value with
      | .ok S    => .ok (rules.render S)
      | .error e => .error (.malformed e) := by
  cases hn : (normalize source).value <;>
    simp [convertSource, Target.writer, h, Logged.map, hn]

theorem convertIntermediate_of_get? {r : Registry} {id : String} {rules : CompiledRules}
    (h : r.get? id = some rules) (text : String) :
    (convertIntermediate text id r).value =
      match Intermediate.read text with
      | .ok S    => .ok (rules.render S)
      | .error e => .error (.malformed e) := by
  rw [convertIntermediate, h]
  cases Intermediate.read text <;> rfl

theorem render_of_get? {r : Registry} {id : String} {rules : CompiledRules}
    (h : r.get? id = some rules) (S : List Statement) :
    (r.render S id).value = .ok (rules.render S) := by
  rw [Registry.render, h]

/-! ### The two ways -/

/-- **One stage and two agree**, for every target that is not the intermediate text itself.  An
unknown target is refused by both ways whatever they are given.  For a known one, a script is
refused on the way to the intermediate text just as it is on the way to the language, at the same
line; and an intermediate text that a script gives is never refused, and ends in the same text as the
script itself and as the statements that it gives. -/
theorem stages_agree (r : Registry) {id : String} (hid : id ≠ intermediateId) :
    (r.contains id = false →
      (∀ source, (convertSource source (.ofId id) r).value = .error (.unsupportedTarget id)) ∧
      ∀ text, (convertIntermediate text id r).value = .error (.unsupportedTarget id)) ∧
    (r.contains id = true → ∀ source,
      (∀ line, (convertSource source .intermediate r).value = .error (.malformed ⟨line⟩) ↔
        (convertSource source (.language id) r).value = .error (.malformed ⟨line⟩)) ∧
      ∀ text, (convertSource source .intermediate r).value = .ok text →
        ∃ S out, (normalize source).value = .ok S ∧
          (convertIntermediate text id r).value = .ok out ∧
          (convertSource source (.language id) r).value = .ok out ∧
          (r.render S id).value = .ok out) := by
  rw [Registry.contains_eq_isSome]
  cases h : r.get? id with
  | none =>
      refine ⟨fun _ => ⟨fun source => ?_, fun text => ?_⟩, nofun⟩
      · simp [convertSource, Target.ofId, hid, Target.writer, h]
      · simp [convertIntermediate, h]
  | some rules =>
      refine ⟨nofun, fun _ source => ?_⟩
      rw [convertSource_intermediate, convertSource_language h]
      cases hn : (normalize source).value with
      | error e => exact ⟨fun line => Iff.rfl, nofun⟩
      | ok S =>
          refine ⟨fun line => ⟨nofun, nofun⟩, fun text ht => ?_⟩
          cases ht
          refine ⟨S, rules.render S, rfl, ?_, rfl, render_of_get? h S⟩
          rw [convertIntermediate_of_get? h, Intermediate.read_write (hasWords_of_normalize hn)]

/-- The built-in target knows `cpp` and not `java`; the script has a comment, and a comment marker
in quotes. -/
theorem stages_agree_builtin :
    let source := "a -> b ('//' 2) // c"
    let text := "method a b [\"'//'\", '2']\n"
    "java" ≠ intermediateId ∧ Registry.builtin.contains "java" = false ∧
    (convertSource source (.ofId "java") .builtin).value = .error (.unsupportedTarget "java") ∧
    "cpp" ≠ intermediateId ∧ Registry.builtin.contains "cpp" = true ∧
    (convertSource source .intermediate .builtin).value = .ok text ∧
    ∃ S out, (normalize source).value = .ok S ∧
      (convertIntermediate text "cpp" .builtin).value = .ok out ∧
      (convertSource source (.language "cpp") .builtin).value = .ok out ∧
      (Registry.builtin.render S "cpp").value = .ok out := by
  intro source text
  have hj : "java" ≠ intermediateId := by decide
  have hc : "cpp" ≠ intermediateId := by decide
  have hno : Registry.builtin.contains "java" = false := by decide +kernel
  have hyes : Registry.builtin.contains "cpp" = true := by decide +kernel
  have ht : (convertSource source .intermediate .builtin).value = .ok text := by decide +kernel
  exact ⟨hj, hno, ((stages_agree .builtin hj).1 hno).1 source, hc, hyes, ht,
    ((stages_agree .builtin hc).2 hyes source).2 text ht⟩

end SceneScript
