import SceneScript.Command
import SceneScript.Proofs.Host
import SceneScript.Proofs.Result

/-!
# Proofs — Command — the steps of a command

What each step of a command does in a world.  Inputs are read (`perform_readInput`), what became of
them is accepted or refused (`perform_orRefuse`), and a registry is loaded
(`yields_loadRegistry`); all of these only look.  To write a file is tidy (`tidy_writeFile`), and
nothing else that a command does can fail.
-/

namespace SceneScript

open World Act

variable {w : World} {path text : String}

/-! ### Inputs -/

theorem World.perform_readInput (w : World) (path : String) :
    w.perform (readInput path) =
      ((w.files.read path).mapError fun cause => s!"failed to read {path}: {cause.message}",
        w) := by
  have h : w.perform (Host.read path : Act String _) = (.ok (w.files.read path), w) := rfl
  rw [readInput, perform_bind_of_ok h]
  cases w.files.read path <;> rfl

theorem World.yields_readInput : w.Yields (readInput path) text ↔ w.files.read path = .ok text := by
  rw [Yields, perform_readInput, mapError_eq_ok]

theorem Act.looks_readInput (path : String) : Looks (readInput path) := by
  intro w
  rw [after, perform_readInput]
  exact .refl w

section Refuse

variable {ε α : Type} (message : ε → String) (x : Logged (Except ε α))

theorem World.perform_orRefuse (w : World) (path : String) :
    w.perform (orRefuse path message x) =
      (x.value.mapError fun e => s!"{path}: {message e}", x.events.foldl report w) := by
  rw [orRefuse, perform_bind_of_ok (w.perform_reporting x)]
  cases x.value <;> rfl

theorem World.yields_orRefuse {message : ε → String} {x : Logged (Except ε α)} {a : α} :
    w.Yields (orRefuse path message x) a ↔ x.value = .ok a := by
  rw [Yields, perform_orRefuse, mapError_eq_ok]

theorem Act.looks_orRefuse (path : String) : Looks (orRefuse path message x) := by
  refine (looks_reporting x).bind fun r => ?_
  cases r with
  | ok a => exact looks_pure a
  | error e => exact looks_throw _

end Refuse

/-! ### Registries -/

/-- The registry that a command works with, by the files it looks at. -/
inductive Loads (files : FileTree) : Option String → Registry → Prop where
  | builtin : Loads files none .builtin
  | layered {path text : String} {file : RuleFile} {registry : Registry}
      (hread : files.read path = .ok text) (hyaml : RuleFile.ofYaml text = .ok file)
      (hlayer : Registry.builtin.layer file = .ok registry) : Loads files (some path) registry

theorem Act.looks_loadRuleFile (path : String) :
    Looks (RuleFile.load path : Act LoadError RuleFile) := by
  refine (looks_read path).bind fun r => ?_
  cases r with
  | error cause => exact looks_throw _
  | ok text =>
      dsimp only
      cases RuleFile.ofYaml text with
      | error cause => exact looks_throw _
      | ok file => exact looks_pure file

theorem World.yields_loadRuleFile {file : RuleFile} :
    w.Yields (RuleFile.load path : Act LoadError RuleFile) file ↔
      ∃ text, w.files.read path = .ok text ∧ RuleFile.ofYaml text = .ok file := by
  simp only [RuleFile.load, yields_bind, yields_read, exists_eq_left']
  cases w.files.read path with
  | error cause => simp
  | ok text => cases hy : RuleFile.ofYaml text <;> simp [hy]

theorem Act.looks_withRules (r : Registry) (file : RuleFile) :
    Looks (r.withRules file : Act LoadError Registry) := by
  refine (looks_reporting _).bind fun layered => ?_
  cases layered with
  | error faults => exact looks_throw _
  | ok registry => exact looks_pure registry

theorem World.yields_withRules {r registry : Registry} {file : RuleFile} :
    w.Yields (r.withRules file : Act LoadError Registry) registry ↔
      r.layer file = .ok registry := by
  simp only [Registry.withRules, yields_bind, yields_reporting, exists_eq_left']
  cases r.layer file <;> simp

theorem Act.looks_loadRegistry (rules : Option String) : Looks (Command.loadRegistry rules) := by
  intro w
  rw [Command.loadRegistry, after, perform_adapt]
  cases rules with
  | none => exact .refl w
  | some path => exact ((looks_loadRuleFile path).bind (looks_withRules .builtin)) w

/-- **A registry is loaded** exactly if the files hold what it takes. -/
theorem World.yields_loadRegistry {rules : Option String} {registry : Registry} :
    w.Yields (Command.loadRegistry rules) registry ↔ Loads w.files rules registry := by
  rw [Command.loadRegistry, Yields, perform_adapt, mapError_eq_ok]
  cases rules with
  | none =>
      refine yields_pure.trans ⟨?_, ?_⟩
      · rintro rfl
        exact .builtin
      · rintro ⟨⟩
        rfl
  | some path =>
      refine yields_bind.trans ⟨?_, ?_⟩
      · rintro ⟨file, hf, h⟩
        obtain ⟨text, hread, hyaml⟩ := yields_loadRuleFile.mp hf
        exact .layered hread hyaml (yields_withRules.mp h)
      · rintro (_ | ⟨hread, hyaml, h⟩)
        exact ⟨_, yields_loadRuleFile.mpr ⟨_, hread, hyaml⟩, yields_withRules.mpr h⟩

/-! ### Outputs -/

theorem World.perform_writeFile_of_ok {files : FileTree} (h : w.files.write path text = .ok files) :
    w.perform (Command.writeFile path text) = (.ok (), { w with files }) := by
  have hw : w.perform (Host.write path text : Act String _) = (.ok (.ok ()), { w with files }) := by
    rw [perform_write, write, h]
  rw [Command.writeFile, perform_bind_of_ok hw]
  rfl

theorem World.perform_writeFile_of_error {cause : FileError}
    (h : w.files.write path text = .error cause) :
    w.perform (Command.writeFile path text) =
      (.error s!"cannot write {path}: {cause.message}", w) := by
  have hw : w.perform (Host.write path text : Act String _) = (.ok (.error cause), w) := by
    rw [perform_write, write, h]
  rw [Command.writeFile, perform_bind_of_ok hw]
  rfl

theorem World.yields_writeFile :
    w.Yields (Command.writeFile path text) () ↔ ∃ files, w.files.write path text = .ok files := by
  cases h : w.files.write path text with
  | error cause => simp [Yields, perform_writeFile_of_error h]
  | ok files => simp [Yields, perform_writeFile_of_ok h]

theorem Act.tidy_writeFile (path text : String) : Tidy (Command.writeFile path text) := by
  intro w e he
  cases h : w.files.write path text with
  | error cause =>
      rw [after, perform_writeFile_of_error h]
      exact .refl w
  | ok files =>
      rw [Fails, perform_writeFile_of_ok h] at he
      cases he

end SceneScript
