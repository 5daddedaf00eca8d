import SceneScript.Host

/-!
# Proofs — Host

Actions in a world, followed step by step.  An action gives a value (`World.Yields`) or fails
(`World.Fails`), and there is a world after it in both cases (`World.after`).

A failure undoes nothing, so whether one leaves something behind depends on the order of the steps
before it.  Three properties tell steps apart, and a sequence has one of them if its steps do:
* an action that only looks leaves files and output alone (`Looks`);
* an action that is sure never fails (`Sure`);
* an action that is tidy leaves files and output alone if it fails (`Tidy`).

To look first and be tidy then is tidy (`Looks.bind_tidy`), and so is to be tidy first and sure then
(`Tidy.bind_sure`).
-/

namespace SceneScript

/-- Something that can be done in a world, and can fail. -/
abbrev Act (ε α : Type) : Type :=
  ExceptT ε (StateM World) α

namespace World

variable {ε δ α β : Type}

/-- The world after an action, also if it failed. -/
def after (w : World) (x : Act ε α) : World :=
  (w.perform x).2

/-- The action gives a value. -/
def Yields (w : World) (x : Act ε α) (a : α) : Prop :=
  (w.perform x).1 = .ok a

/-- The action fails. -/
def Fails (w : World) (x : Act ε α) (e : ε) : Prop :=
  (w.perform x).1 = .error e

/-- The other world has the same files and the same output; events may have been reported. -/
structure Untouched (w w' : World) : Prop where
  files  : w'.files = w.files
  output : w'.output = w.output

theorem Untouched.refl (w : World) : w.Untouched w := ⟨rfl, rfl⟩

theorem Untouched.trans {w w' w'' : World} (h : w.Untouched w') (h' : w'.Untouched w'') :
    w.Untouched w'' :=
  ⟨h'.files.trans h.files, h'.output.trans h.output⟩

/-! ### One action after another -/

section Bind

variable {w : World} {x : Act ε α} {f : α → Act ε β}

theorem yields_or_fails (w : World) (x : Act ε α) : (∃ a, w.Yields x a) ∨ ∃ e, w.Fails x e := by
  unfold Yields Fails
  cases (w.perform x).1 with
  | ok a => exact .inl ⟨a, rfl⟩
  | error e => exact .inr ⟨e, rfl⟩

theorem perform_bind_of_ok {a : α} {w' : World} (h : w.perform x = (.ok a, w')) :
    w.perform (x >>= f) = w'.perform (f a) := by
  rw [perform] at h
  simp only [perform, ExceptT.run_bind, StateT.run_bind, h]
  rfl

theorem perform_bind_of_error {e : ε} {w' : World} (h : w.perform x = (.error e, w')) :
    w.perform (x >>= f) = (.error e, w') := by
  rw [perform] at h
  simp only [perform, ExceptT.run_bind, StateT.run_bind, h]
  rfl

theorem perform_bind_of_yields {a : α} (h : w.Yields x a) :
    w.perform (x >>= f) = (w.after x).perform (f a) :=
  perform_bind_of_ok (Prod.ext h rfl)

theorem perform_bind_of_fails {e : ε} (h : w.Fails x e) :
    w.perform (x >>= f) = (.error e, w.after x) :=
  perform_bind_of_error (Prod.ext h rfl)

theorem after_bind {a : α} (h : w.Yields x a) : w.after (x >>= f) = (w.after x).after (f a) :=
  congrArg Prod.snd (perform_bind_of_yields h)

theorem after_bind_of_fails {e : ε} (h : w.Fails x e) : w.after (x >>= f) = w.after x :=
  congrArg Prod.snd (perform_bind_of_fails h)

/-- **A sequence gives a value** if its first action does and the second one goes on from there. -/
theorem yields_bind {b : β} :
    w.Yields (x >>= f) b ↔ ∃ a, w.Yields x a ∧ (w.after x).Yields (f a) b := by
  rcases w.yields_or_fails x with ⟨a, ha⟩ | ⟨e, he⟩
  · rw [Yields, perform_bind_of_yields ha]
    refine ⟨fun h => ⟨a, ha, h⟩, ?_⟩
    rintro ⟨a', ha', h⟩
    cases ha.symm.trans ha'
    exact h
  · rw [Yields, perform_bind_of_fails he]
    refine ⟨nofun, ?_⟩
    rintro ⟨a', ha', -⟩
    cases he.symm.trans ha'

/-- **A sequence fails** at its first action or at its second one. -/
theorem fails_bind {e : ε} :
    w.Fails (x >>= f) e ↔ w.Fails x e ∨ ∃ a, w.Yields x a ∧ (w.after x).Fails (f a) e := by
  rcases w.yields_or_fails x with ⟨a, ha⟩ | ⟨e', he⟩
  · rw [Fails, perform_bind_of_yields ha]
    refine ⟨fun h => .inr ⟨a, ha, h⟩, ?_⟩
    rintro (h | ⟨a', ha', h⟩)
    · cases ha.symm.trans h
    · cases ha.symm.trans ha'
      exact h
  · rw [Fails, perform_bind_of_fails he]
    constructor
    · intro h
      cases h
      exact .inl he
    · rintro (h | ⟨a', ha', -⟩)
      · cases he.symm.trans h
        rfl
      · cases he.symm.trans ha'

end Bind

/-! ### Requests -/

@[simp] theorem yields_pure {w : World} {a b : α} : w.Yields (pure a : Act ε α) b ↔ a = b :=
  ⟨Except.ok.inj, congrArg Except.ok⟩

@[simp] theorem not_yields_throw {w : World} {e : ε} {a : α} :
    ¬ w.Yields (throw e : Act ε α) a :=
  nofun

@[simp] theorem yields_read {w : World} {path : String} {r : Except FileError String} :
    w.Yields (Host.read path : Act ε _) r ↔ w.files.read path = r :=
  ⟨Except.ok.inj, congrArg Except.ok⟩

theorem perform_write (w : World) (path text : String) :
    w.perform (Host.write path text : Act ε _) =
      (.ok (w.write path text).1, (w.write path text).2) :=
  rfl

end World

open World

namespace Act

variable {ε δ α β : Type} {x : Act ε α} {f : α → Act ε β}

/-- The action only looks at the world. -/
def Looks (x : Act ε α) : Prop :=
  ∀ w : World, w.Untouched (w.after x)

/-- The action never fails. -/
def Sure (x : Act ε α) : Prop :=
  ∀ w : World, ∃ a, w.Yields x a

/-- The action leaves files and output alone if it fails. -/
def Tidy (x : Act ε α) : Prop :=
  ∀ (w : World) (e : ε), w.Fails x e → w.Untouched (w.after x)

theorem looks_pure (a : α) : Looks (pure a : Act ε α) := fun w => .refl w

theorem looks_throw (e : ε) : Looks (throw e : Act ε α) := fun w => .refl w

theorem looks_read (path : String) : Looks (Host.read path : Act ε _) := fun w => .refl w

theorem looks_contains (path : String) : Looks (Host.contains path : Act ε _) := fun w => .refl w

theorem looks_report (event : Event) : Looks (Host.report event : Act ε _) := fun _ => ⟨rfl, rfl⟩

theorem sure_report (event : Event) : Sure (Host.report event : Act ε _) := fun _ => ⟨(), rfl⟩

theorem sure_printLine (text : String) : Sure (printLine text : Act ε _) := fun _ => ⟨(), rfl⟩

theorem Looks.bind (hx : Looks x) (hf : ∀ a, Looks (f a)) : Looks (x >>= f) := by
  intro w
  rcases w.yields_or_fails x with ⟨a, ha⟩ | ⟨e, he⟩
  · rw [after_bind ha]
    exact (hx w).trans (hf a _)
  · rw [after_bind_of_fails he]
    exact hx w

theorem Sure.bind (hx : Sure x) (hf : ∀ a, Sure (f a)) : Sure (x >>= f) := by
  intro w
  obtain ⟨a, ha⟩ := hx w
  obtain ⟨b, hb⟩ := hf a (w.after x)
  exact ⟨b, yields_bind.mpr ⟨a, ha, hb⟩⟩

theorem Looks.tidy (hx : Looks x) : Tidy x := fun w _ _ => hx w

theorem Sure.tidy (hx : Sure x) : Tidy x := by
  intro w e he
  obtain ⟨a, ha⟩ := hx w
  cases he.symm.trans ha

/-- **To look first and be tidy then is tidy.** -/
theorem Looks.bind_tidy (hx : Looks x) (hf : ∀ a, Tidy (f a)) : Tidy (x >>= f) := by
  intro w e h
  rcases fails_bind.mp h with he | ⟨a, ha, he⟩
  · rw [after_bind_of_fails he]
    exact hx w
  · rw [after_bind ha]
    exact (hx w).trans (hf a _ e he)

/-- **To be tidy first and sure then is tidy.** -/
theorem Tidy.bind_sure (hx : Tidy x) (hf : ∀ a, Sure (f a)) : Tidy (x >>= f) := by
  intro w e h
  rcases fails_bind.mp h with he | ⟨a, ha, he⟩
  · rw [after_bind_of_fails he]
    exact hx w e he
  · obtain ⟨b, hb⟩ := hf a (w.after x)
    cases he.symm.trans hb

/-- The other way round is not tidy: what was printed stays printed. -/
example : (({} : World).after (printLine "a" >>= fun _ => throw "b" : Act String Unit)).output =
    "a\n" := by decide

theorem sure_forM {γ : Type} {g : γ → Act ε PUnit} (hg : ∀ c, Sure (g c)) (cs : List γ) :
    Sure (cs.forM g) := by
  induction cs with
  | nil => exact fun _ => ⟨_, rfl⟩
  | cons c cs ih => exact (hg c).bind fun _ => ih

theorem looks_forM {γ : Type} {g : γ → Act ε PUnit} (hg : ∀ c, Looks (g c)) (cs : List γ) :
    Looks (cs.forM g) := by
  induction cs with
  | nil => exact looks_pure _
  | cons c cs ih => exact (hg c).bind fun _ => ih

end Act

/-! ### Reports and failures on the way -/

theorem Act.looks_reporting {ε α : Type} (x : Logged α) : Looks (reporting x : Act ε α) :=
  (looks_forM looks_report x.events).bind fun _ => looks_pure x.value

theorem World.perform_forM_report {ε : Type} (w : World) (events : List Event) :
    w.perform (events.forM Host.report : Act ε PUnit) = (.ok ⟨⟩, events.foldl report w) := by
  induction events generalizing w with
  | nil => rfl
  | cons event events ih =>
      have h : w.Yields (Host.report event : Act ε PUnit) ⟨⟩ := rfl
      exact (perform_bind_of_yields h).trans (ih (w.report event))

theorem World.perform_reporting {ε α : Type} (w : World) (x : Logged α) :
    w.perform (reporting x : Act ε α) = (.ok x.value, x.events.foldl report w) := by
  rw [reporting, perform_bind_of_ok (w.perform_forM_report x.events)]
  rfl

@[simp] theorem World.yields_reporting {ε α : Type} {w : World} {x : Logged α} {a : α} :
    w.Yields (reporting x : Act ε α) a ↔ x.value = a := by
  rw [Yields, perform_reporting, Except.ok.injEq]

/-- To word a failure differently changes nothing else. -/
theorem World.perform_adapt {ε δ α : Type} (w : World) (x : Act ε α) (g : ε → δ) :
    w.perform (x.adapt g) = ((w.perform x).1.mapError g, w.after x) :=
  rfl

end SceneScript
