import Mathlib.Data.List.Induction
import SceneScript.Proofs.Result
import SceneScript.Proofs.Table
import SceneScript.Registry

/-!
# Proofs — Registry — layering rule files

A registry starts empty or with the built-in targets (`Base`), and rule files are offered to it one
after another (`Registry.offerAll`); a file with faults is passed over.  `RuleFile.Sound` says without
the checker what a file without faults is like, and that does not depend on the registry.  So the
files that count are known beforehand, and a whole run is one registration of all their entries, after
those of the start (`registerAll_history`).

**The registry after any run** (`offered_registry`).  The targets are the identifiers of that history
in order of first appearance.  Under each stands the rule set of the last sound file that has one,
compiled, or that of the start.
-/

namespace SceneScript

open Text

/-! ### Sound rule files -/

/-- A rule set that can be registered under an identifier: the identifier is neither blank nor the
one of the intermediate text, and each template compiles for its own kind of statement. -/
structure RuleSet.Fits (s : RuleSet) (id : String) : Prop where
  not_blank    : trim id.toList ≠ []
  not_reserved : id ≠ "txt"
  construct    : ∃ t : Template ConstructField, Template.compile s.construct = .ok t
  invoke       : ∃ t : Template InvokeField, Template.compile s.invoke = .ok t

/-- A rule file that a registry accepts: it has the right version, and every entry fits. -/
structure RuleFile.Sound (f : RuleFile) : Prop where
  version : f.version = "1.0"
  entries : ∀ e ∈ f.rules.entries, e.2.Fits e.1

theorem RuleSet.Fits.exists_compile {s : RuleSet} {id : String} (h : s.Fits id) :
    ∃ rules, s.compile = .ok rules := by
  obtain ⟨construct, hc⟩ := h.construct
  obtain ⟨invoke, hi⟩ := h.invoke
  exact ⟨⟨s.start, construct, invoke, s.finish⟩, by rw [RuleSet.compile, hc, hi]; rfl⟩

namespace RuleFile

variable {f : RuleFile}

theorem entryFaults_eq_nil {id : String} {s : RuleSet} : entryFaults id s = [] ↔ s.Fits id := by
  rw [entryFaults]
  constructor
  · intro h
    simp only [List.append_eq_nil_iff] at h
    obtain ⟨⟨⟨hb, hr⟩, hc⟩, hi⟩ := h
    refine ⟨by simpa using hb, fun e => by simp [intermediateId, e] at hr, ?_, ?_⟩
    · split at hc
      · next t ht => exact ⟨t, ht⟩
      · cases hc
    · split at hi
      · next t ht => exact ⟨t, ht⟩
      · cases hi
  · rintro ⟨hb, hr, ⟨c, hc⟩, i, hi⟩
    simp [hb, hr, hc, hi, intermediateId]

/-- **The checker finds nothing exactly in sound files.** -/
theorem faults_eq_nil : f.faults = [] ↔ f.Sound := by
  have hv : (if f.version = ruleFileVersion then [] else [RuleFault.version f.version]) = [] ↔
      f.version = "1.0" := by
    by_cases h : f.version = ruleFileVersion
    · simp [h, ruleFileVersion]
    · rw [if_neg h]
      exact ⟨nofun, fun e => absurd e h⟩
  rw [faults, List.append_eq_nil_iff, List.flatMap_eq_nil_iff, hv]
  constructor
  · rintro ⟨hv, he⟩
    exact ⟨hv, fun e hm => entryFaults_eq_nil.mp (he e hm)⟩
  · rintro ⟨hv, he⟩
    exact ⟨hv, fun e hm => entryFaults_eq_nil.mpr (he e hm)⟩

instance (f : RuleFile) : Decidable f.Sound :=
  decidable_of_iff _ faults_eq_nil

/-- The checker itself never reports that a rule set failed to compile later on. -/
theorem uncompiled_not_mem_faults (id : String) (e : TemplateError) :
    RuleFault.uncompiled id e ∉ f.faults := by
  rw [faults, List.mem_append, List.mem_flatMap]
  rintro (h | ⟨⟨id', s⟩, -, h⟩)
  · split at h <;> simp at h
  · simp only [entryFaults, List.mem_append] at h
    rcases h with ((h | h) | h) | h <;> split at h <;> simp at h

end RuleFile

namespace Registry

variable {r r' : Registry} {es : List (String × RuleSet)} {f : RuleFile} {id : String}

/-! ### Registering entries -/

theorem get?_register_self (r : Registry) (id : String) (rules : CompiledRules) :
    (r.register id rules).get? id = some rules :=
  Table.get?_insert_self r.table id rules

theorem get?_register_of_ne {other : String} (h : other ≠ id) (r : Registry)
    (rules : CompiledRules) : (r.register id rules).get? other = r.get? other :=
  Table.get?_insert_of_ne h r.table rules

theorem targets_register (r : Registry) (id : String) (rules : CompiledRules) :
    (r.register id rules).targets = if id ∈ r.targets then r.targets else r.targets ++ [id] :=
  Table.keys_insert r.table id rules

theorem nodup_targets (r : Registry) : r.targets.Nodup :=
  r.table.nodup

theorem registerAll_cons_eq_ok {e : String × RuleSet} :
    r.registerAll (e :: es) = .ok r' ↔
      ∃ rules, e.2.compile = .ok rules ∧ (r.register e.1 rules).registerAll es = .ok r' := by
  rw [registerAll]
  cases e.2.compile <;> simp

theorem registerAll_append (r : Registry) (es es' : List (String × RuleSet)) :
    r.registerAll (es ++ es') = (r.registerAll es).bind fun r => r.registerAll es' := by
  induction es generalizing r with
  | nil => rfl
  | cons e es ih =>
      rw [List.cons_append, registerAll, registerAll]
      cases e.2.compile with
      | ok rules => exact ih _
      | error e => rfl

/-- **Entries that fit are all registered.** -/
theorem exists_registerAll (h : ∀ e ∈ es, e.2.Fits e.1) (r : Registry) :
    ∃ r', r.registerAll es = .ok r' := by
  induction es generalizing r with
  | nil => exact ⟨r, rfl⟩
  | cons e es ih =>
      obtain ⟨he, hes⟩ := List.forall_mem_cons.mp h
      obtain ⟨rules, hc⟩ := he.exists_compile
      obtain ⟨r', hr'⟩ := ih hes (r.register e.1 rules)
      exact ⟨r', registerAll_cons_eq_ok.mpr ⟨rules, hc, hr'⟩⟩

theorem get?_registerAll_of_not_mem (h : r.registerAll es = .ok r') (hid : id ∉ es.map (·.1)) :
    r'.get? id = r.get? id := by
  induction es generalizing r with
  | nil => cases h; rfl
  | cons e es ih =>
      obtain ⟨rules, -, h⟩ := registerAll_cons_eq_ok.mp h
      rw [List.map_cons, List.mem_cons, not_or] at hid
      obtain ⟨hne, hid⟩ := hid
      rw [ih h hid, get?_register_of_ne hne]

/-- **An entry is found under its identifier**, compiled, when no later one has the same. -/
theorem get?_registerAll_of_mem (h : r.registerAll es = .ok r') (hn : (es.map (·.1)).Nodup)
    {s : RuleSet} (hm : (id, s) ∈ es) : ∃ rules, s.compile = .ok rules ∧ r'.get? id = some rules := by
  induction es generalizing r with
  | nil => cases hm
  | cons e es ih =>
      obtain ⟨rules, hc, h⟩ := registerAll_cons_eq_ok.mp h
      obtain ⟨he, hn⟩ := List.nodup_cons.mp hn
      rcases List.mem_cons.mp hm with rfl | hm
      · exact ⟨rules, hc, by rw [get?_registerAll_of_not_mem h he, get?_register_self]⟩
      · exact ih h hn hm

theorem eraseDups_of_nodup {ks : List String} (h : ks.Nodup) : ks.eraseDups = ks := by
  induction ks with
  | nil => rfl
  | cons k ks ih =>
      obtain ⟨hk, h⟩ := List.nodup_cons.mp h
      have hf : ks.filter (fun k' => !k' == k) = ks :=
        List.filter_eq_self.mpr fun k' hm => by
          simpa using fun e : k' = k => hk (e ▸ hm)
      rw [List.eraseDups_cons, hf, ih h]

/-- **Targets stand in order of first registration.** -/
theorem targets_registerAll (h : r.registerAll es = .ok r') :
    r'.targets = (r.targets ++ es.map (·.1)).eraseDups := by
  induction es generalizing r with
  | nil =>
      cases h
      rw [List.map_nil, List.append_nil, eraseDups_of_nodup (nodup_targets _)]
  | cons e es ih =>
      obtain ⟨rules, -, h⟩ := registerAll_cons_eq_ok.mp h
      rw [ih h, targets_register]
      split
      · next hm =>
          -- an identifier that is known already adds nothing
          rw [List.eraseDups_append, List.map_cons, List.eraseDups_append, List.cons_removeAll]
          simp [hm]
      · rw [List.append_assoc, List.singleton_append, List.map_cons]

/-! ### Offering files -/

theorem layer_eq_ok : r.layer f = .ok r' ↔ f.Sound ∧ r.registerAll f.rules.entries = .ok r' := by
  rw [layer, ← RuleFile.faults_eq_nil]
  by_cases h : f.faults = []
  · simp only [h, List.isEmpty_nil, if_true, true_and]
    cases r.registerAll f.rules.entries <;> simp
  · simp [h]

/-- A refused file is refused for its own faults. -/
theorem layer_eq_error {faults : List RuleFault} :
    r.layer f = .error faults ↔ ¬ f.Sound ∧ faults = f.faults := by
  by_cases h : f.Sound
  · obtain ⟨r', hr'⟩ := exists_registerAll h.entries r
    simp [layer_eq_ok.mpr ⟨h, hr'⟩, h]
  · have hne := mt RuleFile.faults_eq_nil.mp h
    rw [layer, if_neg (by simpa using hne)]
    simp [h, eq_comm]

/-- The registry after a rule file was offered to it: one with faults is passed over. -/
def offer (r : Registry) (f : RuleFile) : Registry :=
  match r.layer f with
  | .ok r'   => r'
  | .error _ => r

/-- The registry after rule files were offered to it, one after another. -/
def offerAll (r : Registry) (files : List RuleFile) : Registry :=
  files.foldl offer r

theorem offer_of_not_sound (h : ¬ f.Sound) (r : Registry) : r.offer f = r := by
  rw [offer, layer_eq_error.mpr ⟨h, rfl⟩]

theorem registerAll_offer (h : f.Sound) (r : Registry) :
    r.registerAll f.rules.entries = .ok (r.offer f) := by
  obtain ⟨r', hr'⟩ := exists_registerAll h.entries r
  rw [offer, layer_eq_ok.mpr ⟨h, hr'⟩, hr']

/-- **A run is one registration** of the entries of all sound files. -/
theorem registerAll_offerAll (files : List RuleFile) (r : Registry) :
    r.registerAll ((files.filter (·.Sound)).flatMap (·.rules.entries)) = .ok (r.offerAll files) := by
  induction files generalizing r with
  | nil => rfl
  | cons f files ih =>
      rw [offerAll, List.foldl_cons, ← offerAll]
      by_cases h : f.Sound
      · rw [List.filter_cons_of_pos (by simpa using h), List.flatMap_cons, registerAll_append,
          registerAll_offer h]
        exact ih (r.offer f)
      · rw [List.filter_cons_of_neg (by simpa using h), offer_of_not_sound h]
        exact ih r

theorem get?_offer_of_none (h : f.Sound) (hid : f.rules.get? id = none) (r : Registry) :
    (r.offer f).get? id = r.get? id :=
  get?_registerAll_of_not_mem (registerAll_offer h r) (Table.get?_eq_none.mp hid)

theorem get?_offer_of_some (h : f.Sound) {s : RuleSet} (hs : f.rules.get? id = some s)
    (r : Registry) : ∃ rules, s.compile = .ok rules ∧ (r.offer f).get? id = some rules :=
  get?_registerAll_of_mem (registerAll_offer h r) f.rules.nodup (Table.mem_entries_of_get? hs)

/-! ### The registry after a run -/

/-- What a run starts from. -/
inductive Base where
  | empty
  | builtin
  deriving DecidableEq, Repr

/-- The registry at the start. -/
def Base.registry : Base → Registry
  | .empty   => Registry.empty
  | .builtin => Registry.builtin

/-- The rule sets that are there at the start. -/
def Base.rules : Base → Table RuleSet
  | .empty   => {}
  | .builtin => .ofList builtinRules

theorem Base.fits (base : Base) : ∀ e ∈ base.rules.entries, e.2.Fits e.1 := by
  cases base with
  | empty => exact nofun
  | builtin =>
      intro e he
      rw [List.mem_singleton.mp he]
      exact RuleFile.entryFaults_eq_nil.mp (by decide +kernel)

theorem Base.registerAll_rules (base : Base) :
    Registry.empty.registerAll base.rules.entries = .ok base.registry := by
  cases base with
  | empty => rfl
  | builtin =>
      obtain ⟨r, hr⟩ := exists_registerAll Base.builtin.fits Registry.empty
      have hb : Registry.empty.registerAll builtinRules = .ok r := hr
      rw [hr, registry, Registry.builtin, hb]

/-- What stands under an identifier after a run: the rule set of the last sound file that has one,
and otherwise that of the start. -/
def lastRules (base : Base) (files : List RuleFile) (id : String) : Option RuleSet :=
  ((files.filter (·.Sound)).reverse.findSome? (·.rules.get? id)).or (base.rules.get? id)

theorem lastRules_concat (base : Base) (files : List RuleFile) (f : RuleFile) (id : String) :
    lastRules base (files ++ [f]) id =
      if f.Sound then (f.rules.get? id).or (lastRules base files id)
      else lastRules base files id := by
  by_cases h : f.Sound
  · cases hg : f.rules.get? id <;> simp [lastRules, h, hg]
  · simp [lastRules, h]

/-- **The last file counts**, and no other: by induction on the files, from the last one back. -/
theorem get?_offerAll (base : Base) (files : List RuleFile) (id : String) :
    match lastRules base files id with
    | none   => (base.registry.offerAll files).get? id = none
    | some s => ∃ rules, s.compile = .ok rules ∧
        (base.registry.offerAll files).get? id = some rules := by
  induction files using List.reverseRecOn with
  | nil =>
      have hb := base.registerAll_rules
      rw [show lastRules base [] id = base.rules.get? id from rfl]
      cases hs : base.rules.get? id with
      | none => exact get?_registerAll_of_not_mem hb (Table.get?_eq_none.mp hs)
      | some s => exact get?_registerAll_of_mem hb base.rules.nodup (Table.mem_entries_of_get? hs)
  | append_singleton files f ih =>
      rw [lastRules_concat, offerAll, List.foldl_append, List.foldl_cons, List.foldl_nil, ← offerAll]
      by_cases h : f.Sound
      · rw [if_pos h]
        cases hs : f.rules.get? id with
        | none => rwa [Option.none_or, get?_offer_of_none h hs]
        | some s => exact get?_offer_of_some h hs _
      · rwa [if_neg h, offer_of_not_sound h]

/-- **A run from the start is one registration**: the rule sets of the start, and then the entries of
all sound files. -/
theorem registerAll_history (base : Base) (files : List RuleFile) :
    Registry.empty.registerAll
        (base.rules.entries ++ (files.filter (·.Sound)).flatMap (·.rules.entries)) =
      .ok (base.registry.offerAll files) := by
  rw [registerAll_append, base.registerAll_rules]
  exact registerAll_offerAll files base.registry

theorem targets_offerAll (base : Base) (files : List RuleFile) :
    (base.registry.offerAll files).targets =
      (base.rules.keys ++ (files.filter (·.Sound)).flatMap (·.rules.keys)).eraseDups := by
  rw [targets_registerAll (registerAll_history base files), List.map_append, List.map_flatMap]
  rfl

theorem fits_of_mem_targets {base : Base} {files : List RuleFile}
    (h : id ∈ (base.registry.offerAll files).targets) : ∃ s : RuleSet, s.Fits id := by
  rw [targets_offerAll, List.mem_eraseDups, List.mem_append, List.mem_flatMap] at h
  rcases h with h | ⟨f, hf, h⟩
  · obtain ⟨e, he, rfl⟩ := List.mem_map.mp h
    exact ⟨e.2, base.fits e he⟩
  · obtain ⟨e, he, rfl⟩ := List.mem_map.mp h
    have hs : f.Sound := by simpa using (List.mem_filter.mp hf).2
    exact ⟨e.2, hs.entries e he⟩

/-- **The registry after any run.**  A file is accepted next exactly if it is sound, and one that is
refused is refused by the checker, before any of its entries is registered.  The targets are distinct,
none is blank or the intermediate text, and they stand in order of first registration.  Under each
identifier stands the compiled rule set of the last sound file that has one, or that of the start, and
nothing under all others.  The other questions that can be asked agree with the targets. -/
theorem offered_registry (base : Base) (files : List RuleFile) :
    let r := base.registry.offerAll files
    (∀ f, (∃ r', r.layer f = .ok r') ↔ f.Sound) ∧
    (∀ f faults, r.layer f = .error faults → ∀ id e, RuleFault.uncompiled id e ∉ faults) ∧
    r.targets.Nodup ∧
    (∀ id ∈ r.targets, trim id.toList ≠ [] ∧ id ≠ "txt") ∧
    (∀ id, match lastRules base files id with
      | none   => r.get? id = none
      | some s => ∃ rules, s.compile = .ok rules ∧ r.get? id = some rules) ∧
    r.targets = (base.rules.keys ++ (files.filter (·.Sound)).flatMap (·.rules.keys)).eraseDups ∧
    (∀ id, r.contains id = true ↔ id ∈ r.targets) ∧
    r.size = r.targets.length ∧
    (r.isEmpty = true ↔ r.targets = []) := by
  intro r
  refine ⟨fun f => ⟨?_, fun h => ?_⟩, ?_, nodup_targets r, fun id h => ?_, get?_offerAll base files,
    targets_offerAll base files, fun id => Table.contains_iff, ?_, ?_⟩
  · rintro ⟨r', h⟩
    exact (layer_eq_ok.mp h).1
  · exact ⟨r.offer f, layer_eq_ok.mpr ⟨h, registerAll_offer h r⟩⟩
  · intro f faults h id e
    rw [(layer_eq_error.mp h).2]
    exact RuleFile.uncompiled_not_mem_faults id e
  · obtain ⟨s, hs⟩ := fits_of_mem_targets h
    exact ⟨hs.not_blank, hs.not_reserved⟩
  · exact (List.length_map _).symm
  · rw [isEmpty, Table.isEmpty, List.isEmpty_iff, targets, Table.keys, List.map_eq_nil_iff]

/-- A new target, a file that takes the reserved identifier, and a file that overrides the built-in
target. -/
theorem offered_registry_override :
    let mine : RuleSet := { construct := "\x7bvar_name\x7d", invoke := "\x7bmethod_name\x7d" }
    let bad : RuleFile := ⟨"1.0", .ofList [("cpp", .cpp), ("txt", mine)]⟩
    let files : List RuleFile :=
      [⟨"1.0", .ofList [("py", .cpp)]⟩, ⟨"1.0", .ofList [("cpp", mine)]⟩, bad]
    let r := Base.builtin.registry.offerAll files
    r.layer bad = .error [.reservedTarget "txt"] ∧
    RuleFault.uncompiled "txt" (.unclosed 0) ∉ [RuleFault.reservedTarget "txt"] ∧
    r.targets = ["cpp", "py"] ∧ r.contains "py" = true ∧
    trim "py".toList ≠ [] ∧ "py" ≠ "txt" ∧
    lastRules .builtin files "cpp" = some mine ∧
    ∃ rules, mine.compile = .ok rules ∧ r.get? "cpp" = some rules := by
  intro mine bad files r
  obtain ⟨-, hu, -, hn, hg, ht, hc, -⟩ := offered_registry .builtin files
  have hf : bad.faults = [.reservedTarget "txt"] := by decide +kernel
  have hb : r.layer bad = .error [.reservedTarget "txt"] :=
    layer_eq_error.mpr ⟨by decide +kernel, hf.symm⟩
  have ht : r.targets = ["cpp", "py"] := ht.trans (by decide +kernel)
  have hpy : "py" ∈ r.targets := ht ▸ by decide
  have hl : lastRules .builtin files "cpp" = some mine := by decide +kernel
  have hg := hg "cpp"
  rw [hl] at hg
  exact ⟨hb, hu bad _ hb _ _, ht, (hc "py").mpr hpy, (hn "py" hpy).1, (hn "py" hpy).2, hl, hg⟩

end Registry

end SceneScript
