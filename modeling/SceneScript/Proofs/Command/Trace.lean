import Mathlib.Data.List.Induction
import SceneScript.Proofs.Command.Step
import SceneScript.Proofs.FileTree

/-!
# Proofs — Command — what a command leaves behind

**A failure leaves no trace** (`Command.tidy_run`).  A command looks first; when it has come to
print or to write nothing is left that can fail, but for the write itself, which changes nothing if
it fails.

A command finishes a text (`Command.Finishes`) and sends it to one place (`Command.output`): it is
printed, it becomes the content of a file, or it becomes the content of a new file.  Where it
succeeds, its text has arrived (`Command.Output.Delivered`), and it does succeed if its text can be
finished and written (`Command.completes_run`).

**Runs leave nothing unfinished** (`runs_clean`).  Commands that run one after another are clean,
each in the world that the earlier ones left.  So over a whole run a file changes only if a command
that succeeded was told to write it, and then it holds the finished text of such a command.
-/

namespace SceneScript

open World Act

namespace Command

variable {w w' : World} {text : String}

/-! ### A failure leaves no trace -/

theorem tidy_writeOutput (output : Option String) (text : String) :
    Tidy (writeOutput output text) := by
  cases output with
  | none => exact (sure_printLine text).tidy
  | some path => exact (tidy_writeFile path text).bind_sure fun _ => sure_report _

theorem looks_make (input : String) (form : Form) (registry : Registry) (source : String) :
    Looks (form.make input registry source) := by
  cases form with
  | json => exact looks_orRefuse _ _ input
  | text target => exact looks_orRefuse _ _ input

theorem tidy_produce {make : Registry → String → Act String String}
    (hmake : ∀ registry source, Looks (make registry source)) (input : String)
    (output rules : Option String) : Tidy (produce input output rules make) :=
  (looks_loadRegistry rules).bind_tidy fun registry =>
    (looks_readInput input).bind_tidy fun source =>
      (hmake registry source).bind_tidy fun text => tidy_writeOutput output text

/-- **A command that fails leaves files and output alone.** -/
theorem tidy_run (c : Command) : Tidy c.run := by
  cases c with
  | parse input form output rules => exact tidy_produce (looks_make input form) input output rules
  | convert input target output rules =>
      exact tidy_produce (fun _ _ => looks_orRefuse _ _ input) input output rules
  | check input =>
      refine (looks_readInput input).bind_tidy fun source =>
        (looks_orRefuse _ _ input).bind_tidy fun statements => Sure.tidy ?_
      exact (sure_printLine _).bind fun _ => sure_forM (fun _ => sure_report _) _
  | targets rules =>
      refine (looks_loadRegistry rules).bind_tidy fun registry => Sure.tidy ?_
      exact (sure_printLine _).bind fun _ => sure_forM sure_printLine _
  | initRules path =>
      refine (looks_contains path).bind_tidy fun found => ?_
      cases found with
      | true => exact (looks_throw _).tidy
      | false => exact (tidy_writeFile path starterRules).bind_sure fun _ => sure_printLine _

/-! ### What a command finishes, and where it goes -/

/-- Where the finished text of a command goes. -/
inductive Output where
  | stdout
  | file (path : String)
  | newFile (path : String)
  deriving DecidableEq, Repr

/-- A text goes to a file if one is named, and is printed otherwise. -/
def Output.ofOption : Option String → Output
  | some path => .file path
  | none      => .stdout

/-- Scripts and intermediate texts are written to the file that is named, if one is; reports and
lists are printed; the rule file to start from needs a new file. -/
def output : Command → Output
  | .parse _ _ path? _ | .convert _ _ path? _ => .ofOption path?
  | .check _ | .targets _                     => .stdout
  | .initRules path                           => .newFile path

/-- The targets of a registry, one a line. -/
def targetList (registry : Registry) : String :=
  "\n".intercalate (s!"{intermediateId} (intermediate form)" :: registry.targets)

/-- The text of a script in a form. -/
def FormText (registry : Registry) (source text : String) : Form → Prop
  | .json        => (scriptToJson source).value = .ok text
  | .text target => (convertSource source target registry).value = .ok text

/-- The text that a command finishes from the files it looks at. -/
def Finishes (files : FileTree) (text : String) : Command → Prop
  | .parse input form _ rules => ∃ registry, Loads files rules registry ∧
      ∃ source, files.read input = .ok source ∧ FormText registry source text form
  | .convert input target _ rules => ∃ registry, Loads files rules registry ∧
      ∃ source, files.read input = .ok source ∧
        (convertIntermediate source target registry).value = .ok text
  | .check input => ∃ source, files.read input = .ok source ∧
      ∃ statements, (normalize source).value = .ok statements ∧
        text = checkReport input (({} : Normalizer).run source).2.counters statements
  | .targets rules => ∃ registry, Loads files rules registry ∧ text = targetList registry
  | .initRules path => files.contains path = false ∧ text = starterRules

namespace Output

variable {o : Output}

/-- The file that a text goes to, if it goes to one. -/
def path? : Output → Option String
  | .stdout                     => none
  | .file path | .newFile path => some path

/-- The text can be written where it goes. -/
def Writable (files : FileTree) (text : String) (o : Output) : Prop :=
  ∀ path, o.path? = some path → ∃ after, files.write path text = .ok after

/-- The text has arrived in the world after it. -/
def Delivered (w : World) (text : String) (w' : World) : Output → Prop
  | .stdout       => w'.files = w.files ∧ w'.output = w.output ++ (text ++ "\n")
  | .file path    => w'.output = w.output ∧ ∃ name, w.files.Put path text w'.files name
  | .newFile path => w'.output = w.output ++ s!"Created: {path}\n" ∧
      w.files.contains path = false ∧
      ∃ name, w.files.Put path text w'.files name ∧ w.files.entries.get? name = none

theorem Delivered.of_untouched {w₀ : World} (hu : w₀.Untouched w) (h : o.Delivered w text w') :
    o.Delivered w₀ text w' := by
  cases o <;> simpa only [Delivered, hu.files, hu.output] using h

theorem Delivered.eq_or_put (h : o.Delivered w text w') :
    w'.files = w.files ∨
      ∃ path name, o.path? = some path ∧ w.files.Put path text w'.files name := by
  cases o with
  | stdout => exact .inl h.1
  | file path =>
      obtain ⟨-, name, hput⟩ := h
      exact .inr ⟨path, name, rfl, hput⟩
  | newFile path =>
      obtain ⟨-, -, name, hput, -⟩ := h
      exact .inr ⟨path, name, rfl, hput⟩

end Output

/-- An action takes texts of a kind to an output: where it succeeds such a text has arrived, and it
does succeed with any such text that can be written. -/
structure Completes (x : Act String Unit) (o : Output) (kind : FileTree → String → Prop) :
    Prop where
  finished : ∀ w : World, w.Yields x () →
    ∃ text, kind w.files text ∧ o.Delivered w text (w.after x)
  succeeds : ∀ (w : World) (text : String), kind w.files text → o.Writable w.files text →
    w.Yields x () ∧ o.Delivered w text (w.after x)

/-- **To look first** changes nothing about what arrives. -/
theorem Completes.of_looks {α : Type} {x : Act String α} {f : α → Act String Unit} {o : Output}
    {found : FileTree → α → Prop} {kind : α → FileTree → String → Prop} (hx : Looks x)
    (hfound : ∀ (w : World) (a : α), w.Yields x a ↔ found w.files a)
    (hf : ∀ a, Completes (f a) o (kind a)) :
    Completes (x >>= f) o fun files text => ∃ a, found files a ∧ kind a files text where
  finished w h := by
    obtain ⟨a, ha, h⟩ := yields_bind.mp h
    obtain ⟨text, hk, hd⟩ := (hf a).finished _ h
    rw [(hx w).files] at hk
    rw [after_bind ha]
    exact ⟨text, ⟨a, (hfound w a).mp ha, hk⟩, hd.of_untouched (hx w)⟩
  succeeds w text h hw := by
    obtain ⟨a, ha, hk⟩ := h
    have hya := (hfound w a).mpr ha
    have hs := (hf a).succeeds (w.after x) text
    rw [(hx w).files] at hs
    obtain ⟨hy, hd⟩ := hs hk hw
    rw [after_bind hya]
    exact ⟨yields_bind.mpr ⟨a, hya, hy⟩, hd.of_untouched (hx w)⟩

/-! ### Sending a text to its output -/

theorem after_writeFile {files : FileTree} {path : String}
    (h : w.files.write path text = .ok files) : w.after (writeFile path text) = { w with files } :=
  congrArg Prod.snd (perform_writeFile_of_ok h)

/-- For an action that has its text already. -/
theorem Completes.of_delivered {x : Act String Unit} {o : Output} {text : String}
    (hd : ∀ w : World, w.Yields x () → o.Delivered w text (w.after x))
    (hs : ∀ w : World, o.Writable w.files text → w.Yields x ()) :
    Completes x o fun _ t => t = text where
  finished w h := ⟨text, rfl, hd w h⟩
  succeeds w t ht hw := by
    cases ht
    exact ⟨hs w hw, hd w (hs w hw)⟩

theorem completes_writeOutput (path? : Option String) (text : String) :
    Completes (writeOutput path? text) (.ofOption path?) fun _ t => t = text := by
  cases path? with
  | none => exact .of_delivered (fun _ _ => ⟨rfl, rfl⟩) fun _ _ => rfl
  | some path =>
      refine .of_delivered (fun w h => ?_) fun w hw => ?_
      · obtain ⟨u, hy, -⟩ := yields_bind.mp h
        obtain ⟨files, hw⟩ := yields_writeFile.mp hy
        rw [writeOutput, after_bind hy, after_writeFile hw]
        exact ⟨rfl, FileTree.put_of_write hw⟩
      · exact yields_bind.mpr ⟨(), yields_writeFile.mpr (hw path rfl), rfl⟩

/-- A text is printed, and what follows does not show. -/
theorem completes_printLine {y : Act String Unit} (hl : Looks y) (hs : Sure y) (text : String) :
    Completes (printLine text >>= fun _ => y) .stdout fun _ t => t = text := by
  refine .of_delivered (fun w _ => ?_) fun w _ => ?_
  · have hp : w.Yields (printLine text : Act String Unit) () := rfl
    have hu := hl (w.after (printLine text : Act String Unit))
    rw [after_bind hp]
    exact ⟨hu.files, hu.output⟩
  · obtain ⟨⟨⟩, hy⟩ := (sure_printLine text).bind (fun _ => hs) w
    exact hy

/-- Lines are printed one after another. -/
theorem delivered_lines (w : World) (line : String) (lines : List String) :
    Output.stdout.Delivered w ("\n".intercalate (line :: lines))
      (w.after ((line :: lines).forM printLine : Act String PUnit)) := by
  have hp (w : World) (line : String) : w.Yields (printLine line : Act String Unit) () := rfl
  induction lines generalizing w line with
  | nil =>
      rw [String.intercalate_singleton]
      exact ⟨rfl, rfl⟩
  | cons next lines ih =>
      obtain ⟨hf, ho⟩ := ih (w.print (line ++ "\n")) next
      change Output.stdout.Delivered w _
        (w.after (printLine line >>= fun _ => (next :: lines).forM printLine : Act String PUnit))
      rw [after_bind (hp w line), String.intercalate_cons_cons]
      refine ⟨hf, ho.trans ?_⟩
      rw [World.print]
      simp only [String.append_assoc]

theorem completes_lines (line : String) (lines : List String) :
    Completes ((line :: lines).forM printLine) .stdout
      fun _ t => t = "\n".intercalate (line :: lines) := by
  refine .of_delivered (fun w _ => delivered_lines w line lines) fun w _ => ?_
  obtain ⟨⟨⟩, hy⟩ := sure_forM sure_printLine (line :: lines) w
  exact hy

theorem perform_runInitRules (w : World) (path : String) :
    w.perform (runInitRules path) =
      if w.files.contains path then (.error s!"{path} already exists", w)
      else w.perform (writeFile path starterRules >>= fun _ => printLine s!"Created: {path}") := by
  have hc : w.Yields (Host.contains path : Act String Bool) (w.files.contains path) := rfl
  rw [runInitRules, perform_bind_of_yields hc]
  cases w.files.contains path <;> rfl

/-- A new file is written and named, if nothing is in the way of it. -/
theorem delivered_initRules {path : String} {files : FileTree}
    (hfree : w.files.contains path = false) (hw : w.files.write path starterRules = .ok files) :
    w.Yields (runInitRules path) () ∧
      Output.Delivered w starterRules (w.after (runInitRules path)) (.newFile path) := by
  obtain ⟨name, hput⟩ := FileTree.put_of_write hw
  have hnew := FileTree.get?_of_not_contains hfree hw hput.leads
  have hy := yields_writeFile.mpr ⟨files, hw⟩
  rw [Yields, after, perform_runInitRules, hfree, if_neg Bool.false_ne_true,
    perform_bind_of_yields hy, after_writeFile hw]
  exact ⟨rfl, rfl, hfree, name, hput, hnew⟩

theorem completes_initRules (path : String) :
    Completes (runInitRules path) (.newFile path) fun files text =>
      files.contains path = false ∧ text = starterRules where
  finished w h := by
    rw [Yields, perform_runInitRules] at h
    split at h
    · cases h
    · next hc =>
        obtain ⟨u, hy, -⟩ := yields_bind.mp h
        obtain ⟨files, hw⟩ := yields_writeFile.mp hy
        have hfree : w.files.contains path = false := by simpa using hc
        exact ⟨starterRules, ⟨hfree, rfl⟩, (delivered_initRules hfree hw).2⟩
  succeeds w text h hw := by
    obtain ⟨hfree, rfl⟩ := h
    obtain ⟨files, hw⟩ := hw path rfl
    exact delivered_initRules hfree hw

theorem completes_produce {make : Registry → String → Act String String}
    {made : Registry → String → String → Prop}
    (hmake : ∀ registry source, Looks (make registry source))
    (hmade : ∀ registry source text (w : World),
      w.Yields (make registry source) text ↔ made registry source text)
    (input : String) (path? rules : Option String) :
    Completes (produce input path? rules make) (.ofOption path?) fun files text =>
      ∃ registry, Loads files rules registry ∧
        ∃ source, files.read input = .ok source ∧ made registry source text := by
  refine .of_looks (looks_loadRegistry rules) (fun _ _ => yields_loadRegistry) fun registry =>
    .of_looks (looks_readInput input) (fun _ _ => yields_readInput) fun source => ?_
  have h : Completes (make registry source >>= writeOutput path?) (.ofOption path?)
      fun _ text => ∃ t, made registry source t ∧ text = t :=
    .of_looks (hmake registry source) (fun w text => hmade registry source text w)
      (completes_writeOutput path?)
  simpa only [exists_eq_right'] using h

/-- **What a command finishes arrives**, and a command succeeds if its text can be finished and
written. -/
theorem completes_run (c : Command) :
    Completes c.run c.output fun files text => c.Finishes files text := by
  cases c with
  | parse input form path? rules =>
      refine completes_produce (looks_make input form) (fun registry source text w => ?_) input
        path? rules
      cases form with
      | json => exact yields_orRefuse
      | text target => exact yields_orRefuse
  | convert input target path? rules =>
      exact completes_produce (fun _ _ => looks_orRefuse _ _ input)
        (fun _ _ _ _ => yields_orRefuse) input path? rules
  | check input =>
      exact .of_looks (looks_readInput input) (fun _ _ => yields_readInput) fun source =>
        .of_looks (looks_orRefuse _ _ input) (fun _ _ => yields_orRefuse) fun statements =>
          completes_printLine (looks_forM (fun _ => looks_report _) _)
            (sure_forM (fun _ => sure_report _) _) _
  | targets rules =>
      exact .of_looks (looks_loadRegistry rules) (fun _ _ => yields_loadRegistry) fun registry =>
        completes_lines _ _
  | initRules path => exact completes_initRules path

/-! ### Commands one after another -/

/-- A command leaves nothing unfinished.  If it fails, no file has changed and nothing was printed.
If it succeeds, its text is finished and has arrived.  And it succeeds with any text that it can
finish and that can be written where it goes. -/
structure Clean (w : World) (c : Command) : Prop where
  failed   : ∀ message, w.Fails c.run message → w.Untouched (w.after c.run)
  finished : w.Yields c.run () →
    ∃ text, c.Finishes w.files text ∧ c.output.Delivered w text (w.after c.run)
  succeeds : ∀ text, c.Finishes w.files text → c.output.Writable w.files text →
    w.Yields c.run () ∧ c.output.Delivered w text (w.after c.run)

theorem clean (w : World) (c : Command) : c.Clean w where
  failed   := tidy_run c w
  finished := (completes_run c).finished w
  succeeds := (completes_run c).succeeds w

/-- The world after some commands. -/
def runAll (start : World) (commands : List Command) : World :=
  commands.foldl (fun w c => w.after c.run) start

theorem runAll_concat (start : World) (commands : List Command) (c : Command) :
    runAll start (commands ++ [c]) = (runAll start commands).after c.run := by
  rw [runAll, List.foldl_append]
  rfl

/-- The command succeeded, and its text went where `name` is. -/
structure Wrote (w : World) (c : Command) (name text : String) : Prop where
  finishes  : c.Finishes w.files text
  succeeded : w.Yields c.run ()
  leads     : ∃ path, c.output.path? = some path ∧ w.files.Leads path name

/-- **One step**: what stands under a name is as before, or is the text just written there. -/
theorem get?_run (w : World) (c : Command) (name : String) :
    (w.after c.run).files.entries.get? name = w.files.entries.get? name ∨
      ∃ text, c.Wrote w name text ∧
        (w.after c.run).files.entries.get? name = some (.file text.toUTF8) := by
  rcases w.yields_or_fails c.run with ⟨⟨⟩, hy⟩ | ⟨message, he⟩
  · obtain ⟨text, ht, hd⟩ := (clean w c).finished hy
    rcases hd.eq_or_put with hfiles | ⟨path, name', hp, hput⟩
    · rw [hfiles]
      exact .inl rfl
    · by_cases hn : name = name'
      · subst hn
        exact .inr ⟨text, ⟨ht, hy, path, hp, hput.leads⟩, hput.stands⟩
      · exact .inl (hput.others name hn)
  · rw [((clean w c).failed message he).files]
    exact .inl rfl

/-- **A whole run**: a file that differs at the end was written by one of the commands, and holds
the text that this command finished. -/
theorem get?_runAll (start : World) (commands : List Command) (name : String) :
    (runAll start commands).files.entries.get? name = start.files.entries.get? name ∨
      ∃ earlier c later text, commands = earlier ++ c :: later ∧
        c.Wrote (runAll start earlier) name text ∧
        (runAll start commands).files.entries.get? name = some (.file text.toUTF8) := by
  induction commands using List.reverseRecOn with
  | nil => exact .inl rfl
  | append_singleton commands c ih =>
      rw [runAll_concat]
      rcases get?_run (runAll start commands) c name with hsame | ⟨text, hw, hs⟩
      · rw [hsame]
        refine ih.imp_right ?_
        rintro ⟨earlier, d, later, text, rfl, hw, hs⟩
        exact ⟨earlier, d, later ++ [c], text, by simp, hw, hs⟩
      · exact .inr ⟨commands, c, [], text, rfl, hw, hs⟩

/-- **Runs leave nothing unfinished.**  Of commands that run one after another, each is clean in the
world that the earlier ones left; and a file that differs at the end was written by one of them that
succeeded, and holds the text which that one finished. -/
theorem runs_clean (start : World) (commands : List Command) :
    (∀ earlier c later, commands = earlier ++ c :: later → c.Clean (runAll start earlier)) ∧
      ∀ name, (runAll start commands).files.entries.get? name ≠ start.files.entries.get? name →
        ∃ earlier c later text, commands = earlier ++ c :: later ∧
          c.Wrote (runAll start earlier) name text ∧
          (runAll start commands).files.entries.get? name = some (.file text.toUTF8) :=
  ⟨fun earlier c _ _ => clean (runAll start earlier) c,
    fun name hne => (get?_runAll start commands name).resolve_left hne⟩

/-- A script is replaced by its intermediate text, by a path that leads out of the directory and
back, and then asked for in a language that no rules are known for. -/
theorem runs_clean_same_path :
    let files : FileTree :=
      { entries := .ofList [("a", .directory), ("a/s.gg", .file "m -> go (1)\n".toUTF8)]
        directory := ["a"] }
    let start : World := { files }
    let first : Command := .parse "s.gg" (.text .intermediate) (some "../a/s.gg") none
    let second : Command := .parse "/a/s.gg" (.text (.language "java")) (some "t") none
    let mid := runAll start [first]
    (∃ name, start.files.Put "../a/s.gg" "method m go ['1']\n" mid.files name) ∧
    mid.Untouched (mid.after second.run) ∧
    ∃ earlier c later text, [first, second] = earlier ++ c :: later ∧
      c.Wrote (runAll start earlier) "a/s.gg" text := by
  intro files start first second mid
  obtain ⟨hc, hw⟩ := runs_clean start [first, second]
  have hread : mid.files.read "../a/s.gg" = .ok "method m go ['1']\n" := by decide +kernel
  have hfirst : start.Yields first.run () := by
    unfold Yields
    decide +kernel
  obtain ⟨message, hsecond⟩ : ∃ message, mid.Fails second.run message :=
    toOption_eq_none.mp (by decide +kernel)
  -- entries cannot be compared as such, but their lengths can
  let length : Entry → Nat
    | .file bytes => bytes.size
    | .directory  => 0
  have hne : (runAll start [first, second]).files.entries.get? "a/s.gg" ≠
      start.files.entries.get? "a/s.gg" :=
    fun h => absurd (congrArg (Option.map length) h) (by decide +kernel)
  obtain ⟨text, -, -, name, hput⟩ := (hc [] first [second] rfl).finished hfirst
  obtain ⟨place, -, hl, -⟩ := hput.leads
  have htext : text = "method m go ['1']\n" :=
    Except.ok.inj ((hput.reads place hl rfl).symm.trans hread)
  have huntouched := (hc [first] second [] rfl).failed message hsecond
  obtain ⟨earlier, c, later, written, hsplit, hwrote, -⟩ := hw "a/s.gg" hne
  exact ⟨⟨name, htext ▸ hput⟩, huntouched, earlier, c, later, written, hsplit, hwrote⟩

end Command

end SceneScript
