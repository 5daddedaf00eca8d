import SceneScript.Proofs.Command.Trace
import SceneScript.Proofs.Convert.Stage
import SceneScript.Proofs.Script.Counter
import SceneScript.Proofs.Statement.Json

/-!
# Proofs — Command — checking and printing

A check of a script and the two ways to print it, as intermediate text and as JSON, come to the same
verdict (`check_agrees`).

With no rule file and no output file, each of the three reads the input file, makes something of the
script in it, and prints (`withScript`).  The three make different things and refuse them with
errors of different kinds, but with the same message: none of them refuses statements, so all refuse
what cannot be read (`refused_alike`).  The numbers of a check come from the counters of the reading
and from keywords, and are found again in what the other two print (`borneOut_checkReport`): the
intermediate text has a line for each statement, which starts with its keyword, and the JSON list
has an element for it.
-/

namespace SceneScript

open Text World

variable {w : World} {input source : String}

/-! ### What is refused -/

/-- A conversion passes on what is wrong with a script. -/
theorem ConvertError.message_malformed (e : SyntaxError) : (malformed e).message = e.message :=
  rfl

/-- Makes something of the script in a file, and goes on with it. -/
def withScript {ε α : Type} (input : String) (message : ε → String)
    (x : String → Logged (Except ε α)) (f : String → α → Act String Unit) :
    Act String Unit := do
  let source ← readInput input
  let a ← orRefuse input message (x source)
  f source a

section Refused

variable {ε α : Type} {message : ε → String} {x : String → Logged (Except ε α)}
  {f : String → α → Act String Unit}

theorem perform_withScript_of_unreadable {cause : FileError}
    (h : w.files.read input = .error cause) :
    w.perform (withScript input message x f) =
      (.error s!"failed to read {input}: {cause.message}", w) := by
  have hr := w.perform_readInput input
  rw [h] at hr
  exact perform_bind_of_error hr

theorem perform_withScript_of_refused {e : ε} (h : w.files.read input = .ok source)
    (he : (x source).value = .error e) :
    w.perform (withScript input message x f) =
      (.error s!"{input}: {message e}", (x source).events.foldl report w) := by
  have hr := w.perform_readInput input
  have hx := w.perform_orRefuse message (x source) input
  rw [h] at hr
  rw [he] at hx
  rw [withScript, perform_bind_of_ok hr, perform_bind_of_error hx]

end Refused

namespace Command

theorem perform_check (w : World) (input : String) :
    w.perform (check input).run =
      w.perform (withScript input SyntaxError.message normalize fun source statements => do
        printLine (checkReport input (({} : Normalizer).run source).2.counters statements)
        (lines (Intermediate.write statements).toList).forM fun line =>
          Host.report (.checked (String.ofList line))) :=
  rfl

/-- With no rule file there is nothing to load. -/
theorem perform_parse (w : World) (input : String) (form : Form) :
    w.perform (parse input form none none).run = w.perform (do
      let source ← readInput input
      let text ← form.make input .builtin source
      printLine text : Act String Unit) := by
  have h : w.Yields (loadRegistry none) .builtin := rfl
  exact perform_bind_of_yields h

theorem perform_parse_text (w : World) (input : String) (target : Target) :
    w.perform (parse input (.text target) none none).run =
      w.perform (withScript input ConvertError.message (convertSource · target .builtin)
        fun _ text => printLine text) :=
  perform_parse w input (.text target)

theorem perform_parse_json (w : World) (input : String) :
    w.perform (parse input .json none none).run =
      w.perform (withScript input SyntaxError.message scriptToJson fun _ text => printLine text) :=
  perform_parse w input .json

/-- The three commands end in the same way. -/
def EndAlike (w : World) (input : String) (ending : Except String Unit × World) : Prop :=
  w.perform (check input).run = ending ∧
  w.perform (parse input (.text .intermediate) none none).run = ending ∧
  w.perform (parse input .json none none).run = ending

theorem unreadable_alike {cause : FileError} (h : w.files.read input = .error cause) :
    EndAlike w input (.error s!"failed to read {input}: {cause.message}", w) := by
  refine ⟨?_, ?_, ?_⟩
  · rw [perform_check, perform_withScript_of_unreadable h]
  · rw [perform_parse_text, perform_withScript_of_unreadable h]
  · rw [perform_parse_json, perform_withScript_of_unreadable h]

/-- **What cannot be read is refused alike**, by errors of two kinds. -/
theorem refused_alike {e : SyntaxError} (h : w.files.read input = .ok source)
    (he : (normalize source).value = .error e) :
    EndAlike w input
      (.error s!"{input}: {e.message}", (normalize source).events.foldl report w) := by
  have htext : (convertSource source .intermediate .builtin).value = .error (.malformed e) := by
    rw [convertSource_intermediate, he]
  have hjson : (scriptToJson source).value = .error e := by
    simp only [scriptToJson, Logged.map, he]
    rfl
  refine ⟨?_, ?_, ?_⟩
  · rw [perform_check, perform_withScript_of_refused h he]
  · have hevents : (convertSource source .intermediate .builtin).events =
        (normalize source).events := rfl
    rw [perform_parse_text, ← ConvertError.message_malformed, ← hevents]
    exact perform_withScript_of_refused h htext
  · have hevents : (scriptToJson source).events = (normalize source).events := rfl
    rw [perform_parse_json, ← hevents]
    exact perform_withScript_of_refused h hjson

/-! ### What is accepted -/

/-- The command succeeds and prints a text, and that is all. -/
def Prints (w : World) (c : Command) (text : String) : Prop :=
  w.Yields c.run () ∧ Output.stdout.Delivered w text (w.after c.run)

theorem prints_of_finishes {c : Command} {text : String} (ho : c.output = .stdout)
    (h : c.Finishes w.files text) : c.Prints w text := by
  have hw : c.output.Writable w.files text := by
    rw [ho]
    exact nofun
  have hs := (completes_run c).succeeds w text h hw
  rwa [ho] at hs

theorem accepted_alike {S : List Statement} (h : w.files.read input = .ok source)
    (hS : (normalize source).value = .ok S) :
    (check input).Prints w (checkReport input (({} : Normalizer).run source).2.counters S) ∧
    (parse input (.text .intermediate) none none).Prints w (Intermediate.write S) ∧
    (parse input .json none none).Prints w (Statement.listToJson S) := by
  have htext : (convertSource source .intermediate .builtin).value =
      .ok (Intermediate.write S) := by rw [convertSource_intermediate, hS]
  have hjson : (scriptToJson source).value = .ok (Statement.listToJson S) := by
    simp only [scriptToJson, Logged.map, hS]
    rfl
  exact ⟨prints_of_finishes rfl ⟨source, h, S, hS, rfl⟩,
    prints_of_finishes rfl ⟨.builtin, .builtin, source, h, htext⟩,
    prints_of_finishes rfl ⟨.builtin, .builtin, source, h, hjson⟩⟩

end Command

/-! ### The numbers of a check -/

namespace Intermediate

/-- The start of the lines that construct an object. -/
def constructStart : List Char := ['v', 'a', 'r', ' ']

theorem isPrefixOf_writeLine (s : Statement) :
    constructStart.isPrefixOf (writeLine s).toList = decide (s.keyword = "var") := by
  rw [toList_writeLine]
  cases s with
  | construct c => simp [constructStart, Statement.keyword]
  | invoke i =>
      simp only [Statement.keyword]
      rfl

/-- **Constructions are told by their lines.** -/
theorem countP_lines_write {S : List Statement} (h : ∀ s ∈ S, s.HasWords) :
    (lines (write S).toList).countP (constructStart.isPrefixOf ·) =
      (S.filter (·.keyword = "var")).length := by
  rw [lines_write h, List.countP_map, ← List.countP_eq_length_filter]
  exact List.countP_congr fun s _ => by rw [Function.comp, isPrefixOf_writeLine]

end Intermediate

/-- The report of a check is borne out by the intermediate text and the JSON list of the script. -/
structure BorneOut (path report text list : String) : Prop where
  /-- Each line of the text is a statement, and those that start with `var ` are constructions; with
  the calls these make up the statements. -/
  numbers : ∃ constructs calls ignored : Nat,
    report = s!"OK: {path} ({(lines text.toList).length} statements: {constructs} constructs, " ++
      s!"{calls} calls; {ignored} lines ignored)" ∧
    constructs = (lines text.toList).countP (Intermediate.constructStart.isPrefixOf ·) ∧
    constructs + calls = (lines text.toList).length
  /-- The list has as many elements. -/
  elements : ∃ values, Json.read list = some (.array values) ∧
    values.length = (lines text.toList).length

theorem borneOut_checkReport {S : List Statement} (h : ∀ s ∈ S, s.HasWords) (path : String)
    {c : Counters} (hc : c.statements = S.length) :
    BorneOut path (checkReport path c S) (Intermediate.write S) (Statement.listToJson S) := by
  have hlines : (lines (Intermediate.write S).toList).length = S.length := by
    rw [Intermediate.lines_write h, List.length_map]
  refine ⟨⟨(S.filter (·.keyword = "var")).length,
    S.length - (S.filter (·.keyword = "var")).length, c.ignored, ?_, ?_, ?_⟩, ?_⟩
  · rw [hlines, checkReport, hc]
  · rw [Intermediate.countP_lines_write h]
  · rw [hlines]
    exact Nat.add_sub_cancel' (List.length_filter_le _ _)
  · have hread := Statement.read_listToJson S [] nofun
    rw [String.ofList_nil, String.append_empty] at hread
    exact ⟨_, hread, by rw [hlines, List.length_map]⟩

/-- **A check agrees with what is printed.**  A check of a script, its intermediate text and its
JSON list, with no rule file and no output file, come to the same end.  They fail with the same
message in the same world, with no file changed and nothing printed; or each prints a text, and the
report of the check is borne out by the two others. -/
theorem check_agrees (w : World) (input : String) :
    let check := Command.check input
    let text := Command.parse input (.text (.ofId intermediateId)) none none
    let json := Command.parse input .json none none
    (∃ message w', w.Untouched w' ∧ w.perform check.run = (.error message, w') ∧
      w.perform text.run = (.error message, w') ∧ w.perform json.run = (.error message, w')) ∨
    ∃ report written list, BorneOut input report written list ∧
      check.Prints w report ∧ text.Prints w written ∧ json.Prints w list := by
  intro check text json
  have hfailed {message : String} {w' : World}
      (h : Command.EndAlike w input (.error message, w')) :
      ∃ message w', w.Untouched w' ∧ w.perform check.run = (.error message, w') ∧
        w.perform text.run = (.error message, w') ∧ w.perform json.run = (.error message, w') := by
    have hu := Command.tidy_run check w message (congrArg Prod.fst h.1)
    rw [after, h.1] at hu
    exact ⟨message, w', hu, h⟩
  cases hread : w.files.read input with
  | error cause => exact .inl (hfailed (Command.unreadable_alike hread))
  | ok source =>
      cases hn : (normalize source).value with
      | error e => exact .inl (hfailed (Command.refused_alike hread hn))
      | ok S =>
          obtain ⟨hcount, -⟩ := (counted_run source).succeeded S hn
          exact .inr ⟨_, _, _, borneOut_checkReport (hasWords_of_normalize hn) input hcount,
            Command.accepted_alike hread hn⟩

/-- The script has an argument that spells a line feed and holds a carriage return. -/
theorem check_agrees_escapes :
    let source := "T - m ::= C ('\\n\rvar ')\nm -> var ()\nvar /*\n*/ x"
    let w : World := { files := { entries := .ofList [("s", .file source.toUTF8)] } }
    let report := "OK: s (2 statements: 1 constructs, 1 calls; 1 lines ignored)"
    (Command.check "s").Prints w report ∧
    ∃ written list, BorneOut "s" report written list ∧
      (Command.parse "s" (.text (.ofId intermediateId)) none none).Prints w written ∧
      (Command.parse "s" .json none none).Prints w list := by
  intro source w report
  have hrun : (w.perform (Command.check "s").run).1 = .ok () ∧
      (w.perform (Command.check "s").run).2.output = report ++ "\n" := by decide +kernel
  rcases check_agrees w "s" with
    ⟨message, w', -, he, -, -⟩ | ⟨report', written, list, hb, hc, ht, hj⟩
  · rw [he] at hrun
    cases hrun.1
  · have hreport : report' = report := by
      have h := hrun.2.symm.trans hc.2.2
      exact ((String.append_left_inj "\n").mp (h.trans (String.empty_append ..))).symm
    subst hreport
    exact ⟨hc, written, list, hb, ht, hj⟩

end SceneScript
