import SceneScript.Convert
import SceneScript.Registry.Load
import SceneScript.Script.File
import SceneScript.Statement.Json

/-!
# Command

The commands of the program.  A command is a sequence of requests to its host (`Host`): it looks at
files, it can fail, and when it has finished a text it prints it or writes it to a file.  A failure
is a message, and it undoes nothing that was done before it.
-/

namespace SceneScript

/-- What becomes of the statements of a parsed script. -/
inductive Form where
  /-- A JSON list. -/
  | json
  /-- The text of a target. -/
  | text (target : Target)
  deriving DecidableEq, Repr

/-- A command. -/
inductive Command where
  /-- Reads a script and writes its statements in some form. -/
  | parse (input : String) (form : Form) (output rules : Option String)
  /-- Reads an intermediate text and writes it in a target language. -/
  | convert (input target : String) (output rules : Option String)
  /-- Says whether a script can be read, and what it holds. -/
  | check (input : String)
  /-- Lists the targets. -/
  | targets (rules : Option String)
  /-- Writes a rule file to start from. -/
  | initRules (path : String)
  deriving DecidableEq, Repr

/-- The rule file to start from. -/
def starterRules : String :=
  "version: \"1.0\"\n\n" ++
  "# Placeholders: \x7bvar_type\x7d \x7bvar_name\x7d \x7bclass_name\x7d \x7bargs\x7d " ++
  "for `var`,\n" ++
  "# \x7bvar_name\x7d \x7bmethod_name\x7d \x7bargs\x7d for `method`. " ++
  "Use \x7b\x7b and \x7d\x7d for braces.\n" ++
  "rules:\n" ++
  "  py:\n" ++
  "    start: \"from gg import *\\n\"\n" ++
  "    code:\n" ++
  "      var: \"\\n\x7bvar_name\x7d = \x7bclass_name\x7d(\x7bargs\x7d)\"\n" ++
  "      method: \"\\n\x7bvar_name\x7d.\x7bmethod_name\x7d(\x7bargs\x7d)\"\n" ++
  "    end: \"\\n\"\n"

/-- The statements of a script as a JSON list. -/
def scriptToJson (source : String) : Logged (Except SyntaxError String) :=
  (normalize source).map (·.map Statement.listToJson)

variable {m : Type → Type} [Monad m] [Host m]

/-- The text of a script in a form, made from what stands in a file. -/
def Form.make (form : Form) (input : String) (registry : Registry) (source : String) :
    ExceptT String m String :=
  match form with
  | .json        => orRefuse input SyntaxError.message (scriptToJson source)
  | .text target => orRefuse input ConvertError.message (convertSource source target registry)

/-- What a check says about a script. -/
def checkReport (path : String) (counters : Counters) (statements : List Statement) : String :=
  let constructs := (statements.filter (·.keyword = "var")).length
  s!"OK: {path} ({counters.statements} statements: {constructs} constructs, " ++
    s!"{counters.statements - constructs} calls; {counters.ignored} lines ignored)"

namespace Command

/-- The registry of a command that may name a rule file. -/
def loadRegistry (rules : Option String) : ExceptT String m Registry :=
  (Registry.load rules).adapt LoadError.message

/-- Makes a text the content of a file. -/
def writeFile (path text : String) : ExceptT String m Unit := do
  match ← Host.write path text with
  | .ok _        => return
  | .error cause => throw s!"cannot write {path}: {cause.message}"

/-- A finished text goes to a file if one is named, and is printed otherwise. -/
def writeOutput (output : Option String) (text : String) : ExceptT String m Unit := do
  match output with
  | some path =>
    writeFile path text
    Host.report (.wrote path text.utf8ByteSize)
  | none      => printLine text

/-- Makes a text from an input file by the rules of a registry, and sends it to its output. -/
def produce (input : String) (output rules : Option String)
    (make : Registry → String → ExceptT String m String) : ExceptT String m Unit := do
  let registry ← loadRegistry rules
  let source ← readInput input
  let text ← make registry source
  writeOutput output text

/-- Writes the statements of a script in some form. -/
def runParse (input : String) (form : Form) (output rules : Option String) :
    ExceptT String m Unit :=
  produce input output rules (form.make input)

/-- Writes an intermediate text in a target language. -/
def runConvert (input target : String) (output rules : Option String) : ExceptT String m Unit :=
  produce input output rules fun registry text =>
    orRefuse input ConvertError.message (convertIntermediate text target registry)

/-- Says whether a script can be read, and what it holds; its intermediate text is reported. -/
def runCheck (input : String) : ExceptT String m Unit := do
  let source ← readInput input
  let (run, normalizer) := ({} : Normalizer).run source
  let statements ← orRefuse input SyntaxError.message run
  printLine (checkReport input normalizer.counters statements)
  (Text.lines (Intermediate.write statements).toList).forM fun line =>
    Host.report (.checked (String.ofList line))

/-- Lists the targets, one a line; the intermediate text comes first. -/
def runTargets (rules : Option String) : ExceptT String m Unit := do
  let registry ← loadRegistry rules
  printLine s!"{intermediateId} (intermediate form)"
  registry.targets.forM printLine

/-- Writes a rule file to start from, where nothing is in the way. -/
def runInitRules (path : String) : ExceptT String m Unit := do
  if ← Host.contains path then throw s!"{path} already exists"
  else
    writeFile path starterRules
    printLine s!"Created: {path}"

/-- Runs a command. -/
def run : Command → ExceptT String m Unit
  | .parse input form output rules     => runParse input form output rules
  | .convert input target output rules => runConvert input target output rules
  | .check input                       => runCheck input
  | .targets rules                     => runTargets rules
  | .initRules path                    => runInitRules path

end Command

end SceneScript
