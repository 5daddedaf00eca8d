import SceneScript.Command

/-!
# Command — Usage

From the words of a command line to a command.  Words are taken from left to right: the name of a
command, options in their long form (`--target x`, `--target=x`) or short form (`-t x`, `-tx`,
`-t=x`; several options without an operand share one dash), and at most one word of its own, the
input.  After `--` every word is an input.  An option or input is looked at when the next one
comes up, so an unknown word is reported before what is wrong with the word before it.
-/

namespace SceneScript

/-- An option. -/
inductive Switch where
  | output
  | target
  | rules
  | json
  | verbose
  | help
  | version
  deriving DecidableEq, Repr

/-- What follows an option. -/
inductive Operand where
  | nothing
  | text
  /-- A path, which is not empty. -/
  | path
  deriving DecidableEq, Repr

namespace Switch

/-- The long form, after its two dashes. -/
def long : Switch → String
  | .output  => "output"
  | .target  => "target"
  | .rules   => "rules"
  | .json    => "json"
  | .verbose => "verbose"
  | .help    => "help"
  | .version => "version"

/-- The short form, after its dash. -/
def short? : Switch → Option Char
  | .output  => some 'o'
  | .target  => some 't'
  | .rules   => none
  | .json    => none
  | .verbose => some 'v'
  | .help    => some 'h'
  | .version => some 'V'

/-- What follows the option. -/
def operand : Switch → Operand
  | .output | .rules => .path
  | .target          => .text
  | _                => .nothing

end Switch

/-- The name of a command. -/
inductive Verb where
  | parse
  | convert
  | check
  | targets
  | initRules
  deriving DecidableEq, Repr

namespace Verb

/-- All commands, in the order of the help. -/
def all : List Verb := [.parse, .convert, .check, .targets, .initRules]

/-- The word for a command. -/
def word : Verb → String
  | .parse     => "parse"
  | .convert   => "convert"
  | .check     => "check"
  | .targets   => "targets"
  | .initRules => "init-rules"

/-- The command that a word names. -/
def ofWord? (word : String) : Option Verb :=
  all.find? (·.word = word)

/-- The options of a command. -/
def switches : Verb → List Switch
  | .parse     => [.output, .target, .rules, .json, .help]
  | .convert   => [.target, .output, .rules, .help]
  | .check     => [.help]
  | .targets   => [.rules, .help]
  | .initRules => [.help]

/-- The command takes an input. -/
def takesInput (v : Verb) : Bool :=
  v ≠ .targets

end Verb

/-- The word that asks for help about the command after it. -/
def helpWord : String := "help"

/-- Why no command comes of a command line. -/
inductive Stop where
  /-- The input, or an option that has to be there, is missing. -/
  | missingRequired
  | unknownArgument
  | unknownCommand
  | missingCommand
  /-- An option stands twice, or together with one that excludes it. -/
  | conflict
  /-- An option has no operand, or a path is empty. -/
  | missingValue
  /-- An option without an operand has one. -/
  | extraValue
  /-- Help was asked for. -/
  | help (about : Option Verb)
  /-- The version was asked for. -/
  | version
  deriving DecidableEq, Repr

/-- The last word that has not been looked at yet. -/
inductive Pending where
  /-- An option that waits for its operand. -/
  | awaiting (s : Switch)
  /-- An option and its operand. -/
  | option (s : Switch) (value : String)
  | input (path : String)
  deriving DecidableEq, Repr

/-- What a command line has given so far. -/
structure Given where
  /-- Options, with their operands. -/
  options   : List (Switch × String) := []
  input     : Option String := none
  verbosity : Nat := 0
  pending   : Option Pending := none
  deriving DecidableEq, Repr

/-- The part of a command line that words are read in. -/
structure Scope where
  /-- The command, after its name. -/
  verb     : Option Verb
  /-- The options that may stand there. -/
  switches : List Switch
  deriving DecidableEq, Repr

namespace Given

/-- The operand of an option. -/
def value? (g : Given) (s : Switch) : Option String :=
  g.options.lookup s

/-- Adds an option. -/
def add (g : Given) (s : Switch) (value : String) : Except Stop Given :=
  if (g.value? s).isSome then .error .conflict
  else if s.operand = .path && value.isEmpty then .error .missingValue
  else .ok { g with options := g.options ++ [(s, value)] }

/-- Looks at the word that is pending. -/
def settle (g : Given) : Except Stop Given :=
  match g.pending with
  | none                   => .ok g
  | some (.awaiting _)     => .error .missingValue
  | some (.option s value) => { g with pending := none }.add s value
  | some (.input path)     =>
    if path.isEmpty then .error .missingValue
    else .ok { g with pending := none, input := some path }

/-- Adds an option that has no operand. -/
def flag (scope : Scope) (g : Given) (s : Switch) : Except Stop Given := do
  let g ← g.settle
  match s with
  | .help    => throw (.help scope.verb)
  | .version => throw .version
  | .verbose => return { g with verbosity := g.verbosity + 1 }
  | s        => g.add s ""

/-- Adds an option in its long form, perhaps with an operand after an equals sign. -/
def long (scope : Scope) (g : Given) (name : String) (attached : Option String) :
    Except Stop Given := do
  match scope.switches.find? (·.long = name) with
  | none   => throw .unknownArgument
  | some s =>
    match s.operand, attached with
    | .nothing, some _     => throw .extraValue
    | .nothing, none       => g.flag scope s
    | _,        some value => (← g.settle).add s value
    | _,        none       => return { ← g.settle with pending := some (.awaiting s) }

/-- Adds options in their short form; what follows an option that takes an operand is its operand.
-/
def cluster (scope : Scope) (g : Given) : List Char → Except Stop Given
  | []      => .ok g
  | c :: cs => do
    match scope.switches.find? (·.short? = some c) with
    | none   => throw .unknownArgument
    | some s =>
      if s.operand = .nothing then cluster scope (← g.flag scope s) cs
      else
        match cs with
        | []           => return { ← g.settle with pending := some (.awaiting s) }
        | '=' :: value => (← g.settle).add s (String.ofList value)
        | value        => (← g.settle).add s (String.ofList value)

/-- Adds the input of a command, which takes one at most. -/
def positional (verb : Verb) (g : Given) (word : String) : Except Stop Given := do
  let taken := match g.pending with
    | some (.input _) => true
    | _               => g.input.isSome
  if !verb.takesInput || taken then throw .unknownArgument
  return { ← g.settle with pending := some (.input word) }

end Given

/-- What a word is by its form. -/
inductive Word where
  /-- Two dashes, after which no word is an option. -/
  | endOfOptions
  | long (name : String) (attached : Option String)
  | cluster (letters : List Char)
  | plain
  deriving DecidableEq, Repr

/-- The form of a word.  A single dash is a plain word. -/
def Word.of (word : String) : Word :=
  match word.toList with
  | ['-', '-']       => .endOfOptions
  | '-' :: '-' :: cs =>
    let name := String.ofList (cs.takeWhile (· ≠ '='))
    match cs.dropWhile (· ≠ '=') with
    | []         => .long name none
    | _ :: value => .long name (some (String.ofList value))
  | ['-']            => .plain
  | '-' :: cs        => .cluster cs
  | _                => .plain

/-- Reads the words after the name of a command; with `ended`, no word is an option any more. -/
def Given.readWords (verb : Verb) (scope : Scope) (ended : Bool) (g : Given) :
    List String → Except Stop Given
  | []      => g.settle
  | w :: ws => do
    if ended then
      (← g.positional verb w).readWords verb scope true ws
    else
      match Word.of w with
      | .endOfOptions       => g.readWords verb scope true ws
      | .long name attached => (← g.long scope name attached).readWords verb scope false ws
      | .cluster letters    => (← g.cluster scope letters).readWords verb scope false ws
      | .plain              =>
        match g.pending with
        | some (.awaiting s) =>
          Given.readWords verb scope false { g with pending := some (.option s w) } ws
        | _                  => (← g.positional verb w).readWords verb scope false ws

/-- The input of a command that cannot do without. -/
def Given.requiredInput (g : Given) : Except Stop String :=
  match g.input with
  | some path => .ok path
  | none      => .error .missingRequired

/-- The command that a name and what was given make up. -/
def Command.ofGiven (verb : Verb) (g : Given) : Except Stop Command := do
  match verb with
  | .parse     =>
    if (g.value? .json).isSome && (g.value? .target).isSome then throw .conflict
    let form := if (g.value? .json).isSome then Form.json
      else .text (.ofId ((g.value? .target).getD intermediateId))
    return .parse (← g.requiredInput) form (g.value? .output) (g.value? .rules)
  | .convert   =>
    let input ← g.requiredInput
    match g.value? .target with
    | some target => return .convert input target (g.value? .output) (g.value? .rules)
    | none        => throw .missingRequired
  | .check     => return .check (← g.requiredInput)
  | .targets   => return .targets (g.value? .rules)
  | .initRules => return .initRules (g.input.getD "rules.yaml")

/-- A command, and how much of its log is shown. -/
structure Invocation where
  verbosity : Nat
  command   : Command
  deriving DecidableEq, Repr

/-- Reads the words after the one that asks for help. -/
def readHelp : List String → Stop
  | []     => .help none
  | [word] =>
    match Verb.ofWord? word with
    | some verb => .help (some verb)
    | none      => if word = helpWord then .help none else .unknownCommand
  | _      => .unknownCommand

/-- Reads a command line.  `shared` options may also stand after the name of a command, and the
count of `--verbose` there is the one that holds. -/
def readLine (scope : Scope) (shared : List Switch) (g : Given) :
    List String → Except Stop Invocation
  | []      => .error .missingCommand
  | w :: ws => do
    if let some verb := Verb.ofWord? w then
      let inner ← ({} : Given).readWords verb ⟨some verb, verb.switches ++ shared⟩ false ws
      let command ← Command.ofGiven verb inner
      return ⟨if inner.verbosity = 0 then g.verbosity else inner.verbosity, command⟩
    if w = helpWord then throw (readHelp ws)
    match Word.of w with
    | .long name attached => readLine scope shared (← g.long scope name attached) ws
    | .cluster letters    => readLine scope shared (← g.cluster scope letters) ws
    | .plain              => throw .unknownCommand
    | .endOfOptions       =>
      match ws with
      | []     => throw .missingCommand
      | w :: _ =>
        if (Verb.ofWord? w).isSome || w = helpWord then throw .unknownArgument
        throw .unknownCommand

/-- Reads a command line that has no options outside its command. -/
def Command.read (words : List String) : Except Stop Command :=
  (readLine ⟨none, [.help]⟩ [] {} words).map (·.command)

/-- Reads a whole command line of the program. -/
def Invocation.read (words : List String) : Except Stop Invocation :=
  readLine ⟨none, [.verbose, .help, .version]⟩ [.verbose] {} words

end SceneScript
