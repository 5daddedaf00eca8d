import SceneScript.Command.Usage

/-!
# Command — Help

What the program says about itself and about a command line that it does not take.
-/

namespace SceneScript

/-- The name of the program. -/
def programName : String := "ggconv"

/-- The version of the program. -/
def programVersion : String := "0.3.0"

/-- What a command does, in a line. -/
def Verb.about : Verb → String
  | .parse     => "Normalize a .gg script, optionally straight into a target language"
  | .convert   => "Render an intermediate file into a target language"
  | .check     => "Check a .gg script for syntax errors"
  | .targets   => "List available target languages"
  | .initRules => "Write a starter rules file"

/-- The words that a command takes. -/
def Verb.synopsis : Verb → String
  | .parse     => "[OPTIONS] <INPUT>"
  | .convert   => "[OPTIONS] --target <TARGET> <INPUT>"
  | .check     => "[OPTIONS] <INPUT>"
  | .targets   => "[OPTIONS]"
  | .initRules => "[OPTIONS] [PATH]"

/-- What an option does, in a line. -/
def Switch.about : Switch → String
  | .output  => "Output file (default: stdout)"
  | .target  => "Target language"
  | .rules   => "Extra rules file layered over the built-in targets"
  | .json    => "Dump statements as JSON instead"
  | .verbose => "Increase log verbosity (-v debug, -vv trace)"
  | .help    => "Print help"
  | .version => "Print version"

/-- A text with blanks after it up to a width. -/
def padded (width : Nat) (s : String) : String :=
  s ++ String.ofList (List.replicate (width - s.length) ' ')

/-- The forms of an option. -/
def Switch.forms (s : Switch) : String :=
  let short := match s.short? with
    | some c => s!"-{c}, "
    | none   => "    "
  let operand := if s.operand = .nothing then "" else " <" ++ s.long.toUpper ++ ">"
  short ++ "--" ++ s.long ++ operand

/-- Two columns, a row a line. -/
def columns (rows : List (String × String)) : String :=
  let width := (rows.map (·.1.length)).foldl max 0
  String.join (rows.map fun r => "  " ++ padded width r.1 ++ "  " ++ r.2 ++ "\n")

/-- The options of a part of the command line, a line each. -/
def optionList (switches : List Switch) : String :=
  "Options:\n" ++ columns (switches.map fun s => (s.forms, s.about))

/-- How the program, or one of its commands, is called. -/
def usageLine : Option Verb → String
  | none      => s!"Usage: {programName} [OPTIONS] <COMMAND>\n"
  | some verb => s!"Usage: {programName} {verb.word} {verb.synopsis}\n"

/-- The help about the program or one of its commands. -/
def helpText : Option Verb → String
  | none      =>
    "Convert .gg scene scripts into an intermediate form or target-language source\n\n" ++
      usageLine none ++ "\nCommands:\n" ++
      columns (Verb.all.map (fun v => (v.word, v.about)) ++
        [(helpWord, "Print this message or the help of the given subcommand(s)")]) ++
      "\n" ++ optionList [.verbose, .help, .version]
  | some verb =>
    verb.about ++ "\n\n" ++ usageLine (some verb) ++ "\n" ++
      optionList (.verbose :: verb.switches)

/-- The wording for a command line that the program does not take. -/
def Stop.message : Stop → String
  | .missingRequired => "a required argument was not provided"
  | .unknownArgument => "unexpected argument found"
  | .unknownCommand  => "unrecognized subcommand"
  | .missingCommand  => "a subcommand is required but one was not provided"
  | .conflict        => "an argument cannot be used with another one, or more than once"
  | .missingValue    => "a value is required but none was supplied"
  | .extraValue      => "unexpected value found"
  | .help _          => "help was asked for"
  | .version         => "the version was asked for"

end SceneScript
