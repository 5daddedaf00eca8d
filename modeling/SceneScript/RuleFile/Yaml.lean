import SceneScript.RuleSet
import SceneScript.Yaml.Document

/-!
# RuleFile — Yaml

A rule file as a YAML text.  The file and each rule set are mappings with known fields; other
fields are skipped.  Any scalar is a text, whatever it looks like.  An alias is read as the node it
stands for, each time that it is met; a file that asks for this too often for its size is refused.
-/

namespace SceneScript.RuleFile

open Yaml (Node Problem)

/-- What is known while the nodes of a document are read. -/
structure Reading where
  /-- The nodes with an anchor, the last one first. -/
  anchored : List (Nat × Node)
  /-- How many more aliases may be followed. -/
  aliases  : Nat

/-- A step of reading the nodes of a document. -/
abbrev Read := StateT Reading (Except Problem)

/-- How many aliases may be followed in a document, for each unit of its size. -/
def aliasesPerNode : Nat := 100

/-- The start of reading a document, given its root. -/
def Reading.start (root : Node) : Reading where
  anchored := root.anchored.reverse
  aliases  := aliasesPerNode * root.size

/-- The node that `node` stands for: an alias means the last node with the number of its anchor. -/
def follow (node : Node) : Read Node := do
  match node with
  | .alias anchor =>
    let r ← get
    match r.aliases with
    | 0        => throw .tooManyAliases
    | left + 1 =>
      set { r with aliases := left }
      return (r.anchored.lookup anchor).getD node
  | _             => return node

/-- The text of a scalar; where nothing is written it is empty. -/
def textOf (node : Node) : Read String := do
  match ← follow node with
  | .blank _       => return ""
  | .scalar _ text => return text
  | _              => throw .expectedText

/-- The entries of a mapping, with texts as keys; where nothing is written there are none. -/
def entriesOf (node : Node) : Read (List (String × Node)) := do
  match ← follow node with
  | .blank _           => return []
  | .mapping _ entries => entries.mapM fun e => do return (← textOf e.1, e.2)
  | _                  => throw .expectedMapping

/-- The value of a field that stands at most once. -/
def field? (entries : List (String × Node)) (name : String) : Except Problem (Option Node) :=
  match entries.filter (·.1 = name) with
  | []       => .ok none
  | [(_, v)] => .ok (some v)
  | _        => .error (.duplicateField name)

/-- The value of a field that stands exactly once. -/
def field (entries : List (String × Node)) (name : String) : Except Problem Node := do
  match ← field? entries name with
  | some v => return v
  | none   => throw (.missingField name)

/-- The text of a field that need not be there. -/
def textField (entries : List (String × Node)) (name : String) : Read String := do
  match ← field? entries name with
  | some v => textOf v
  | none   => return ""

/-- The rule set that a node describes. -/
def ruleSetOf (node : Node) : Read RuleSet := do
  let entries ← entriesOf node
  let code ← entriesOf (← field entries "code")
  return {
    start     := ← textField entries "start"
    construct := ← textOf (← field code "var")
    invoke    := ← textOf (← field code "method")
    finish    := ← textField entries "end"
  }

/-- The rule file that the root of a document describes. -/
def ofRoot (root : Node) : Read RuleFile := do
  let entries ← entriesOf root
  let version ← textOf (← field entries "version")
  let rules ← match ← field? entries "rules" with
    | some node => (← entriesOf node).mapM fun e => do return (e.1, ← ruleSetOf e.2)
    | none      => pure []
  return { version := version, rules := Table.ofList rules }

/-- The rule file that the tree of a document describes. -/
def ofNode (root : Node) : Except Problem RuleFile :=
  (ofRoot root).run' (.start root)

/-- The rule file that a YAML text describes. -/
def ofYaml (text : String) : Except Yaml.Error RuleFile := do
  match ofNode (← Node.read text) with
  | .ok file       => return file
  | .error problem => throw ⟨problem, none⟩

end SceneScript.RuleFile
