import SceneScript.Yaml.Property
import SceneScript.Yaml.Scalar.Block
import SceneScript.Yaml.Token

/-!
# Yaml — Directive

The lines before a document that start with `%`: the version of the format, and the handles of tags.
-/

namespace SceneScript.Yaml

/-- A number of at most nine digits, and what follows it. -/
def readVersionNumber (gs : List Glyph) : Except Error (Nat × List Glyph) :=
  let digits := gs.takeWhile (·.char.isDigit)
  if digits.isEmpty || 9 < digits.length then .error (Problem.badDirective.at gs)
  else
    .ok (digits.foldl (fun n g => n * 10 + (g.char.toNat - '0'.toNat)) 0,
      gs.dropWhile (·.char.isDigit))

/-- The version directive after its name. -/
def readVersion (gs : List Glyph) : Except Error (Token × List Glyph) := do
  let (major, rest) ← readVersionNumber (gs.dropWhile Glyph.isBlank)
  unless nextIs (·.char = '.') rest do throw (Problem.badDirective.at rest)
  let (minor, rest) ← readVersionNumber (rest.drop 1)
  return (.versionDirective major minor, rest)

/-- The tag directive after its name: a handle and what it stands for. -/
def readTagHandle (gs : List Glyph) : Except Error (Token × List Glyph) := do
  let gs := gs.dropWhile Glyph.isBlank
  unless nextIs (·.char = '!') gs do throw (Problem.badDirective.at gs)
  let (handle, rest) := takeHandle gs
  unless nextIs Glyph.isBlank rest do throw (Problem.badDirective.at rest)
  let rest ← skipTagText true false (rest.dropWhile Glyph.isBlank)
  unless nextIs Glyph.endsWord rest do throw (Problem.badDirective.at rest)
  return (.tagDirective handle, rest)

/-- A directive after its `%`, and what follows its line. -/
def readDirective (gs : List Glyph) : Except Error (Token × List Glyph) := do
  let (name, rest) := takeName gs
  if name.isEmpty || !nextIs Glyph.endsWord rest then throw (Problem.badDirective.at rest)
  let (token, rest) ←
    match name with
    | "YAML" => readVersion rest
    | "TAG"  => readTagHandle rest
    | _      => throw (Problem.unknownDirective.at gs)
  let rest := restOfLine rest
  unless nextIs Glyph.endsLine rest do throw (Problem.badDirective.at rest)
  return (token, skipBreak rest)

end SceneScript.Yaml
