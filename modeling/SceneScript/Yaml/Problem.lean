import SceneScript.Yaml.Glyph

/-!
# Yaml — Problem

What can be wrong with a YAML text, and where.
-/

namespace SceneScript.Yaml

/-- What is wrong with a YAML text. -/
inductive Problem where
  | forbiddenCharacter
  | unknownToken
  | missingColon
  | misplacedEntry
  | misplacedKey
  | misplacedValue
  | tabIndentation
  | unexpectedColon
  | unterminatedScalar
  | markerInScalar
  | unknownEscape
  | badCodePoint
  | zeroIndentation
  | badBlockHeader
  | badAnchor
  | badTag
  | undefinedTagHandle
  | unknownDirective
  | badDirective
  | duplicateDirective
  | unsupportedVersion
  | missingDocumentStart
  | missingNode
  | missingEntry
  | missingKey
  | missingFlowEnd
  | unknownAlias
  | tooManyAliases
  | emptyStream
  | extraDocument
  | expectedText
  | expectedMapping
  | missingField (name : String)
  | duplicateField (name : String)
  deriving DecidableEq, Repr

/-- The wording of a problem. -/
def Problem.message : Problem → String
  | .forbiddenCharacter   => "control characters are not allowed"
  | .unknownToken         => "found character that cannot start any token"
  | .missingColon         => "could not find expected ':'"
  | .misplacedEntry       => "block sequence entries are not allowed in this context"
  | .misplacedKey         => "mapping keys are not allowed in this context"
  | .misplacedValue       => "mapping values are not allowed in this context"
  | .tabIndentation       => "found a tab character where an indentation space is expected"
  | .unexpectedColon      => "found unexpected ':'"
  | .unterminatedScalar   => "found unexpected end of stream"
  | .markerInScalar       => "found unexpected document indicator"
  | .unknownEscape        => "found unknown escape character"
  | .badCodePoint         => "found invalid Unicode character escape code"
  | .zeroIndentation      => "found an indentation indicator equal to 0"
  | .badBlockHeader       => "did not find expected comment or line break"
  | .badAnchor            => "did not find expected alphabetic or numeric character"
  | .badTag               => "did not find expected tag"
  | .undefinedTagHandle   => "found undefined tag handle"
  | .unknownDirective     => "found unknown directive name"
  | .badDirective         => "did not find expected directive value"
  | .duplicateDirective   => "found duplicate directive"
  | .unsupportedVersion   => "found incompatible YAML document"
  | .missingDocumentStart => "did not find expected <document start>"
  | .missingNode          => "did not find expected node content"
  | .missingEntry         => "did not find expected '-' indicator"
  | .missingKey           => "did not find expected key"
  | .missingFlowEnd       => "did not find expected ',' or closing bracket"
  | .unknownAlias         => "unknown anchor"
  | .tooManyAliases       => "repetition limit exceeded"
  | .emptyStream          => "no document"
  | .extraDocument        => "more than one document"
  | .expectedText         => "expected a string"
  | .expectedMapping      => "expected a mapping"
  | .missingField name    => s!"missing field `{name}`"
  | .duplicateField name  => s!"duplicate field `{name}`"

/-- A problem and where it stands, if that is known. -/
structure Error where
  problem : Problem
  place   : Option (Nat × Nat) := none
  deriving DecidableEq, Repr

/-- The wording of an error; lines and columns are counted from 1. -/
def Error.message (e : Error) : String :=
  match e.place with
  | some (line, column) => e.problem.message ++ s!" at line {line + 1} column {column + 1}"
  | none                => e.problem.message

/-- The problem, found at the first of the given glyphs. -/
def Problem.at (p : Problem) : List Glyph → Error
  | g :: _ => ⟨p, some (g.line, g.column)⟩
  | []     => ⟨p, none⟩

end SceneScript.Yaml
