import SceneScript.Yaml.Problem
import SceneScript.Yaml.Scalar.Space

/-!
# Yaml — Scalar — Plain

Scalars without quotes.  A plain scalar ends at a comment, at a colon that ends a word, at a
document marker, outside flow collections at a line that is indented too little, and inside them
at a comma or bracket.
-/

namespace SceneScript.Yaml

/-- `c` separates or delimits items of a flow collection. -/
def isFlowMark (c : Char) : Bool :=
  c = ',' || c = '[' || c = ']' || c = '{' || c = '}'

/-- A plain scalar ends before `gs`, given the white space since its last word; lines have to be
indented by `indent` outside flow collections. -/
def endsPlain (flow : Bool) (indent : Int) (space : Space) : List Glyph → Bool
  | []      => true
  | g :: gs =>
    g.isEnd || atMarker (g :: gs) || (space.isSome && g.char = '#') ||
      (space.isSome && !flow && (g.column : Int) < indent) ||
      (g.char = ':' && nextIs Glyph.endsWord gs) || (flow && isFlowMark g.char)

/-- A plain scalar, whether a line ended after its last word, and what follows it. -/
def readPlain (flow : Bool) (indent : Int) (space : Space) :
    List Glyph → Except Error (List Char × Bool × List Glyph)
  | []      => .ok ([], space.hasBreak, [])
  | g :: gs =>
    if g.isBlank then
      if space.hasBreak && g.char = '\t' && (g.column : Int) < indent then
        .error (Problem.tabIndentation.at (g :: gs))
      else readPlain flow indent (space.addBlank g.char) gs
    else if g.isBreak then readPlain flow indent (space.addBreak g.char) gs
    else if endsPlain flow indent space (g :: gs) then .ok ([], space.hasBreak, g :: gs)
    else if flow && g.char = ':' && nextIs (fun h => isFlowMark h.char || h.char = '?') gs then
      .error (Problem.unexpectedColon.at (g :: gs))
    else (readPlain flow indent .none gs).map fun r => (space.text ++ g.char :: r.1, r.2)

end SceneScript.Yaml
