import SceneScript.Proofs.Byte.Argument
import SceneScript.Proofs.Byte.Comment
import SceneScript.Proofs.Byte.Template

/-!
# Proofs — Byte — whole characters

Comments, arguments and templates are read from the bytes of a text, at offsets that the scans find
byte by byte.  None of them cuts a character (`scans_keep_characters_whole`).

For each scan it is enough that it has a value: a slice that is not clean would have ended it.  That
value is the one which the characters of the text give, in bytes (`value_strip`,
`value_readArguments`, `value_compile`).
-/

namespace SceneScript.Byte

open Text

/-- **No scan cuts a character.**  Whatever the text, each slice that is taken of its bytes, to take
comments out, to read an argument list or to compile a template, is in bounds and starts and ends
on a boundary, so that none is refused.  And what comes of the bytes is, in bytes, what comes of the
characters: the text without comments and where its parts come from, the tokens of the list or the
one that is refused, and the segments of the template or its error. -/
theorem scans_keep_characters_whole (text : String) :
    (strip (bytes text.toList)).Gives (.encode (SceneScript.strip text)) ∧
    (readArguments (bytes text.toList)).Gives (encodeTokens (Argument.read text.toList)) ∧
    ∀ (φ β : Type) [Placeholder φ β],
      (compile (φ := φ) (bytes text.toList)).Gives (encodeTemplate (Template.compile text)) := by
  refine ⟨.of_value (value_strip text), .of_value (value_readArguments text.toList), fun φ β _ => ?_⟩
  exact .of_value (value_compile text)

end SceneScript.Byte
