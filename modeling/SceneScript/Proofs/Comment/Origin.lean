import SceneScript.Proofs.Byte.Comment
import SceneScript.Proofs.Comment.Scan

/-!
# Proofs — Comment — where what is left stood

The map from what is left of a script back into the script is exact (`origins_exact`).  It is a list
of the starts of what was copied, made in one pass over the bytes of the script and searched for the
last start at or before an offset; the lines are found by a search in the table of line starts.
-/

namespace SceneScript

open Text

/-- **The origin map is exact, and nothing but comments is lost.**  The script is cut into kept
runs, line comments and closed block comments, each as far as it reaches; what the pass over its
bytes leaves are the kept runs, with a space for each block comment.  Each byte of it is mapped to
the byte of the script that it is, or to the start of the block comment that it stands for; later
bytes are mapped further on; and the line of any offset is one more than the line feeds before the
byte that it is mapped to. -/
theorem origins_exact (source : String) :
    let s := strip source
    let ps := pieces source.toList
    (Byte.strip (bytes source.toList)).Gives (.encode s) ∧
    Cuts source.toList ps ∧ ps.flatMap Piece.source = source.toList ∧
    s.text.toList = ps.flatMap Piece.residue ∧
    (∀ n < byteLength s.text.toList, Comes ps n (s.sourceOffset n)) ∧
    (∀ i j, i < j → j < byteLength s.text.toList → s.sourceOffset i < s.sourceOffset j) ∧
    ∀ n, s.sourceLine n =
      1 + ((bytes source.toList).take (s.sourceOffset n)).count newlineByte := by
  intro s ps
  have hr : s.text.toList = ps.flatMap Piece.residue := residue_strip source
  refine ⟨.of_value (Byte.value_strip source), cuts_pieces source.toList,
    flatMap_source_pieces source.toList, hr, fun n hn => ?_, fun i j hij hj => ?_, fun n => ?_⟩
  · rw [sourceOffset_eq_place hn]
    exact comes_place (hr ▸ hn)
  · rw [sourceOffset_eq_place hj, sourceOffset_eq_place (Nat.lt_trans hij hj)]
    exact place_lt_place hij (hr ▸ hj)
  · rw [sourceLine_eq_newlinesBefore, newlinesBefore_eq_count]

/-- A character of two bytes, a block comment with a line feed in it and a line comment: the byte of
`b` stood on the second line. -/
theorem origins_exact_between_comments :
    let source := "é/*\n*/b//c\n"
    let s := strip source
    3 < byteLength s.text.toList ∧ Comes (pieces source.toList) 3 (s.sourceOffset 3) ∧
      s.sourceOffset 2 < s.sourceOffset 3 ∧ s.sourceOffset 3 = 7 ∧ s.sourceLine 3 = 2 := by
  intro source s
  have hn : 3 < byteLength s.text.toList := by decide +kernel
  have ho : s.sourceOffset 3 = 7 := by decide +kernel
  obtain ⟨-, -, -, -, hc, hm, hl⟩ := origins_exact source
  refine ⟨hn, hc 3 hn, hm 2 3 (by decide) hn, ho, ?_⟩
  rw [hl 3, ho]
  decide +kernel

end SceneScript
