import Mathlib.Data.List.Forall2
import SceneScript.Proofs.Comment.Ending
import SceneScript.Proofs.Intermediate.Seam
import SceneScript.Script

/-!
# Proofs — Script — line endings say nothing

A script reads the same with a carriage return before every line feed, and so does an intermediate
text (`line_endings_transparent`).

What is left of the script once comments are out has the same lines, but for a carriage return at
the end of each, which is blank.  So its rows have the same texts, and though they start at other
bytes they stood on the same lines of their scripts (`agree_rows_crlf`).  Of a row a reading sees
only these two things (`readRows_congr`).
-/

namespace SceneScript

open Text

namespace Script

/-- The rows say the same, and stood on the same line of their script. -/
def Row.Agree (s s' : Stripped) (r r' : Row) : Prop :=
  r.text = r'.text ∧ s.sourceLine r.start = s'.sourceLine r'.start

/-- **Rows that agree are read alike**, down to what is reported about them. -/
theorem readRows_congr {s s' : Stripped} {rs rs' : List Row}
    (h : List.Forall₂ (Row.Agree s s') rs rs') (p : Progress) :
    readRows s p rs = readRows s' p rs' := by
  induction h generalizing p with
  | nil => rfl
  | cons hr _ ih => simp only [readRows, hr.1, hr.2, ih]

/-- Blanks at the end of a line do not keep rows from agreeing. -/
theorem agree_rows_cons {s s' : Stripped} {l w : List Char} {ls ls' : List (List Char)} {n n' : Nat}
    (hw : IsBlanks w)
    (hl : trim l ≠ [] → s.sourceLine (n + byteLength (l.takeWhile isBlank)) =
      s'.sourceLine (n' + byteLength (l.takeWhile isBlank)))
    (h : List.Forall₂ (Row.Agree s s') (rows (n + byteLength l + 1) ls)
      (rows (n' + byteLength (l ++ w) + 1) ls')) :
    List.Forall₂ (Row.Agree s s') (rows n (l :: ls)) (rows n' ((l ++ w) :: ls')) := by
  rw [rows, rows, trim_append hw]
  split
  · exact h
  · next he =>
      have ht : trim l ≠ [] := fun e => he (List.isEmpty_iff.mpr e)
      have hb : (l ++ w).takeWhile isBlank = l.takeWhile isBlank := by
        obtain ⟨c, t, hc, -⟩ := exists_cons_of_trim_ne_nil ht
        have hlen := congrArg List.length hc
        rw [List.length_append, List.length_cons] at hlen
        rw [List.takeWhile_append, if_neg (by omega)]
      rw [hb]
      exact .cons ⟨rfl, hl ht⟩ h

section Rows

variable {source : String} {before : List (List Char)}

/-- The line of the script on which a row stood. -/
theorem sourceLine_row_crlf {l : List Char} {after : List (List Char)}
    (h : (strip source).residue.splitOn '\n' = before ++ l :: after) (hl : trim l ≠ []) :
    (strip source).sourceLine
        (byteLength (before.flatMap (· ++ ['\n'])) + byteLength (l.takeWhile isBlank)) =
      (strip (withCrlf source)).sourceLine
        (byteLength (crlf (before.flatMap (· ++ ['\n']))) + byteLength (l.takeWhile isBlank)) := by
  have hn : '\n' ∉ l := newline_not_mem_of_mem_splitOn (by rw [h]; simp)
  have hw : '\n' ∉ l.takeWhile isBlank := fun hm => hn ((List.takeWhile_sublist _).mem hm)
  obtain ⟨c, rest, hs, hc⟩ := exists_cons_of_splitOn h hl
  have hline := sourceLine_crlf hc hs
  rw [crlf_append, crlf_eq_self hw, byteLength_append, byteLength_append] at hline
  exact hline.symm

/-- **The rows of a script agree with those of the script with carriage returns.** -/
theorem agree_rows_crlf {ls : List (List Char)}
    (h : (strip source).residue.splitOn '\n' = before ++ ls) :
    List.Forall₂ (Row.Agree (strip source) (strip (withCrlf source)))
      (rows (byteLength (before.flatMap (· ++ ['\n']))) ls)
      (rows (byteLength (crlf (before.flatMap (· ++ ['\n'])))) (returned ls)) := by
  induction ls generalizing before with
  | nil => exact .nil
  | cons l ls ih =>
      have hn : '\n' ∉ l := newline_not_mem_of_mem_splitOn (by rw [h]; simp)
      cases ls with
      | nil =>
          have e : returned [l] = [l ++ []] := by rw [List.append_nil]; rfl
          rw [e]
          exact agree_rows_cons nofun (sourceLine_row_crlf h) .nil
      | cons l' ls =>
          refine agree_rows_cons (List.forall_mem_singleton.mpr rfl) (sourceLine_row_crlf h) ?_
          have hs : (strip source).residue.splitOn '\n' = before ++ [l] ++ l' :: ls := by
            simpa using h
          have hrows := ih hs
          simp only [List.flatMap_append, List.flatMap_singleton, crlf_append, crlf_eq_self hn,
            byteLength_append] at hrows
          rwa [byteLength_append]

end Rows

theorem readRows_crlf (source : String) (p : Progress) :
    readRows (strip (withCrlf source)) p (rows 0 ((strip (withCrlf source)).residue.splitOn '\n')) =
      readRows (strip source) p (rows 0 ((strip source).residue.splitOn '\n')) := by
  rw [residue_strip_crlf, splitOn_crlf]
  have h : (strip source).residue.splitOn '\n' = [] ++ (strip source).residue.splitOn '\n' := rfl
  exact (readRows_congr (agree_rows_crlf h) p).symm

end Script

theorem Normalizer.run_crlf (n : Normalizer) (source : String) :
    n.run (withCrlf source) = n.run source := by
  have hreset : n.reset (withCrlf source) = n.reset source := by
    rw [reset, reset, withCrlf, String.toList_ofList, length_lines_crlf]
  simp only [run, hreset, Script.readRows_crlf]

theorem Intermediate.read_crlf (text : String) : read (withCrlf text) = read text := by
  rw [read_eq, read_eq, withCrlf, String.toList_ofList, splitOn_crlf,
    readLines_congr (map_trim_returned _)]

/-- **Line endings say nothing.**  With a carriage return before every line feed of a text, the same
text is left once comments are out, but for the same carriage returns; the same statements are read
or the same line is refused, with the same numbers and events; and so it is if the text is an
intermediate one. -/
theorem line_endings_transparent (text : String) :
    (strip (withCrlf text)).text = withCrlf (strip text).text ∧
    (∀ n : Normalizer, n.run (withCrlf text) = n.run text) ∧
    Intermediate.read (withCrlf text) = Intermediate.read text := by
  refine ⟨?_, fun n => n.run_crlf text, Intermediate.read_crlf text⟩
  refine String.toList_inj.mp ((residue_strip_crlf text).trans ?_)
  rw [withCrlf, String.toList_ofList, Stripped.residue]

/-- A line comment stops before the carriage return, and a quoted run goes over it. -/
example : (strip (withCrlf "x // y\n'/*\n*/'")).text = "x \r\n'/*\r\n*/'" := by decide +kernel

end SceneScript
