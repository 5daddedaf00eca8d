/-!
# Text — Quote

Quoted runs of a script.  A run opens with `"` or `'` and closes at the first equal quote that
does not directly follow a backslash.  `closeQuote` finds that place; what it takes and what it
leaves make up what it was given (`closeQuote_append`), and it always takes something
(`closeQuote_length_lt`).
-/

namespace SceneScript.Text

/-- `c` opens a quoted run. -/
def isQuote (c : Char) : Bool :=
  c = '"' || c = '\''

/-- What follows an opening quote `q`, up to and including the quote that closes it, and the
rest.  `prev` is the character just before. -/
def closeQuote (q prev : Char) : List Char → Option (List Char × List Char)
  | []      => none
  | c :: cs =>
    if c = q ∧ prev ≠ '\\' then some ([c], cs)
    else (closeQuote q c cs).map fun r => (c :: r.1, r.2)

theorem closeQuote_append {q prev : Char} {s run rest : List Char}
    (h : closeQuote q prev s = some (run, rest)) : run ++ rest = s := by
  induction s generalizing prev run with
  | nil => simp [closeQuote] at h
  | cons c cs ih =>
      rw [closeQuote] at h
      split at h
      · cases h; rfl
      · obtain ⟨⟨run', rest'⟩, h', e⟩ := Option.map_eq_some_iff.1 h
        cases e
        simp [ih h']

theorem closeQuote_length_lt {q prev : Char} {s run rest : List Char}
    (h : closeQuote q prev s = some (run, rest)) : rest.length < s.length := by
  induction s generalizing prev run with
  | nil => simp [closeQuote] at h
  | cons c cs ih =>
      rw [closeQuote] at h
      split at h
      · cases h; simp
      · obtain ⟨⟨run', rest'⟩, h', e⟩ := Option.map_eq_some_iff.1 h
        cases e
        exact Nat.lt_succ_of_lt (ih h')

end SceneScript.Text
