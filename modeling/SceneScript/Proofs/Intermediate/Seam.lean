import SceneScript.Proofs.Intermediate.Grammar

/-!
# Proofs — Intermediate — where two texts meet

An intermediate text is read line by line, and a line that is not blank either spells a statement or
is refused (`Refused`).  So what is read of some lines and then of others is what is read of all of
them, with the numbers of the later lines moved on (`readLines_append`, `readLines_add`), and a
reading fails at the first refused line (`readLines_eq_error`).

A line counts by what is left once it is trimmed (`readLines_congr`): it does not matter whether the
carriage return of a CRLF ending was taken away, nor whether the last line feed opened one more,
empty, line.  A reading is therefore one of the stretches between line feeds (`read_eq`), which is
how the lines of a text are numbered in `read_seams`.
-/

namespace SceneScript.Intermediate

open Text

/-! ### One line -/

/-- The line says something, and it spells no statement. -/
def Refused (l : List Char) : Prop :=
  trim l ≠ [] ∧ ∀ st, ¬ Spells (trim l) st

/-- What a line says: nothing if it is blank, and otherwise its statement. -/
def said? (l : List Char) : Option (List Statement) :=
  if (trim l).isEmpty then some [] else (readLine (trim l)).map ([·])

theorem said?_of_trim_eq_nil {l : List Char} (h : trim l = []) : said? l = some [] :=
  if_pos (List.isEmpty_iff.mpr h)

theorem said?_eq_none {l : List Char} : said? l = none ↔ Refused l := by
  unfold said? Refused
  split
  · next h => simp [List.isEmpty_iff.mp h]
  · next h =>
      have hne : trim l ≠ [] := fun e => h (List.isEmpty_iff.mpr e)
      simp only [Option.map_eq_none_iff, hne, ne_eq, not_false_eq_true, true_and]
      rw [Option.eq_none_iff_forall_ne_some]
      simp only [ne_eq, readLine_eq_some_iff, trim_trim]

/-- **A line adds what it says**, or ends the reading. -/
theorem readLines_cons (n : Nat) (l : List Char) (ls : List (List Char)) :
    readLines n (l :: ls) = match said? l with
      | some S => (readLines (n + 1) ls).map (S ++ ·)
      | none   => .error ⟨n⟩ := by
  rw [readLines, said?]
  split
  · cases readLines (n + 1) ls <;> rfl
  · cases readLine (trim l) <;> rfl

/-! ### Lines one after another -/

theorem readLines_congr {ls ls' : List (List Char)} (h : ls.map trim = ls'.map trim) (n : Nat) :
    readLines n ls = readLines n ls' := by
  induction ls generalizing ls' n with
  | nil => rw [List.map_eq_nil_iff.mp h.symm]
  | cons l ls ih =>
      cases ls' with
      | nil => cases h
      | cons l' ls' =>
          obtain ⟨hl, hls⟩ := List.cons.inj h
          rw [readLines, readLines, hl, ih hls]

theorem readLines_add (k n : Nat) (ls : List (List Char)) :
    readLines (n + k) ls = (readLines n ls).mapError fun e => ⟨e.line + k⟩ := by
  induction ls generalizing n with
  | nil => rfl
  | cons l ls ih =>
      rw [readLines_cons, readLines_cons, Nat.add_right_comm, ih]
      cases said? l with
      | none => rfl
      | some S => cases readLines (n + 1) ls <;> rfl

/-- **Lines are read one after another**: the first ones, and unless one of them is refused those
that follow, with their numbers. -/
theorem readLines_append (n : Nat) (ls ls' : List (List Char)) :
    readLines n (ls ++ ls') =
      (readLines n ls).bind fun S => (readLines (n + ls.length) ls').map (S ++ ·) := by
  induction ls generalizing n with
  | nil =>
      change readLines n ls' = (readLines n ls').map ([] ++ ·)
      cases readLines n ls' <;> rfl
  | cons l ls ih =>
      have hn : n + (l :: ls).length = n + 1 + ls.length := by rw [List.length_cons]; omega
      rw [List.cons_append, readLines_cons, readLines_cons, ih, hn]
      cases said? l with
      | none => rfl
      | some S =>
          cases readLines (n + 1) ls with
          | error e => rfl
          | ok T =>
              change ((readLines (n + 1 + ls.length) ls').map (T ++ ·)).map (S ++ ·) =
                (readLines (n + 1 + ls.length) ls').map (S ++ T ++ ·)
              cases readLines (n + 1 + ls.length) ls' with
              | error e => rfl
              | ok U => exact congrArg Except.ok (List.append_assoc S T U).symm

/-- **A reading stops at the first refused line**, and at no other. -/
theorem readLines_eq_error {n : Nat} {ls : List (List Char)} {e : SyntaxError} :
    readLines n ls = .error e ↔
      ∃ before l after, ls = before ++ l :: after ∧ (∀ l' ∈ before, ¬ Refused l') ∧ Refused l ∧
        e = ⟨n + before.length⟩ := by
  induction ls generalizing n with
  | nil => simp [readLines]
  | cons l ls ih =>
      rw [readLines_cons]
      cases hs : said? l with
      | none =>
          have hl := said?_eq_none.mp hs
          constructor
          · rintro ⟨⟩
            exact ⟨[], l, ls, rfl, List.forall_mem_nil _, hl, rfl⟩
          · rintro ⟨before, l', after, h, hb, -, rfl⟩
            cases before with
            | nil => rfl
            | cons b before => cases h; exact absurd hl (hb l List.mem_cons_self)
      | some S =>
          have hl : ¬ Refused l := fun h => by rw [said?_eq_none.mpr h] at hs; cases hs
          rw [map_eq_error, ih]
          constructor
          · rintro ⟨before, l', after, rfl, hb, hl', rfl⟩
            refine ⟨l :: before, l', after, rfl, List.forall_mem_cons.mpr ⟨hl, hb⟩, hl', ?_⟩
            rw [List.length_cons, Nat.add_right_comm, Nat.add_assoc]
          · rintro ⟨before, l', after, h, hb, hl', rfl⟩
            cases before with
            | nil => cases h; exact absurd hl' hl
            | cons b before =>
                cases h
                refine ⟨before, l', after, rfl, (List.forall_mem_cons.mp hb).2, hl', ?_⟩
                rw [List.length_cons, Nat.add_right_comm, Nat.add_assoc]

/-! ### The lines of a text -/

theorem readLines_blank {n : Nat} {l : List Char} (h : trim l = []) : readLines n [l] = .ok [] := by
  rw [readLines_cons, said?_of_trim_eq_nil h]
  rfl

theorem readLines_closeLines (n : Nat) (ls : List (List Char)) :
    readLines n (closeLines ls) = readLines n ls := by
  induction ls using closeLines.induct generalizing n with
  | case1 => rfl
  | case2 l hl => rw [closeLines, if_pos hl, List.isEmpty_iff.mp hl, readLines_blank rfl]; rfl
  | case3 l hl => rw [closeLines, if_neg hl]
  | case4 l ls hls ih =>
      rw [closeLines, readLines, readLines, trim_chopReturn, ih]
      exact hls

theorem read_eq (text : String) : read text = readLines 1 (text.toList.splitOn '\n') :=
  readLines_closeLines 1 _

/-- **Texts are read one after another** where the first ends its last line. -/
theorem read_append {a : String} (ha : a = "" ∨ a.toList.getLast? = some '\n') (b : String) :
    read (a ++ b) = (read a).bind fun S =>
      ((read b).mapError fun e => ⟨e.line + a.toList.count '\n'⟩).map (S ++ ·) := by
  obtain ⟨ls, hlen, hsplit⟩ := exists_splitOn_append (ha.imp_left String.toList_eq_nil_iff.mpr)
  -- the last line feed of `a` opens an empty line, and `b` starts there
  have hread : read a = readLines 1 ls := by
    have hs := hsplit []
    rw [List.append_nil, List.splitOn_nil] at hs
    rw [read_eq, hs, readLines_append, readLines_blank rfl]
    cases readLines 1 ls with
    | error e => rfl
    | ok S => exact congrArg Except.ok (List.append_nil S)
  rw [hread, read_eq, String.toList_append, hsplit, readLines_append, readLines_add, hlen,
    ← read_eq]

/-- **Intermediate texts can be joined.**  A text that ends its last line is read as if it stood
alone, and what follows it too, but for the numbers of its lines.  A reading fails at the first line
that is not blank and spells no statement, with one more than the number of the lines before it. -/
theorem read_seams :
    (∀ a b : String, a = "" ∨ a.toList.getLast? = some '\n' →
      read (a ++ b) = match read a, read b with
        | .error e, _        => .error e
        | .ok _,    .error e => .error ⟨e.line + a.toList.count '\n'⟩
        | .ok S,    .ok T    => .ok (S ++ T)) ∧
    ∀ (text : String) (e : SyntaxError), read text = .error e ↔
      ∃ before l after, text.toList.splitOn '\n' = before ++ l :: after ∧
        (∀ l' ∈ before, ¬ Refused l') ∧ Refused l ∧ e.line = before.length + 1 := by
  constructor
  · intro a b ha
    rw [read_append ha b]
    cases read a with
    | error e => rfl
    | ok S => cases read b <;> rfl
  · rintro text ⟨line⟩
    rw [read_eq, readLines_eq_error]
    simp only [SyntaxError.mk.injEq, Nat.add_comm 1]

/-- A statement and a blank line, each with a CRLF ending, before a blank line and one that ends
after its receiver. -/
theorem read_seams_crlf :
    let a := "var A b C ['x', ]\r\n\t\r\n"
    let b := "\u00A0\nmethod b"
    read a = .ok [.construct ⟨"A", "b", "C", ["x"]⟩] ∧ read b = .error ⟨2⟩ ∧
      read (a ++ b) = .error ⟨4⟩ ∧
      ∃ before l after, (a ++ b).toList.splitOn '\n' = before ++ l :: after ∧
        (∀ l' ∈ before, ¬ Refused l') ∧ Refused l ∧ 4 = before.length + 1 := by
  intro a b
  have ha : read a = .ok [.construct ⟨"A", "b", "C", ["x"]⟩] := by decide +kernel
  have hb : read b = .error ⟨2⟩ := by decide +kernel
  have hn : a.toList.count '\n' = 2 := by decide +kernel
  have hab := read_seams.1 a b (.inr (by decide +kernel))
  rw [ha, hb, hn] at hab
  exact ⟨ha, hb, hab, (read_seams.2 (a ++ b) ⟨4⟩).mp hab⟩

end SceneScript.Intermediate
