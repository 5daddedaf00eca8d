import Mathlib.Tactic.SplitIfs
import SceneScript.Intermediate
import SceneScript.Proofs.Statement
import SceneScript.Proofs.Text.Line
import SceneScript.Proofs.Text.Quote

/-!
# Proofs — Intermediate — what is written is read back

Every layer of the reader undoes one layer of the writer.  An escape takes its character back
(`readQuoted_escape`), so a quoted item is read up to the quote that closes it whatever follows
(`readQuoted_flatMap_escape`), a list literal gives its items (`ListLiteral.read_write`), a written
line its statement (`readLine_writeLine`) and a text of such lines its statements (`read_write`).

The arguments may hold anything, since an escaped item holds no line feed; the names have to be
words, since a blank would end a field early.
-/

namespace SceneScript.ListLiteral

open Text

/-! ### Items -/

theorem isQuote_quoteOf (item : List Char) : isQuote (quoteOf item) := by
  unfold quoteOf
  split <;> rfl

/-- Reading takes an escaped character back. -/
theorem readQuoted_escape {q : Char} (hq : isQuote q) (c : Char) (s : List Char) :
    readQuoted q (escape q c ++ s) = (readQuoted q s).map fun r => (c :: r.1, r.2) := by
  unfold escape
  split_ifs with h₁ h₂ h₃ h₄ h₅
  · subst h₁; simp [readQuoted, unescape]
  · subst h₂; simp [readQuoted, unescape]
  · subst h₃; simp [readQuoted, unescape]
  · subst h₄; simp [readQuoted, unescape]
  · -- only the quote that closes is escaped, and the reader knows both
    subst h₅
    rcases isQuote_iff.mp hq with rfl | rfl <;> simp [readQuoted, unescape]
  · simp [readQuoted, h₁, h₅]

/-- **A quoted item is read up to its closing quote**, whatever follows. -/
theorem readQuoted_flatMap_escape {q : Char} (hq : isQuote q) (item rest : List Char) :
    readQuoted q (item.flatMap (escape q) ++ q :: rest) = some (item, rest) := by
  induction item with
  | nil =>
      have hq' : q ≠ '\\' := by rintro rfl; cases hq
      simp [readQuoted, hq']
  | cons c cs ih =>
      rw [List.flatMap_cons, List.append_assoc, readQuoted_escape hq, ih]
      rfl

theorem newline_not_mem_escape {q : Char} (hq : isQuote q) (c : Char) : '\n' ∉ escape q c := by
  have hq' : '\n' ≠ q := by rintro rfl; cases hq
  by_cases hc : c = '\n'
  · subst hc; simp [escape]
  · unfold escape
    split_ifs <;> simp [hq', Ne.symm hc]

theorem newline_not_mem_quote (item : List Char) : '\n' ∉ quote item := by
  have hq := isQuote_quoteOf item
  have hq' : '\n' ≠ quoteOf item := fun h => by rw [← h] at hq; cases hq
  simp only [quote, List.mem_cons, List.mem_append, List.mem_flatMap, List.not_mem_nil, or_false,
    hq', false_or]
  rintro ⟨c, -, hc⟩
  exact newline_not_mem_escape hq c hc

/-! ### Lists -/

/-- One round of the reader. -/
theorem readItems_eq (s : List Char) :
    readItems s =
      match trimStart s with
      | []      => some []
      | q :: cs =>
        if isQuote q then
          match readQuoted q cs with
          | none              => none
          | some (item, rest) =>
            match trimStart rest with
            | []           => some [String.ofList item]
            | ',' :: rest' => (readItems rest').map (String.ofList item :: ·)
            | _ :: _       => none
        else none := by
  -- the definition keeps its matches as equations, for the descent; here they are matches again
  rw [readItems]
  split
  · next h => rw [h]
  · next q cs h =>
      rw [h]
      simp only
      congr 1
      split
      · next h => rw [h]
      · next h =>
          rw [h]
          simp only
          split <;> simp_all

theorem readItems_space (s : List Char) : readItems (' ' :: s) = readItems s := by
  rw [readItems_eq, trimStart_cons_of_isBlank rfl, ← readItems_eq]

/-- The first item, and what the reader goes by after it. -/
theorem readItems_of_readQuoted {w : List Char} (hw : IsBlanks w) {q : Char} (hq : isQuote q)
    {s rest : List Char} {item : String} (h : readQuoted q s = some (item.toList, rest)) :
    readItems (w ++ q :: s) =
      match trimStart rest with
      | []           => some [item]
      | ',' :: rest' => (readItems rest').map (item :: ·)
      | _ :: _       => none := by
  rw [readItems_eq, trimStart_append hw, trimStart_cons_of_not_isBlank (not_isBlank_of_isQuote hq)]
  simp only [hq, if_true, h, String.ofList_toList]

theorem readItems_quote (item : String) (rest : List Char) :
    readItems (quote item.toList ++ rest) =
      match trimStart rest with
      | []           => some [item]
      | ',' :: rest' => (readItems rest').map (item :: ·)
      | _ :: _       => none := by
  have hq := isQuote_quoteOf item.toList
  rw [quote, List.cons_append, List.append_assoc, List.singleton_append]
  exact readItems_of_readQuoted (w := []) nofun hq (readQuoted_flatMap_escape hq item.toList rest)

theorem readItems_intercalate :
    ∀ items : List String,
      readItems ([',', ' '].intercalate (items.map fun s => quote s.toList)) = some items
  | [] => by rw [readItems_eq]; rfl
  | [a] => by
      have h := readItems_quote a []
      simpa [List.intercalate, trimStart] using h
  | a :: b :: items => by
      have ih := readItems_intercalate (b :: items)
      rw [List.map_cons, List.map_cons, List.intercalate_cons_cons, List.append_assoc,
        readItems_quote, List.cons_append, List.singleton_append,
        trimStart_cons_of_not_isBlank rfl]
      simp only [readItems_space]
      rw [← List.map_cons (f := fun s : String => quote s.toList), ih]
      rfl

theorem getLast?_write (items : List String) : (write items).getLast? = some ']' := by
  rw [write, ← List.cons_append, List.getLast?_concat]

/-- **A list literal gives its items back.** -/
theorem read_write (items : List String) : read (write items) = some items := by
  rw [read, trim_eq_self (by simp [write, show isBlank '[' = false from rfl])
    (by simp [getLast?_write, show isBlank ']' = false from rfl]), write, inside?]
  simp only [List.getLast?_append, List.getLast?_singleton, Option.some_or, if_true,
    List.dropLast_concat, Option.bind_some]
  exact readItems_intercalate items

theorem newline_not_mem_write (items : List String) : '\n' ∉ write items := by
  have h : '\n' ∉ [',', ' '].intercalate (items.map fun s => quote s.toList) := by
    refine not_mem_intercalate (by decide) (List.forall_mem_map.mpr fun s _ => ?_)
    exact newline_not_mem_quote s.toList
  simpa [write] using h

end SceneScript.ListLiteral

namespace SceneScript.Intermediate

open Text

/-! ### Lines -/

/-- A word is a field, with blanks before it and a blank after it. -/
theorem readField_append {w : List Char} (hw : IsBlanks w) {n : String} (hn : IsWord n) {c : Char}
    (hc : isBlank c) (rest : List Char) :
    readField (w ++ (n.toList ++ c :: rest)) = some (n, rest) := by
  obtain ⟨hne, hb⟩ := hn
  have ht : trimStart (n.toList ++ c :: rest) = n.toList ++ c :: rest := by
    cases h : n.toList with
    | nil => exact absurd (String.toList_eq_nil_iff.mp h) hne
    | cons d ds => exact trimStart_cons_of_not_isBlank (hb d (h ▸ List.mem_cons_self)) _
  have hp : ∀ d ∈ n.toList, (!isBlank d) = true := fun d hd => by rw [hb d hd]; rfl
  rw [readField, trimStart_append hw, ht, List.dropWhile_append_of_pos hp,
    List.takeWhile_append_of_pos hp]
  simp [hc]

theorem readField_word {n : String} (hn : IsWord n) (rest : List Char) :
    readField (n.toList ++ ' ' :: rest) = some (n, rest) :=
  readField_append (w := []) nofun hn rfl rest

theorem toList_writeLine (s : Statement) :
    (writeLine s).toList =
      s.keyword.toList ++ ' ' ::
        (s.names.flatMap (fun n => n.toList ++ [' ']) ++ ListLiteral.write s.args) := by
  cases s <;> simp [writeLine, Statement.keyword, Statement.names, Statement.args]

theorem isWord_keyword : ∀ s : Statement, IsWord s.keyword
  | .construct _ => show IsWord "var" by decide
  | .invoke _    => show IsWord "method" by decide

/-- **A written line gives its statement back.** -/
theorem readLine_writeLine {s : Statement} (hs : s.HasWords) :
    readLine (writeLine s).toList = some s := by
  rw [toList_writeLine, readLine, readField_word (isWord_keyword s)]
  cases s with
  | construct c =>
      have h₁ := hs c.varType (by simp [Statement.names])
      have h₂ := hs c.varName (by simp [Statement.names])
      have h₃ := hs c.className (by simp [Statement.names])
      simp [Statement.keyword, Statement.names, Statement.args, readField_word, h₁, h₂, h₃,
        ListLiteral.read_write]
  | invoke i =>
      have h₁ := hs i.receiver (by simp [Statement.names])
      have h₂ := hs i.methodName (by simp [Statement.names])
      simp [Statement.keyword, Statement.names, Statement.args, readField_word, h₁, h₂,
        ListLiteral.read_write]

theorem not_isBlank_of_head?_writeLine (s : Statement) :
    ∀ c ∈ (writeLine s).toList.head?, isBlank c = false := by
  cases s <;> simp [toList_writeLine, Statement.keyword] <;> rfl

theorem getLast?_writeLine (s : Statement) : (writeLine s).toList.getLast? = some ']' := by
  rw [toList_writeLine, ← List.cons_append, ← List.append_assoc, List.getLast?_append,
    ListLiteral.getLast?_write, Option.some_or]

theorem trim_writeLine (s : Statement) : trim (writeLine s).toList = (writeLine s).toList :=
  trim_eq_self (not_isBlank_of_head?_writeLine s)
    (by simp [getLast?_writeLine, show isBlank ']' = false from rfl])

theorem isEmpty_writeLine (s : Statement) : (writeLine s).toList.isEmpty = false := by
  rw [List.isEmpty_eq_false_iff]
  intro h
  simpa [h] using getLast?_writeLine s

theorem newline_not_mem_writeLine {s : Statement} (hs : s.HasWords) :
    '\n' ∉ (writeLine s).toList := by
  have hk : '\n' ∉ s.keyword.toList := fun h => by cases (isWord_keyword s).2 _ h
  have hn : '\n' ∉ s.names.flatMap (fun n => n.toList ++ [' ']) := by
    intro h
    obtain ⟨n, hn, h⟩ := List.mem_flatMap.mp h
    rcases List.mem_append.mp h with h | h
    · cases (hs n hn).2 _ h
    · simp at h
  rw [toList_writeLine]
  simp [hk, hn, ListLiteral.newline_not_mem_write]

/-! ### Texts -/

/-- **A statement a line**: the lines of a written text are its statements' lines. -/
theorem lines_write {S : List Statement} (h : ∀ s ∈ S, s.HasWords) :
    lines (write S).toList = S.map fun s => (writeLine s).toList := by
  have hw : (write S).toList = (S.map fun s => (writeLine s).toList).flatMap (· ++ ['\n']) := by
    simp [write, String.toList_join, List.flatMap_map]
  rw [hw, lines_flatMap_newline]
  · intro l hl
    obtain ⟨s, hs, rfl⟩ := List.mem_map.mp hl
    exact newline_not_mem_writeLine (h s hs)
  · intro l hl
    obtain ⟨s, -, rfl⟩ := List.mem_map.mp hl
    exact chopReturn_eq_self (by simp [getLast?_writeLine])

/-- **Written lines give their statements back**, whatever number the first of them has. -/
theorem readLines_map_writeLine {S : List Statement} (h : ∀ s ∈ S, s.HasWords) (n : Nat) :
    readLines n (S.map fun s => (writeLine s).toList) = .ok S := by
  induction S generalizing n with
  | nil => rfl
  | cons s S ih =>
      rw [List.map_cons, readLines, trim_writeLine, isEmpty_writeLine,
        readLine_writeLine (h s List.mem_cons_self),
        ih fun s' hs => h s' (List.mem_cons_of_mem s hs)]
      rfl

/-- **A written text gives its statements back.** -/
theorem read_write {S : List Statement} (h : ∀ s ∈ S, s.HasWords) : read (write S) = .ok S := by
  rw [read, lines_write h, readLines_map_writeLine h]

/-- **The intermediate text is faithful.**  Statements whose names are words are read back from
their written text, whatever their arguments hold, and that text has one line for each of them, in
order. -/
theorem read_write_and_lines {S : List Statement} (h : ∀ s ∈ S, s.HasWords) :
    read (write S) = .ok S ∧ lines (write S).toList = S.map fun s => (writeLine s).toList :=
  ⟨read_write h, lines_write h⟩

/-- Two statements whose arguments hold both quotes, a backslash, every escaped character and
the marks of the list itself. -/
theorem read_write_and_lines_marks :
    let S : List Statement :=
      [.construct ⟨"T", "m", "C", ["it's", "'a' \"b\"\\\n\r\t], ['c'", "\\", ""]⟩,
        .invoke ⟨"]'", "go", ["\u2028 \u0085"]⟩]
    (∀ s ∈ S, s.HasWords) ∧ read (write S) = .ok S ∧
      lines (write S).toList = S.map fun s => (writeLine s).toList := by
  intro S
  have h : ∀ s ∈ S, s.HasWords := by decide
  exact ⟨h, read_write_and_lines h⟩

end SceneScript.Intermediate
