import SceneScript.Proofs.Comment.Seam
import SceneScript.Proofs.Script.WellFormed

/-!
# Proofs — Script — the display form is a script

A statement is displayed as a line of a script would say it, and such a line says that statement
(`Line.read_display`), unless a name can be taken for a comment or for a marker: this is what
`Statement.Displayable` rules out, and only where it matters.  Arguments may hold anything that a
token can, markers of all kinds included.

The display form is words with a space after each (`Statement.lead`), the name that is called and
its arguments.  Words are passed over one by one until the marker is met, and none of it starts a
comment (`inert_display`), so that displayed statements, a line each, are a script that says them
(`normalize_display`).
-/

namespace SceneScript

open Text

/-- No name stands where a marker is looked for and is one. -/
def Statement.Unmarked : Statement → Prop
  | .construct c => c.varType ≠ "-" ∧ c.varType ≠ "::=" ∧ c.varName ≠ "::="
  | .invoke i    => i.receiver ≠ "->" ∧ i.receiver ≠ "::=" ∧ i.methodName ≠ "::="

instance : (s : Statement) → Decidable s.Unmarked
  | .construct c => inferInstanceAs (Decidable (c.varType ≠ "-" ∧ _ ∧ _))
  | .invoke i    => inferInstanceAs (Decidable (i.receiver ≠ "->" ∧ _ ∧ _))

/-- A statement whose display form says what it does. -/
structure Statement.Displayable (s : Statement) : Prop where
  wellFormed : s.WellFormed
  uncommented : ∀ n ∈ s.names, ¬ ['/', '/'] <:+: n.toList ∧ ¬ ['/', '*'] <:+: n.toList
  unmarked : s.Unmarked

instance (s : Statement) : Decidable s.Displayable :=
  decidable_of_iff
    (s.WellFormed ∧
      (∀ n ∈ s.names, ¬ ['/', '/'] <:+: n.toList ∧ ¬ ['/', '*'] <:+: n.toList) ∧ s.Unmarked)
    ⟨fun h => ⟨h.1, h.2.1, h.2.2⟩, fun h => ⟨h.wellFormed, h.uncommented, h.unmarked⟩⟩

namespace Statement

/-! ### The parts of the display form -/

/-- The words before the name that is called. -/
def lead : Statement → List String
  | .construct c => [c.varType, "-", c.varName, "::="]
  | .invoke i    => [i.receiver, "->"]

/-- The name that is called. -/
def callee : Statement → String
  | .construct c => c.className
  | .invoke i    => i.methodName

/-- The words before the name that is called and the name, with a space after each. -/
def opening (s : Statement) : List Char :=
  s.lead.flatMap (fun w => w.toList ++ [' ']) ++ (s.callee.toList ++ [' '])

/-- The arguments with a space between them. -/
def spelledArgs (s : Statement) : List Char :=
  [' '].intercalate (s.args.map String.toList)

theorem toList_display (s : Statement) :
    s.display.toList = s.opening ++ '(' :: (s.spelledArgs ++ [')']) := by
  cases s <;>
    simp [display, opening, lead, callee, spelledArgs, args, String.toList_intercalate]

/-- The words of the opening are names that start no comment, the markers among them. -/
theorem Displayable.isName_of_mem {s : Statement} (h : s.Displayable) {w : String}
    (hw : w ∈ s.lead ∨ w = s.callee) :
    IsName w ∧ ¬ ['/', '/'] <:+: w.toList ∧ ¬ ['/', '*'] <:+: w.toList := by
  have hmarks : ∀ m ∈ ["-", "::=", "->"],
      IsName m ∧ ¬ ['/', '/'] <:+: m.toList ∧ ¬ ['/', '*'] <:+: m.toList := by decide
  have hm : w ∈ s.names ∨ w ∈ ["-", "::=", "->"] := by
    cases s <;>
      simp only [lead, callee, names, List.mem_cons, List.not_mem_nil, or_false] at hw ⊢ <;> tauto
  rcases hm with hm | hm
  · exact ⟨h.wellFormed.names w hm, h.uncommented w hm⟩
  · exact hmarks w hm

/-- A character of the opening is a space, or a character of one of its words. -/
theorem mem_opening {s : Statement} {c : Char} (h : c ∈ s.opening) :
    c = ' ' ∨ ∃ w, (w ∈ s.lead ∨ w = s.callee) ∧ c ∈ w.toList := by
  simp only [opening, List.mem_append, List.mem_flatMap, List.mem_singleton] at h
  rcases h with ⟨w, hw, hc | hc⟩ | hc | hc
  · exact .inr ⟨w, .inl hw, hc⟩
  · exact .inl hc
  · exact .inr ⟨_, .inr rfl, hc⟩
  · exact .inl hc

end Statement

/-! ### What no layer takes for something else -/

theorem Text.IsName.not_mem_of_isBlank {w : String} (h : IsName w) {c : Char} (hc : isBlank c) :
    c ∉ w.toList := fun hm => by
  rw [h.1.2 c hm] at hc
  cases hc

theorem Argument.IsToken.inert {t : List Char} (h : Argument.IsToken t) : Inert t := by
  rcases h with hb | ⟨q, body, rfl, hq, hg, hl⟩
  · refine .of_forall fun c hc => ?_
    have := Literal.isBareChar_of_mem hb hc
    exact ⟨Literal.not_isQuote_of_isBareChar this, Literal.ne_slash_of_isBareChar this⟩
  · exact .quoted hq hg hl

theorem inert_intercalate :
    ∀ {ts : List String}, (∀ t ∈ ts, Argument.IsToken t.toList) →
      Inert ([' '].intercalate (ts.map String.toList))
  | [], _ => .nil
  | [t], h => by simpa [List.intercalate] using (h t List.mem_cons_self).inert
  | t :: t' :: ts, h => by
      obtain ⟨ht, hts⟩ := List.forall_mem_cons.mp h
      have hs := (ht.inert.append (.char rfl (by decide : ' ' ≠ '/'))).append
        (inert_intercalate hts)
      simpa [List.intercalate_cons_cons] using hs

namespace Statement.Displayable

variable {s : Statement}

theorem paren_not_mem_opening (h : s.Displayable) : '(' ∉ s.opening := by
  intro hc
  rcases mem_opening hc with hc | ⟨w, hw, hc⟩
  · cases hc
  · exact ((h.isName_of_mem hw).1.2 _ hc).2 rfl

theorem newline_not_mem_display (h : s.Displayable) : '\n' ∉ s.display.toList := by
  have hargs : '\n' ∉ s.spelledArgs :=
    not_mem_intercalate (by decide)
      (List.forall_mem_map.mpr fun a ha => (h.wellFormed.args a ha).2)
  have ho : '\n' ∉ s.opening := by
    intro hc
    rcases mem_opening hc with hc | ⟨w, hw, hc⟩
    · cases hc
    · exact (h.isName_of_mem hw).1.not_mem_of_isBlank rfl hc
  rw [toList_display]
  simp [ho, hargs]

/-- **A displayed statement holds no comment.** -/
theorem inert_display (h : s.Displayable) : Inert s.display.toList := by
  have word {w : String} (hw : w ∈ s.lead ∨ w = s.callee) : Inert (w.toList ++ [' ']) := by
    obtain ⟨hn, hl, hb⟩ := h.isName_of_mem hw
    exact inert_append_space (fun c hc => (hn.2 c hc).1) hl hb
  have words : ∀ ws : List String, (∀ w ∈ ws, w ∈ s.lead) →
      Inert (ws.flatMap fun w => w.toList ++ [' ']) := by
    intro ws hws
    induction ws with
    | nil => exact .nil
    | cons w ws ih =>
        obtain ⟨hw, hws⟩ := List.forall_mem_cons.mp hws
        exact (word (.inl hw)).append (ih hws)
  have hargs : Inert s.spelledArgs :=
    inert_intercalate fun a ha => (h.wellFormed.args a ha).1
  rw [toList_display]
  exact ((words s.lead fun _ => id).append (word (.inr rfl))).append
    ((Inert.char rfl (by decide : '(' ≠ '/')).append
      (hargs.append (.char rfl (by decide : ')' ≠ '/'))))

end Statement.Displayable

namespace Line

theorem constructMark_eq : constructMark = spaced [':', ':', '='] := rfl

theorem invokeMark_eq : invokeMark = spaced ['-', '>'] := rfl

theorem typeMark_eq : typeMark = spaced ['-'] := rfl

/-- A name is read from a text that it is but for blanks at the ends. -/
theorem readName_of_isName {n : String} (hn : IsName n) {s : List Char} (hs : trim s = n.toList)
    (field : NameField) : readName field s = .ok n := by
  have hne : n.toList ≠ [] := fun h => hn.1.1 (String.toList_eq_nil_iff.mp h)
  rw [readName_eq_ok, hs]
  exact ⟨String.ofList_toList, hne, hn.1.2, fun c hc => (hn.2 c hc).1⟩

theorem trim_name {n : String} (hn : IsName n) : trim n.toList = n.toList :=
  trim_eq_self (fun c hc => hn.1.2 c (List.mem_of_mem_head? hc))
    (fun c hc => hn.1.2 c (List.mem_of_mem_getLast? hc))

/-- What starts with a name starts with no blank. -/
theorem not_isBlank_of_head?_name {n : String} (hn : IsName n) (rest : List Char) :
    ∀ c ∈ (n.toList ++ rest).head?, isBlank c = false := by
  intro c hc
  cases e : n.toList with
  | nil => exact absurd (String.toList_eq_nil_iff.mp e) hn.1.1
  | cons d ds =>
      rw [e] at hc
      cases hc
      exact hn.1.2 c (by rw [e]; exact List.mem_cons_self)

/-- **A displayed call is read back.** -/
theorem readCall_display {n : String} (hn : IsName n) {args : List String}
    (ha : ∀ a ∈ args, Argument.IsToken a.toList) :
    readCall (n.toList ++ [' '] ++
        '(' :: ([' '].intercalate (args.map String.toList) ++ [')'] ++ [' '])) =
      .ok (n.toList ++ [' '], args) := by
  have hp : '(' ∉ n.toList ++ [' '] := by
    simpa using fun h => (hn.2 _ h).2 rfl
  have hlast (s : List Char) : ∀ c ∈ (s ++ [')']).getLast?, isBlank c = false := by
    simp [show isBlank ')' = false from rfl]
  -- the blank at the end goes, and the list in parentheses is left
  have htrim (s : List Char) : trim (n.toList ++ [' '] ++ '(' :: (s ++ [')'] ++ [' '])) =
      n.toList ++ [' '] ++ '(' :: (s ++ [')']) := by
    rw [← List.cons_append, ← List.append_assoc, trim_concat_of_isBlank rfl]
    refine trim_eq_self ?_ ?_
    · rw [List.append_assoc]
      exact not_isBlank_of_head?_name hn _
    · rw [← List.cons_append, ← List.append_assoc]
      exact hlast _
  have hlist (s : List Char) : trim ('(' :: (s ++ [')'])) = '(' :: (s ++ [')']) :=
    trim_eq_self (by simp [show isBlank '(' = false from rfl]) (hlast ('(' :: s))
  rw [readCall_eq_ok, htrim, head, takeWhile_ne_append hp, dropWhile_ne_append hp]
  exact ⟨Argument.read_eq_ok.mpr (.inr ⟨_, hlist _, Argument.spells_intercalate ha⟩), rfl⟩

/-! ### The markers of a displayed line -/

section Marks

variable {t n r m : List Char}

theorem cut_constructMark (ht : ' ' ∉ t) (hn : ' ' ∉ n) (ht' : t ≠ [':', ':', '='])
    (hn' : n ≠ [':', ':', '=']) (rest : List Char) :
    cut constructMark
        (' ' :: (t ++ ' ' :: (['-'] ++ ' ' :: (n ++ ' ' :: ([':', ':', '='] ++ ' ' :: rest))))) =
      some (' ' :: (t ++ ' ' :: (['-'] ++ ' ' :: n)), rest) := by
  have hw : ' ' ∉ [':', ':', '='] := by decide
  rw [constructMark_eq, cut_spaced_of_ne hw ht ht', cut_spaced_of_ne hw (by decide) (by decide),
    cut_spaced_of_ne hw hn hn', cut_spaced_self]
  simp

theorem cut_typeMark (ht : ' ' ∉ t) (ht' : t ≠ ['-']) (rest : List Char) :
    cut typeMark (' ' :: (t ++ ' ' :: (['-'] ++ ' ' :: rest))) = some (' ' :: t, rest) := by
  rw [typeMark_eq, cut_spaced_of_ne (by decide) ht ht', cut_spaced_self]
  simp

theorem cut_invokeMark (hr : ' ' ∉ r) (hr' : r ≠ ['-', '>']) (rest : List Char) :
    cut invokeMark (' ' :: (r ++ ' ' :: (['-', '>'] ++ ' ' :: rest))) = some (' ' :: r, rest) := by
  rw [invokeMark_eq, cut_spaced_of_ne (by decide) hr hr', cut_spaced_self]
  simp

theorem cut_constructMark_eq_none (hr : ' ' ∉ r) (hm : ' ' ∉ m) (hr' : r ≠ [':', ':', '='])
    (hm' : m ≠ [':', ':', '=']) :
    cut constructMark (' ' :: (r ++ ' ' :: (['-', '>'] ++ ' ' :: (m ++ [' '])))) = none := by
  have hw : ' ' ∉ [':', ':', '='] := by decide
  rw [constructMark_eq, cut_spaced_of_ne hw hr hr', cut_spaced_of_ne hw (by decide) (by decide),
    cut_spaced_of_ne hw hm hm']
  rfl

end Marks

theorem pad_display (s : Statement) :
    pad s.display.toList = ' ' :: s.opening ++ '(' :: (s.spelledArgs ++ [')'] ++ [' ']) := by
  rw [pad, Statement.toList_display]
  simp

/-- The markers of a displayed line are looked for in its opening. -/
theorem head_pad_display {s : Statement} (h : s.Displayable) :
    head (pad s.display.toList) = ' ' :: s.opening := by
  rw [pad_display]
  refine takeWhile_ne_append ?_ _
  simpa using h.paren_not_mem_opening

/-- **A displayed statement is read back from its line.** -/
theorem read_display {s : Statement} (h : s.Displayable) :
    read s.display.toList = .ok (some s) := by
  have hargs : ∀ a ∈ s.args, Argument.IsToken a.toList := fun a ha => (h.wellFormed.args a ha).1
  have hname : ∀ n ∈ s.names, IsName n := h.wellFormed.names
  have hmarks := h.unmarked
  -- a name goes unchanged through the spaces around it
  have hlead {n : String} (hn : IsName n) : trim (' ' :: n.toList) = n.toList := by
    rw [trim_cons_of_isBlank rfl, trim_name hn]
  have htail {n : String} (hn : IsName n) : trim (n.toList ++ [' ']) = n.toList := by
    rw [trim_concat_of_isBlank rfl, trim_name hn]
  have hspace {n : String} (hn : IsName n) : ' ' ∉ n.toList := hn.not_mem_of_isBlank rfl
  have hne {w v : String} (hw : w ≠ v) : w.toList ≠ v.toList := fun e => hw (String.toList_inj.mp e)
  rw [read_eq_some, head_pad_display h]
  cases s with
  | construct c =>
      simp only [Statement.names, List.forall_mem_cons] at hname
      obtain ⟨ht, hn, hk, -⟩ := hname
      obtain ⟨ht₁, ht₂, hn₂⟩ := hmarks
      have ho : ' ' :: (Statement.construct c).opening =
          ' ' :: (c.varType.toList ++ ' ' :: (['-'] ++ ' ' :: (c.varName.toList ++
            ' ' :: ([':', ':', '='] ++ ' ' :: (c.className.toList ++ [' ']))))) := by
        simp [Statement.opening, Statement.lead, Statement.callee]
      have hcut := cut_constructMark (hspace ht) (hspace hn) (hne ht₂) (hne hn₂)
        (c.className.toList ++ [' '])
      rw [← ho] at hcut
      refine .inl ⟨by rw [holds, hcut]; rfl, readConstruct_eq_ok.mpr ⟨_, _, _, _, _, c,
        by rw [pad_display]; exact cut_append hcut _, cut_typeMark (hspace ht) (hne ht₁) _,
        readCall_display hk hargs, readName_of_isName ht (hlead ht) _,
        readName_of_isName hn (trim_name hn) _, readName_of_isName hk (htail hk) _, rfl⟩⟩
  | invoke i =>
      simp only [Statement.names, List.forall_mem_cons] at hname
      obtain ⟨hr, hm, -⟩ := hname
      obtain ⟨hr₁, hr₂, hm₂⟩ := hmarks
      have ho : ' ' :: (Statement.invoke i).opening =
          ' ' :: (i.receiver.toList ++ ' ' :: (['-', '>'] ++ ' ' ::
            (i.methodName.toList ++ [' ']))) := by
        simp [Statement.opening, Statement.lead, Statement.callee]
      have hnone := cut_constructMark_eq_none (hspace hr) (hspace hm) (hne hr₂) (hne hm₂)
      have hcut := cut_invokeMark (hspace hr) (hne hr₁) (i.methodName.toList ++ [' '])
      rw [← ho] at hnone hcut
      refine .inr ⟨by rw [holds, hnone]; rfl, by rw [holds, hcut]; rfl,
        readInvoke_eq_ok.mpr ⟨_, _, _, i, by rw [pad_display]; exact cut_append hcut _,
          readCall_display hm hargs, readName_of_isName hr (hlead hr) _,
          readName_of_isName hm (htail hm) _, rfl⟩⟩

theorem trim_display {s : Statement} (h : s.Displayable) :
    trim s.display.toList = s.display.toList := by
  refine trim_eq_self ?_ ?_
  · obtain ⟨n, hn, rest, e⟩ : ∃ n ∈ s.names, n.toList <+: s.display.toList := by
      cases s with
      | construct c => exact ⟨c.varType, List.mem_cons_self, by simp [Statement.display]⟩
      | invoke i => exact ⟨i.receiver, List.mem_cons_self, by simp [Statement.display]⟩
    rw [← e]
    exact not_isBlank_of_head?_name (h.wellFormed.names n hn) rest
  · rw [Statement.toList_display, ← List.cons_append, ← List.append_assoc, List.getLast?_concat]
    simp [show isBlank ')' = false from rfl]

theorem display_ne_nil (s : Statement) : s.display.toList ≠ [] := by
  simp [Statement.toList_display]

end Line

namespace Script

/-- Lines that each say a statement are read as these statements, wherever they start. -/
theorem readRows_rows_eq_ok {s : Stripped} {f : Statement → List Char} {S : List Statement}
    (h : ∀ st ∈ S, trim (f st) ≠ [] ∧ Line.read (trim (f st)) = .ok (some st)) (p : Progress)
    (offset : Nat) :
    (readRows s p (rows offset (S.map f ++ [[]]))).1 = .ok (p.statements.toList ++ S) := by
  induction S generalizing p offset with
  | nil => rw [List.append_nil]; rfl
  | cons st S ih =>
      obtain ⟨⟨hne, hr⟩, hS⟩ := List.forall_mem_cons.mp h
      rw [List.map_cons, List.cons_append, rows, if_neg (fun he => hne (List.isEmpty_iff.mp he)),
        readRows, hr]
      simp only [ih hS, Progress.statements_accept, Array.toList_push, List.append_assoc,
        List.singleton_append]

end Script

/-- **The display form is a script.**  Statements that are well formed, whose names hold no comment
mark and none of which is a marker in a place where one is looked for, are what the script says that
displays them one a line, whatever their arguments hold. -/
theorem normalize_display {S : List Statement} (h : ∀ s ∈ S, s.Displayable) :
    (normalize (String.join (S.map fun s => s.display ++ "\n"))).value = .ok S := by
  have htext : (String.join (S.map fun s => s.display ++ "\n")).toList =
      (S.map fun s => s.display.toList).flatMap (· ++ ['\n']) := by
    simp [String.toList_join, List.flatMap_map]
  have hinert : Inert ((S.map fun s => s.display.toList).flatMap (· ++ ['\n'])) := by
    clear htext
    induction S with
    | nil => exact .nil
    | cons s S ih =>
        obtain ⟨hs, hS⟩ := List.forall_mem_cons.mp h
        exact (hs.inert_display.append (.char rfl (by decide))).append (ih hS)
  rw [← htext] at hinert
  have hlines : ∀ l ∈ S.map fun s => s.display.toList, '\n' ∉ l := by
    intro l hl
    obtain ⟨s, hs, rfl⟩ := List.mem_map.mp hl
    exact (h s hs).newline_not_mem_display
  rw [value_normalize, hinert.residue_strip, htext, splitOn_flatMap_newline hlines]
  refine Script.readRows_rows_eq_ok (fun s hs => ?_) _ 0
  rw [Line.trim_display (h s hs)]
  exact ⟨Line.display_ne_nil s, Line.read_display (h s hs)⟩

/-- Markers as names where they are harmless, comment marks and a marker in quotes, and a slash at
the end of a name. -/
theorem normalize_display_marks :
    let S : List Statement :=
      [.construct ⟨"->", "-", "::=", ["'// ) ::= '", "\"/*\\\"\""]⟩,
        .invoke ⟨"a/", "->", []⟩, .invoke ⟨"]", "é)", ["'\r'", "*b", "-.5e+3f"]⟩]
    (∀ s ∈ S, s.Displayable) ∧
      (normalize (String.join (S.map fun s => s.display ++ "\n"))).value = .ok S := by
  intro S
  have h : ∀ s ∈ S, s.Displayable := by decide +kernel
  exact ⟨h, normalize_display h⟩

end SceneScript
