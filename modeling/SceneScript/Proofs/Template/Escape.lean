import Mathlib.Data.List.Chain
import SceneScript.Proofs.Result
import SceneScript.Proofs.Text.Cut
import SceneScript.Proofs.Text.Line
import SceneScript.Template

/-!
# Proofs — Template — texts and segments

A list of segments is written as a template text by doubling the braces of its literals and putting
each field in braces, under any name it goes by (`Written`).  Such a text compiles, and filled in it
gives the literals and the values as they are; nothing in a value is looked at again.  The other way
round, what a text compiles to is fused (`Fused`), and writing it out and compiling it again changes
nothing (`Faithful`, and `faithful` for any lawful set of placeholders).

Both directions go through the marks of a text.  Segments and their marks determine the same text
(`scan_of_written`), fusing forgets nothing of the marks (`flatMap_marks_fuse`), and the expansion
depends on the marks alone (`flatMap_expandSegment`).
-/

namespace SceneScript

open Text

/-- A set of placeholders whose names are plain: a name has neither braces nor blanks in it.  Every
field goes by the name that is given for it. -/
class Placeholder.Lawful (φ : Type) {β : outParam Type} [Placeholder φ β] : Prop where
  named?_name (f : φ) : Placeholder.named? (Placeholder.name f) = some f
  plain {name : String} {f : φ} (h : Placeholder.named? name = some f) :
    '{' ∉ name.toList ∧ '}' ∉ name.toList ∧ ∀ c ∈ name.toList, isBlank c = false

theorem plain_of_all {s : List Char} (h : s.all fun c => c != '{' && c != '}' && !isBlank c) :
    '{' ∉ s ∧ '}' ∉ s ∧ ∀ c ∈ s, isBlank c = false := by
  rw [List.all_eq_true] at h
  refine ⟨fun hm => ?_, fun hm => ?_, fun c hm => ?_⟩
  · simpa using h _ hm
  · simpa using h _ hm
  · have hc := h c hm
    simp only [Bool.and_eq_true, Bool.not_eq_true'] at hc
    exact hc.2

instance : Placeholder.Lawful ConstructField where
  named?_name f := by cases f <;> rfl
  plain h := by
    simp only [Placeholder.named?] at h
    split at h
    on_goal 5 => cases h
    all_goals exact plain_of_all (by decide +kernel)

instance : Placeholder.Lawful InvokeField where
  named?_name f := by cases f <;> rfl
  plain h := by
    simp only [Placeholder.named?] at h
    split at h
    on_goal 5 => cases h
    all_goals exact plain_of_all (by decide +kernel)

namespace Template

variable {φ β : Type} [Placeholder φ β]

/-! ### Writing segments -/

/-- A text with every brace doubled. -/
def doubled (text : List Char) : List Char :=
  text.flatMap fun c => if c = '{' ∨ c = '}' then [c, c] else [c]

/-- The text is a way to write the segments: literals with their braces doubled, and fields in braces
under one of their names. -/
inductive Written : List (Segment φ) → List Char → Prop where
  | nil : Written [] []
  | literal {ss : List (Segment φ)} {s : List Char} (text : List Char) (h : Written ss s) :
      Written (.literal text :: ss) (doubled text ++ s)
  | field {ss : List (Segment φ)} {s : List Char} {f : φ} {name : String}
      (hn : Placeholder.named? name = some f) (h : Written ss s) :
      Written (.field f :: ss) ('{' :: (name.toList ++ '}' :: s))

/-- Two segments that are not both literals. -/
def Apart : Segment φ → Segment φ → Prop
  | .literal _, .literal _ => False
  | _,          _          => True

/-- No literal is empty, and no two of them stand side by side. -/
structure Fused (ss : List (Segment φ)) : Prop where
  nonempty : ∀ text, .literal text ∈ ss → text ≠ []
  apart    : ss.IsChain Apart

theorem exists_written [Placeholder.Lawful φ] (ss : List (Segment φ)) : ∃ s, Written ss s := by
  induction ss with
  | nil => exact ⟨[], .nil⟩
  | cons seg ss ih =>
      obtain ⟨s, hs⟩ := ih
      cases seg with
      | literal text => exact ⟨_, .literal text hs⟩
      | field f => exact ⟨_, .field (Placeholder.Lawful.named?_name f) hs⟩

/-! ### Scanning what was written -/

theorem scan_char {c : Char} (ho : c ≠ '{') (hc : c ≠ '}') (pos : Nat) (s : List Char) :
    scan (φ := φ) pos (c :: s) = (scan (pos + c.utf8Size) s).map (.char c :: ·) := by
  rw [scan] <;> simp [ho, hc]

/-- What stands between a `{` and the next `}` is looked up as a name, blanks around it aside. -/
theorem scan_placeholder {w : List Char} (ho : w.head? ≠ some '{') (hc : '}' ∉ w) (pos : Nat)
    (s : List Char) :
    scan (φ := φ) pos ('{' :: (w ++ '}' :: s)) =
      match Placeholder.named? (String.ofList (trim w)) with
      | none   => .error (.unknownPlaceholder (String.ofList (trim w)) pos)
      | some f => (scan (pos + byteLength w + 2) s).map (.field f :: ·) := by
  have hd : (w ++ '}' :: s).dropWhile staysInside = '}' :: s := dropWhile_ne_append hc s
  have ht : (w ++ '}' :: s).takeWhile staysInside = w := takeWhile_ne_append hc s
  have hw : ∀ cs, w ++ '}' :: s = '{' :: cs → False := by
    cases w with
    | nil => simp
    | cons c w =>
        intro cs e
        cases e
        exact ho rfl
  rw [scan]
  · split
    · next h => rw [hd] at h; cases h
    · next c rest h =>
        rw [hd] at h
        cases h
        cases hn : Placeholder.named? (φ := φ) (String.ofList (trim w)) <;> simp only [ht, hn]
  · exact hw

/-- The marks of a segment. -/
def marks : Segment φ → List (Mark φ)
  | .literal text => text.map .char
  | .field f      => [.field f]

theorem scan_doubled {s : List Char} {ms : List (Mark φ)} (h : ∀ pos, scan pos s = .ok ms)
    (text : List Char) (pos : Nat) :
    scan pos (doubled text ++ s) = .ok (text.map .char ++ ms) := by
  induction text generalizing pos with
  | nil => exact h pos
  | cons c text ih =>
      have hd : doubled (c :: text) = (if c = '{' ∨ c = '}' then [c, c] else [c]) ++ doubled text :=
        List.flatMap_cons
      rw [hd, List.append_assoc, List.map_cons, List.cons_append]
      split
      · next hb =>
          rcases hb with rfl | rfl
          · rw [List.cons_append, List.singleton_append, scan, ih]
            rfl
          · rw [List.cons_append, List.singleton_append, scan, ih]
            rfl
      · next hb =>
          obtain ⟨ho, hc⟩ := not_or.mp hb
          rw [List.singleton_append, scan_char ho hc, ih]
          rfl

/-- **What was written is scanned into the marks of the segments**, wherever it stands. -/
theorem scan_of_written [Placeholder.Lawful φ] {ss : List (Segment φ)} {s : List Char}
    (h : Written ss s) (pos : Nat) : scan pos s = .ok (ss.flatMap marks) := by
  induction h generalizing pos with
  | nil => rw [scan]; rfl
  | literal text _ ih => rw [scan_doubled ih, List.flatMap_cons]; rfl
  | @field ss s f name hn _ ih =>
      obtain ⟨ho, hc, hb⟩ := Placeholder.Lawful.plain hn
      have ht : trim name.toList = name.toList :=
        trim_eq_self (fun c hm => hb c (List.mem_of_mem_head? hm))
          fun c hm => hb c (List.mem_of_mem_getLast? hm)
      have hf : Placeholder.named? (String.ofList (trim name.toList)) = some f := by
        rw [ht, String.ofList_toList, hn]
      rw [scan_placeholder (fun h => ho (List.mem_of_mem_head? h)) hc, hf]
      simp only [ih, List.flatMap_cons]
      rfl

/-! ### Fusing -/

/-- **Fusing forgets nothing** of the marks. -/
theorem flatMap_marks_fuse (ms : List (Mark φ)) : (fuse ms).flatMap marks = ms := by
  induction ms with
  | nil => rfl
  | cons m ms ih =>
      cases m with
      | field f => rw [fuse, List.flatMap_cons, ih]; rfl
      | char c =>
          rw [fuse]
          split
          · next text ss h =>
              rw [h, List.flatMap_cons] at ih
              rw [List.flatMap_cons, ← ih]
              rfl
          · rw [List.flatMap_cons, ih]
            rfl

theorem fused_fuse (ms : List (Mark φ)) : Fused (fuse ms) := by
  induction ms with
  | nil => exact ⟨nofun, .nil⟩
  | cons m ms ih =>
      obtain ⟨hne, ha⟩ := ih
      cases m with
      | field f =>
          refine ⟨fun text hm => ?_, ?_⟩
          · rw [fuse] at hm
            exact hne text (by simpa using hm)
          · rw [fuse]
            exact List.isChain_cons.mpr ⟨fun seg _ => trivial, ha⟩
      | char c =>
          rw [fuse]
          split
          · next text ss h =>
              rw [h] at hne ha
              refine ⟨fun t hm => ?_, ?_⟩
              · rcases List.mem_cons.mp hm with e | hm
                · cases e
                  exact nofun
                · exact hne t (List.mem_cons_of_mem _ hm)
              · obtain ⟨hs, ha⟩ := List.isChain_cons.mp ha
                refine List.isChain_cons.mpr ⟨fun seg hm => ?_, ha⟩
                cases seg with
                | field f => trivial
                | literal t => exact hs _ hm
          · next hn =>
              refine ⟨fun t hm => ?_, List.isChain_cons.mpr ⟨fun seg hm => ?_, ha⟩⟩
              · rcases List.mem_cons.mp hm with e | hm
                · cases e
                  exact nofun
                · exact hne t hm
              · cases seg with
                | field f => trivial
                | literal text =>
                    obtain ⟨ss, hs⟩ := List.head?_eq_some_iff.mp hm
                    exact absurd hs (hn text ss)

/-! ### Filling in -/

/-- What a mark stands for. -/
def expandMark (b : β) : Mark φ → List Char
  | .char c  => [c]
  | .field f => (Placeholder.value f b).toList

/-- **The expansion depends on the marks alone.** -/
theorem flatMap_expandSegment (b : β) (ss : List (Segment φ)) :
    ss.flatMap (expandSegment b) = (ss.flatMap marks).flatMap (expandMark b) := by
  rw [List.flatMap_assoc]
  refine List.flatMap_congr fun seg _ => ?_
  cases seg with
  | literal text =>
      rw [marks, List.flatMap_map]
      exact (List.flatMap_singleton' text).symm
  | field f => exact (List.append_nil _).symm

/-! ### Texts and segments -/

/-- **Texts and segments of a set of placeholders agree**, where `fill` says what a segment gives. -/
structure Faithful (φ : Type) {β : Type} [Placeholder φ β] (fill : β → Segment φ → String) :
    Prop where
  /-- Segments can be written, whatever they are. -/
  written : ∀ ss : List (Segment φ), ∃ s, Written ss s
  /-- What was written compiles, and gives all that the segments give. -/
  expand : ∀ (ss : List (Segment φ)) (s : List Char), Written ss s →
    ∃ t : Template φ, compile (String.ofList s) = .ok t ∧
      ∀ b, t.expand b = String.join (ss.map (fill b))
  /-- What a text compiles to is fused. -/
  fused : ∀ (source : String) (t : Template φ), compile source = .ok t → Fused t.segments
  /-- Writing it out again compiles to the same. -/
  again : ∀ (source : String) (t : Template φ) (s : List Char), compile source = .ok t →
    Written t.segments s → compile (String.ofList s) = .ok t

theorem compile_of_written [Placeholder.Lawful φ] {ss : List (Segment φ)} {s : List Char}
    (h : Written ss s) :
    compile (String.ofList s) = .ok (⟨fuse (ss.flatMap marks)⟩ : Template φ) := by
  rw [compile, String.toList_ofList, scan_of_written h]
  rfl

theorem faithful [Placeholder.Lawful φ] {fill : β → Segment φ → String}
    (hfill : ∀ b (seg : Segment φ), (fill b seg).toList = expandSegment b seg) :
    Faithful φ fill where
  written := exists_written
  expand ss s h := by
    refine ⟨_, compile_of_written h, fun b => ?_⟩
    -- the segments and what they compile to have the same marks
    have he : (fuse (ss.flatMap marks)).flatMap (expandSegment b) = ss.flatMap (expandSegment b) := by
      rw [flatMap_expandSegment, flatMap_marks_fuse, ← flatMap_expandSegment]
    rw [Template.expand, he, ← String.toList_inj, String.toList_ofList, String.toList_join,
      List.flatMap_map]
    exact List.flatMap_congr fun seg _ => (hfill b seg).symm
  fused source t h := by
    obtain ⟨ms, -, rfl⟩ := map_eq_ok.mp h
    exact fused_fuse ms
  again source t s h hs := by
    obtain ⟨ms, -, rfl⟩ := map_eq_ok.mp h
    rw [compile_of_written hs, flatMap_marks_fuse]

end Template

/-- What a segment gives for a construction. -/
def Construct.fill (c : Construct) : Segment ConstructField → String
  | .literal text     => String.ofList text
  | .field .varType   => c.varType
  | .field .varName   => c.varName
  | .field .className => c.className
  | .field .args      => ", ".intercalate c.args

/-- What a segment gives for a call. -/
def Invoke.fill (i : Invoke) : Segment InvokeField → String
  | .literal text      => String.ofList text
  | .field .receiver   => i.receiver
  | .field .methodName => i.methodName
  | .field .args       => ", ".intercalate i.args

/-- **Templates of both kinds** are written, compiled and filled in faithfully: values are taken as
they are, and arguments are joined by a comma and a space. -/
theorem templates_faithful :
    Template.Faithful ConstructField Construct.fill ∧ Template.Faithful InvokeField Invoke.fill := by
  refine ⟨Template.faithful fun c seg => ?_, Template.faithful fun i seg => ?_⟩
  · rcases seg with text | _ | _ | _ | _
    · exact String.toList_ofList
    all_goals rfl
  · rcases seg with text | _ | _ | _
    · exact String.toList_ofList
    all_goals rfl

/-- Braces against a field, and a receiver that looks like one. -/
theorem templates_faithful_braces :
    let call : Invoke := ⟨"\x7bargs\x7d", "go", ["1", "a, b"]⟩
    let segments : List (Segment InvokeField) :=
      [.literal ['{'], .field .receiver, .literal [], .literal ['}'], .field .args]
    ∃ t : Template InvokeField,
      Template.compile "\x7b\x7b\x7bvar_name\x7d\x7d\x7d\x7bargs\x7d" = .ok t ∧
      t.expand call = "\x7b\x7bargs\x7d\x7d1, a, b" ∧
      String.join (segments.map call.fill) = "\x7b\x7bargs\x7d\x7d1, a, b" ∧
      Template.Fused t.segments := by
  intro call segments
  have hr : Placeholder.named? "var_name" = some InvokeField.receiver := rfl
  have ha : Placeholder.named? "args" = some InvokeField.args := rfl
  have hw : Template.Written segments "\x7b\x7b\x7bvar_name\x7d\x7d\x7d\x7bargs\x7d".toList :=
    .literal _ (.field hr (.literal _ (.literal _ (.field ha .nil))))
  obtain ⟨t, ht, he⟩ := templates_faithful.2.expand segments _ hw
  have hj : String.join (segments.map call.fill) = "\x7b\x7bargs\x7d\x7d1, a, b" := by decide +kernel
  rw [String.ofList_toList] at ht
  exact ⟨t, ht, (he call).trans hj, hj, templates_faithful.2.fused _ t ht⟩

end SceneScript
