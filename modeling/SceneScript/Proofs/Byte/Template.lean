import SceneScript.Proofs.Byte.Search
import SceneScript.Proofs.Template.Seam

/-!
# Proofs — Byte — templates

The scan of a template, which goes over its characters with their byte offsets, and slices its bytes
for the names of placeholders.  A brace is one byte, so the slice behind a `{` starts at the next
character and the name ends in front of a `}` (`value_placeholderAt`); and the characters up to
that `}` are those that the scan skips (`dropWhile_charIndices`).  The segments that it comes to
are those of the template (`value_compileFrom`).
-/

namespace SceneScript.Byte

open Text Template

variable {φ β : Type} [Placeholder φ β]

/-- A part of a template, with its text in bytes. -/
inductive Part (φ : Type) where
  | literal (text : List UInt8)
  | field (f : φ)

/-- A segment, with its text in bytes. -/
def Part.ofSegment : Segment φ → Part φ
  | .literal text => .literal (bytes text)
  | .field f      => .field f

/-- The characters of a text that starts at offset `pos`, each with its offset. -/
def charIndices (pos : Nat) : List Char → List (Nat × Char)
  | []      => []
  | c :: cs => (pos, c) :: charIndices (pos + c.utf8Size) cs

/-- The literal that has been gathered, unless it is empty. -/
def flush (literal : List UInt8) : List (Part φ) :=
  if literal.isEmpty then [] else [.literal literal]

/-- The field that is named behind the `{` at offset `pos`, and the offset of the `}`. -/
def placeholderAt (source : List UInt8) (pos : Nat) : Sliced (Except TemplateError (φ × Nat)) := do
  let rest ← slice source (pos + 1) source.length
  match position ['}'] rest 0 with
  | none       => pure (.error (.unclosed pos))
  | some close =>
    let inner ← slice rest 0 close
    let name := String.ofList (trim (decode inner))
    match Placeholder.named? name with
    | none   => pure (.error (.unknownPlaceholder name pos))
    | some f => pure (.ok (f, pos + 1 + close))

/-- The parts of a template, from the characters that are left on; `parts` and `literal` have been
gathered before. -/
def compileFrom (source : List UInt8) (parts : List (Part φ)) (literal : List UInt8) :
    List (Nat × Char) → Sliced (Except TemplateError (List (Part φ)))
  | [] => pure (.ok (parts ++ flush literal))
  | (_, '{') :: (_, '{') :: cs => compileFrom source parts (literal ++ bytes ['{']) cs
  | (_, '}') :: (_, '}') :: cs => compileFrom source parts (literal ++ bytes ['}']) cs
  | (pos, '}') :: _ => pure (.error (.strayClose pos))
  | (pos, '{') :: cs => do
    match ← placeholderAt (φ := φ) source pos with
    | .error e      => pure (.error e)
    | .ok (f, stop) =>
      compileFrom source (parts ++ flush literal ++ [.field f]) [] (cs.dropWhile (·.1 ≤ stop))
  | (_, c) :: cs => compileFrom source parts (literal ++ bytes [c]) cs
termination_by cs => cs.length
decreasing_by
  · simp only [List.length_cons]; omega
  · simp only [List.length_cons]; omega
  · exact Nat.lt_succ_of_le (List.dropWhile_sublist _).length_le
  · simp

/-- Compiles a template from its bytes. -/
def compile (source : List UInt8) : Sliced (Except TemplateError (List (Part φ))) :=
  compileFrom source [] [] (charIndices 0 (decode source))

/-- What comes of a template, with its texts in bytes. -/
def encodeTemplate : Except TemplateError (Template φ) → Except TemplateError (List (Part φ)) :=
  Except.map fun t => t.segments.map .ofSegment

/-! ### One placeholder -/

/-- **A placeholder** is named by the characters between its braces. -/
theorem value_placeholderAt (u cs : List Char) :
    (placeholderAt (φ := φ) (bytes (u ++ '{' :: cs)) (byteLength u)).value =
      some (match cs.dropWhile staysInside with
        | []     => .error (.unclosed (byteLength u))
        | _ :: _ =>
          let name := String.ofList (trim (cs.takeWhile staysInside))
          match Placeholder.named? name with
          | none   => .error (.unknownPlaceholder name (byteLength u))
          | some f => .ok (f, byteLength u + 1 + byteLength (cs.takeWhile staysInside))) := by
  have hbrace : ∀ a ∈ ['}'], a.toNat < 0x80 := by simp
  have hrest := value_slice_rest (u ++ ['{']) cs
  rw [List.append_assoc, List.singleton_append, byteLength_append,
    show byteLength ['{'] = 1 from rfl] at hrest
  rw [placeholderAt, Sliced.value_bind, hrest, Option.bind_some]
  cases hd : cs.dropWhile staysInside with
  | nil =>
      have hw : ∀ c ∈ cs, c ∉ ['}'] := fun c hc => by
        simpa [staysInside] using List.dropWhile_eq_nil_iff.mp hd c hc
      have hpos : position ['}'] (bytes cs) 0 = none := position_of_not_mem hbrace hw []
      simp only [hpos]
      rfl
  | cons d rest =>
      obtain ⟨e, hc⟩ := eq_append_of_dropWhile hd
      generalize cs.takeWhile staysInside = w at e hc ⊢
      subst e
      have hw : ∀ c ∈ w, c ∉ ['}'] := by
        rintro c hm hc'
        rw [List.mem_singleton.mp hc'] at hm
        exact hc hm
      have hpos : position ['}'] (bytes (w ++ '}' :: rest)) 0 = some (byteLength w) :=
        position_of_mem hbrace hw List.mem_cons_self [] rest
      have hname : (slice (bytes (w ++ '}' :: rest)) 0 (byteLength w)).value = some (bytes w) :=
        value_slice [] w ('}' :: rest)
      simp only [hpos, Sliced.value_bind, hname, Option.bind_some, decode_bytes]
      cases Placeholder.named? (φ := φ) (String.ofList (trim w)) <;> rfl

theorem dropWhile_charIndices_of_lt {n pos : Nat} (h : n < pos) (s : List Char) :
    (charIndices pos s).dropWhile (·.1 ≤ n) = charIndices pos s := by
  cases s with
  | nil => rfl
  | cons c s => rw [charIndices, List.dropWhile_cons_of_neg (by simpa using h)]

/-- **The characters up to an offset** are those of the text up to there. -/
theorem dropWhile_charIndices (pos : Nat) (w : List Char) (d : Char) (rest : List Char) :
    (charIndices pos (w ++ d :: rest)).dropWhile (·.1 ≤ pos + byteLength w) =
      charIndices (pos + byteLength w + d.utf8Size) rest := by
  induction w generalizing pos with
  | nil =>
      have hlt : pos < pos + d.utf8Size := Nat.lt_add_of_pos_right d.utf8Size_pos
      rw [List.nil_append, charIndices, List.dropWhile_cons_of_pos (by simp)]
      exact dropWhile_charIndices_of_lt hlt rest
  | cons c w ih =>
      have h := ih (pos + c.utf8Size)
      rw [Nat.add_assoc pos] at h
      rw [List.cons_append, charIndices, byteLength_cons, List.dropWhile_cons_of_pos (by simp), h]

/-! ### Gathering parts -/

/-- The parts that have been gathered, with the marks that are left: `l` is the text that has not
become a part yet. -/
def gathered (parts : List (Part φ)) (l : List Char) (ms : List (Mark φ)) : List (Part φ) :=
  parts ++ (fuse (l.map .char ++ ms)).map .ofSegment

section Gathered

variable (parts : List (Part φ)) (l : List Char)

/-- What is gathered becomes a literal when no character follows. -/
theorem gathered_flush {ms : List (Mark φ)} (h : ∀ text ss, fuse ms ≠ .literal text :: ss) :
    gathered parts l ms = parts ++ flush (bytes l) ++ (fuse ms).map .ofSegment := by
  have hfuse : fuse (l.map .char ++ ms) = (if l.isEmpty then [] else [.literal l]) ++ fuse ms := by
    induction l with
    | nil => rfl
    | cons c l ih =>
        rw [List.map_cons, List.cons_append, fuse, ih]
        cases l with
        | nil =>
            split
            · next text ss e => exact absurd e (h text ss)
            · rfl
        | cons d l => rfl
  rw [gathered, hfuse, List.map_append, List.append_assoc]
  cases l with
  | nil => rfl
  | cons c l => simp [flush, Part.ofSegment]

theorem gathered_nil : gathered parts l [] = parts ++ flush (bytes l) := by
  rw [gathered_flush parts l (by simp [fuse])]
  exact List.append_nil _

theorem gathered_field (f : φ) (ms : List (Mark φ)) :
    gathered parts l (.field f :: ms) =
      gathered (parts ++ flush (bytes l) ++ [.field f]) [] ms := by
  rw [gathered_flush parts l (by simp [fuse]), gathered, fuse]
  simp [Part.ofSegment]

theorem gathered_char (c : Char) (ms : List (Mark φ)) :
    gathered parts l (.char c :: ms) = gathered parts (l ++ [c]) ms := by
  simp [gathered]

end Gathered

/-! ### All parts -/

theorem map_gathered (x : Except TemplateError (List (Mark φ))) {m : Mark φ}
    {parts parts' : List (Part φ)} {l l' : List Char}
    (h : ∀ ms, gathered parts l (m :: ms) = gathered parts' l' ms) :
    (x.map (m :: ·)).map (gathered parts l) = x.map (gathered parts' l') := by
  cases x <;> simp [Except.map, h]

theorem eq_cons_of_charIndices {pos p : Nat} {c : Char} {s : List Char} {rest : List (Nat × Char)}
    (h : charIndices pos s = (p, c) :: rest) : ∃ s', s = c :: s' := by
  cases s with
  | nil => cases h
  | cons d s => cases h; exact ⟨s, rfl⟩

/-- At a `{` of its own the scan goes on behind the placeholder. -/
theorem compileFrom_open (source literal : List UInt8) (parts : List (Part φ)) (pos : Nat)
    {cs : List Char} (h : ∀ cs', cs = '{' :: cs' → False) :
    compileFrom source parts literal (charIndices pos ('{' :: cs)) =
      placeholderAt (φ := φ) source pos >>= fun
        | .error e      => pure (.error e)
        | .ok (f, stop) =>
          compileFrom source (parts ++ flush literal ++ [.field f]) []
            ((charIndices (pos + 1) cs).dropWhile (·.1 ≤ stop)) := by
  rw [charIndices, compileFrom]
  · rfl
  · intro p cs' e
    obtain ⟨s, rfl⟩ := eq_cons_of_charIndices e
    exact h s rfl

theorem value_compileFrom (u v l : List Char) (parts : List (Part φ)) :
    (compileFrom (bytes (u ++ v)) parts (bytes l) (charIndices (byteLength u) v)).value =
      some ((scan (byteLength u) v).map (gathered parts l)) := by
  generalize hpos : byteLength u = pos
  fun_induction scan (φ := φ) pos v generalizing u l parts with
  | case1 pos =>
      rw [charIndices, compileFrom, Except.map, gathered_nil]
      rfl
  | case2 pos cs ih =>
      have h := ih (u ++ ['{', '{']) (l ++ ['{']) parts (by rw [byteLength_append, hpos]; rfl)
      rw [List.append_assoc, bytes_append l] at h
      rw [charIndices, charIndices, compileFrom, map_gathered _ (gathered_char parts l '{')]
      exact h
  | case3 pos cs ih =>
      have h := ih (u ++ ['}', '}']) (l ++ ['}']) parts (by rw [byteLength_append, hpos]; rfl)
      rw [List.append_assoc, bytes_append l] at h
      rw [charIndices, charIndices, compileFrom, map_gathered _ (gathered_char parts l '}')]
      exact h
  | case4 pos cs h =>
      rw [charIndices, compileFrom]
      · rfl
      · intro p cs' e
        obtain ⟨s, rfl⟩ := eq_cons_of_charIndices e
        exact h s rfl
  | case5 pos cs h hd =>
      subst hpos
      rw [compileFrom_open _ _ _ _ h, Sliced.value_bind, value_placeholderAt, hd]
      rfl
  | case6 pos cs h d rest hd name hn =>
      subst hpos
      rw [compileFrom_open _ _ _ _ h, Sliced.value_bind, value_placeholderAt, hd]
      simp only [Option.bind_some]
      rw [hn]
      rfl
  | case7 pos cs h d rest hd name f hf ih =>
      subst hpos
      obtain ⟨e, -⟩ := eq_append_of_dropWhile hd
      have hone : '{'.utf8Size = 1 ∧ '}'.utf8Size = 1 := by decide
      -- the scan skips to the character behind the `}`
      have hskip := dropWhile_charIndices (byteLength u + 1) (cs.takeWhile staysInside) '}' rest
      rw [← e, show byteLength u + 1 + byteLength (cs.takeWhile staysInside) + '}'.utf8Size =
        byteLength u + byteLength (cs.takeWhile staysInside) + 2 by omega] at hskip
      have hnext := ih (u ++ '{' :: (cs.takeWhile staysInside ++ ['}'])) []
        (parts ++ flush (bytes l) ++ [.field f]) (by simp [hone]; omega)
      rw [List.append_assoc, List.cons_append, List.append_assoc, List.singleton_append,
        ← e] at hnext
      rw [compileFrom_open _ _ _ _ h, Sliced.value_bind, value_placeholderAt, hd]
      simp only [Option.bind_some]
      rw [hf, map_gathered _ (gathered_field parts l f)]
      simp only [hskip]
      exact hnext
  | case8 pos c cs h₁ h₂ hc ho ih =>
      have h := ih (u ++ [c]) (l ++ [c]) parts (by rw [byteLength_append, hpos]; rfl)
      rw [List.append_assoc, bytes_append l] at h
      rw [charIndices, compileFrom, map_gathered _ (gathered_char parts l c)]
      · exact h
      · exact fun _ _ _ => ho
      · exact fun _ _ _ => hc
      · exact hc
      · exact ho

/-- **A template** is compiled from its bytes as it is from its characters. -/
theorem value_compile (source : String) :
    (compile (φ := φ) (bytes source.toList)).value =
      some (encodeTemplate (Template.compile source)) := by
  rw [compile, decode_bytes]
  refine (value_compileFrom [] source.toList [] []).trans (congrArg some ?_)
  rw [encodeTemplate, Template.compile, byteLength_nil]
  cases scan (φ := φ) 0 source.toList <;> simp [Except.map, gathered]

end SceneScript.Byte
