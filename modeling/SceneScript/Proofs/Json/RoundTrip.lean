import Mathlib.Data.List.TakeWhile
import SceneScript.Json.Reader

/-!
# Proofs — Json — values come back from their text

What `Json.pretty` writes, `Json.read` reads back (`read_pretty`).

A character of a string is written as itself or as an escape, and either way it is read back
whatever follows (`readString_escape`).  The inside of an array or object is a sequence of parts on
lines of their own; if each part is read back whatever follows it (`ReadsBack`), so is the sequence
(`readInside_parts`), and its length is less than the fuel that the reader starts with.  So a value
is read back if the values inside it are, one level down: the induction is on the depth that the
reader allows, which every value must fit (`Fits`).  Numbers are left out, since no value that this
library writes has one.
-/

namespace SceneScript.Json

/-! ### Strings -/

theorem hexValue?_hexDigit : ∀ n < 16, hexValue? (hexDigit n) = some n := by decide

/-- The code of a control character. -/
theorem readUnicode_hexDigits {c : Char} (hc : c.toNat < 0x20) (rest : List Char) :
    readUnicode ('0' :: '0' :: hexDigit (c.toNat / 16) :: hexDigit (c.toNat % 16) :: rest) =
      some (c, rest) := by
  have hunit : hexUnit? ('0' :: '0' :: hexDigit (c.toNat / 16) :: hexDigit (c.toNat % 16) :: rest) =
      some (c.toNat, rest) := by
    have h₀ : hexValue? '0' = some 0 := rfl
    have h₁ := hexValue?_hexDigit (c.toNat / 16) (by omega)
    have h₂ := hexValue?_hexDigit (c.toNat % 16) (by omega)
    have hsum : ((0 * 16 + 0) * 16 + c.toNat / 16) * 16 + c.toNat % 16 = c.toNat := by omega
    simp only [hexUnit?, h₀, h₁, h₂, hsum]
  rw [readUnicode, hunit]
  have h₁ : ¬ 0xD800 ≤ c.toNat := by omega
  have h₂ : ¬ 0xDC00 ≤ c.toNat := by omega
  simp [h₁, h₂]

/-- A character is escaped, and its escape is read back; or it stands for itself. -/
theorem escape_cases (c : Char) :
    (∃ e, escape c = '\\' :: e ∧ ∀ rest, readEscape (e ++ rest) = some (c, rest)) ∨
      (escape c = [c] ∧ c ≠ '"' ∧ c ≠ '\\' ∧ ¬ c.toNat < 0x20) := by
  by_cases hquote : c = '"'
  · subst hquote; exact .inl ⟨['"'], rfl, fun _ => rfl⟩
  by_cases hslash : c = '\\'
  · subst hslash; exact .inl ⟨['\\'], rfl, fun _ => rfl⟩
  by_cases hb : c = '\x08'
  · subst hb; exact .inl ⟨['b'], rfl, fun _ => rfl⟩
  by_cases hf : c = '\x0c'
  · subst hf; exact .inl ⟨['f'], rfl, fun _ => rfl⟩
  by_cases hn : c = '\n'
  · subst hn; exact .inl ⟨['n'], rfl, fun _ => rfl⟩
  by_cases hr : c = '\r'
  · subst hr; exact .inl ⟨['r'], rfl, fun _ => rfl⟩
  by_cases ht : c = '\t'
  · subst ht; exact .inl ⟨['t'], rfl, fun _ => rfl⟩
  rw [escape, if_neg hquote, if_neg hslash, if_neg hb, if_neg hf, if_neg hn, if_neg hr, if_neg ht]
  by_cases hcontrol : c.toNat < 0x20
  · rw [if_pos hcontrol]
    exact .inl ⟨_, rfl, fun rest => readUnicode_hexDigits hcontrol rest⟩
  · rw [if_neg hcontrol]
    exact .inr ⟨rfl, hquote, hslash, hcontrol⟩

theorem readString_escape (c : Char) (s : List Char) :
    readString (escape c ++ s) = (readString s).map fun r => (c :: r.1, r.2) := by
  rcases escape_cases c with ⟨e, he, hread⟩ | ⟨he, hquote, hslash, hcontrol⟩
  · rw [he, List.cons_append, readString]
    split
    · next c' rest h =>
        rw [hread s] at h
        cases h
        rfl
    · next h =>
        rw [hread s] at h
        cases h
  · rw [he, List.singleton_append, readString, if_neg hcontrol]
    · exact hquote
    · exact hslash

/-- **A string is read back up to its closing quote.** -/
theorem readString_flatMap_escape (s rest : List Char) :
    readString (s.flatMap escape ++ '"' :: rest) = some (s, rest) := by
  induction s with
  | nil => rw [List.flatMap_nil, List.nil_append, readString]
  | cons c s ih => rw [List.flatMap_cons, List.append_assoc, readString_escape, ih]; rfl

/-! ### Parts of an array or object -/

theorem skip_cons {c : Char} (hc : isSpace c = false) (s : List Char) : skip (c :: s) = c :: s :=
  List.dropWhile_cons_of_neg (by simp [hc])

theorem skip_newline (level : Nat) (s : List Char) : skip (newline level ++ s) = skip s := by
  refine List.dropWhile_append_of_pos fun c hc => ?_
  rcases List.mem_cons.mp hc with rfl | hc
  · rfl
  · rw [List.eq_of_mem_replicate hc]
    rfl

section Parts

variable {α : Type} {item : List Char → Option (α × List Char)} {write : α → List Char}
  {close : Char}

/-- What is written for `x` is read back whatever follows; it starts with a character that neither
is a space nor ends the sequence. -/
structure ReadsBack (item : List Char → Option (α × List Char)) (write : α → List Char)
    (close : Char) (x : α) : Prop where
  starts : ∃ c s, write x = c :: s ∧ isSpace c = false ∧ c ≠ close
  reads  : ∀ rest, item (write x ++ rest) = some (x, rest)

theorem ReadsBack.skip_write {x : α} (h : ReadsBack item write close x) (s : List Char) :
    skip (write x ++ s) = write x ++ s := by
  obtain ⟨c, t, e, hc, -⟩ := h.starts
  rw [e, List.cons_append, skip_cons hc]

/-- The parts after the first, each after a comma and on a line of its own. -/
def followers (level : Nat) (write : α → List Char) (xs : List α) : List Char :=
  xs.flatMap fun x => ',' :: (newline level ++ write x)

theorem length_le_followers (level : Nat) (write : α → List Char) (xs : List α) :
    xs.length ≤ (followers level write xs).length := by
  induction xs with
  | nil => exact Nat.le_refl 0
  | cons x xs ih =>
      simp only [followers, List.flatMap_cons, List.cons_append, List.length_cons,
        List.length_append] at ih ⊢
      omega

/-- **A sequence is read back part by part**, if the reader may go on for as many rounds as there
are parts. -/
theorem readSequence_followers (hspace : isSpace close = false) (hcomma : close ≠ ',')
    {x : α} {xs : List α} (hparts : ∀ y ∈ x :: xs, ReadsBack item write close y) {fuel : Nat}
    (hfuel : xs.length < fuel) (inner outer : Nat) (rest : List Char) :
    readSequence item close fuel
        (write x ++ (followers inner write xs ++ (newline outer ++ close :: rest))) =
      some (x :: xs, rest) := by
  induction xs generalizing x fuel with
  | nil =>
      obtain ⟨fuel, rfl⟩ : ∃ n, fuel = n + 1 := Nat.exists_eq_succ_of_ne_zero (by omega)
      have hend : skip (followers inner write [] ++ (newline outer ++ close :: rest)) =
          close :: rest := by
        rw [followers, List.flatMap_nil, List.nil_append, skip_newline, skip_cons hspace]
      rw [readSequence, (hparts x List.mem_cons_self).reads]
      simp [hend]
  | cons y xs ih =>
      obtain ⟨fuel, rfl⟩ : ∃ n, fuel = n + 1 := Nat.exists_eq_succ_of_ne_zero (by omega)
      obtain ⟨hx, hparts⟩ := List.forall_mem_cons.mp hparts
      have hnext : skip (followers inner write (y :: xs) ++ (newline outer ++ close :: rest)) =
          ',' :: (newline inner ++ (write y ++
            (followers inner write xs ++ (newline outer ++ close :: rest)))) := by
        simp only [followers, List.flatMap_cons, List.cons_append, List.append_assoc]
        exact skip_cons rfl _
      have hy : skip (newline inner ++ (write y ++
          (followers inner write xs ++ (newline outer ++ close :: rest)))) =
          write y ++ (followers inner write xs ++ (newline outer ++ close :: rest)) := by
        rw [skip_newline, (hparts y List.mem_cons_self).skip_write]
      rw [readSequence, hx.reads]
      simp only [hnext, hy]
      rw [ih hparts (by simpa using hfuel)]
      rfl

/-- **The inside of an array or object is read back.** -/
theorem readInside_parts (hspace : isSpace close = false) (hcomma : close ≠ ',')
    {x : α} {xs : List α} (hparts : ∀ y ∈ x :: xs, ReadsBack item write close y)
    (inner outer : Nat) (rest : List Char) :
    readInside item close (newline inner ++
        (write x ++ (followers inner write xs ++ (newline outer ++ close :: rest)))) =
      some (x :: xs, rest) := by
  have hx := hparts x List.mem_cons_self
  obtain ⟨c, s, e, -, hc⟩ := hx.starts
  have hfuel : xs.length < (newline inner ++
      (write x ++ (followers inner write xs ++ (newline outer ++ close :: rest)))).length := by
    have h := length_le_followers inner write xs
    simp only [newline, List.cons_append, List.length_cons, List.length_append]
    omega
  have hread := readSequence_followers hspace hcomma hparts hfuel inner outer rest
  rw [readInside, skip_newline, hx.skip_write]
  rw [e, List.cons_append] at hread ⊢
  simp only [hc, if_false]
  exact hread

end Parts

/-! ### Values -/

/-- The value has no numbers in it, and its arrays and objects go at most `depth` levels deep. -/
def Fits : (depth : Nat) → Json → Prop
  | _,         .null | _, .bool _ | _, .string _ => True
  | _,         .number _      => False
  | 0,         .array _ | 0, .object _ => False
  | depth + 1, .array items   => ∀ v ∈ items, Fits depth v
  | depth + 1, .object fields => ∀ f ∈ fields, Fits depth f.2

/-- A field of an object, on a line of its own. -/
def prettyField (level : Nat) (f : String × Json) : List Char :=
  quote f.1 ++ [':', ' '] ++ pretty level f.2

theorem prettyItems_eq (level : Nat) (vs : List Json) :
    prettyItems level vs = followers level (pretty level) vs := by
  induction vs with
  | nil => rw [prettyItems]; rfl
  | cons v vs ih => rw [prettyItems, ih]; simp [followers]

theorem prettyFields_eq (level : Nat) (fs : List (String × Json)) :
    prettyFields level fs = followers level (prettyField level) fs := by
  induction fs with
  | nil => rw [prettyFields]; rfl
  | cons f fs ih => rw [prettyFields, ih]; simp [followers, prettyField]

theorem exists_pretty_eq_cons {depth : Nat} {v : Json} (h : Fits depth v) (level : Nat) :
    ∃ c s, pretty level v = c :: s ∧ isSpace c = false ∧ c ≠ ']' := by
  cases v with
  | null => exact ⟨_, _, by rw [pretty], rfl, by decide⟩
  | bool b => cases b <;> exact ⟨_, _, by rw [pretty], rfl, by decide⟩
  | number digits => cases depth <;> cases h
  | string s => exact ⟨_, _, by rw [pretty, quote], rfl, by decide⟩
  | array items => cases items <;> exact ⟨_, _, by rw [pretty], rfl, by decide⟩
  | object fields => cases fields <;> exact ⟨_, _, by rw [pretty], rfl, by decide⟩

theorem readField_prettyField {value : List Char → Option (Json × List Char)} {level : Nat}
    {f : String × Json} (h : ReadsBack value (pretty level) ']' f.2) (rest : List Char) :
    readField value (prettyField level f ++ rest) = some (f, rest) := by
  have hkey := readString_flatMap_escape f.1.toList (':' :: ' ' :: (pretty level f.2 ++ rest))
  have hcolon : skip (':' :: ' ' :: (pretty level f.2 ++ rest)) =
      ':' :: ' ' :: (pretty level f.2 ++ rest) := skip_cons rfl _
  have hvalue : skip (' ' :: (pretty level f.2 ++ rest)) = pretty level f.2 ++ rest :=
    h.skip_write rest
  simp only [prettyField, quote, List.append_assoc, List.cons_append, List.nil_append, readField,
    hkey, hcolon, hvalue, h.reads, Option.map_some, String.ofList_toList]

theorem readValue_string (depth : Nat) (s : List Char) :
    readValue depth ('"' :: s) =
      (readString s).map fun r => (.string (String.ofList r.1), r.2) := by
  cases depth <;> rfl

theorem readValue_array (depth : Nat) (s : List Char) :
    readValue (depth + 1) ('[' :: s) =
      (readInside (readValue depth) ']' s).map fun r => (.array r.1, r.2) :=
  rfl

theorem readValue_object (depth : Nat) (s : List Char) :
    readValue (depth + 1) ('{' :: s) =
      (readInside (readField (readValue depth)) '}' s).map fun r => (.object r.1, r.2) :=
  rfl

/-- **A value is read back from its text**, whatever follows. -/
theorem readValue_pretty : ∀ {depth : Nat} {v : Json}, Fits depth v →
    ∀ (level : Nat) (rest : List Char), readValue depth (pretty level v ++ rest) = some (v, rest)
  | 0, .null, _, _, _ | _ + 1, .null, _, _, _ => by rw [pretty]; rfl
  | 0, .bool true, _, _, _ | _ + 1, .bool true, _, _, _ => by rw [pretty]; rfl
  | 0, .bool false, _, _, _ | _ + 1, .bool false, _, _, _ => by rw [pretty]; rfl
  | _, .string s, _, _, rest => by
      rw [pretty, quote, List.cons_append, List.append_assoc, List.singleton_append,
        readValue_string, readString_flatMap_escape, Option.map_some, String.ofList_toList]
  | 0, .number _, h, _, _ | _ + 1, .number _, h, _, _ => h.elim
  | 0, .array _, h, _, _ | 0, .object _, h, _, _ => h.elim
  | _ + 1, .array [], _, _, _ | _ + 1, .object [], _, _, _ => by rw [pretty]; rfl
  | depth + 1, .array (v :: vs), h, level, rest => by
      have hparts : ∀ w ∈ v :: vs, ReadsBack (readValue depth) (pretty (level + 1)) ']' w :=
        fun w hw => ⟨exists_pretty_eq_cons (h w hw) _, readValue_pretty (h w hw) _⟩
      have hinside := readInside_parts rfl (by decide) hparts (level + 1) level rest
      rw [pretty, prettyItems_eq, List.cons_append, readValue_array]
      simp only [List.append_assoc, List.singleton_append, hinside, Option.map_some]
  | depth + 1, .object (f :: fs), h, level, rest => by
      have hparts : ∀ g ∈ f :: fs,
          ReadsBack (readField (readValue depth)) (prettyField (level + 1)) '}' g := by
        intro g hg
        have hv : ReadsBack (readValue depth) (pretty (level + 1)) ']' g.2 :=
          ⟨exists_pretty_eq_cons (h g hg) _, readValue_pretty (h g hg) _⟩
        exact ⟨⟨_, _, rfl, rfl, by decide⟩, readField_prettyField hv⟩
      have hinside := readInside_parts rfl (by decide) hparts (level + 1) level rest
      have hfield (s : List Char) :
          quote f.1 ++ ([':', ' '] ++ (pretty (level + 1) f.2 ++ s)) =
            prettyField (level + 1) f ++ s := by
        rw [prettyField, List.append_assoc, List.append_assoc]
      rw [pretty, prettyFields_eq, List.cons_append, readValue_object]
      simp only [List.append_assoc, List.singleton_append, hfield, hinside, Option.map_some]

/-- **A text gives its value back**, also with blanks after it. -/
theorem read_pretty {v : Json} (h : Fits maxDepth v) {after : List Char}
    (hafter : ∀ c ∈ after, isSpace c) : read (String.ofList (pretty 0 v ++ after)) = some v := by
  obtain ⟨c, s, e, hc, -⟩ := exists_pretty_eq_cons h 0
  have hskip : skip (pretty 0 v ++ after) = pretty 0 v ++ after := by
    rw [e, List.cons_append, skip_cons hc]
  have hend : skip after = [] := List.dropWhile_eq_nil_iff.mpr hafter
  rw [read, String.toList_ofList, hskip, readValue_pretty h]
  simp [hend]

end SceneScript.Json
