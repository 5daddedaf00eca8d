import SceneScript.Argument
import SceneScript.Proofs.Byte.Search

/-!
# Proofs — Byte — argument lists

The scan of an argument list for its tokens, on the bytes between the parentheses.  Gaps and quotes
are bytes of their own, so what the scan finds at a character starts and ends between two of them
(`found_bytes`).  It takes the tokens that the reader of characters does, up to the same refusal
(`value_tokensFrom`).
-/

namespace SceneScript.Byte

open Text Argument

/-- Why an argument list is refused; a refused token is given in bytes. -/
inductive Refusal where
  | missingParen
  | unterminatedString
  | badToken (token : List UInt8)

/-- A refusal, with its token in bytes. -/
def Refusal.ofError : ArgumentError → Refusal
  | .missingParen       => .missingParen
  | .unterminatedString => .unterminatedString
  | .badToken token     => .badToken (bytes token.toList)

/-- What comes of an argument list, with its tokens in bytes. -/
def encodeTokens : Except ArgumentError (List String) → Except Refusal (List (List UInt8))
  | .ok args => .ok (args.map fun token => bytes token.toList)
  | .error e => .error (.ofError e)

/-- The characters that stand between two tokens. -/
def gaps : List Char := [' ', '\t', '\n', '\x0c', '\r']

/-- What the scan finds at a byte. -/
inductive Found where
  | gap
  /-- A quote that is not closed. -/
  | unterminated
  /-- A quoted run with more behind it, up to `stop`. -/
  | unended (stop : Nat)
  /-- A quoted run up to `stop`. -/
  | quoted (stop : Nat)
  /-- A word up to `stop`. -/
  | word (stop : Nat)

/-- What stands at byte `b`, at offset `i`. -/
def found (inner : List UInt8) (i : Nat) (b : UInt8) : Found :=
  if oneOf gaps b then .gap
  else if oneOf quotes b then
    match closingQuote inner i b with
    | none       => .unterminated
    | some close =>
      if inner[close + 1]?.any (!oneOf gaps ·) then .unended (seek gaps inner i)
      else .quoted (close + 1)
  else .word (seek gaps inner i)

/-- Where the scan goes on, if it does. -/
def Found.next? (i : Nat) : Found → Option Nat
  | .gap                       => some (i + 1)
  | .unterminated | .unended _ => none
  | .quoted stop | .word stop  => some stop

theorem lt_next_found {inner : List UInt8} {i j : Nat} {b : UInt8} (h : inner[i]? = some b)
    (hj : (found inner i b).next? i = some j) : i < j := by
  unfold found at hj
  split at hj
  · cases hj
    exact Nat.lt_succ_self i
  · next hg =>
      split at hj
      · split at hj
        · cases hj
        · next hc =>
            split at hj
            · cases hj
            · cases hj
              exact Nat.lt_succ_of_lt (le_of_firstFrom hc)
      · cases hj
        exact lt_seek h (Bool.eq_false_iff.mpr hg)

/-- The tokens from offset `i` on, behind those found before. -/
def tokensFrom (inner : List UInt8) (i : Nat) (args : List (List UInt8)) :
    Sliced (Except Refusal (List (List UInt8))) :=
  match _ : inner[i]? with
  | none   => pure (.ok args)
  | some b =>
    match _ : found inner i b with
    | .gap          => tokensFrom inner (i + 1) args
    | .unterminated => pure (.error .unterminatedString)
    | .unended stop => do
      let token ← slice inner i stop
      pure (.error (.badToken token))
    | .quoted stop  => do
      let token ← slice inner i stop
      tokensFrom inner stop (args ++ [token])
    | .word stop    => do
      let token ← slice inner i stop
      if Literal.isBare (decode token) then
        let arg ← slice inner i stop
        tokensFrom inner stop (args ++ [arg])
      else pure (.error (.badToken token))
termination_by inner.length - i
decreasing_by
  all_goals
    have hi := (List.getElem?_eq_some_iff.mp ‹inner[i]? = some b›).1
    refine Nat.sub_lt_sub_left hi (lt_next_found ‹inner[i]? = some b› ?_)
    rw [‹found inner i b = _›]
    rfl

/-- Reads an argument list from its bytes. -/
def readArguments (text : List UInt8) : Sliced (Except Refusal (List (List UInt8))) :=
  let text := trim (decode text)
  if text.isEmpty then pure (.ok [])
  else
    match inside? text with
    | some inner => tokensFrom (bytes inner) 0 []
    | none       => pure (.error .missingParen)

/-! ### One token -/

theorem contains_gaps (c : Char) : gaps.contains c = isGap c := by
  simp [gaps, isGap, Bool.or_assoc]

theorem toNat_lt_of_mem_gaps : ∀ a ∈ gaps, a.toNat < 0x80 := by
  simp [gaps]

theorem toNat_lt_of_isGap {c : Char} (hc : isGap c) : c.toNat < 0x80 := by
  rw [← contains_gaps, List.contains_iff_mem] at hc
  exact toNat_lt_of_mem_gaps c hc

theorem oneOf_gaps {c : Char} {b : UInt8} (hb : b ∈ String.utf8EncodeChar c) :
    oneOf gaps b = isGap c := by
  rw [oneOf_of_mem toNat_lt_of_mem_gaps hb, contains_gaps]

/-- A token ends where a gap follows, or nothing. -/
theorem any_not_gap (u rest : List Char) :
    (bytes (u ++ rest))[byteLength u]?.any (!oneOf gaps ·) = !endsToken rest := by
  cases rest with
  | nil => simp [endsToken]
  | cons c cs =>
      obtain ⟨b, hb, e⟩ := exists_byte u c cs c.utf8Size_pos
      rw [Nat.add_zero] at e
      rw [e, Option.any_some, oneOf_gaps hb, endsToken]

/-- What stands at character `c`, behind `u` and in front of `cs`. -/
def foundAt (u : List Char) (c : Char) (cs : List Char) : Found :=
  if isGap c then .gap
  else if isQuote c then
    match closeQuote c c cs with
    | none             => .unterminated
    | some (run, rest) =>
      if endsToken rest then .quoted (byteLength (u ++ c :: run))
      else .unended (byteLength (u ++ word (c :: cs)))
  else .word (byteLength (u ++ word (c :: cs)))

/-- **What is found at a character** starts and ends between two characters. -/
theorem found_bytes {c : Char} {b : UInt8} (hb : b ∈ String.utf8EncodeChar c) (u cs : List Char) :
    found (bytes (u ++ c :: cs)) (byteLength u) b = foundAt u c cs := by
  have hseek := seek_bytes toNat_lt_of_mem_gaps u (c :: cs)
  simp only [contains_gaps] at hseek
  rw [found, foundAt, oneOf_gaps hb, oneOf_quotes hb, hseek]
  by_cases hq : isQuote c
  · have hlt := toNat_lt_of_isQuote hq
    obtain rfl : b = c.toUInt8 := (eq_toUInt8_iff hlt hb).mpr rfl
    rw [closingQuote_bytes hq]
    cases hc : closeQuote c c cs with
    | none => rfl
    | some r =>
        obtain ⟨run, rest⟩ := r
        have hends := any_not_gap (u ++ c :: run) rest
        have hpos := byteLength_lt_append_cons u c run
        rw [List.append_assoc, List.cons_append, closeQuote_append hc] at hends
        simp only [Option.map_some, Nat.sub_add_cancel (Nat.one_le_of_lt hpos), hends]
        cases endsToken rest <;> rfl
  · simp only [hq]
    rfl

/-- The scan goes on from what it finds at a character. -/
theorem tokensFrom_char (u : List Char) (c : Char) (cs : List Char) (args : List (List UInt8)) :
    let inner := bytes (u ++ c :: cs)
    tokensFrom inner (byteLength u) args =
      match foundAt u c cs with
      | .gap          => tokensFrom inner (byteLength u + 1) args
      | .unterminated => pure (.error .unterminatedString)
      | .unended stop =>
        slice inner (byteLength u) stop >>= fun token => pure (.error (.badToken token))
      | .quoted stop  =>
        slice inner (byteLength u) stop >>= fun token => tokensFrom inner stop (args ++ [token])
      | .word stop    =>
        slice inner (byteLength u) stop >>= fun token =>
          if Literal.isBare (decode token) then
            slice inner (byteLength u) stop >>= fun arg => tokensFrom inner stop (args ++ [arg])
          else pure (.error (.badToken token)) := by
  intro inner
  obtain ⟨b, hb, e⟩ := exists_byte u c cs c.utf8Size_pos
  rw [Nat.add_zero] at e
  rw [← found_bytes hb, tokensFrom]
  split
  · next h => rw [e] at h; cases h
  · next b' h =>
      rw [e] at h
      cases h
      split <;> simp only [inner, *]

/-- The slice that holds a word. -/
theorem value_slice_word (u s : List Char) :
    (slice (bytes (u ++ s)) (byteLength u) (byteLength (u ++ word s))).value =
      some (bytes (word s)) := by
  have hs : word s ++ afterWord s = s := List.takeWhile_append_dropWhile
  have h := value_slice u (word s) (afterWord s)
  rwa [hs] at h

/-! ### All tokens -/

theorem encodeTokens_cons (x : Except ArgumentError (List String)) (token : List Char)
    (args : List (List UInt8)) :
    (encodeTokens (x.map (String.ofList token :: ·))).map (args ++ ·) =
      (encodeTokens x).map (args ++ [bytes token] ++ ·) := by
  cases x <;> simp [encodeTokens, Except.map]

theorem value_tokensFrom (u v : List Char) (args : List (List UInt8)) :
    (tokensFrom (bytes (u ++ v)) (byteLength u) args).value =
      some ((encodeTokens (readTokens v)).map (args ++ ·)) := by
  fun_induction readTokens v generalizing u args with
  | case1 =>
      rw [tokensFrom]
      split
      · simp [encodeTokens, Except.map]
      · next h => simp at h
  | case2 c cs hc ih =>
      have hfound : foundAt u c cs = .gap := if_pos hc
      have h := ih (u ++ [c]) args
      rw [List.append_assoc, byteLength_append, byteLength_cons,
        utf8Size_of_lt (toNat_lt_of_isGap hc)] at h
      rw [tokensFrom_char, hfound]
      exact h
  | case3 c cs hg hq hc =>
      have hfound : foundAt u c cs = .unterminated := by simp [foundAt, hg, hq, hc]
      rw [tokensFrom_char, hfound]
      rfl
  | case4 c cs hg hq run rest hr he ih =>
      have hfound : foundAt u c cs = .quoted (byteLength (u ++ c :: run)) := by
        simp [foundAt, hg, hq, hr, he]
      have hslice := value_slice u (c :: run) rest
      have h := ih (u ++ c :: run) (args ++ [bytes (c :: run)])
      rw [List.append_assoc] at h
      rw [List.cons_append, closeQuote_append hr] at hslice h
      rw [tokensFrom_char, hfound, encodeTokens_cons]
      refine (Sliced.value_bind _ _).trans ?_
      rw [hslice, Option.bind_some, h]
  | case5 c cs hg hq run rest hr he =>
      have hfound : foundAt u c cs = .unended (byteLength (u ++ word (c :: cs))) := by
        simp [foundAt, hg, hq, hr, he]
      rw [tokensFrom_char, hfound]
      refine (Sliced.value_bind _ _).trans ?_
      rw [value_slice_word]
      simp [encodeTokens, Refusal.ofError, Except.map]
  | case6 c cs hg hq hb ih =>
      have hword : word (c :: cs) = c :: word cs := by simp [word, hg]
      have hfound : foundAt u c cs = .word (byteLength (u ++ c :: word cs)) := by
        simp [foundAt, hg, hq, hword]
      have hs : word cs ++ afterWord cs = cs := List.takeWhile_append_dropWhile
      have hslice := value_slice_word u (c :: cs)
      have h := ih (u ++ c :: word cs) (args ++ [bytes (c :: word cs)])
      rw [List.append_assoc, List.cons_append, hs] at h
      rw [hword] at hslice
      rw [tokensFrom_char, hfound, encodeTokens_cons]
      simp only [Sliced.value_bind, hslice, Option.bind_some, decode_bytes, hb, if_true, h]
  | case7 c cs hg hq hb =>
      have hword : word (c :: cs) = c :: word cs := by simp [word, hg]
      have hfound : foundAt u c cs = .word (byteLength (u ++ c :: word cs)) := by
        simp [foundAt, hg, hq, hword]
      have hslice := value_slice_word u (c :: cs)
      rw [hword] at hslice
      rw [tokensFrom_char, hfound]
      simp only [Sliced.value_bind, hslice, Option.bind_some, decode_bytes, hb]
      simp [encodeTokens, Refusal.ofError, Except.map]

/-- **An argument list** is read from its bytes as it is from its characters. -/
theorem value_readArguments (s : List Char) :
    (readArguments (bytes s)).value = some (encodeTokens (Argument.read s)) := by
  rw [readArguments, Argument.read, decode_bytes]
  split
  · rfl
  · cases inside? (trim s) with
    | none => rfl
    | some inner =>
        refine (value_tokensFrom [] inner []).trans (congrArg some ?_)
        show _ = encodeTokens (readTokens inner)
        cases encodeTokens (readTokens inner) <;> rfl

end SceneScript.Byte
