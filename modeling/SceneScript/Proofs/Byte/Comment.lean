import SceneScript.Proofs.Byte.Search
import SceneScript.Proofs.Comment.Cut
import SceneScript.Proofs.Text.Byte

/-!
# Proofs — Byte — taking comments out

The scan of a script for comments, on its bytes.  It goes from byte to byte, jumps over quoted runs,
and where it comes to a comment it copies out what it has passed over since the last one, and notes
where that started (`Stripped.keep`).

At a character that can open a quoted run or a comment, a move of the scan is a step of the cut into
pieces (`move_quote`, `move_slash`).  Any other character is passed over byte by byte
(`stripFrom_pass`).  So the scan stands between two characters whenever it copies something out, and
it copies and notes what the pass over the pieces does: the same text in bytes, and the same two
tables (`value_strip`).
-/

namespace SceneScript.Byte

open Text

/-- What is left of the bytes of a script, and the way back into the script. -/
structure Stripped where
  /-- The bytes that are left. -/
  text       : List UInt8 := []
  /-- Where each part that was put into the text starts: in the text, and in the script. -/
  origins    : Array (Nat × Nat) := #[]
  /-- Where the lines of the script start. -/
  lineStarts : Array Nat

namespace Stripped

/-- Copies the bytes from `start` to `stop` out. -/
def keep (out : Stripped) (source : List UInt8) (start stop : Nat) : Sliced Stripped :=
  if start < stop then do
    let run ← slice source start stop
    return { out with
      text    := out.text ++ run
      origins := out.origins.push (out.text.length, start) }
  else return out

/-- Puts in a space for what starts at `start`. -/
def putSpace (out : Stripped) (start : Nat) : Stripped :=
  { out with
    text    := out.text ++ [' '.toUInt8]
    origins := out.origins.push (out.text.length, start) }

end Stripped

/-- The offsets at which the lines of a text start: its own, and those behind a line feed. -/
def lineStarts (source : List UInt8) : Array Nat :=
  (0 :: (source.zipIdx.filter fun b => b.1 = newlineByte).map fun b => b.2 + 1).toArray

/-- What the scan does at a byte. -/
inductive Move where
  /-- It goes on at `next`; what it passes over is kept. -/
  | on (next : Nat)
  /-- It stands at a line comment, and goes on at `next` behind it. -/
  | line (next : Nat)
  /-- It stands at a block comment, and goes on at `next` behind it. -/
  | block (next : Nat)

/-- Where the scan goes on. -/
def Move.next : Move → Nat
  | .on next | .line next | .block next => next

/-- The characters that end a line comment. -/
def lineEnds : List Char := ['\n', '\r']

/-- The move at byte `b`, which stands at offset `i`. -/
def move (source : List UInt8) (i : Nat) (b : UInt8) : Move :=
  if oneOf quotes b then
    match closingQuote source i b with
    | some close => .on (close + 1)
    | none       => .on (i + 1)
  else if b = '/'.toUInt8 ∧ source[i + 1]? = some '/'.toUInt8 then
    .line (seek lineEnds source i)
  else if b = '/'.toUInt8 ∧ source[i + 1]? = some '*'.toUInt8 then
    match find source (i + 2) ['*'.toUInt8, '/'.toUInt8] with
    | some close => .block (close + 2)
    | none       => .on (i + 1)
  else .on (i + 1)

theorem lt_next_move {source : List UInt8} {i : Nat} {b : UInt8} (h : source[i]? = some b) :
    i < (move source i b).next := by
  unfold move
  split
  · split
    · next hc => exact Nat.lt_succ_of_lt (le_of_firstFrom hc)
    · exact Nat.lt_succ_self i
  · split
    · next hs =>
        obtain ⟨rfl, -⟩ := hs
        exact lt_seek h (by decide)
    · split
      · split
        · next hc =>
            have := le_of_firstFrom hc
            simp only [Move.next]
            omega
        · exact Nat.lt_succ_self i
      · exact Nat.lt_succ_self i

/-- The scan from offset `i` on, where everything from `runStart` on is kept and not copied yet. -/
def stripFrom (source : List UInt8) (runStart i : Nat) (out : Stripped) : Sliced Stripped :=
  match _ : source[i]? with
  | none   => out.keep source runStart source.length
  | some b =>
    match _ : move source i b with
    | .on next    => stripFrom source runStart next out
    | .line next  => do
      let out ← out.keep source runStart i
      stripFrom source next next out
    | .block next => do
      let out ← out.keep source runStart i
      stripFrom source next next (out.putSpace i)
termination_by source.length - i
decreasing_by
  all_goals
    have hi := (List.getElem?_eq_some_iff.mp ‹source[i]? = some b›).1
    have hlt := lt_next_move ‹source[i]? = some b›
    rw [‹move source i b = _›, Move.next] at hlt
    exact Nat.sub_lt_sub_left hi hlt

/-- Takes the comments out of the bytes of a script. -/
def strip (source : List UInt8) : Sliced Stripped :=
  stripFrom source 0 0 { lineStarts := lineStarts source }

/-! ### One move -/

/-- How the scan goes on after a move. -/
def Move.goOn (source : List UInt8) (runStart i : Nat) (out : Stripped) : Move → Sliced Stripped
  | .on next    => stripFrom source runStart next out
  | .line next  => out.keep source runStart i >>= stripFrom source next next
  | .block next =>
    out.keep source runStart i >>= fun out => stripFrom source next next (out.putSpace i)

theorem stripFrom_of_some {source : List UInt8} {i : Nat} {b : UInt8} (h : source[i]? = some b)
    (runStart : Nat) (out : Stripped) :
    stripFrom source runStart i out = (move source i b).goOn source runStart i out := by
  rw [stripFrom]
  split
  · next hb => rw [h] at hb; cases hb
  · next b' hb =>
      rw [h] at hb
      cases hb
      split <;> simp only [*, Move.goOn]

/-- The move past a piece that starts behind `u`. -/
def Move.past (u : List Char) : Piece → Move
  | .kept run     => .on (byteLength (u ++ run))
  | p@(.line _)   => .line (byteLength (u ++ p.source))
  | p@(.block _)  => .block (byteLength (u ++ p.source))

theorem not_contains_lineEnds (c : Char) : (!lineEnds.contains c) = staysOnLine c := by
  simp [lineEnds, staysOnLine]

/-- At a character that is neither a quote nor a slash, the scan goes on to the next byte. -/
theorem move_of_mem {c : Char} (hq : isQuote c = false) (hc : c ≠ '/') {b : UInt8}
    (hb : b ∈ String.utf8EncodeChar c) (source : List UInt8) (i : Nat) :
    move source i b = .on (i + 1) := by
  have hq' : oneOf quotes b = false := by rw [oneOf_quotes hb, hq]
  have hb' : b ≠ '/'.toUInt8 := mt (eq_toUInt8_iff (by decide) hb).mp hc
  simp [move, hq', hb']

/-- **At a quote** the scan moves past the quoted run, or past the quote. -/
theorem move_quote {c : Char} (hc : isQuote c) (u cs : List Char) :
    move (bytes (u ++ c :: cs)) (byteLength u) c.toUInt8 = .past u (Piece.next c cs).1 := by
  have hlt : c.toNat < 0x80 := toNat_lt_of_isQuote hc
  have hq : oneOf quotes c.toUInt8 := by
    rw [oneOf_quotes (c := c) (by simp [utf8EncodeChar_of_lt hlt]), hc]
  unfold move Piece.next
  rw [if_pos hq, if_pos hc, closingQuote_bytes hc]
  cases closeQuote c c cs with
  | none => simp [Move.past, utf8Size_of_lt hlt]
  | some r =>
      have hpos := byteLength_lt_append_cons u c r.1
      simp only [Option.map_some, Move.past, Nat.sub_add_cancel (Nat.one_le_of_lt hpos)]

/-- The byte behind a slash. -/
theorem getElem?_slash {a : Char} (ha : a.toNat < 0x80) (u cs : List Char) :
    (bytes (u ++ '/' :: cs))[byteLength u + 1]? = some a.toUInt8 ↔ cs.head? = some a := by
  have h := getElem?_boundary ha (u ++ ['/']) cs
  rwa [List.append_assoc, byteLength_append] at h

theorem next_of_plain {c : Char} {cs : List Char} (h : Piece.Plain c cs) :
    Piece.next c cs = (.kept [c], cs) :=
  Piece.next_of_stands (.plain h) rfl

/-- A slash that opens nothing is one byte. -/
theorem past_slash {cs : List Char} (h : Piece.Plain '/' cs) (u : List Char) :
    Move.past u (Piece.next '/' cs).1 = .on (byteLength u + 1) := by
  rw [next_of_plain h, Move.past, byteLength_append]
  rfl

/-- **At a slash** the scan moves past the comment, or past the slash. -/
theorem move_slash (u cs : List Char) :
    move (bytes (u ++ '/' :: cs)) (byteLength u) '/'.toUInt8 = .past u (Piece.next '/' cs).1 := by
  have hq : ¬ oneOf quotes '/'.toUInt8 := by decide
  have hslash := getElem?_slash (a := '/') (by decide) u cs
  have hstar := getElem?_slash (a := '*') (by decide) u cs
  rw [move, if_neg hq]
  simp only [true_and, hslash, hstar]
  by_cases h₁ : cs.head? = some '/'
  · obtain ⟨r, rfl⟩ := List.head?_eq_some_iff.mp h₁
    have hends : ∀ a ∈ lineEnds, a.toNat < 0x80 := by simp [lineEnds]
    have hseek := seek_bytes hends u ('/' :: '/' :: r)
    simp only [not_contains_lineEnds] at hseek
    rw [if_pos h₁, hseek]
    rfl
  · rw [if_neg h₁]
    by_cases h₂ : cs.head? = some '*'
    · obtain ⟨r, rfl⟩ := List.head?_eq_some_iff.mp h₂
      have hfind := find_bytes (u ++ ['/', '*']) r
      rw [List.append_assoc, byteLength_append] at hfind
      rw [if_pos h₂, show byteLength u + 2 = byteLength u + byteLength ['/', '*'] from rfl,
        show u ++ '/' :: '*' :: r = u ++ (['/', '*'] ++ r) from rfl, hfind]
      cases hb : closeBlock r with
      | none =>
          have hopen : ∀ r', '*' :: r = '*' :: r' → Unclosed r' := by
            rintro r' ⟨⟩
            exact closeBlock_eq_none.mp hb
          have hplain : Piece.Plain '/' ('*' :: r) := ⟨nofun, fun _ => h₁, fun _ => hopen⟩
          exact (past_slash hplain u).symm
      | some p =>
          obtain ⟨body, rest⟩ := p
          obtain ⟨rfl, hbody⟩ := closeBlock_eq_some hb
          have hnext : Piece.next '/' ('*' :: (body ++ '*' :: '/' :: rest)) = (.block body, rest) :=
            Piece.next_of_stands (.block hbody) (by simp [Piece.source])
          rw [hnext]
          refine congrArg Move.block ?_
          simp only [Piece.source, byteLength_append, byteLength_cons, byteLength_nil]
          have h : '/'.utf8Size = 1 ∧ '*'.utf8Size = 1 := by decide
          omega
    · have hplain : Piece.Plain '/' cs := ⟨nofun, fun _ => h₁, fun _ r e => absurd (e ▸ rfl) h₂⟩
      rw [if_neg h₂, past_slash hplain]

/-! ### All moves -/

/-- A character that opens nothing is passed over, byte by byte. -/
theorem stripFrom_pass {c : Char} (hq : isQuote c = false) (hc : c ≠ '/') (u cs : List Char)
    (runStart : Nat) (out : Stripped) :
    stripFrom (bytes (u ++ c :: cs)) runStart (byteLength u) out =
      stripFrom (bytes (u ++ c :: cs)) runStart (byteLength (u ++ [c])) out := by
  have hpass : ∀ k ≤ c.utf8Size, stripFrom (bytes (u ++ c :: cs)) runStart (byteLength u) out =
      stripFrom (bytes (u ++ c :: cs)) runStart (byteLength u + k) out := by
    intro k hk
    induction k with
    | zero => rfl
    | succ k ih =>
        obtain ⟨b, hb, e⟩ := exists_byte u c cs hk
        rw [ih (Nat.le_of_lt hk), stripFrom_of_some e, move_of_mem hq hc hb]
        rfl
  rw [hpass _ (Nat.le_refl _), byteLength_append, byteLength_cons, byteLength_nil, Nat.add_zero]

/-- **The scan moves from piece to piece.** -/
theorem stripFrom_next (u : List Char) (c : Char) (cs : List Char) (runStart : Nat)
    (out : Stripped) :
    stripFrom (bytes (u ++ c :: cs)) runStart (byteLength u) out =
      (Move.past u (Piece.next c cs).1).goOn (bytes (u ++ c :: cs)) runStart (byteLength u)
        out := by
  have hfirst : c.toNat < 0x80 → (bytes (u ++ c :: cs))[byteLength u]? = some c.toUInt8 :=
    fun h => (getElem?_boundary h u _).mpr rfl
  by_cases hq : isQuote c
  · rw [stripFrom_of_some (hfirst (toNat_lt_of_isQuote hq)), move_quote hq]
  · by_cases hc : c = '/'
    · subst hc
      rw [stripFrom_of_some (hfirst (by decide)), move_slash]
    · have hq := Bool.eq_false_iff.mpr hq
      rw [next_of_plain (.of_ne hq hc cs), stripFrom_pass hq hc]
      rfl

/-! ### The two passes -/

/-- The text in bytes, with the same tables. -/
def Stripped.encode (s : SceneScript.Stripped) : Stripped where
  text       := bytes s.text.toList
  origins    := s.origins
  lineStarts := s.lineStarts

theorem value_keep (out : SceneScript.Stripped) (u run v : List Char) :
    ((Stripped.encode out).keep (bytes (u ++ run ++ v)) (byteLength u)
        (byteLength (u ++ run))).value =
      some (.encode (out.keep (byteLength u) (String.ofList run))) := by
  have hsize : byteLength (u ++ run) = byteLength u + (String.ofList run).utf8ByteSize := by
    rw [utf8ByteSize_eq_byteLength, String.toList_ofList, byteLength_append]
  rw [Stripped.keep, SceneScript.Stripped.keep, String.isEmpty_eq_utf8ByteSize_beq_zero]
  by_cases hrun : (String.ofList run).utf8ByteSize = 0
  · rw [if_neg (by omega), if_pos (by simpa using hrun)]
    rfl
  · rw [if_pos (by omega), if_neg (by simpa using hrun), Sliced.value_bind, List.append_assoc,
      value_slice]
    simp [Stripped.encode, utf8ByteSize_eq_byteLength]

theorem encode_putSpace (out : SceneScript.Stripped) (start : Nat) :
    Stripped.encode (out.putSpace start) = (Stripped.encode out).putSpace start := by
  have hspace : bytes [' '] = [' '.toUInt8] := by decide
  simp [Stripped.encode, Stripped.putSpace, SceneScript.Stripped.putSpace,
    utf8ByteSize_eq_byteLength, hspace]

theorem value_stripFrom (out : SceneScript.Stripped) (u run v : List Char) :
    (stripFrom (bytes (u ++ run ++ v)) (byteLength u) (byteLength (u ++ run)) (.encode out)).value =
      some (.encode ((pieces v).foldl Scan.pass ⟨out, byteLength u, String.ofList run⟩).flush) := by
  fun_induction pieces v generalizing u run out with
  | case1 =>
      have hkeep := value_keep out u run []
      rw [List.append_nil] at hkeep ⊢
      rw [stripFrom]
      split
      · rwa [length_bytes]
      · next h => simp at h
  | case2 c cs ih =>
      have hsource := Piece.source_next c cs
      have hstep := stripFrom_next (u ++ run) c cs (byteLength u) (.encode out)
      rw [hstep, List.foldl_cons, ← hsource]
      generalize Piece.next c cs = p at ih ⊢
      obtain ⟨p, rest⟩ := p
      -- behind a comment a new run starts
      have hover (out : SceneScript.Stripped) := ih out (u ++ run ++ p.source) []
      simp only [List.append_nil, List.append_assoc (u ++ run)] at hover
      have hoffset : Scan.offset ⟨out, byteLength u, String.ofList run⟩ =
          byteLength (u ++ run) := by
        rw [Scan.offset, utf8ByteSize_eq_byteLength, String.toList_ofList, byteLength_append]
      cases p with
      | kept r =>
          have h := ih out u (run ++ r)
          rw [← List.append_assoc, List.append_assoc (u ++ run), String.ofList_append] at h
          exact h
      | line body =>
          refine (Sliced.value_bind _ _).trans ?_
          rw [value_keep, Option.bind_some]
          refine (hover _).trans ?_
          rw [Scan.pass, hoffset, ← byteLength_append]
          rfl
      | block body =>
          refine (Sliced.value_bind _ _).trans ?_
          rw [value_keep, Option.bind_some, ← encode_putSpace]
          refine (hover _).trans ?_
          rw [Scan.pass, hoffset, ← byteLength_append]
          rfl

/-! ### Line starts -/

/-- The line feeds among the bytes of a character, and the offsets behind them. -/
theorem filter_zipIdx_utf8EncodeChar (c : Char) (offset : Nat) :
    ((((String.utf8EncodeChar c).zipIdx offset).filter fun b => b.1 = newlineByte).map
      fun b => b.2 + 1) = if c = '\n' then [offset + 1] else [] := by
  split
  · next h =>
      subst h
      rw [show String.utf8EncodeChar '\n' = [newlineByte] by decide]
      simp
  · next h =>
      have hnone : (((String.utf8EncodeChar c).zipIdx offset).filter fun b => b.1 = newlineByte) =
          [] := by
        refine List.filter_eq_nil_iff.mpr fun b hb => ?_
        have hm := List.fst_mem_of_mem_zipIdx hb
        have hne : b.1 ≠ newlineByte := mt (eq_toUInt8_iff (a := '\n') (by decide) hm).mp h
        simpa using hne
      rw [hnone, List.map_nil]

theorem startsAfter_eq (s : List Char) (offset : Nat) :
    startsAfter offset s =
      (((bytes s).zipIdx offset).filter fun b => b.1 = newlineByte).map fun b => b.2 + 1 := by
  induction s generalizing offset with
  | nil => rfl
  | cons c s ih =>
      rw [bytes_cons, List.zipIdx_append, List.filter_append, List.map_append,
        filter_zipIdx_utf8EncodeChar, String.length_utf8EncodeChar, ← ih, startsAfter]
      split
      · next h =>
          subst h
          rfl
      · rfl

theorem lineStarts_bytes (s : List Char) : lineStarts (bytes s) = (Text.lineStarts s).toArray := by
  rw [lineStarts, Text.lineStarts, startsAfter_eq]

/-- **What is left of a script**: its bytes are scanned into the bytes of what is left of its
characters, and into the same tables. -/
theorem value_strip (source : String) :
    (strip (bytes source.toList)).value = some (.encode (SceneScript.strip source)) := by
  rw [strip, lineStarts_bytes]
  exact value_stripFrom { lineStarts := (Text.lineStarts source.toList).toArray } [] []
    source.toList

end SceneScript.Byte
