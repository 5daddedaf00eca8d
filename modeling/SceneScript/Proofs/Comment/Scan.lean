import SceneScript.Proofs.Comment.Place
import SceneScript.Proofs.PartitionPoint

/-!
# Proofs — Comment — the pass over a script

Comments are taken out in one pass, which copies what stands between two comments in one go and
notes where each copy starts.  After any number of pieces the text and the notes are those of the
pieces before the last comment, and the run is what was kept since (`Scan.Passed`, kept up by each
step in `Scan.Passed.pass`).

The notes are few, one for a whole run of pieces, but enough (`Traces`): the last one at or before a
byte leads to where `place` says that the byte stood.  So the search among them finds the place
(`sourceOffset_eq_place`), and the search in the table of line starts counts the line feeds before
it (`sourceLine_eq_newlinesBefore`).
-/

namespace SceneScript

open Text

/-! ### Notes of where copies start -/

/-- The notes lead each byte of what the pieces leave behind to its place: counted on from the last
one that is not beyond it. -/
structure Traces (os : List (Nat × Nat)) (ps : List Piece) : Prop where
  below : ∀ o ∈ os, o.1 < byteLength (ps.flatMap Piece.residue)
  leads : ∀ n < byteLength (ps.flatMap Piece.residue), ∃ before o after,
    os = before ++ o :: after ∧ (∀ b ∈ before, b.1 ≤ n) ∧ o.1 ≤ n ∧ (∀ a ∈ after, n < a.1) ∧
    o.2 + (n - o.1) = place ps n

namespace Traces

variable {os : List (Nat × Nat)} {ps qs : List Piece}

theorem nil : Traces [] [] :=
  ⟨nofun, nofun⟩

/-- Pieces that leave nothing behind need no note. -/
theorem append_of_nil (h : Traces os ps) (hq : qs.flatMap Piece.residue = []) :
    Traces os (ps ++ qs) := by
  have hr : (ps ++ qs).flatMap Piece.residue = ps.flatMap Piece.residue := by
    rw [List.flatMap_append, hq, List.append_nil]
  refine ⟨hr ▸ h.below, fun n hn => ?_⟩
  rw [hr] at hn
  rw [place_append_left hn]
  exact h.leads n hn

/-- **One note is enough** for pieces of which each byte stood as far from their start as it does
in what they leave behind. -/
theorem push (h : Traces os ps) (hpos : 0 < byteLength (qs.flatMap Piece.residue))
    (hq : ∀ k < byteLength (qs.flatMap Piece.residue), place qs k = k) :
    Traces (os ++ [(byteLength (ps.flatMap Piece.residue), byteLength (ps.flatMap Piece.source))])
      (ps ++ qs) := by
  have hr : byteLength ((ps ++ qs).flatMap Piece.residue) =
      byteLength (ps.flatMap Piece.residue) + byteLength (qs.flatMap Piece.residue) := by
    rw [List.flatMap_append, byteLength_append]
  constructor
  · intro o ho
    rw [hr]
    rcases List.mem_append.mp ho with ho | ho
    · exact Nat.lt_add_right _ (h.below o ho)
    · rw [List.mem_singleton.mp ho]
      exact Nat.lt_add_of_pos_right hpos
  · intro n hn
    by_cases hlt : n < byteLength (ps.flatMap Piece.residue)
    -- the byte was there before, and the new note lies beyond it
    · obtain ⟨before, o, after, rfl, hb, ho, ha, e⟩ := h.leads n hlt
      refine ⟨before, o, _, List.append_assoc before (o :: after) _, hb, ho, ?_, ?_⟩
      · exact List.forall_mem_append.mpr ⟨ha, by simpa using hlt⟩
      · rw [place_append_left hlt, e]
    · obtain ⟨k, rfl⟩ := Nat.exists_eq_add_of_le (Nat.le_of_not_lt hlt)
      refine ⟨os, _, [], rfl, fun b hb => ?_, Nat.le_add_right _ _, nofun, ?_⟩
      · exact Nat.le_of_lt (Nat.lt_add_right k (h.below b hb))
      · rw [place_append_right, hq k (by omega), Nat.add_sub_cancel_left]

end Traces

/-- The text is what the pieces leave behind, and the notes lead into them. -/
structure Stripped.Holds (s : Stripped) (ps : List Piece) : Prop where
  residue : s.residue = ps.flatMap Piece.residue
  traces  : Traces s.origins.toList ps

/-! ### Kept runs -/

/-- The piece is a kept run. -/
def Piece.IsKept (p : Piece) : Prop :=
  p.source = p.residue

theorem flatMap_source_of_isKept {ps : List Piece} (h : ∀ p ∈ ps, p.IsKept) :
    ps.flatMap Piece.source = ps.flatMap Piece.residue := by
  induction ps with
  | nil => rfl
  | cons p ps ih =>
      obtain ⟨hp, hps⟩ := List.forall_mem_cons.mp h
      rw [List.flatMap_cons, List.flatMap_cons, hp, ih hps]

theorem place_of_isKept {ps : List Piece} (h : ∀ p ∈ ps, p.IsKept) (n : Nat) : place ps n = n := by
  induction ps generalizing n with
  | nil => rfl
  | cons p ps ih =>
      obtain ⟨hp, hps⟩ := List.forall_mem_cons.mp h
      rw [place, hp, ih hps]
      split
      · rfl
      · omega

/-! ### The pass -/

namespace Stripped.Holds

variable {s : Stripped} {ps qs : List Piece}

/-- A run of kept pieces is put in with one note, or with none if it is empty. -/
theorem keep (h : s.Holds ps) (hq : ∀ q ∈ qs, q.IsKept) {run : String}
    (hrun : run.toList = qs.flatMap Piece.residue) :
    (s.keep (byteLength (ps.flatMap Piece.source)) run).Holds (ps ++ qs) := by
  unfold Stripped.keep
  split
  · next he =>
      have hnil : qs.flatMap Piece.residue = [] := by
        rw [← hrun, String.isEmpty_iff.mp he]
        rfl
      refine ⟨?_, h.traces.append_of_nil hnil⟩
      rw [h.residue, List.flatMap_append, hnil, List.append_nil]
  · next he =>
      have hpos : 0 < byteLength (qs.flatMap Piece.residue) := by
        rw [← hrun, ← utf8ByteSize_eq_byteLength]
        exact Nat.pos_of_ne_zero (mt String.isEmpty_iff_utf8ByteSize_eq_zero.mpr he)
      constructor
      · rw [Stripped.residue, String.toList_append, hrun, List.flatMap_append, ← h.residue]
        rfl
      · have ht := h.traces.push hpos fun k _ => place_of_isKept hq k
        rwa [← h.residue, Stripped.residue, ← utf8ByteSize_eq_byteLength, ← Array.toList_push] at ht

/-- The space of a block comment is put in with a note. -/
theorem putSpace (h : s.Holds ps) (body : List Char) :
    (s.putSpace (byteLength (ps.flatMap Piece.source))).Holds (ps ++ [.block body]) := by
  constructor
  · rw [Stripped.residue, Stripped.putSpace, String.toList_push, List.flatMap_append, ← h.residue]
    rfl
  · have hpos : 0 < byteLength ([Piece.block body].flatMap Piece.residue) := Nat.zero_lt_one
    have ht := h.traces.push hpos fun k hk => if_pos hk
    rwa [← h.residue, Stripped.residue, ← utf8ByteSize_eq_byteLength, ← Array.toList_push] at ht

/-- A line comment leaves no trace. -/
theorem append_line (h : s.Holds ps) (body : List Char) : s.Holds (ps ++ [.line body]) :=
  ⟨by simp [h.residue, Piece.residue], h.traces.append_of_nil rfl⟩

end Stripped.Holds

/-- The pass has come over the pieces: `done` up to the last comment, and what was kept since. -/
structure Scan.Passed (s : Scan) (done run : List Piece) : Prop where
  holds    : s.out.Holds done
  runStart : s.runStart = byteLength (done.flatMap Piece.source)
  kept     : ∀ p ∈ run, p.IsKept
  run      : s.run.toList = run.flatMap Piece.residue

namespace Scan.Passed

variable {s : Scan} {done run : List Piece}

theorem offset (h : s.Passed done run) :
    s.offset = byteLength ((done ++ run).flatMap Piece.source) := by
  rw [Scan.offset, h.runStart, utf8ByteSize_eq_byteLength, h.run, List.flatMap_append,
    byteLength_append, flatMap_source_of_isKept h.kept]

theorem flush (h : s.Passed done run) : s.flush.Holds (done ++ run) := by
  rw [Scan.flush, h.runStart]
  exact h.holds.keep h.kept h.run

/-- **One more piece**: it makes the run longer, or it is a comment and ends it. -/
theorem pass (h : s.Passed done run) (p : Piece) :
    ∃ done' run', done' ++ run' = done ++ run ++ [p] ∧ (s.pass p).Passed done' run' := by
  -- behind a comment nothing has been kept yet
  have comment {out : Stripped} (hout : out.Holds (done ++ run ++ [p])) :
      Passed { out, runStart := s.offset + byteLength p.source } (done ++ run ++ [p]) [] :=
    ⟨hout, by simp [h.offset, Nat.add_assoc], nofun, rfl⟩
  cases p with
  | kept r =>
      refine ⟨done, run ++ [.kept r], (List.append_assoc _ _ _).symm, h.holds, h.runStart, ?_, ?_⟩
      · refine List.forall_mem_append.mpr ⟨h.kept, ?_⟩
        simp [Piece.IsKept, Piece.source, Piece.residue]
      · simp [Scan.pass, h.run, Piece.residue]
  | line body => exact ⟨_, [], List.append_nil _, comment (h.flush.append_line body)⟩
  | block body =>
      refine ⟨_, [], List.append_nil _, comment ?_⟩
      rw [h.offset]
      exact h.flush.putSpace body

/-- **A whole pass.** -/
theorem foldl_pass (h : s.Passed done run) (ps : List Piece) :
    (ps.foldl Scan.pass s).flush.Holds (done ++ run ++ ps) := by
  induction ps generalizing s done run with
  | nil =>
      rw [List.append_nil]
      exact h.flush
  | cons p ps ih =>
      obtain ⟨done', run', e, h'⟩ := h.pass p
      have hps := ih h'
      rwa [e, List.append_assoc _ [p]] at hps

end Scan.Passed

theorem holds_strip (source : String) : (strip source).Holds (pieces source.toList) :=
  have start : Scan.Passed { out := { lineStarts := _ } } [] [] := ⟨⟨rfl, .nil⟩, rfl, nofun, rfl⟩
  start.foldl_pass _

/-- **What is left of a script** is what its pieces leave behind. -/
theorem residue_strip (source : String) :
    (strip source).residue = (pieces source.toList).flatMap Piece.residue :=
  (holds_strip source).residue

/-! ### The two searches -/

/-- **The search among the notes finds the place.** -/
theorem sourceOffset_eq_place {source : String} {n : Nat}
    (hn : n < byteLength (strip source).residue) :
    (strip source).sourceOffset n = place (pieces source.toList) n := by
  have h := holds_strip source
  generalize strip source = s at h hn ⊢
  rw [h.residue] at hn
  obtain ⟨before, o, after, e, hb, ho, ha, hplace⟩ := h.traces.leads n hn
  have hpoint : partitionPoint s.origins (fun o => o.1 ≤ n) = (before ++ [o]).length := by
    have hsplit : s.origins.toList = before ++ [o] ++ after := by simpa using e
    refine partitionPoint_eq hsplit ?_ ?_
    · exact List.forall_mem_append.mpr ⟨by simpa using hb, by simpa using ho⟩
    · simpa using ha
  rw [Stripped.sourceOffset]
  generalize partitionPoint s.origins (fun o => o.1 ≤ n) = point at hpoint
  obtain ⟨k, hk⟩ := point
  obtain rfl : k = before.length + 1 := by simpa using hpoint
  have hi : before.length < s.origins.size := Nat.lt_of_succ_lt_succ hk
  have hget : s.origins[before.length] = o := by simp [← Array.getElem_toList, e]
  simp only [hget]
  exact hplace

namespace Scan

theorem lineStarts_flush (s : Scan) : s.flush.lineStarts = s.out.lineStarts := by
  rw [flush, Stripped.keep]
  split <;> rfl

theorem lineStarts_foldl_pass (s : Scan) (ps : List Piece) :
    (ps.foldl pass s).out.lineStarts = s.out.lineStarts := by
  induction ps generalizing s with
  | nil => rfl
  | cons p ps ih =>
      rw [List.foldl_cons, ih]
      cases p with
      | kept run => rfl
      | line body | block body => exact lineStarts_flush s

end Scan

theorem lineStarts_strip (source : String) :
    (strip source).lineStarts = (lineStarts source.toList).toArray := by
  rw [strip, Scan.lineStarts_flush, Scan.lineStarts_foldl_pass]

/-- **The search in the table of line starts counts line feeds**, up to wherever the other search
leads. -/
theorem sourceLine_eq_newlinesBefore (source : String) (n : Nat) :
    (strip source).sourceLine n =
      1 + newlinesBefore ((strip source).sourceOffset n) source.toList := by
  rw [Stripped.sourceLine, lineStarts_strip]
  generalize (strip source).sourceOffset n = src
  obtain ⟨ys, zs, e, hy, hz, hlen⟩ := exists_startsAfter_eq_append source.toList 0 src
  rw [Nat.zero_add] at hy hz
  have hsplit : (lineStarts source.toList).toArray.toList = 0 :: ys ++ zs := congrArg (0 :: ·) e
  rw [partitionPoint_eq hsplit (by simpa using hy) (by simpa using hz), List.length_cons, hlen,
    Nat.add_comm]

end SceneScript
