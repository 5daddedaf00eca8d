import SceneScript.FileTree
import SceneScript.Proofs.Result
import SceneScript.Proofs.Table

/-!
# Proofs — FileTree

What a successful write does to a tree of files.  The path leads to one name (`Leads`), under which
the text stands afterwards, and what stands under all other names is as before (`Put`, and
`put_of_write`).  A path is followed through directories only, and no directory is written over, so
the path leads to the same name afterwards and the text can be read back by it.
-/

namespace SceneScript.FileTree

variable {t t' : FileTree} {path text : String}

/-- The path leads to what stands, or would stand, under a name of the tree. -/
def Leads (t : FileTree) (path name : String) : Prop :=
  ∃ place, place ≠ [] ∧ t.locate path = .ok place ∧ name = "/".intercalate place

/-- The tree after it differs from the one before only under the name that the path leads to, and
there it holds the text. -/
structure Put (t : FileTree) (path text : String) (t' : FileTree) (name : String) : Prop where
  leads  : t.Leads path name
  stands : t'.entries.get? name = some (.file text.toUTF8)
  /-- The text can be read back by the path, unless the system refuses that. -/
  reads  : ∀ place, t.locate path = .ok place → t.refuses .read place = none →
    t'.read path = .ok text
  others : ∀ other, other ≠ name → t'.entries.get? other = t.entries.get? other
  rest   : t' = { t with entries := t'.entries }

theorem allow_eq_ok {access : Access} {place : List String} :
    t.allow access place = .ok () ↔ t.refuses access place = none := by
  unfold allow
  split <;> simp_all

theorem enter_eq_ok {place : List String} :
    t.enter place = .ok () ↔ t.entry? place = some .directory ∧ t.refuses .enter place = none := by
  unfold enter
  split <;> simp_all [allow_eq_ok]

section Directories

variable {es : Table Entry} {place start : List String}
  (hd : ∀ place, t.entry? place = some .directory →
    entry? { t with entries := es } place = some .directory)

include hd

theorem step_of_directories {name : String} (h : t.step start name = .ok place) :
    step { t with entries := es } start name = .ok place := by
  unfold step at h ⊢
  obtain ⟨u, he, h⟩ := bind_eq_ok.mp h
  obtain ⟨hdir, hr⟩ := enter_eq_ok.mp he
  exact bind_eq_ok.mpr ⟨u, enter_eq_ok.mpr ⟨hd start hdir, hr⟩, h⟩

theorem foldlM_step_of_directories {names : List String}
    (h : names.foldlM t.step start = .ok place) :
    names.foldlM (step { t with entries := es }) start = .ok place := by
  induction names generalizing start with
  | nil => exact h
  | cons name names ih =>
      rw [List.foldlM_cons] at h ⊢
      obtain ⟨next, h₁, h₂⟩ := bind_eq_ok.mp h
      exact bind_eq_ok.mpr ⟨next, step_of_directories hd h₁, ih h₂⟩

/-- **A path that can be followed** can still be followed if no directory has gone. -/
theorem locate_of_directories (h : t.locate path = .ok place) :
    locate { t with entries := es } path = .ok place := by
  unfold locate walk at h ⊢
  obtain ⟨u, hc, h⟩ := bind_eq_ok.mp h
  exact bind_eq_ok.mpr ⟨u, hc, foldlM_step_of_directories hd h⟩

end Directories

/-- All that a successful write goes through. -/
theorem exists_of_write (h : t.write path text = .ok t') :
    endsInSlash path = false ∧ ∃ place, t.locate path = .ok place ∧
      t.entry? place ≠ some .directory ∧
      t' = { t with entries := t.entries.insert ("/".intercalate place) (.file text.toUTF8) } := by
  rw [write] at h
  by_cases hs : endsInSlash path
  · simp only [hs, if_true] at h
    obtain ⟨_, -, h⟩ := bind_eq_ok.mp h
    obtain ⟨_, -, h⟩ := bind_eq_ok.mp h
    obtain ⟨_, h, -⟩ := bind_eq_ok.mp h
    cases h
  · simp only [hs, Bool.false_eq_true, if_false] at h
    obtain ⟨place, hl, h⟩ := bind_eq_ok.mp h
    refine ⟨by simpa using hs, place, hl, ?_⟩
    split at h
    · cases h
    · next hne =>
        obtain ⟨_, -, h⟩ := bind_eq_ok.mp h
        cases h
        exact ⟨hne, rfl⟩

theorem textOfBytes_toUTF8 (text : String) : textOfBytes text.toUTF8 = .ok text := by
  have h : text.toUTF8.IsValidUTF8 := text.isValidUTF8
  rw [textOfBytes, String.fromUTF8?, dif_pos h]
  rfl

theorem entry?_of_ne_nil {place : List String} (h : place ≠ []) :
    t.entry? place = t.entries.get? ("/".intercalate place) := by
  cases place with
  | nil => exact absurd rfl h
  | cons n ns => rfl

theorem read_of_file {place : List String} {bytes : ByteArray} (hl : t.locate path = .ok place)
    (he : t.entry? place = some (.file bytes)) (hs : endsInSlash path = false)
    (hr : t.refuses .read place = none) : t.read path = textOfBytes bytes := by
  have ha : t.allow .read place = .ok () := allow_eq_ok.mpr hr
  simp [read, hl, he, hs, ha, bind, Except.bind]

/-- **A successful write changes one file**, which then holds the text. -/
theorem put_of_write (h : t.write path text = .ok t') : ∃ name, t.Put path text t' name := by
  obtain ⟨hs, place, hl, hne, rfl⟩ := exists_of_write h
  have hplace : place ≠ [] := by
    rintro rfl
    exact hne rfl
  rw [entry?_of_ne_nil hplace] at hne
  have hself := Table.get?_insert_self t.entries ("/".intercalate place) (.file text.toUTF8)
  have hothers (other : String) (ho : other ≠ "/".intercalate place) :=
    Table.get?_insert_of_ne ho t.entries (.file text.toUTF8)
  generalize t.entries.insert ("/".intercalate place) (.file text.toUTF8) = es at hself hothers
  refine ⟨"/".intercalate place, ⟨place, hplace, hl, rfl⟩, hself, fun place' hl' hr => ?_, hothers,
    rfl⟩
  cases hl.symm.trans hl'
  -- what was written over is no directory, so the path still leads there
  have hl' : locate { t with entries := es } path = .ok place := by
    refine locate_of_directories (fun dir hdir => ?_) hl
    match dir with
    | []      => rfl
    | m :: ms => exact (hothers _ fun e => hne (e ▸ hdir)).trans hdir
  rw [read_of_file hl' ((entry?_of_ne_nil hplace).trans hself) hs hr]
  exact textOfBytes_toUTF8 text

/-- Where nothing was before, the write made a new file. -/
theorem get?_of_not_contains (hc : t.contains path = false) (h : t.write path text = .ok t')
    {name : String} (hn : t.Leads path name) : t.entries.get? name = none := by
  obtain ⟨hs, -⟩ := exists_of_write h
  obtain ⟨place, hne, hl, rfl⟩ := hn
  simp only [contains, hl, entry?_of_ne_nil hne] at hc
  split at hc
  · next he => exact he
  · cases hc
  · rw [hs] at hc
    cases hc

end SceneScript.FileTree
