import SceneScript.Proofs.FrontEnd

/-!
# Proofs — Intermediate — the grammar of a line

A line of the intermediate text is `var F F F L` or `method F F L`: a keyword, fields and a list, with
blanks between them (`Spells`).  A field is a word.  A list stands in brackets (`IsList`), and between
them stand quoted items with commas between them, blanks anywhere around, and a comma after the last
one or none (`Inner`).  A quoted item holds any characters but its quote and the backslash, and
escapes, which are a backslash and any character (`Between`).

**The reader follows the grammar** (`readLine_exact`).  It takes the fields one after another
(`Follows`), and each of them ends at the first blank, so that they are where the grammar has them
(`follows_iff`).  What is left is the list, and its items are read up to the quote that closes each
(`readQuoted_eq_some`), whatever brackets and commas they hold.
-/

namespace SceneScript.ListLiteral

open Text

/-! ### Items -/

/-- What a backslash and a character stand for. -/
inductive Escapes : Char → List Char → Prop where
  | feed     : Escapes 'n' ['\n']
  | carriage : Escapes 'r' ['\r']
  | tab      : Escapes 't' ['\t']
  /-- A backslash or a quote stands for itself. -/
  | self {c : Char} (h : c = '\\' ∨ isQuote c) : Escapes c [c]
  /-- Any other character keeps its backslash. -/
  | other {c : Char} (h : c ∉ ['n', 'r', 't', '\\', '\'', '"']) : Escapes c ['\\', c]

/-- What stands between two quotes `q`, and the item that it writes. -/
inductive Between (q : Char) : List Char → List Char → Prop where
  | nil : Between q [] []
  | char {c : Char} {s item : List Char} (hq : c ≠ q) (hb : c ≠ '\\') (h : Between q s item) :
      Between q (c :: s) (c :: item)
  | escape {c : Char} {w s item : List Char} (hc : Escapes c w) (h : Between q s item) :
      Between q ('\\' :: c :: s) (w ++ item)

/-- A quoted item. -/
def IsItem (s : List Char) (item : String) : Prop :=
  ∃ q body, isQuote q ∧ s = q :: (body ++ [q]) ∧ Between q body item.toList

theorem escapes_iff {c : Char} {w : List Char} : Escapes c w ↔ unescape c = w := by
  constructor
  · intro h
    cases h with
    | feed => rfl
    | carriage => rfl
    | tab => rfl
    | self h =>
        rcases h with rfl | h
        · rfl
        · rcases isQuote_iff.mp h with rfl | rfl <;> rfl
    | other h => simp_all [unescape]
  · rintro rfl
    unfold unescape
    split_ifs with hn hr ht hs
    · exact hn ▸ .feed
    · exact hr ▸ .carriage
    · exact ht ▸ .tab
    · refine .self ?_
      simpa [isQuote, or_comm, or_assoc] using hs
    · refine .other ?_
      simp_all

theorem readQuoted_cons {q c : Char} (hq : c ≠ q) (hb : c ≠ '\\') (s : List Char) :
    readQuoted q (c :: s) = (readQuoted q s).map fun r => (c :: r.1, r.2) := by
  rw [readQuoted, if_neg hq]
  · exact fun e _ => hb e
  · exact fun _ _ e _ => hb e

/-- **An item is read up to the quote that closes it**, and gives what it writes. -/
theorem readQuoted_eq_some {q : Char} (hq : isQuote q) {s item rest : List Char} :
    readQuoted q s = some (item, rest) ↔ ∃ body, s = body ++ q :: rest ∧ Between q body item := by
  constructor
  · intro h
    fun_induction readQuoted q s generalizing item with
    | case1 => cases h
    | case2 => cases h
    | case3 c cs ih =>
        obtain ⟨⟨item', rest'⟩, h', e⟩ := Option.map_eq_some_iff.mp h
        cases e
        obtain ⟨body, rfl, hb⟩ := ih h'
        exact ⟨'\\' :: c :: body, rfl, .escape (escapes_iff.mpr rfl) hb⟩
    | case4 cs =>
        cases h
        exact ⟨[], rfl, .nil⟩
    | case5 c cs h₁ h₂ hc ih =>
        have hne : c ≠ '\\' := by
          intro e
          cases cs with
          | nil => exact h₁ e rfl
          | cons d ds => exact h₂ d ds e rfl
        obtain ⟨⟨item', rest'⟩, h', e⟩ := Option.map_eq_some_iff.mp h
        cases e
        obtain ⟨body, rfl, hb⟩ := ih h'
        exact ⟨c :: body, rfl, .char hc hne hb⟩
  · rintro ⟨body, rfl, hb⟩
    induction hb with
    | nil =>
        have hne : q ≠ '\\' := by rintro rfl; cases hq
        simp [readQuoted, hne]
    | char hc hne _ ih =>
        rw [List.cons_append, readQuoted_cons hc hne, ih]
        rfl
    | escape hc _ ih =>
        rw [List.cons_append, List.cons_append, readQuoted, ih, escapes_iff.mp hc]
        rfl

/-! ### Lists -/

/-- Further items, each of them after a comma. -/
inductive Further : List Char → List String → Prop where
  | nil : Further [] []
  | cons {w w' s t : List Char} {item : String} {items : List String} (hw : IsBlanks w)
      (hw' : IsBlanks w') (hs : IsItem s item) (h : Further t items) :
      Further (w ++ ',' :: (w' ++ (s ++ t))) (item :: items)

/-- What may follow the last item: blanks, and a comma with more blanks or none. -/
inductive Trailing : List Char → Prop where
  | blanks {w : List Char} (hw : IsBlanks w) : Trailing w
  | comma {w w' : List Char} (hw : IsBlanks w) (hw' : IsBlanks w') : Trailing (w ++ ',' :: w')

/-- What stands between the brackets, and the items in it. -/
inductive Inner : List Char → List String → Prop where
  | blanks {w : List Char} (hw : IsBlanks w) : Inner w []
  | items {w s t e : List Char} {item : String} {items : List String} (hw : IsBlanks w)
      (hs : IsItem s item) (ht : Further t items) (he : Trailing e) :
      Inner (w ++ (s ++ (t ++ e))) (item :: items)

/-- A list in brackets, and its items. -/
def IsList (s : List Char) (items : List String) : Prop :=
  ∃ inner, s = '[' :: (inner ++ [']']) ∧ Inner inner items

theorem readItems_item {w s : List Char} {item : String} (hw : IsBlanks w) (hs : IsItem s item)
    (rest : List Char) :
    readItems (w ++ (s ++ rest)) =
      match trimStart rest with
      | []           => some [item]
      | ',' :: rest' => (readItems rest').map (item :: ·)
      | _ :: _       => none := by
  obtain ⟨q, body, hq, rfl, hb⟩ := hs
  rw [List.cons_append, List.append_assoc, List.singleton_append]
  exact readItems_of_readQuoted hw hq ((readQuoted_eq_some hq).mpr ⟨body, rfl, hb⟩)

theorem readItems_blanks {w : List Char} (hw : IsBlanks w) : readItems w = some [] := by
  rw [readItems_eq, trimStart_eq_nil.mpr hw]

/-- A comma is not blank, so it ends the blanks before it. -/
theorem trimStart_blanks_comma {w : List Char} (hw : IsBlanks w) (s : List Char) :
    trimStart (w ++ ',' :: s) = ',' :: s := by
  rw [trimStart_append hw, trimStart_cons_of_not_isBlank rfl]

theorem exists_blanks_of_trimStart {s rest : List Char} {c : Char} (h : trimStart s = c :: rest) :
    ∃ w, s = w ++ c :: rest ∧ IsBlanks w :=
  ⟨s.takeWhile isBlank, by rw [← h, trimStart, List.takeWhile_append_dropWhile],
    fun _ hd => List.mem_takeWhile_imp hd⟩

/-- What was read as an item is one, with blanks before it. -/
theorem exists_item_of_readQuoted {s cs item rest : List Char} {q : Char}
    (ht : trimStart s = q :: cs) (hq : isQuote q) (hr : readQuoted q cs = some (item, rest)) :
    ∃ w t, s = w ++ (t ++ rest) ∧ IsBlanks w ∧ IsItem t (String.ofList item) := by
  obtain ⟨w, rfl, hw⟩ := exists_blanks_of_trimStart ht
  obtain ⟨body, rfl, hb⟩ := (readQuoted_eq_some hq).mp hr
  rw [← String.toList_ofList (l := item)] at hb
  exact ⟨w, q :: (body ++ [q]), by simp, hw, q, body, hq, rfl, hb⟩

/-- **Items are read where the grammar has them**, and nothing else is accepted. -/
theorem readItems_eq_some {s : List Char} {items : List String} :
    readItems s = some items ↔ Inner s items := by
  constructor
  · intro h
    fun_induction readItems s generalizing items with
    | case1 s ht =>
        cases h
        exact .blanks (trimStart_eq_nil.mp ht)
    | case2 => cases h
    | case3 s q cs ht hq item rest hr hn =>
        cases h
        obtain ⟨w, t, rfl, hw, hs⟩ := exists_item_of_readQuoted ht hq hr
        exact .items hw hs .nil (.blanks (trimStart_eq_nil.mp hn))
    | case4 s q cs ht hq item rest hr rest' hc ih =>
        obtain ⟨items', h', rfl⟩ := Option.map_eq_some_iff.mp h
        obtain ⟨w, t, rfl, hw, hs⟩ := exists_item_of_readQuoted ht hq hr
        obtain ⟨w', rfl, hw'⟩ := exists_blanks_of_trimStart hc
        -- after a comma comes another item, or the comma was the last one
        cases ih h' with
        | blanks hw'' => exact .items (t := []) hw hs .nil (.comma hw' hw'')
        | items hw'' hs' hf he =>
            have hi := Inner.items hw hs (.cons hw' hw'' hs' hf) he
            simpa only [List.append_assoc, List.cons_append] using hi
    | case5 => cases h
    | case6 => cases h
  · intro h
    cases h with
    | blanks hw => exact readItems_blanks hw
    | @items w s t e item items hw hs ht he =>
        induction ht generalizing w s item with
        | nil =>
            rw [readItems_item hw hs, List.nil_append]
            cases he with
            | blanks hw' => rw [trimStart_eq_nil.mpr hw']
            | comma hw' hw'' =>
                rw [trimStart_blanks_comma hw']
                simp only [readItems_blanks hw'']
                rfl
        | cons hw' hw'' hs' _ ih =>
            rw [readItems_item hw hs, List.append_assoc, List.cons_append, trimStart_blanks_comma hw']
            simp only [List.append_assoc, ih hw'' hs']
            rfl

theorem inside?_eq_some {s inner : List Char} :
    inside? s = some inner ↔ s = '[' :: (inner ++ [']']) := by
  unfold inside?
  split
  · next cs =>
      rw [dropLast_eq_some]
      simp
  · next hn => exact ⟨nofun, fun e => absurd e (hn _)⟩

/-- **A list is read as the grammar has it**, blanks around it aside. -/
theorem read_eq_some {s : List Char} {items : List String} :
    read s = some items ↔ IsList (trim s) items := by
  simp only [read, IsList, Option.bind_eq_some_iff, inside?_eq_some, readItems_eq_some]

theorem IsList.getLast?_eq {s : List Char} {items : List String} (h : IsList s items) :
    s.getLast? = some ']' := by
  obtain ⟨inner, rfl, -⟩ := h
  rw [← List.cons_append, List.getLast?_concat]

theorem IsList.trim_eq {s : List Char} {items : List String} (h : IsList s items) : trim s = s := by
  refine trim_eq_self ?_ (by simp [h.getLast?_eq, show isBlank ']' = false from rfl])
  obtain ⟨inner, rfl, -⟩ := h
  simp [show isBlank '[' = false from rfl]

end SceneScript.ListLiteral

namespace SceneScript.Intermediate

open Text

/-! ### Fields -/

/-- Words, with blanks before each. -/
inductive Fields : List Char → List String → Prop where
  | nil : Fields [] []
  | cons {w s : List Char} {n : String} {ns : List String} (hne : w ≠ []) (hw : IsBlanks w)
      (hn : IsWord n) (h : Fields s ns) : Fields (w ++ (n.toList ++ s)) (n :: ns)

/-- The line spells the statement: its keyword, its names and the list of its arguments. -/
def Spells (line : List Char) (st : Statement) : Prop :=
  ∃ fields w list, line = st.keyword.toList ++ (fields ++ (w ++ list)) ∧ Fields fields st.names ∧
    w ≠ [] ∧ IsBlanks w ∧ ListLiteral.IsList list st.args

/-- The words are the fields of `s`, one after another, and `rest` is left. -/
inductive Follows : List String → List Char → List Char → Prop where
  | nil {s : List Char} : Follows [] s s
  | cons {n : String} {ns : List String} {s r rest : List Char} (hn : readField s = some (n, r))
      (h : Follows ns r rest) : Follows (n :: ns) s rest

/-- **A field is a word**, with blanks before it and a blank after it. -/
theorem readField_eq_some {s rest : List Char} {n : String} :
    readField s = some (n, rest) ↔
      ∃ w c, s = w ++ (n.toList ++ c :: rest) ∧ IsBlanks w ∧ IsWord n ∧ isBlank c := by
  constructor
  · intro h
    have hn := isWord_of_readField h
    unfold readField at h
    split at h
    · next c rest' hd =>
        cases h
        have hc := List.head?_dropWhile_not (fun c => !isBlank c) (trimStart s)
        rw [hd] at hc
        refine ⟨s.takeWhile isBlank, c, ?_, fun _ hm => List.mem_takeWhile_imp hm, hn,
          by simpa using hc⟩
        rw [String.toList_ofList, ← hd, List.takeWhile_append_dropWhile, trimStart,
          List.takeWhile_append_dropWhile]
    · cases h
  · rintro ⟨w, c, rfl, hw, hn, hc⟩
    exact readField_append hw hn hc rest

/-- **Fields that follow one another are words with blanks between them.** -/
theorem follows_iff {n : String} {ns : List String} {s rest : List Char} :
    Follows (n :: ns) s rest ↔
      ∃ w fields c, s = w ++ (n.toList ++ (fields ++ c :: rest)) ∧ IsBlanks w ∧ IsWord n ∧
        Fields fields ns ∧ isBlank c := by
  -- the blank that ends a field is the first one before the next
  induction ns generalizing n s with
  | nil =>
      constructor
      · intro h
        cases h with
        | cons hf h =>
            cases h
            obtain ⟨w, c, rfl, hw, hn, hc⟩ := readField_eq_some.mp hf
            exact ⟨w, [], c, rfl, hw, hn, .nil, hc⟩
      · rintro ⟨w, fields, c, rfl, hw, hn, hf, hc⟩
        cases hf
        exact .cons (readField_append hw hn hc rest) .nil
  | cons n' ns ih =>
      constructor
      · intro h
        cases h with
        | cons hf h =>
            obtain ⟨w, c, rfl, hw, hn, hc⟩ := readField_eq_some.mp hf
            obtain ⟨w', fields, c', rfl, hw', hn', hfs, hc'⟩ := ih.mp h
            refine ⟨w, c :: w' ++ (n'.toList ++ fields), c', by simp, hw, hn, ?_, hc'⟩
            exact .cons nofun (List.forall_mem_cons.mpr ⟨hc, hw'⟩) hn' hfs
      · rintro ⟨w, fields, c, rfl, hw, hn, hf, hc⟩
        cases hf with
        | @cons b t _ _ hne hb hn' hf =>
            cases b with
            | nil => exact absurd rfl hne
            | cons d b =>
                obtain ⟨hd, hb⟩ := List.forall_mem_cons.mp hb
                have hr := readField_append hw hn hd (b ++ (n'.toList ++ (t ++ c :: rest)))
                refine .cons ?_ (ih.mpr ⟨b, t, c, rfl, hb, hn', hf, hc⟩)
                simpa using hr

theorem readLine_eq_follows {line : List Char} {st : Statement} :
    readLine line = some st ↔
      ∃ rest, Follows (st.keyword :: st.names) line rest ∧
        ListLiteral.read rest = some st.args := by
  rw [readLine_eq_some]
  constructor
  · rintro (⟨r₀, r₁, r₂, r₃, c, h₀, h₁, h₂, h₃, h₄, rfl⟩ | ⟨r₀, r₁, r₂, i, h₀, h₁, h₂, h₃, rfl⟩)
    · exact ⟨r₃, .cons h₀ (.cons h₁ (.cons h₂ (.cons h₃ .nil))), h₄⟩
    · exact ⟨r₂, .cons h₀ (.cons h₁ (.cons h₂ .nil)), h₃⟩
  · rintro ⟨rest, hf, hl⟩
    cases st with
    | construct c =>
        obtain _ | ⟨h₀, _ | ⟨h₁, _ | ⟨h₂, _ | ⟨h₃, _ | _⟩⟩⟩⟩ := hf
        exact .inl ⟨_, _, _, _, c, h₀, h₁, h₂, h₃, hl, rfl⟩
    | invoke i =>
        obtain _ | ⟨h₀, _ | ⟨h₁, _ | ⟨h₂, _ | _⟩⟩⟩ := hf
        exact .inr ⟨_, _, _, i, h₀, h₁, h₂, hl, rfl⟩

/-! ### Lines -/

theorem Spells.trim_eq {line : List Char} {st : Statement} (h : Spells line st) :
    trim line = line := by
  obtain ⟨fields, w, list, rfl, -, -, -, hl⟩ := h
  refine trim_eq_self ?_ ?_
  · cases st <;> simp [Statement.keyword] <;> rfl
  · simp [List.getLast?_append, hl.getLast?_eq, show isBlank ']' = false from rfl]

/-- **The reader follows the grammar**, blanks at the ends of the line aside. -/
theorem readLine_eq_some_iff {line : List Char} {st : Statement} :
    readLine line = some st ↔ Spells (trim line) st := by
  simp only [readLine_eq_follows, follows_iff, ListLiteral.read_eq_some]
  constructor
  · rintro ⟨rest, ⟨w, fields, c, rfl, hw, -, hf, hc⟩, hl⟩
    obtain ⟨b, b', hr, hb, hb'⟩ := exists_append_trim rest
    generalize trim rest = list at hr hl
    subst hr
    have hs : Spells (st.keyword.toList ++ (fields ++ (c :: b ++ list))) st :=
      ⟨fields, c :: b, list, rfl, hf, nofun, List.forall_mem_cons.mpr ⟨hc, hb⟩, hl⟩
    have ht := (trim_eq_iff hs.trim_eq).mpr ⟨w, b', rfl, hw, hb'⟩
    simp only [List.append_assoc, List.cons_append] at ht hs ⊢
    rwa [ht]
  · intro hs
    obtain ⟨w, w', hline, hw, hw'⟩ := exists_append_trim line
    obtain ⟨fields, b, list, ht, hf, hne, hb, hl⟩ := hs
    cases b with
    | nil => exact absurd rfl hne
    | cons c b =>
        obtain ⟨hc, hb⟩ := List.forall_mem_cons.mp hb
        refine ⟨b ++ (list ++ w'), ⟨w, fields, c, ?_, hw, isWord_keyword st, hf, hc⟩, ?_⟩
        · rw [hline, ht]
          simp
        · rwa [(trim_eq_iff hl.trim_eq).mpr ⟨b, w', rfl, hb, hw'⟩]

/-- **Lines of the intermediate text, exactly.**  A line gives a statement if it spells it, blanks
at its ends aside: the keyword, the names and the list of arguments, in this order and with blanks
between them.  A line that spells no statement is refused. -/
theorem readLine_exact (line : List Char) :
    (∀ st, readLine line = some st ↔ Spells (trim line) st) ∧
    (readLine line = none ↔ ∀ st, ¬ Spells (trim line) st) := by
  refine ⟨fun st => readLine_eq_some_iff, ?_⟩
  simp only [← readLine_eq_some_iff, Option.eq_none_iff_forall_ne_some, ne_eq]

/-- Brackets, quotes and commas are characters of a field or an item like any other. -/
example : readLine "var [a] ' , [ \"c]\\d'\" ,'\\n[,' , ]".toList =
    some (.construct ⟨"[a]", "'", ",", ["c]\\d'", "\n[,"]⟩) := by decide +kernel

end SceneScript.Intermediate
