import Mathlib.Data.List.Forall2

/-!
Words in rows. A row is broken between words, or within a word that is too long, letter by letter.
A word that is split begins a row of its own, so it shares a row with other words only at its end.
-/

namespace Letterhead.Text

/-- A row is left as it is, if there is anything on it. -/
def Leaves (row : List (List Char)) (broken : List (List (List Char))) : Prop :=
  row = [] ∧ broken = [] ∨ broken = [row]

/-- How words get into rows of pieces, the last row being open: on the same row, on a new one, or
letter by letter on new ones. -/
inductive Wrapping (long : List Char → Prop) :
    List (List Char) → List (List (List Char)) → List (List Char) → Prop
  | start : Wrapping long [] [] []
  | joined {words : List (List Char)} {rows : List (List (List Char))} {row : List (List Char)}
      (word : List Char) (wrapping : Wrapping long words rows row) :
      Wrapping long (words ++ [word]) rows (row ++ [word])
  | begun {words : List (List Char)} {rows broken : List (List (List Char))} {row : List (List Char)}
      (word : List Char) (leaves : Leaves row broken) (wrapping : Wrapping long words rows row) :
      Wrapping long (words ++ [word]) (rows ++ broken) [word]
  | split {words : List (List Char)} {rows broken own : List (List (List Char))}
      {row last : List (List Char)} {word : List Char} (leaves : Leaves row broken)
      (overlong : long word) (letters : own.flatten ++ last = word.map ([·])) (some : last ≠ [])
      (wrapping : Wrapping long words rows row) :
      Wrapping long (words ++ [word]) (rows ++ broken ++ own) last

/-- Each piece is a whole word, or a letter of a long word of which each letter is a piece. -/
def Divides (long : List Char → Prop) (words pieces : List (List Char)) : Prop :=
  ∃ divided, List.Forall₂ (fun word parts => parts = [word] ∨ long word ∧ parts = word.map ([·]))
    words divided ∧ pieces = divided.flatten

/-! ### What becomes of each word -/

/-- The word that follows `before` is in one of the texts. -/
def Unbroken (texts : List (List Char)) (before word : List Char) : Prop :=
  ∃ earlier first rest later, texts = earlier ++ (first ++ word ++ rest) :: later ∧
    earlier.flatten ++ first = before

/-- The word that follows `before` has texts of its own, but for the last one, which goes on after
the word. -/
def Broken (texts : List (List Char)) (before word : List Char) : Prop :=
  ∃ earlier own last rest later, texts = earlier ++ own ++ (last ++ rest) :: later ∧
    earlier.flatten = before ∧ own.flatten ++ last = word ∧ own ≠ [] ∧ last ≠ []

/-- More texts, and more at the end of what was the last one. -/
def Prolongs (texts more : List (List Char)) : Prop :=
  ∃ closed last rest later, texts = closed ++ [last] ∧ more = closed ++ (last ++ rest) :: later

variable {texts more : List (List Char)} {before word : List Char}

theorem concat_eq_append_cons_iff {α : Type} {list before after : List α} {last item : α} :
    list ++ [last] = before ++ item :: after ↔
      (after = [] ∧ list = before ∧ last = item) ∨
        ∃ rest, after = rest ++ [last] ∧ list = before ++ item :: rest := by
  constructor
  · intro same
    rcases after.eq_nil_or_concat with rfl | ⟨rest, final, rfl⟩
    · obtain ⟨equal, ends⟩ := List.append_inj' same rfl
      exact .inl ⟨rfl, equal, List.singleton_inj.mp ends⟩
    · rw [List.concat_eq_append, ← List.cons_append, ← List.append_assoc] at same
      obtain ⟨equal, ends⟩ := List.append_inj' same rfl
      exact .inr ⟨rest, by rw [List.concat_eq_append, ends], equal⟩
  · rintro (⟨rfl, rfl, rfl⟩ | ⟨rest, rfl, rfl⟩)
    · rfl
    · simp

theorem concat_eq_append_cons {α : Type} {list before after : List α} {last item : α}
    (same : list ++ [last] = before ++ item :: after) :
    (list = before ∧ last = item) ∨ ∃ rest, list = before ++ item :: rest :=
  (concat_eq_append_cons_iff.mp same).imp And.right fun ⟨rest, _, equal⟩ => ⟨rest, equal⟩

theorem Prolongs.keeps (prolongs : Prolongs texts more) {earlier later : List (List Char)}
    {text : List Char} (same : texts = earlier ++ text :: later) :
    ∃ added others, more = earlier ++ (text ++ added) :: others := by
  obtain ⟨closed, last, added, others, rfl, rfl⟩ := prolongs
  rcases concat_eq_append_cons same with ⟨rfl, rfl⟩ | ⟨later, rfl⟩
  · exact ⟨added, others, rfl⟩
  · exact ⟨[], later ++ (last ++ added) :: others, by simp⟩

theorem unbroken_concat {closed : List (List Char)} (same : closed.flatten = before) :
    Unbroken (closed ++ [word]) before word :=
  ⟨closed, [], [], [], by simp, by rw [List.append_nil, same]⟩

theorem Unbroken.prolong (unbroken : Unbroken texts before word) (prolongs : Prolongs texts more) :
    Unbroken more before word := by
  obtain ⟨earlier, first, rest, later, same, whole⟩ := unbroken
  obtain ⟨added, others, rfl⟩ := prolongs.keeps same
  exact ⟨earlier, first, rest ++ added, others, by simp, whole⟩

theorem Broken.prolong (broken : Broken texts before word) (prolongs : Prolongs texts more) :
    Broken more before word := by
  obtain ⟨earlier, own, last, rest, later, same, whole⟩ := broken
  obtain ⟨added, others, rfl⟩ := prolongs.keeps same
  exact ⟨earlier, own, last, rest ++ added, others, by simp, whole⟩

namespace Wrapping

variable {long : List Char → Prop} {words : List (List Char)} {rows : List (List (List Char))}
  {row : List (List Char)}

theorem filled (wrapping : Wrapping long words rows row) (some : words ≠ []) : row ≠ [] := by
  cases wrapping with
  | start => exact absurd rfl some
  | joined word => simp
  | begun word => exact List.cons_ne_nil word []
  | split _ _ _ filled => exact filled

theorem flatten_leaves {broken : List (List (List Char))} (leaves : Leaves row broken) :
    broken.flatten = row := by
  rcases leaves with ⟨rfl, rfl⟩ | rfl
  · rfl
  · simp

theorem texts_leaves {broken : List (List (List Char))} (leaves : Leaves row broken) :
    (broken.map List.flatten).flatten = row.flatten := by
  rw [← List.flatten_flatten, flatten_leaves leaves]

-- Rows that are left are closed or have nothing on them.
theorem prolongs_leaves {broken : List (List (List Char))} (leaves : Leaves row broken)
    (rows : List (List (List Char))) (text : List Char) (others : List (List Char)) :
    Prolongs ((rows ++ [row]).map List.flatten) ((rows ++ broken).map List.flatten ++ text :: others) := by
  rcases leaves with ⟨rfl, rfl⟩ | rfl
  · exact ⟨rows.map List.flatten, [], text, others, by simp, by simp⟩
  · exact ⟨rows.map List.flatten, row.flatten, [], text :: others, by simp, by simp⟩

-- Letters have no empty texts.
theorem letters_spell {own : List (List (List Char))} {last : List (List Char)} {word : List Char}
    (letters : own.flatten ++ last = word.map ([·])) :
    (own.map List.flatten).flatten ++ last.flatten = word ∧ (last ≠ [] → last.flatten ≠ []) := by
  constructor
  · rw [← List.flatten_flatten, ← List.flatten_append, letters, ← List.flatMap_def,
      List.flatMap_singleton']
  · intro some blank
    rw [List.flatten_eq_nil_iff] at blank
    obtain ⟨letter, rest, rfl⟩ := List.exists_cons_of_ne_nil some
    have member : letter ∈ word.map ([·]) := by simp [← letters]
    obtain ⟨c, -, rfl⟩ := List.mem_map.mp member
    exact List.cons_ne_nil c [] (blank [c] List.mem_cons_self)

theorem divides (wrapping : Wrapping long words rows row) :
    Divides long words (rows ++ [row]).flatten := by
  induction wrapping with
  | start => exact ⟨[], .nil, rfl⟩
  | joined word wrapping ih =>
    obtain ⟨divided, parts, same⟩ := ih
    refine ⟨divided ++ [[word]], List.rel_append parts (.cons (.inl rfl) .nil), ?_⟩
    simp [← same]
  | begun word leaves wrapping ih =>
    obtain ⟨divided, parts, same⟩ := ih
    refine ⟨divided ++ [[word]], List.rel_append parts (.cons (.inl rfl) .nil), ?_⟩
    simp [← same, flatten_leaves leaves]
  | @split words rows broken own row last word leaves overlong letters some wrapping ih =>
    obtain ⟨divided, parts, same⟩ := ih
    refine ⟨divided ++ [word.map ([·])],
      List.rel_append parts (.cons (.inr ⟨overlong, rfl⟩) .nil), ?_⟩
    simp [← same, flatten_leaves leaves, ← letters]

theorem texts_flatten (wrapping : Wrapping long words rows row) :
    (rows.map List.flatten).flatten ++ row.flatten = words.flatten := by
  induction wrapping with
  | start => rfl
  | joined word wrapping ih => simp [← ih]
  | begun word leaves wrapping ih => simp [← ih, texts_leaves leaves]
  | split leaves overlong letters some wrapping ih =>
    simp [← ih, texts_leaves leaves, ← (letters_spell letters).1]

theorem closed_flatten {broken : List (List (List Char))} (wrapping : Wrapping long words rows row)
    (leaves : Leaves row broken) : ((rows ++ broken).map List.flatten).flatten = words.flatten := by
  rw [List.map_append, List.flatten_append, texts_leaves leaves, wrapping.texts_flatten]

/-- A word stays in one text, unless it is overlong. -/
theorem places (wrapping : Wrapping long words rows row) {before after : List (List Char)}
    {word : List Char} (split : words = before ++ word :: after) :
    Unbroken ((rows ++ [row]).map List.flatten) before.flatten word ∨
      long word ∧ Broken ((rows ++ [row]).map List.flatten) before.flatten word := by
  induction wrapping generalizing after with
  | start => simp at split
  | @joined words rows row added wrapping ih =>
    have prolongs : Prolongs ((rows ++ [row]).map List.flatten)
        ((rows ++ [row ++ [added]]).map List.flatten) :=
      ⟨rows.map List.flatten, row.flatten, added, [], by simp, by simp⟩
    rcases concat_eq_append_cons split with ⟨rfl, rfl⟩ | ⟨rest, earlier⟩
    · exact .inl ⟨rows.map List.flatten, row.flatten, [], [], by simp, wrapping.texts_flatten⟩
    · exact (ih earlier).imp (·.prolong prolongs) (.imp id (·.prolong prolongs))
  | @begun words rows broken row added leaves wrapping ih =>
    have prolongs := prolongs_leaves leaves rows added []
    have texts : (rows ++ broken ++ [[added]]).map List.flatten =
        (rows ++ broken).map List.flatten ++ [added] := by simp
    rw [texts]
    rcases concat_eq_append_cons split with ⟨rfl, rfl⟩ | ⟨rest, earlier⟩
    · exact .inl (unbroken_concat (wrapping.closed_flatten leaves))
    · exact (ih earlier).imp (·.prolong prolongs) (.imp id (·.prolong prolongs))
  | @split words rows broken own row last added leaves overlong letters some wrapping ih =>
    obtain ⟨spelled, filled⟩ := letters_spell letters
    have texts : (rows ++ broken ++ own ++ [last]).map List.flatten =
        (rows ++ broken).map List.flatten ++ own.map List.flatten ++ [last.flatten] := by simp
    rw [texts]
    rcases concat_eq_append_cons split with ⟨rfl, rfl⟩ | ⟨rest, earlier⟩
    · -- A word whose letters all find room on one row is not split after all.
      by_cases whole : own = []
      · subst whole
        rw [List.map_nil, List.append_nil, ← spelled]
        exact .inl (unbroken_concat (wrapping.closed_flatten leaves))
      · exact .inr ⟨overlong, _, own.map List.flatten, last.flatten, [], [], by simp,
          wrapping.closed_flatten leaves, spelled, by simpa using whole, filled some⟩
    · have prolongs : Prolongs ((rows ++ [row]).map List.flatten)
          ((rows ++ broken).map List.flatten ++ own.map List.flatten ++ [last.flatten]) := by
        rcases own with _ | ⟨first, others⟩
        · simpa using prolongs_leaves leaves rows last.flatten []
        · simpa using prolongs_leaves leaves rows first.flatten
            (others.map List.flatten ++ [last.flatten])
      exact (ih earlier).imp (·.prolong prolongs) (.imp id (·.prolong prolongs))

end Wrapping

end Letterhead.Text
