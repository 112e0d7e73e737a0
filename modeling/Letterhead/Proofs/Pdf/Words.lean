import Letterhead.Pdf.Scan
import Mathlib.Data.List.Chain
import Mathlib.Data.List.Induction

/-!
Words in data, which white space divides. When data are put together, the words stay what they are,
except that where the one ends and the other begins without white space, two words become one.
-/

namespace Letterhead.Pdf

def wordsOf (data : Bytes) : List Bytes := (data.splitOnP isSpacing).filter (· ≠ [])

/-- The one ends with a word, and the other begins with one. -/
def Touch (first second : Bytes) : Prop :=
  (∃ byte ∈ first.getLast?, isSpacing byte = false) ∧ ∃ byte ∈ second.head?, isSpacing byte = false

instance (first second : Bytes) : Decidable (Touch first second) :=
  inferInstanceAs (Decidable (_ ∧ _))

variable {first second data word : Bytes}

/-! ### Words -/

theorem wordsOf_append_cons {byte : UInt8} (spacing : isSpacing byte = true) (first rest : Bytes) :
    wordsOf (first ++ byte :: rest) = wordsOf first ++ wordsOf rest := by
  rw [wordsOf, List.splitOnP_append_cons first rest spacing, List.filter_append]
  rfl

theorem wordsOf_of_plain (plain : ∀ byte ∈ word, isSpacing byte = false) (nonempty : word ≠ []) :
    wordsOf word = [word] := by
  rw [wordsOf, List.splitOnP_eq_singleton plain]
  simp [nonempty]

-- The letters of the words are all that is not white space.
theorem flatten_wordsOf (data : Bytes) :
    (wordsOf data).flatten = data.filter fun byte => !isSpacing byte := by
  rw [wordsOf, List.flatten_filter_ne_nil]
  induction data with
  | nil => rfl
  | cons byte rest ih =>
    rw [List.splitOnP_cons_eq_if_modifyHead]
    obtain ⟨piece, pieces, found⟩ := List.exists_cons_of_ne_nil (List.splitOnP_ne_nil isSpacing rest)
    rw [found, List.flatten_cons] at ih
    rcases spacing : isSpacing byte <;> simp [found, ih, spacing]

/-! ### Two pieces of data -/

theorem wordsOf_append_of_not_touch (apart : ¬ Touch first second) :
    wordsOf (first ++ second) = wordsOf first ++ wordsOf second := by
  rcases second with _ | ⟨next, rest⟩
  · simp [wordsOf]
  · rcases first.eq_nil_or_concat with rfl | ⟨before, last, rfl⟩
    · rfl
    · rw [List.concat_eq_append] at apart ⊢
      rcases ending : isSpacing last
      · -- The space is at the beginning of the second.
        rcases beginning : isSpacing next
        · exact absurd ⟨⟨last, by simp, ending⟩, next, rfl, beginning⟩ apart
        · rw [wordsOf_append_cons beginning]
          exact congrArg (wordsOf (before ++ [last]) ++ ·) (wordsOf_append_cons beginning [] rest).symm
      · rw [List.append_assoc, List.singleton_append, wordsOf_append_cons ending,
          wordsOf_append_cons ending]
        simp [wordsOf]

theorem exists_last_word (ends : ∃ byte ∈ data.getLast?, isSpacing byte = false) :
    ∃ before word, data = before ++ word ∧ word ≠ [] ∧ (∀ byte ∈ word, isSpacing byte = false) ∧
      ∀ byte ∈ before.getLast?, isSpacing byte = true := by
  induction data using List.reverseRecOn with
  | nil => simp at ends
  | append_singleton before last ih =>
    have plain : isSpacing last = false := by simpa using ends
    by_cases inside : ∃ byte ∈ before.getLast?, isSpacing byte = false
    · obtain ⟨earlier, word, rfl, -, letters, apart⟩ := ih inside
      refine ⟨earlier, word ++ [last], by simp, by simp, ?_, apart⟩
      simpa [or_imp, forall_and, plain] using letters
    · exact ⟨before, [last], rfl, by simp, by simpa using plain, by simpa using inside⟩

theorem exists_first_word (begins : ∃ byte ∈ data.head?, isSpacing byte = false) :
    ∃ word after, data = word ++ after ∧ word ≠ [] ∧ (∀ byte ∈ word, isSpacing byte = false) ∧
      ∀ byte ∈ after.head?, isSpacing byte = true := by
  induction data with
  | nil => simp at begins
  | cons next after ih =>
    have plain : isSpacing next = false := by simpa using begins
    by_cases inside : ∃ byte ∈ after.head?, isSpacing byte = false
    · obtain ⟨word, rest, rfl, -, letters, apart⟩ := ih inside
      refine ⟨next :: word, rest, rfl, by simp, ?_, apart⟩
      simpa [plain] using letters
    · exact ⟨[next], after, rfl, by simp, by simpa using plain, by simpa using inside⟩

/-- The last word of the one and the first of the other become one. -/
theorem wordsOf_append_of_touch (touch : Touch first second) :
    ∃ before last next after, wordsOf first = before ++ [last] ∧ wordsOf second = next :: after ∧
      wordsOf (first ++ second) = before ++ (last ++ next) :: after := by
  obtain ⟨before, last, rfl, lastNonempty, lettersLast, above⟩ := exists_last_word touch.1
  obtain ⟨next, after, rfl, nextNonempty, lettersNext, below⟩ := exists_first_word touch.2
  have begins (rest : Bytes) : ¬ Touch before rest := by
    rintro ⟨⟨byte, ending, plain⟩, -⟩
    simp [above byte ending] at plain
  have ends (earlier : Bytes) : ¬ Touch earlier after := by
    rintro ⟨-, byte, beginning, plain⟩
    simp [below byte beginning] at plain
  have joined : ∀ byte ∈ last ++ next, isSpacing byte = false := by
    simpa [or_imp, forall_and] using ⟨lettersLast, lettersNext⟩
  refine ⟨wordsOf before, last, next, wordsOf after, ?_, ?_, ?_⟩
  · rw [wordsOf_append_of_not_touch (begins last), wordsOf_of_plain lettersLast lastNonempty]
  · rw [wordsOf_append_of_not_touch (ends next), wordsOf_of_plain lettersNext nextNonempty]
    rfl
  · rw [List.append_assoc, ← List.append_assoc last, wordsOf_append_of_not_touch (begins _),
      wordsOf_append_of_not_touch (ends _), wordsOf_of_plain joined (by simp [lastNonempty])]
    rfl

/-! ### Many pieces of data -/

/-- No word touches the next one across the border of two pieces, passing over those that are empty. -/
def Separate (pieces : List Bytes) : Prop :=
  (pieces.filter (· ≠ [])).IsChain fun first second => ¬ Touch first second

instance (pieces : List Bytes) : Decidable (Separate pieces) :=
  inferInstanceAs (Decidable (List.IsChain _ _))

theorem touch_flatten_iff (pieces : List Bytes) :
    Touch first pieces.flatten ↔ ∃ second ∈ (pieces.filter (· ≠ [])).head?, Touch first second := by
  induction pieces with
  | nil => simp [Touch]
  | cons piece rest ih =>
    rcases piece with _ | ⟨byte, piece⟩
    · simpa using ih
    · simp [Touch]

theorem separate_cons_iff {piece : Bytes} (nonempty : piece ≠ []) (pieces : List Bytes) :
    Separate (piece :: pieces) ↔ ¬ Touch piece pieces.flatten ∧ Separate pieces := by
  rw [touch_flatten_iff, Separate, List.filter_cons_of_pos (by simpa using nonempty), List.isChain_cons]
  simp [Separate]

theorem length_wordsOf_flatten_le (pieces : List Bytes) :
    (wordsOf pieces.flatten).length ≤ (pieces.flatMap wordsOf).length := by
  induction pieces with
  | nil => exact Nat.le_refl _
  | cons piece rest ih =>
    rw [List.flatten_cons, List.flatMap_cons, List.length_append]
    by_cases touch : Touch piece rest.flatten
    · obtain ⟨before, last, next, after, one, two, both⟩ := wordsOf_append_of_touch touch
      rw [two] at ih
      rw [both, one]
      simp only [List.length_append, List.length_cons, List.length_nil] at ih ⊢
      omega
    · rw [wordsOf_append_of_not_touch touch, List.length_append]
      omega

theorem wordsOf_flatten_eq_iff (pieces : List Bytes) :
    wordsOf pieces.flatten = pieces.flatMap wordsOf ↔ Separate pieces := by
  induction pieces with
  | nil => simp [wordsOf, Separate]
  | cons piece rest ih =>
    rcases eq_or_ne piece [] with rfl | nonempty
    · simpa [Separate, wordsOf] using ih
    · rw [separate_cons_iff nonempty, List.flatten_cons, List.flatMap_cons]
      by_cases touch : Touch piece rest.flatten
      · -- One word fewer than there should be.
        obtain ⟨before, last, next, after, one, two, both⟩ := wordsOf_append_of_touch touch
        have fewer := length_wordsOf_flatten_le rest
        refine iff_of_false (fun same => ?_) fun separate => separate.1 touch
        have count := congrArg List.length same
        rw [two] at fewer
        rw [both, one] at count
        simp only [List.length_append, List.length_cons, List.length_nil] at fewer count
        omega
      · rw [wordsOf_append_of_not_touch touch, List.append_right_inj, ih]
        exact (and_iff_right touch).symm

theorem flatten_wordsOf_flatten (pieces : List Bytes) :
    (wordsOf pieces.flatten).flatten = (pieces.flatMap wordsOf).flatten := by
  induction pieces with
  | nil => rfl
  | cons piece rest ih =>
    rw [List.flatMap_cons, List.flatten_append, ← ih]
    simp only [flatten_wordsOf, List.flatten_cons, List.filter_append]

end Letterhead.Pdf
