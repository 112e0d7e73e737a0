import Letterhead.Decimal.Plain
import Mathlib.Data.List.Basic

/-!
What the text of a float is made of: figures, with a sign before them if it is negative, or a word
if it is no finite number. The text is never empty, as the digits of a positive number are not all
zeros.
-/

namespace Letterhead.Decimal

theorem stripZeros_suffix (reversed : List Char) (exponent : Int) :
    ∀ c ∈ (stripZeros reversed exponent).1, c ∈ reversed := by
  fun_induction stripZeros reversed exponent with
  | case1 exponent rest ih => exact fun c member => List.mem_cons_of_mem _ (ih c member)
  | case2 exponent reversed _ => exact fun c member => List.mem_reverse.mp member

-- Only zeros are stripped, and the exponent counts them.
theorem stripZeros_eq_nil {reversed : List Char} {exponent : Int}
    (gone : (stripZeros reversed exponent).1 = []) :
    (∀ c ∈ reversed, c = '0') ∧ (stripZeros reversed exponent).2 = exponent + reversed.length := by
  fun_induction stripZeros reversed exponent with
  | case1 exponent rest ih =>
    obtain ⟨zeros, counted⟩ := ih gone
    refine ⟨List.forall_mem_cons.mpr ⟨rfl, zeros⟩, ?_⟩
    rw [counted, List.length_cons]
    omega
  | case2 exponent reversed _ =>
    obtain rfl := List.reverse_eq_nil_iff.mp gone
    exact ⟨List.forall_mem_nil _, (Int.add_zero _).symm⟩

theorem ofDigitChars_zeros {digits : List Char} (zeros : ∀ c ∈ digits, c = '0') :
    Nat.ofDigitChars 10 digits 0 = 0 := by
  induction digits with
  | nil => rfl
  | cons c rest ih =>
    obtain ⟨rfl, later⟩ := List.forall_mem_cons.mp zeros
    exact ih later

theorem toDigits_of_zeros {n : Nat} (zeros : ∀ c ∈ Nat.toDigits 10 n, c = '0') : n = 0 := by
  have read : Nat.ofDigitChars 10 (Nat.toDigits 10 n) 0 = n := by simp
  rw [← read, ofDigitChars_zeros zeros]

theorem layout_eq_nil {digits : List Char} {exponent : Int} (gone : layout digits exponent = []) :
    digits = [] ∧ exponent = 0 := by
  simp only [layout] at gone
  split at gone
  · obtain ⟨none_given, none_added⟩ := List.append_eq_nil_iff.mp gone
    have still : exponent.toNat = 0 := by simpa using none_added
    exact ⟨none_given, by omega⟩
  · split at gone <;> simp at gone

-- Digits and zeros, with at most a point among them.
theorem mem_layout {digits : List Char} {exponent : Int} {c : Char} (member : c ∈ layout digits exponent) :
    c ∈ digits ∨ c = '0' ∨ c = '.' := by
  simp only [layout] at member
  split at member
  · rcases List.mem_append.mp member with given | added
    · exact .inl given
    · exact .inr (.inl (List.eq_of_mem_replicate added))
  · split at member
    · rcases List.mem_append.mp member with whole | broken
      · exact .inl (List.mem_of_mem_take whole)
      · rcases List.mem_cons.mp broken with rfl | fraction
        · exact .inr (.inr rfl)
        · exact .inl (List.mem_of_mem_drop fraction)
    · simp only [List.mem_cons, List.mem_append] at member
      rcases member with rfl | rfl | added | given
      · exact .inr (.inl rfl)
      · exact .inr (.inr rfl)
      · exact .inr (.inl (List.eq_of_mem_replicate added))
      · exact .inl given

def IsFigure (c : Char) : Prop := c.isDigit = true ∨ c = '.'

theorem plain_figures (decimal : Digits) : ∀ c ∈ decimal.plain, IsFigure c := by
  intro c member
  rcases mem_layout member with given | rfl | rfl
  · have digit := List.mem_reverse.mp (stripZeros_suffix _ _ c given)
    exact .inl (Nat.isDigit_of_mem_toDigits (by decide) (by decide) digit)
  · exact .inl rfl
  · exact .inr rfl

theorem plain_eq_nil {decimal : Digits} (gone : decimal.plain = []) :
    decimal.digits = 0 ∧ decimal.exponent = -1 := by
  obtain ⟨stripped, still⟩ := layout_eq_nil gone
  obtain ⟨zeros, counted⟩ := stripZeros_eq_nil stripped
  have none_left : decimal.digits = 0 := toDigits_of_zeros fun c member => zeros c (List.mem_reverse.mpr member)
  refine ⟨none_left, ?_⟩
  rw [counted, none_left] at still
  simp at still
  omega

theorem readsBack_of_pick {value : Binary} {below above decimal : Digits}
    (found : value.pick below above = some decimal) : value.readsBack decimal = true := by
  rw [Binary.pick] at found
  split at found
  · cases found
  · rename_i lower _
    cases found
    exact lower
  · rename_i upper
    cases found
    exact upper
  · rename_i lower upper
    split at found <;> cases found
    · exact lower
    · exact upper

theorem shortest_cases (value : Binary) :
    value.readsBack value.shortest = true ∨ value.shortest = value.spare := by
  rw [Binary.shortest]
  cases same : (List.range' 1 9).findSome? value.candidate with
  | none => exact .inr Option.getD_none
  | some decimal =>
    obtain ⟨count, -, given⟩ := List.exists_of_findSome?_eq_some same
    rw [Binary.candidate, Binary.onGrid] at given
    rw [Option.getD_some]
    exact .inl (readsBack_of_pick given)

-- Zero is below all that rounds to a positive number.
theorem readsBack_ne_zero {value : Binary} {decimal : Digits} (positive : 0 < value.mantissa)
    (back : value.readsBack decimal = true) : decimal.digits ≠ 0 := by
  intro zero
  have below (low : Nat) (some_left : 0 < low) (i j : Int) : compareScaled 0 i low j = .lt := by
    rw [compareScaled, Nat.zero_mul, Nat.zero_mul]
    exact Nat.compare_eq_lt.mpr (Nat.mul_pos (Nat.mul_pos some_left (Nat.pow_pos (by decide)))
      (Nat.pow_pos (by decide)))
  rw [Binary.readsBack, zero] at back
  rw [below _ (by split <;> omega)] at back
  simp at back

theorem plain_shortest_ne_nil {value : Binary} (positive : 0 < value.mantissa) :
    value.shortest.plain ≠ [] := by
  intro gone
  obtain ⟨none_left, once⟩ := plain_eq_nil gone
  rcases shortest_cases value with back | spare
  · exact readsBack_ne_zero positive back none_left
  · rw [spare, Binary.spare] at none_left once
    simp only at none_left once
    rw [Binary.floorAt, once] at none_left
    simp at none_left
    omega

theorem mantissa_pos {bits : UInt32} (small : bits < 0x80000000) (some_left : bits ≠ 0) :
    0 < (Binary.ofBits bits).mantissa := by
  rw [Binary.ofBits]
  have field : ((bits >>> 23) &&& 0xFF).toNat = bits.toNat / 2 ^ 23 % 2 ^ 8 := by
    rw [UInt32.toNat_and, UInt32.toNat_shiftRight, Nat.shiftRight_eq_div_pow]
    exact Nat.and_two_pow_sub_one_eq_mod _ 8
  have fraction : (bits &&& 0x7FFFFF).toNat = bits.toNat % 2 ^ 23 := by
    rw [UInt32.toNat_and]
    exact Nat.and_two_pow_sub_one_eq_mod _ 23
  have below : bits.toNat < 2 ^ 31 := small
  have above : bits.toNat ≠ 0 := fun zero => some_left (UInt32.toNat_inj.mp zero)
  rw [field, fraction]
  split
  · rename_i denormal
    show 0 < bits.toNat % 2 ^ 23
    omega
  · exact Nat.lt_of_lt_of_le (by decide) (Nat.le_add_right _ _)

theorem magnitude_cases (value : Float32) :
    magnitude value = ['i', 'n', 'f'] ∨ magnitude value ≠ [] ∧ ∀ c ∈ magnitude value, IsFigure c := by
  rw [magnitude]
  split
  · exact .inr ⟨nofun, by simp [IsFigure]⟩
  · rename_i some_left
    split
    · exact .inl rfl
    · have small : value.toBits &&& 0x7FFFFFFF < 0x80000000 := by
        rw [UInt32.lt_iff_toNat_lt, UInt32.toNat_and]
        exact Nat.lt_of_le_of_lt Nat.and_le_right (by decide)
      have positive := mantissa_pos small (by simpa using some_left)
      exact .inr ⟨plain_shortest_ne_nil positive, plain_figures _⟩

/-- A number is written in figures, with a sign before them if it is negative. -/
theorem write_cases (value : Float32) :
    write value = ['N', 'a', 'N'] ∨ ∃ sign body, write value = sign ++ body ∧ (sign = [] ∨ sign = ['-']) ∧
      (body = ['i', 'n', 'f'] ∨ body ≠ [] ∧ ∀ c ∈ body, IsFigure c) := by
  rw [write]
  split
  · exact .inl rfl
  · right
    split
    · exact ⟨['-'], magnitude value, rfl, .inr rfl, magnitude_cases value⟩
    · exact ⟨[], magnitude value, rfl, .inl rfl, magnitude_cases value⟩

end Letterhead.Decimal
