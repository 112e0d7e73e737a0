import Letterhead.Json.Record
import Letterhead.Json.Value

/-!
What is read back of what was written. A string comes back whole, whatever its characters. A number
that takes up a whole text is also read from the front of a longer one, if that does not go on as a
number.
-/

namespace Letterhead.Json

theorem bind_eq_ok {α β : Type} {first : Except Fault α} {next : α → Except Fault β} {result : β} :
    first >>= next = .ok result ↔ ∃ value, first = .ok value ∧ next value = .ok result := by
  cases first with
  | error fault => exact ⟨nofun, nofun⟩
  | ok value => exact ⟨fun read => ⟨value, rfl, read⟩, by rintro ⟨_, ⟨⟩, read⟩; exact read⟩

theorem ok_bind {α β : Type} (value : α) (next : α → Except Fault β) :
    (Except.ok value >>= next) = next value := rfl

/-! ### Numbers -/

/-- A numeral in front of the text ends where the text begins. -/
def EndsNumeral (rest : List Char) : Prop :=
  ∀ c ∈ rest.head?, Decimal.isDigit c = false ∧ c ≠ '.' ∧ c ≠ 'e' ∧ c ≠ 'E'

/-- What the reader takes off a text it also takes off a longer one. -/
def Local {α : Type} (reader : List Char → Except Fault (α × List Char)) : Prop :=
  ∀ {text later rest found}, EndsNumeral rest → reader text = .ok (found, later) →
    reader (text ++ rest) = .ok (found, later ++ rest)

theorem takeWhile_append (text : List Char) {rest : List Char} (ends : EndsNumeral rest) :
    (text ++ rest).takeWhile Decimal.isDigit = text.takeWhile Decimal.isDigit ∧
      (text ++ rest).dropWhile Decimal.isDigit = text.dropWhile Decimal.isDigit ++ rest := by
  induction text with
  | nil =>
    cases rest with
    | nil => exact ⟨rfl, rfl⟩
    | cons c tail => simp [(ends c rfl).1]
  | cons c tail ih =>
    by_cases digit : Decimal.isDigit c = true
    · simpa [digit] using ih
    · simp [digit]

theorem local_digits : Local digits := by
  intro text later rest found ends read
  obtain ⟨taken, left⟩ := takeWhile_append text ends
  rw [digits] at read ⊢
  rw [taken, left]
  split at read
  · cases read
  · rename_i some
    cases read
    rw [if_neg some]

theorem local_wholePart : Local wholePart := by
  intro text later rest whole ends read
  obtain ⟨⟨found, after⟩, first, second⟩ := bind_eq_ok.mp read
  rw [wholePart, local_digits ends first, ok_bind]
  dsimp only at second ⊢
  split at second
  · cases second
  · cases second
    rfl

theorem fractionPart_of_ne {c : Char} (plain : c ≠ '.') (text : List Char) :
    fractionPart (c :: text) = .ok (none, c :: text) := by
  rw [fractionPart]
  rintro _ ⟨⟩
  exact plain rfl

theorem local_fractionPart : Local fractionPart := by
  intro text later rest found ends read
  match text with
  | [] =>
    cases read
    cases rest with
    | nil => rfl
    | cons c tail => exact fractionPart_of_ne (ends c rfl).2.1 tail
  | c :: tail =>
    by_cases point : c = '.'
    · subst point
      obtain ⟨⟨fraction, after⟩, first, second⟩ := bind_eq_ok.mp read
      cases second
      rw [List.cons_append, fractionPart, local_digits ends first, ok_bind]
    · rw [fractionPart_of_ne point] at read
      cases read
      exact fractionPart_of_ne point _

theorem sign_append {c : Char} (text rest : List Char) :
    Decimal.sign (c :: text ++ rest) =
      ((Decimal.sign (c :: text)).1, (Decimal.sign (c :: text)).2 ++ rest) := by
  by_cases minus : c = '-'
  · subst minus
    rfl
  · by_cases plus : c = '+'
    · subst plus
      rfl
    · simp [Decimal.sign, minus, plus]

theorem local_exponentPart : Local exponentPart := by
  intro text later rest found ends read
  match text with
  | [] =>
    cases read
    cases rest with
    | nil => rfl
    | cons c tail =>
      obtain ⟨-, -, small, great⟩ := ends c rfl
      simp [exponentPart, small, great]
  | mark :: tail =>
    rw [List.cons_append]
    rw [exponentPart] at read ⊢
    split at read
    · rename_i isMark
      rw [if_pos isMark]
      cases tail with
      | nil => cases read
      | cons c tail =>
        rw [sign_append]
        generalize Decimal.sign (c :: tail) = signed at read ⊢
        obtain ⟨negative, unsigned⟩ := signed
        obtain ⟨⟨written, after⟩, first, second⟩ := bind_eq_ok.mp read
        cases second
        dsimp only
        rw [local_digits ends first, ok_bind]
    · rename_i plain
      rw [if_neg plain]
      cases read
      rfl

theorem minus_append {c : Char} (text rest : List Char) :
    minus (c :: text ++ rest) = ((minus (c :: text)).1, (minus (c :: text)).2 ++ rest) := by
  by_cases dash : c = '-'
  · subst dash
    rfl
  · simp [minus, dash]

theorem local_numeral : Local numeral := by
  intro text later rest found ends read
  cases text with
  | nil => cases read
  | cons c tail =>
    rw [numeral] at read ⊢
    rw [minus_append]
    generalize minus (c :: tail) = signed at read ⊢
    obtain ⟨negative, unsigned⟩ := signed
    obtain ⟨⟨whole, one⟩, first, read⟩ := bind_eq_ok.mp read
    obtain ⟨⟨fraction, two⟩, second, read⟩ := bind_eq_ok.mp read
    obtain ⟨⟨exponent, three⟩, third, read⟩ := bind_eq_ok.mp read
    cases read
    dsimp only
    rw [local_wholePart ends first, ok_bind]
    dsimp only
    rw [local_fractionPart ends second, ok_bind]
    dsimp only
    rw [local_exponentPart ends third, ok_bind]

theorem local_number : Local number := by
  intro text later rest found ends read
  obtain ⟨⟨numeral, after⟩, first, second⟩ := bind_eq_ok.mp read
  rw [number, local_numeral ends first, ok_bind]
  dsimp only at second ⊢
  split at second
  · cases second
    rfl
  · cases second

theorem local_float : Local float := by
  intro text later rest found ends read
  rw [float] at read ⊢
  rw [afterBlanks, List.dropWhile_append]
  rcases blanks : afterBlanks text with _ | ⟨c, tail⟩ <;> rw [blanks] at read
  · cases read
  · rw [afterBlanks] at blanks
    rw [blanks]
    simp only [List.isEmpty_cons, Bool.false_eq_true, if_false, List.cons_append] at read ⊢
    split at read
    · rename_i starts
      rw [if_pos starts]
      exact local_number ends read
    · cases read

/-- The number is printed as a text that is read as the number. -/
def ReadsBack (print : Float32 → List Char) (value : Float32) : Prop :=
  float (print value) = .ok (value, [])

theorem ReadsBack.append {print : Float32 → List Char} {value : Float32}
    (back : ReadsBack print value) {rest : List Char} (ends : EndsNumeral rest) :
    float (print value ++ rest) = .ok (value, rest) := local_float ends back

/-! ### Strings -/

theorem quoted_end (rest : List Char) : quoted ('"' :: rest) = .ok ([], rest) := by
  rw [quoted, if_pos rfl]

theorem quoted_plain {c : Char} (isPlain : c ≠ '"' ∧ c ≠ '\\' ∧ ¬ c < ' ') (rest : List Char) :
    quoted (c :: rest) = quoted rest >>= fun read => .ok (c :: read.1, read.2) := by
  rw [quoted, if_neg isPlain.1, if_neg isPlain.2.1, if_neg isPlain.2.2]

theorem quoted_escaped {meant : Char} {text rest : List Char} (read : escape text = .ok (meant, rest)) :
    quoted ('\\' :: text) = quoted rest >>= fun read => .ok (meant :: read.1, read.2) := by
  rw [quoted, if_neg (by decide), if_pos rfl]
  split
  · rename_i failed
    cases read.symm.trans failed
  · rename_i found
    cases read.symm.trans found
    rfl

theorem lookup_shortEscapes : ∀ pair ∈ shortEscapes, shortEscapes.lookup pair.1 = some pair.2 := by
  decide

theorem hexValue?_hexLetter : ∀ n < 16, hexValue? (hexLetter n) = some n := by
  decide

theorem escape_control {c : Char} (control : c < ' ') (rest : List Char) :
    escape ('u' :: '0' :: '0' :: hexLetter (c.toNat / 16) :: hexLetter (c.toNat % 16) :: rest) =
      .ok (c, rest) := by
  have small : c.toNat < 32 := control
  have high := hexValue?_hexLetter (c.toNat / 16) (by omega)
  have low := hexValue?_hexLetter (c.toNat % 16) (by omega)
  have zero : hexValue? '0' = some 0 := by decide
  have unit : codeUnit ('0' :: '0' :: hexLetter (c.toNat / 16) :: hexLetter (c.toNat % 16) :: rest) =
      .ok (c.toNat, rest) := by
    simp [codeUnit, zero, high, low]
    omega
  have noLow : isLowSurrogate c.toNat = false := by
    simp [isLowSurrogate]
    omega
  have noHigh : isHighSurrogate c.toNat = false := by
    simp [isHighSurrogate]
    omega
  have unknown : shortEscapes.lookup 'u' = none := by decide
  simp [escape, unknown, escapedUnit, unit, ok_bind, noLow, noHigh]

theorem quoted_quotedChar (c : Char) (rest : List Char) :
    quoted (quotedChar c ++ rest) = quoted rest >>= fun read => .ok (c :: read.1, read.2) := by
  rw [quotedChar]
  split
  · rename_i pair found
    have member := List.mem_of_find?_eq_some found
    have isMeant := List.find?_some found
    simp only [Bool.and_eq_true, decide_eq_true_eq] at isMeant
    obtain ⟨rfl, -⟩ := isMeant
    have read : escape (pair.1 :: rest) = .ok (pair.2, rest) := by
      rw [escape, lookup_shortEscapes pair member]
    exact quoted_escaped read
  · rename_i missed
    have absent := List.find?_eq_none.mp missed
    have noQuote : c ≠ '"' := by
      rintro rfl
      exact absurd (absent ('"', '"') (by decide)) (by decide)
    have noSlash : c ≠ '\\' := by
      rintro rfl
      exact absurd (absent ('\\', '\\') (by decide)) (by decide)
    split
    · rename_i control
      exact quoted_escaped (escape_control control rest)
    · rename_i printed
      exact quoted_plain ⟨noQuote, noSlash, printed⟩ rest

theorem quoted_flatMap (text rest : List Char) :
    quoted (text.flatMap quotedChar ++ '"' :: rest) = .ok (text, rest) := by
  induction text with
  | nil => exact quoted_end rest
  | cons c tail ih =>
    rw [List.flatMap_cons, List.append_assoc, quoted_quotedChar, ih, ok_bind]

theorem quotedText_append (text rest : List Char) :
    quotedText text ++ rest = '"' :: (text.flatMap quotedChar ++ '"' :: rest) := by
  simp [quotedText]

/-- Whatever the characters of a string, it is read back as it was written. -/
theorem string_quotedText (text rest : List Char) :
    string (quotedText text ++ rest) = .ok (text, rest) := by
  rw [quotedText_append, string]
  exact quoted_flatMap text rest

theorem key_quotedText (text rest : List Char) : key (quotedText text ++ rest) = .ok (text, rest) := by
  rw [quotedText_append, key]
  exact quoted_flatMap text rest

end Letterhead.Json
