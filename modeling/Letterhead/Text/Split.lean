/-!
Text cut at a separator, and text with the blanks taken off its ends. `pieces` leaves the separators
out, `words` keeps each with the piece that it ends. Blank are the characters with the Unicode
property White_Space.
-/

namespace Letterhead.Text

/-! ### Separators -/

section

variable {α : Type} [BEq α]

/-- One piece more than there are separators. -/
def pieces (separator : α) : List α → List (List α)
  | [] => [[]]
  | c :: rest =>
    if c == separator then [] :: pieces separator rest
    else match pieces separator rest with
      | [] => [[c]]
      | first :: others => (c :: first) :: others

/-- No piece is empty, and only the last one may lack its separator. -/
def words (separator : α) : List α → List (List α)
  | [] => []
  | c :: rest =>
    if c == separator then [c] :: words separator rest
    else match words separator rest with
      | [] => [[c]]
      | first :: others => (c :: first) :: others

/-- What stands before the first separator and what follows it, if there is one. -/
def cut? (separator : α) : List α → Option (List α × List α)
  | [] => none
  | c :: rest =>
    if c == separator then some ([], rest)
    else (cut? separator rest).map fun halves => (c :: halves.1, halves.2)

theorem pieces_ne_nil (separator : α) (text : List α) : pieces separator text ≠ [] := by
  cases text with
  | nil => simp [pieces]
  | cons c rest =>
    simp only [pieces]
    split
    · simp
    · split <;> simp

/-- Nothing is lost. -/
theorem flatten_words (separator : α) (text : List α) : (words separator text).flatten = text := by
  induction text with
  | nil => rfl
  | cons c rest ih =>
    simp only [words]
    split
    · simp [ih]
    · split
      · rename_i none_left; simp [none_left] at ih; simp [← ih]
      · rename_i first others found; simp [found] at ih; simp [← ih]

end

/-! ### Blanks -/

/-- Closed ranges of code points, ascending and apart. -/
def blankRanges : List (Nat × Nat) :=
  [(0x09, 0x0D), (0x20, 0x20), (0x85, 0x85), (0xA0, 0xA0), (0x1680, 0x1680),
   (0x2000, 0x200A), (0x2028, 0x2029), (0x202F, 0x202F), (0x205F, 0x205F), (0x3000, 0x3000)]

def isBlank (c : Char) : Bool :=
  blankRanges.any fun range => range.1 ≤ c.toNat && c.toNat ≤ range.2

def trimStart (text : List Char) : List Char := text.dropWhile isBlank

def trimEnd (text : List Char) : List Char := (text.reverse.dropWhile isBlank).reverse

def trim (text : List Char) : List Char := trimEnd (trimStart text)

end Letterhead.Text
