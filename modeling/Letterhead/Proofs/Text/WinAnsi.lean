import Letterhead.Text.Encoding
import Mathlib

/-!
The encoding read backwards. A byte stands for one character at most, and a character has one byte at
most, so a text for which no substitute is needed is got back from its bytes.
-/

namespace Letterhead.Text.WinAnsi

/-- The code point that a byte stands for, unless it is one of the five that stand for nothing. -/
def code? (byte : UInt8) : Option Nat :=
  if byte.toNat ≤ 0x7F ∨ 0xA0 ≤ byte.toNat then some byte.toNat
  else (highCodes[byte.toNat - 0x80]?).filter (· != 0)

def char? (byte : UInt8) : Option Char := (code? byte).map Char.ofNat

/-! ### The table -/

-- All codes in the table are above those of single bytes, and below the surrogates.
theorem bounds_of_mem_highCodes {code : Nat} (member : code ∈ highCodes) (used : code ≠ 0) :
    0xFF < code ∧ code < 0xD800 := by
  have each : ∀ code ∈ highCodes, code ≠ 0 → 0xFF < code ∧ code < 0xD800 := by decide
  exact each code member used

-- No code stands in two places, so the first place where a code stands is the only one.
theorem idxOf?_highCodes {code index : Nat} (used : code ≠ 0) :
    highCodes.idxOf? code = some index ↔ highCodes[index]? = some code := by
  constructor
  · intro found
    obtain ⟨within, same, -⟩ := List.idxOf?_eq_some_iff.mp found
    rw [List.getElem?_eq_getElem within, same]
  · intro found
    have apart : ∀ place < 32, ∀ code ∈ highCodes[place]?, code ≠ 0 →
        highCodes.idxOf? code = some place := by decide
    obtain ⟨within, -⟩ := List.getElem?_eq_some_iff.mp found
    exact apart index within code found used

/-! ### One character -/

theorem isValidChar_code {byte : UInt8} {code : Nat} (found : code? byte = some code) :
    code.isValidChar := by
  have small := byte.toNat_lt
  rw [code?] at found
  split at found
  · obtain rfl := Option.some.inj found
    exact Or.inl (by omega)
  · obtain ⟨there, used⟩ := Option.filter_eq_some_iff.mp found
    exact Or.inl (bounds_of_mem_highCodes (List.mem_of_getElem? there) (by simpa using used)).2

theorem char?_eq_some_iff_code {byte : UInt8} {c : Char} :
    char? byte = some c ↔ code? byte = some c.toNat := by
  rw [char?, Option.map_eq_some_iff]
  constructor
  · rintro ⟨code, found, rfl⟩
    rw [Char.toNat_ofNat, if_pos (isValidChar_code found), found]
  · intro found
    exact ⟨c.toNat, found, Char.ofNat_toNat c⟩

/-- Code points that are their own bytes. -/
abbrev IsSingle (code : Nat) : Prop := code ≤ 0x7F ∨ 0xA0 ≤ code ∧ code ≤ 0xFF

theorem toNat_place {index : Nat} (within : index < 32) : (0x80 + index).toUInt8.toNat = 0x80 + index := by
  rw [Nat.toUInt8, UInt8.toNat_ofNat', Nat.mod_eq_of_lt (by omega)]

theorem code?_eq_some_iff_of_single {byte : UInt8} {code : Nat} (single : IsSingle code) :
    code? byte = some code ↔ byte.toNat = code := by
  rw [code?]
  split
  · rw [Option.some.injEq]
  · refine iff_of_false ?_ (by omega)
    rw [Option.filter_eq_some_iff]
    rintro ⟨there, used⟩
    have := bounds_of_mem_highCodes (List.mem_of_getElem? there) (by simpa using used)
    omega

theorem code?_eq_some_iff_of_not_single {byte : UInt8} {code : Nat} (wide : ¬ IsSingle code) :
    code? byte = some code ↔ ∃ index, highCodes[index]? = some code ∧ (0x80 + index).toUInt8 = byte := by
  have small := byte.toNat_lt
  rw [code?]
  constructor
  · intro found
    split at found
    · have := Option.some.inj found
      omega
    · obtain ⟨there, -⟩ := Option.filter_eq_some_iff.mp found
      refine ⟨_, there, ?_⟩
      rw [← UInt8.toNat_inj, toNat_place (by omega)]
      omega
  · rintro ⟨index, there, rfl⟩
    have within : index < 32 := (List.getElem?_eq_some_iff.mp there).1
    have used : code ≠ 0 := by omega
    rw [toNat_place within, if_neg (by omega), Nat.add_sub_cancel_left, there]
    simp [used]

-- A code of one byte is never in the table, and one from the table is never of one byte.
theorem byte?_eq_some_iff_code {c : Char} {byte : UInt8} :
    byte? c = some byte ↔ code? byte = some c.toNat := by
  rw [byte?]
  generalize c.toNat = code
  by_cases single : IsSingle code
  · have narrow : code < 256 := by omega
    rw [code?_eq_some_iff_of_single single, if_pos single, Option.some.injEq,
      ← UInt8.toNat_inj, Nat.toUInt8, UInt8.toNat_ofNat', Nat.mod_eq_of_lt narrow, eq_comm]
  · have used : code ≠ 0 := by omega
    rw [code?_eq_some_iff_of_not_single single, if_neg single, Option.map_eq_some_iff]
    simp only [idxOf?_highCodes used]

theorem char?_eq_some_iff {byte : UInt8} {c : Char} : char? byte = some c ↔ byte? c = some byte :=
  char?_eq_some_iff_code.trans byte?_eq_some_iff_code.symm

/-! ### A text -/

theorem replaces_eq_false_iff {text : List Char} :
    replaces text = false ↔ ∀ c ∈ text, ∃ byte, byte? c = some byte := by
  simp [replaces, Option.ne_none_iff_exists']

theorem encodes_each (text : List Char) :
    List.Forall₂ (fun c byte => byte? c = some byte ∨ byte? c = none ∧ byte = substitute)
      text (encode text) := by
  rw [encode, List.forall₂_map_right_iff, List.forall₂_same]
  intro c _
  rcases found : byte? c with _ | byte <;> simp [encodeChar, found]

theorem map_char?_encode {text : List Char} (plain : replaces text = false) :
    (encode text).map char? = text.map some := by
  rw [encode, List.map_map]
  apply List.map_congr_left
  intro c member
  obtain ⟨byte, found⟩ := replaces_eq_false_iff.mp plain c member
  rw [Function.comp_apply, encodeChar, found, Option.getD_some, char?_eq_some_iff, found]

/-- A text has a byte for each character: that of the character, or a question mark for one that has
none, and just in that case something is replaced. No two characters have the same byte, so texts in
which nothing is replaced differ in their bytes, and the table read backwards gives them back. -/
theorem encodes_faithfully :
    (∀ text : List Char, (encode text).length = text.length ∧
      (replaces text = false ↔ ∀ c ∈ text, ∃ byte, byte? c = some byte) ∧
      List.Forall₂ (fun c byte => byte? c = some byte ∨ byte? c = none ∧ byte = '?'.toNat.toUInt8)
        text (encode text)) ∧
    (∀ (left right : Char) (byte : UInt8), byte? left = some byte → byte? right = some byte →
      left = right) ∧
    (∀ left right : List Char, replaces left = false → replaces right = false →
      encode left = encode right → left = right) ∧
    (∀ (byte : UInt8) (c : Char), char? byte = some c ↔ byte? c = some byte) ∧
    ∀ text : List Char, replaces text = false → (encode text).map char? = text.map some := by
  refine ⟨?each, ?apart, ?texts, fun _ _ => char?_eq_some_iff, fun _ => map_char?_encode⟩
  case each =>
    intro text
    exact ⟨length_encode text, replaces_eq_false_iff, encodes_each text⟩
  case apart =>
    intro left right byte first second
    rw [← char?_eq_some_iff] at first second
    exact Option.some.inj (first.symm.trans second)
  case texts =>
    intro left right plain others same
    have decoded := map_char?_encode plain
    rw [same, map_char?_encode others] at decoded
    exact ((List.map_inj_right fun _ _ => Option.some.inj).mp decoded).symm

end Letterhead.Text.WinAnsi
