import Letterhead.Pdf.Content
import Letterhead.Pdf.Scan
import Letterhead.Proofs.Decimal.Figures

/-!
Page content read back from its bytes: words, names and strings one after the other, and each
operator with what stands before it. Names and strings come back as what they hold, numbers as the
numerals that were written.
-/

namespace Letterhead.Pdf

/-! ### Names -/

-- What follows a name or a word ends it.
def Ends (rest : Bytes) : Prop := ∀ byte, rest.head? = some byte → isRegular byte = false

theorem hexDigitValue?_hexDigit {n : Nat} (digit : n < 16) : hexDigitValue? (hexDigit n) = some n :=
  (by decide : ∀ digit : Fin 16, hexDigitValue? (hexDigit digit) = some digit.val) ⟨n, digit⟩

-- A number sign apart, a name byte alone goes on with a name.
theorem nameBody_cons {byte : UInt8} (other : byte ≠ 0x23) (rest : Bytes) :
    nameBody (byte :: rest) =
      if isRegular byte then (byte :: (nameBody rest).1, (nameBody rest).2) else ([], byte :: rest) := by
  rw [nameBody]
  · simp [other]
  · rintro high low later rfl
    exact absurd rfl other

theorem isNameByte_regular {byte : UInt8} (plain : isNameByte byte = true) :
    byte ≠ 0x23 ∧ isRegular byte = true := by
  simp only [isNameByte, Bool.and_eq_true, decide_eq_true_eq, bne_iff_ne, Bool.not_eq_true'] at plain
  obtain ⟨⟨⟨above, -⟩, apart⟩, other⟩ := plain
  have solid : isSpacing byte = false := by
    rw [Bool.eq_false_iff]
    intro spacing
    simp only [isSpacing, List.contains_iff_mem, List.mem_cons, List.not_mem_nil, or_false] at spacing
    rcases spacing with rfl | rfl | rfl | rfl | rfl | rfl <;> exact absurd above (by decide)
  rw [isDelimiter] at apart
  rw [isRegular, apart, solid]
  exact ⟨other, rfl⟩

theorem nameBody_nameByte (byte : UInt8) (rest : Bytes) :
    nameBody (nameByte byte ++ rest) = (byte :: (nameBody rest).1, (nameBody rest).2) := by
  rw [nameByte]
  split
  · rename_i plain
    obtain ⟨other, regular⟩ := isNameByte_regular plain
    rw [List.singleton_append, nameBody_cons other, if_pos regular]
  · have high := hexDigitValue?_hexDigit (n := byte.toNat / 16) (by have := byte.toNat_lt; omega)
    have low := hexDigitValue?_hexDigit (n := byte.toNat % 16) (Nat.mod_lt _ (by decide))
    have whole : 16 * (byte.toNat / 16) + byte.toNat % 16 = byte.toNat := Nat.div_add_mod _ _
    simp only [hexByte, List.cons_append, List.nil_append]
    rw [nameBody, high, low]
    simp [whole]

theorem nameBody_ends {rest : Bytes} (ends : Ends rest) : nameBody rest = ([], rest) := by
  cases rest with
  | nil => rfl
  | cons byte later =>
    have stops := ends byte rfl
    have other : byte ≠ 0x23 := by
      rintro rfl
      exact absurd stops (by decide)
    rw [nameBody_cons other, stops]
    rfl

theorem nameBody_flatMap (name : Bytes) {rest : Bytes} (ends : Ends rest) :
    nameBody (name.flatMap nameByte ++ rest) = (name, rest) := by
  induction name with
  | nil => exact nameBody_ends ends
  | cons byte later ih => rw [List.flatMap_cons, List.append_assoc, nameBody_nameByte, ih]

/-! ### Strings -/

def nested (depth : Nat) (byte : UInt8) : Nat :=
  if byte = 0x28 then depth + 1 else if byte = 0x29 then depth - 1 else depth

/-- The bytes of a string up to its closing parenthesis, however deep others are nested in it. -/
def stringBody (depth : Nat) : Bytes → Option (Bytes × Bytes)
  | [] => none
  | byte :: rest =>
    if byte = 0x5C then
      match _ : escape? rest with
      | none => none
      | some (produced, later) =>
        (stringBody depth later).map fun (text, after) => (produced ++ text, after)
    else if byte = 0x29 ∧ depth = 0 then some ([], rest)
    else (stringBody (nested depth byte) rest).map fun (text, after) => (byte :: text, after)
termination_by text => text.length
decreasing_by
  · have := escape?_shorter ‹_›
    simp only [List.length_cons]
    omega
  · simp

theorem stringBody_escaped {depth : Nat} {byte code : UInt8} {rest : Bytes}
    (found : escape? (code :: rest) = some ([byte], rest)) :
    stringBody depth (0x5C :: code :: rest) =
      (stringBody depth rest).map fun (text, after) => (byte :: text, after) := by
  rw [stringBody]
  simp only [if_true]
  split
  · rename_i none_found
    cases none_found.symm.trans found
  · rename_i given later some_found
    cases some_found.symm.trans found
    rfl

theorem stringBody_plain {depth : Nat} {byte : UInt8} (other : byte ≠ 0x5C)
    (inside : byte = 0x29 → depth ≠ 0) (rest : Bytes) :
    stringBody depth (byte :: rest) =
      (stringBody (nested depth byte) rest).map fun (text, after) => (byte :: text, after) := by
  rw [stringBody, if_neg other, if_neg fun ends => inside ends.1 ends.2]

theorem map_markClosing (depth : Nat) (bytes : Bytes) : (markClosing depth bytes).map Prod.fst = bytes := by
  induction bytes generalizing depth with
  | nil => rfl
  | cons byte rest ih =>
    rw [markClosing]
    split
    · rw [List.map_cons, ih]
    · split <;> rw [List.map_cons, ih]

-- Closing parentheses that are left as they are have a partner among those open before.
theorem waiting_le (depth : Nat) (bytes : Bytes) : (escapeMarked (markClosing depth bytes)).1 ≤ depth := by
  induction bytes generalizing depth with
  | nil => exact Nat.zero_le _
  | cons byte rest ih =>
    rw [markClosing]
    by_cases opening : byte = 0x28
    · have inner := ih (depth + 1)
      rw [if_pos opening, escapeMarked]
      simp only [if_pos opening]
      split
      · exact Nat.zero_le _
      · omega
    by_cases closing : byte = 0x29
    · have inner := ih (depth - 1)
      rw [if_neg opening, if_pos closing, escapeMarked]
      simp only [if_neg opening, if_pos closing]
      split
      · omega
      · rename_i partnered
        have some_open : depth ≠ 0 := by simpa using partnered
        simp only
        omega
    · have inner := ih depth
      rw [if_neg opening, if_neg closing, escapeMarked]
      simp only [if_neg opening, if_neg closing]
      split
      · exact inner
      · split <;> exact inner

/-- A byte is written behind a backslash, or as it is; a closing parenthesis that is written as it
is waits for one that is open. -/
theorem escapeMarked_cons (byte : UInt8) (alone : Bool) (later : List (UInt8 × Bool)) :
    (∃ code, escapeMarked ((byte, alone) :: later) =
        ((escapeMarked later).1, 0x5C :: code :: (escapeMarked later).2) ∧
      ∀ rest, escape? (code :: rest) = some ([byte], rest)) ∨
    (byte ≠ 0x5C ∧ ∃ waiting, escapeMarked ((byte, alone) :: later) =
        (waiting, byte :: (escapeMarked later).2) ∧
      ∀ depth, waiting ≤ depth → (byte = 0x29 → depth ≠ 0) ∧ (escapeMarked later).1 ≤ nested depth byte ∧
        nested depth byte - (escapeMarked later).1 = depth - waiting) := by
  rw [escapeMarked]
  by_cases opening : byte = 0x28
  · subst opening
    simp only [if_true]
    split
    · rename_i none_waiting
      exact .inl ⟨0x28, by rw [none_waiting], fun rest => rfl⟩
    · refine .inr ⟨by decide, _, rfl, fun depth deep => ⟨nofun, ?_, ?_⟩⟩ <;> rw [nested, if_pos rfl] <;> omega
  by_cases closing : byte = 0x29
  · subst closing
    simp only [if_neg opening, if_true]
    cases alone
    · refine .inr ⟨by decide, _, rfl, fun depth deep => ⟨fun _ => by omega, ?_, ?_⟩⟩ <;>
        rw [nested, if_neg opening, if_pos rfl] <;> omega
    · exact .inl ⟨0x29, rfl, fun rest => rfl⟩
  simp only [if_neg opening, if_neg closing]
  by_cases backslash : byte = 0x5C
  · subst backslash
    exact .inl ⟨0x5C, rfl, fun rest => rfl⟩
  by_cases returned : byte = 0x0D
  · subst returned
    exact .inl ⟨0x72, rfl, fun rest => rfl⟩
  · rw [if_neg backslash, if_neg returned]
    refine .inr ⟨backslash, _, rfl, fun depth deep => ⟨fun same => absurd same closing, ?_, ?_⟩⟩ <;>
      rw [nested, if_neg opening, if_neg closing]
    exact deep

-- By induction on the bytes: a reader at least as deep as closing parentheses wait does not stop.
theorem stringBody_escapeMarked (marked : List (UInt8 × Bool)) {depth : Nat}
    (deep : (escapeMarked marked).1 ≤ depth) (rest : Bytes) :
    stringBody depth ((escapeMarked marked).2 ++ rest) =
      (stringBody (depth - (escapeMarked marked).1) rest).map
        fun (text, after) => (marked.map Prod.fst ++ text, after) := by
  induction marked generalizing depth with
  | nil => simp [escapeMarked]
  | cons entry later ih =>
    obtain ⟨byte, alone⟩ := entry
    have joined (read : Option (Bytes × Bytes)) :
        (read.map fun (text, after) => (later.map Prod.fst ++ text, after)).map
          (fun (text, after) => (byte :: text, after)) =
        read.map fun (text, after) => (((byte, alone) :: later).map Prod.fst ++ text, after) := by
      rw [Option.map_map]
      rfl
    rcases escapeMarked_cons byte alone later with ⟨code, written, escapes⟩ | ⟨other, waiting, written, inside⟩ <;>
      rw [written] at deep ⊢
    · rw [List.cons_append, List.cons_append, stringBody_escaped (escapes _), ih deep, joined]
    · obtain ⟨goes_on, enough, left⟩ := inside depth deep
      rw [List.cons_append, stringBody_plain other goes_on, ih enough, left, joined]

theorem stringBody_written (bytes rest : Bytes) :
    stringBody 0 ((escapeMarked (markClosing 0 bytes)).2 ++ 0x29 :: rest) = some (bytes, rest) := by
  have none_waiting := Nat.le_zero.mp (waiting_le 0 bytes)
  have closed : stringBody 0 (0x29 :: rest) = some ([], rest) := by
    rw [stringBody]
    rfl
  rw [stringBody_escapeMarked _ (Nat.le_of_eq none_waiting), none_waiting, closed, map_markClosing]
  simp

/-! ### Lexemes -/

/-- A name or a string by what it holds, a number or an operator by how it is written. -/
inductive Lexeme where
  | name (bytes : Bytes)
  | string (bytes : Bytes)
  | word (bytes : Bytes)
deriving DecidableEq

def lexeme? : Bytes → Option (Lexeme × Bytes)
  | 0x2F :: rest => some (.name (nameBody rest).1, (nameBody rest).2)
  | 0x28 :: rest => (stringBody 0 rest).map fun (text, after) => (.string text, after)
  | text =>
    if text.takeWhile isRegular = [] then none
    else some (.word (text.takeWhile isRegular), text.dropWhile isRegular)

def lexemesWithin : Nat → Bytes → Option (List Lexeme)
  | 0, _ => none
  | steps + 1, text =>
    if afterSpace text = [] then some []
    else (lexeme? (afterSpace text)).bind fun (lexeme, rest) => (lexemesWithin steps rest).map (lexeme :: ·)

/-- A lexeme takes at least one byte. -/
def lexemes? (text : Bytes) : Option (List Lexeme) := lexemesWithin (text.length + 1) text

def Lexeme.ofOperand : Object → Lexeme
  | .name given => .name given
  | .literal given => .string given
  | other => .word other.bytes

def Operation.lexemes (operation : Operation) : List Lexeme :=
  operation.operands.map .ofOperand ++ [.word (ascii operation.operator)]

namespace Lexeme

def bytes : Lexeme → Bytes
  | .name given => nameBytes given
  | .string given => literalBytes given
  | .word given => given

def IsWritten : Lexeme → Prop
  | .word given => given ≠ [] ∧ given.all isRegular = true
  | _ => True

theorem ofOperand_real (value : Float32) : ofOperand (.real value) = .word (realBytes value) := by
  simp only [ofOperand, Object.bytes]

theorem bytes_ofOperand (operand : Object) : (ofOperand operand).bytes = operand.bytes := by
  cases operand <;> simp only [ofOperand, bytes, Object.bytes]

end Lexeme

-- Figures stand before all letters.
theorem byte_of_isFigure {c : Char} (figure : Decimal.IsFigure c) :
    isRegular c.toNat.toUInt8 = true ∧ c.toNat.toUInt8 < 0x41 := by
  rcases figure with digit | rfl
  · simp only [Char.isDigit, Bool.and_eq_true, decide_eq_true_eq] at digit
    have least : 48 ≤ c.toNat := UInt32.le_iff_toNat_le.mp digit.1
    have last : c.toNat < 58 := Nat.lt_succ_of_le (UInt32.le_iff_toNat_le.mp digit.2)
    have digits : ∀ n : Fin 58, 48 ≤ n.val → isRegular n.val.toUInt8 = true ∧ n.val.toUInt8 < 0x41 := by decide
    exact digits ⟨c.toNat, last⟩ least
  · decide

theorem realBytes_isWritten (value : Float32) : (Lexeme.word (realBytes value)).IsWritten := by
  rcases Decimal.write_cases value with unreal | ⟨sign, body, whole, signs, figures⟩
  · rw [realBytes, unreal]
    exact ⟨nofun, rfl⟩
  · have regular : (body.map fun c => c.toNat.toUInt8).all isRegular = true := by
      rcases figures with rfl | ⟨-, figures⟩
      · rfl
      · rw [List.all_map, List.all_eq_true]
        exact fun c inside => (byte_of_isFigure (figures c inside)).1
    have some_body : body ≠ [] := by
      rcases figures with rfl | ⟨given, -⟩
      · exact nofun
      · exact given
    rw [realBytes, whole, List.map_append]
    constructor
    · simp [some_body]
    · rw [List.all_append, regular, Bool.and_true]
      rcases signs with rfl | rfl <;> rfl

theorem operands_written (operation : Operation) :
    ∀ operand ∈ operation.operands, (Lexeme.ofOperand operand).IsWritten := by
  have name (given : Bytes) : (Lexeme.ofOperand (.name given)).IsWritten := trivial
  have literal (given : Bytes) : (Lexeme.ofOperand (.literal given)).IsWritten := trivial
  have real (value : Float32) : (Lexeme.ofOperand (.real value)).IsWritten := by
    rw [Lexeme.ofOperand_real]
    exact realBytes_isWritten value
  cases operation <;> simp [Operation.operands, name, literal, real]

-- All operators that pages are painted with.
def operators : List String :=
  ["q", "Q", "Do", "BT", "ET", "Tf", "Td", "Tj", "g", "w", "re", "m", "l", "S", "f", "B", "n"]

theorem operator_mem (operation : Operation) : operation.operator ∈ operators := by
  cases operation <;> simp [Operation.operator, operators]

theorem operator_written (operation : Operation) : (Lexeme.word (ascii operation.operator)).IsWritten := by
  have each : operators.all (fun operator => !(ascii operator).isEmpty && (ascii operator).all isRegular) = true := by
    decide
  have here := List.all_eq_true.mp each _ (operator_mem operation)
  rw [Bool.and_eq_true, Bool.not_eq_true', List.isEmpty_eq_false_iff] at here
  exact here

theorem isRegular_starts {byte : UInt8} (regular : isRegular byte = true) :
    isSpacing byte = false ∧ byte ≠ 0x25 ∧ byte ≠ 0x2F ∧ byte ≠ 0x28 := by
  have solid : isSpacing byte = false := by
    rw [isRegular, Bool.and_eq_true, Bool.not_eq_true'] at regular
    exact regular.1
  refine ⟨solid, ?_, ?_, ?_⟩ <;> rintro rfl <;> cases regular

theorem afterSpace_spacing {byte : UInt8} (spacing : isSpacing byte = true) (text : Bytes) :
    afterSpace (byte :: text) = afterSpace text := by
  rw [afterSpace, if_pos spacing]

theorem afterSpace_solid {byte : UInt8} (solid : isSpacing byte = false) (other : byte ≠ 0x25) (text : Bytes) :
    afterSpace (byte :: text) = byte :: text := by
  rw [afterSpace, if_neg (by simp [solid]), if_neg other]

theorem lexeme?_word {word : Bytes} (written : (Lexeme.word word).IsWritten) {rest : Bytes} (ends : Ends rest) :
    lexeme? (word ++ rest) = some (.word word, rest) := by
  obtain ⟨some_byte, all⟩ := written
  have regular := List.all_eq_true.mp all
  have stops : rest.takeWhile isRegular = [] ∧ rest.dropWhile isRegular = rest := by
    cases rest with
    | nil => exact ⟨rfl, rfl⟩
    | cons byte later => simp [ends byte rfl]
  have front : (word ++ rest).takeWhile isRegular = word := by
    rw [List.takeWhile_append_of_pos regular, stops.1, List.append_nil]
  have back : (word ++ rest).dropWhile isRegular = rest := by
    rw [List.dropWhile_append_of_pos regular, stops.2]
  cases word with
  | nil => exact absurd rfl some_byte
  | cons byte later =>
    obtain ⟨-, -, slash, parenthesis⟩ := isRegular_starts (regular byte List.mem_cons_self)
    rw [List.cons_append] at front back ⊢
    rw [lexeme?, front, back, if_neg some_byte]
    · rintro text same
      exact slash (List.cons.inj same).1
    · rintro text same
      exact parenthesis (List.cons.inj same).1

theorem lexeme?_bytes {lexeme : Lexeme} (written : lexeme.IsWritten) {rest : Bytes} (ends : Ends rest) :
    lexeme? (lexeme.bytes ++ rest) = some (lexeme, rest) := by
  cases lexeme with
  | name given =>
    rw [Lexeme.bytes, nameBytes, List.cons_append, lexeme?, nameBody_flatMap given ends]
  | string given =>
    rw [Lexeme.bytes, literalBytes, List.cons_append, lexeme?, List.append_assoc, List.singleton_append,
      stringBody_written]
    rfl
  | word given => exact lexeme?_word written ends

theorem afterSpace_bytes {lexeme : Lexeme} (written : lexeme.IsWritten) (rest : Bytes) :
    afterSpace (lexeme.bytes ++ rest) = lexeme.bytes ++ rest ∧ lexeme.bytes ++ rest ≠ [] := by
  cases lexeme with
  | name given => exact ⟨afterSpace_solid (by decide) (by decide) _, nofun⟩
  | string given => exact ⟨afterSpace_solid (by decide) (by decide) _, nofun⟩
  | word given =>
    obtain ⟨some_byte, all⟩ := written
    cases given with
    | nil => exact absurd rfl some_byte
    | cons byte later =>
      obtain ⟨solid, other, -, -⟩ := isRegular_starts (List.all_eq_true.mp all byte List.mem_cons_self)
      exact ⟨afterSpace_solid solid other _, nofun⟩

theorem lexemesWithin_bytes {lexeme : Lexeme} (written : lexeme.IsWritten) {rest : Bytes} (ends : Ends rest)
    (steps : Nat) :
    lexemesWithin (steps + 1) (lexeme.bytes ++ rest) = (lexemesWithin steps rest).map (lexeme :: ·) := by
  obtain ⟨start, some_byte⟩ := afterSpace_bytes written rest
  rw [lexemesWithin, start, if_neg some_byte, lexeme?_bytes written ends]
  rfl

theorem lexemesWithin_spacing {byte : UInt8} (spacing : isSpacing byte = true) (steps : Nat) (text : Bytes) :
    lexemesWithin steps (byte :: text) = lexemesWithin steps text := by
  cases steps with
  | zero => rfl
  | succ steps => rw [lexemesWithin, lexemesWithin, afterSpace_spacing spacing]

theorem ends_spacing {byte : UInt8} (spacing : isSpacing byte = true) (rest : Bytes) : Ends (byte :: rest) := by
  intro first same
  obtain rfl := Option.some.inj same
  rw [isRegular, spacing]
  rfl

theorem lexemesWithin_operands {operands : List Object}
    (written : ∀ operand ∈ operands, (Lexeme.ofOperand operand).IsWritten) (steps : Nat) (rest : Bytes) :
    lexemesWithin (steps + operands.length) (operands.flatMap (fun operand => operand.bytes ++ [0x20]) ++ rest) =
      (lexemesWithin steps rest).map (operands.map .ofOperand ++ ·) := by
  induction operands with
  | nil => simp
  | cons operand later ih =>
    obtain ⟨first, others⟩ := List.forall_mem_cons.mp written
    have spaced : ([0x20] : Bytes) ++ (later.flatMap (fun operand => operand.bytes ++ [0x20]) ++ rest) =
        0x20 :: (later.flatMap (fun operand => operand.bytes ++ [0x20]) ++ rest) := rfl
    rw [List.flatMap_cons, List.length_cons, ← Nat.add_assoc, List.append_assoc, List.append_assoc, spaced,
      ← Lexeme.bytes_ofOperand, lexemesWithin_bytes first (ends_spacing (by decide) _),
      lexemesWithin_spacing (by decide), ih others, Option.map_map]
    rfl

theorem lexemesWithin_operation (operation : Operation) {rest : Bytes} (ends : Ends rest) (steps : Nat) :
    lexemesWithin (steps + operation.lexemes.length) (operation.bytes ++ rest) =
      (lexemesWithin steps rest).map (operation.lexemes ++ ·) := by
  have operator : lexemesWithin (steps + 1) (ascii operation.operator ++ rest) = _ :=
    lexemesWithin_bytes (operator_written operation) ends steps
  have count : steps + operation.lexemes.length = steps + 1 + operation.operands.length := by
    simp [Operation.lexemes]
    omega
  rw [count, Operation.bytes, List.append_assoc, lexemesWithin_operands (operands_written operation), operator,
    Option.map_map]
  congr 1
  funext later
  simp [Operation.lexemes]

-- A line break or the end of the content comes after an operator.
theorem contentBytes_cons (operation : Operation) (later : List Operation) :
    ∃ rest, contentBytes (operation :: later) = operation.bytes ++ rest ∧ Ends rest ∧
      (contentBytes later).length ≤ rest.length ∧
      ∀ steps, lexemesWithin steps rest = lexemesWithin steps (contentBytes later) := by
  cases later with
  | nil => exact ⟨[], by simp [contentBytes, List.intercalate], nofun, Nat.le_refl _, fun _ => rfl⟩
  | cons next others =>
    refine ⟨0x0A :: contentBytes (next :: others), ?_, ends_spacing (by decide) _, Nat.le_succ _,
      fun steps => lexemesWithin_spacing (by decide) steps _⟩
    simp [contentBytes, List.intercalate]

theorem lexemesWithin_content (operations : List Operation) (steps : Nat) :
    lexemesWithin (steps + 1 + (operations.flatMap Operation.lexemes).length) (contentBytes operations) =
      some (operations.flatMap Operation.lexemes) := by
  induction operations with
  | nil =>
    show lexemesWithin (steps + 1) [] = some []
    rw [lexemesWithin, afterSpace]
    rfl
  | cons operation later ih =>
    obtain ⟨rest, whole, ends, -, same⟩ := contentBytes_cons operation later
    rw [List.flatMap_cons, List.length_append, Nat.add_comm operation.lexemes.length, ← Nat.add_assoc, whole,
      lexemesWithin_operation operation ends, same, ih]
    rfl

theorem length_lexemes_le (operation : Operation) : operation.lexemes.length ≤ operation.bytes.length := by
  have spaced (operands : List Object) :
      operands.length ≤ (operands.flatMap fun operand => operand.bytes ++ [0x20]).length := by
    induction operands with
    | nil => exact Nat.le_refl _
    | cons operand later ih =>
      rw [List.flatMap_cons, List.length_append, List.length_append, List.length_cons, List.length_singleton]
      omega
  have first := spaced operation.operands
  have last := List.length_pos_iff.mpr (operator_written operation).1
  rw [Operation.lexemes, Operation.bytes, List.length_append, List.length_append, List.length_map,
    List.length_singleton]
  omega

theorem length_le_content (operations : List Operation) :
    (operations.flatMap Operation.lexemes).length ≤ (contentBytes operations).length := by
  induction operations with
  | nil => exact Nat.le_refl _
  | cons operation later ih =>
    obtain ⟨rest, whole, -, enough, -⟩ := contentBytes_cons operation later
    have first := length_lexemes_le operation
    rw [whole, List.flatMap_cons, List.length_append, List.length_append]
    omega

theorem lexemes?_content (operations : List Operation) :
    lexemes? (contentBytes operations) = some (operations.flatMap Operation.lexemes) := by
  obtain ⟨more, enough⟩ := Nat.exists_eq_add_of_le (length_le_content operations)
  have read := lexemesWithin_content operations more
  rw [lexemes?, enough, show (operations.flatMap Operation.lexemes).length + more + 1 =
    more + 1 + (operations.flatMap Operation.lexemes).length by omega, read]

/-! ### Operators -/

structure Instruction where
  operands : List Lexeme
  operator : Bytes
deriving DecidableEq

def Lexeme.operator? : Lexeme → Option Bytes
  | .word given => if given ∈ operators.map ascii then some given else none
  | _ => none

/-- Each operator takes what stands before it as its operands; nothing is left behind the last. -/
def instructions : List Lexeme → List Lexeme → Option (List Instruction)
  | operands, [] => if operands = [] then some [] else none
  | operands, lexeme :: rest =>
    match lexeme.operator? with
    | some operator => (instructions [] rest).map (⟨operands, operator⟩ :: ·)
    | none => instructions (operands ++ [lexeme]) rest

def readContent? (text : Bytes) : Option (List Instruction) := (lexemes? text).bind (instructions [])

def Operation.instruction (operation : Operation) : Instruction :=
  ⟨operation.operands.map .ofOperand, ascii operation.operator⟩

-- An operator has letters only, and what is written for a number that is none is no operator.
theorem realBytes_not_mem (value : Float32) : realBytes value ∉ operators.map ascii := by
  intro member
  have letters : (operators.map ascii).all (fun operator => operator.all fun byte => 0x41 ≤ byte) = true := by
    decide
  have high (byte : UInt8) (inside : byte ∈ realBytes value) : ¬ byte < 0x41 := by
    have least := List.all_eq_true.mp (List.all_eq_true.mp letters _ member) byte inside
    exact UInt8.not_lt.mpr (of_decide_eq_true least)
  rcases Decimal.write_cases value with unreal | ⟨sign, body, whole, signs, figures⟩
  · rw [realBytes, unreal] at member
    exact absurd member (by decide)
  · rw [realBytes, whole, List.map_append] at member high
    rcases signs with rfl | rfl
    · rcases figures with rfl | ⟨some_body, figures⟩
      · exact absurd member (by decide)
      · obtain ⟨c, rest, rfl⟩ := List.exists_cons_of_ne_nil some_body
        exact high _ List.mem_cons_self (byte_of_isFigure (figures c List.mem_cons_self)).2
    · exact high 0x2D List.mem_cons_self (by decide)

theorem operator?_operand (operation : Operation) :
    ∀ operand ∈ operation.operands, (Lexeme.ofOperand operand).operator? = none := by
  have name (given : Bytes) : (Lexeme.ofOperand (.name given)).operator? = none := rfl
  have literal (given : Bytes) : (Lexeme.ofOperand (.literal given)).operator? = none := rfl
  have real (value : Float32) : (Lexeme.ofOperand (.real value)).operator? = none := by
    rw [Lexeme.ofOperand_real, Lexeme.operator?, if_neg (realBytes_not_mem value)]
  cases operation <;> simp [Operation.operands, name, literal, real]

theorem instructions_operands {operands : List Lexeme} (none_operates : ∀ operand ∈ operands, operand.operator? = none)
    (before rest : List Lexeme) :
    instructions before (operands ++ rest) = instructions (before ++ operands) rest := by
  induction operands generalizing before with
  | nil => rw [List.append_nil, List.nil_append]
  | cons operand later ih =>
    obtain ⟨first, others⟩ := List.forall_mem_cons.mp none_operates
    rw [List.cons_append, instructions, first]
    refine (ih others _).trans ?_
    rw [List.append_assoc, List.singleton_append]

theorem instructions_lexemes (operations : List Operation) :
    instructions [] (operations.flatMap Operation.lexemes) = some (operations.map Operation.instruction) := by
  induction operations with
  | nil => rfl
  | cons operation later ih =>
    have operands : ∀ operand ∈ operation.operands.map Lexeme.ofOperand, operand.operator? = none := by
      intro operand member
      obtain ⟨given, inside, rfl⟩ := List.mem_map.mp member
      exact operator?_operand operation given inside
    have operator : (Lexeme.word (ascii operation.operator)).operator? = some (ascii operation.operator) :=
      if_pos (List.mem_map_of_mem (operator_mem operation))
    rw [List.flatMap_cons, Operation.lexemes, List.append_assoc, instructions_operands operands,
      List.nil_append, List.singleton_append, instructions, operator, ih]
    rfl

/-- Content is read back from its bytes as its operators, each with its operands. -/
theorem readContent?_contentBytes (operations : List Operation) :
    readContent? (contentBytes operations) = some (operations.map Operation.instruction) := by
  rw [readContent?, lexemes?_content]
  exact instructions_lexemes operations

end Letterhead.Pdf
