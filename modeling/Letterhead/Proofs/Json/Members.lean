import Letterhead.Proofs.Json.RoundTrip

/-!
Records read back from what was written. Whoever prints the numbers, the members of an object are
read one after the other, and the first that cannot be read is the fault of the whole.
-/

namespace Letterhead.Json

namespace Value

variable (print : Float32 → List Char)

mutual

/-- The text of a value, with numbers as they are printed by others. -/
def writeWith : Value → List Char
  | null => "null".toList
  | number value => print value
  | string text => quotedText text
  | object [] => "\x7b\x7d".toList
  | object (first :: rest) => '\x7b' :: (writeMemberWith first ++ (writeMembersWith rest ++ ['\x7d']))

def writeMemberWith : String × Value → List Char
  | (name, value) => quotedText name.toList ++ ':' :: writeWith value

def writeMembersWith : List (String × Value) → List Char
  | [] => []
  | member :: rest => ',' :: (writeMemberWith member ++ writeMembersWith rest)

end

mutual

theorem writeWith_write (value : Value) : writeWith Decimal.write value = write value := by
  match value with
  | null | number _ | string _ | object [] => rfl
  | object (first :: rest) =>
    rw [writeWith, write, writeMemberWith_write first, writeMembersWith_write rest]

theorem writeMemberWith_write (member : String × Value) :
    writeMemberWith Decimal.write member = writeMember member := by
  match member with
  | (name, value) => rw [writeMemberWith, writeMember, writeWith_write value]

theorem writeMembersWith_write (members : List (String × Value)) :
    writeMembersWith Decimal.write members = writeMembers members := by
  match members with
  | [] => rfl
  | member :: rest =>
    rw [writeMembersWith, writeMembers, writeMemberWith_write member, writeMembersWith_write rest]

end

end Value

/-! ### Members -/

/-- A member of an object that is written, and what it makes of the record that is read. -/
structure Entry (α : Type) where
  name : String
  value : Value
  meaning : α → Except Fault α

section
variable {α : Type} (print : Float32 → List Char) {fields : List (Member α)}

/-- The record that the entries make of another one, up to the first fault. -/
def recordOf : List (Entry α) → α → Except Fault α
  | [], record => .ok record
  | entry :: later, record => entry.meaning record >>= recordOf later

/-- Whatever comes after the text, the reader takes just the text. -/
def Reads (read : α → List Char → Except Fault (α × List Char)) (text : List Char)
    (meaning : α → Except Fault α) : Prop :=
  ∀ record rest, EndsNumeral rest →
    read record (text ++ rest) = meaning record >>= fun record => .ok (record, rest)

/-- The record has a field of that name, which takes what is written. -/
def Entry.Known (fields : List (Member α)) (entry : Entry α) : Prop :=
  ∃ field, fields.find? (·.name == entry.name) = some field ∧
    Reads field.read (entry.value.writeWith print) entry.meaning

def Entry.member (entry : Entry α) : String × Value := (entry.name, entry.value)

variable {print}

theorem endsNumeral_of_mark {mark : Char} (isMark : mark = ',' ∨ mark = '\x7d') (rest : List Char) :
    EndsNumeral (mark :: rest) := by
  rintro _ ⟨⟩
  rcases isMark with rfl | rfl <;> decide

theorem endsNumeral_members (members : List (String × Value)) (rest : List Char) :
    EndsNumeral (Value.writeMembersWith print members ++ '\x7d' :: rest) := by
  cases members with
  | nil => exact endsNumeral_of_mark (Or.inr rfl) rest
  | cons member later => exact endsNumeral_of_mark (Or.inl rfl) _

/-- A comma stands before each member but the first. -/
def comma (first : Bool) : List Char := if first then [] else [',']

-- The comma is passed, and no blank is in the way.
theorem named_opened (steps : Nat) (first : Bool) (seen : List String) (record : α) (text : List Char) :
    named fields (steps + 1) first seen record (comma first ++ '"' :: text) =
      (do
        let (name, source) ← key ('"' :: text)
        match fields.find? (·.name == String.ofList name) with
        | some field =>
          if seen.contains field.name then .error .unexpected
          else
            let source ← expect ':' (afterBlanks source)
            let (record, source) ← field.read record source
            named fields steps false (field.name :: seen) record source
        | none =>
          let source ← expect ':' (afterBlanks source)
          named fields steps false seen record (← skip source)) := by
  cases first <;> rfl

theorem named_entry {entry : Entry α} (known : entry.Known print fields) {seen : List String}
    (fresh : entry.name ∉ seen) (steps : Nat) (first : Bool) (record : α) {rest : List Char}
    (ends : EndsNumeral rest) :
    named fields (steps + 1) first seen record
        (comma first ++ (Value.writeMemberWith print entry.member ++ rest)) =
      entry.meaning record >>= fun record =>
        named fields steps false (entry.name :: seen) record rest := by
  obtain ⟨field, found, reads⟩ := known
  have named : field.name = entry.name := by simpa using List.find?_some found
  have text : Value.writeMemberWith print entry.member ++ rest =
      quotedText entry.name.toList ++ ':' :: (entry.value.writeWith print ++ rest) := by
    rw [Entry.member, Value.writeMemberWith, List.append_assoc, List.cons_append]
  have keyed := key_quotedText entry.name.toList (':' :: (entry.value.writeWith print ++ rest))
  rw [text]
  rw [quotedText_append] at keyed ⊢
  rw [named_opened, keyed, ok_bind]
  simp only [String.ofList_toList, found, named]
  rw [if_neg (by simpa using fresh)]
  have colon : expect ':' (afterBlanks (':' :: (entry.value.writeWith print ++ rest))) =
      .ok (entry.value.writeWith print ++ rest) := rfl
  rw [colon, ok_bind, reads record rest ends]
  cases entry.meaning record <;> rfl

theorem fresh_cons {entry : Entry α} {later : List (Entry α)} {seen : List String}
    (once : entry.name ∉ later.map Entry.name) (fresh : ∀ other ∈ later, other.name ∉ seen) :
    ∀ other ∈ later, other.name ∉ entry.name :: seen := by
  intro other member
  rw [List.mem_cons, not_or]
  refine ⟨fun same => once ?_, fresh other member⟩
  exact List.mem_map.mpr ⟨other, member, same⟩

/-- The entries are read one after the other, up to the first fault. -/
theorem named_entries {entries : List (Entry α)} (known : ∀ entry ∈ entries, entry.Known print fields)
    (once : (entries.map Entry.name).Nodup) {seen : List String}
    (fresh : ∀ entry ∈ entries, entry.name ∉ seen) {steps : Nat} (enough : entries.length < steps)
    (record : α) (rest : List Char) :
    named fields steps false seen record
        (Value.writeMembersWith print (entries.map Entry.member) ++ '\x7d' :: rest) =
      recordOf entries record >>= fun record => .ok (record, rest) := by
  induction entries generalizing seen steps record with
  | nil =>
    obtain ⟨steps, rfl⟩ := Nat.exists_eq_succ_of_ne_zero (Nat.ne_of_gt enough)
    rfl
  | cons entry later ih =>
    -- A name that comes twice would be a fault, so the names seen grow along with the induction.
    obtain ⟨steps, rfl⟩ := Nat.exists_eq_succ_of_ne_zero (Nat.ne_of_gt (Nat.zero_lt_of_lt enough))
    rw [List.map_cons, List.nodup_cons] at once
    have here := named_entry (known entry List.mem_cons_self) (fresh entry List.mem_cons_self) steps
      false record (@endsNumeral_members print (later.map Entry.member) rest)
    have text : Value.writeMembersWith print ((entry :: later).map Entry.member) ++ '\x7d' :: rest =
        comma false ++ (Value.writeMemberWith print entry.member ++
          (Value.writeMembersWith print (later.map Entry.member) ++ '\x7d' :: rest)) := by
      simp [Value.writeMembersWith, comma]
    rw [text, here, recordOf]
    cases entry.meaning record with
    | error fault => rfl
    | ok next =>
      have others := fresh_cons once.1 fun other member => fresh other (List.mem_cons_of_mem _ member)
      exact ih (fun entry member => known entry (List.mem_cons_of_mem _ member)) once.2 others
        (Nat.lt_of_succ_lt_succ enough) next

theorem length_le_writeMembersWith (members : List (String × Value)) :
    members.length ≤ (Value.writeMembersWith print members).length := by
  induction members with
  | nil => exact Nat.zero_le _
  | cons member later ih =>
    simp only [Value.writeMembersWith, List.length_cons, List.length_append]
    omega

def textOf (print : Float32 → List Char) (entries : List (Entry α)) : List Char :=
  (Value.object (entries.map Entry.member)).writeWith print

theorem record_textOf {entries : List (Entry α)} (known : ∀ entry ∈ entries, entry.Known print fields)
    (once : (entries.map Entry.name).Nodup) (default : α) (rest : List Char) :
    record fields default (textOf print entries ++ rest) =
      recordOf entries default >>= fun record => .ok (record, rest) := by
  cases entries with
  | nil => rfl
  | cons entry later =>
    rw [List.map_cons, List.nodup_cons] at once
    have text : textOf print (entry :: later) ++ rest = '\x7b' :: (comma true ++
        (Value.writeMemberWith print entry.member ++
          (Value.writeMembersWith print (later.map Entry.member) ++ '\x7d' :: rest))) := by
      simp [textOf, Value.writeWith, comma]
    have size := @length_le_writeMembersWith print (later.map Entry.member)
    rw [List.length_map] at size
    have opened (inner : List Char) : record fields default ('\x7b' :: inner) =
        named fields (inner.length + 1) true [] default inner := rfl
    rw [text, opened, named_entry (known entry List.mem_cons_self) List.not_mem_nil _ true default
      (endsNumeral_members (later.map Entry.member) rest), recordOf]
    cases entry.meaning default with
    | error fault => rfl
    | ok next =>
      have others := fresh_cons once.1 fun other _ => @List.not_mem_nil _ other.name
      apply named_entries (fun entry member => known entry (List.mem_cons_of_mem _ member)) once.2 others
      simp only [List.length_append, List.length_cons]
      omega

/-- A record that is a field of another one. -/
theorem reads_record {β : Type} {parts : List (Member β)} {entries : List (Entry β)}
    (known : ∀ entry ∈ entries, entry.Known print parts) (once : (entries.map Entry.name).Nodup)
    (default : β) (set : α → β → α) :
    Reads
      (fun whole source => do
        let (part, rest) ← record parts default source
        return (set whole part, rest))
      (textOf print entries)
      (fun whole => do return set whole (← recordOf entries default)) := by
  intro whole rest _
  simp only [record_textOf known once]
  cases recordOf entries default <;> rfl

theorem wholeRecord_textOf {entries : List (Entry α)}
    (known : ∀ entry ∈ entries, entry.Known print fields) (once : (entries.map Entry.name).Nodup)
    (default : α) :
    wholeRecord fields default (textOf print entries) =
      recordOf entries default := by
  have read := record_textOf known once default []
  rw [List.append_nil] at read
  rw [wholeRecord, read]
  cases recordOf entries default <;> rfl

end

end Letterhead.Json
