import Letterhead.Markup.Attributes
import Mathlib.Data.Char
import Mathlib.Data.List.Lex
import Mathlib.Data.List.Sort

/-!
What an attribute list says. Each name has the value of the last expression for it, and an expression
is what its grammar says. So a list that goes on says what its end says, and for all other names what
its beginning says.
-/

namespace Letterhead

/-! ### Cutting -/

namespace Text

theorem pieces_eq_splitOn {α : Type} [BEq α] (separator : α) (text : List α) :
    pieces separator text = text.splitOn separator := by
  rw [List.splitOn_eq_splitOnP]
  induction text with
  | nil => rfl
  | cons c rest ih =>
    rw [pieces, List.splitOnP_cons_eq_if_modifyHead, ← ih]
    split
    · rfl
    · obtain ⟨first, others, found⟩ := List.exists_cons_of_ne_nil (pieces_ne_nil separator rest)
      rw [found]
      rfl

theorem splitOn_append_cons {α : Type} [BEq α] [ReflBEq α] (separator : α) (first rest : List α) :
    (first ++ separator :: rest).splitOn separator =
      first.splitOn separator ++ rest.splitOn separator := by
  simp only [List.splitOn_eq_splitOnP]
  exact List.splitOnP_append_cons first rest BEq.rfl

theorem cut?_eq_some_iff {α : Type} [BEq α] [LawfulBEq α] {separator : α} {text before after : List α} :
    cut? separator text = some (before, after) ↔
      text = before ++ separator :: after ∧ separator ∉ before := by
  induction text generalizing before with
  | nil => simp [cut?]
  | cons c rest ih =>
    by_cases here : c = separator
    · subst here
      cases before with
      | nil => simp [cut?]
      | cons first before =>
        simp only [cut?, BEq.rfl, if_true, List.cons_append, List.cons.injEq, List.mem_cons]
        grind
    · cases before with
      | nil => simp [cut?, here]
      | cons first before =>
        simp [cut?, here, ih]
        grind

end Text

namespace Markup

/-! ### One expression -/

/-- A quote, or none. -/
def marks : List (List Char) := [[], ['"'], ['\'']]

/-- The value is written with at most one quote before it and at most one after it, and has none in it. -/
def Writes (written value : List Char) : Prop :=
  ∃ first ∈ marks, ∃ last ∈ marks, written = first ++ value ++ last ∧ '"' ∉ value ∧ '\'' ∉ value

/-- The expression gives the value to the name that has these capitals. -/
def Gives (expression key value : List Char) : Prop :=
  ∃ name written, expression = name ++ '=' :: written ∧ '=' ∉ name ∧ Text.uppercase name = key ∧
    Writes written value

theorem any_isQuote_eq_false_iff (value : List Char) :
    value.any isQuote = false ↔ '"' ∉ value ∧ '\'' ∉ value := by
  rw [List.any_eq_false]
  simp only [isQuote, Bool.or_eq_true, beq_iff_eq, not_or]
  constructor
  · intro plain
    exact ⟨fun among => (plain _ among).1 rfl, fun among => (plain _ among).2 rfl⟩
  · rintro ⟨undoubled, unsingled⟩ c among
    exact ⟨ne_of_mem_of_not_mem among undoubled, ne_of_mem_of_not_mem among unsingled⟩

theorem reverse_mem_marks {mark : List Char} (quote : mark ∈ marks) : mark.reverse ∈ marks := by
  revert mark
  decide

theorem dropQuote_split (written : List Char) : ∃ mark ∈ marks, written = mark ++ dropQuote written := by
  cases written with
  | nil => exact ⟨[], by decide, rfl⟩
  | cons c rest =>
    rw [dropQuote]
    split
    · rename_i quote
      simp only [isQuote, Bool.or_eq_true, beq_iff_eq] at quote
      rcases quote with rfl | rfl
      · exact ⟨['"'], by decide, rfl⟩
      · exact ⟨['\''], by decide, rfl⟩
    · exact ⟨[], by decide, rfl⟩

-- Only a quote at the very beginning is taken off.
theorem dropQuote_append {mark value : List Char} (quote : mark ∈ marks) (plain : value.any isQuote = false)
    (some : value ≠ []) (rest : List Char) : dropQuote (mark ++ (value ++ rest)) = value ++ rest := by
  obtain ⟨c, tail, rfl⟩ := List.exists_cons_of_ne_nil some
  rw [List.any_cons, Bool.or_eq_false_iff] at plain
  simp only [marks, List.mem_cons, List.not_mem_nil, or_false] at quote
  rcases quote with rfl | rfl | rfl
  · simp [dropQuote, plain.1]
  · rfl
  · rfl

theorem unquote?_of_writes {written value : List Char} (writes : Writes written value) :
    unquote? written = some value := by
  obtain ⟨first, opens, last, closes, rfl, plain⟩ := writes
  rw [← any_isQuote_eq_false_iff] at plain
  by_cases blank : value = []
  · subst blank
    revert first last
    decide
  · have reversed : value.reverse.any isQuote = false := by rwa [List.any_reverse]
    have inner : dropQuote (first ++ value ++ last) = value ++ last := by
      rw [List.append_assoc, dropQuote_append opens plain blank]
    have ended : dropQuote (value ++ last).reverse = value.reverse := by
      have dropped := dropQuote_append (reverse_mem_marks closes) reversed (by simpa using blank) []
      rwa [List.append_nil, ← List.reverse_append] at dropped
    simp only [unquote?, inner, ended, List.reverse_reverse, plain, Bool.false_eq_true, if_false]

theorem unquote?_eq_some_iff {written value : List Char} :
    unquote? written = some value ↔ Writes written value := by
  refine ⟨fun found => ?_, unquote?_of_writes⟩
  obtain ⟨first, opens, begun⟩ := dropQuote_split written
  obtain ⟨last, closes, ended⟩ := dropQuote_split (dropQuote written).reverse
  simp only [unquote?, Option.ite_none_left_eq_some, Bool.not_eq_true, Option.some.injEq] at found
  obtain ⟨plain, rfl⟩ := found
  refine ⟨first, opens, last.reverse, reverse_mem_marks closes, ?_, (any_isQuote_eq_false_iff _).mp plain⟩
  rw [List.append_assoc, ← List.reverse_append, ← ended, List.reverse_reverse]
  exact begun

theorem expression?_eq_some_iff {expression key value : List Char} :
    expression? expression = some (key, value) ↔ Gives expression key value := by
  simp only [expression?, Option.bind_eq_some_iff, Option.map_eq_some_iff, Prod.exists, Prod.mk.injEq,
    Text.cut?_eq_some_iff, unquote?_eq_some_iff, Gives]
  grind

/-! ### The last one counts -/

namespace Attributes

theorem get?_foldl_insert (pairs : List (List Char × List Char)) (attributes : Attributes) (key : List Char) :
    (pairs.foldl (fun attributes pair => attributes.insert pair.1 pair.2) attributes).get? key =
      (pairs.reverse.lookup key).or (attributes.get? key) := by
  induction pairs generalizing attributes with
  | nil => rfl
  | cons pair rest ih =>
    rw [List.foldl_cons, ih, get?_insert, List.reverse_cons, List.lookup_append, Option.or_assoc,
      lookup_entry]
    congr 1
    split <;> rfl

/-- The value that the expression gives to this name. -/
def valueOf? (key expression : List Char) : Option (List Char) :=
  (expression? expression).bind fun pair => if key = pair.1 then some pair.2 else none

theorem valueOf?_eq_some_iff {key expression value : List Char} :
    valueOf? key expression = some value ↔ Gives expression key value := by
  rw [← expression?_eq_some_iff, valueOf?]
  rcases expression? expression with _ | ⟨name, given⟩
  · simp
  · by_cases same : key = name <;> simp [same, eq_comm]

theorem valueOf?_eq_none_iff {key expression : List Char} :
    valueOf? key expression = none ↔ ∀ value, ¬ Gives expression key value := by
  simp only [Option.eq_none_iff_forall_ne_some, ne_eq, valueOf?_eq_some_iff]

theorem lookup_filterMap (key : List Char) (expressions : List (List Char)) :
    (expressions.filterMap expression?).lookup key = expressions.findSome? (valueOf? key) := by
  induction expressions with
  | nil => rfl
  | cons expression rest ih =>
    rw [List.findSome?_cons, valueOf?, List.filterMap_cons]
    rcases expression? expression with _ | ⟨name, given⟩
    · exact ih
    · rw [lookup_entry, Option.bind_some]
      by_cases same : key = name <;> simp [same, ih]

theorem get?_parse (raw key : List Char) :
    (parse raw).get? key = (raw.splitOn ' ').reverse.findSome? (valueOf? key) := by
  rw [parse, ofPairs, get?_foldl_insert, ← List.filterMap_reverse, lookup_filterMap,
    Text.pieces_eq_splitOn]
  exact Option.or_none

theorem get?_parse_eq_some_iff (raw : List Char) {key value : List Char} :
    (parse raw).get? key = some value ↔
      ∃ earlier expression later, raw.splitOn ' ' = earlier ++ expression :: later ∧
        Gives expression key value ∧ ∀ other ∈ later, ∀ held, ¬ Gives other key held := by
  simp only [get?_parse, List.findSome?_eq_some_iff, valueOf?_eq_some_iff, valueOf?_eq_none_iff]
  constructor
  · rintro ⟨later, expression, earlier, turned, gives, last⟩
    refine ⟨earlier.reverse, expression, later.reverse, ?_, gives, ?_⟩
    · rw [List.reverse_eq_iff.mp turned]
      simp
    · simpa using last
  · rintro ⟨earlier, expression, later, whole, gives, last⟩
    refine ⟨later.reverse, expression, earlier.reverse, ?_, gives, ?_⟩
    · rw [whole]
      simp
    · simpa using last

theorem get?_parse_eq_none_iff (raw key : List Char) :
    (parse raw).get? key = none ↔ ∀ expression ∈ raw.splitOn ' ', ∀ value, ¬ Gives expression key value := by
  simp only [get?_parse, List.findSome?_eq_none_iff, valueOf?_eq_none_iff, List.mem_reverse]

/-! ### Lists in order -/

/-- Ascending by name, each name once. -/
def Ordered (attributes : Attributes) : Prop := attributes.entries.Pairwise (·.1 < ·.1)

theorem mem_insertEntry {name value : List Char} {entries : List (List Char × List Char)}
    {entry : List Char × List Char} (among : entry ∈ insertEntry name value entries) :
    entry = (name, value) ∨ entry ∈ entries := by
  induction entries with
  | nil => exact .inl (List.mem_singleton.mp among)
  | cons first rest ih =>
    rw [insertEntry] at among
    split at among
    · exact (List.mem_cons.mp among).imp_right (List.mem_cons_of_mem first)
    · split at among
      · exact List.mem_cons.mp among
      · rcases List.mem_cons.mp among with rfl | later
        · exact .inr List.mem_cons_self
        · exact (ih later).imp_right (List.mem_cons_of_mem first)

theorem Ordered.insert {attributes : Attributes} (ordered : attributes.Ordered) (name value : List Char) :
    (attributes.insert name value).Ordered := by
  obtain ⟨entries⟩ := attributes
  simp only [Ordered, Attributes.insert] at ordered ⊢
  induction entries with
  | nil => exact List.pairwise_singleton ..
  | cons first rest ih =>
    obtain ⟨least, others⟩ := List.pairwise_cons.mp ordered
    rw [insertEntry]
    split
    · rename_i same
      exact List.pairwise_cons.mpr ⟨same ▸ least, others⟩
    · rename_i differ
      split
      · rename_i before
        refine List.pairwise_cons.mpr ⟨fun entry among => ?_, ordered⟩
        rcases List.mem_cons.mp among with rfl | later
        · exact before
        · exact before.trans (least entry later)
      · rename_i behind
        refine List.pairwise_cons.mpr ⟨fun entry among => ?_, ih others⟩
        rcases mem_insertEntry among with rfl | later
        · exact lt_of_le_of_ne (not_lt.mp behind) (Ne.symm differ)
        · exact least entry later

theorem parse_ordered (raw : List Char) : (parse raw).Ordered := by
  rw [parse, ofPairs]
  generalize (Text.pieces ' ' raw).filterMap expression? = pairs
  suffices each : ∀ attributes : Attributes, attributes.Ordered →
      (pairs.foldl (fun attributes pair => attributes.insert pair.1 pair.2) attributes).Ordered from
    each empty List.Pairwise.nil
  induction pairs with
  | nil => exact fun _ ordered => ordered
  | cons pair rest ih => exact fun _ ordered => ih _ (ordered.insert pair.1 pair.2)

-- As no name comes twice, what is looked up is what is there.
theorem Ordered.get?_eq_some_iff {attributes : Attributes} (ordered : attributes.Ordered)
    (key value : List Char) : attributes.get? key = some value ↔ (key, value) ∈ attributes.entries := by
  obtain ⟨entries⟩ := attributes
  simp only [get?]
  induction entries with
  | nil => exact ⟨nofun, nofun⟩
  | cons first rest ih =>
    obtain ⟨name, held⟩ := first
    obtain ⟨least, tail⟩ := List.pairwise_cons.mp ordered
    rw [lookup_entry, List.mem_cons, Prod.mk.injEq]
    split
    · rename_i here
      subst here
      have once : (key, value) ∉ rest := fun among => (least _ among).ne rfl
      simp [once, eq_comm]
    · rename_i differ
      rw [ih tail, or_iff_right fun same => differ same.1]

theorem Ordered.ext {attributes other : Attributes} (ordered : attributes.Ordered)
    (otherOrdered : other.Ordered) (same : ∀ key, attributes.get? key = other.get? key) :
    attributes = other := by
  have shared (entry : List Char × List Char) : entry ∈ attributes.entries ↔ entry ∈ other.entries := by
    rw [← ordered.get?_eq_some_iff, ← otherOrdered.get?_eq_some_iff, same]
  have : Std.Irrefl fun entry later : List Char × List Char => entry.1 < later.1 :=
    ⟨fun entry => lt_irrefl entry.1⟩
  have : Std.Antisymm fun entry later : List Char × List Char => entry.1 < later.1 :=
    ⟨fun _ _ before after => absurd before after.asymm⟩
  exact congrArg Attributes.mk (List.Pairwise.eq_of_mem_iff ordered otherOrdered @shared)

/-- The attributes with those of the other list put over them. -/
def overriddenBy (attributes other : Attributes) : Attributes :=
  other.entries.foldr (fun entry attributes => attributes.insert entry.1 entry.2) attributes

theorem get?_overriddenBy (attributes other : Attributes) (key : List Char) :
    (attributes.overriddenBy other).get? key = (other.get? key).or (attributes.get? key) := by
  obtain ⟨entries⟩ := other
  simp only [overriddenBy]
  induction entries with
  | nil => rfl
  | cons entry rest ih =>
    obtain ⟨name, value⟩ := entry
    rw [List.foldr_cons, get?_insert, ih]
    simp only [get?, lookup_entry]
    split <;> rfl

theorem Ordered.overriddenBy {attributes : Attributes} (ordered : attributes.Ordered) (other : Attributes) :
    (attributes.overriddenBy other).Ordered := by
  obtain ⟨entries⟩ := other
  simp only [Attributes.overriddenBy]
  induction entries with
  | nil => exact ordered
  | cons entry rest ih => exact ih.insert entry.1 entry.2

theorem parse_append (raw more : List Char) :
    parse (raw ++ ' ' :: more) = (parse raw).overriddenBy (parse more) := by
  refine (parse_ordered _).ext ((parse_ordered raw).overriddenBy _) fun key => ?_
  rw [get?_overriddenBy, get?_parse, get?_parse, get?_parse, Text.splitOn_append_cons,
    List.reverse_append, List.findSome?_append]

/-- A name has the value of the last expression for it, among the pieces between the spaces of the
list, and no value if there is none. So a list and another one after a space say what the second one
says, over what the first one says. -/
theorem parse_reads_last_expressions (raw : List Char) :
    (∀ key value, (parse raw).get? key = some value ↔
      ∃ earlier expression later, raw.splitOn ' ' = earlier ++ expression :: later ∧
        Gives expression key value ∧ ∀ other ∈ later, ∀ held, ¬ Gives other key held) ∧
    (∀ key, (parse raw).get? key = none ↔
      ∀ expression ∈ raw.splitOn ' ', ∀ value, ¬ Gives expression key value) ∧
    ∀ more, parse (raw ++ ' ' :: more) = (parse raw).overriddenBy (parse more) ∧
      ∀ key, (parse (raw ++ ' ' :: more)).get? key = ((parse more).get? key).or ((parse raw).get? key) := by
  refine ⟨fun key value => get?_parse_eq_some_iff raw, get?_parse_eq_none_iff raw, fun more => ?_⟩
  have whole := parse_append raw more
  refine ⟨whole, fun key => ?_⟩
  rw [whole, get?_overriddenBy]

-- A lone quote is dropped, one inside a value spoils the expression, and a name may be empty.
example : parse "w=\" =a=b' W=\"\"\" ß='x SS=\ny".toList =
    ⟨[([], "a=b".toList), (['S', 'S'], "\ny".toList), (['W'], [])]⟩ := by decide +kernel

end Attributes

end Markup

end Letterhead
