import Letterhead.Markup.Token

/-!
Where the tags of a text are. A text has exactly one division into content and tags in which no
tag could begin earlier, and the tokens are those of this division.
-/

namespace Letterhead.Markup

/-! ### Interiors -/

def IsInterior (text : List Char) : Prop := '>' ∉ text ∧ '\n' ∉ text

-- A line feed comes before any `>`.
def Broken (text : List Char) : Prop := ∃ line rest, text = line ++ '\n' :: rest ∧ '>' ∉ line

-- No `>` comes before the first line feed.
def Unclosed (text : List Char) : Prop := ∀ line rest, text = line ++ '>' :: rest → '\n' ∈ line

theorem unclosed_cons (c : Char) (rest : List Char) :
    Unclosed (c :: rest) ↔ c ≠ '>' ∧ (c = '\n' ∨ Unclosed rest) := by
  constructor
  · intro unclosed
    constructor
    · rintro rfl
      cases unclosed [] rest rfl
    · by_cases feed : c = '\n'
      · exact .inl feed
      · refine .inr fun line tail same => ?_
        have later := unclosed (c :: line) tail (by rw [same]; rfl)
        exact (List.mem_cons.mp later).resolve_left (Ne.symm feed)
  · rintro ⟨other, feed⟩ line tail same
    cases line with
    | nil => exact absurd (List.cons.inj same).1 other
    | cons first line =>
      obtain ⟨rfl, after⟩ := List.cons.inj same
      rcases feed with rfl | unclosed
      · exact List.mem_cons_self
      · exact List.mem_cons_of_mem _ (unclosed line tail after)

variable {text content interior rest : List Char}

theorem interior?_inside (found : interior? text = some (interior, rest)) : IsInterior interior := by
  induction text generalizing interior with
  | nil => cases found
  | cons c tail ih =>
    simp only [interior?] at found
    split at found
    · cases found
      exact ⟨List.not_mem_nil, List.not_mem_nil⟩
    · rename_i other
      split at found
      · cases found
      · rename_i on
        obtain ⟨⟨inner, outer⟩, inside, same⟩ := Option.map_eq_some_iff.mp found
        cases same
        obtain ⟨unclosed, unbroken⟩ := ih inside
        exact ⟨by simp [Ne.symm other, unclosed], by simp [Ne.symm on, unbroken]⟩

theorem interior?_append (inside : IsInterior interior) (rest : List Char) :
    interior? (interior ++ '>' :: rest) = some (interior, rest) := by
  obtain ⟨unclosed, unbroken⟩ := inside
  induction interior with
  | nil => rfl
  | cons c tail ih =>
    rw [List.mem_cons, not_or] at unclosed unbroken
    simp [interior?, Ne.symm unclosed.1, Ne.symm unbroken.1, ih unclosed.2 unbroken.2]

theorem interior?_eq_none_iff : interior? text = none ↔ Unclosed text := by
  induction text with
  | nil => simp [interior?, Unclosed]
  | cons c rest ih =>
    rw [unclosed_cons, ← ih, interior?]
    by_cases closes : c = '>'
    · simp [closes]
    · by_cases feed : c = '\n' <;> simp [closes, feed]

theorem Broken.unclosed (broken : Broken text) (more : List Char) : Unclosed (text ++ more) := by
  obtain ⟨line, rest, rfl, open_⟩ := broken
  induction line with
  | nil => exact (unclosed_cons _ _).mpr ⟨by decide, .inl rfl⟩
  | cons c line ih =>
    rw [List.mem_cons, not_or] at open_
    exact (unclosed_cons _ _).mpr ⟨Ne.symm open_.1, .inr (ih open_.2)⟩

-- The tag that follows closes on its line, so the line feed stands before it.
theorem Unclosed.broken (inside : IsInterior interior)
    (unclosed : Unclosed (content ++ '<' :: (interior ++ '>' :: rest))) : Broken content := by
  induction content with
  | nil =>
    have feed := unclosed ('<' :: interior) rest rfl
    simp [inside.2] at feed
  | cons c content ih =>
    obtain ⟨other, feed⟩ := (unclosed_cons _ _).mp unclosed
    rcases feed with rfl | later
    · exact ⟨[], content, rfl, List.not_mem_nil⟩
    · obtain ⟨line, tail, rfl, before⟩ := ih later
      exact ⟨c :: line, tail, rfl, by simp [Ne.symm other, before]⟩

/-! ### The first tag -/

-- What follows a `<` is always of this kind.
def EachOpening (kind : List Char → Prop) (text : List Char) : Prop :=
  ∀ before after, text = before ++ '<' :: after → kind after

theorem eachOpening_cons (kind : List Char → Prop) (c : Char) (rest : List Char) :
    EachOpening kind (c :: rest) ↔ (c = '<' → kind rest) ∧ EachOpening kind rest := by
  constructor
  · intro each
    constructor
    · rintro rfl
      exact each [] rest rfl
    · intro before after same
      exact each (c :: before) after (by rw [same]; rfl)
  · rintro ⟨first, each⟩ before after same
    cases before with
    | nil =>
      obtain ⟨opens, rfl⟩ := List.cons.inj same
      exact first opens
    | cons _ before => exact each before after (List.cons.inj same).2

theorem eachOpening_of_not_mem (kind : List Char → Prop) (plain : '<' ∉ text) : EachOpening kind text := by
  rintro before after rfl
  simp at plain

theorem split?_eq_none_iff : split? text = none ↔ EachOpening Unclosed text := by
  induction text with
  | nil => simp [split?, EachOpening]
  | cons c rest ih =>
    rw [eachOpening_cons, ← ih, ← interior?_eq_none_iff, split?]
    by_cases opens : c = '<'
    · cases inside : interior? rest <;> simp [opens]
    · simp [opens]

theorem split?_guarded {split : Split} (found : split? text = some split) :
    IsInterior split.interior ∧ EachOpening Broken split.content := by
  induction text generalizing split with
  | nil => cases found
  | cons c tail ih =>
    simp only [split?] at found
    split at found
    · rename_i interior rest inside
      cases found
      split at inside
      · exact ⟨interior?_inside inside, by simp [EachOpening]⟩
      · cases inside
    · rename_i untagged
      obtain ⟨later, apart, rfl⟩ := Option.map_eq_some_iff.mp found
      obtain ⟨inside, each⟩ := ih apart
      refine ⟨inside, (eachOpening_cons _ _ _).mpr ⟨fun opens => ?_, each⟩⟩
      rw [if_pos opens, interior?_eq_none_iff, split?_eq apart] at untagged
      exact untagged.broken inside

theorem split?_append (inside : IsInterior interior) (each : EachOpening Broken content)
    (rest : List Char) :
    split? (content ++ '<' :: (interior ++ '>' :: rest)) = some ⟨content, interior, rest⟩ := by
  induction content with
  | nil => simp [split?, interior?_append inside]
  | cons c content ih =>
    obtain ⟨opening, later⟩ := (eachOpening_cons _ _ _).mp each
    have untagged : (if c = '<' then
        interior? (content ++ '<' :: (interior ++ '>' :: rest)) else none) = none := by
      split
      · rename_i opens
        exact interior?_eq_none_iff.mpr ((opening opens).unclosed _)
      · rfl
    simp [split?, untagged, ih later]

/-! ### All tags -/

/-- The interior of each tag with the content before it, and the content after the last tag. -/
structure Division where
  tagged : List (List Char × List Char)
  last : List Char

def Token.isTag : Token → Bool
  | .content _ => false
  | .tag _ => true

namespace Division

def joined (division : Division) : List Char :=
  division.tagged.flatMap (fun piece => piece.1 ++ '<' :: (piece.2 ++ ['>'])) ++ division.last

def tokens (division : Division) : List Token :=
  division.tagged.flatMap (fun piece => [.content piece.1, .tag (.parse piece.2)]) ++
    [.content division.last]

-- No tag could begin earlier, and none is left out.
structure Leftmost (division : Division) : Prop where
  interiors : ∀ piece ∈ division.tagged, IsInterior piece.2
  contents : ∀ piece ∈ division.tagged, EachOpening Broken piece.1
  last : EachOpening Unclosed division.last

def after (content interior : List Char) (division : Division) : Division :=
  { division with tagged := (content, interior) :: division.tagged }

theorem joined_after (content interior : List Char) (division : Division) :
    (division.after content interior).joined =
      content ++ '<' :: (interior ++ '>' :: division.joined) := by
  simp [after, joined]

theorem Leftmost.after {division : Division} (leftmost : division.Leftmost)
    (inside : IsInterior interior) (each : EachOpening Broken content) :
    (division.after content interior).Leftmost where
  interiors := List.forall_mem_cons.mpr ⟨inside, leftmost.interiors⟩
  contents := List.forall_mem_cons.mpr ⟨each, leftmost.contents⟩
  last := leftmost.last

theorem Leftmost.split?_joined {tagged : List (List Char × List Char)} {last : List Char}
    (leftmost : Leftmost ⟨(content, interior) :: tagged, last⟩) :
    split? (joined ⟨(content, interior) :: tagged, last⟩) =
        some ⟨content, interior, joined ⟨tagged, last⟩⟩ ∧
      Leftmost ⟨tagged, last⟩ := by
  obtain ⟨interiors, contents, ending⟩ := leftmost
  rw [List.forall_mem_cons] at interiors contents
  constructor
  · rw [← split?_append interiors.1 contents.1, ← joined_after]
    rfl
  · exact ⟨interiors.2, contents.2, ending⟩

-- The first tag of the text decides on the first piece, and its rest on the others.
theorem Leftmost.unique {division other : Division} (leftmost : division.Leftmost)
    (rival : other.Leftmost) (same : division.joined = other.joined) : division = other := by
  obtain ⟨tagged, last⟩ := division
  obtain ⟨others, ending⟩ := other
  induction tagged generalizing others with
  | nil =>
    cases others with
    | nil => exact congrArg (Division.mk []) same
    | cons piece others =>
      have untagged : split? last = none := split?_eq_none_iff.mpr leftmost.last
      have found := rival.split?_joined.1
      rw [← same] at found
      cases untagged.symm.trans found
  | cons piece tagged ih =>
    have found := leftmost.split?_joined.1
    cases others with
    | nil =>
      have untagged : split? ending = none := split?_eq_none_iff.mpr rival.last
      rw [same] at found
      cases untagged.symm.trans found
    | cons first others =>
      have first_found := rival.split?_joined.1
      rw [← same, found] at first_found
      obtain ⟨one, two, rest⟩ := Split.mk.inj (Option.some.inj first_found)
      have later := ih leftmost.split?_joined.2 others rival.split?_joined.2 rest
      obtain ⟨rfl, rfl⟩ := Division.mk.inj later
      rw [Prod.ext one two]

theorem tokens_alternate (division : Division) :
    division.tokens.length = 2 * division.tagged.length + 1 ∧
      ∀ index token, division.tokens[index]? = some token →
        (token.isTag = true ↔ index % 2 = 1) := by
  obtain ⟨tagged, last⟩ := division
  induction tagged with
  | nil =>
    refine ⟨rfl, fun index token found => ?_⟩
    cases index with
    | zero => cases found; simp [Token.isTag]
    | succ index => cases found
  | cons piece tagged ih =>
    obtain ⟨length, alternate⟩ := ih
    rw [show (Division.mk (piece :: tagged) last).tokens =
      .content piece.1 :: .tag (.parse piece.2) :: tokens ⟨tagged, last⟩ from rfl]
    constructor
    · simp only [List.length_cons, length]
      omega
    · intro index token found
      match index with
      | 0 => cases found; simp [Token.isTag]
      | 1 => cases found; simp [Token.isTag]
      | index + 2 =>
        rw [alternate index token found]
        omega

end Division

theorem exists_division (text : List Char) :
    ∃ division : Division, division.joined = text ∧ division.Leftmost ∧
      tokenize text = division.tokens := by
  fun_induction tokenize text with
  | case1 text untagged =>
    exact ⟨⟨[], text⟩, rfl, ⟨nofun, nofun, split?_eq_none_iff.mp untagged⟩, rfl⟩
  | case2 text split found ih =>
    obtain ⟨division, joined, leftmost, tokens⟩ := ih
    obtain ⟨inside, each⟩ := split?_guarded found
    refine ⟨division.after split.content split.interior, ?_, leftmost.after inside each, ?_⟩
    · rw [Division.joined_after, joined, split?_eq found]
    · rw [tokens]
      rfl

/-- The tokens of a text are those of its one division into content and tags in which no tag could
begin earlier and none is left out. They alternate, with content first and last, and every
character of the text is in one of them or is a bracket of a tag. -/
theorem tokenize_divides (text : List Char) :
    ∃ division : Division, division.joined = text ∧ division.Leftmost ∧
      tokenize text = division.tokens ∧
      (∀ other : Division, other.joined = text → other.Leftmost → other = division) ∧
      (tokenize text).length = 2 * division.tagged.length + 1 ∧
      ∀ index token, (tokenize text)[index]? = some token →
        (token.isTag = true ↔ index % 2 = 1) := by
  obtain ⟨division, joined, leftmost, tokens⟩ := exists_division text
  refine ⟨division, joined, leftmost, tokens, ?_, ?_⟩
  · intro other same rival
    exact rival.unique leftmost (same.trans joined.symm)
  · rw [tokens]
    exact division.tokens_alternate

end Letterhead.Markup
