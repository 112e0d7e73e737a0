import Letterhead.Proofs.Float.Comparison
import Letterhead.Proofs.Surface.Lengths
import Letterhead.Proofs.Text.Rows
import Mathlib.Data.List.DropRight

/-!
How a text is wrapped. What is put down at once is a fragment: words with the spaces that end them,
and letters of words that are wider than a line. A fragment is a single letter, or it does not cross
the right edge but for the space at its end. A word is split only if it is too wide for a whole line,
and then it shares no fragment with earlier words, and only its last fragment with later ones.
-/

namespace Letterhead

open Binary
open Text (Leaves Wrapping Divides Unbroken Broken)

/-- Where it starts, and its pieces: words, and letters of words that are split. -/
structure Fragment where
  start : Float32
  pieces : List (List Char)

def Fragment.text (fragment : Fragment) : List Char := fragment.pieces.flatten

namespace Paper

/-- The second paper is the first one after these fragments were put down on it, in this order. -/
inductive Emits (lineHeight : Float32) (paper : Paper) : List Fragment → Paper → Prop
  | stay : Emits lineHeight paper [] paper
  | emit {fragments : List Fragment} {after : Paper} (fragment : Fragment)
      (some : fragment.text ≠ []) (emits : Emits lineHeight paper fragments after) :
      Emits lineHeight paper (fragments ++ [fragment])
        (after.emit fragment.start lineHeight fragment.text)
  | startLine {fragments : List Fragment} {after : Paper}
      (emits : Emits lineHeight paper fragments after) :
      Emits lineHeight paper fragments (after.startLine lineHeight)
  | moveTo {fragments : List Fragment} {after : Paper} (x : Float32)
      (emits : Emits lineHeight paper fragments after) :
      Emits lineHeight paper fragments { after with x }

/-- Widths are added up from left to right. -/
def extent (paper : Paper) (pieces : List (List Char)) : Float32 :=
  pieces.foldl (fun width piece => width + paper.measure piece) 0

/-- A piece without the spaces at its end. -/
def trimSpaces (piece : List Char) : List Char := piece.rdropWhile (· == ' ')

/-- Whether pieces cross the right edge, with so much of the last one taken into account. -/
def Crosses (paper : Paper) (start : Float32) (before : List (List Char)) (last : List Char) : Prop :=
  paper.rightLimit < start + paper.extent before + paper.measure last

/-- The fragment does not cross the right edge, but for the spaces at its end. -/
def Fits (paper : Paper) (fragment : Fragment) : Prop :=
  ¬ paper.Crosses fragment.start fragment.pieces.dropLast (trimSpaces (fragment.pieces.getLastD []))

/-- The word is too wide for a whole line. -/
def Overlong (paper : Paper) (word : List Char) : Prop :=
  paper.rightLimit < paper.settings.margins.left + paper.measure (trimSpaces word)

/-- The word is too wide for a line from the left margin on, or from a cursor that is not beyond it. -/
def Unfit (paper : Paper) (word : List Char) : Prop :=
  paper.Overlong word ∨ ¬ paper.settings.margins.left < paper.x ∧
    paper.rightLimit < paper.x + paper.measure (trimSpaces word)

variable {lineHeight : Float32} {paper after : Paper} {fragments broken : List Fragment}

theorem Emits.draws (emits : Emits lineHeight paper fragments after) :
    Draws paper (fragments.map Fragment.text) after := by
  induction emits with
  | stay => exact .stay
  | emit fragment some emits ih =>
    have filled : fragment.text.isEmpty = false := by simpa using some
    rw [List.map_append, Paper.emit, if_neg (by simp [filled])]
    exact .place _ _ some (ih.turnPageFor lineHeight)
  | startLine emits ih => exact ih.startLine lineHeight
  | moveTo x emits ih => exact .move _ _ ih

/-! ### Words -/

theorem word_shape {word segment : List Char} (member : word ∈ Text.words ' ' segment) :
    word ≠ [] ∧ ∃ body, ' ' ∉ body ∧ (word = body ∨ word = body ++ [' ']) := by
  induction segment generalizing word with
  | nil => cases member
  | cons c rest ih =>
    simp only [Text.words] at member
    split at member
    · rename_i space
      obtain rfl : c = ' ' := by simpa using space
      rcases List.mem_cons.mp member with rfl | later
      · exact ⟨List.cons_ne_nil _ _, [], List.not_mem_nil, .inr rfl⟩
      · exact ih later
    · rename_i letter
      have differ : ¬ ' ' = c := fun same => letter (by rw [← same]; rfl)
      split at member
      · obtain rfl := List.mem_singleton.mp member
        exact ⟨List.cons_ne_nil _ _, [c], by simpa using differ, .inl rfl⟩
      · rename_i first others found
        rcases List.mem_cons.mp member with rfl | later
        · obtain ⟨-, body, clean, shape⟩ := ih (found ▸ List.mem_cons_self)
          refine ⟨List.cons_ne_nil _ _, c :: body, by simp [differ, clean], ?_⟩
          rcases shape with rfl | rfl
          · exact .inl rfl
          · exact .inr rfl
        · exact ih (found ▸ List.mem_cons_of_mem _ later)

theorem trimSpaces_body {body : List Char} (clean : ' ' ∉ body) : trimSpaces body = body := by
  rw [trimSpaces, List.rdropWhile_eq_self_iff]
  intro some space
  have last := List.getLast_mem some
  rw [eq_of_beq space] at last
  exact clean last

theorem trimSpaces_eq_filter {word segment : List Char} (member : word ∈ Text.words ' ' segment) :
    trimSpaces word = word.filter (· != ' ') := by
  obtain ⟨-, body, clean, shape⟩ := word_shape member
  have kept : body.filter (· != ' ') = body := by
    rw [List.filter_eq_self]
    intro c inside
    rw [bne_iff_ne]
    rintro rfl
    exact clean inside
  rcases shape with rfl | rfl
  · rw [trimSpaces_body clean, kept]
  · have blank : [' '].filter (· != ' ') = [] := rfl
    rw [List.filter_append, kept, blank, List.append_nil, trimSpaces,
      List.rdropWhile_concat_pos _ _ _ rfl]
    exact trimSpaces_body clean

theorem trimSpaces_letter (c : Char) : trimSpaces [c] = [] ∨ trimSpaces [c] = [c] := by
  rw [trimSpaces, List.rdropWhile_singleton]
  split
  · exact .inl rfl
  · exact .inr rfl

/-! ### The tests of the loop -/

theorem extent_concat (paper : Paper) (pieces : List (List Char)) (piece : List Char) :
    paper.extent (pieces ++ [piece]) = paper.extent pieces + paper.measure piece :=
  List.foldl_append

/-- What the loop has found out about a fragment before it put its last piece there. A letter is
measured as it is, also if it is a space. -/
def Tested (paper : Paper) (fragment : Fragment) : Prop :=
  fragment.text.length = 1 ∨
    ∃ before last, fragment.pieces = before ++ [last] ∧
      (¬ paper.Crosses fragment.start before (trimSpaces last) ∨
        (∃ c, last = [c]) ∧ ¬ paper.Crosses fragment.start before last)

theorem textExtent_upTo {text : List Char} {size bound : Float32}
    (product : UpTo bound (Float32.ofNat text.length * size)) : UpTo bound (textExtent text size) := by
  have half : value 0.5 = 1 / 2 := by
    have read : (0.5 : Float32).toModel.unpack = .finite .positive (2 ^ 23) (-24) (by decide) := rfl
    rw [value_of_unpack read]
    norm_num
  have points : 1 ≤ value pointsPerMillimetre := by
    rw [value_of_unpack pointsPerMillimetre_unpack]
    norm_num
  exact (product.mul rfl (by norm_num [half]) (by norm_num [half])).div rfl points

-- A space has a width, so a line that has room for it has room for nothing.
theorem measure_nil_le {paper : Paper} (finite : paper.fontSize.isFinite = true)
    (positive : 0 < paper.fontSize) (c : Char) : paper.measure [] ≤ paper.measure [c] := by
  have zero : (0 : Float32).isFinite = true := rfl
  have none : value 0 = 0 := number_zero .positive
  have above : 0 ≤ value paper.fontSize := by
    rw [← none]
    exact ((lt_iff zero finite).mp positive).le
  have one : value (Float32.ofNat 1) = 1 := by
    have read : (Float32.ofNat 1).toModel.unpack = .finite .positive (2 ^ 23) (-23) (by decide) := rfl
    rw [value_of_unpack read]
    norm_num
  have first : UpTo 0 (paper.measure []) := by
    have product : value (Float32.ofNat 0) * value paper.fontSize = 0 := mul_eq_zero_of_left none _
    exact textExtent_upTo (upTo_mul rfl finite zero product.ge (product.trans none.symm).le)
  have second : UpTo paper.fontSize (paper.measure [c]) := by
    have product : value (Float32.ofNat 1) * value paper.fontSize = value paper.fontSize := by
      rw [one, one_mul]
    have whole : UpTo paper.fontSize (Float32.ofNat 1 * paper.fontSize) :=
      upTo_mul rfl finite finite (by rw [product]; exact above) product.le
    exact textExtent_upTo whole
  rw [le_iff first.finite second.finite]
  exact (first.le.trans none.le).trans second.notNegative

theorem Tested.fits {fragment : Fragment} (tested : paper.Tested fragment)
    (finite : paper.fontSize.isFinite = true) (positive : 0 < paper.fontSize) :
    fragment.text.length = 1 ∨ paper.Fits fragment := by
  rcases tested with single | ⟨before, last, pieces, clear⟩
  · exact .inl single
  · refine .inr ?_
    rw [Fits, pieces, List.dropLast_concat, List.getLastD_concat]
    rcases clear with clear | ⟨⟨c, rfl⟩, clear⟩
    · exact clear
    · rcases trimSpaces_letter c with blank | whole
      · rw [blank]
        exact fun crosses => clear (lt_add_of_le (measure_nil_le finite positive c) crosses)
      · rwa [whole]

/-! ### Lines -/

/-- What holds of a line under construction: these fragments have been put down, and these pieces
wait on the line. -/
structure Line.Wraps (lineHeight : Float32) (paper : Paper) (fragments : List Fragment)
    (pieces : List (List Char)) (line : Line) : Prop where
  emits : Emits lineHeight paper fragments line.paper
  text : line.text = pieces.flatten
  filled : [] ∉ pieces
  width : line.width = paper.extent pieces
  start : line.start = paper.settings.margins.left ∨ (fragments = [] ∧ line.start = paper.x)
  starts : ∀ fragment ∈ fragments.tail, fragment.start = paper.settings.margins.left
  closed : ∀ fragment ∈ fragments, paper.Tested fragment
  waiting : pieces = [] ∨ paper.Tested ⟨line.start, pieces⟩

namespace Line.Wraps

variable {pieces : List (List Char)} {line : Line}

theorem settings (wraps : line.Wraps lineHeight paper fragments pieces) :
    line.paper.settings = paper.settings :=
  wraps.emits.draws.kept.settings

theorem measure_eq (wraps : line.Wraps lineHeight paper fragments pieces) (text : List Char) :
    line.paper.measure text = paper.measure text := by
  rw [Paper.measure, wraps.emits.draws.kept.fontSize, Paper.measure]

theorem rightLimit_eq (wraps : line.Wraps lineHeight paper fragments pieces) :
    line.paper.rightLimit = paper.rightLimit := by
  rw [Paper.rightLimit, wraps.settings, Paper.rightLimit]

theorem overflows_iff (wraps : line.Wraps lineHeight paper fragments pieces) (text : List Char) :
    line.overflows (line.paper.measure text) = true ↔ paper.Crosses line.start pieces text := by
  rw [Line.overflows, decide_eq_true_eq, wraps.rightLimit_eq, wraps.measure_eq, wraps.width, Crosses]

theorem text_eq_nil_iff (wraps : line.Wraps lineHeight paper fragments pieces) :
    line.text = [] ↔ pieces = [] := by
  rw [wraps.text, List.flatten_eq_nil_iff]
  constructor
  · intro blank
    rcases pieces with _ | ⟨first, rest⟩
    · rfl
    · exact absurd (blank first List.mem_cons_self ▸ List.mem_cons_self) wraps.filled
  · rintro rfl
    exact fun _ member => absurd member List.not_mem_nil

theorem fresh (paper : Paper) (lineHeight : Float32) :
    Line.Wraps lineHeight paper [] [] ⟨paper, [], paper.x, 0⟩ where
  emits := .stay
  text := rfl
  filled := List.not_mem_nil
  width := rfl
  start := .inr ⟨rfl, rfl⟩
  starts := fun _ member => absurd member List.not_mem_nil
  closed := fun _ member => absurd member List.not_mem_nil
  waiting := .inl rfl

-- The waiting pieces become one more fragment.
theorem emit (wraps : line.Wraps lineHeight paper fragments pieces) (some : pieces ≠ []) :
    Emits lineHeight paper (fragments ++ [⟨line.start, pieces⟩])
      (line.paper.emit line.start lineHeight line.text) := by
  have written : Fragment.text ⟨line.start, pieces⟩ = line.text := wraps.text.symm
  rw [← written]
  apply Emits.emit _ _ wraps.emits
  rw [written]
  exact mt wraps.text_eq_nil_iff.mp some

theorem starts_concat (wraps : line.Wraps lineHeight paper fragments pieces) :
    ∀ fragment ∈ (fragments ++ [Fragment.mk line.start pieces]).tail,
      fragment.start = paper.settings.margins.left := by
  intro fragment member
  rcases wraps.start with left | ⟨rfl, -⟩
  · rcases fragments with _ | ⟨first, rest⟩
    · exact absurd member List.not_mem_nil
    · rcases List.mem_append.mp member with old | new
      · exact wraps.starts fragment old
      · rw [List.mem_singleton.mp new]
        exact left
  · exact absurd member List.not_mem_nil

theorem closed_concat (wraps : line.Wraps lineHeight paper fragments pieces) (some : pieces ≠ []) :
    ∀ fragment ∈ fragments ++ [Fragment.mk line.start pieces], paper.Tested fragment := by
  intro fragment member
  rcases List.mem_append.mp member with old | new
  · exact wraps.closed fragment old
  · rw [List.mem_singleton.mp new]
    exact wraps.waiting.resolve_left some

theorem flush (wraps : line.Wraps lineHeight paper fragments pieces) (some : pieces ≠ []) :
    Line.Wraps lineHeight paper (fragments ++ [⟨line.start, pieces⟩]) [] (line.flush lineHeight) where
  emits := (wraps.emit some).startLine
  text := rfl
  filled := List.not_mem_nil
  width := rfl
  start := by
    left
    show (line.paper.emit line.start lineHeight line.text).settings.margins.left = _
    rw [(wraps.emit some).draws.kept.settings]
  starts := wraps.starts_concat
  closed := wraps.closed_concat some
  waiting := .inl rfl

theorem skip (wraps : line.Wraps lineHeight paper fragments []) :
    Line.Wraps lineHeight paper fragments [] { line with
      paper := line.paper.startLine lineHeight, start := line.paper.settings.margins.left } where
  emits := wraps.emits.startLine
  text := wraps.text
  filled := wraps.filled
  width := wraps.width
  start := .inl (by rw [wraps.settings])
  starts := wraps.starts
  closed := wraps.closed
  waiting := .inl rfl

theorem append (wraps : line.Wraps lineHeight paper fragments pieces) {piece : List Char}
    (some : piece ≠ []) (tested : paper.Tested ⟨line.start, pieces ++ [piece]⟩) :
    Line.Wraps lineHeight paper fragments (pieces ++ [piece]) (line.append piece) where
  emits := wraps.emits
  text := by simp [Line.append, wraps.text]
  filled := by simpa [wraps.filled] using some.symm
  width := by rw [extent_concat, ← wraps.width, ← wraps.measure_eq]; rfl
  start := wraps.start
  starts := wraps.starts
  closed := wraps.closed
  waiting := .inr tested

/-! ### One letter after the other -/

theorem letter (wraps : line.Wraps lineHeight paper fragments pieces) (c : Char) :
    ∃ broken rest, Line.Wraps lineHeight paper (fragments ++ broken) rest (line.letter lineHeight c) ∧
      broken.flatMap Fragment.pieces ++ rest = pieces ++ [[c]] ∧ rest ≠ [] := by
  have alone (start : Float32) : paper.Tested ⟨start, [] ++ [[c]]⟩ := .inl rfl
  rw [Line.letter]
  split
  · rename_i full
    rw [Bool.and_eq_true, Bool.not_eq_true', List.isEmpty_eq_false_iff] at full
    have some := mt wraps.text_eq_nil_iff.mpr full.2
    exact ⟨[⟨line.start, pieces⟩], [[c]],
      (wraps.flush some).append (List.cons_ne_nil c []) (alone _), by simp, List.cons_ne_nil _ _⟩
  · rename_i roomy
    refine ⟨[], pieces ++ [[c]], ?_, rfl, by simp⟩
    rw [List.append_nil]
    apply wraps.append (List.cons_ne_nil c [])
    by_cases first : pieces = []
    · rw [first]
      exact alone _
    · refine .inr ⟨pieces, [c], rfl, .inr ⟨⟨c, rfl⟩, ?_⟩⟩
      rw [← wraps.overflows_iff]
      intro crosses
      apply roomy
      rw [crosses, Bool.true_and, Bool.not_eq_true', List.isEmpty_eq_false_iff]
      exact mt wraps.text_eq_nil_iff.mp first

theorem letters (wraps : line.Wraps lineHeight paper fragments pieces) (word : List Char) :
    ∃ broken rest,
      Line.Wraps lineHeight paper (fragments ++ broken) rest (word.foldl (Line.letter lineHeight) line) ∧
      broken.flatMap Fragment.pieces ++ rest = pieces ++ word.map ([·]) ∧
      (pieces ≠ [] ∨ word ≠ [] → rest ≠ []) := by
  induction word generalizing line fragments pieces with
  | nil => exact ⟨[], pieces, by simpa using wraps, by simp, fun some => by simpa using some⟩
  | cons c word ih =>
    obtain ⟨broken, rest, one, same, some⟩ := wraps.letter c
    obtain ⟨more, last, all, equal, filled⟩ := ih one
    refine ⟨broken ++ more, last, by rwa [← List.append_assoc], ?_, fun _ => filled (.inl some)⟩
    rw [List.flatMap_append, List.append_assoc, equal, ← List.append_assoc, same]
    simp

/-! ### One word after the other -/

theorem makeRoom (wraps : line.Wraps lineHeight paper fragments pieces) :
    ∃ broken, Line.Wraps lineHeight paper (fragments ++ broken) [] (line.makeRoom lineHeight) ∧
      (pieces = [] ∧ broken = [] ∨ ∃ start, broken = [⟨start, pieces⟩]) ∧
      ((line.makeRoom lineHeight).start = paper.settings.margins.left ∨
        ¬ paper.settings.margins.left < paper.x ∧ (line.makeRoom lineHeight).start = paper.x) := by
  rw [Line.makeRoom]
  split
  · rename_i full
    rw [Bool.not_eq_true', List.isEmpty_eq_false_iff] at full
    have flushed := wraps.flush (mt wraps.text_eq_nil_iff.mpr full)
    refine ⟨_, flushed, .inr ⟨_, rfl⟩, ?_⟩
    rcases flushed.start with left | ⟨none, -⟩
    · exact .inl left
    · simp at none
  · rename_i empty
    rw [Bool.not_eq_true, Bool.not_eq_false', List.isEmpty_iff] at empty
    obtain rfl := wraps.text_eq_nil_iff.mp empty
    split
    · refine ⟨[], ?_, .inl ⟨rfl, rfl⟩, .inl ?_⟩
      · rw [List.append_nil]
        exact wraps.skip
      · show line.paper.settings.margins.left = _
        rw [wraps.settings]
    · rename_i low
      refine ⟨[], by rwa [List.append_nil], .inl ⟨rfl, rfl⟩, ?_⟩
      rcases wraps.start with left | ⟨-, start⟩
      · exact .inl left
      · rw [wraps.settings, start] at low
        exact .inr ⟨low, start⟩

theorem word (wraps : line.Wraps lineHeight paper fragments pieces) {words : List (List Char)}
    (wrapping : Wrapping paper.Unfit words (fragments.map Fragment.pieces) pieces) {word : List Char}
    (some : word ≠ []) (shape : trimSpaces word = word.filter (· != ' ')) :
    ∃ broken rest,
      Line.Wraps lineHeight paper (fragments ++ broken) rest (line.word lineHeight word) ∧
      Wrapping paper.Unfit (words ++ [word]) ((fragments ++ broken).map Fragment.pieces) rest := by
  rw [Line.word, ← shape]
  split
  · obtain ⟨left, roomy, leaves, start⟩ := wraps.makeRoom
    have leaves : Leaves pieces (left.map Fragment.pieces) := by
      rcases leaves with ⟨rfl, rfl⟩ | ⟨start, rfl⟩
      · exact .inl ⟨rfl, rfl⟩
      · exact .inr rfl
    simp only [roomy.rightLimit_eq, wraps.measure_eq]
    split
    · rename_i wide
      obtain ⟨own, last, lettered, letters, filled⟩ := roomy.letters word
      rw [List.append_assoc] at lettered
      refine ⟨left ++ own, last, lettered, ?_⟩
      rw [List.map_append, List.map_append, ← List.append_assoc]
      apply Wrapping.split leaves _ _ (filled (.inr some)) wrapping
      · rcases start with margin | ⟨low, cursor⟩
        · rw [margin] at wide
          exact .inl wide
        · rw [cursor] at wide
          exact .inr ⟨low, wide⟩
      · rw [← List.flatMap_def, letters, List.nil_append]
    · rename_i narrow
      refine ⟨left, [word], roomy.append some (.inr ⟨[], word, rfl, .inl ?_⟩), ?_⟩
      · exact fun crosses => narrow (lt_add_of_lt_add_zero crosses)
      · rw [List.map_append]
        exact .begun word leaves wrapping
  · rename_i fits
    rw [wraps.overflows_iff] at fits
    refine ⟨[], pieces ++ [word], ?_, ?_⟩
    · rw [List.append_nil]
      exact wraps.append some (.inr ⟨pieces, word, rfl, .inl fits⟩)
    · rw [List.append_nil]
      exact .joined word wrapping

theorem words (wraps : line.Wraps lineHeight paper fragments pieces) {before : List (List Char)}
    (wrapping : Wrapping paper.Unfit before (fragments.map Fragment.pieces) pieces)
    (words : List (List Char))
    (shaped : ∀ word ∈ words, word ≠ [] ∧ trimSpaces word = word.filter (· != ' ')) :
    ∃ closed rest,
      Line.Wraps lineHeight paper closed rest (words.foldl (Line.word lineHeight) line) ∧
      Wrapping paper.Unfit (before ++ words) (closed.map Fragment.pieces) rest := by
  induction words generalizing line fragments pieces before with
  | nil => exact ⟨fragments, pieces, wraps, by rwa [List.append_nil]⟩
  | cons word rest ih =>
    have first := shaped word List.mem_cons_self
    obtain ⟨broken, row, one, wrapped⟩ := wraps.word wrapping first.1 first.2
    obtain ⟨closed, last, all, done⟩ :=
      ih one wrapped fun later member => shaped later (List.mem_cons_of_mem word member)
    refine ⟨closed, last, all, ?_⟩
    rwa [List.append_assoc, List.singleton_append] at done

end Line.Wraps

/-! ### The right edge, and words that are left whole -/

/-- The fragments of a text without line breaks, and how its words are in them. -/
theorem flowLine_wraps (paper : Paper) (lineHeight : Float32) {segment : List Char} (some : segment ≠ []) :
    ∃ fragments rows row, Emits lineHeight paper fragments (paper.flowLine lineHeight segment) ∧
      fragments.map Fragment.pieces = rows ++ [row] ∧
      Wrapping paper.Unfit (Text.words ' ' segment) rows row ∧
      (∀ fragment ∈ fragments.tail, fragment.start = paper.settings.margins.left) ∧
      ∀ fragment ∈ fragments, paper.Tested fragment := by
  obtain ⟨closed, row, wraps, wrapping⟩ := (Line.Wraps.fresh paper lineHeight).words .start
    (Text.words ' ' segment) fun word member => ⟨(word_shape member).1, trimSpaces_eq_filter member⟩
  rw [List.nil_append] at wrapping
  have filled : row ≠ [] := by
    apply wrapping.filled
    intro none
    apply some
    rw [← Text.flatten_words ' ' segment, none, List.flatten_nil]
  exact ⟨_, _, row, (wraps.emit filled).moveTo _, List.map_append, wrapping, wraps.starts_concat,
    wraps.closed_concat filled⟩

theorem Unfit.overlong {word : List Char} (unfit : paper.Unfit word)
    (right : paper.settings.margins.left ≤ paper.x) : paper.Overlong word := by
  rcases unfit with overlong | ⟨low, wide⟩
  · exact overlong
  · rw [Overlong, float_add_comm]
    rw [float_add_comm] at wide
    exact lt_add_of_le (ge_of_le_of_not_lt right low) wide

-- Nothing is put down for an empty text.
theorem flowLine_nil (paper : Paper) (lineHeight : Float32) :
    Emits lineHeight paper [] (paper.flowLine lineHeight []) :=
  .moveTo _ .stay

/-- However a text is wrapped, what comes after its first fragment begins at the left margin, and a
fragment crosses the right edge only with the spaces at its end, or if it is a single letter. -/
theorem wraps_within_right_edge (paper : Paper) (finite : paper.fontSize.isFinite = true)
    (positive : 0 < paper.fontSize) (lineHeight : Float32) (segment : List Char) :
    ∃ fragments, Emits lineHeight paper fragments (paper.flowLine lineHeight segment) ∧
      Divides paper.Unfit (Text.words ' ' segment) (fragments.flatMap Fragment.pieces) ∧
      (∀ fragment ∈ fragments.tail, fragment.start = paper.settings.margins.left) ∧
      ∀ fragment ∈ fragments, fragment.text.length = 1 ∨ paper.Fits fragment := by
  by_cases empty : segment = []
  · subst empty
    exact ⟨[], paper.flowLine_nil lineHeight, ⟨[], .nil, rfl⟩, nofun, nofun⟩
  · obtain ⟨fragments, rows, row, emits, pieces, wrapping, starts, tested⟩ :=
      paper.flowLine_wraps lineHeight empty
    refine ⟨fragments, emits, ?_, starts, fun fragment member => ?_⟩
    · rw [List.flatMap_def, pieces]
      exact wrapping.divides
    · exact (tested fragment member).fits finite positive

/-- A narrow paper with the cursor near the right edge. -/
def narrow : Paper :=
  { new { page := ⟨30, 60⟩, margins := ⟨5, 5, 5, 5⟩ } none with x := 20 }

-- The long word leaves the line that is begun, and one of its own.
theorem narrow_wraps_within_right_edge :
    narrow.fontSize.isFinite = true ∧ 0 < narrow.fontSize ∧
      (narrow.flowLine 5 "no Donaudampfschiff left".toList).y = 15 ∧
      ∃ fragments, Emits 5 narrow fragments (narrow.flowLine 5 "no Donaudampfschiff left".toList) ∧
        ∀ fragment ∈ fragments, fragment.text.length = 1 ∨ narrow.Fits fragment := by
  have positive : 0 < narrow.fontSize := by decide
  obtain ⟨fragments, emits, -, -, fits⟩ :=
    wraps_within_right_edge narrow rfl positive 5 "no Donaudampfschiff left".toList
  exact ⟨rfl, positive, by decide +kernel, fragments, emits, fits⟩

/-- A word that is not too wide for a whole line is left whole. Others may be split, and then only
the last of their fragments has anything else in it. -/
theorem leaves_fitting_words_whole (paper : Paper) (right : paper.settings.margins.left ≤ paper.x)
    (lineHeight : Float32) (segment : List Char) :
    ∃ fragments, Emits lineHeight paper fragments (paper.flowLine lineHeight segment) ∧
      (fragments.map Fragment.text).flatten = segment ∧
      ∀ before word after, Text.words ' ' segment = before ++ word :: after →
        Unbroken (fragments.map Fragment.text) before.flatten word ∨
          paper.Overlong word ∧ Broken (fragments.map Fragment.text) before.flatten word := by
  by_cases empty : segment = []
  · subst empty
    refine ⟨[], paper.flowLine_nil lineHeight, rfl, fun before word after split => ?_⟩
    simp [Text.words] at split
  · obtain ⟨fragments, rows, row, emits, pieces, wrapping, -, -⟩ :=
      paper.flowLine_wraps lineHeight empty
    have texts : fragments.map Fragment.text = (rows ++ [row]).map List.flatten := by
      rw [← pieces, List.map_map]
      rfl
    refine ⟨fragments, emits, ?_, fun before word after split => ?_⟩
    · rw [texts, List.map_append, List.flatten_append, ← Text.flatten_words ' ' segment,
        ← wrapping.texts_flatten]
      simp
    · rw [texts]
      exact (wrapping.places split).imp id (.imp (·.overlong right) id)

theorem narrow_leaves_last_word_whole :
    narrow.settings.margins.left ≤ narrow.x ∧
      ∃ fragments, Emits 5 narrow fragments (narrow.flowLine 5 "no Donaudampfschiff left".toList) ∧
        Unbroken (fragments.map Fragment.text) "no Donaudampfschiff ".toList "left".toList := by
  have right : narrow.settings.margins.left ≤ narrow.x := by decide
  obtain ⟨fragments, emits, -, placed⟩ :=
    leaves_fitting_words_whole narrow right 5 "no Donaudampfschiff left".toList
  have words : Text.words ' ' "no Donaudampfschiff left".toList =
      ["no ".toList, "Donaudampfschiff ".toList] ++ "left".toList :: [] := by decide
  have fits : ¬ narrow.Overlong "left".toList := by
    rw [Overlong]
    decide +kernel
  exact ⟨right, fragments, emits, (placed _ _ _ words).resolve_right fun overlong => fits overlong.1⟩

end Paper

end Letterhead
