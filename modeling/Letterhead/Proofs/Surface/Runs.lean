import Letterhead.Proofs.Surface.History

/-!
A text in several runs. All that a run hands on to the next one is where the cursor is, and a line
feed forgets how far to the right that was. So it makes no difference whether a text is drawn in one
run or cut before some of its line feeds. Carriage returns make no difference anywhere.
-/

namespace Letterhead

namespace Text

theorem pieces_append_cons {α : Type} [BEq α] [ReflBEq α] (separator : α) (first rest : List α) :
    pieces separator (first ++ separator :: rest) = pieces separator first ++ pieces separator rest := by
  induction first with
  | nil => simp [pieces]
  | cons c first ih =>
    rcases found : pieces separator first with _ | ⟨piece, others⟩
    · exact absurd found (pieces_ne_nil separator first)
    · simp only [List.cons_append, pieces, ih, found]
      split <;> rfl

/-- Something holds wherever a list is cut in two if it does at the first cut and at the later ones. -/
theorem forall_cut_cons {α : Type} (holds : List α → α → List α → Prop) {first : α}
    {rest : List α} :
    (∀ before next after, first :: rest = before ++ next :: after → holds before next after) ↔
      holds [] first rest ∧
        ∀ before next after, rest = before ++ next :: after → holds (first :: before) next after := by
  constructor
  · intro each
    exact ⟨each [] first rest rfl, fun before next after cut =>
      each (first :: before) next after (congrArg (first :: ·) cut)⟩
  · rintro ⟨here, later⟩ (_ | ⟨start, before⟩) next after cut
    · obtain ⟨rfl, rfl⟩ := List.cons.inj cut
      exact here
    · obtain ⟨rfl, same⟩ := List.cons.inj cut
      exact later before next after same

/-- The text without its carriage returns. -/
def unreturned (text : List Char) : List Char := text.filter (· != '\r')

theorem unreturned_append (first rest : List Char) :
    unreturned (first ++ rest) = unreturned first ++ unreturned rest :=
  List.filter_append ..

theorem unreturned_unreturned (text : List Char) : unreturned (unreturned text) = unreturned text := by
  simp [unreturned]

end Text

namespace Paper

open Text (unreturned)

variable (lineHeight : Float32) (paper : Paper)

theorem flowLines_append {segments rest : List (List Char)} (some : segments ≠ []) (more : rest ≠ []) :
    paper.flowLines lineHeight (segments ++ rest) =
      ((paper.flowLines lineHeight segments).startLine lineHeight).flowLines lineHeight rest := by
  obtain ⟨next, later, rfl⟩ := List.exists_cons_of_ne_nil more
  induction segments generalizing paper with
  | nil => exact absurd rfl some
  | cons segment segments ih =>
    rcases segments with _ | ⟨second, others⟩
    · rfl
    · exact ih ((paper.flowLine lineHeight segment).startLine lineHeight) (List.cons_ne_nil _ _)

-- Where the cursor was on a line that has ended is of no account.
theorem startLine_flowLine_nil :
    (paper.flowLine lineHeight []).startLine lineHeight = paper.startLine lineHeight :=
  rfl

theorem flowText_eq (content : List Char) :
    paper.flowText lineHeight content = paper.flowLines lineHeight (Text.pieces '\n' (unreturned content)) :=
  rfl

theorem flowText_congr {content other : List Char} (same : unreturned content = unreturned other) :
    paper.flowText lineHeight content = paper.flowText lineHeight other := by
  rw [flowText_eq, same, ← flowText_eq]

/-- One run, and a second one that begins with a line feed. -/
theorem flowText_flowText (first rest : List Char) :
    (paper.flowText lineHeight first).flowText lineHeight ('\n' :: rest) =
      paper.flowText lineHeight (first ++ '\n' :: rest) := by
  have feed : unreturned ('\n' :: rest) = '\n' :: unreturned rest := rfl
  have cut : Text.pieces '\n' ('\n' :: unreturned rest) = [[]] ++ Text.pieces '\n' (unreturned rest) := rfl
  have some := Text.pieces_ne_nil '\n' (unreturned first)
  have more := Text.pieces_ne_nil '\n' (unreturned rest)
  rw [flowText_eq, flowText_eq, flowText_eq, Text.unreturned_append, feed, Text.pieces_append_cons, cut,
    flowLines_append lineHeight _ (List.cons_ne_nil _ _) more, flowLines_append lineHeight paper some more]
  exact congrArg (flowLines lineHeight · _) (startLine_flowLine_nil lineHeight _)

/-- Any number of runs, of which all but the first begin with a line feed. -/
theorem foldl_flowText (first : List Char) (rest : List (List Char))
    (breaks : ∀ run ∈ rest, (unreturned run).head? = some '\n') :
    rest.foldl (fun paper run => paper.flowText lineHeight run) (paper.flowText lineHeight first) =
      paper.flowText lineHeight (first ++ rest.flatten) := by
  induction rest generalizing first with
  | nil => rw [List.foldl_nil, List.flatten_nil, List.append_nil]
  | cons run rest ih =>
    obtain ⟨begins, later⟩ := List.forall_mem_cons.mp breaks
    obtain ⟨line, feed⟩ := List.head?_eq_some_iff.mp begins
    have same : unreturned run = unreturned ('\n' :: line) := by
      rw [← feed, Text.unreturned_unreturned]
    have whole : unreturned (first ++ '\n' :: line) = unreturned (first ++ run) := by
      rw [Text.unreturned_append, Text.unreturned_append, same]
    rw [List.foldl_cons, flowText_congr lineHeight _ same, flowText_flowText,
      flowText_congr lineHeight paper whole, ih (first ++ run) later, List.append_assoc,
      List.flatten_cons]

theorem answer_flowText (destination : Destination) {paper : Paper} (opened : paper.closed = false)
    (lineHeight : Float32) (content : List Char) :
    (surface destination).answer (.flowText lineHeight content) paper =
      (.ok (), paper.flowText lineHeight content) := by
  simp [surface, answer, opened]

theorem flowText_closed (content : List Char) : (paper.flowText lineHeight content).closed = paper.closed :=
  (flowText_kept lineHeight paper content).closed

theorem after_flowText (destination : Destination) {paper : Paper} (opened : paper.closed = false)
    (lineHeight : Float32) (runs : List (List Char)) :
    (surface destination).after paper (runs.map fun run => .call (.flowText lineHeight run)) =
      runs.foldl (fun paper run => paper.flowText lineHeight run) paper := by
  induction runs generalizing paper with
  | nil => rfl
  | cons run rest ih =>
    have one : (surface destination).use paper (.call (.flowText lineHeight run)) =
        paper.flowText lineHeight run :=
      congrArg Prod.snd (answer_flowText destination opened lineHeight run)
    rw [List.map_cons, Surface.after, List.foldl_cons, one, ← Surface.after,
      ih ((flowText_closed lineHeight paper run).trans opened), List.foldl_cons]

/-- A text that is cut before a line feed is answered in two runs as in one, and the paper is the
same afterwards, in all respects. So it is if the text is cut before any number of its line feeds,
and wherever there are carriage returns in one way or the other. -/
theorem draws_runs_as_one_text (destination : Destination) (paper : Paper) (opened : paper.closed = false)
    (lineHeight : Float32) :
    let onto := surface destination
    (∀ first rest,
      let begun := onto.answer (.flowText lineHeight first) paper
      begun.1 = .ok () ∧
        onto.answer (.flowText lineHeight ('\n' :: rest)) begun.2 =
          onto.answer (.flowText lineHeight (first ++ '\n' :: rest)) paper) ∧
    (∀ content other, unreturned content = unreturned other →
      onto.answer (.flowText lineHeight content) paper = onto.answer (.flowText lineHeight other) paper) ∧
    ∀ first rest whole, (∀ run ∈ rest, (unreturned run).head? = some '\n') →
      unreturned whole = unreturned (first ++ rest.flatten) →
      onto.after paper ((first :: rest).map fun run => .call (.flowText lineHeight run)) =
        (onto.answer (.flowText lineHeight whole) paper).2 := by
  intro onto
  have drawn (content : List Char) := answer_flowText destination opened lineHeight content
  refine ⟨fun first rest => ?_, fun content other same => ?_, fun first rest whole breaks same => ?_⟩
  · have still := (flowText_closed lineHeight paper first).trans opened
    simp only [onto, drawn]
    rw [answer_flowText destination still, flowText_flowText]
    exact ⟨trivial, rfl⟩
  · simp only [onto, drawn, flowText_congr lineHeight paper same]
  · simp only [onto, drawn]
    rw [after_flowText destination opened, List.foldl_cons, foldl_flowText lineHeight paper first rest breaks,
      flowText_congr lineHeight paper same]

/-- A paper with room for two lines, and the cursor on the second one. -/
def halfFull : Paper :=
  { new { page := ⟨30, 22⟩, margins := ⟨5, 5, 5, 5⟩ } none with x := 12, y := 10 }

-- The first run wraps, and the second one goes on below it, after a blank line, on the next page.
theorem halfFull_draws_runs_as_one_text :
    halfFull.closed = false ∧
      let onto := surface fun _ => .ok ()
      let runs := ["one two three\r".toList, "\r\n\r\nfour".toList]
      let after := onto.after halfFull (runs.map fun run => .call (.flowText 5 run))
      (∀ run ∈ runs.tail, (unreturned run).head? = some '\n') ∧
        after = (onto.answer (.flowText 5 "one two three\n\nfour".toList) halfFull).2 ∧
        after.breaks = [1, 2] := by
  have opened : halfFull.closed = false := rfl
  have breaks : ∀ run ∈ ["\r\n\r\nfour".toList], (unreturned run).head? = some '\n' := by decide
  obtain ⟨-, -, whole⟩ := draws_runs_as_one_text (fun _ => .ok ()) halfFull opened 5
  refine ⟨opened, breaks, whole _ _ _ breaks (by decide), ?_⟩
  decide +kernel

end Paper

end Letterhead
