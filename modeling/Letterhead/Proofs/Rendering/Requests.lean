import Letterhead.Proofs.Rendering.Calls
import Letterhead.Proofs.Rendering.Walk
import Letterhead.Surface.Script

/-!
What a token asks for, as a function of the tokens before it: the counts and the last tags among
them decide, and nothing that a surface answers. At each piece of content that is drawn, the style
and the size selected last are those that these tokens leave open.
-/

namespace Letterhead

open Markup (Tag Token)

/-! ### The tags so far -/

namespace Markup

def Token.named? (name : List Char) : Token → Option Tag
  | .content _ => none
  | .tag given => if given.name = name then some given else none

def tagsNamed (name : List Char) (tokens : List Token) : List Tag :=
  tokens.filterMap (Token.named? name)

-- How often the tag is open after these tokens.
def openCount (name : List Char) (tokens : List Token) : Nat :=
  (tagsNamed name tokens).foldl (fun count tag => Walk.count tag.closing count) 0

def lastTag? (name : List Char) (tokens : List Token) : Option Tag := (tagsNamed name tokens).getLast?

def isSmall (tokens : List Token) : Bool :=
  (lastTag? ['S', 'M', 'A', 'L', 'L'] tokens).any (!·.closing)

def openCell? (tokens : List Token) : Option CellLayout :=
  ((lastTag? ['C', 'E', 'L', 'L'] tokens).filter (!·.closing)).map (.ofAttributes ·.attributes)

-- Whether a cell has closed and no visible text has come since then.
def swallowsBreak (tokens : List Token) : Bool :=
  tokens.foldl (fun swallows token => match token with
    | .content text => swallows && text.all Text.isBlank
    | .tag tag => swallows || (tag.closing && tag.name == ['C', 'E', 'L', 'L'])) false

def openStyle (tokens : List Token) : FontStyle :=
  ⟨0 < openCount ['B'] tokens, 0 < openCount ['I'] tokens, 0 < openCount ['U'] tokens⟩

variable (name : List Char) (tokens : List Token)

theorem tagsNamed_append (token : Token) :
    tagsNamed name (tokens ++ [token]) = tagsNamed name tokens ++ (token.named? name).toList := by
  rw [tagsNamed, List.filterMap_append]
  rcases found : token.named? name with _ | tag <;> simp [found, tagsNamed]

theorem openCount_append (token : Token) :
    openCount name (tokens ++ [token]) = match token.named? name with
      | none => openCount name tokens
      | some tag => Walk.count tag.closing (openCount name tokens) := by
  rw [openCount, tagsNamed_append, List.foldl_append]
  rcases token.named? name with _ | tag <;> rfl

theorem lastTag?_append (token : Token) :
    lastTag? name (tokens ++ [token]) = (token.named? name).or (lastTag? name tokens) := by
  rw [lastTag?, tagsNamed_append, List.getLast?_append]
  rcases token.named? name with _ | tag <;> rfl

theorem isSmall_append (token : Token) :
    isSmall (tokens ++ [token]) = match token.named? ['S', 'M', 'A', 'L', 'L'] with
      | none => isSmall tokens
      | some tag => !tag.closing := by
  rw [isSmall, lastTag?_append]
  rcases token.named? _ with _ | tag <;> rfl

theorem openCell?_append (token : Token) :
    openCell? (tokens ++ [token]) = match token.named? ['C', 'E', 'L', 'L'] with
      | none => openCell? tokens
      | some tag => if tag.closing then none else some (.ofAttributes tag.attributes) := by
  rw [openCell?, lastTag?_append]
  rcases token.named? _ with _ | tag
  · rfl
  · cases closes : tag.closing <;> simp [Option.filter, closes]

theorem openCount_le (style : Emphasis) : openCount style.name tokens ≤ openings style (toggles tokens) := by
  induction tokens using List.reverseRecOn with
  | nil => exact Nat.le_refl 0
  | append_singleton tokens token ih =>
    rw [openCount_append, openings_toggles_append]
    cases token with
    | content text => exact ih
    | tag tag =>
      rw [openings_toggles_tag, Token.named?]
      by_cases named : tag.name = style.name
      · cases closes : tag.closing with
        | false => simpa [named, closes, Walk.count] using ih
        | true =>
          simp only [if_pos named, closes, Walk.count, if_true]
          exact (Nat.sub_le _ 1).trans ih
      · simpa [named] using ih

theorem openStyle_letters :
    (openStyle tokens).letters = ['B', 'I', 'U'].filter fun letter => 0 < openCount [letter] tokens := by
  by_cases bold : 0 < openCount ['B'] tokens <;> by_cases italic : 0 < openCount ['I'] tokens <;>
    by_cases underline : 0 < openCount ['U'] tokens <;>
      simp [openStyle, FontStyle.letters, bold, italic, underline]

end Markup

namespace TextState

open Markup

variable (lineHeight regular small : Float32)

-- The state after these tokens, read off them.
def after (tokens : List Token) : TextState where
  style := ⟨.ofNat (openCount ['B'] tokens), .ofNat (openCount ['I'] tokens), .ofNat (openCount ['U'] tokens)⟩
  sizes := ⟨regular, small, isSmall tokens⟩
  cell := ⟨openCell? tokens, swallowsBreak tokens⟩

-- What a token asks for after these tokens.
def asked (before : List Token) : Token → Option Call
  | .content text =>
    let kept := if swallowsBreak before then CellState.dropBreak text else text
    if kept = [] then none
    else some ((openCell? before).elim (.flowText lineHeight kept) fun layout => .boxText kept layout)
  | .tag tag =>
    if tag.name ∈ [['B'], ['I'], ['U']] then some (.selectStyle (openStyle (before ++ [.tag tag])))
    else if tag.name = ['S', 'M', 'A', 'L', 'L'] then
      some (.selectSize (if tag.closing then regular else small))
    else none

def requests (before : List Token) : List Token → List Call
  | [] => []
  | token :: rest =>
    (asked lineHeight regular small before token).toList ++ requests (before ++ [token]) rest

theorem drawing_eq (layout : Option CellLayout) (kept : List Char) :
    drawing lineHeight layout kept =
      if kept = [] then none
      else some (layout.elim (.flowText lineHeight kept) fun layout => .boxText kept layout) := by
  cases kept with
  | nil => rfl
  | cons c rest => cases layout <;> rfl

theorem step_content (before : List Token) (text : List Char) :
    (after regular small before).step lineHeight (.content text) =
      (asked lineHeight regular small before (.content text),
        after regular small (before ++ [.content text])) := by
  have swallows : swallowsBreak (before ++ [.content text]) =
      (swallowsBreak before && text.all Text.isBlank) := by
    simp [swallowsBreak]
  have untagged : after regular small (before ++ [.content text]) =
      { after regular small before with
        cell := ⟨openCell? before, swallowsBreak before && text.all Text.isBlank⟩ } := by
    simp only [after, openCount_append, isSmall_append, openCell?_append, swallows, Token.named?]
  rw [untagged, step, CellState.prepare]
  simp only [drawing_eq]
  cases waits : swallowsBreak before with
  | false => simp [after, asked, waits]
  | true =>
    cases text with
    | nil => simp [after, asked, waits, CellState.dropBreak]
    | cons c rest => simp [after, asked, waits, CellState.all_isBlank_dropBreak]

variable {before : List Token} {tag : Tag}

theorem mem_styles_iff {name : List Char} :
    name ∈ [['B'], ['I'], ['U']] ↔ ∃ style : Emphasis, name = style.name := by
  constructor
  · intro member
    simp only [List.mem_cons, List.not_mem_nil, or_false] at member
    rcases member with rfl | rfl | rfl
    · exact ⟨.bold, rfl⟩
    · exact ⟨.italic, rfl⟩
    · exact ⟨.underline, rfl⟩
  · rintro ⟨style, rfl⟩
    cases style <;> decide

theorem stepTag_of_style (text : TextState) {style : Emphasis} (named : tag.name = style.name) :
    (text.stepTag tag).1 = some (.selectStyle (text.stepTag tag).2.style.variant) := by
  rw [stepTag, TagRole.ofName, named, Emphasis.ofName?_name]

theorem count_after {tokens : List Token} (few : ∀ style, openings style (toggles tokens) < 2 ^ 32)
    (style : Emphasis) : (after regular small tokens).style.count style = openCount style.name tokens := by
  have fits := (openCount_le tokens style).trans_lt (few style)
  cases style <;> exact UInt32.toNat_ofNat_of_lt' fits

theorem variant_after {tokens : List Token} (few : ∀ style, openings style (toggles tokens) < 2 ^ 32) :
    (after regular small tokens).style.variant = openStyle tokens := by
  simp only [StyleCounts.variant, StyleCounts.isOn, count_after regular small few]
  rfl

-- The only place where a count could wrap.
theorem stepTag_style (few : ∀ style, openings style (toggles (before ++ [.tag tag])) < 2 ^ 32) :
    ((after regular small before).stepTag tag).2.style =
      (after regular small (before ++ [.tag tag])).style := by
  have fewer (style : Emphasis) : openings style (toggles before) < 2 ^ 32 :=
    (openings_toggles_le style before _).trans_lt (few style)
  apply StyleCounts.ext_count
  intro style
  have fits := (openCount_le (before ++ [.tag tag]) style).trans_lt (few style)
  rw [count_after regular small few, count_stepTag, count_after regular small fewer]
  rw [openCount_append, Token.named?] at fits ⊢
  by_cases named : tag.name = style.name
  · simp only [if_pos named] at fits ⊢
    cases closes : tag.closing with
    | false =>
      rw [closes] at fits
      exact Nat.mod_eq_of_lt fits
    | true => rfl
  · simp only [if_neg named]

theorem stepTag_sizes (before : List Token) (tag : Tag) :
    ((after regular small before).stepTag tag).2.sizes =
      (after regular small (before ++ [.tag tag])).sizes := by
  rw [after, after, isSmall_append, Token.named?, stepTag, TagRole.ofName_eq]
  by_cases style : tag.name ∈ [['B'], ['I'], ['U']]
  · obtain ⟨given, named⟩ := mem_styles_iff.mp style
    cases given <;> simp [named, Emphasis.name, Emphasis.letter]
  simp only [List.mem_cons, List.not_mem_nil, or_false, not_or] at style
  by_cases size : tag.name = ['S', 'M', 'A', 'L', 'L']
  · simp [size, FontSizes.select]
  · by_cases cell : tag.name = ['C', 'E', 'L', 'L'] <;> simp [style, size, cell]

theorem stepTag_cell (before : List Token) (tag : Tag) :
    ((after regular small before).stepTag tag).2.cell =
      (after regular small (before ++ [.tag tag])).cell := by
  have swallows : swallowsBreak (before ++ [.tag tag]) =
      (swallowsBreak before || (tag.closing && tag.name == ['C', 'E', 'L', 'L'])) := by
    simp [swallowsBreak]
  rw [after, after, openCell?_append, Token.named?, swallows, stepTag, TagRole.ofName_eq]
  by_cases style : tag.name ∈ [['B'], ['I'], ['U']]
  · obtain ⟨given, named⟩ := mem_styles_iff.mp style
    cases given <;> simp [named, Emphasis.name, Emphasis.letter]
  simp only [List.mem_cons, List.not_mem_nil, or_false, not_or] at style
  by_cases size : tag.name = ['S', 'M', 'A', 'L', 'L']
  · simp [size]
  by_cases cell : tag.name = ['C', 'E', 'L', 'L']
  · cases closes : tag.closing <;> simp [cell, closes, CellState.opened, CellState.closed]
  · simp [style, size, cell]

theorem stepTag_asks (few : ∀ style, openings style (toggles (before ++ [.tag tag])) < 2 ^ 32) :
    ((after regular small before).stepTag tag).1 = asked lineHeight regular small before (.tag tag) := by
  by_cases style : tag.name ∈ [['B'], ['I'], ['U']]
  · obtain ⟨given, named⟩ := mem_styles_iff.mp style
    rw [stepTag_of_style _ named, stepTag_style regular small few, variant_after regular small few,
      asked, if_pos style]
  rw [asked, if_neg style, stepTag, TagRole.ofName_eq]
  simp only [List.mem_cons, List.not_mem_nil, or_false, not_or] at style
  by_cases size : tag.name = ['S', 'M', 'A', 'L', 'L']
  · cases closes : tag.closing <;> simp [size, FontSizes.select, FontSizes.current, after]
  · by_cases cell : tag.name = ['C', 'E', 'L', 'L'] <;> simp [style, size, cell]

theorem step_after {token : Token} (few : ∀ style, openings style (toggles (before ++ [token])) < 2 ^ 32) :
    (after regular small before).step lineHeight token =
      (asked lineHeight regular small before token, after regular small (before ++ [token])) := by
  cases token with
  | content text => exact step_content lineHeight regular small before text
  | tag tag =>
    refine Prod.ext (stepTag_asks lineHeight regular small few) ?_
    have style := stepTag_style regular small few
    have sizes := stepTag_sizes regular small before tag
    have cell := stepTag_cell regular small before tag
    rw [step]
    generalize ((after regular small before).stepTag tag).2 = stepped at style sizes cell ⊢
    obtain ⟨counts, given, state⟩ := stepped
    obtain rfl : counts = _ := style
    obtain rfl : given = _ := sizes
    obtain rfl : state = _ := cell
    rfl

theorem calls_after {tokens : List Token} (few : ∀ style, openings style (toggles (before ++ tokens)) < 2 ^ 32) :
    (after regular small before).calls lineHeight tokens =
      requests lineHeight regular small before tokens := by
  induction tokens generalizing before with
  | nil => rfl
  | cons token rest ih =>
    rw [List.append_cons] at few
    have fewer (style : Emphasis) : openings style (toggles (before ++ [token])) < 2 ^ 32 :=
      (openings_toggles_le style (before ++ [token]) _).trans_lt (few style)
    rw [calls, step_after lineHeight regular small fewer, requests, ← ih few]

theorem toList_append_eq {α : Type} {first : Option α} {rest earlier later : List α} {item : α}
    (same : first.toList ++ rest = earlier ++ item :: later) :
    (first = some item ∧ earlier = []) ∨
      ∃ others, earlier = first.toList ++ others ∧ rest = others ++ item :: later := by
  cases first with
  | none => exact .inr ⟨earlier, rfl, same⟩
  | some made =>
    cases earlier with
    | nil => exact .inl ⟨congrArg some (List.cons.inj same).1, rfl⟩
    | cons head others =>
      obtain ⟨rfl, tail⟩ := List.cons.inj same
      exact .inr ⟨others, rfl, tail⟩

-- Each call belongs to a token, and those before it to the tokens before that one.
theorem requests_eq_append {before tokens : List Token} {earlier later : List Call} {call : Call}
    (same : requests lineHeight regular small before tokens = earlier ++ call :: later) :
    ∃ passed token rest, tokens = passed ++ token :: rest ∧
      asked lineHeight regular small (before ++ passed) token = some call ∧
      earlier = requests lineHeight regular small before passed := by
  induction tokens generalizing before earlier with
  | nil => cases earlier <;> cases same
  | cons token rest ih =>
    rcases toList_append_eq same with ⟨asks, rfl⟩ | ⟨others, rfl, tail⟩
    · exact ⟨[], token, rest, rfl, by rwa [List.append_nil], rfl⟩
    · obtain ⟨passed, next, left, rfl, asks, rfl⟩ := ih tail
      exact ⟨token :: passed, next, left, rfl, by rwa [List.append_cons], rfl⟩

end TextState

/-! ### What is selected -/

def Call.style? : Call → Option FontStyle
  | .selectStyle variant => some variant
  | _ => none

def Call.size? : Call → Option Float32
  | .selectSize size => some size
  | _ => none

def Call.isContent : Call → Bool
  | .flowText _ _ | .boxText _ _ => true
  | _ => false

def lastStyle? (calls : List Call) : Option FontStyle := (calls.filterMap Call.style?).getLast?

def lastSize? (calls : List Call) : Option Float32 := (calls.filterMap Call.size?).getLast?

theorem getLast?_filterMap_append {α β : Type} (pick : α → Option β) (items : List α) (item : Option α) :
    ((items ++ item.toList).filterMap pick).getLast? = (item.bind pick).or (items.filterMap pick).getLast? := by
  rw [List.filterMap_append, List.getLast?_append]
  cases item with
  | none => rfl
  | some given => cases found : pick given <;> simp [found]

theorem lastStyle?_append (calls : List Call) (call : Option Call) :
    lastStyle? (calls ++ call.toList) = (call.bind Call.style?).or (lastStyle? calls) :=
  getLast?_filterMap_append Call.style? calls call

theorem lastSize?_append (calls : List Call) (call : Option Call) :
    lastSize? (calls ++ call.toList) = (call.bind Call.size?).or (lastSize? calls) :=
  getLast?_filterMap_append Call.size? calls call

-- A stamp selects nothing.
theorem last_filter (calls : List Call) :
    lastStyle? (calls.filter (!·.isStamp)) = lastStyle? calls ∧
      lastSize? (calls.filter (!·.isStamp)) = lastSize? calls := by
  simp only [lastStyle?, lastSize?, List.filterMap_filter]
  constructor <;> congr 2 <;> funext call <;> cases call <;> rfl

namespace TextState

open Markup

variable (lineHeight regular small : Float32)

-- Content selects nothing, and leaves open what is open.
theorem asked_content (before : List Token) (text : List Char) :
    (asked lineHeight regular small before (.content text)).bind Call.style? = none ∧
      (asked lineHeight regular small before (.content text)).bind Call.size? = none := by
  simp only [asked]
  generalize (if swallowsBreak before then CellState.dropBreak text else text) = kept
  cases kept with
  | nil => exact ⟨rfl, rfl⟩
  | cons c rest => cases openCell? before <;> exact ⟨rfl, rfl⟩

theorem openStyle_append (before : List Token) (token : Token) :
    openStyle (before ++ [token]) =
      ((asked lineHeight regular small before token).bind Call.style?).getD (openStyle before) := by
  cases token with
  | content text =>
    rw [(asked_content lineHeight regular small before text).1]
    simp only [openStyle, openCount_append, Token.named?, Option.getD_none]
  | tag tag =>
    by_cases style : tag.name ∈ [['B'], ['I'], ['U']]
    · rw [asked, if_pos style]
      rfl
    · have unstyled : openStyle (before ++ [.tag tag]) = openStyle before := by
        simp only [List.mem_cons, List.not_mem_nil, or_false, not_or] at style
        simp [openStyle, openCount_append, Token.named?, style]
      rw [asked, if_neg style, unstyled]
      split <;> rfl

theorem isSmall_append_size (before : List Token) (token : Token) :
    (if isSmall (before ++ [token]) then small else regular) =
      ((asked lineHeight regular small before token).bind Call.size?).getD
        (if isSmall before then small else regular) := by
  rw [isSmall_append]
  cases token with
  | content text =>
    rw [(asked_content lineHeight regular small before text).2]
    rfl
  | tag tag =>
    by_cases size : tag.name = ['S', 'M', 'A', 'L', 'L']
    · cases closes : tag.closing <;> simp [asked, size, Token.named?, closes, Call.size?]
    · simp only [asked, Token.named?, if_neg size]
      by_cases style : tag.name ∈ [['B'], ['I'], ['U']]
      · rw [if_pos style]
        rfl
      · rw [if_neg style]
        rfl

-- The calls have selected what these tokens leave open.
structure Selected (calls : List Call) (tokens : List Token) : Prop where
  style : lastStyle? calls = some (openStyle tokens)
  size : lastSize? calls = some (if isSmall tokens then small else regular)

variable {regular small}

theorem Selected.asked {calls : List Call} {before : List Token}
    (selected : Selected regular small calls before) (token : Token) :
    Selected regular small (calls ++ (asked lineHeight regular small before token).toList)
      (before ++ [token]) := by
  obtain ⟨style, size⟩ := selected
  constructor
  · rw [lastStyle?_append, style, openStyle_append lineHeight regular small before token,
      Option.or_some]
  · rw [lastSize?_append, size, isSmall_append_size lineHeight regular small before token,
      Option.or_some]

theorem Selected.requests {calls : List Call} {before : List Token}
    (selected : Selected regular small calls before) (tokens : List Token) :
    Selected regular small (calls ++ requests lineHeight regular small before tokens)
      (before ++ tokens) := by
  induction tokens generalizing calls before with
  | nil => simpa [TextState.requests] using selected
  | cons token rest ih =>
    rw [TextState.requests, ← List.append_assoc, List.append_cons before token rest]
    exact ih (selected.asked lineHeight token)

end TextState

/-! ### A pass -/

namespace Pass

open TextState

variable {σ τ : Type}

theorem opening_selected (regular small : Float32) :
    Selected regular small [.selectStyle .plain, .selectSize regular] [] :=
  ⟨rfl, rfl⟩

theorem run_asks (surface : Surface σ) (state : σ) (lineHeight regular small : Float32) (pages : Nat)
    (tokens : List Token) :
    ∃ earlier,
      (run surface.tracing ⟨lineHeight, pages⟩
        { surface := ⟨state, []⟩, text := .ofSizes regular small } tokens).surface.calls =
          earlier ++ [.write] ∧ .write ∉ earlier ∧
      earlier.filter (!·.isStamp) =
        .selectStyle .plain :: .selectSize regular ::
          (TextState.ofSizes regular small).calls lineHeight tokens := by
  obtain ⟨all, last, others, -⟩ := run_calls surface ⟨lineHeight, pages⟩
    { surface := ⟨state, []⟩, text := .ofSizes regular small } rfl rfl tokens
  exact ⟨_, all, last, others⟩

theorem selected_at {lineHeight regular small : Float32} {tokens : List Token}
    {drawn later : List Call} {call : Call} (content : call.isContent = true)
    (others : (drawn ++ call :: later).filter (!·.isStamp) =
      .selectStyle .plain :: .selectSize regular :: requests lineHeight regular small [] tokens) :
    ∃ before token rest, tokens = before ++ token :: rest ∧
      asked lineHeight regular small before token = some call ∧
      drawn.filter (!·.isStamp) =
        .selectStyle .plain :: .selectSize regular :: requests lineHeight regular small [] before ∧
      Selected regular small drawn before := by
  have kept : (!call.isStamp) = true := by cases call <;> first | rfl | cases content
  rw [List.filter_append, List.filter_cons, if_pos kept] at others
  obtain ⟨style, size⟩ := last_filter drawn
  generalize drawn.filter (!·.isStamp) = made at others style size ⊢
  -- The two calls before all others draw nothing.
  match made with
  | [] =>
    obtain ⟨rfl, -⟩ := List.cons.inj others
    cases content
  | [first] =>
    obtain ⟨-, sized⟩ := List.cons.inj others
    obtain ⟨rfl, -⟩ := List.cons.inj sized
    cases content
  | first :: second :: made =>
    obtain ⟨rfl, sized⟩ := List.cons.inj others
    obtain ⟨rfl, asked⟩ := List.cons.inj sized
    obtain ⟨before, token, rest, rfl, asks, rfl⟩ :=
      requests_eq_append lineHeight regular small asked.symm
    have selected := (opening_selected regular small).requests lineHeight before
    exact ⟨before, token, rest, rfl, asks, rfl, style.symm.trans selected.style,
      size.symm.trans selected.size⟩

/-- Two passes over the same tokens make the same calls but for the stamps, on any two surfaces and
whatever these answer, and write all pages at the end. With fewer than 2^32 opening tags of each style
among the tokens, the calls are a style and a size to begin with and what each token asks for. Whenever
content is drawn, the style selected last has the letters of the tags that are open, and the size is
the small one just if the last tag for it is an opening one. -/
theorem draws_alike_on_all_surfaces (one : Surface σ) (two : Surface τ) (state : σ) (other : τ)
    (lineHeight regular small : Float32) (pages morePages : Nat) (tokens : List Token) :
    let calls := (run one.tracing ⟨lineHeight, pages⟩
      { surface := ⟨state, []⟩, text := .ofSizes regular small } tokens).surface.calls
    let others := (run two.tracing ⟨lineHeight, morePages⟩
      { surface := ⟨other, []⟩, text := .ofSizes regular small } tokens).surface.calls
    calls.filter (!·.isStamp) = others.filter (!·.isStamp) ∧
      ∃ earlier, calls = earlier ++ [.write] ∧ .write ∉ earlier ∧
        ((∀ tag, openings tag (Markup.toggles tokens) < 2 ^ 32) →
          earlier.filter (!·.isStamp) =
            .selectStyle .plain :: .selectSize regular ::
              requests lineHeight regular small [] tokens ∧
          ∀ drawn call later, earlier = drawn ++ call :: later → call.isContent = true →
            ∃ before token rest variant, tokens = before ++ token :: rest ∧
              asked lineHeight regular small before token = some call ∧
              drawn.filter (!·.isStamp) =
                .selectStyle .plain :: .selectSize regular ::
                  requests lineHeight regular small [] before ∧
              lastStyle? drawn = some variant ∧
              variant.letters =
                ['B', 'I', 'U'].filter (fun letter => 0 < Markup.openCount [letter] before) ∧
              lastSize? drawn = some (if Markup.isSmall before then small else regular)) := by
  obtain ⟨earlier, all, last, made⟩ := run_asks one state lineHeight regular small pages tokens
  obtain ⟨_, twin, -, twinMade⟩ := run_asks two other lineHeight regular small morePages tokens
  intro calls others
  constructor
  · rw [show calls = _ from all, show others = _ from twin, List.filter_append,
      List.filter_append, made, twinMade]
  · refine ⟨earlier, all, last, fun few => ?_⟩
    have fits : ∀ tag, openings tag (Markup.toggles ([] ++ tokens)) < 2 ^ 32 := few
    have asked : (TextState.ofSizes regular small).calls lineHeight tokens =
        requests lineHeight regular small [] tokens := calls_after lineHeight regular small fits
    rw [asked] at made
    refine ⟨made, ?_⟩
    rintro drawn call later rfl content
    obtain ⟨before, token, rest, same, asks, past, selected⟩ := selected_at content made
    exact ⟨before, token, rest, Markup.openStyle before, same, asks, past, selected.style,
      Markup.openStyle_letters before, selected.size⟩

/-- The bold tag opens twice and closes once, and the small text comes after it. -/
def nestedBold : List Token :=
  [.tag ⟨['B'], .empty, false⟩, .tag ⟨['B'], .empty, false⟩, .content ['a'], .tag ⟨['B'], .empty, true⟩,
    .content ['b'], .tag ⟨['S', 'M', 'A', 'L', 'L'], .empty, false⟩, .content ['c']]

/-- Refuses the first content, and reports a page as finished. -/
def refusing : Script := { rules := [⟨['a'], [1], 0, [], some (.fault .noTemplate)⟩] }

theorem nested_bold_draws_alike :
    (∀ tag, openings tag (Markup.toggles nestedBold) < 2 ^ 32) ∧
    let calls := (run Script.surface.tracing ⟨5, 2⟩
      { surface := ⟨refusing, []⟩, text := .ofSizes 9 6 } nestedBold).surface.calls
    let others := (run (Paper.surface fun _ => .ok ()).tracing ⟨5, 0⟩
      { surface := ⟨.new {} none, []⟩, text := .ofSizes 9 6 } nestedBold).surface.calls
    calls.any Call.isStamp = true ∧ others.any Call.isStamp = false ∧
      calls.filter (!·.isStamp) = others.filter (!·.isStamp) ∧
      calls.filter (!·.isStamp) =
        [.selectStyle .plain, .selectSize 9, .selectStyle ⟨true, false, false⟩,
          .selectStyle ⟨true, false, false⟩, .flowText 5 ['a'], .selectStyle ⟨true, false, false⟩,
          .flowText 5 ['b'], .selectSize 6, .flowText 5 ['c'], .write] := by
  have few : ∀ tag, openings tag (Markup.toggles nestedBold) < 2 ^ 32 := by
    intro tag
    cases tag <;> decide
  obtain ⟨same, earlier, all, -, asked⟩ :=
    draws_alike_on_all_surfaces Script.surface (Paper.surface fun _ => .ok ()) refusing (.new {} none)
      5 9 6 2 0 nestedBold
  obtain ⟨made, -⟩ := asked few
  refine ⟨few, by decide +kernel, by decide +kernel, same, ?_⟩
  rw [all, List.filter_append, made]
  rfl

end Pass

end Letterhead
