import Letterhead.Proofs.Config.Validity
import Letterhead.Proofs.Json.Members
import Mathlib.Control.Monad.Basic

/-!
Settings that are saved and read again. JSON has no infinite numbers: they are written as null, and
null is refused. Accepted settings have finite sizes, but not always finite margins or a finite gray.
-/

namespace Letterhead.Config

open Json (Entry Fault ReadsBack Value recordOf)

section
variable {α : Type} {print : Float32 → List Char} {fields : List (Json.Member α)}

def floatEntry (name : String) (set : α → Float32 → α) (value : Float32) : Entry α where
  name
  value := .ofFloat value
  meaning record := if value.isFinite then .ok (set record value) else .error .unexpected

theorem known_floatEntry {name : String} {set : α → Float32 → α} {value : Float32}
    (found : fields.find? (·.name == name) = some (floatField name set))
    (back : value.isFinite = true → ReadsBack print value) :
    (floatEntry name set value).Known print fields := by
  refine ⟨floatField name set, found, fun record rest ends => ?_⟩
  simp only [floatEntry, floatField, Value.ofFloat]
  split
  · rename_i finite
    rw [Value.writeWith, (back finite).append ends]
    rfl
  · rfl

end

def pageEntries (page : PageSize) : List (Entry PageSize) :=
  [floatEntry "width" (fun page width => { page with width }) page.width,
    floatEntry "height" (fun page height => { page with height }) page.height]

def marginEntries (margins : Margins) : List (Entry Margins) :=
  [floatEntry "top" (fun margins top => { margins with top }) margins.top,
    floatEntry "left" (fun margins left => { margins with left }) margins.left,
    floatEntry "right" (fun margins right => { margins with right }) margins.right,
    floatEntry "bottom" (fun margins bottom => { margins with bottom }) margins.bottom]

def pageEntry (page : PageSize) : Entry Config where
  name := "page"
  value := .object ((pageEntries page).map Entry.member)
  meaning config := do
    let page ← recordOf (pageEntries page) .a4
    return { config with page }

def marginsEntry (margins : Margins) : Entry Config where
  name := "margins"
  value := .object ((marginEntries margins).map Entry.member)
  meaning config := do
    let margins ← recordOf (marginEntries margins) .standard
    return { config with margins }

def familyEntry (fontFamily : List Char) : Entry Config where
  name := "fontFamily"
  value := .string fontFamily
  meaning config := .ok { config with fontFamily }

variable (config : Config)

def entries : List (Entry Config) :=
  [pageEntry config.page, marginsEntry config.margins,
    floatEntry "defaultFontSize" (fun config fontSize => { config with fontSize }) config.fontSize,
    floatEntry "smallFontSize" (fun config smallFontSize => { config with smallFontSize })
      config.smallFontSize,
    floatEntry "lineHeight" (fun config lineHeight => { config with lineHeight }) config.lineHeight,
    familyEntry config.fontFamily,
    floatEntry "cellFillGray" (fun config cellFillGray => { config with cellFillGray })
      config.cellFillGray]

theorem toJson_eq : config.toJson = .object (config.entries.map Entry.member) := rfl

/-- The numbers of which validity says nothing but how the margins add up. -/
def unchecked : List Float32 :=
  [config.margins.top, config.margins.left, config.margins.right, config.margins.bottom,
    config.cellFillGray]

def numbers : List Float32 := config.positiveSettings.map Prod.snd ++ config.unchecked

variable {config} {print : Float32 → List Char}

/-! ### Reading what was written -/

theorem known_pageEntry {page : PageSize}
    (width : page.width.isFinite = true → ReadsBack print page.width)
    (height : page.height.isFinite = true → ReadsBack print page.height) :
    (pageEntry page).Known print fields := by
  have known : ∀ entry ∈ pageEntries page, entry.Known print pageFields :=
    List.forall_mem_cons.mpr ⟨known_floatEntry rfl width,
      List.forall_mem_singleton.mpr (known_floatEntry rfl height)⟩
  have once : ((pageEntries page).map Entry.name).Nodup := by
    change ["width", "height"].Nodup
    decide
  have reads := Json.reads_record known once .a4
    fun (config : Config) (page : PageSize) => ({ config with page } : Config)
  exact ⟨pageField, rfl, reads⟩

theorem known_marginsEntry {margins : Margins}
    (back : ∀ value ∈ [margins.top, margins.left, margins.right, margins.bottom],
      value.isFinite = true → ReadsBack print value) :
    (marginsEntry margins).Known print fields := by
  simp only [List.forall_mem_cons] at back
  obtain ⟨top, left, right, bottom, -⟩ := back
  have known : ∀ entry ∈ marginEntries margins, entry.Known print marginFields := by
    simp only [marginEntries, List.forall_mem_cons]
    exact ⟨known_floatEntry rfl top, known_floatEntry rfl left, known_floatEntry rfl right,
      known_floatEntry rfl bottom, List.forall_mem_nil _⟩
  have once : ((marginEntries margins).map Entry.name).Nodup := by
    change ["top", "left", "right", "bottom"].Nodup
    decide
  have reads := Json.reads_record known once .standard
    fun (config : Config) (margins : Margins) => ({ config with margins } : Config)
  exact ⟨marginsField, rfl, reads⟩

theorem known_familyEntry (fontFamily : List Char) : (familyEntry fontFamily).Known print fields := by
  refine ⟨familyField, rfl, fun record rest _ => ?_⟩
  simp only [familyField, familyEntry, Value.writeWith, Json.string_quotedText]
  rfl

theorem known_entries (back : ∀ value ∈ config.numbers, value.isFinite = true → ReadsBack print value) :
    ∀ entry ∈ config.entries, entry.Known print fields := by
  simp only [numbers, positiveSettings, unchecked, List.map_cons, List.map_nil, List.cons_append,
    List.nil_append, List.forall_mem_cons] at back
  obtain ⟨size, small, line, width, height, top, left, right, bottom, gray, -⟩ := back
  simp only [entries, List.forall_mem_cons]
  refine ⟨known_pageEntry width height, known_marginsEntry ?_, known_floatEntry rfl size,
    known_floatEntry rfl small, known_floatEntry rfl line, known_familyEntry _,
    known_floatEntry rfl gray, List.forall_mem_nil _⟩
  simp only [List.forall_mem_cons]
  exact ⟨top, left, right, bottom, List.forall_mem_nil _⟩

theorem ofJson_writeWith
    (back : ∀ value ∈ config.numbers, value.isFinite = true → ReadsBack print value) :
    ofJson (config.toJson.writeWith print) = recordOf config.entries {} := by
  have once : (config.entries.map Entry.name).Nodup := by
    change ["page", "margins", "defaultFontSize", "smallFontSize", "lineHeight", "fontFamily",
      "cellFillGray"].Nodup
    decide
  rw [toJson_eq]
  exact Json.wholeRecord_textOf (known_entries back) once {}

/-! ### What is lost -/

theorem recordOf_floatEntry {α : Type} (name : String) (set : α → Float32 → α) (value : Float32)
    (later : List (Entry α)) (record : α) :
    recordOf (floatEntry name set value :: later) record =
      if value.isFinite then recordOf later (set record value) else .error .unexpected := by
  rw [recordOf, floatEntry]
  dsimp only
  split <;> rfl

theorem recordOf_pageEntry (page : PageSize) (later : List (Entry Config)) (config : Config) :
    recordOf (pageEntry page :: later) config =
      if page.width.isFinite ∧ page.height.isFinite then recordOf later { config with page }
      else .error .unexpected := by
  rw [recordOf, pageEntry]
  simp only [pageEntries, recordOf_floatEntry, ← ite_and]
  split <;> rfl

theorem recordOf_marginsEntry (margins : Margins) (later : List (Entry Config)) (config : Config) :
    recordOf (marginsEntry margins :: later) config =
      if margins.top.isFinite ∧ margins.left.isFinite ∧ margins.right.isFinite ∧
        margins.bottom.isFinite then recordOf later { config with margins }
      else .error .unexpected := by
  rw [recordOf, marginsEntry]
  simp only [marginEntries, recordOf_floatEntry, ← ite_and]
  split <;> rfl

theorem recordOf_familyEntry (fontFamily : List Char) (later : List (Entry Config)) (config : Config) :
    recordOf (familyEntry fontFamily :: later) config = recordOf later { config with fontFamily } := rfl

theorem recordOf_entries (sizes : ∀ setting ∈ config.positiveSettings, setting.2.isFinite = true)
    (default : Config) : recordOf config.entries default =
      if config.unchecked.all Float32.isFinite then .ok config else .error .unexpected := by
  simp only [positiveSettings, List.forall_mem_cons] at sizes
  obtain ⟨size, small, line, width, height, -⟩ := sizes
  have gray : config.unchecked.all Float32.isFinite = true ↔ (config.margins.top.isFinite ∧
      config.margins.left.isFinite ∧ config.margins.right.isFinite ∧ config.margins.bottom.isFinite) ∧
        config.cellFillGray.isFinite := by
    simp [unchecked, and_assoc]
  rw [entries, recordOf_pageEntry, if_pos ⟨width, height⟩, recordOf_marginsEntry, recordOf_floatEntry,
    if_pos size, recordOf_floatEntry, if_pos small, recordOf_floatEntry, if_pos line,
    recordOf_familyEntry, recordOf_floatEntry, ← ite_and]
  exact if_congr gray.symm rfl rfl

/-- Settings that are accepted are read again as they were saved, if they are all finite; else what
was saved is refused. The numbers may be printed in any way that keeps each of them. -/
theorem saved_reads_back_iff_finite (config : Config) (valid : config.fault? = none)
    (print : Float32 → List Char)
    (back : ∀ value ∈ config.numbers, value.isFinite = true → ReadsBack print value) :
    ofJson (config.toJson.writeWith print) =
      if config.unchecked.all Float32.isFinite then .ok config else .error .unexpected := by
  rw [ofJson_writeWith back]
  apply recordOf_entries
  intro setting member
  have positive := positive_of_fault? valid setting member
  rw [isPositive, Bool.and_eq_true] at positive
  exact positive.1

/-- Numbers with a point, also whole ones. -/
def pointed (value : Float32) : List Char :=
  if '.' ∈ Decimal.write value then Decimal.write value else Decimal.write value ++ ['.', '0']

/-- The name of the font has to be escaped. -/
def escaped : Config := { margins := ⟨10, 12.5, 10, 20⟩, fontFamily := ['"', '\\', '\n'] }

theorem escaped_reads_back :
    escaped.fault? = none ∧
    (∀ value ∈ escaped.numbers, value.isFinite = true → ReadsBack pointed value) ∧
    ofJson (escaped.toJson.writeWith pointed) = .ok escaped := by
  have valid : escaped.fault? = none := by decide +kernel
  have back : ∀ value ∈ escaped.numbers, value.isFinite = true → ReadsBack pointed value := by
    unfold ReadsBack
    decide +kernel
  have finite : escaped.unchecked.all Float32.isFinite = true := by decide +kernel
  refine ⟨valid, back, ?_⟩
  rw [saved_reads_back_iff_finite escaped valid pointed back, if_pos finite]

/-- A left margin beyond the range of 32-bit floats is accepted, saved as null and then refused. -/
theorem infinite_margin_is_refused :
    ∃ config, ofJson "\x7b\"margins\":\x7b\"left\":-1e39\x7d\x7d".toList = .ok config ∧
      config.fault? = none ∧
      (∀ value ∈ config.numbers, value.isFinite = true → ReadsBack pointed value) ∧
      ofJson (config.toJson.writeWith pointed) = .error .unexpected := by
  refine ⟨{ margins := ⟨10, -(1 / 0), 10, 20⟩ }, by decide +kernel, by decide +kernel, ?_,
    by decide +kernel⟩
  unfold ReadsBack
  decide +kernel

end Letterhead.Config
