import Letterhead.Font

/-!
Text style while tags open and close. Bold, italic and underline count how often they are open,
never below zero, in 32 bits that wrap. The small size does not nest: the last tag decides.
-/

namespace Letterhead

inductive Emphasis where
  | bold
  | italic
  | underline
deriving DecidableEq, Repr

def Emphasis.ofName? (name : List Char) : Option Emphasis :=
  match name with
  | ['B'] => some .bold
  | ['I'] => some .italic
  | ['U'] => some .underline
  | _ => none

/-- A tag of some name opens or closes. -/
structure Toggle where
  name : List Char
  closing : Bool
deriving DecidableEq, Repr

structure StyleCounts where
  bold : UInt32 := 0
  italic : UInt32 := 0
  underline : UInt32 := 0
deriving DecidableEq, Repr

namespace StyleCounts

def count (counts : StyleCounts) : Emphasis → Nat
  | .bold => counts.bold.toNat
  | .italic => counts.italic.toNat
  | .underline => counts.underline.toNat

def update (counts : StyleCounts) (change : UInt32 → UInt32) : Emphasis → StyleCounts
  | .bold => { counts with bold := change counts.bold }
  | .italic => { counts with italic := change counts.italic }
  | .underline => { counts with underline := change counts.underline }

def opened (counts : StyleCounts) (tag : Emphasis) : StyleCounts := counts.update (· + 1) tag

/-- What is not open stays so. -/
def closed (counts : StyleCounts) (tag : Emphasis) : StyleCounts :=
  counts.update (fun count => if count = 0 then 0 else count - 1) tag

def isOn (counts : StyleCounts) (tag : Emphasis) : Bool := 0 < counts.count tag

def variant (counts : StyleCounts) : FontStyle :=
  ⟨counts.isOn .bold, counts.isOn .italic, counts.isOn .underline⟩

def isPlain (counts : StyleCounts) : Bool := counts == {}

/-- The counts after a toggle, and their variant if the name is that of a style. -/
def toggled (counts : StyleCounts) (toggle : Toggle) : Option FontStyle × StyleCounts :=
  match Emphasis.ofName? toggle.name with
  | none => (none, counts)
  | some tag =>
    let after := if toggle.closing then counts.closed tag else counts.opened tag
    (some after.variant, after)

variable (counts : StyleCounts) (tag sought : Emphasis)

theorem count_opened :
    (counts.opened tag).count sought =
      if sought = tag then (counts.count sought + 1) % UInt32.size else counts.count sought := by
  cases tag <;> cases sought <;> rfl

theorem count_opened_of_room (room : counts.count tag + 1 < UInt32.size) :
    (counts.opened tag).count tag = counts.count tag + 1 := by
  rw [count_opened, if_pos rfl, Nat.mod_eq_of_lt room]

theorem toNat_pred (count : UInt32) : (if count = 0 then 0 else count - 1).toNat = count.toNat - 1 := by
  split
  · rename_i none_open
    rw [none_open]
    rfl
  · rename_i some_open
    have positive : 0 < count.toNat := Nat.pos_of_ne_zero fun zero =>
      some_open (UInt32.toNat_inj.mp zero)
    have least : (1 : UInt32) ≤ count := UInt32.le_iff_toNat_le.mpr positive
    rw [UInt32.toNat_sub_of_le count 1 least]
    rfl

theorem count_closed :
    (counts.closed tag).count sought =
      if sought = tag then counts.count sought - 1 else counts.count sought := by
  cases tag <;> cases sought <;> first | rfl | exact toNat_pred _

theorem ext_count {counts other : StyleCounts} (same : ∀ tag, counts.count tag = other.count tag) :
    counts = other := by
  obtain ⟨bold, italic, underline⟩ := counts
  obtain ⟨otherBold, otherItalic, otherUnderline⟩ := other
  obtain rfl := UInt32.toNat_inj.mp (same .bold)
  obtain rfl := UInt32.toNat_inj.mp (same .italic)
  obtain rfl := UInt32.toNat_inj.mp (same .underline)
  rfl

end StyleCounts

structure FontSizes where
  regular : Float32
  small : Float32
  isSmall : Bool := false
deriving Repr

namespace FontSizes

def current (sizes : FontSizes) : Float32 := if sizes.isSmall then sizes.small else sizes.regular

def select (sizes : FontSizes) (isSmall : Bool) : FontSizes := { sizes with isSmall }

end FontSizes

end Letterhead
