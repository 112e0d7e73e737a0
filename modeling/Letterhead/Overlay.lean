/-!
Which page of a template lies behind a generated page: the one of the same number, and the last
one behind all pages beyond it. Page numbers start at one.
-/

namespace Letterhead

def overlay? (templatePages page : Nat) : Option Nat :=
  if page = 0 ∨ templatePages = 0 then none else some (min page templatePages)

theorem overlay?_eq_some {templatePages page chosen : Nat}
    (found : overlay? templatePages page = some chosen) :
    0 < chosen ∧ chosen ≤ templatePages ∧ chosen = min page templatePages := by
  simp only [overlay?] at found
  split at found
  · simp at found
  · simp only [Option.some.injEq] at found
    omega

end Letterhead
