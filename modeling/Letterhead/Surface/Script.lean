import Letterhead.Surface.Basic

/-!
A surface that draws nothing and answers by a script. Each call is an event, and every rule for
that event takes effect, in order: pages end, warnings come up, the call fails. It serves to watch
what a renderer asks of a surface, whatever the surface answers.
-/

namespace Letterhead

inductive ScriptedFault where
  | fault (fault : DrawFault)
  | noCurrentPage

structure Rule where
  event : List Char
  /-- Pages reported as finished though they are not. -/
  reported : List Nat := []
  newPages : Nat := 0
  warnings : List String := []
  fault : Option ScriptedFault := none

structure Script where
  rules : List Rule
  page : Nat := 1
  breaks : List Nat := []
  warnings : List String := []
  written : Nat := 0

/-- Content is an event of its own text, all else of its kind and argument. -/
def Call.event : Call → List Char
  | .selectStyle variant => "style:".toList ++ variant.letters
  | .selectSize size => "size:".toList ++ Decimal.write size
  | .flowText _ content => content
  | .boxText content _ => content
  | .stamp page _ => "stamp:".toList ++ Nat.toDigits 10 page
  | .write => "finalize".toList

def ScriptedFault.onPage (page : Nat) : ScriptedFault → DrawFault
  | .fault given => given
  | .noCurrentPage => .pageOutOfRange page

namespace Script

def fileSize : Nat := 4

/-- The fault of a later rule takes the place of an earlier one's. -/
def obey (state : Script × Option DrawFault) (rule : Rule) : Script × Option DrawFault :=
  let (script, fault) := state
  let page := script.page + rule.newPages
  let ended := List.range' script.page rule.newPages
  ({ script with
      page
      breaks := script.breaks ++ rule.reported ++ ended
      warnings := script.warnings ++ rule.warnings },
    (rule.fault.map (ScriptedFault.onPage page)).or fault)

def answer (call : Call) (script : Script) : Except DrawFault Unit × Script :=
  let (script, fault) := (script.rules.filter (·.event == call.event)).foldl obey (script, none)
  match fault, call with
  | some fault, _ => (.error fault, script)
  | none, .write => (.ok (), { script with written := fileSize })
  | none, _ => (.ok (), script)

def surface : Surface Script where
  answer := answer
  currentPage script := script.page
  drainBreaks script := (script.breaks, { script with breaks := [] })
  drainWarnings script := (script.warnings, { script with warnings := [] })

end Script

end Letterhead
