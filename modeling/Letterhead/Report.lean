/-!
Messages about what went wrong while a document was drawn. A document without any is in order.
-/

namespace Letterhead

structure Report where
  messages : List String := []
deriving DecidableEq, Repr

namespace Report

def add (report : Report) (message : String) : Report := ⟨report.messages ++ [message]⟩

def addAll (report : Report) (messages : List String) : Report := ⟨report.messages ++ messages⟩

def join (report other : Report) : Report := report.addAll other.messages

def isClean (report : Report) : Bool := report.messages.isEmpty

def text (report : Report) : String := "\n".intercalate report.messages

end Report

end Letterhead
