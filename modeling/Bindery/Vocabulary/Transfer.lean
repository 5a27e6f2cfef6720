/-!
# Transfer of parameters

How a parameter is handed over: copied, borrowed for reading, or borrowed for
writing.
-/

namespace Bindery

/-- How a parameter is handed over. -/
inductive Transfer where
  | value
  /-- Borrowed for reading. -/
  | ref
  /-- Borrowed for writing. -/
  | refMut
deriving DecidableEq, Repr

namespace Transfer

/-- The spelling in descriptions. -/
def name : Transfer → String
  | value => "value" | ref => "ref" | refMut => "ref_mut"

/-- The transfer with this spelling. -/
def ofName? (s : String) : Option Transfer :=
  [value, ref, refMut].find? fun t => t.name == s

/-- Whether the callee may write through the parameter. -/
def isMut (t : Transfer) : Bool := t = refMut

end Transfer

end Bindery
