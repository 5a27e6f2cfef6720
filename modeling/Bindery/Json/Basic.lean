import Bindery.Decimal.Basic
import Bindery.Keyed

/-!
# Document trees

A description is a tree of JSON values. Objects list their entries in the order
of their keys, each key once; `Json.ofEntries` brings entries into this form, and
a later entry replaces an earlier one.
-/

namespace Bindery

/-- A JSON value. Integers and decimal fractions are kept apart, as a document
writes them. -/
inductive Json where
  | null
  | bool (b : Bool)
  | int (n : Int)
  | float (x : Decimal)
  | str (s : String)
  | arr (items : List Json)
  /-- Entries in ascending order of their keys. -/
  | obj (entries : List (String × Json))
deriving Inhabited

namespace Json

/-- The object with these entries, of which later ones win. -/
def ofEntries (entries : List (String × Json)) : Json :=
  obj (entries.foldl (fun acc e => insertEntry e.1 e.2 acc) [])

/-- The value under a key of an object. -/
def get? (key : String) : Json → Option Json
  | obj entries => lookupEntry key entries
  | _ => none

end Json

end Bindery
