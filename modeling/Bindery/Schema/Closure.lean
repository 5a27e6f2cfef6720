import Bindery.Schema.Unvisited

/-!
# Record closure

The records that can be reached from some names through fields that hold a record
by value, each once and after the records it contains. A walk that comes back to a
record it is inside of stops there.
-/

namespace Bindery.Schema

mutual

/-- Adds a record and what it contains to those found so far, inside the records
`visiting`. -/
def closeRecord (types : Schema) (visiting found : List String) (name : String) : List String :=
  if found.contains name then found
  else if _hv : visiting.contains name then found
  else match _h : types.get? name with
    | none => found
    | some d =>
      if d.isRecord then closeFields types (name :: visiting) found d.fields ++ [name] else found
termination_by (types.unvisited visiting, 0)
decreasing_by
  exact Prod.Lex.left _ _ (unvisited_cons_lt _h (by simpa using _hv))

/-- Adds the records that fields hold by value. -/
def closeFields (types : Schema) (visiting found : List String) : List Field → List String
  | [] => found
  | f :: rest =>
    match f.type with
    | .named n => closeFields types visiting (closeRecord types visiting found n) rest
    | _ => closeFields types visiting found rest
termination_by fields => (types.unvisited visiting, fields.length)

end

/-- The records reachable from some names, nested ones first. -/
def recordClosure (types : Schema) (roots : List String) : List String :=
  roots.foldl (closeRecord types []) []

end Bindery.Schema
