import Bindery.Emitter
import Bindery.Keyed

/-!
# The registry of emitters

A table from names to emitters. The first registration of a name stands: a second
one is refused and changes nothing. What is registered need not be built in, so the
table is over any type of emitters.
-/

namespace Bindery

/-- Emitters by name. -/
structure Registry (ε : Type := Emitter) where
  table : Keyed ε := {}

namespace Registry

variable {ε : Type}

/-- The registry in which nothing is registered. -/
def empty : Registry ε := ⟨.empty⟩

/-- The registered names in order. -/
def names (r : Registry ε) : List String := r.table.names

/-- How many names are registered. -/
def size (r : Registry ε) : Nat := r.table.size

/-- The emitter under a name. -/
def get? (r : Registry ε) (name : String) : Option ε := r.table.get? name

/-- Whether a name is registered. -/
def contains (r : Registry ε) (name : String) : Bool := (r.get? name).isSome

/-- Registers an emitter under a new name; `none` when the name is taken. -/
def register? (r : Registry ε) (name : String) (e : ε) : Option (Registry ε) :=
  if r.contains name then none else some ⟨r.table.insert name e⟩

/-- Registers emitters under their names up to the first whose name is taken. The
flag says whether all were registered. -/
def registerEach (r : Registry ε) : List (String × ε) → Registry ε × Bool
  | [] => (r, true)
  | (name, e) :: rest =>
    match r.register? name e with
    | some r => r.registerEach rest
    | none => (r, false)

/-- The emitters that are built in, in the order in which they are registered. What is
registered for each is up to `make`. -/
def builtins (make : Emitter → ε) : List (String × ε) :=
  Emitter.all.map fun e => (e.name, make e)

/-- Registers every emitter that is built in. -/
def registerAll (r : Registry) : Registry × Bool := r.registerEach (builtins id)

/-- The registry that generation uses. -/
def standard : Registry := (registerAll empty).1

/-! ### Steps -/

/-- Something to do with a registry. -/
inductive Step (ε : Type) where
  /-- Registers an emitter; a name that is taken is a mistake of the program. -/
  | register (name : String) (e : ε)
  | tryRegister (name : String) (e : ε)
  | registerAll
  | get (name : String)
  | contains (name : String)
deriving DecidableEq, Repr

/-- What comes of it. -/
inductive Answer (ε : Type) where
  | done
  /-- The program stopped at a name that is taken. -/
  | panicked
  | added (new : Bool)
  | found (e : Option ε)
  | known (yes : Bool)
deriving DecidableEq, Repr

/-- Carries a step out. What was registered before a panic stays. -/
def step (make : Emitter → ε) (r : Registry ε) : Step ε → Registry ε × Answer ε
  | .register name e =>
    match r.register? name e with
    | some r => (r, .done)
    | none => (r, .panicked)
  | .tryRegister name e =>
    match r.register? name e with
    | some r => (r, .added true)
    | none => (r, .added false)
  | .registerAll =>
    match r.registerEach (builtins make) with
    | (r, true) => (r, .done)
    | (r, false) => (r, .panicked)
  | .get name => (r, .found (r.get? name))
  | .contains name => (r, .known (r.contains name))

end Registry

end Bindery
