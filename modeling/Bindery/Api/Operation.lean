import Bindery.Api.Basic

/-!
# Operations

Every entry point of the C interface is an operation of some interface: one for
each constructor, one destructor if there is a constructor, and one for each
method, in this order.
-/

namespace Bindery

/-- What an operation does to the life of a handle. -/
inductive Operation.Kind where
  | constructor | destructor | method
deriving DecidableEq, Repr

/-- One entry point of the C interface. -/
structure Operation where
  interface : Interface
  kind : Operation.Kind
  method : Method
deriving DecidableEq, Repr

namespace Operation

/-- The exported symbol. -/
def symbol (op : Operation) (api : String) : String :=
  Naming.cSymbol api op.interface.name op.method.name

/-- Interface and operation in Pascal case, the stem of native wrapper names. -/
def pascalName (op : Operation) : String :=
  Naming.pascalCase op.interface.name ++ Naming.pascalCase op.method.name

/-- Constructors and destructors. -/
def isLifecycle (op : Operation) : Bool := op.kind ≠ .method

end Operation

/-- Constructors, then the destructor, then methods. -/
def Interface.operations (i : Interface) : List Operation :=
  i.constructors.map (⟨i, .constructor, ·⟩)
    ++ i.destructor?.toList.map (⟨i, .destructor, ·⟩)
    ++ i.methods.map (⟨i, .method, ·⟩)

/-- The operations of all interfaces. -/
def Api.operations (a : Api) : List Operation :=
  a.interfaces.flatMap Interface.operations

end Bindery
