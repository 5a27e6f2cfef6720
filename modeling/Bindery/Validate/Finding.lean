import Bindery.Schema.Basic
import Bindery.Text.Quoted

/-!
# Findings of validation

A finding says what is wrong and where. The place is a path into the description,
such as `interfaces[0].methods[1].returns.type`; the problem is a cause, worded
by `Problem.message`.
-/

namespace Bindery.Validate

open Text (quoted)

/-- What is wrong with a description. -/
inductive Problem where
  | handleNotPascal (name : String)
  | duplicateHandle (name : String)
  | duplicateInterface (name : String)
  | emptyInterface (name : String)
  | duplicateConstructor (name interface : String)
  /-- A method has the name of a constructor or of a method before it. -/
  | methodCollision (name interface : String)
  | methodIsDestructor (name : String)
  | constructorName (name : String)
  | constructorWithoutError
  | constructorWithoutResult
  | constructorResult (type : String)
  /-- A constructor makes another handle than the first one does. -/
  | otherHandle (handle interface first : String)
  | constructorTakesHandle
  | bufferElement (element : String)
  | bufferTransfer
  | stringTransfer
  | handleTransfer
  | unknownType (type : String)
  | notReturnable (type : String)
  | unknownReturnType (type : String)
  | undeclaredHandle (name : String)
  | missingType (name : String)
  | unionType (name : String)
  | missingErrorType (name : String)
  | errorNotEnum (name : String) (kind : TypeKind)
deriving DecidableEq, Repr

/-- The wording. -/
def Problem.message : Problem → String
  | handleNotPascal name => "handle name " ++ quoted name ++ " must be PascalCase"
  | duplicateHandle name => "duplicate handle name " ++ quoted name
  | duplicateInterface name => "duplicate interface name " ++ quoted name
  | emptyInterface name =>
    "interface " ++ quoted name ++ " must declare at least one constructor or method"
  | duplicateConstructor name interface =>
    "duplicate constructor name " ++ quoted name ++ " in interface " ++ quoted interface
  | methodCollision name interface =>
    "method name " ++ quoted name ++ " collides with another name in interface " ++ quoted interface
  | methodIsDestructor name =>
    "method name " ++ quoted name ++ " collides with the generated destructor"
  | constructorName name =>
    "constructor name " ++ quoted name ++ " must be 'create' or start with 'create_'"
  | constructorWithoutError => "constructors must declare an error type"
  | constructorWithoutResult => "constructors must return a handle"
  | constructorResult type => "constructors must return a handle, got " ++ quoted type
  | otherHandle handle interface first =>
    "constructor returns handle " ++ quoted handle ++ " but interface " ++ quoted interface
      ++ " constructs " ++ quoted first
  | constructorTakesHandle => "constructors may not take handle parameters"
  | bufferElement element =>
    "buffer element type " ++ quoted element ++ " must be a numeric primitive"
  | bufferTransfer => "buffer parameters must use 'ref' or 'ref_mut' transfer"
  | stringTransfer => "string parameters are always borrowed; transfer must be 'ref'"
  | handleTransfer => "handle parameters are copied; transfer must be 'value'"
  | unknownType type => "unknown type " ++ quoted type
  | notReturnable type =>
    quoted type ++ " cannot be returned; return a FlatBuffers type instead"
  | unknownReturnType type => "unknown return type " ++ quoted type
  | undeclaredHandle name =>
    "handle " ++ quoted name ++ " is not declared in the handles section"
  | missingType name => "FlatBuffers type " ++ quoted name ++ " not found in schemas"
  | unionType name =>
    "union type " ++ quoted name ++ " cannot cross the C ABI; wrap it in a table"
  | missingErrorType name => "error type " ++ quoted name ++ " not found in schemas"
  | errorNotEnum name kind =>
    "error type " ++ quoted name ++ " must be an enum, got " ++ kind.name

/-- A problem and where it is. -/
structure Finding where
  path : String
  problem : Problem
deriving DecidableEq, Repr

namespace Finding

/-- The wording of the problem. -/
def message (f : Finding) : String := f.problem.message

/-- The finding seen from further out. -/
def below (front : String) (f : Finding) : Finding := { f with path := front ++ f.path }

end Finding

/-- A finding if a condition holds. -/
def findingIf (bad : Bool) (path : String) (problem : Problem) : List Finding :=
  if bad then [⟨path, problem⟩] else []

/-- The text of a whole report. -/
def reportText (findings : List Finding) : String :=
  "validation failed (" ++ toString findings.length ++ " error(s))"
    ++ String.join (findings.map fun f => "\n  " ++ f.path ++ ": " ++ f.message)

end Bindery.Validate
