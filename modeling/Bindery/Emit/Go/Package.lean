import Bindery.Emit.Go.Basic

/-!
# The Go package

The files that do not depend on the build: the Go interfaces, the schema types as
Go types, and the structures behind the handles for the user to fill in.
-/

namespace Bindery.Go

/-! ### Interfaces -/

/-- A Go interface. -/
structure InterfaceDecl where
  name : String
  /-- The structures that implement it. -/
  owners : List String
  description : Option String
  methods : List MethodSig
deriving DecidableEq, Repr

namespace InterfaceDecl

/-- The Go interface of an interface. -/
def ofInterface (i : Interface) : Except Fault InterfaceDecl := do
  let methods ← (dispatched i).mapM MethodSig.ofMethod
  return {
    name := interfaceName i
    owners := Text.distinct (((dispatched i).filterMap Method.leadingHandle?).map handleStruct)
    description := i.description
    methods }

/-- The lines of the interface. -/
def lines (d : InterfaceDecl) : List Line :=
  [Line.blank, Code.comment (d.name ++ " is implemented by " ++ Text.commaSep d.owners ++ ".")]
    ++ d.description.toList.map Code.comment
    ++ Code.block ("type " ++ d.name ++ " interface") (Code.lines (d.methods.map MethodSig.text))

end InterfaceDecl

/-- The Go interfaces: one for each interface with a dispatched method. -/
def interfaceDecls (api : Api) : Except Fault (List InterfaceDecl) :=
  (api.interfaces.filter fun i => !(dispatched i).isEmpty).mapM InterfaceDecl.ofInterface

/-- The lines of the file of interfaces. -/
def interfaceFile (decls : List InterfaceDecl) : List Line :=
  Code.lines ["package main"] ++ decls.flatMap InterfaceDecl.lines

/-! ### Types -/

/-- Two columns, the first as wide as its widest entry. -/
def columns (rows : List (String × String)) : List Line :=
  let width := (rows.map fun r => r.1.utf8ByteSize).foldl max 0
  Code.lines (rows.map fun r => Text.padRight width r.1 ++ " " ++ r.2)

/-- The first of those values that have the same number. -/
def firstOfEach (values : List EnumValue) : List EnumValue :=
  values.foldl (fun seen v => if seen.any (·.value = v.value) then seen else seen ++ [v]) []

/-- What makes an enumeration an error. -/
def errorMethods (flat : String) (d : TypeDef) : List Line :=
  [Line.blank, Code.comment ("Error lets implementations return a " ++ flat ++ " as an error.")]
    ++ Code.block ("func (e " ++ flat ++ ") Error() string")
      (Code.lines ["switch e \x7b"]
        ++ (firstOfEach d.values).flatMap (fun v =>
          Code.lines ["case " ++ flat ++ v.name ++ ":"]
            ++ Code.indent (Code.lines ["return \"" ++ v.name ++ "\""]))
        ++ Code.lines ["\x7d", "return \"" ++ flat ++ "(\" + strconv.Itoa(int(e)) + \")\""])
    ++ [Line.blank, Code.comment "Code is the C ABI discriminant."]
    ++ Code.block ("func (e " ++ flat ++ ") Code() int32") (Code.lines ["return int32(e)"])

/-- The lines of an enumeration. -/
def enumLines (name : String) (d : TypeDef) (isError : Bool) : List Line :=
  let flat := Naming.flatTypeName name
  [Line.blank, Code.comment (flat ++ " mirrors the " ++ name ++ " enum.")]
    ++ Code.lines ["type " ++ flat ++ " " ++ d.enumBase.row.go]
    ++ (if d.values.isEmpty then []
      else [Line.blank] ++ Code.enclosed "const (" ")"
        (columns (d.values.map fun v => (flat ++ v.name, flat ++ " = " ++ toString v.value))))
    ++ if isError then errorMethods flat d else []

/-- The lines of a record. Opaque fields are left out. -/
def recordLines (types : Schema) (name : String) (d : TypeDef) : List Line :=
  let flat := Naming.flatTypeName name
  let fields := d.fields.filterMap fun f =>
    match Shape.ofField types f.type with
    | .one v => some (Naming.pascalCase f.name, v.go)
    | .many v => some (Naming.pascalCase f.name, "[]" ++ v.go)
    | .hidden => none
  [Line.blank, Code.comment (flat ++ " mirrors the " ++ name ++ " " ++ d.kind.name ++ ".")]
    ++ Code.block ("type " ++ flat ++ " struct") (columns fields)

/-- The lines of the file of types. -/
def typesFile (ctx : Context) : List Line :=
  let errors := ctx.api.errorTypes
  let enums := ctx.types.ofKind .enum
  Code.lines ["package main"]
    ++ (if enums.any fun e => errors.contains e.1 then Code.lines ["", "import \"strconv\""] else [])
    ++ enums.flatMap (fun (name, d) => enumLines name d (errors.contains name))
    ++ ctx.types.records.flatMap fun (name, d) => recordLines ctx.types name d

/-! ### Implementations -/

/-- The structure behind a handle. -/
structure HandleImpl where
  handle : String
  /-- The Go interfaces that it implements. -/
  implements : List String
  /-- Its methods, with the statement that returns from each. -/
  methods : List (MethodSig × Option String)
deriving DecidableEq, Repr

namespace HandleImpl

/-- The statement that returns from a method that does nothing. -/
def returnOf (ctx : Context) (m : Method) : Except Fault (Option String) :=
  match m.error, m.returns with
  | some _, some r => do return some ("return " ++ (← zero ctx r.type) ++ ", nil")
  | some _, none => .ok (some "return nil")
  | none, some r => do return some ("return " ++ (← zero ctx r.type))
  | none, none => .ok none

/-- The structure behind a handle. -/
def ofHandle (ctx : Context) (handle : String) : Except Fault HandleImpl := do
  let interfaces := interfacesOn ctx.api handle
  let methods ← (interfaces.flatMap dispatched).mapM fun m => do
    let s ← MethodSig.ofMethod m
    return (s, ← returnOf ctx m)
  return { handle, implements := interfaces.map interfaceName, methods }

/-- The lines of the structure and its methods. -/
def lines (h : HandleImpl) : List Line :=
  let name := handleStruct h.handle
  let receiver := ((Naming.lowerFirst name).toList.headD 's').toString
  let about := name ++ " is the value behind every " ++ h.handle ++ " handle"
    ++ (if h.implements.isEmpty then "" else " and implements " ++ Text.commaSep h.implements) ++ "."
  [Line.blank, Code.comment about]
    ++ Code.lines ["type " ++ name ++ " struct\x7b\x7d"]
    ++ (if h.implements.isEmpty then []
      else Code.lines ("" :: h.implements.map fun i => "var _ " ++ i ++ " = (*" ++ name ++ ")(nil)"))
    ++ h.methods.flatMap fun (s, answer) =>
      [Line.blank] ++ Code.block ("func (" ++ receiver ++ " *" ++ name ++ ") " ++ s.text)
        ([Code.comment "TODO: implement"] ++ Code.lines answer.toList)

end HandleImpl

/-- The lines of the implementation. -/
def implFile (impls : List HandleImpl) : List Line :=
  Code.lines ["package main"]
    ++ impls.flatMap HandleImpl.lines
    ++ [Line.blank, Code.comment "main is required by -buildmode=c-shared and wasip1 builds."]
    ++ Code.lines ["func main() \x7b\x7d"]

/-! ### The module -/

/-- The module file. -/
def modFile (ctx : Context) : List Line :=
  Code.lines ["module " ++ Text.replaceChar '_' "-" ctx.apiName, "", "go 1.24"]

/-- The list of ignored files: what is copied from the generated directory. -/
def ignoreFile (ctx : Context) : List Line :=
  let api := ctx.apiName
  Code.lines ["# Go sources copied from " ++ ctx.generatedDir ++ "/ by the Makefile.",
    api ++ "_interface.go", api ++ "_cgo.go", api ++ "_types.go", api ++ "_wasm.go"]

end Bindery.Go
