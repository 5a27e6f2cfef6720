import Bindery.Emit.Rust.Definition
import Bindery.Emit.Rust.Export
import Bindery.Emit.Rust.Trait

/-!
# The Rust skeleton

Traits, exported functions and type definitions are generated; the implementation,
the root of the crate and its manifest belong to the user.
-/

namespace Bindery.Rust

/-- The modules of the crate. -/
structure Modules where
  types : String
  traits : String
  exports : String
  implementation : String
deriving DecidableEq, Repr

/-- The modules for a description. -/
def Modules.ofApi (api : String) : Except Fault Modules := do
  return {
    types := ← literalName (api ++ "_types")
    traits := ← literalName (api ++ "_trait")
    exports := ← literalName (api ++ "_ffi")
    implementation := ← literalName (api ++ "_impl") }

/-- All names of a module of the crate. -/
def useAll (module : String) : String := "use crate::" ++ module ++ "::*;"

/-- A source file: attributes and imports on lines of their own, then the items. -/
def sourceText (head : List String) (items : List (List Doc)) : String :=
  Doc.render ((head.map fun s => [Doc.text s]) ++ items |>.flatMap (· ++ [Doc.newline]))

/-- The import of the schema types, if there are any. -/
def useTypes (ctx : Context) (modules : Modules) : List String :=
  if ctx.types.entries.isEmpty then [] else [useAll modules.types]

/-- The traits. -/
def traitFile (ctx : Context) (modules : Modules) (ts : List Trait) : String :=
  sourceText (["#![allow(unused_imports)]", "use std::ffi::c_void;"] ++ useTypes ctx modules)
    (ts.map Trait.doc)

/-- The exported functions. -/
def exportFile (ctx : Context) (modules : Modules) (es : List Export) : String :=
  sourceText (["#![allow(unused_imports, clippy::missing_safety_doc)]",
      "use std::ffi::\x7bc_char, c_void, CStr\x7d;"] ++ useTypes ctx modules
      ++ [useAll modules.traits, useAll modules.implementation])
    (es.map Export.doc)

/-- The type definitions. -/
def typeFile (ds : List Definition) : String :=
  sourceText ["#![allow(unused_imports)]", "use std::ffi::c_char;"] (ds.map Definition.doc)

/-- The implementation, ready to be filled in. -/
def implementationFile (ctx : Context) (modules : Modules) (ts : List Trait) : String :=
  sourceText (["#![allow(unused_imports, unused_variables)]", "use std::ffi::c_void;"]
      ++ useTypes ctx modules
      ++ [useAll modules.traits, "/// Implements every interface trait.", "pub struct Impl;"])
    (ts.map Trait.skeleton)

/-- The root of the crate, which reaches generated modules by path. -/
def crateRoot (ctx : Context) (modules : Modules) : List Line :=
  let generated := (if ctx.types.entries.isEmpty then [] else [modules.types])
    ++ [modules.traits, modules.exports]
  Code.lines (generated.flatMap (fun m =>
      ["#[path = \"../" ++ ctx.generatedDir ++ "/" ++ m ++ ".rs\"]", "pub mod " ++ m ++ ";"])
    ++ ["pub mod " ++ modules.implementation ++ ";"])

/-- The manifest of the crate. -/
def manifest (ctx : Context) : List Line :=
  Code.lines ["[package]", "name = \"" ++ ctx.apiName ++ "\"",
    "version = \"" ++ ctx.api.metadata.version ++ "\"", "edition = \"2021\"", "",
    "[lib]", "crate-type = [\"cdylib\", \"staticlib\", \"rlib\"]"]

/-- The files of the skeleton. -/
def emit (ctx : Context) : Except Fault (List Artifact) := do
  let api := ctx.apiName
  let unit := Code.fourBlanks
  let generated (path text : String) : Artifact :=
    { path, content := ctx.generatedBanner .slash ++ text }
  let modules ← Modules.ofApi api
  let ts ← traits ctx
  let es ← exports ctx
  let types ← if ctx.types.entries.isEmpty then pure [] else do
    let ds ← definitions ctx.types
    pure [generated (api ++ "_types.rs") (typeFile ds)]
  return [generated (api ++ "_trait.rs") (traitFile ctx modules ts),
      generated (api ++ "_ffi.rs") (exportFile ctx modules es)]
    ++ types
    ++ [Artifact.inProject
        { path := "src/" ++ api ++ "_impl.rs"
          content := ctx.scaffoldBanner .slash ++ implementationFile ctx modules ts
          isScaffold := true },
      (ctx.scaffoldFile .slash "src/lib.rs" unit (crateRoot ctx modules)).inProject,
      (ctx.scaffoldFile .hash "Cargo.toml" unit (manifest ctx)).inProject]

end Bindery.Rust
