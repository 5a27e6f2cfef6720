import Bindery.Abi.Layout
import Bindery.Abi.Service
import Bindery.Abi.Signature
import Bindery.Abi.Typedef
import Bindery.Api.Basic
import Bindery.Api.Document
import Bindery.Api.Operation
import Bindery.Artifact
import Bindery.Banner
import Bindery.Code.Doc
import Bindery.Code.Line
import Bindery.Code.Writer
import Bindery.Command
import Bindery.CommandLine.Basic
import Bindery.CommandLine.Switch
import Bindery.Console
import Bindery.Decimal.Basic
import Bindery.Diagnostic
import Bindery.Emit
import Bindery.Emit.Build
import Bindery.Emit.Build.Makefile
import Bindery.Emit.Build.Recipe
import Bindery.Emit.Context
import Bindery.Emit.Cpp
import Bindery.Emit.Fault
import Bindery.Emit.Go
import Bindery.Emit.Go.Basic
import Bindery.Emit.Go.Cgo
import Bindery.Emit.Go.Package
import Bindery.Emit.Go.Wasm
import Bindery.Emit.Header
import Bindery.Emit.JavaScript
import Bindery.Emit.JavaScript.Codec
import Bindery.Emit.JavaScript.Prelude
import Bindery.Emit.JavaScript.Wrapper
import Bindery.Emit.Kotlin
import Bindery.Emit.Kotlin.Basic
import Bindery.Emit.Kotlin.Bridge
import Bindery.Emit.Kotlin.Source
import Bindery.Emit.PlatformServices
import Bindery.Emit.Rust
import Bindery.Emit.Rust.Definition
import Bindery.Emit.Rust.Export
import Bindery.Emit.Rust.Syntax
import Bindery.Emit.Rust.Trait
import Bindery.Emit.Swift
import Bindery.Emitter
import Bindery.FileSystem
import Bindery.Generate
import Bindery.Json.Basic
import Bindery.Json.Printer
import Bindery.Keyed
import Bindery.Load
import Bindery.Main
import Bindery.Naming
import Bindery.Output
import Bindery.Path
import Bindery.Plan
import Bindery.Project
import Bindery.Proofs.Bridge.Order
import Bindery.Proofs.Callers
import Bindery.Proofs.Collisions
import Bindery.Proofs.Commentary
import Bindery.Proofs.Conformance
import Bindery.Proofs.Conformance.Mentions
import Bindery.Proofs.Coverage
import Bindery.Proofs.Coverage.Files
import Bindery.Proofs.Coverage.Kotlin
import Bindery.Proofs.Coverage.Swift
import Bindery.Proofs.Declared
import Bindery.Proofs.Description
import Bindery.Proofs.Destinations
import Bindery.Proofs.Emission
import Bindery.Proofs.Emission.JavaScript
import Bindery.Proofs.Failures
import Bindery.Proofs.Files.Growth
import Bindery.Proofs.Files.Lookup
import Bindery.Proofs.Files.Removal
import Bindery.Proofs.Implementations
import Bindery.Proofs.Layout.Declarations
import Bindery.Proofs.Layout.Natural
import Bindery.Proofs.Layout.Placement
import Bindery.Proofs.Layout.Records
import Bindery.Proofs.Layout.Words
import Bindery.Proofs.Lifetimes
import Bindery.Proofs.Lifetimes.Files
import Bindery.Proofs.Lowering
import Bindery.Proofs.Names.Bindings
import Bindery.Proofs.Names.Escapes
import Bindery.Proofs.Names.Handles
import Bindery.Proofs.Names.Operations
import Bindery.Proofs.Names.Spelling
import Bindery.Proofs.Natives
import Bindery.Proofs.Nesting
import Bindery.Proofs.Nesting.Order
import Bindery.Proofs.Pages
import Bindery.Proofs.Paths
import Bindery.Proofs.Patterns
import Bindery.Proofs.Plans
import Bindery.Proofs.Pointers
import Bindery.Proofs.Preview
import Bindery.Proofs.Prototypes
import Bindery.Proofs.Prototypes.Wrapping
import Bindery.Proofs.References
import Bindery.Proofs.Refusals
import Bindery.Proofs.Regeneration
import Bindery.Proofs.Registrations
import Bindery.Proofs.RoundTrip
import Bindery.Proofs.Schema
import Bindery.Proofs.Schema.Blanks
import Bindery.Proofs.Schema.Braces
import Bindery.Proofs.Schema.Comments
import Bindery.Proofs.Schema.Completion
import Bindery.Proofs.Schema.Files
import Bindery.Proofs.Schema.Forming
import Bindery.Proofs.Schema.Grammar
import Bindery.Proofs.Schema.Numbering
import Bindery.Proofs.Schema.Parsing
import Bindery.Proofs.Schema.Phrases
import Bindery.Proofs.Schema.References
import Bindery.Proofs.Schema.Scanning
import Bindery.Proofs.Shims
import Bindery.Proofs.Shims.Files
import Bindery.Proofs.Starter
import Bindery.Proofs.Starting
import Bindery.Proofs.Storing
import Bindery.Proofs.Success
import Bindery.Proofs.Symbols
import Bindery.Proofs.Targets
import Bindery.Proofs.Text
import Bindery.Proofs.TypeRef
import Bindery.Proofs.Typedefs
import Bindery.Proofs.Wasm.Allocations
import Bindery.Proofs.Wasm.Calls
import Bindery.Proofs.Wasm.Codecs
import Bindery.Proofs.Wasm.Codecs.Files
import Bindery.Proofs.Wasm.Convention
import Bindery.Proofs.Wasm.Directives
import Bindery.Proofs.Wasm.Identifiers
import Bindery.Proofs.Wasm.Linking
import Bindery.Proofs.Wasm.Mentions
import Bindery.Proofs.Wasm.Ranges
import Bindery.Proofs.Wasm.Results
import Bindery.Proofs.Wasm.Results.Files
import Bindery.Proofs.Yaml.Documents
import Bindery.Proofs.Yaml.Lines
import Bindery.Proofs.Yaml.Scalars
import Bindery.Proofs.Yaml.Trees
import Bindery.Registry
import Bindery.Schema.Basic
import Bindery.Schema.Closure
import Bindery.Schema.Files
import Bindery.Schema.Phrase
import Bindery.Schema.Resolve
import Bindery.Schema.Scan
import Bindery.Schema.Unvisited
import Bindery.Shape.Basic
import Bindery.Shape.Description
import Bindery.Shape.Document
import Bindery.Shape.Pattern
import Bindery.Starter
import Bindery.Text.Basic
import Bindery.Text.Identifier
import Bindery.Text.Quoted
import Bindery.Text.Ranges
import Bindery.Text.Word
import Bindery.TypeRef
import Bindery.Validate.Basic
import Bindery.Validate.Finding
import Bindery.Vocabulary.Language
import Bindery.Vocabulary.Primitive
import Bindery.Vocabulary.Target
import Bindery.Vocabulary.Transfer
import Bindery.Yaml.Cursor
import Bindery.Yaml.Lexer
import Bindery.Yaml.Node
import Bindery.Yaml.Scalar
import Bindery.Yaml.Token
import Bindery.Yaml.Value
