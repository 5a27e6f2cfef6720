import Bindery.Code.Doc
import Bindery.Emit.Fault
import Bindery.Naming
import Bindery.Text.Identifier
import Bindery.Text.Quoted
import Bindery.Vocabulary.Primitive

/-!
# The part of Rust that is generated

Names, types, signatures and items, each with its document. A name that a
description chooses becomes an identifier: a keyword is written raw, the four names
that cannot be raw get an underscore, and whatever is no identifier at all is
refused. A lone underscore is an identifier where a pattern or a type may stand and
nowhere else, so names that are defined go through `definable`.
-/

namespace Bindery.Rust

/-! ### Names -/

/-- The words that are written raw. -/
def keywords : List String :=
  ["abstract", "as", "async", "await", "become", "box", "break", "const", "continue", "do", "dyn",
   "else", "enum", "extern", "false", "final", "fn", "for", "gen", "if", "impl", "in", "let", "loop",
   "macro", "match", "mod", "move", "mut", "override", "priv", "pub", "ref", "return", "static",
   "struct", "trait", "true", "try", "type", "typeof", "unsafe", "unsized", "use", "virtual",
   "where", "while", "yield"]

/-- The words that cannot be written raw. -/
def pathWords : List String := ["self", "super", "crate", "Self"]

/-- The mark of a raw identifier. -/
def rawMark : String := "r#"

/-- A name as it is, when it is an identifier. -/
def literalName (name : String) : Except Fault String :=
  let isName := match Text.dropPrefix? rawMark name with
    | some word => Text.isIdentifier word && !("_" :: pathWords).contains word
    | none => Text.isIdentifier name
  if isName then .ok name else .error (.notAnIdentifier name)

/-- The identifier of a name that a description chooses. -/
def chosenName (name : String) : Except Fault String :=
  if pathWords.contains name then .ok (name ++ "_")
  else if keywords.contains name then .ok (rawMark ++ name)
  else literalName name

/-- The identifier of a schema type. -/
def typeName (qualified : String) : Except Fault String :=
  chosenName (Naming.flatTypeName qualified)

/-- Whether a definition may have a name. -/
def definable (name : String) : Bool := name != "_"

/-- Refuses code that defines something under a name that is none. -/
def checkDefined (names : List String) : Except Fault Unit :=
  if names.all definable then .ok () else .error .unparsable

/-! ### Types -/

/-- A type. -/
inductive Ty where
  | primitive (p : Primitive)
  /-- The characters of a text of C. -/
  | cChar
  /-- What a handle points to. -/
  | cVoid
  /-- A borrowed text. -/
  | str
  /-- A type that the schemas define, by its identifier. -/
  | schema (name : String)
  | pointer (isMut : Bool) (pointee : Ty)
  | reference (isMut : Bool) (referent : Ty)
  | slice (element : Ty)
  | unit
  /-- A value or an error. -/
  | result (value error : Ty)
deriving DecidableEq, Repr

namespace Ty

/-- A pointer to an object behind a handle. -/
def handle : Ty := pointer true cVoid

/-- The document of a type. -/
def doc : Ty → List Doc
  | primitive p => [.text p.row.rust]
  | cChar => [.text "c_char"]
  | cVoid => [.text "c_void"]
  | str => [.text "str"]
  | schema name => [.text name]
  | pointer isMut t => .text (if isMut then "*mut " else "*const ") :: t.doc
  | reference isMut t => .text (if isMut then "&mut " else "&") :: t.doc
  | slice t => .text "[" :: t.doc ++ [.text "]"]
  | unit => [.text "()"]
  | result value error =>
    [.text "Result<", .even Doc.step (.zero :: Doc.commas [value.doc, error.doc]), .text ">"]

end Ty

/-! ### Signatures -/

/-- A name and its type: a parameter or a field. -/
structure Binding where
  name : String
  type : Ty
deriving DecidableEq, Repr

/-- The document of a binding. -/
def Binding.doc (b : Binding) : List Doc := .text (b.name ++ ": ") :: b.type.doc

/-- The head of a function. -/
structure Signature where
  name : String
  /-- Whether the function is a method. -/
  hasSelf : Bool
  params : List Binding
  answer : Option Ty
deriving DecidableEq, Repr

/-- The parameters, a line for each when they are broken. -/
def Signature.paramDoc (params : List (List Doc)) : List Doc :=
  if params.isEmpty then [] else [.even 0 (.zero :: Doc.commas params)]

/-- The document of a signature. -/
def Signature.doc (s : Signature) : List Doc :=
  let params := (if s.hasSelf then [[Doc.text "&self"]] else []) ++ s.params.map Binding.doc
  let answer := match s.answer with
    | none => []
    | some t => .text " -> " :: t.doc
  [.text ("fn " ++ s.name ++ "("), .joint] ++ Signature.paramDoc params
    ++ [.text ")", .even (-Doc.step) answer]

/-! ### Comments -/

/-- Whether the comments inside a text, `depth` of them open, are balanced. -/
def isBalanced (depth : Nat) : List Char → Bool
  | '/' :: '*' :: rest => isBalanced (depth + 1) rest
  | '*' :: '/' :: rest => depth != 0 && isBalanced (depth - 1) rest
  | _ :: rest => isBalanced depth rest
  | [] => depth = 0

/-- Whether a text may stand inside a block comment: it neither ends the comment
early nor lends a slash to the end. -/
def isCommentable (s : String) : Bool :=
  isBalanced 0 s.toList && s.toList.getLast? != some '/'

/-- The characters of a string literal. A zero is written long in front of an octal
digit. -/
def literalChars : List Char → String
  | [] => ""
  | c :: rest =>
    (if c.toNat = 0 && (rest.head?.any fun d => '0' ≤ d && d ≤ '7') then "\\x00"
      else Text.quoteChar c) ++ literalChars rest

/-- A string literal. -/
def literal (s : String) : String := "\"" ++ literalChars s.toList ++ "\""

/-- A text without the blanks at its end. -/
def trimBlanks (s : String) : String :=
  String.ofList (s.toList.reverse.dropWhile (· = ' ')).reverse

/-- Lines without the blanks at their ends, the last line as it is. -/
def trimInner : List String → List String
  | [] => []
  | [last] => [last]
  | line :: next :: rest => trimBlanks line :: trimInner (next :: rest)

/-- A doc comment: a line, or a block for a text of several lines, or an attribute
for a text that would end the block early. -/
def docComment (description : String) : String :=
  let s := " " ++ description
  let lines := Text.cut '\n' s
  if lines.length ≤ 1 then "///" ++ trimBlanks s
  else if isCommentable s then "/**" ++ "\n".intercalate (trimInner lines) ++ "*/"
  else "#[doc = " ++ literal s ++ "]"

/-! ### Blocks -/

/-- Pieces between braces, each on a line of its own. -/
def braced (head : List Doc) (pieces : List (List Doc)) : List Doc :=
  let inner := if pieces.isEmpty then [] else Doc.newline :: Doc.lines pieces
  [.even Doc.step (head ++ .text " \x7b" :: inner), .text "\x7d"]

/-- Lines in front of a piece: comments and attributes. -/
def under (marks : List String) (piece : List Doc) : List Doc :=
  marks.flatMap (fun m => [.text m, .newline]) ++ piece

/-- Arguments between parentheses. -/
def arguments (args : List (List Doc)) : List Doc :=
  .text "(" :: (if args.isEmpty then [] else [.even Doc.step (.zero :: Doc.commas args)])
    ++ [.text ")"]

end Bindery.Rust
