import Bindery.Text.Basic

/-!
# Paths

A path is a text with slashes. It may begin at the root, with a slash, or say
that it begins at the current directory, with a dot; after that come segments
between slashes. Empty segments and single dots among them are void: they do not
count as components. Joining and taking the parent keep the text of a path as it
is written, void segments in the middle included.
-/

namespace Bindery.Path

open Text

/-- Where a path begins. -/
inductive Front where
  | root
  /-- A dot at the very beginning. -/
  | current
  | none
deriving DecidableEq, Repr

/-- The text of the beginning. -/
def Front.text : Front → String
  | root => "/"
  | current => "."
  | none => ""

/-- A path taken apart. -/
structure Parts where
  front : Front
  /-- The texts between slashes after the beginning. -/
  segments : List String
deriving DecidableEq, Repr

/-- Takes a path apart. -/
def parts (p : String) : Parts :=
  match p.toList with
  | '/' :: rest => ⟨.root, (cutList '/' rest).map String.ofList⟩
  | ['.'] => ⟨.current, []⟩
  | '.' :: '/' :: rest => ⟨.current, "" :: (cutList '/' rest).map String.ofList⟩
  | cs => ⟨.none, (cutList '/' cs).map String.ofList⟩

/-- The path with these parts. -/
def Parts.text (q : Parts) : String := q.front.text ++ "/".intercalate q.segments

/-- A segment that is no component. -/
def isVoid (segment : String) : Bool := segment = "" || segment = "."

/-- The names between slashes, `..` among them. -/
def names (p : String) : List String :=
  (parts p).segments.filter fun s => !isVoid s

/-- Whether a path starts at the root. -/
def isAbsolute (p : String) : Bool := (parts p).front = .root

/-- A path below another. An absolute path replaces what it is joined to. -/
def join (base p : String) : String :=
  if isAbsolute p then p
  else if base = "" || (dropSuffix? "/" base).isSome then base ++ p
  else base ++ "/" ++ p

/-- The last name of a path, unless that is `..`. -/
def fileName? (p : String) : Option String :=
  (names p).getLast?.filter (· ≠ "..")

/-- The path without its last component. The root and the empty path have no
parent; that of a lone dot is the empty path. -/
def parent? (p : String) : Option String :=
  let q := parts p
  match q.segments.reverse.dropWhile isVoid with
  | _ :: before =>
    some ({ q with segments := (before.dropWhile isVoid).reverse } : Parts).text
  | [] => if q.front = .current then some "" else none

/-- At most so many of a path, its parent, the parent of that, and so on. -/
def ancestorsFrom : Nat → String → List String
  | 0, _ => []
  | fuel + 1, p =>
    match parent? p with
    | none => []
    | some q => p :: ancestorsFrom fuel q

/-- A path, its parent, the parent of that, and so on, as far as they have parents
themselves: neither the root nor the empty path is among them. -/
def ancestors (p : String) : List String :=
  ancestorsFrom ((parts p).segments.length + 1) p

/-- Whether a path ends in a slash. -/
def endsInSlash (p : String) : Bool := p.toList.getLast? == some '/'

/-- A path without the slashes at its end; the root stays as it is. -/
def withoutSlashes (p : String) : String :=
  match (p.toList.reverse.dropWhile (· = '/')).reverse with
  | [] => p
  | cs => String.ofList cs

/-- Whether the last thing that a path says is a dot. -/
def endsInDot (p : String) : Bool :=
  let q := parts p
  match q.segments.reverse.dropWhile (· = "") with
  | s :: _ => s = "."
  | [] => q.front = .current

/-- Whether a path goes up somewhere. -/
def hasTraversal (p : String) : Bool := (names p).contains ".."

end Bindery.Path
