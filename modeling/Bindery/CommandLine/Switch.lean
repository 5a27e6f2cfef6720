import Bindery.Text.Basic

/-!
# Reading arguments

Arguments are read from left to right. A word with two dashes is a switch by name,
one with a single dash is a row of switches by letter, and any other word is the
value of the switch before it or goes to the place that a command has for one. After
a bare `--` every word goes there.

A switch with a value is not taken in at once: it stays *pending* until the next
switch or place is reached. What is wrong with its value is therefore found only
then, and an unknown switch in between is reported first.
-/

namespace Bindery.CommandLine

/-- Why arguments are not carried out as a command. -/
inductive Usage where
  /-- Help is asked for. -/
  | help
  /-- The version is asked for. -/
  | version
  /-- There are no arguments. -/
  | nothing
  /-- There is no command. -/
  | noCommand
  | unknownCommand
  | unknownArgument
  | missingArgument
  /-- A value is missing, or a path is empty. -/
  | emptyValue
  /-- A switch without a value has one. -/
  | surplusValue
  /-- A value is refused. -/
  | badValue (reason : String)
  /-- Two switches exclude each other, or one is repeated. -/
  | conflict
deriving DecidableEq, Repr

/-- The exit code; asking for help is no mistake. -/
def Usage.exitCode : Usage → Nat
  | help | version => 0
  | _ => 2

/-! ### Words -/

/-- An argument by its looks. -/
inductive Word where
  /-- A bare `--`. -/
  | escape
  | long (name : String) (value : Option String)
  | letters (cs : List Char)
  | plain (text : String)
deriving DecidableEq, Repr

/-- Sorts an argument by its looks. A lone dash is plain. -/
def Word.ofString (s : String) : Word :=
  match s.toList with
  | ['-', '-'] => escape
  | '-' :: '-' :: rest =>
    let name := String.ofList (rest.takeWhile (· ≠ '='))
    match rest.dropWhile (· ≠ '=') with
    | _ :: value => long name (some (String.ofList value))
    | [] => long name none
  | '-' :: c :: rest => letters (c :: rest)
  | _ => plain s

/-! ### Switches -/

/-- A switch, or the place for a plain word, that changes what has been given. -/
structure Switch (α : Type) where
  name : String
  letter : Option Char := none
  takesValue : Bool := false
  /-- Takes the switch in, with its value if one was found. -/
  accept : Option String → α → Except Usage α

/-- What may be given. -/
structure Grammar (α : Type) where
  switches : List (Switch α)
  /-- The place for a plain word. -/
  place : Option (Switch α) := none

variable {α : Type}

/-- What has been read so far. -/
structure Reading (α : Type) where
  given : α
  /-- The switch or place that is not taken in yet, with its value. -/
  pending : Option (Switch α × Option String) := none
  /-- Whether the next plain word is the value of the pending switch. -/
  awaiting : Bool := false
  /-- Whether the place is filled. -/
  placed : Bool := false
  /-- Whether a bare `--` was seen. -/
  escaped : Bool := false

namespace Reading

/-- Takes in what is pending. -/
def settle (r : Reading α) : Except Usage (Reading α) :=
  match r.pending with
  | none => .ok { r with awaiting := false }
  | some (s, value) => do
    return { r with given := ← s.accept value r.given, pending := none, awaiting := false }

/-- Takes in a switch at once. -/
def take (r : Reading α) (s : Switch α) (value : Option String) : Except Usage (Reading α) := do
  let r ← r.settle
  return { r with given := ← s.accept value r.given }

/-- Leaves a switch pending until its value is read. -/
def await (r : Reading α) (s : Switch α) : Except Usage (Reading α) := do
  let r ← r.settle
  return { r with pending := some (s, none), awaiting := true }

/-- Fills the place with a plain word. -/
def fill (r : Reading α) (g : Grammar α) (text : String) : Except Usage (Reading α) :=
  match g.place with
  | some s =>
    if r.placed then .error .unknownArgument
    else do
      let r ← r.settle
      return { r with pending := some (s, some text), placed := true }
  | none => .error .unknownArgument

/-- Reads a row of letters. The rest of the row behind a letter that takes a value is
its value, an equals sign in front of it apart. -/
def row (g : Grammar α) : List Char → Reading α → Except Usage (Reading α)
  | [], r => .ok r
  | c :: rest, r =>
    match g.switches.find? (·.letter == some c) with
    | none => .error .unknownArgument
    | some s =>
      if s.takesValue then
        match rest with
        | [] => r.await s
        | '=' :: value => r.take s (some (String.ofList value))
        | value => r.take s (some (String.ofList value))
      else do row g rest (← r.take s none)

/-- Reads a switch by name. -/
def long (r : Reading α) (g : Grammar α) (name : String) (value : Option String) :
    Except Usage (Reading α) :=
  match g.switches.find? (·.name == name) with
  | none => .error .unknownArgument
  | some s =>
    match s.takesValue, value with
    | true, none => r.await s
    | false, some _ => .error .surplusValue
    | _, _ => r.take s value

/-- Reads a plain word. -/
def plain (r : Reading α) (g : Grammar α) (text : String) : Except Usage (Reading α) :=
  match r.awaiting, r.pending with
  | true, some (s, _) => .ok { r with pending := some (s, some text), awaiting := false }
  | _, _ => r.fill g text

/-- Reads one argument. -/
def step (g : Grammar α) (r : Reading α) (arg : String) : Except Usage (Reading α) :=
  if r.escaped then r.fill g arg
  else match Word.ofString arg with
  | .escape => .ok { r with escaped := true }
  | .long name value => r.long g name value
  | .letters cs => row g cs r
  | .plain text => r.plain g text

end Reading

/-- Reads all arguments. -/
def Grammar.read (g : Grammar α) (start : α) (args : List String) : Except Usage α := do
  let r ← args.foldlM (Reading.step g) { given := start }
  return (← r.settle).given

end Bindery.CommandLine
