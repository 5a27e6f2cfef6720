import Bindery.Proofs.Coverage
import Bindery.Proofs.Declared

/-!
# What the Swift file declares

All functions of the Swift binding stand inside of the class of a handle or of the name space,
and here they are read back from the lines of the file: each of them once, in order, and nothing
besides (`functionsIn_lines`). A function of an operation stands in the class that it belongs to,
and its body is one call of the function of the operation, inside of the scopes that lend the
addresses and followed by what is done with the result (`CallsOnly`). So each constructor and each
method has one function in the file (`oneForEach_functionsIn`).
-/

namespace Bindery.Swift

open Code

variable {ctx : Context}

/-! ### Reading the file -/

/-- **The functions of a Swift file**, each behind the class or the name space that it stands in,
and with its body. -/
def functionsIn (file : List Line) : List (String × String × List Line) :=
  members ["public final class ", "public enum "] ["public "] file

/-- The line that opens the class of a handle, or else the name space. -/
def placeHead (ctx : Context) : Option String → String
  | some handle => "public final class " ++ handle ++ " \x7b"
  | none => "public enum " ++ ctx.pascalApi ++ " \x7b"

theorem placeHead_some (ctx : Context) (handle : String) :
    placeHead ctx (some handle) = "public final class " ++ handle ++ " \x7b" := rfl

theorem placeHead_none (ctx : Context) :
    placeHead ctx none = "public enum " ++ ctx.pascalApi ++ " \x7b" := rfl

/-! ### One function -/

/-- **A scope that lends an address**: of a text, of the elements of a list, or of a record. -/
def IsScope (text : String) : Prop :=
  ∃ name pointer, text ∈ [name ++ ".withCString \x7b " ++ pointer ++ " in",
    name ++ ".withUnsafeMutableBufferPointer \x7b " ++ pointer ++ " in",
    name ++ ".withUnsafeBufferPointer \x7b " ++ pointer ++ " in",
    "withUnsafePointer(to: " ++ name ++ ") \x7b " ++ pointer ++ " in"]

/-- The statement that throws an error unless a status is zero. -/
def guardText (condition error : String) : List Line :=
  [{ text := "guard " ++ condition ++ " else \x7b" },
    { depth := 1, text := "throw " ++ error ++ ".fromCode(code)" }, { text := "\x7d" }]

/-- **The body is one call of a function of C**: what is around it are scopes, and what is behind
it is a test of the status and the answer. -/
inductive CallsOnly (symbol : String) : List Line → Prop
  | done (args : List String) :
    CallsOnly symbol [{ text := symbol ++ "(" ++ Text.commaSep args ++ ")" }]
  | value (args : List String) :
    CallsOnly symbol [{ text := "return " ++ (symbol ++ "(" ++ Text.commaSep args ++ ")") }]
  | handle (args : List String) (name : String) :
    CallsOnly symbol [{ text := "return " ++ name ++ "(handle: "
      ++ (symbol ++ "(" ++ Text.commaSep args ++ ")") ++ "!)" }]
  | status (args : List String) (error : String) :
    CallsOnly symbol ({ text := "let code = " ++ (symbol ++ "(" ++ Text.commaSep args ++ ")") }
      :: guardText "code == 0" error)
  | statusHandle (args : List String) (error name : String) :
    CallsOnly symbol ([{ text := "var result: OpaquePointer? = nil" },
        { text := "let code = " ++ (symbol ++ "(" ++ Text.commaSep args ++ ")") }]
      ++ guardText "code == 0, let ptr = result" error
      ++ [{ text := "return " ++ name ++ "(handle: ptr)" }])
  | statusValue (args : List String) (error type zero : String) :
    CallsOnly symbol ([{ text := "var result: " ++ type ++ " = " ++ zero },
        { text := "let code = " ++ (symbol ++ "(" ++ Text.commaSep args ++ ")") }]
      ++ guardText "code == 0" error ++ [{ text := "return result" }])
  | scope (lead text : String) (inner : List Line) (lends : IsScope text)
    (words : lead ∈ ["", "return ", "try ", "return try "]) (call : CallsOnly symbol inner) :
    CallsOnly symbol ({ text := lead ++ text } :: indent inner ++ [{ text := "\x7d" }])

/-- **The function of an operation in the Swift file**: it stands in the class that the operation
belongs to, it has the name of the operation, and it calls the function of the operation and no
other. -/
structure ExposesIn (ctx : Context) (op : Operation) (d : String × String × List Line) : Prop where
  place : d.1 = placeHead ctx (home op)
  /-- Only a method on a handle has a receiver, and there it stands for the first parameter. -/
  head : ∃ params effects,
    List.Forall₂ (fun p text => ∃ type, text = identifier p.name ++ ": " ++ type)
      (if op.kind = .constructor ∨ home op = none then op.method.parameters
        else op.method.parameters.drop 1) params ∧
    d.2.1 = "public " ++ (if op.kind = .constructor ∨ home op = none then "static " else "")
      ++ "func " ++ identifier op.method.name ++ "(" ++ Text.commaSep params ++ ")" ++ effects
      ++ " \x7b"
  calls : CallsOnly (op.symbol ctx.apiName) d.2.2

theorem callsOnly_callLines (f : Function) : CallsOnly f.symbol f.callLines := by
  rw [Function.callLines]
  split
  · exact .done _
  · next h _ _ => exact .handle _ h
  · exact .value _
  · exact .status _ _
  · exact .statusHandle _ _ _
  · exact .statusValue _ _ _ _

/-- The scopes are put around the call one by one. -/
theorem callsOnly_within (f : Function) {scopes : List String} (hscopes : ∀ s ∈ scopes, IsScope s)
    (outermost : Bool) : CallsOnly f.symbol (f.within outermost f.callLines scopes) := by
  induction scopes generalizing outermost with
  | nil => exact callsOnly_callLines f
  | cons s rest ih =>
    obtain ⟨hs, hrest⟩ := List.forall_mem_cons.mp hscopes
    refine .scope (f.lead outermost) s _ hs ?_ (ih hrest false)
    have hlead : ∀ answers throws : Bool, (if answers then "return " else "") ++
        (if throws then "try " else "") ∈ ["", "return ", "try ", "return try "] := by decide
    exact hlead _ _

/-- The scopes of a parameter lend addresses. -/
theorem isScope_of_lower {p : Parameter} {l : Lowered} (h : lower ctx p = .ok l) :
    ∀ s ∈ l.scopes, IsScope s := by
  have hlends := fun text hmem =>
    (⟨identifier p.name, Naming.camelCase p.name ++ "Ptr", hmem⟩ : IsScope text)
  obtain ⟨form, -, h⟩ := bind_eq_ok_iff.mp h
  -- Texts, buffers and records lend a pointer for the time of the call, and nothing else has a
  -- scope.
  cases form with
  | string =>
    obtain rfl := pure_eq_ok_iff.mp h
    exact List.forall_mem_singleton.mpr (hlends _ (by simp))
  | buffer element =>
    dsimp only at h
    split at h
    · obtain rfl := pure_eq_ok_iff.mp h
      exact List.forall_mem_singleton.mpr (hlends _ (by simp))
    · obtain rfl := pure_eq_ok_iff.mp h
      exact List.forall_mem_singleton.mpr (hlends _ (by simp))
  | handle name | primitive q =>
    obtain rfl := pure_eq_ok_iff.mp h
    exact List.forall_mem_nil _
  | qualified q =>
    obtain ⟨d, -, h⟩ := bind_eq_ok_iff.mp h
    split at h
    · obtain rfl := pure_eq_ok_iff.mp h
      exact List.forall_mem_nil _
    · obtain rfl := pure_eq_ok_iff.mp h
      exact List.forall_mem_singleton.mpr (hlends _ (by simp))
    · obtain rfl := pure_eq_ok_iff.mp h
      exact List.forall_mem_nil _

/-- A parameter keeps its name. -/
theorem name_of_lower {p : Parameter} {l : Lowered} (h : lower ctx p = .ok l) :
    l.decl.1 = identifier p.name := by
  obtain ⟨form, -, h⟩ := bind_eq_ok_iff.mp h
  cases form with
  | string | handle _ | primitive _ => rw [← pure_eq_ok_iff.mp h]
  | buffer element =>
    dsimp only at h
    split at h <;> rw [← pure_eq_ok_iff.mp h]
  | qualified q =>
    obtain ⟨d, -, h⟩ := bind_eq_ok_iff.mp h
    split at h <;> rw [← pure_eq_ok_iff.mp h]

/-! ### Parts of the file -/

/-- Behind the parameters stand the effects and the result. -/
theorem exists_effects (f : Function) : ∃ effects,
    f.head = "public " ++ (if f.isStatic then "static " else "") ++ "func " ++ f.name ++ "("
      ++ Text.commaSep (f.params.map fun p => p.1 ++ ": " ++ p.2) ++ ")" ++ effects := by
  delta Function.head
  exact ⟨_, String.append_assoc⟩

/-- A function begins like everything public. -/
theorem exists_head_eq (f : Function) : ∃ rest, f.head ++ " \x7b" = "public " ++ rest := by
  delta Function.head
  simp only [String.append_assoc]
  exact ⟨_, rfl⟩

theorem outer_function (f : Function) : Outer f.lines :=
  (outer_lines _).append (outer_block _ _)

/-- A function declares itself. -/
theorem declarations_function (f : Function) :
    declarations ["public "] f.lines =
      [(f.head ++ " \x7b", f.within true f.callLines f.scopes)] := by
  obtain ⟨rest, hrest⟩ := exists_head_eq f
  have hhead : begins ["public "] (f.head ++ " \x7b") = true := by
    rw [hrest, begins_append (by decide)]
    decide
  -- The remark before a function is no declaration.
  have hremark : declarations ["public "]
      (Code.lines (f.description.toList.map fun d => "/// " ++ d)) = [] := by
    rw [declarations_lines, List.map_eq_nil_iff, List.filter_eq_nil_iff]
    intro text htext
    obtain ⟨d, -, rfl⟩ := List.mem_map.mp htext
    rw [begins_append (by decide)]
    decide
  rw [Function.lines, declarations_append _ (outer_block _ _), hremark,
    declarations_block (by decide), if_pos hhead, List.nil_append]

/-- Functions with an empty line before each of them. -/
theorem declarations_functions (fs : List Function) :
    declarations ["public "] (fs.flatMap fun f => [Line.blank] ++ f.lines) =
      fs.map fun f => (f.head ++ " \x7b", f.within true f.callLines f.scopes) := by
  have houter : ∀ f : Function, Outer ([Line.blank] ++ f.lines) := fun _ => outer_cons rfl _
  have hempty : declarations ["public "] [Line.blank] = [] := rfl
  rw [declarations_flatMap houter, List.map_eq_flatMap]
  refine List.flatMap_congr fun f _ => ?_
  rw [declarations_append _ (outer_function f), hempty, declarations_function, List.nil_append]

/-- An error enumeration has no functions of its own that are public. -/
theorem members_errorEnum (e : ErrorEnum) :
    members ["public final class ", "public enum "] ["public "] e.lines = [] := by
  have hcases : declarations ["public "]
      (Code.lines (e.cases.map fun c => "case " ++ c.1 ++ " = " ++ toString c.2)) = [] := by
    rw [declarations_lines, List.map_eq_nil_iff, List.filter_eq_nil_iff]
    intro text htext
    obtain ⟨c, -, rfl⟩ := List.mem_map.mp htext
    rw [String.append_assoc, String.append_assoc, begins_append (by decide)]
    decide
  -- The one function in the enum is indented and starts with another word.
  have hstatic : begins ["public "] ("static func fromCode(_ code: Int32) -> " ++ e.name ++ " \x7b") =
      false := by
    rw [String.append_assoc, begins_append (by decide)]
    decide
  have hempty : declarations ["public "] [Line.blank] = [] := rfl
  rw [ErrorEnum.lines, members_append _ (outer_cons rfl _), members_block (by decide),
    declarations_append _ (outer_block _ _), declarations_append _ (outer_cons rfl _), hcases,
    hempty, declarations_block (by decide), hstatic]
  simp only [Bool.false_eq_true, if_false, List.append_nil, List.map_nil, ite_self]
  exact members_lines [""]

theorem outer_handleClass (c : HandleClass) : Outer c.lines :=
  ((outer_lines _).append (outer_block _ _)).append (outer_cons rfl _)

/-- **The members of a class** are its functions. -/
theorem members_handleClass (ctx : Context) (c : HandleClass) :
    members ["public final class ", "public enum "] ["public "] c.lines =
      c.functions.map fun f => (placeHead ctx (some c.handle.name), f.head ++ " \x7b",
        f.within true f.callLines f.scopes) := by
  have hfunctions : Outer (c.functions.flatMap fun f => [Line.blank] ++ f.lines) :=
    outer_flatMap (fun _ => outer_cons rfl _) _
  -- what ends the life of a handle is not public
  obtain ⟨ending, hending, houter, hlines⟩ : ∃ ending, declarations ["public "] ending = [] ∧
      Outer ending ∧ c.lines = Code.lines (c.handle.description.toList.map fun d => "/// " ++ d)
        ++ block ("public final class " ++ c.handle.name)
          (Code.lines ["let handle: OpaquePointer", ""]
            ++ block "init(handle: OpaquePointer)" (Code.lines ["self.handle = handle"])
            ++ ending ++ c.functions.flatMap fun f => [Line.blank] ++ f.lines)
        ++ [Line.blank] := by
    rw [HandleClass.lines]
    cases c.destructor with
    | none => exact ⟨[], rfl, outer_nil, rfl⟩
    | some symbol =>
      refine ⟨_, ?_, ?_, rfl⟩
      · rw [declarations_append _ (outer_block _ _), declarations_block (by decide), if_neg (by decide)]
        rfl
      · exact outer_cons rfl _
  have hhead : begins ["public final class ", "public enum "]
      ("public final class " ++ c.handle.name ++ " \x7b") = true := by
    rw [String.append_assoc, begins_append (by decide)]
    decide
  have hfront : declarations ["public "] (Code.lines ["let handle: OpaquePointer", ""]) = [] := by
    decide
  have hbody : declarations ["public "] (Code.lines ["let handle: OpaquePointer", ""]
        ++ block "init(handle: OpaquePointer)" (Code.lines ["self.handle = handle"]) ++ ending
        ++ c.functions.flatMap fun f => [Line.blank] ++ f.lines) =
      c.functions.map fun f => (f.head ++ " \x7b", f.within true f.callLines f.scopes) := by
    rw [declarations_append _ hfunctions, declarations_append _ houter,
      declarations_append _ (outer_block _ _), hfront, declarations_block (by decide),
      if_neg (by decide), hending, declarations_functions]
    rfl
  have hlast : members ["public final class ", "public enum "] ["public "] [Line.blank] = [] :=
    members_lines [""]
  rw [hlines, members_append _ (outer_cons rfl _), members_append _ (outer_block _ _), members_lines,
    members_block (by decide), if_pos hhead, hbody, hlast, List.append_nil, List.nil_append,
    List.map_map]
  rfl

/-- **The members of the name space** are its functions. -/
theorem members_namespace (ctx : Context) (fs : List Function) :
    members ["public final class ", "public enum "] ["public "] (namespaceLines ctx.pascalApi fs) =
      fs.map fun f => (placeHead ctx none, f.head ++ " \x7b",
        f.within true f.callLines f.scopes) := by
  -- An enum without functions is not printed, so the first one is set apart.
  cases fs with
  | nil => rfl
  | cons f rest =>
    have hrest : Outer (rest.flatMap fun g => [Line.blank] ++ g.lines) :=
      outer_flatMap (fun _ => outer_cons rfl _) _
    have hhead : begins ["public final class ", "public enum "]
        ("public enum " ++ ctx.pascalApi ++ " \x7b") = true := by
      rw [String.append_assoc, begins_append (by decide)]
      decide
    have hlast : members ["public final class ", "public enum "] ["public "] [Line.blank] = [] :=
      members_lines [""]
    rw [namespaceLines, members_append _ (outer_cons rfl _), members_block (by decide),
      if_pos hhead, declarations_append _ hrest, declarations_function, declarations_functions,
      hlast, List.append_nil, List.singleton_append, List.map_cons, List.map_cons, List.map_map]
    rfl

/-- **The functions of a Swift file** are those that were made, in order. -/
theorem functionsIn_lines (ctx : Context) (s : Source) :
    functionsIn (s.lines ctx) = s.functions.map fun f =>
      (placeHead ctx f.1, f.2.head ++ " \x7b", f.2.within true f.2.callLines f.2.scopes) := by
  have herrors : ∀ e, Outer (ErrorEnum.lines e) := fun _ => outer_cons rfl _
  have hnamespace : Outer (namespaceLines ctx.pascalApi s.free) := by
    cases s.free with
    | nil => exact outer_nil
    | cons f rest => exact outer_cons rfl _
  -- The enums of errors have no functions of the description.
  have hnoError : s.errors.flatMap (fun e =>
      members ["public final class ", "public enum "] ["public "] (ErrorEnum.lines e)) = [] :=
    List.flatMap_eq_nil_iff.mpr fun e _ => members_errorEnum e
  rw [functionsIn, Source.lines, members_append _ hnamespace,
    members_append _ (outer_flatMap outer_handleClass _),
    members_append _ (outer_flatMap herrors _), members_lines, members_flatMap herrors, hnoError,
    members_flatMap outer_handleClass, members_namespace, Source.functions, List.map_append,
    List.map_flatMap, List.nil_append, List.nil_append, List.map_map]
  simp only [members_handleClass ctx, List.map_map]
  rfl

/-- **What is printed for the function of an operation** exposes it. -/
theorem exposesIn_of_exposes {op : Operation} {f : Option String × Function}
    (h : Exposes ctx op f) : ExposesIn ctx op (placeHead ctx f.1, f.2.head ++ " \x7b",
      f.2.within true f.2.callLines f.2.scopes) := by
  obtain ⟨place, f⟩ := f
  obtain rfl : place = home op := h.place
  obtain ⟨ls, hls, hf⟩ := bind_eq_ok_iff.mp h.made
  have hparts : f.isStatic = (decide (op.kind = .constructor) || (home op).isNone) ∧
      f.name = identifier op.method.name ∧ f.params = ls.map (·.decl) ∧
      f.scopes = ls.flatMap (·.scopes) := by
    -- Both ways to make the function give it one head and one list of scopes.
    dsimp only at hf
    split at hf
    · rw [← pure_eq_ok_iff.mp hf]
      simp only [and_self]
    · obtain ⟨result, -, hf⟩ := bind_eq_ok_iff.mp hf
      rw [← pure_eq_ok_iff.mp hf]
      simp only [and_self]
  obtain ⟨hstatic, hname, hparams, hscopes⟩ := hparts
  obtain ⟨effects, hhead⟩ := exists_effects f
  have hcondition : (decide (op.kind = .constructor) || (home op).isNone) = true ↔
      op.kind = .constructor ∨ home op = none := by
    simp
  have hlowered := mapM_eq_ok_iff.mp hls
  refine ⟨rfl, ⟨f.params.map fun p => p.1 ++ ": " ++ p.2, effects, ?_, ?_⟩, ?_⟩
  · rw [hparams, List.map_map, List.forall₂_map_right_iff]
    rw [if_congr hcondition rfl rfl] at hlowered
    refine hlowered.imp fun p l hl => ⟨l.decl.2, ?_⟩
    rw [← name_of_lower hl]
    rfl
  · change f.head ++ " \x7b" = _
    rw [hhead, hstatic, hname, if_congr hcondition rfl rfl]
  -- The scopes around the call come from the parameters, and each of them only lends.
  · rw [← h.symbol, hscopes]
    refine callsOnly_within f (fun s hs => ?_) true
    obtain ⟨l, hl, hs⟩ := List.mem_flatMap.mp hs
    obtain ⟨p, -, hlower⟩ := exists_mem_of_forall₂ hlowered.flip hl
    exact isScope_of_lower hlower s hs

/-- **One function in the Swift file for each constructor and each method.** -/
theorem oneForEach_functionsIn (valid : Validate.Conforms ctx.api (some ctx.types)) {s : Source}
    (h : Source.ofContext ctx = .ok s) :
    OneForEach (ExposesIn ctx) ctx.api.written (functionsIn (s.lines ctx)) := by
  obtain ⟨order, hperm, hexposes⟩ := oneForEach_functions valid h
  rw [functionsIn_lines]
  exact ⟨order, hperm, List.forall₂_map_right_iff.mpr (hexposes.imp fun _ _ => exposesIn_of_exposes)⟩

end Bindery.Swift
