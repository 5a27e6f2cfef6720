import Bindery.Emit.Kotlin
import Bindery.Proofs.Coverage
import Bindery.Proofs.Declared

/-!
# What the files of the Kotlin binding declare

The functions of a Kotlin file stand inside of classes and of one object, and so do the native
functions that it declares. The C file of the bridge declares functions at its outermost level.
Here both are read back from their lines:

* `functionsIn_lines`, `externalsIn_lines` and `bridgesIn_lines` — what is read off a file is what
  the emitter put in, each thing once, in order, and nothing besides;
* `WrapsIn`, `DeclaresIn` and `BridgesIn` — how a function of an operation looks in a file.

So whatever pairs the operations with what is emitted for them pairs them with declarations of the
files (`oneForEach_functionsIn`, `oneForEach_externalsIn`, `oneForEach_bridgesIn`).
-/

namespace Bindery.Kotlin

open Code

variable {ctx : Context}

/-! ### Reading the files -/

/-- **The functions of a Kotlin file**, each behind the class or the object that it stands in,
and with its body. -/
def functionsIn (file : List Line) : List (String × String × List Line) :=
  members ["class ", "object "] ["fun "] file

/-- **The native functions that a Kotlin file declares.** -/
def externalsIn (file : List Line) : List String :=
  (members ["class ", "object "] ["external fun "] file).map fun d => d.2.1

/-- **The functions of a C file that the virtual machine calls**, each with its body. -/
def bridgesIn (file : List Line) : List (String × List Line) := declarations ["Java_"] file

/-- The line that opens the class of a handle, or else the object. -/
def placeHead (ctx : Context) : Option String → String
  | some handle => "class " ++ handle ++ " internal constructor(handle: Long) : AutoCloseable \x7b"
  | none => "object " ++ ctx.pascalApi ++ " \x7b"

/-! ### One declaration -/

/-- The place of the wrapper of an operation: the class of the handle that a method takes in
front, and the object for all else. -/
def placeOf (op : Operation) : Option String :=
  if op.kind = .method then op.method.leadingHandle? else none

/-- **The wrapper of an operation in a Kotlin file**: it stands in its place, it has the name of
the operation and its parameters, and its first statement calls the native function. -/
structure WrapsIn (ctx : Context) (op : Operation) (d : String × String × List Line) : Prop where
  place : d.1 = placeHead ctx (placeOf op)
  /-- On the class of a handle the receiver stands for the first parameter. -/
  head : ∃ params ret,
    List.Forall₂ (fun p text => ∃ t, JvmType.ofText ctx p.type = .ok t ∧
        text = identifier p.name ++ ": " ++ t.kotlin)
      (if (placeOf op).isSome then op.method.parameters.drop 1 else op.method.parameters) params ∧
    JvmType.ofReturn ctx op.method = .ok ret ∧
    d.2.1 = "fun " ++ identifier op.method.name ++ "(" ++ Text.commaSep params ++ ")"
      ++ (ret.elim "" fun t => ": " ++ t.kotlin) ++ " \x7b"
  calls : ∃ before args behind rest,
    d.2.2 = { text := before ++ ((if (placeOf op).isSome then ctx.pascalApi ++ "." else "")
      ++ "native" ++ op.pascalName ++ "(" ++ Text.commaSep args ++ ")") ++ behind } :: rest

/-- **The declaration of the native function of an operation.** -/
def DeclaresIn (ctx : Context) (op : Operation) (text : String) : Prop :=
  ∃ params answer,
    List.Forall₂ (fun p text => ∃ t, JvmType.ofText ctx p.type = .ok t ∧
      text = identifier p.name ++ ": " ++ t.external) op.method.parameters params ∧
    text = "external fun native" ++ op.pascalName ++ "(" ++ Text.commaSep params ++ "): " ++ answer

/-- **The bridge of an operation in a C file**: it has the symbol of the native function and the
types of the parameters, and it calls the function of the operation. -/
structure BridgesIn (ctx : Context) (op : Operation) (d : String × List Line) : Prop where
  head : ∃ params,
    List.Forall₂ (fun p text => ∃ t, JvmType.ofText ctx p.type = .ok t ∧
      text = t.jni ++ " " ++ p.name) op.method.parameters params ∧
    d.1 = bridgeSymbol ctx ("native" ++ op.pascalName) ++ "("
      ++ Text.commaSep ("JNIEnv *env" :: "jobject thiz" :: params) ++ ") \x7b"
  calls : ∃ before args pre post,
    d.2 = pre ++ { text := before ++ (op.symbol ctx.apiName ++ "(" ++ Text.commaSep args ++ ");") }
      :: post

/-! ### Parts of the Kotlin file -/

/-- A wrapper begins like every function. -/
theorem exists_head_eq (w : Wrapper) : ∃ rest, w.head ++ " \x7b" = "fun " ++ rest := by
  simp only [Wrapper.head, String.append_assoc]
  exact ⟨_, rfl⟩

theorem outer_wrapper (w : Wrapper) : Outer w.lines :=
  (outer_block _ _).append (outer_cons rfl _)

/-- A wrapper declares its function, and no native one. -/
theorem declarations_wrapper (w : Wrapper) :
    declarations ["fun "] w.lines = [(w.head ++ " \x7b", Code.lines w.body)] ∧
      declarations ["external fun "] w.lines = [] := by
  obtain ⟨rest, hrest⟩ := exists_head_eq w
  have hblank : Outer [Line.blank] := outer_cons rfl _
  constructor
  -- A head begins with one word, which settles both kinds of declarations.
  · have hhead : begins ["fun "] (w.head ++ " \x7b") = true := by
      rw [hrest, begins_append (by decide)]
      decide
    rw [Wrapper.lines, declarations_append _ hblank, declarations_block (by decide), if_pos hhead]
    rfl
  · have hhead : begins ["external fun "] (w.head ++ " \x7b") = false := by
      rw [hrest, begins_append (by decide)]
      decide
    rw [Wrapper.lines, declarations_append _ hblank, declarations_block (by decide), hhead]
    rfl

theorem declarations_wrappers (ws : List Wrapper) :
    declarations ["fun "] (ws.flatMap Wrapper.lines) =
        ws.map (fun w => (w.head ++ " \x7b", Code.lines w.body)) ∧
      declarations ["external fun "] (ws.flatMap Wrapper.lines) = [] := by
  rw [declarations_flatMap outer_wrapper, declarations_flatMap outer_wrapper]
  simp only [(declarations_wrapper _).1, (declarations_wrapper _).2]
  exact ⟨List.map_eq_flatMap.symm, List.flatMap_eq_nil_iff.mpr fun _ _ => rfl⟩

/-- In front of a class stands its documentation, if any. -/
theorem exists_remark (ctx : Context) (c : HandleClass) :
    ∃ remark, c.lines ctx = Code.lines remark
      ++ block ("class " ++ c.handle.name ++ " internal constructor(handle: Long) : AutoCloseable")
        (Code.lines ["internal var handle: Long = handle"] ++ indent (Code.lines ["private set"])
          ++ [Line.blank] ++ c.wrappers.flatMap Wrapper.lines ++ HandleClass.closeLines ctx c.close)
      ++ [Line.blank] := by
  rw [HandleClass.lines]
  cases c.handle.description with
  | none => exact ⟨[], rfl⟩
  | some d => exact ⟨["/**", " * " ++ d, " */"], rfl⟩

theorem outer_handleClass (ctx : Context) (c : HandleClass) : Outer (c.lines ctx) := by
  obtain ⟨remark, hlines⟩ := exists_remark ctx c
  rw [hlines]
  exact ((outer_lines _).append (outer_block _ _)).append (outer_cons rfl _)

/-- Lines that are put into every class and every object. -/
def fixedTexts : List String :=
  ["internal var handle: Long = handle", "", "override fun close() \x7b",
    "override fun close() \x7b \x7d", "init \x7b", "\x7d"]

section Members

variable {inner : List String} (hfixed : ∀ text ∈ fixedTexts, begins inner text = false)

include hfixed

/-- What ends the life of a handle is no function of the binding. -/
theorem declarations_closeLines (close : Option String) :
    declarations inner (HandleClass.closeLines ctx close) = [] := by
  cases close with
  | none =>
    rw [HandleClass.closeLines, declarations_lines, List.filter_cons,
      hfixed "override fun close() \x7b \x7d" (by decide)]
    rfl
  | some callee =>
    rw [HandleClass.closeLines, declarations_block (hfixed "\x7d" (by decide)), if_neg]
    exact Bool.eq_false_iff.mp (hfixed "override fun close() \x7b" (by decide))

/-- **The members of a class** are what its wrappers declare. -/
theorem members_handleClass (ctx : Context) (c : HandleClass) :
    members ["class ", "object "] inner (c.lines ctx) =
      (declarations inner (c.wrappers.flatMap Wrapper.lines)).map
        (placeHead ctx (some c.handle.name), ·) := by
  have hblank : Outer [Line.blank] := outer_cons rfl _
  have hclose : Outer (HandleClass.closeLines ctx c.close) := by
    cases c.close <;> exact outer_cons rfl _
  have hwrappers := outer_flatMap outer_wrapper c.wrappers
  obtain ⟨remark, hlines⟩ := exists_remark ctx c
  -- Nothing else in the class is a declaration: neither the property at its front nor what closes
  -- it.
  have hfront : declarations inner (Code.lines ["internal var handle: Long = handle"]) = [] := by
    rw [declarations_lines, List.filter_cons, hfixed _ (by decide)]
    rfl
  have hempty : declarations inner [Line.blank] = [] := by
    rw [declarations, if_neg fun h => Bool.eq_false_iff.mp (hfixed "" (by decide)) h.2, declarations]
  have hhead : begins ["class ", "object "] ("class " ++ c.handle.name
      ++ " internal constructor(handle: Long) : AutoCloseable" ++ " \x7b") = true := by
    rw [String.append_assoc, String.append_assoc, begins_append (by decide)]
    decide
  have hbody : declarations inner (Code.lines ["internal var handle: Long = handle"]
        ++ indent (Code.lines ["private set"]) ++ [Line.blank] ++ c.wrappers.flatMap Wrapper.lines
        ++ HandleClass.closeLines ctx c.close) =
      declarations inner (c.wrappers.flatMap Wrapper.lines) := by
    rw [declarations_append _ hclose, declarations_append _ hwrappers, declarations_append _ hblank,
      declarations_append_indent hfront, hempty, declarations_closeLines hfixed, List.append_nil,
      List.nil_append, List.nil_append]
  have hlast : members ["class ", "object "] inner [Line.blank] = [] := members_lines [""]
  rw [hlines, members_append _ hblank, members_append _ (outer_block _ _), members_lines,
    members_block (by decide), if_pos hhead, hbody, hlast, List.append_nil, List.nil_append,
    placeHead, String.append_assoc]
  rfl

/-- **The members of the object** are what its wrappers declare, and the native functions. -/
theorem members_object (ctx : Context) (o : ApiObject) :
    members ["class ", "object "] inner (o.lines ctx) =
      (declarations inner ((o.constructors ++ o.functions).flatMap Wrapper.lines)
        ++ declarations inner (Code.lines (o.externals.map ExternalFun.text))).map
          (placeHead ctx none, ·) := by
  have hblank : Outer [Line.blank] := outer_cons rfl _
  -- The library is loaded in a block that is no declaration.
  have hempty : declarations inner [Line.blank] = [] := by
    rw [declarations, if_neg fun h => Bool.eq_false_iff.mp (hfixed "" (by decide)) h.2, declarations]
  have hinit : ¬ begins inner ("init" ++ " \x7b") = true :=
    Bool.eq_false_iff.mp (hfixed "init \x7b" (by decide))
  have hhead : begins ["class ", "object "] ("object " ++ objectName ctx ++ " \x7b") = true := by
    rw [String.append_assoc, begins_append (by decide)]
    decide
  rw [ApiObject.lines, members_block (by decide), if_pos hhead,
    declarations_append _ (outer_lines _),
    declarations_append _ (outer_flatMap outer_wrapper _),
    declarations_append _ (outer_flatMap outer_wrapper _), declarations_append _ hblank,
    declarations_block (hfixed "\x7d" (by decide)), if_neg hinit, hempty, List.append_nil,
    List.nil_append, List.flatMap_append, declarations_append _ (outer_flatMap outer_wrapper _)]
  rfl

/-- **The members of the file** are those of the classes and of the object. -/
theorem members_source (ctx : Context) (s : Source) :
    members ["class ", "object "] inner (s.lines ctx) =
      s.classes.flatMap (fun c => (declarations inner (c.wrappers.flatMap Wrapper.lines)).map
        (placeHead ctx (some c.handle.name), ·)) ++
      (declarations inner ((s.object.constructors ++ s.object.functions).flatMap Wrapper.lines)
        ++ declarations inner (Code.lines (s.object.externals.map ExternalFun.text))).map
          (placeHead ctx none, ·) := by
  have hexceptions : ∀ e, Outer (Source.exceptionLines e) := fun _ => outer_lines _
  have hrecords : ∀ d, Outer (DataClass.lines d) := fun _ => outer_lines _
  have hclasses := outer_handleClass ctx
  have hobject : Outer (s.object.lines ctx) := outer_block _ _
  -- exceptions and data classes are one line each
  have hnoException : s.errors.flatMap (fun e =>
      members ["class ", "object "] inner (Source.exceptionLines e)) = [] :=
    List.flatMap_eq_nil_iff.mpr fun e _ => members_lines _
  have hnoRecord : s.records.flatMap (fun d =>
      members ["class ", "object "] inner (DataClass.lines d)) = [] :=
    List.flatMap_eq_nil_iff.mpr fun d _ => members_lines _
  rw [Source.lines, members_append _ hobject, members_append _ (outer_flatMap hclasses _),
    members_append _ (outer_flatMap hrecords _), members_append _ (outer_flatMap hexceptions _),
    members_lines, members_flatMap hexceptions, members_flatMap hrecords, members_flatMap hclasses,
    hnoException, hnoRecord, members_object hfixed, List.nil_append, List.nil_append]
  simp only [members_handleClass hfixed]
  rfl

end Members

/-! ### The whole files -/

/-- **The functions of a Kotlin file** are the wrappers, in order. -/
theorem functionsIn_lines (ctx : Context) (s : Source) :
    functionsIn (s.lines ctx) = s.wrappers.map fun w =>
      (placeHead ctx w.1, w.2.head ++ " \x7b", Code.lines w.2.body) := by
  -- a native function is no function with a body
  have hexternals : declarations ["fun "]
      (Code.lines (s.object.externals.map ExternalFun.text)) = [] := by
    rw [declarations_lines, List.map_eq_nil_iff, List.filter_eq_nil_iff]
    intro text htext
    obtain ⟨e, -, rfl⟩ := List.mem_map.mp htext
    delta ExternalFun.text
    simp only [String.append_assoc]
    rw [begins_append (by decide)]
    decide
  rw [functionsIn, members_source (by decide), hexternals, List.append_nil, Source.wrappers,
    List.map_append, List.map_flatMap]
  simp only [(declarations_wrappers _).1, List.map_map]
  rfl

/-- **The native functions that a Kotlin file declares** are those of the object, in order. -/
theorem externalsIn_lines (ctx : Context) (s : Source) :
    externalsIn (s.lines ctx) = s.object.externals.map ExternalFun.text := by
  have hexternals : ∀ text ∈ s.object.externals.map ExternalFun.text,
      begins ["external fun "] text = true := by
    intro text htext
    obtain ⟨e, -, rfl⟩ := List.mem_map.mp htext
    delta ExternalFun.text
    simp only [String.append_assoc]
    rw [begins_append (by decide)]
    decide
  -- Classes have no external functions, so all of them are those of the object.
  have hclasses : s.classes.flatMap (fun c =>
      (declarations ["external fun "] (c.wrappers.flatMap Wrapper.lines)).map
        (placeHead ctx (some c.handle.name), ·)) = [] := by
    rw [List.flatMap_eq_nil_iff]
    intro c _
    rw [(declarations_wrappers _).2]
    rfl
  rw [externalsIn, members_source (by decide), hclasses, (declarations_wrappers _).2,
    declarations_lines, List.filter_eq_self.mpr hexternals]
  simp only [List.nil_append, List.map_map]
  rfl

/-- The lines of a bridge declare its function. -/
theorem declarations_bridge {b : Bridge} (hsymbol : ∃ rest, b.symbol = "Java_" ++ rest) :
    declarations ["Java_"] b.lines =
      [(b.symbol ++ "(" ++ Text.commaSep ("JNIEnv *env" :: "jobject thiz" ::
          b.params.map fun p => p.1 ++ " " ++ p.2) ++ ") \x7b",
        Code.lines ("(void)thiz;" :: b.setup) ++ b.callLines)] := by
  obtain ⟨rest, hrest⟩ := hsymbol
  have hblank : Outer [Line.blank] := outer_cons rfl _
  have hhead : ∀ params, begins ["Java_"] (b.symbol ++ "(" ++ params ++ ")" ++ " \x7b") = true := by
    intro params
    rw [hrest, String.append_assoc, String.append_assoc, String.append_assoc, String.append_assoc,
      begins_append (by decide)]
    decide
  -- Of the two lines at the margin only the one with the name opens a declaration.
  have hexport : begins ["Java_"] ("JNIEXPORT " ++ b.answer ++ " JNICALL") = false := by
    rw [String.append_assoc, begins_append (by decide)]
    decide
  have hempty : declarations ["Java_"] [Line.blank] = [] := rfl
  rw [Bridge.lines, declarations_append _ hblank, declarations_append _ (outer_block _ _),
    declarations_lines, List.filter_cons, hexport, declarations_block (by decide), if_pos (hhead _),
    hempty]
  simp only [String.append_assoc]
  rfl

/-- A helper of the C file is no function that the virtual machine calls. -/
theorem declarations_helper {header : String} (hheader : begins ["Java_"] (header ++ " \x7b") = false)
    (body : List Line) : declarations ["Java_"] (block header body ++ [Line.blank]) = [] := by
  rw [declarations_append _ (outer_cons rfl _), declarations_block (by decide), hheader]
  rfl

theorem declarations_toJava (ctx : Context) (h : ToJava) :
    Outer (h.lines ctx) ∧ declarations ["Java_"] (h.lines ctx) = [] := by
  refine ⟨(outer_block _ _).append (outer_cons rfl _), declarations_helper ?_ _⟩
  simp only [String.append_assoc]
  rw [begins_append (by decide)]
  decide

theorem declarations_fromJava (h : FromJava) :
    Outer h.lines ∧ declarations ["Java_"] h.lines = [] := by
  have houter : ∀ header body, Outer (block header body ++ [Line.blank]) :=
    fun _ _ => (outer_block _ _).append (outer_cons rfl _)
  rw [FromJava.lines, List.append_assoc _ (block _ _) [Line.blank]]
  refine ⟨(houter _ _).append (houter _ _), ?_⟩
  rw [declarations_append _ (houter _ _), declarations_helper, declarations_helper, List.append_nil]
  all_goals
    simp only [String.append_assoc]
    rw [begins_append (by decide)]
    decide

/-- The bridges of an interface stand under its name. -/
theorem declarations_bridges {i : Interface} {bs : List Bridge}
    (hsymbols : ∀ b ∈ bs, ∃ rest, b.symbol = "Java_" ++ rest) :
    declarations ["Java_"] (Code.lines ["/* " ++ i.name ++ " */", ""] ++ bs.flatMap Bridge.lines) =
      bs.map fun b =>
        (b.symbol ++ "(" ++ Text.commaSep ("JNIEnv *env" :: "jobject thiz" ::
            b.params.map fun p => p.1 ++ " " ++ p.2) ++ ") \x7b",
          Code.lines ("(void)thiz;" :: b.setup) ++ b.callLines) := by
  have houter : ∀ b : Bridge, Outer b.lines := fun _ => outer_cons rfl _
  have hname : begins ["Java_"] ("/* " ++ i.name ++ " */") = false := by
    rw [String.append_assoc, begins_append (by decide)]
    decide
  have hremark : declarations ["Java_"] (Code.lines ["/* " ++ i.name ++ " */", ""]) = [] := by
    rw [declarations_lines, List.filter_cons, hname]
    rfl
  rw [declarations_append _ (outer_flatMap houter bs), hremark, List.nil_append,
    declarations_flatMap houter, List.map_eq_flatMap]
  exact List.flatMap_congr fun b hb => declarations_bridge (hsymbols b hb)

/-- **The functions of a C file that the virtual machine calls** are the bridges, in order. -/
theorem bridgesIn_lines (ctx : Context) {f : BridgeFile}
    (hsymbols : ∀ b ∈ f.functions, ∃ rest, b.symbol = "Java_" ++ rest) :
    bridgesIn (f.lines ctx) = f.functions.map fun b =>
      (b.symbol ++ "(" ++ Text.commaSep ("JNIEnv *env" :: "jobject thiz" ::
          b.params.map fun p => p.1 ++ " " ++ p.2) ++ ") \x7b",
        Code.lines ("(void)thiz;" :: b.setup) ++ b.callLines) := by
  have hthrow : Outer throwHelper ∧ declarations ["Java_"] throwHelper = [] :=
    ⟨outer_cons rfl _, declarations_helper (by decide) _⟩
  have hcopy : Outer copyStringHelper ∧ declarations ["Java_"] copyStringHelper = [] :=
    ⟨outer_cons rfl _, declarations_helper (by decide) _⟩
  -- The helpers at the front are there or not, and declare nothing either way.
  have hoptional : ∀ (c : Prop) [Decidable c] (ls : List Line),
      Outer ls ∧ declarations ["Java_"] ls = [] →
        Outer (if c then ls else []) ∧ declarations ["Java_"] (if c then ls else []) = [] := by
    intro c _ ls hls
    split
    · exact hls
    · exact ⟨outer_nil, rfl⟩
  have hbuilders := outer_flatMap (fun h => (declarations_toJava ctx h).1) f.builders
  have hreaders := outer_flatMap (fun h => (declarations_fromJava h).1) f.readers
  have hinterface : ∀ p : Interface × List Bridge,
      Outer (Code.lines ["/* " ++ p.1.name ++ " */", ""] ++ p.2.flatMap Bridge.lines) :=
    fun _ => outer_cons rfl _
  have hnoBuilder : declarations ["Java_"] (f.builders.flatMap (ToJava.lines ctx)) = [] := by
    rw [declarations_flatMap fun h => (declarations_toJava ctx h).1]
    exact List.flatMap_eq_nil_iff.mpr fun h _ => (declarations_toJava ctx h).2
  have hnoReader : declarations ["Java_"] (f.readers.flatMap FromJava.lines) = [] := by
    rw [declarations_flatMap fun h => (declarations_fromJava h).1]
    exact List.flatMap_eq_nil_iff.mpr fun h _ => (declarations_fromJava h).2
  -- Only the included header has a name of the author in it, and it is named behind fixed words.
  have hincludes : declarations ["Java_"] (Code.lines ["#include <jni.h>", "#include <stdint.h>",
      "#include <stdlib.h>", "#include <string.h>", "#include \"" ++ ctx.apiName ++ ".h\"", ""]) =
        [] := by
    have hown : begins ["Java_"] ("#include \"" ++ ctx.apiName ++ ".h\"") = false := by
      rw [String.append_assoc, begins_append (by decide)]
      decide
    rw [declarations_lines, List.map_eq_nil_iff, List.filter_eq_nil_iff]
    simp only [List.forall_mem_cons, hown]
    decide
  rw [bridgesIn, BridgeFile.lines, declarations_append _ (outer_flatMap hinterface _),
    declarations_append _ hreaders, declarations_append _ hbuilders,
    declarations_append _ (hoptional _ _ hcopy).1, declarations_append _ (hoptional _ _ hthrow).1,
    hincludes, (hoptional _ _ hthrow).2, (hoptional _ _ hcopy).2, hnoBuilder, hnoReader,
    declarations_flatMap hinterface, BridgeFile.functions, List.map_flatMap]
  refine List.flatMap_congr fun p hp => declarations_bridges fun b hb => hsymbols b ?_
  exact List.mem_flatMap.mpr ⟨p, hp, hb⟩

/-! ### Operations and declarations -/

/-- The first statement of a wrapper calls its native function. -/
theorem exists_body_eq (w : Wrapper) : ∃ before behind rest,
    Code.lines w.body = { text := before ++ w.call ++ behind } :: rest := by
  obtain ⟨before, behind, rest, hbody⟩ : ∃ before behind rest,
      w.body = (before ++ w.call ++ behind) :: rest := by
    -- Whatever is done with the result, the call stands on the first line.
    rw [Wrapper.body]
    split
    · exact ⟨"", "", [], by rw [String.empty_append, String.append_empty]⟩
    · exact ⟨"return ", "", [], by rw [String.append_empty]⟩
    · exact ⟨_, ")", [], rfl⟩
    · exact ⟨"val rc = ", "", _, by rw [String.append_empty]⟩
    · exact ⟨"val result = ", "", _, by rw [String.append_empty]⟩
  exact ⟨before, behind, Code.lines rest, by rw [hbody]; rfl⟩

/-- **What is printed for the wrapper of an operation** is a wrapper of it. -/
theorem wrapsIn_of_wraps {op : Operation} {w : Option String × Wrapper} (h : Wraps ctx op w) :
    WrapsIn ctx op (placeHead ctx w.1, w.2.head ++ " \x7b", Code.lines w.2.body) := by
  obtain ⟨place, w⟩ := w
  obtain rfl : place = placeOf op := h.place
  obtain ⟨before, behind, rest, hbody⟩ := exists_body_eq w
  obtain ⟨params, hparams, hw⟩ := bind_eq_ok_iff.mp h.made
  obtain ⟨ret, hret, hw⟩ := bind_eq_ok_iff.mp hw
  obtain ⟨outcome, -, hw⟩ := bind_eq_ok_iff.mp hw
  have hmade : _ = w := pure_eq_ok_iff.mp hw
  have hname : w.name = identifier op.method.name := by rw [← hmade]
  have hws : w.params = params.map (·.1) := by rw [← hmade]
  have hanswer : w.answer = ret.map (·.kotlin) := by rw [← hmade]
  refine ⟨rfl, ⟨w.params.map fun p => p.1 ++ ": " ++ p.2, ret, ?_, hret, ?_⟩,
    before, w.args, behind, rest, ?_⟩
  -- The head: the parameters one by one, and what is answered.
  · rw [hws, List.map_map, List.forall₂_map_right_iff]
    refine (mapM_eq_ok_iff.mp hparams).imp fun p q hq => ?_
    obtain ⟨t, ht, hq⟩ := bind_eq_ok_iff.mp hq
    obtain rfl := pure_eq_ok_iff.mp hq
    exact ⟨t, ht, by rw [Function.comp_apply]⟩
  · rw [Wrapper.head, hname, hanswer]
    cases ret <;> rfl
  -- The call goes by the object from within a class, and directly from within the object.
  · rw [hbody, Wrapper.call, h.callee]
    dsimp only
    split
    · simp only [objectName, bridgeName, String.append_assoc]
    · simp only [bridgeName, String.empty_append, String.append_assoc]

/-- **One function in the Kotlin file for each constructor and each method.** -/
theorem oneForEach_functionsIn (valid : Validate.Conforms ctx.api (some ctx.types)) {s : Source}
    (h : Source.ofContext ctx = .ok s) :
    OneForEach (WrapsIn ctx) ctx.api.written (functionsIn (s.lines ctx)) := by
  obtain ⟨order, hperm, hwraps⟩ := oneForEach_wrappers valid h
  rw [functionsIn_lines]
  exact ⟨order, hperm, List.forall₂_map_right_iff.mpr (hwraps.imp fun _ _ => wrapsIn_of_wraps)⟩

/-- **One native function in the Kotlin file for each operation**, in order. -/
theorem forall₂_externalsIn {s : Source} (h : Source.ofContext ctx = .ok s) :
    List.Forall₂ (DeclaresIn ctx) ctx.api.operations (externalsIn (s.lines ctx)) := by
  rw [externalsIn_lines, List.forall₂_map_right_iff]
  refine (forall₂_externals h).imp fun op e he => ?_
  obtain ⟨hname, hparams, -⟩ := exists_of_external he.made
  refine ⟨e.params.map fun p => p.1 ++ ": " ++ p.2, e.answer, ?_, ?_⟩
  · refine List.forall₂_map_right_iff.mpr (hparams.imp fun p q hq => ?_)
    obtain ⟨t, ht, rfl⟩ := hq
    exact ⟨t, ht, by with_reducible rfl⟩
  · delta ExternalFun.text
    rw [hname, bridgeName, ← String.append_assoc]
    rfl

/-- A bridge calls its function in one of its statements. -/
theorem exists_call_line (b : Bridge) : ∃ before pre post,
    b.callLines = pre ++ { text := before ++ b.call } :: post := by
  rw [Bridge.callLines]
  split
  · exact ⟨"", [], _, by rw [String.empty_append]; rfl⟩
  · exact ⟨"int32_t rc = ", [], _, rfl⟩
  · exact ⟨_, [], _, rfl⟩
  · exact ⟨_, [], _, rfl⟩
  · exact ⟨"int32_t rc = ", [_], _, rfl⟩
  · exact ⟨"int32_t rc = ", [_], _, rfl⟩

/-- The symbols of native functions begin alike. -/
theorem exists_bridgeSymbol_eq (ctx : Context) (name : String) :
    ∃ rest, bridgeSymbol ctx name = "Java_" ++ rest := by
  rw [bridgeSymbol, Naming.jniSymbol]
  cases h : ((Text.cut '.' (package ctx)).filter (· != "") ++ [objectName ctx, name]) with
  | nil => simp at h
  | cons segment segments =>
    refine ⟨Naming.jniEscape segment ++ String.join (segments.map fun s => "_" ++ Naming.jniEscape s),
      ?_⟩
    rw [List.map_cons, String.join_cons, String.join_cons, String.append_assoc, ← String.append_assoc]
    rfl

theorem exists_symbol_eq {f : BridgeFile} (h : BridgeFile.ofContext ctx = .ok f) :
    ∀ b ∈ f.functions, ∃ rest, b.symbol = "Java_" ++ rest := by
  intro b hb
  obtain ⟨op, -, hop⟩ := exists_mem_of_forall₂ (forall₂_functions h).flip hb
  rw [hop.symbol]
  exact exists_bridgeSymbol_eq ctx (bridgeName op)

/-- **One bridge in the C file for each operation**, in order. -/
theorem forall₂_bridgesIn {f : BridgeFile} (h : BridgeFile.ofContext ctx = .ok f) :
    List.Forall₂ (BridgesIn ctx) ctx.api.operations (bridgesIn (f.lines ctx)) := by
  rw [bridgesIn_lines ctx (exists_symbol_eq h), List.forall₂_map_right_iff]
  refine (forall₂_functions h).imp fun op b hb => ?_
  obtain ⟨hsymbol, hparams, -⟩ := exists_of_bridge hb.made
  obtain ⟨before, pre, post, hcall⟩ := exists_call_line b
  -- The head of the function, and the one line of it that calls.
  refine ⟨⟨b.params.map fun p => p.1 ++ " " ++ p.2, ?_, ?_⟩, before, b.args.map BridgeArg.c,
    Code.lines ("(void)thiz;" :: b.setup) ++ pre, post, ?_⟩
  · refine List.forall₂_map_right_iff.mpr (hparams.imp fun p q hq => ?_)
    obtain ⟨t, ht, rfl⟩ := hq
    exact ⟨t, ht, rfl⟩
  · rw [hsymbol]
    rfl
  · rw [hcall, Bridge.call, hb.callee, List.append_assoc]

end Bindery.Kotlin
