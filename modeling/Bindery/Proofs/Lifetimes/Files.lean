import Bindery.Emit.Header
import Bindery.Proofs.Coverage.Files
import Bindery.Proofs.Lifetimes
import Bindery.Proofs.Lowering

/-!
# How the files end the lives of handles

Each binding has a class for each handle, and the class ends the life of the handle: JavaScript
when it is disposed of, Swift at the end of an object's life, Kotlin when it is closed. What they do
then is read back from the files, class by class:

* `JavaScript.disposalsIn_lines`, `Swift.endingsIn_lines` and `Kotlin.closesIn_lines` — every class
  does it in one place, where it calls the destructor if there is one;
* `Kotlin.destructionBridge_mem` — in Kotlin it calls a native function, and the bridge of the
  destructor stands behind it;
* `handle_ends_alike` — so all of them end the life of a handle with the function of one operation,
  the destructor on the first interface that constructs the handle.

That the native function of a destructor has one bridge is more than validation asks for. Bridges
are named in Pascal case, in which a method may be spelled like the destructor, and then the C file
defines the bridge twice (`ambiguous_close_deck`).
-/

namespace Bindery

open Code Validate

/-! ### JavaScript -/

namespace JavaScript

variable {ctx : Context}

/-- **What the classes of a module do when they are disposed of**, each behind its class. -/
def disposalsIn (file : List Line) : List (String × String × List Line) :=
  members ["class "] ["dispose()"] file

/-- Code without classes. -/
def NoClass (ls : List Line) : Prop := Outer ls ∧ members ["class "] ["dispose()"] ls = []

theorem NoClass.append {a b : List Line} (ha : NoClass a) (hb : NoClass b) : NoClass (a ++ b) :=
  ⟨ha.1.append hb.1, by rw [members_append _ hb.1, ha.2, hb.2, List.append_nil]⟩

theorem noClass_nil : NoClass [] := ⟨outer_nil, rfl⟩

theorem noClass_lines (texts : List String) : NoClass (Code.lines texts) :=
  ⟨outer_lines texts, members_lines texts⟩

theorem noClass_comment (text : String) : NoClass [Code.comment text] :=
  noClass_lines ["// " ++ text]

theorem noClass_flatMap {α : Type} {f : α → List Line} (h : ∀ x, NoClass (f x)) (xs : List α) :
    NoClass (xs.flatMap f) := by
  refine ⟨outer_flatMap (fun x => (h x).1) xs, ?_⟩
  rw [members_flatMap fun x => (h x).1]
  exact List.flatMap_eq_nil_iff.mpr fun x _ => (h x).2

/-- A function is no class. -/
theorem noClass_block {header : String} (h : begins ["class "] (header ++ " \x7b") = false)
    (body : List Line) : NoClass (block header body) := by
  refine ⟨outer_block _ _, ?_⟩
  rw [members_block (by decide), h]
  rfl

/-- What is done when a handle is disposed of: its destructor is called, if it has one, and the
address is forgotten, so that this happens once. -/
def disposeText (symbol : Option String) : List Line :=
  [{ text := "if (this.#ptr !== 0) \x7b" }]
    ++ (symbol.toList.map fun s => { depth := 1, text := "_wasm.exports." ++ s ++ "(this.#ptr);" })
    ++ [{ depth := 1, text := "this.#ptr = 0;" }, { text := "\x7d" }]

theorem outer_handleClass (c : HandleClass) : Outer c.lines :=
  ((outer_lines _).append (outer_block _ _)).append (outer_cons rfl _)

/-- **A class disposes of its handle** in one function. -/
theorem members_handleClass (c : HandleClass) :
    members ["class "] ["dispose()"] c.lines =
      [("class " ++ c.handle.name ++ " \x7b", "dispose() \x7b", disposeText c.destructor)] := by
  have hhead : begins ["class "] ("class " ++ c.handle.name ++ " \x7b") = true := by
    rw [String.append_assoc, begins_append (by decide)]
    decide
  have hblank : declarations ["dispose()"] [Line.blank] = [] := rfl
  have hlast : members ["class "] ["dispose()"] [Line.blank] = [] := members_lines [""]
  -- With a destructor the body calls it, and without one it only forgets the pointer.
  have hdispose : block "if (this.#ptr !== 0)"
      (Code.lines (c.disposal?.toList.map fun call => call.text ++ ";")
        ++ Code.lines ["this.#ptr = 0;"]) = disposeText c.destructor := by
    rw [HandleClass.disposal?]
    cases c.destructor with
    | none => rfl
    | some symbol =>
      have htext : (⟨symbol, ["this.#ptr"]⟩ : ExportCall).text ++ ";" =
          "_wasm.exports." ++ symbol ++ "(this.#ptr);" := by
        delta ExportCall.text ExportCall.function
        simp only [String.append_assoc]
        rfl
      simp only [Option.map_some, Option.toList_some, List.map_cons, List.map_nil, htext]
      rfl
  -- Of the five members that open a body one is the disposal.
  have hbody : declarations ["dispose()"] (Code.lines ["#ptr;", "", "/** @internal */"]
      ++ block "constructor(ptr)" (Code.lines ["this.#ptr = ptr;"])
      ++ Code.lines ["", "/** @internal */"]
      ++ block "get _ptr()" (block "if (this.#ptr === 0)"
          (Code.lines ["throw new Error('" ++ c.handle.name ++ " has been disposed');"])
        ++ Code.lines ["return this.#ptr;"])
      ++ [Line.blank]
      ++ block "dispose()" (block "if (this.#ptr !== 0)"
          (Code.lines (c.disposal?.toList.map fun call => call.text ++ ";")
            ++ Code.lines ["this.#ptr = 0;"]))
      ++ [Line.blank]
      ++ block "close()" (Code.lines ["this.dispose();"])
      ++ [Line.blank]
      ++ block "[Symbol.dispose]()" (Code.lines ["this.dispose();"])) =
        [("dispose() \x7b", disposeText c.destructor)] := by
    rw [declarations_append _ (outer_block _ _), declarations_append _ (outer_cons rfl _),
      declarations_append _ (outer_block _ _), declarations_append _ (outer_cons rfl _),
      declarations_append _ (outer_block _ _), declarations_append _ (outer_cons rfl _),
      declarations_append _ (outer_block _ _), declarations_append _ (outer_lines _),
      declarations_append _ (outer_block _ _), hdispose, hblank]
    iterate 5 rw [declarations_block (by decide)]
    rfl
  rw [HandleClass.lines, members_append _ (outer_cons rfl _), members_append _ (outer_block _ _),
    members_lines, members_block (by decide), if_pos hhead, hbody, hlast]
  rfl

/-- The codecs of records are functions. -/
theorem noClass_codecLines (codecs : List Codec) : NoClass (codecLines codecs) := by
  have hblank : NoClass [Line.blank] := noClass_lines [""]
  have hcodec : ∀ c : Codec, NoClass c.lines := by
    intro c
    -- Both functions of a codec are named behind fixed words.
    refine (((noClass_block ?_ _).append hblank).append (noClass_block ?_ _)).append hblank
    all_goals
      rw [String.append_assoc, String.append_assoc, begins_append (by decide)]
      decide
  rw [codecLines]
  split
  · exact noClass_nil
  · exact (noClass_comment _).append (noClass_flatMap hcodec codecs)

/-- What stands behind the classes has none. -/
theorem noClass_rest (ctx : Context) (m : Module) :
    NoClass (systemInterface ++ importLines ctx.apiName ++ loaderLines ctx
      ++ m.interfaces.flatMap (fun (i, ws) => interfaceLines i ws) ++ [Code.comment "Exports"]
      ++ Code.lines ((loaderName ctx.apiName :: ctx.api.handles.map (·.name)).map fun n =>
        "export \x7b " ++ n ++ " \x7d;")) := by
  -- What stands behind the classes opens no class: the interfaces of the system, the loader and
  -- the exports.
  have hblank : NoClass [Line.blank] := noClass_lines [""]
  have himports : NoClass (importLines ctx.apiName) :=
    ((noClass_comment _).append (noClass_block (by decide) _)).append hblank
  have hloader : NoClass (loaderLines ctx) := by
    refine ((noClass_comment _).append (noClass_block ?_ _)).append hblank
    rw [String.append_assoc, String.append_assoc, begins_append (by decide)]
    decide
  have hinterface : ∀ p : Interface × List Wrapper, NoClass (interfaceLines p.1 p.2) := by
    intro p
    refine ((noClass_comment _).append (noClass_block ?_ _)).append hblank
    rw [String.append_assoc, String.append_assoc, begins_append (by decide)]
    decide
  exact (((((noClass_lines _).append himports).append hloader).append
    (noClass_flatMap hinterface _)).append (noClass_comment _)).append (noClass_lines _)

/-- **The classes of a module** are those of its handles, in order, and each disposes of its handle
in one function. -/
theorem disposalsIn_lines (m : Module) :
    disposalsIn (m.lines ctx) = m.classes.map fun c =>
      ("class " ++ c.handle.name ++ " \x7b", "dispose() \x7b", disposeText c.destructor) := by
  have hrest := noClass_rest ctx m
  have hclasses : Outer (if m.classes.isEmpty then []
      else [Code.comment "Handle wrapper classes"] ++ m.classes.flatMap HandleClass.lines) := by
    split
    · exact outer_nil
    · exact outer_cons rfl _
  have hmembers : members ["class "] ["dispose()"] (if m.classes.isEmpty then []
      else [Code.comment "Handle wrapper classes"] ++ m.classes.flatMap HandleClass.lines) =
        m.classes.map fun c =>
          ("class " ++ c.handle.name ++ " \x7b", "dispose() \x7b", disposeText c.destructor) := by
    -- Without handles the heading of the section is left out with it.
    split
    · next hempty =>
      rw [List.isEmpty_iff.mp hempty]
      rfl
    · rw [members_append _ (outer_flatMap outer_handleClass _), (noClass_comment _).2,
        members_flatMap outer_handleClass, List.map_eq_flatMap]
      simp only [members_handleClass, List.nil_append]
  have hlines : m.lines ctx = memoryHelpers ++ codecLines m.codecs
      ++ (if m.classes.isEmpty then []
        else [Code.comment "Handle wrapper classes"] ++ m.classes.flatMap HandleClass.lines)
      ++ (systemInterface ++ importLines ctx.apiName ++ loaderLines ctx
        ++ m.interfaces.flatMap (fun (i, ws) => interfaceLines i ws) ++ [Code.comment "Exports"]
        ++ Code.lines ((loaderName ctx.apiName :: ctx.api.handles.map (·.name)).map fun n =>
          "export \x7b " ++ n ++ " \x7d;")) := by
    simp only [Module.lines, List.append_assoc]
  rw [disposalsIn, hlines, members_append _ hrest.1, members_append _ hclasses,
    members_append _ (noClass_codecLines _).1, hrest.2, hmembers, (noClass_codecLines _).2,
    memoryHelpers, members_lines, List.nil_append, List.nil_append, List.append_nil]

end JavaScript

/-! ### Swift -/

namespace Swift

variable {ctx : Context}

/-- **What the classes of a Swift file do at the end of an object's life**, each behind its
class. -/
def endingsIn (file : List Line) : List (String × String × List Line) :=
  members ["public final class "] ["deinit"] file

/-- At the end of an object's life its destructor is called, if it has one. -/
def endingText (symbol : Option String) : List (String × List Line) :=
  symbol.toList.map fun s => ("deinit \x7b", [{ text := s ++ "(handle)" }])

/-- Nothing ends where a function is declared. -/
theorem declarations_deinit_function (f : Function) : declarations ["deinit"] f.lines = [] := by
  obtain ⟨rest, hrest⟩ := exists_head_eq f
  have hhead : begins ["deinit"] (f.head ++ " \x7b") = false := by
    rw [hrest, begins_append (by decide)]
    decide
  -- Neither the remark nor the head of a function ends a life.
  have hremark : declarations ["deinit"]
      (Code.lines (f.description.toList.map fun d => "/// " ++ d)) = [] := by
    rw [declarations_lines, List.map_eq_nil_iff, List.filter_eq_nil_iff]
    intro text htext
    obtain ⟨d, -, rfl⟩ := List.mem_map.mp htext
    rw [begins_append (by decide)]
    decide
  rw [Function.lines, declarations_append _ (outer_block _ _), hremark,
    declarations_block (by decide), hhead]
  rfl

/-- **A class ends the life of its handle** in one place, if at all. -/
theorem endings_handleClass (c : HandleClass) :
    members ["public final class "] ["deinit"] c.lines =
      (endingText c.destructor).map ("public final class " ++ c.handle.name ++ " \x7b", ·) := by
  have hfunction : ∀ f : Function, Outer ([Line.blank] ++ f.lines) := fun _ => outer_cons rfl _
  have hfunctions : declarations ["deinit"]
      (c.functions.flatMap fun f => [Line.blank] ++ f.lines) = [] := by
    rw [declarations_flatMap hfunction, List.flatMap_eq_nil_iff]
    intro f _
    rw [declarations_append _ (outer_function f), declarations_deinit_function]
    rfl
  -- The end is printed where there is a destructor, between what opens the class and its
  -- functions.
  obtain ⟨ending, hending, houter, hlines⟩ : ∃ ending,
      declarations ["deinit"] ending = endingText c.destructor ∧
      Outer ending ∧ c.lines = Code.lines (c.handle.description.toList.map fun d => "/// " ++ d)
        ++ block ("public final class " ++ c.handle.name)
          (Code.lines ["let handle: OpaquePointer", ""]
            ++ block "init(handle: OpaquePointer)" (Code.lines ["self.handle = handle"])
            ++ ending ++ c.functions.flatMap fun f => [Line.blank] ++ f.lines)
        ++ [Line.blank] := by
    rw [HandleClass.lines]
    cases c.destructor with
    | none => exact ⟨[], rfl, outer_nil, rfl⟩
    | some symbol =>
      refine ⟨_, ?_, ?_, rfl⟩
      · rw [declarations_append _ (outer_block _ _), declarations_block (by decide), if_pos (by decide)]
        rfl
      · exact outer_cons rfl _
  have hhead : begins ["public final class "] ("public final class " ++ c.handle.name ++ " \x7b") =
      true := by
    rw [String.append_assoc, begins_append (by decide)]
    decide
  have hfront : declarations ["deinit"] (Code.lines ["let handle: OpaquePointer", ""]) = [] := by
    decide
  have hbody : declarations ["deinit"] (Code.lines ["let handle: OpaquePointer", ""]
        ++ block "init(handle: OpaquePointer)" (Code.lines ["self.handle = handle"]) ++ ending
        ++ c.functions.flatMap fun f => [Line.blank] ++ f.lines) = endingText c.destructor := by
    rw [declarations_append _ (outer_flatMap hfunction _), declarations_append _ houter,
      declarations_append _ (outer_block _ _), hfront, declarations_block (by decide),
      if_neg (by decide), hending, hfunctions, List.append_nil]
    rfl
  have hlast : members ["public final class "] ["deinit"] [Line.blank] = [] := members_lines [""]
  rw [hlines, members_append _ (outer_cons rfl _), members_append _ (outer_block _ _), members_lines,
    members_block (by decide), if_pos hhead, hbody, hlast, List.append_nil, List.nil_append]

/-- **What ends in a Swift file** are the handles of its classes, in order. -/
theorem endingsIn_lines (ctx : Context) (s : Source) :
    endingsIn (s.lines ctx) = s.classes.flatMap fun c =>
      (endingText c.destructor).map ("public final class " ++ c.handle.name ++ " \x7b", ·) := by
  -- Enums stand at the margin as well, and none of them is a class.
  have herror : ∀ e : ErrorEnum, Outer e.lines ∧ members ["public final class "] ["deinit"] e.lines = [] := by
    intro e
    have hhead : begins ["public final class "] ("public enum " ++ e.name ++ ": Int32, Error" ++ " \x7b")
        = false := by
      rw [String.append_assoc, String.append_assoc, begins_append (by decide)]
      decide
    refine ⟨outer_cons rfl _, ?_⟩
    rw [ErrorEnum.lines, members_append _ (outer_cons rfl _), members_block (by decide), hhead]
    exact members_lines [""]
  have herrors : members ["public final class "] ["deinit"] (s.errors.flatMap ErrorEnum.lines) = [] := by
    rw [members_flatMap fun e => (herror e).1]
    exact List.flatMap_eq_nil_iff.mpr fun e _ => (herror e).2
  have hnamespace : Outer (namespaceLines ctx.pascalApi s.free) ∧
      members ["public final class "] ["deinit"] (namespaceLines ctx.pascalApi s.free) = [] := by
    cases s.free with
    | nil => exact ⟨outer_nil, rfl⟩
    | cons f rest =>
      have hhead : begins ["public final class "] ("public enum " ++ ctx.pascalApi ++ " \x7b") =
          false := by
        rw [String.append_assoc, begins_append (by decide)]
        decide
      refine ⟨outer_cons rfl _, ?_⟩
      rw [namespaceLines, members_append _ (outer_cons rfl _), members_block (by decide), hhead]
      exact members_lines [""]
  rw [endingsIn, Source.lines, members_append _ hnamespace.1,
    members_append _ (outer_flatMap outer_handleClass _),
    members_append _ (outer_flatMap (fun e => (herror e).1) _), members_lines, herrors,
    members_flatMap outer_handleClass, hnamespace.2, List.append_nil, List.nil_append,
    List.nil_append]
  simp only [endings_handleClass]

end Swift

/-! ### Kotlin -/

namespace Kotlin

variable {ctx : Context}

/-- **What the classes of a Kotlin file do when they are closed**, each behind its class. -/
def closesIn (file : List Line) : List (String × String × List Line) :=
  members ["class "] ["override fun close()"] file

/-- When a handle is closed, the native function of its destructor is called, if it has one, and
the address is forgotten, so that this happens once. -/
def closeText (ctx : Context) : Option String → String × List Line
  | some function => ("override fun close() \x7b", [{ text := "if (handle != 0L) \x7b" },
      { depth := 1, text := ctx.pascalApi ++ "." ++ function ++ "(handle)" },
      { depth := 1, text := "handle = 0L" }, { text := "\x7d" }])
  | none => ("override fun close() \x7b \x7d", [])

theorem declarations_close (close : Option String) :
    declarations ["override fun close()"] (HandleClass.closeLines ctx close) =
      [closeText ctx close] := by
  cases close with
  | none => rfl
  | some function =>
    rw [HandleClass.closeLines, declarations_block (by decide), if_pos (by decide)]
    rfl

/-- Nothing is closed where a function is declared. -/
theorem declarations_close_wrappers (ws : List Wrapper) :
    declarations ["override fun close()"] (ws.flatMap Wrapper.lines) = [] := by
  rw [declarations_flatMap outer_wrapper, List.flatMap_eq_nil_iff]
  intro w _
  obtain ⟨rest, hrest⟩ := exists_head_eq w
  have hhead : begins ["override fun close()"] (w.head ++ " \x7b") = false := by
    rw [hrest, begins_append (by decide)]
    decide
  rw [Wrapper.lines, declarations_append _ (outer_cons rfl _), declarations_block (by decide), hhead]
  rfl

/-- **A class closes its handle** in one function. -/
theorem closes_handleClass (ctx : Context) (c : HandleClass) :
    members ["class "] ["override fun close()"] (c.lines ctx) =
      [(placeHead ctx (some c.handle.name), closeText ctx c.close)] := by
  have hclose : Outer (HandleClass.closeLines ctx c.close) := by
    cases c.close <;> exact outer_cons rfl _
  obtain ⟨remark, hlines⟩ := exists_remark ctx c
  have hhead : begins ["class "] ("class " ++ c.handle.name
      ++ " internal constructor(handle: Long) : AutoCloseable" ++ " \x7b") = true := by
    rw [String.append_assoc, String.append_assoc, begins_append (by decide)]
    decide
  have hfront : declarations ["override fun close()"]
      (Code.lines ["internal var handle: Long = handle"]) = [] := rfl
  have hblank : declarations ["override fun close()"] [Line.blank] = [] := rfl
  -- The wrappers in between close nothing, so the one that is left is the last member.
  have hbody : declarations ["override fun close()"]
      (Code.lines ["internal var handle: Long = handle"] ++ indent (Code.lines ["private set"])
        ++ [Line.blank] ++ c.wrappers.flatMap Wrapper.lines
        ++ HandleClass.closeLines ctx c.close) = [closeText ctx c.close] := by
    rw [declarations_append _ hclose, declarations_append _ (outer_flatMap outer_wrapper _),
      declarations_append _ (outer_cons rfl _), declarations_append_indent hfront, hblank,
      declarations_close_wrappers, declarations_close]
    rfl
  have hlast : members ["class "] ["override fun close()"] [Line.blank] = [] := members_lines [""]
  rw [hlines, members_append _ (outer_cons rfl _), members_append _ (outer_block _ _), members_lines,
    members_block (by decide), if_pos hhead, hbody, hlast, placeHead, String.append_assoc]
  rfl

/-- **What is closed in a Kotlin file** are the handles of its classes, in order. -/
theorem closesIn_lines (ctx : Context) (s : Source) :
    closesIn (s.lines ctx) = s.classes.map fun c =>
      (placeHead ctx (some c.handle.name), closeText ctx c.close) := by
  have hexceptions : ∀ e, Outer (Source.exceptionLines e) := fun _ => outer_lines _
  have hrecords : ∀ d, Outer (DataClass.lines d) := fun _ => outer_lines _
  have hobject : Outer (s.object.lines ctx) ∧
      members ["class "] ["override fun close()"] (s.object.lines ctx) = [] := by
    have hhead : begins ["class "] ("object " ++ objectName ctx ++ " \x7b") = false := by
      rw [String.append_assoc, begins_append (by decide)]
      decide
    refine ⟨outer_block _ _, ?_⟩
    rw [ApiObject.lines, members_block (by decide), hhead]
    rfl
  -- exceptions and data classes are one line each
  have hnoException : s.errors.flatMap (fun e =>
      members ["class "] ["override fun close()"] (Source.exceptionLines e)) = [] :=
    List.flatMap_eq_nil_iff.mpr fun e _ => members_lines _
  have hnoRecord : s.records.flatMap (fun d =>
      members ["class "] ["override fun close()"] (DataClass.lines d)) = [] :=
    List.flatMap_eq_nil_iff.mpr fun d _ => members_lines _
  rw [closesIn, Source.lines, members_append _ hobject.1,
    members_append _ (outer_flatMap (outer_handleClass ctx) _),
    members_append _ (outer_flatMap hrecords _), members_append _ (outer_flatMap hexceptions _),
    members_lines, members_flatMap hexceptions, members_flatMap hrecords,
    members_flatMap (outer_handleClass ctx), hnoException, hnoRecord, hobject.2, List.append_nil,
    List.nil_append, List.nil_append, List.nil_append, List.map_eq_flatMap]
  simp only [closes_handleClass]

end Kotlin

/-! ### The end of a life -/

section

variable {ctx : Context}

/-- The class of a handle is there once, if the classes follow the handles. -/
theorem exists_class {γ : Type} {made : Handle → γ → Prop} {name : γ → String}
    (hname : ∀ handle c, made handle c → name c = handle.name) {classes : List γ}
    (h : List.Forall₂ made ctx.api.handles classes) (hdistinct : (ctx.api.handles.map (·.name)).Nodup)
    {handle : Handle} (hhandle : handle ∈ ctx.api.handles) :
    ∃ c, classes.filter (fun c => name c = handle.name) = [c] ∧ made handle c := by
  have hnamed : List.Forall₂ (fun n c => name c = n ∧ ∃ handle ∈ ctx.api.handles, handle.name = n ∧
      made handle c) (ctx.api.handles.map (·.name)) classes :=
    List.forall₂_map_left_iff.mpr (forall₂_imp_of_mem h fun handle hmem c hc =>
      ⟨hname handle c hc, handle, hmem, rfl, hc⟩)
  obtain ⟨c, hc, -, handle', hhandle', heq, hmade⟩ := exists_filter_eq_singleton
    (fun _ _ h => h.1) hnamed hdistinct (List.mem_map_of_mem hhandle)
  obtain rfl := List.inj_on_of_nodup_map hdistinct hhandle' hhandle heq
  exact ⟨c, hc, hmade⟩

/-- The line that opens the class of a handle in JavaScript. -/
def JavaScript.classHead (handle : String) : String := "class " ++ handle ++ " \x7b"

theorem JavaScript.classHead_inj {h h' : String} : classHead h = classHead h' ↔ h = h' := by
  rw [classHead, classHead, String.append_left_inj, String.append_right_inj]

/-- **The bridge of a destructor in the C file**: it hands the address on to the function of the
operation. -/
def Kotlin.destructionBridge (ctx : Context) (op : Operation) (handle : String) :
    String × List Line :=
  let name := Naming.handleToSnake handle
  (Kotlin.bridgeSymbol ctx (Kotlin.bridgeName op) ++ "(JNIEnv *env, jobject thiz, jlong " ++ name
      ++ ") \x7b",
    Code.lines ["(void)thiz;",
      op.symbol ctx.apiName ++ "((" ++ name ++ "_handle)(intptr_t)" ++ name ++ ");"])

end

/-- **How the files end the life of a handle**, where `op` is the operation that they end it
through, if any. In JavaScript and in Swift the class of the handle calls the function of the
operation. In Kotlin it calls the native function of the operation, and the C file has a bridge
behind it that calls its function. -/
structure EndsThrough (ctx : Context) (handle : Handle) (op : Option Operation) : Prop where
  javaScript : ∀ files, JavaScript.emit ctx = .ok files →
    ∃ script : List Line,
      files = [ctx.generatedFile (ctx.apiName ++ ".js") Code.twoBlanks script] ∧
      (JavaScript.disposalsIn script).filter (·.1 = JavaScript.classHead handle.name) =
        [(JavaScript.classHead handle.name, "dispose() \x7b",
          JavaScript.disposeText (op.map (·.symbol ctx.apiName)))]
  swift : ∀ files, Swift.emit ctx = .ok files →
    ∃ library : List Line,
      files = [ctx.generatedFile (ctx.pascalApi ++ ".swift") Code.fourBlanks library] ∧
      (Swift.endingsIn library).filter (·.1 = Swift.placeHead ctx (some handle.name)) =
        (Swift.endingText (op.map (·.symbol ctx.apiName))).map
          (Swift.placeHead ctx (some handle.name), ·)
  kotlin : ∀ files, Kotlin.emit ctx = .ok files →
    ∃ source bridge : List Line,
      files = [ctx.generatedFile (ctx.pascalApi ++ ".kt") Code.fourBlanks source,
        ctx.generatedFile (ctx.apiName ++ "_jni.c") Code.fourBlanks bridge] ∧
      (Kotlin.closesIn source).filter (·.1 = Kotlin.placeHead ctx (some handle.name)) =
        [(Kotlin.placeHead ctx (some handle.name),
          Kotlin.closeText ctx (op.map Kotlin.bridgeName))] ∧
      ∀ o ∈ op, Kotlin.destructionBridge ctx o handle.name ∈ Kotlin.bridgesIn bridge ∧
        -- the bridge need not be the only one of its name
        ∀ doc, Api.ofDocument doc = .ok ctx.api →
          ((Kotlin.bridgesIn bridge).filter (Kotlin.NamesBridge ctx o ·) =
              [Kotlin.destructionBridge ctx o handle.name] ↔
            ∀ op' ∈ ctx.api.operations, Kotlin.BridgedAlike op' o → op' = o)

namespace JavaScript

/-- **Each handle has one class**, and it disposes of the handle through its destructor. -/
theorem disposals_of_handle {ctx : Context} {m : Module} (h : Module.ofContext ctx = .ok m)
    (hdistinct : (ctx.api.handles.map (·.name)).Nodup) {handle : Handle}
    (hhandle : handle ∈ ctx.api.handles) :
    (disposalsIn (m.lines ctx)).filter (·.1 = classHead handle.name) =
      [(classHead handle.name, "dispose() \x7b",
        disposeText (ctx.api.destructorSymbol? handle.name))] := by
  obtain ⟨c, hclass, hsame, hdestructor⟩ := exists_class (fun _ _ h => congrArg Handle.name h.1)
    (forall₂_classes h) hdistinct hhandle
  have hheads : m.classes.filter ((fun d : String × String × List Line =>
      decide (d.1 = classHead handle.name)) ∘ fun c : HandleClass =>
        ("class " ++ c.handle.name ++ " \x7b", "dispose() \x7b", disposeText c.destructor)) = [c] := by
    rw [← hclass]
    exact List.filter_congr fun c' _ => decide_eq_decide.mpr classHead_inj
  rw [disposalsIn_lines, List.filter_map, hheads, List.map_singleton, hsame, hdestructor]
  rfl

end JavaScript

namespace Swift

/-- **Each handle has one class**, and the life of the handle ends in it through its destructor,
if there is one. -/
theorem endings_of_handle {ctx : Context} {source : Source} (h : Source.ofContext ctx = .ok source)
    (hdistinct : (ctx.api.handles.map (·.name)).Nodup) {handle : Handle}
    (hhandle : handle ∈ ctx.api.handles) :
    (endingsIn (source.lines ctx)).filter (·.1 = placeHead ctx (some handle.name)) =
      (endingText (ctx.api.destructorSymbol? handle.name)).map
        (placeHead ctx (some handle.name), ·) := by
  obtain ⟨c, hclass, hsame, hdestructor⟩ := exists_class (fun _ _ h => congrArg Handle.name h.1)
    (forall₂_classes h) hdistinct hhandle
  -- what is read off a class stands behind the line that opens it
  have hread : ∀ c' : HandleClass, ((endingText c'.destructor).map
      ("public final class " ++ c'.handle.name ++ " \x7b", ·)).filter
        (·.1 = placeHead ctx (some handle.name)) =
      if decide (c'.handle.name = handle.name) then (endingText c'.destructor).map
        (placeHead ctx (some c'.handle.name), ·) else [] := by
    intro c'
    rw [← placeHead_some ctx]
    split
    · next hname =>
      rw [of_decide_eq_true hname, List.filter_eq_self]
      exact List.forall_mem_map.mpr fun _ _ => decide_eq_true rfl
    · next hname =>
      rw [List.filter_eq_nil_iff, List.forall_mem_map]
      intro _ _ hhead
      exact hname (decide_eq_true (Option.some.inj (placeHead_inj.mp (of_decide_eq_true hhead))))
  rw [endingsIn_lines, List.filter_flatMap]
  simp only [hread]
  rw [flatMap_ite, hclass, List.flatMap_singleton, hsame, hdestructor]

end Swift

namespace Kotlin

/-- **Each handle has one class**, and it closes the handle through the native function of its
destructor. -/
theorem closes_of_handle {ctx : Context} {source : Source} (h : Source.ofContext ctx = .ok source)
    (hdistinct : (ctx.api.handles.map (·.name)).Nodup) {handle : Handle}
    (hhandle : handle ∈ ctx.api.handles) :
    (closesIn (source.lines ctx)).filter (·.1 = placeHead ctx (some handle.name)) =
      [(placeHead ctx (some handle.name),
        closeText ctx (HandleClass.closeOf ctx.api handle.name))] := by
  obtain ⟨c, hclass, hsame, hclose⟩ := exists_class (fun _ _ h => congrArg Handle.name h.1)
    (forall₂_classes h) hdistinct hhandle
  have hheads : source.classes.filter ((fun d : String × String × List Line =>
      decide (d.1 = placeHead ctx (some handle.name))) ∘ fun c : HandleClass =>
        (placeHead ctx (some c.handle.name), closeText ctx c.close)) = [c] := by
    rw [← hclass]
    exact List.filter_congr fun c' _ =>
      decide_eq_decide.mpr (placeHead_inj.trans Option.some_inj)
  rw [closesIn_lines, List.filter_map, hheads, List.map_singleton, hsame, hclose]

/-- **The bridge of a destructor** takes the address, and hands it on. -/
theorem bridge_destruction {ctx : Context} {handle : String}
    (hpascal : isPascalIdentifier handle = true) (i : Interface) :
    Bridge.ofOperation ctx (i.destruction handle) =
      .ok { symbol := bridgeSymbol ctx (bridgeName (i.destruction handle))
            answer := "void"
            params := [("jlong", Naming.handleToSnake handle)]
            setup := []
            callee := (i.destruction handle).symbol ctx.apiName
            args := [.handle handle (Naming.handleToSnake handle)]
            cleanup := []
            outcome := .done } := by
  -- Everything that the bridge asks for is fixed by the handle being well named.
  have hform : Abi.classify ("handle:" ++ handle) = .ok (.handle handle) := by
    rw [classify_eq_ok_iff, TypeRef.ofString?_handle, if_pos hpascal]
  have htype : JvmType.ofText ctx ("handle:" ++ handle) = .ok (.handle handle) := by
    rw [JvmType.ofText, hform]
    rfl
  have hsignature : Abi.Signature.ofOperation ctx.apiName (i.destruction handle) = _ :=
    Abi.signature_of_destructor hpascal ((i.destruction handle).symbol ctx.apiName)
  have htypes : (i.destruction handle).method.parameters.mapM (fun p => do
      return (p, ← JvmType.ofText ctx p.type)) =
        .ok [(⟨Naming.handleToSnake handle, "handle:" ++ handle, none, none⟩, .handle handle)] := by
    refine mapM_eq_ok_iff.mpr (.cons ?_ .nil)
    rw [htype]
    rfl
  rw [Bridge.ofOperation, hsignature, htypes]
  rfl

/-- What is printed for the bridge of a destructor. -/
theorem declarations_destruction {ctx : Context} {handle : String}
    (hpascal : isPascalIdentifier handle = true) {i : Interface} {b : Bridge}
    (h : Bridge.ofOperation ctx (i.destruction handle) = .ok b) :
    (b.symbol ++ "(" ++ Text.commaSep ("JNIEnv *env" :: "jobject thiz" ::
        b.params.map fun p => p.1 ++ " " ++ p.2) ++ ") \x7b",
      Code.lines ("(void)thiz;" :: b.setup) ++ b.callLines) =
        destructionBridge ctx (i.destruction handle) handle := by
  rw [bridge_destruction hpascal] at h
  rw [← Except.ok.inj h]
  have hopen : "(JNIEnv *env, jobject thiz, jlong " =
    "(" ++ ("JNIEnv *env" ++ (", " ++ ("jobject thiz" ++ (", " ++ ("jlong" ++ " "))))) := rfl
  refine Prod.ext ?_ ?_
  -- The head: the parameters of a bridge stand behind those of the machine.
  · rw [destructionBridge, hopen, List.map_singleton, Text.commaSep,
      String.intercalate_cons_of_ne_nil (by simp), String.intercalate_cons_of_ne_nil (by simp),
      String.intercalate_singleton]
    simp only [String.append_assoc]
  · have hcall : (i.destruction handle).symbol ctx.apiName ++ "("
          ++ Text.commaSep [(BridgeArg.handle handle (Naming.handleToSnake handle)).c] ++ ");" =
        (i.destruction handle).symbol ctx.apiName ++ "((" ++ Naming.handleToSnake handle
          ++ "_handle)(intptr_t)" ++ Naming.handleToSnake handle ++ ");" := by
      have htwo : "((" = "(" ++ "(" := rfl
      have hcast : "_handle)(intptr_t)" = "_handle" ++ ")(intptr_t)" := rfl
      rw [Text.commaSep, String.intercalate_singleton, BridgeArg.c, Naming.handleTypedef, htwo, hcast]
      simp only [String.append_assoc]
    rw [destructionBridge, ← hcall]
    rfl

/-- The bridge of a destructor has the symbol of its native function. -/
theorem namesBridge_destruction (ctx : Context) (i : Interface) (handle : String) :
    NamesBridge ctx (i.destruction handle) (destructionBridge ctx (i.destruction handle) handle) := by
  have hopen : "(JNIEnv *env, jobject thiz, jlong " = "(" ++ "JNIEnv *env, jobject thiz, jlong " := rfl
  have hhead : (destructionBridge ctx (i.destruction handle) handle).1 =
      "" ++ bridgeSymbol ctx (bridgeName (i.destruction handle)) ++ "("
        ++ ("JNIEnv *env, jobject thiz, jlong " ++ Naming.handleToSnake handle ++ ") \x7b") := by
    rw [destructionBridge, hopen]
    simp only [String.empty_append, String.append_assoc]
  -- The printed name ends at the first bracket.
  have hname := Code.nameIn_eq
    ("JNIEnv *env, jobject thiz, jlong " ++ Naming.handleToSnake handle ++ ") \x7b")
    (by decide : '(' ∉ "".toList) (by decide)
    (ne_of_isWord (isWord_bridgeSymbol ctx (bridgeName (i.destruction handle))))
  rw [NamesBridge, hhead, hname]
  rfl

/-- **A destructor has its bridge**, and this is the only one of its name exactly when no other
operation has a native function of this name. -/
theorem destructionBridge_mem {ctx : Context} (valid : Conforms ctx.api (some ctx.types))
    {f : BridgeFile} (h : BridgeFile.ofContext ctx = .ok f) {handle : String}
    (hpascal : isPascalIdentifier handle = true) {i : Interface}
    (hop : i.destruction handle ∈ ctx.api.operations) :
    destructionBridge ctx (i.destruction handle) handle ∈ bridgesIn (f.lines ctx) ∧
      ∀ doc, Api.ofDocument doc = .ok ctx.api →
        ((bridgesIn (f.lines ctx)).filter (NamesBridge ctx (i.destruction handle) ·) =
            [destructionBridge ctx (i.destruction handle) handle] ↔
          ∀ op' ∈ ctx.api.operations, BridgedAlike op' (i.destruction handle) →
            op' = i.destruction handle) := by
  have hmem : destructionBridge ctx (i.destruction handle) handle ∈ bridgesIn (f.lines ctx) := by
    obtain ⟨b, hb, hmade⟩ := exists_mem_of_forall₂ (forall₂_functions h) hop
    rw [bridgesIn_lines ctx (exists_symbol_eq h), ← declarations_destruction hpascal hmade.made]
    exact List.mem_map_of_mem hb
  refine ⟨hmem, fun doc described => ?_⟩
  rw [← exists_bridge_iff (.of_forall₂ (forall₂_bridgesIn h)) (nodup_operations valid)
    (snakeNamed_of_ofDocument described) _ hop]
  refine ⟨fun halone => ⟨_, halone⟩, fun ⟨d, hd⟩ => ?_⟩
  -- whatever is alone under the name is this bridge, which has it
  have hfiltered : destructionBridge ctx (i.destruction handle) handle ∈
      (bridgesIn (f.lines ctx)).filter (NamesBridge ctx (i.destruction handle) ·) :=
    List.mem_filter.mpr ⟨hmem, decide_eq_true (namesBridge_destruction ctx i handle)⟩
  rw [hd] at hfiltered ⊢
  rw [List.eq_of_mem_singleton hfiltered]

end Kotlin

/-! ### The prototype of a destructor -/

/-- The header holds the prototype of every operation. -/
theorem exists_prototype {ctx : Context} (valid : Conforms ctx.api (some ctx.types)) {op : Operation}
    (hop : op ∈ ctx.api.operations) {s : Abi.Signature}
    (hs : Abi.Signature.ofOperation ctx.apiName op = .ok s) :
    ∃ code, Header.emit ctx =
        .ok [ctx.generatedFile (ctx.apiName ++ ".h") Code.fourBlanks code] ∧
      s.lines (some (Naming.exportMacro ctx.apiName)) ";" <:+: code := by
  obtain ⟨files, hemit⟩ := Header.succeeds_emit valid
  obtain ⟨code, hcode, hfiles⟩ := bind_eq_ok_iff.mp hemit
  exact ⟨code, by rw [hemit, ← pure_eq_ok_iff.mp hfiles], Header.prototype_isInfix hcode hop hs⟩

/-- A function with one parameter reads the same on one line and on two. -/
theorem join_lines_of_singleton (s : Abi.Signature) (lead : Option String) (terminator : String)
    {p : Abi.Param} (h : s.params = [p]) :
    String.join ((s.lines lead terminator).map (·.text)) =
      s.start lead ++ "(" ++ p.declaration ++ ")" ++ terminator := by
  have hlist : s.paramList = p.declaration := by
    rw [Abi.Signature.paramList, h, List.map_singleton, Text.commaSep, String.intercalate_singleton]
    rfl
  rw [Abi.Signature.lines, Abi.Signature.head, hlist, h]
  split
  · rw [List.map_singleton, String.join_cons, String.join_nil, String.append_empty,
      Abi.Signature.head, hlist]
  · rw [Abi.Signature.paramLines]
    change String.join [_, _] = _
    rw [String.join_cons, String.join_cons, String.join_nil, String.append_empty]
    simp only [String.append_assoc]

/-- The bindings end the life of a handle through the destructor on its owner. -/
theorem endsThrough {ctx : Context} (valid : Conforms ctx.api (some ctx.types)) {handle : Handle}
    (hhandle : handle ∈ ctx.api.handles) :
    EndsThrough ctx handle
      ((ctx.api.interfaces.find? (·.constructs handle.name)).map (·.destruction handle.name)) := by
  have hdistinct := valid.handleNames
  have hsymbol : ctx.api.destructorSymbol? handle.name =
      ((ctx.api.interfaces.find? (·.constructs handle.name)).map
        (·.destruction handle.name)).map (·.symbol ctx.apiName) := by
    rw [destructorSymbol?_eq_find? valid, Option.map_map]
    rfl
  have hclose : Kotlin.HandleClass.closeOf ctx.api handle.name =
      ((ctx.api.interfaces.find? (·.constructs handle.name)).map
        (·.destruction handle.name)).map Kotlin.bridgeName := by
    rw [Kotlin.closeOf_eq valid, Option.map_map]
    rfl
  -- One file after another; the last one has the bridge beside the class.
  refine ⟨fun files h => ?_, fun files h => ?_, fun files h => ?_⟩
  · obtain ⟨m, hm, h⟩ := bind_eq_ok_iff.mp h
    obtain rfl := pure_eq_ok_iff.mp h
    refine ⟨_, rfl, ?_⟩
    rw [JavaScript.disposals_of_handle hm hdistinct hhandle, hsymbol]
  · obtain ⟨source, hsource, h⟩ := bind_eq_ok_iff.mp h
    obtain rfl := pure_eq_ok_iff.mp h
    refine ⟨_, rfl, ?_⟩
    rw [Swift.endings_of_handle hsource hdistinct hhandle, hsymbol]
  · obtain ⟨source, hsource, h⟩ := bind_eq_ok_iff.mp h
    obtain ⟨bridge, hbridge, h⟩ := bind_eq_ok_iff.mp h
    obtain rfl := pure_eq_ok_iff.mp h
    refine ⟨_, _, rfl, ?_, fun o ho => ?_⟩
    · rw [Kotlin.closes_of_handle hsource hdistinct hhandle, hclose]
    · obtain ⟨i, howner, rfl⟩ := Option.map_eq_some_iff.mp ho
      obtain ⟨hi, hconstructs⟩ := mem_of_find?_constructs howner
      have hop := mem_operations_of_mem hi (destruction_mem_operations valid hi hconstructs)
      exact Kotlin.destructionBridge_mem valid hbridge (valid.handlesPascal handle hhandle) hop

/-- **The bindings agree on how the life of a handle ends.** -/
structure EndsAlike (ctx : Context) (handle : Handle) : Prop where
  /-- If some interface constructs the handle, then all go through the destructor on the first that
  does. The header declares it with the handle as its only parameter, and nothing comes back. -/
  owned : (∃ i ∈ ctx.api.interfaces, i.constructs handle.name = true) →
    ∃ i, ctx.api.interfaces.find? (·.constructs handle.name) = some i ∧
      i.destruction handle.name ∈ i.operations ∧
      ctx.api.destructorSymbol? handle.name =
        some ((i.destruction handle.name).symbol ctx.apiName) ∧
      EndsThrough ctx handle (some (i.destruction handle.name)) ∧
      ∃ code prototype : List Line,
        Header.emit ctx = .ok [ctx.generatedFile (ctx.apiName ++ ".h") Code.fourBlanks code] ∧
        prototype <:+: code ∧
        String.join (prototype.map (·.text)) = Naming.exportMacro ctx.apiName ++ " void "
          ++ (i.destruction handle.name).symbol ctx.apiName ++ "("
          ++ Naming.handleToSnake handle.name ++ "_handle " ++ Naming.handleToSnake handle.name
          ++ ");"
  /-- Else there is no destructor, and none is called. -/
  ownerless : (∀ i ∈ ctx.api.interfaces, i.constructs handle.name = false) →
    ctx.api.destructorSymbol? handle.name = none ∧ EndsThrough ctx handle none

/-- **The bindings of a valid description end the life of a handle with one function.** In Kotlin
this is the function that the bridge of the destructor calls, so it depends on there being no other
bridge of the same name. -/
theorem handle_ends_alike {ctx : Context} (valid : ctx.api.validate (some ctx.types) = [])
    {handle : Handle} (declared : handle ∈ ctx.api.handles) : EndsAlike ctx handle := by
  have hconforms := conforms_of_validate valid
  have hends := endsThrough hconforms declared
  have hsymbol := destructorSymbol?_eq_find? hconforms handle.name
  constructor
  -- Constructed: the first interface that does it has the one destructor that all files call.
  · intro hconstructed
    obtain ⟨i, howner⟩ := Option.isSome_iff_exists.mp (List.find?_isSome.mpr hconstructed)
    obtain ⟨hi, hconstructs⟩ := mem_of_find?_constructs howner
    have hmem := destruction_mem_operations hconforms hi hconstructs
    rw [howner] at hends hsymbol
    obtain ⟨code, hemit, hprototype⟩ := exists_prototype hconforms
      (mem_operations_of_mem hi hmem) (Abi.signature_of_destructor
        (hconforms.handlesPascal handle declared) _)
    refine ⟨i, howner, hmem, hsymbol, hends, code, _, hemit, hprototype, ?_⟩
    have hvoid : " void " = " " ++ (Abi.Answer.void.c ++ " ") := rfl
    have htype : (Abi.ArgType.value (.handle handle.name)).c =
      Naming.handleToSnake handle.name ++ "_handle" := rfl
    have hclose : ");" = ")" ++ ";" := rfl
    have hnext : "_handle " = "_handle" ++ " " := rfl
    rw [join_lines_of_singleton _ _ _ rfl, Abi.Param.declaration, htype, hvoid, hclose, hnext]
    simp only [Abi.Signature.start, String.append_assoc]
  -- Never constructed: no interface is found, and nothing is called at the end.
  · intro hnone
    have howner : ctx.api.interfaces.find? (·.constructs handle.name) = none := by
      rw [List.find?_eq_none]
      intro i hi
      rw [hnone i hi]
      decide
    rw [howner] at hends hsymbol
    exact ⟨hsymbol, hends⟩

theorem handle_ends_alike_port :
    portContext.api.validate (some portContext.types) = [] ∧
      ⟨"Port", none⟩ ∈ portContext.api.handles ∧ ⟨"Cable", none⟩ ∈ portContext.api.handles ∧
      (∃ files, JavaScript.emit portContext = .ok files) ∧
      (∃ files, Swift.emit portContext = .ok files) ∧
      (∃ files, Kotlin.emit portContext = .ok files) ∧
      portContext.api.destructorSymbol? "Port" = some "demo_dock_destroy_port" ∧
      EndsAlike portContext ⟨"Port", none⟩ ∧ EndsAlike portContext ⟨"Cable", none⟩ := by
  have hvalid : portContext.api.validate (some portContext.types) = [] := by decide
  have hport : ⟨"Port", none⟩ ∈ portContext.api.handles := by decide
  have hcable : ⟨"Cable", none⟩ ∈ portContext.api.handles := by decide
  have hnames : Kotlin.Source.recordNames portContext = [] := by cbv
  have hkotlin : ∃ files, Kotlin.emit portContext = .ok files :=
    (Kotlin.succeeds_emit_iff (conforms_of_validate hvalid)).mpr
      (Kotlin.canExpress_of_recordNames hnames (List.forall_mem_nil _))
  exact ⟨hvalid, hport, hcable, exists_ok_of_isOk (by decide), exists_ok_of_isOk (by decide), hkotlin,
    by decide, handle_ends_alike hvalid hport, handle_ends_alike hvalid hcable⟩

/-- **A valid description in which it is open how the life of a handle ends.** The native function
that the class of the handle calls has two bridges in the C file. One calls the destructor, and the
other calls a method whose name is spelled like it. -/
theorem ambiguous_close_deck :
    Api.ofDocument tapeContext.api.toJson = .ok tapeContext.api ∧
      tapeContext.api.validate (some tapeContext.types) = [] ∧
      ⟨"Deck", none⟩ ∈ tapeContext.api.handles ∧
      tapeContext.api.destructorSymbol? "Deck" = some "demo_deck_destroy_deck" ∧
      ∃ source bridge : List Line,
        Kotlin.emit tapeContext = .ok [
          tapeContext.generatedFile (tapeContext.pascalApi ++ ".kt") Code.fourBlanks source,
          tapeContext.generatedFile (tapeContext.apiName ++ "_jni.c") Code.fourBlanks bridge] ∧
        (Kotlin.closesIn source).filter (·.1 = Kotlin.placeHead tapeContext (some "Deck")) =
          [(Kotlin.placeHead tapeContext (some "Deck"),
            Kotlin.closeText tapeContext (some "nativeDeckDestroyDeck"))] ∧
        ("Java_demo_Demo_nativeDeckDestroyDeck(JNIEnv *env, jobject thiz, jlong deck) \x7b",
          Code.lines ["(void)thiz;", "demo_deck_destroy_deck((deck_handle)(intptr_t)deck);"]) ∈
            Kotlin.bridgesIn bridge ∧
        ("Java_demo_Demo_nativeDeckDestroyDeck(JNIEnv *env, jobject thiz) \x7b",
          Code.lines ["(void)thiz;", "demo_deck_destroy__deck();"]) ∈ Kotlin.bridgesIn bridge := by
  have hconforms := conforms_of_validate validate_tape
  have hdeck : ⟨"Deck", none⟩ ∈ tapeContext.api.handles := by decide
  have hnames : Kotlin.Source.recordNames tapeContext = [] := by cbv
  obtain ⟨source, bridge, hsource, hbridge⟩ :=
    Kotlin.exists_files hconforms hnames (List.forall_mem_nil _)
  have hemit : Kotlin.emit tapeContext = .ok [
      tapeContext.generatedFile (tapeContext.pascalApi ++ ".kt") Code.fourBlanks
        (source.lines tapeContext),
      tapeContext.generatedFile (tapeContext.apiName ++ "_jni.c") Code.fourBlanks
        (bridge.lines tapeContext)] := by
    rw [Kotlin.emit, hsource, hbridge]
    rfl
  have hclose : Kotlin.HandleClass.closeOf tapeContext.api "Deck" = some "nativeDeckDestroyDeck" := by
    decide
  have hcloses := Kotlin.closes_of_handle hsource hconforms.handleNames hdeck
  rw [hclose] at hcloses
  -- the bridges of the destructor and of the method
  have hdestroys := (Kotlin.destructionBridge_mem hconforms hbridge (by decide : isPascalIdentifier "Deck")
    (by decide : deckInterface.destruction "Deck" ∈ _)).1
  obtain ⟨b, hb, hmade⟩ := exists_mem_of_forall₂ (Kotlin.forall₂_functions hbridge)
    (by decide : ⟨deckInterface, .method, { name := "destroy__deck" }⟩ ∈ tapeContext.api.operations)
  have hother : Kotlin.Bridge.ofOperation tapeContext
      ⟨deckInterface, .method, { name := "destroy__deck" }⟩ =
        .ok { symbol := "Java_demo_Demo_nativeDeckDestroyDeck", answer := "void", params := []
              setup := [], callee := "demo_deck_destroy__deck", args := [], cleanup := []
              outcome := .done } := by
    decide
  have hsame := Except.ok.inj (hother.symm.trans hmade.made)
  refine ⟨described_tape, validate_tape, hdeck, by decide, _, _, hemit, hcloses, ?_, ?_⟩
  · have hprinted : Kotlin.destructionBridge tapeContext (deckInterface.destruction "Deck") "Deck" =
        ("Java_demo_Demo_nativeDeckDestroyDeck(JNIEnv *env, jobject thiz, jlong deck) \x7b",
          Code.lines ["(void)thiz;", "demo_deck_destroy_deck((deck_handle)(intptr_t)deck);"]) := by
      decide
    rw [← hprinted]
    exact hdestroys
  · rw [Kotlin.bridgesIn_lines tapeContext (Kotlin.exists_symbol_eq hbridge)]
    exact List.mem_map.mpr ⟨b, hb, by rw [← hsame]; decide⟩

end Bindery
