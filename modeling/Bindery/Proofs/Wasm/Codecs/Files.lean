import Bindery.Emit.Go
import Bindery.Emit.JavaScript
import Bindery.Proofs.Wasm.Codecs

/-!
# Codecs in the two files

What touches a record is code in the end: two functions in the module in JavaScript and two in the
file of Go, one that reads the record and one that writes it. Here a touch is followed into that
code, down to the digits of its offsets.

* `JavaScriptPrints` — the entry of the object that is read, and the statements that write a field;
* `GoPrints` — the statements that read a field and those that write it;
* `javaScriptFunctions`, `goFunctions` — the functions around them;
* `InModule`, `InExports` — the functions of all records stand in the two files.

`codecs_agree` says that the functions of both sides are the code of the same touches. It does not
look at how large an offset is: where an offset is no word, both sides have the same wrong one.
-/

namespace Bindery

open JavaScript (Cell)
open Go (Value WasmAccess WasmCodec)

namespace Wasm

variable {types : Schema}

/-! ### One field -/

/-- An address at an offset, in print. -/
def address (base : String) (offset : Nat) : String :=
  if offset = 0 then base else base ++ " + " ++ toString offset

/-- **What JavaScript has for a touch**: the entry of the object that is read, and the statements
that write the field. The elements of a vector are left to a function of their address. -/
inductive JavaScriptPrints : Touch → String → List String → Prop where
  | plain {f load store : String} {offset : Nat} {s : Storage}
      (loads : JavaScriptLoads (address "ptr" offset) s load)
      (stores : JavaScriptStores (address "ptr" offset) ("value." ++ JavaScript.identifier f) s store) :
      JavaScriptPrints (.plain f offset s) (JavaScript.identifier f ++ ": " ++ load ++ ",") [store]
  | vector {f load store : String} {offset count stride : Nat} {s : Storage}
      (loads : JavaScriptLoads "p" s load) (stores : JavaScriptStores "p" "item" s store) :
      JavaScriptPrints (.vector f offset count stride s)
        (JavaScript.identifier f ++ ": _readArray(_view().getUint32(" ++ address "ptr" offset
          ++ ", true), _view().getUint32(" ++ address "ptr" count ++ ", true), " ++ toString stride
          ++ ", (p) => " ++ load ++ "),")
        ["_view().setUint32(" ++ address "ptr" offset ++ ", _writeArray(value."
            ++ JavaScript.identifier f ++ ", " ++ toString stride ++ ", (item, p) => \x7b " ++ store
            ++ " \x7d, allocs), true);",
          "_view().setUint32(" ++ address "ptr" count ++ ", value." ++ JavaScript.identifier f
            ++ "?.length ?? 0, true);"]

/-- **What Go has for a touch**: the lines that read the field, and the lines that write it. The
elements of a vector are `stride` bytes apart. -/
inductive GoPrints : Touch → List Line → List Line → Prop where
  | plain {f load store : String} {offset : Nat} {s : Storage}
      (loads : GoLoads (address "ptr" offset) s load)
      (stores : GoStores (address "ptr" offset) ("g." ++ Naming.pascalCase f) s store) :
      GoPrints (.plain f offset s) [{ text := "g." ++ Naming.pascalCase f ++ " = " ++ load }]
        [{ text := store }]
  | vector {f name type load store data words : String} {offset count stride : Nat} {s : Storage}
      (loads : GoLoads ("data + uintptr(i)*" ++ toString stride) s load)
      (stores : GoStores ("data + uintptr(i)*" ++ toString stride) "v" s store)
      (name_eq : name = "g." ++ Naming.pascalCase f)
      (data_eq : data = "*(*uint32)(unsafe.Pointer(" ++ address "ptr" offset ++ "))")
      (words_eq : words = "*(*uint32)(unsafe.Pointer(" ++ address "ptr" count ++ "))") :
      GoPrints (.vector f offset count stride s)
        [{ text := "if data, n := uintptr(" ++ data ++ "), int(" ++ words
            ++ "); data != 0 && n > 0" ++ " \x7b" },
          { depth := 1, text := name ++ " = make([]" ++ type ++ ", n)" },
          { depth := 1, text := "for i := range " ++ name ++ " \x7b" },
          { depth := 2, text := name ++ "[i] = " ++ load },
          { depth := 1, text := "\x7d" },
          { text := "\x7d" }]
        [{ text := "if n := len(" ++ name ++ "); n > 0" ++ " \x7b" },
          { depth := 1, text := "data := _retain(key, uint32(n*" ++ toString stride ++ "))" },
          { depth := 1, text := "for i, v := range " ++ name ++ " \x7b" },
          { depth := 2, text := store },
          { depth := 1, text := "\x7d" },
          { depth := 1, text := data ++ " = uint32(data)" },
          { depth := 1, text := words ++ " = uint32(n)" },
          { text := "\x7d else \x7b" },
          { depth := 1, text := data ++ " = 0" },
          { depth := 1, text := words ++ " = 0" },
          { text := "\x7d" }]

/-- **An access of JavaScript is printed as what it does.** -/
theorem JavaScriptPerforms.prints {t : Touch} {a : JavaScript.Access}
    (h : JavaScriptPerforms types t a) : JavaScriptPrints t a.readText a.writeText := by
  cases h with
  | @plain f offset s c holds =>
    exact .plain (holds.loads (address "ptr" offset))
      (holds.stores (address "ptr" offset) ("value." ++ JavaScript.identifier f))
  | vector holds => exact .vector (holds.loads "p") (holds.stores "p" "item")

/-- **An access of Go is printed as what it does.** -/
theorem GoPerforms.prints {t : Touch} {a : WasmAccess} (h : GoPerforms types t a) :
    GoPrints t a.readLines a.writeLines := by
  cases h with
  | @plain f offset s v holds =>
    exact .plain (holds.loads (address "ptr" offset))
      (holds.stores (address "ptr" offset) ("g." ++ Naming.pascalCase f))
  | @vector f offset count stride s v holds =>
    exact .vector (holds.loads ("data + uintptr(i)*" ++ toString stride))
      (holds.stores ("data + uintptr(i)*" ++ toString stride) "v") rfl rfl rfl

/-! ### One record -/

/-- **The functions of JavaScript for a record**: one that makes an object of its entries, and one
with all statements. -/
def javaScriptFunctions (record : String) (printed : List (String × List String)) : List Line :=
  let flat := Naming.flatTypeName record
  [{ text := "function _read" ++ flat ++ "(ptr)" ++ " \x7b" }, { depth := 1, text := "return \x7b" }]
    ++ printed.map (fun p => { depth := 2, text := p.1 })
    ++ [{ depth := 1, text := "\x7d;" }, { text := "\x7d" }, { text := "" },
      { text := "function _write" ++ flat ++ "(value, ptr, allocs)" ++ " \x7b" }]
    ++ printed.flatMap (fun p => p.2.map fun s => { depth := 1, text := s })
    ++ [{ text := "\x7d" }, { text := "" }]

/-- **The functions of Go for a record**: one that returns what it reads, and one that writes. -/
def goFunctions (record : String) (printed : List (List Line × List Line)) : List Line :=
  let flat := Naming.flatTypeName record
  [{ text := "func _read" ++ flat ++ "(ptr uintptr) " ++ flat ++ " \x7b" },
      { depth := 1, text := "var g " ++ flat }]
    ++ printed.flatMap (fun p => Code.indent p.1)
    ++ [{ depth := 1, text := "return g" }, { text := "\x7d" }, { text := "" },
      { text := "func _write" ++ flat ++ "(g " ++ flat ++ ", ptr uintptr, key uintptr)" ++ " \x7b" }]
    ++ printed.flatMap (fun p => Code.indent p.2)
    ++ [{ text := "\x7d" }, { text := "" }]

/-- **The code of JavaScript for some touches of a record.** -/
def JavaScriptCode (record : String) (touches : List Touch) (code : List Line) : Prop :=
  ∃ printed, List.Forall₂ (fun t p => JavaScriptPrints t p.1 p.2) touches printed ∧
    code = javaScriptFunctions record printed

/-- **The code of Go for some touches of a record**, in whatever order. -/
def GoCode (record : String) (touches : List Touch) (code : List Line) : Prop :=
  ∃ ordered printed, ordered.Perm touches ∧
    List.Forall₂ (fun t p => GoPrints t p.1 p.2) ordered printed ∧ code = goFunctions record printed

/-- A codec of JavaScript is the code of what it performs. -/
theorem javaScriptCode_of_performs {touches : List Touch} {c : JavaScript.Codec}
    (h : List.Forall₂ (JavaScriptPerforms types) touches c.accesses) :
    JavaScriptCode c.record touches c.lines := by
  refine ⟨c.accesses.map fun a => (a.readText, a.writeText), ?_, ?_⟩
  · exact List.forall₂_map_right_iff.mpr (h.imp fun t a hperforms => hperforms.prints)
  · rw [javaScriptFunctions, List.map_map, List.flatMap_map, JavaScript.Codec.lines]
    simp only [Code.block, Code.blockWith, Code.enclosed, Code.indent, Code.lines, List.map_append,
      List.map_cons, List.map_map, List.map_flatMap, List.map_nil, List.cons_append, List.append_assoc,
      List.nil_append]
    rfl

/-- A codec of Go is the code of what it performs. -/
theorem goCode_of_performs {touches : List Touch} {g : WasmCodec}
    (h : List.Forall₂ (GoPerforms types) touches g.accesses) : GoCode g.record touches g.lines := by
  -- Go puts the vectors last, so the touches are put in that order too
  obtain ⟨ordered, hordered, hperm⟩ := List.perm_comp_forall₂ (perm_ordered g) h.flip
  refine ⟨ordered, g.ordered.map fun a => (a.readLines, a.writeLines), hperm, ?_, ?_⟩
  · exact List.forall₂_map_right_iff.mpr (hordered.flip.imp fun t a hperforms => hperforms.prints)
  · rw [goFunctions, List.flatMap_map, List.flatMap_map, WasmCodec.lines]
    simp only [Code.block, Code.blockWith, Code.enclosed, Code.indent, Code.lines, List.map_append,
      List.map_cons, List.map_flatMap, List.map_nil, List.cons_append, List.append_assoc, List.nil_append]
    rfl

/-- **Both sides do the same** to a record with this layout and these fields. -/
structure SameCode (types : Schema) (name : String) (l : Abi.Layout) (fields : List Field)
    (touches : List (Option Touch)) (js go : List Line) : Prop where
  /-- Each field is touched at the slots with its names, or not at all. -/
  touched : List.Forall₂ (Touches types l) fields touches
  /-- The touches cover the fields that hold something. -/
  covers : (touches.filterMap id).map Touch.field = coveredNames types fields
  /-- JavaScript has code for what touches the fields, and no other. -/
  javaScript : JavaScriptCode name (touches.filterMap id) js
  /-- Go has code for what touches the fields, and no other. -/
  go : GoCode name (touches.filterMap id) go
  /-- If the slots have distinct names, each field is touched at its own. -/
  own : (l.slots.map fun s => s.name).Nodup →
    ∃ chunks, l.slots = chunks.flatten ∧ Abi.FieldSlots types fields chunks ∧
      List.Forall₂ OwnSlots chunks touches

/-! ### The files -/

/-- The functions of JavaScript that walk along a vector. -/
def arrayHelpers : List Line :=
  Code.lines ["function _readArray(ptr, count, stride, read) \x7b",
    "  const out = [];",
    "  if (ptr === 0) return out;",
    "  for (let i = 0; i < count; i++) out.push(read(ptr + i * stride));",
    "  return out;",
    "\x7d",
    "",
    "function _writeArray(items, stride, write, allocs) \x7b",
    "  if (!items || items.length === 0) return 0;",
    "  const ptr = _malloc(items.length * stride);",
    "  allocs.push(ptr);",
    "  items.forEach((item, i) => write(item, ptr + i * stride));",
    "  return ptr;",
    "\x7d"]

/-- **Lines that stand in the module** in JavaScript. -/
def InModule (ctx : Context) (lines : List Line) : Prop :=
  ∀ files, JavaScript.emit ctx = .ok files →
    ∃ code, files = [ctx.generatedFile (ctx.apiName ++ ".js") Code.twoBlanks code] ∧ lines <:+: code

/-- **Lines that stand in the file of exports** of Go. -/
def InExports (ctx : Context) (lines : List Line) : Prop :=
  ∀ files, Go.emitWasm ctx = .ok files →
    ∃ code, files = [ctx.generatedFile (ctx.apiName ++ "_wasm.go") Code.tab code] ∧ lines <:+: code

section Files

variable {ctx : Context}

/-- Every module has the functions that walk along vectors. -/
theorem arrayHelpers_inModule (ctx : Context) : InModule ctx arrayHelpers := by
  intro files hfiles
  obtain ⟨m, -, hfiles⟩ := bind_eq_ok_iff.mp hfiles
  refine ⟨_, (pure_eq_ok_iff.mp hfiles).symm, ?_⟩
  have hhelpers : arrayHelpers <:+: JavaScript.memoryHelpers := by decide +kernel
  rw [JavaScript.Module.lines]
  -- the helpers come first
  iterate 8 refine List.infix_append_of_infix_left ?_
  exact hhelpers

/-- A codec of the schema stands in the module. -/
theorem codec_inModule {js : List JavaScript.Codec} (hjs : JavaScript.Codec.all ctx.types = .ok js)
    {c : JavaScript.Codec} (hc : c ∈ js) : InModule ctx c.lines := by
  intro files hfiles
  obtain ⟨m, hm, hfiles⟩ := bind_eq_ok_iff.mp hfiles
  obtain ⟨codecs, hcodecs, hm'⟩ := bind_eq_ok_iff.mp hm
  obtain ⟨interfaces, -, hm'⟩ := bind_eq_ok_iff.mp hm'
  obtain rfl := pure_eq_ok_iff.mp hm'
  obtain rfl := Except.ok.inj (hjs.symm.trans hcodecs)
  refine ⟨_, (pure_eq_ok_iff.mp hfiles).symm, ?_⟩
  -- The codecs are printed one after another.
  have hlines : c.lines <:+: JavaScript.codecLines js := by
    have hne : js.isEmpty = false := List.isEmpty_eq_false_iff.mpr (List.ne_nil_of_mem hc)
    rw [JavaScript.codecLines, hne, if_neg Bool.false_ne_true, List.flatMap_def]
    exact List.infix_append_of_infix_right (List.infix_of_mem_flatten (List.mem_map_of_mem hc))
  rw [JavaScript.Module.lines]
  iterate 7 refine List.infix_append_of_infix_left ?_
  exact List.infix_append_of_infix_right hlines

/-- A codec of the schema stands in the file of exports. -/
theorem codec_inExports {go : List WasmCodec} (hgo : WasmCodec.all ctx.types = .ok go)
    {g : WasmCodec} (hg : g ∈ go) : InExports ctx g.lines := by
  intro files hfiles
  obtain ⟨f, hf, hfiles⟩ := bind_eq_ok_iff.mp hfiles
  obtain ⟨codecs, hcodecs, hf'⟩ := bind_eq_ok_iff.mp hf
  obtain ⟨interfaces, -, hf'⟩ := bind_eq_ok_iff.mp hf'
  obtain rfl := pure_eq_ok_iff.mp hf'
  obtain rfl := Except.ok.inj (hgo.symm.trans hcodecs)
  refine ⟨_, (pure_eq_ok_iff.mp hfiles).symm, ?_⟩
  rw [Go.WasmFile.lines]
  refine List.infix_append_of_infix_left (List.infix_append_of_infix_right ?_)
  rw [List.flatMap_def]
  exact List.infix_of_mem_flatten (List.mem_map_of_mem hg)

end Files

/-- **JavaScript and Go agree byte for byte.** Whenever both sides make their codecs, each
record has one on either side. Both are the code of the same touches, and stand in the two files. -/
theorem codecs_agree {types : Schema} {js : List JavaScript.Codec} {go : List WasmCodec}
    (hjs : JavaScript.Codec.all types = .ok js) (hgo : WasmCodec.all types = .ok go) :
    js.length = types.records.length ∧ go.length = types.records.length ∧
      List.Forall₂ (fun r cg => ∃ l touches, Abi.layout types r.1 = .ok l ∧
        SameCode types r.1 l r.2.fields touches cg.1.lines cg.2.lines ∧
        ∀ ctx : Context, ctx.types = types →
          InModule ctx arrayHelpers ∧ InModule ctx cg.1.lines ∧ InExports ctx cg.2.lines)
        types.records (js.zip go) := by
  have hcodecs := forall₂_javaScript hjs
  have hcodecs' := mapM_eq_ok_iff.mp hgo
  have hrecords : ∀ r ∈ types.records, types.get? r.1 = some r.2 :=
    fun r hr => (Schema.mem_records_iff.mp hr).1
  refine ⟨hcodecs.length_eq.symm, hcodecs'.length_eq.symm, ?_⟩
  have hmem : ∀ cg ∈ js.zip go, cg.1 ∈ js ∧ cg.2 ∈ go := fun cg hcg => List.of_mem_zip hcg
  -- a record, its definition, and both of its codecs, side by side
  have hboth := (List.forall₂_and_left _ _).mpr ⟨hrecords, forall₂_zip_right hcodecs hcodecs'⟩
  have hall := ((List.forall₂_and_left _ _).mpr ⟨hmem, hboth.flip⟩).flip
  refine hall.imp ?_
  rintro r ⟨c, g⟩ ⟨⟨hcmem, hgmem⟩, hd, ⟨l, hl, hc⟩, hg⟩
  obtain ⟨hname, hname', touches, hsame⟩ := exists_sameTouches hl hd hc hg
  have hcode := javaScriptCode_of_performs hsame.javaScript
  have hcode' := goCode_of_performs hsame.go
  rw [hname] at hcode
  rw [hname'] at hcode'
  refine ⟨l, touches, hl, ⟨hsame.touched, map_field_touches hsame.touched, hcode, hcode', hsame.own⟩, ?_⟩
  rintro ctx rfl
  exact ⟨arrayHelpers_inModule ctx, codec_inModule hjs hcmem, codec_inExports hgo hgmem⟩

/-- A schema with a record inside another, a vector of records and a reference to a name
that is not defined. -/
def strokeSchema : Schema :=
  ((Keyed.empty.insert "Ink" { kind := .enum }).insert
    "Dot" { kind := .struct, fields := [⟨"x", .primitive .int16⟩,
      ⟨"on", .primitive .bool⟩] }).insert
    "Stroke" { kind := .table, fields := [⟨"label", .string⟩, ⟨"ink", .named "Ink"⟩,
      ⟨"start", .named "Dot"⟩, ⟨"dots", .vector (.named "Dot")⟩, ⟨"brush", .named "Brush"⟩] }

theorem codecs_agree_strokeSchema :
    ∃ js go, JavaScript.Codec.all strokeSchema = .ok js ∧ WasmCodec.all strokeSchema = .ok go ∧
      js.length = 2 ∧ go.length = 2 ∧
      List.Forall₂ (fun r cg => ∃ l touches, Abi.layout strokeSchema r.1 = .ok l ∧
        SameCode strokeSchema r.1 l r.2.fields touches cg.1.lines cg.2.lines ∧
        ∀ ctx : Context, ctx.types = strokeSchema →
          InModule ctx arrayHelpers ∧ InModule ctx cg.1.lines ∧ InExports ctx cg.2.lines)
        strokeSchema.records (js.zip go) := by
  obtain ⟨js, hjs⟩ : ∃ js, JavaScript.Codec.all strokeSchema = .ok js :=
    exists_ok_of_isOk (by cbv)
  obtain ⟨go, hgo⟩ : ∃ go, WasmCodec.all strokeSchema = .ok go := exists_ok_of_isOk (by cbv)
  have hrecords : strokeSchema.records.length = 2 := by decide +kernel
  obtain ⟨hlength, hlength', hagree⟩ := codecs_agree hjs hgo
  exact ⟨js, go, hjs, hgo, hlength.trans hrecords, hlength'.trans hrecords, hagree⟩

end Wasm

end Bindery
