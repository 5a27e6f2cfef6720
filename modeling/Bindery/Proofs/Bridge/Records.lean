import Bindery.Proofs.Bridge.Called
import Bindery.Proofs.Names.Schema
import Bindery.Proofs.Natives

/-!
# The helpers of records

A record that crosses the bridge is built, filled or released by a helper, a function of C
that stands in front of the functions that the virtual machine calls. The file is made of what
comes before the helpers, the helpers, and what comes behind them (`BridgeFile.lines_eq`).

A helper goes through the fields of its record. For a field that is a record itself it calls
the helper of the same kind of that record; whatever else its lines call is foreign. This is
known line by line, and the lines of a body are put together as its fields are (`CallsOf`):

* `callsOf_toJavaField`, `callsOf_fieldRead`, `callsOf_releaseField` — what the lines for one
  field call;
* `callsOf_toJava`, `callsOf_reader`, `callsOf_releaser` — what the whole body calls.

A name with a parenthesis in it could spell out a call by itself, so names of fields are plain
here, and names of types are plain but for dots.
-/

namespace Bindery

open Relation
open Code (called)

namespace Kotlin

variable {ctx : Context}

/-! ### Helpers as functions -/

/-- What a helper does. -/
inductive HelperKind where
  | toJava | fromJava | release
deriving DecidableEq, Repr

/-- How the names of such helpers end. -/
def HelperKind.ending : HelperKind → String
  | toJava => "_to_java"
  | fromJava => "_from_java"
  | release => "_release"

/-- The helper of a record. -/
def helperName (kind : HelperKind) (record : String) : String :=
  Naming.flatTypeName record ++ kind.ending

/-- **A helper**: a function of C for one record. -/
structure Helper where
  kind : HelperKind
  record : String
  body : List Line
deriving DecidableEq, Repr

namespace Helper

def name (h : Helper) : String := helperName h.kind h.record

/-- The head of the definition: what is returned, the name, and the parameters. -/
def head (h : Helper) : String :=
  let c := Naming.cTypeName h.record
  match h.kind with
  | .toJava => "static jobject " ++ (h.name ++ ("(JNIEnv *env, const " ++ c ++ " *value)"))
  | .fromJava => "static void " ++ (h.name ++ ("(JNIEnv *env, jobject obj, " ++ c ++ " *out)"))
  | .release => "static void " ++ (h.name ++ ("(" ++ c ++ " *value)"))

/-- The lines of the definition. -/
def lines (h : Helper) : List Line := Code.block h.head h.body ++ [Line.blank]

/-- **The helper calls a function.** -/
def Calls (h : Helper) (name : String) : Prop := ∃ l ∈ h.body, name ∈ called l.text

end Helper

/-- The helper that builds an object. -/
def ToJava.helper (ctx : Context) (b : ToJava) : Helper where
  kind := .toJava
  record := b.record
  body := b.setup ++ Code.lines [
    "jclass cls = (*env)->FindClass(env, \"" ++ classPath ctx (Naming.flatTypeName b.record) ++ "\");",
    "jmethodID ctor = (*env)->GetMethodID(env, cls, \"<init>\", \"(" ++ String.join b.descriptors
      ++ ")V\");",
    "return (*env)->NewObject(" ++ Text.commaSep (["env", "cls", "ctor"] ++ b.args) ++ ");"]

/-- The helper that fills a record. -/
def FromJava.reader (r : FromJava) : Helper where
  kind := .fromJava
  record := r.record
  body := Code.lines ["memset(out, 0, sizeof *out);"]
    ++ Code.block "if (obj == NULL)" (Code.lines ["return;"])
    ++ Code.lines ["jclass cls = (*env)->GetObjectClass(env, obj);"]
    ++ r.reads.flatMap FieldRead.lines

/-- The helper that releases a record. -/
def FromJava.releaser (r : FromJava) : Helper where
  kind := .release
  record := r.record
  body := Code.lines (if r.releases.isEmpty then ["(void)value;"] else r.releases)

/-- **The helpers of the C file**, in the order in which they stand there. -/
def BridgeFile.helpers (ctx : Context) (f : BridgeFile) : List Helper :=
  f.builders.map (ToJava.helper ctx) ++ f.readers.flatMap fun r => [r.reader, r.releaser]

theorem lines_toJava (b : ToJava) : b.lines ctx = (b.helper ctx).lines := by
  have hhead : "_to_java(JNIEnv *env, const " = "_to_java" ++ "(JNIEnv *env, const " := rfl
  rw [ToJava.lines, hhead]
  simp only [Helper.lines, Helper.head, Helper.name, ToJava.helper, helperName, HelperKind.ending,
    String.append_assoc]

theorem lines_fromJava (r : FromJava) : r.lines = [r.reader, r.releaser].flatMap Helper.lines := by
  have hhead : "_from_java(JNIEnv *env, jobject obj, " =
      "_from_java" ++ "(JNIEnv *env, jobject obj, " := rfl
  have hhead' : "_release(" = "_release" ++ "(" := rfl
  rw [FromJava.lines, hhead, hhead']
  simp only [Helper.lines, Helper.head, Helper.name, FromJava.reader, FromJava.releaser, helperName,
    HelperKind.ending, String.append_assoc, List.flatMap_cons, List.flatMap_nil, List.append_assoc,
    List.append_nil]

/-- What stands in front of the helpers: what is included, and helpers that are the same in every
file. -/
def BridgeFile.beginning (ctx : Context) : List Line :=
  Code.lines ["#include <jni.h>", "#include <stdint.h>", "#include <stdlib.h>",
      "#include <string.h>", "#include \"" ++ ctx.apiName ++ ".h\"", ""]
    ++ (if throws ctx then throwHelper else [])
    ++ if (passedRecords ctx).any (hasText ctx) then copyStringHelper else []

/-- What stands behind the helpers: the functions that the virtual machine calls. -/
def BridgeFile.rest (f : BridgeFile) : List Line :=
  f.bridges.flatMap fun (i, bs) => Code.lines ["/* " ++ i.name ++ " */", ""] ++ bs.flatMap Bridge.lines

/-- **The C file is its helpers**, with something in front of them and behind them. -/
theorem BridgeFile.lines_eq (f : BridgeFile) :
    f.lines ctx = beginning ctx ++ (f.helpers ctx).flatMap Helper.lines ++ f.rest := by
  -- Builders have one function each, readers have one to read and one to release.
  have hbuilders : f.builders.flatMap (ToJava.lines ctx) =
      (f.builders.map (ToJava.helper ctx)).flatMap Helper.lines := by
    rw [List.flatMap_map]
    exact List.flatMap_congr fun b _ => lines_toJava b
  have hreaders : f.readers.flatMap FromJava.lines =
      (f.readers.flatMap fun r => [r.reader, r.releaser]).flatMap Helper.lines := by
    rw [List.flatMap_assoc]
    exact List.flatMap_congr fun r _ => lines_fromJava r
  rw [BridgeFile.lines, hbuilders, hreaders, helpers, List.flatMap_append]
  simp only [beginning, rest, List.append_assoc]

/-! ### What lines call of helpers -/

/-- **Of helpers the lines call those of these names**, all of them and no others. -/
structure CallsOf (ls : List Line) (names : List String) : Prop where
  only : ∀ l ∈ ls, ∀ name ∈ called l.text, Foreign name ∨ name ∈ names
  all : ∀ name ∈ names, ∃ l ∈ ls, name ∈ called l.text

namespace CallsOf

variable {ls ls' : List Line} {names names' : List String}

theorem none (h : Code.Each Harmless ls) : CallsOf ls [] where
  only l hl name hname := .inl (h l hl name hname)
  all := nofun

theorem append (h : CallsOf ls names) (h' : CallsOf ls' names') :
    CallsOf (ls ++ ls') (names ++ names') where
  only l hl name hname := by
    rcases List.mem_append.mp hl with hl | hl
    · exact (h.only l hl name hname).imp_right (List.mem_append_left _)
    · exact (h'.only l hl name hname).imp_right (List.mem_append_right _)
  all name hname := by
    rcases List.mem_append.mp hname with hname | hname
    · obtain ⟨l, hl, hcalls⟩ := h.all name hname
      exact ⟨l, List.mem_append_left _ hl, hcalls⟩
    · obtain ⟨l, hl, hcalls⟩ := h'.all name hname
      exact ⟨l, List.mem_append_right _ hl, hcalls⟩

theorem flatMap {α β : Type} {xs : List α} {ys : List β} {names : α → List String}
    {lines : β → List Line} (h : List.Forall₂ (fun x y => CallsOf (lines y) (names x)) xs ys) :
    CallsOf (ys.flatMap lines) (xs.flatMap names) := by
  induction h with
  | nil => exact none Code.each_nil
  | cons hxy _ ih => exact hxy.append ih

/-- A line with one call of a helper, among calls of other functions. -/
theorem call {before name behind : String} (hbefore : '(' ∉ before.toList)
    (hword : Code.wordAfter [] before.toList = []) (hname : IsWord name)
    (hbehind : Harmless behind) :
    CallsOf (Code.lines [before ++ (name ++ ("(" ++ behind))]) [name] where
  only l hl x hx := by
    obtain rfl := List.mem_singleton.mp hl
    rw [called_append_call hbefore hword hname] at hx
    rcases List.mem_cons.mp hx with rfl | hx
    · exact .inr (List.mem_singleton_self _)
    · exact .inl (hbehind x hx)
  all x hx := by
    obtain rfl := List.mem_singleton.mp hx
    refine ⟨_, List.mem_singleton_self _, ?_⟩
    rw [called_append_call hbefore hword hname]
    exact List.mem_cons_self

end CallsOf

/-! ### Fields -/

/-- The type that is taken for a record inside: the one that the field names, unless it is an
enumeration. -/
def inner? (ctx : Context) (f : Field) : Option String :=
  f.reference?.filter fun t => !ctx.isEnum t

/-- The helpers of the records inside. -/
def innerHelpers (ctx : Context) (kind : HelperKind) (f : Field) : List String :=
  (inner? ctx f).toList.map (helperName kind)

theorem innerHelpers_eq_nil {f : Field} (h : f.reference? = none) (kind : HelperKind) :
    innerHelpers ctx kind f = [] := by
  rw [innerHelpers, inner?, h]
  rfl

theorem innerHelpers_of_isEnum {f : Field} {t : String} (hf : f.type = .named t)
    (ht : ctx.isEnum t = true) (kind : HelperKind) : innerHelpers ctx kind f = [] := by
  rw [innerHelpers, inner?, Field.reference?_eq_some_iff.mpr hf]
  simp [ht]

theorem innerHelpers_of_not_isEnum {f : Field} {t : String} (hf : f.type = .named t)
    (ht : ctx.isEnum t = false) (kind : HelperKind) :
    innerHelpers ctx kind f = [helperName kind t] := by
  rw [innerHelpers, inner?, Field.reference?_eq_some_iff.mpr hf]
  simp [ht]

theorem isWord_row (p : Primitive) :
    IsWord p.row.c ∧ IsWord p.row.jni ∧ IsWord p.row.jniArray ∧ IsWord p.row.arrayAccessor := by
  cases p <;> decide

theorem isWord_helperName {record : String} (h : IsDotted record) (kind : HelperKind) :
    IsWord (helperName kind record) :=
  h.flatTypeName.isWord.append (by cases kind <;> decide)

/-- Reading a field of a record and passing it on. -/
theorem callsOf_toJavaField {record : String} {f : Field} {x : List Line × String}
    (named : f.WellNamed) (h : ToJava.field ctx record f = .ok x) :
    CallsOf x.1 (innerHelpers ctx .toJava f) ∧ Harmless x.2 := by
  have hn : Inert f.name := inert_of_isWord named.name.isWord
  unfold ToJava.field at h
  cases hf : f.type with
  | primitive p =>
    rw [hf] at h
    obtain rfl := Except.ok.inj h
    obtain ⟨-, hjni, -⟩ := isWord_row p
    rw [innerHelpers_eq_nil (by rw [Field.reference?, hf])]
    refine ⟨.none Code.each_nil, ?_⟩
    exact (((harmless_ofList _ rfl).append (inert_of_isWord hjni)).append (inert_ofList _ rfl)).append
      hn
  | string =>
    rw [hf] at h
    obtain rfl := Except.ok.inj h
    rw [innerHelpers_eq_nil (by rw [Field.reference?, hf])]
    refine ⟨.none ?_, ?_⟩
    · rw [Code.each_lines, List.forall_mem_singleton]
      with_reducible repeat' first
        | assumption | apply Harmless.append | exact harmless_ofList _ rfl
        | exact inert_ofList _ rfl
    · exact (harmless_ofList _ rfl).append hn
  | vector element =>
    rw [hf] at h
    cases element with
    | primitive p =>
      obtain rfl := Except.ok.inj h
      obtain ⟨-, hjni, harray, haccessor⟩ := isWord_row p
      have hjni' := inert_of_isWord hjni
      have harray' := inert_of_isWord harray
      have haccessor' := inert_of_isWord haccessor
      rw [innerHelpers_eq_nil (by rw [Field.reference?, hf])]
      refine ⟨.none ?_, (harmless_ofList _ rfl).append hn⟩
      simp only [Code.each_append, Code.each_block, Code.each_lines, List.forall_mem_singleton]
      with_reducible repeat' first
        | assumption | apply And.intro | apply Harmless.append | exact harmless_ofList _ rfl
        | exact inert_ofList _ rfl | exact Inert.harmless ‹_›
    | string | vector _ | named _ => cases h
  | named t =>
    rw [hf] at h
    dsimp only at h
    split at h
    · next ht =>
      obtain rfl := Except.ok.inj h
      rw [innerHelpers_of_isEnum hf ht]
      exact ⟨.none Code.each_nil, (harmless_ofList _ rfl).append hn⟩
    · next ht =>
      obtain rfl := Except.ok.inj h
      have ht' : ctx.isEnum t = false := by simpa using ht
      rw [innerHelpers_of_not_isEnum hf ht']
      refine ⟨?_, (harmless_ofList _ rfl).append hn⟩
      -- the line is cut where the name that it calls begins and where it ends
      have hsplit : "_to_java(env, &value->" = "_to_java" ++ ("(" ++ "env, &value->") := rfl
      have htext : "jobject j_" ++ f.name ++ " = " ++ Naming.flatTypeName t
            ++ "_to_java(env, &value->" ++ f.name ++ ");" =
          "jobject j_" ++ f.name ++ " = " ++ (helperName .toJava t ++
            ("(" ++ ("env, &value->" ++ f.name ++ ");"))) := by
        rw [hsplit]
        simp only [helperName, HelperKind.ending, String.append_assoc]
      rw [htext]
      refine .call ?_ ?_ (isWord_helperName (named.reference t hf) _) ?_
      · have hopen : '(' ∉ f.name.toList := named.name.isWord.not_mem rfl
        simp [hopen]
      · exact Sealed.append _ (sealed_ofList _ rfl) []
      · exact ((harmless_ofList _ rfl).append hn).append (inert_ofList _ rfl)

/-- A character is replaced by something else. -/
theorem not_mem_replaceChar {c d : Char} {text s : String} (hs : d ∉ s.toList)
    (htext : d ∉ text.toList) : d ∉ (Text.replaceChar c text s).toList := by
  rw [Text.replaceChar, Text.substitute, String.toList_ofList, List.mem_flatMap]
  rintro ⟨e, he, hd⟩
  split at hd
  · exact htext hd
  · obtain rfl : d = e := by simpa using hd
    exact hs he

theorem inert_classPath (api : IsWord ctx.apiName) {cls : String} (hcls : IsWord cls) :
    Inert (classPath ctx cls) := by
  have hpackage : '(' ∉ (package ctx).toList :=
    not_mem_replaceChar (api.not_mem rfl) (by decide)
  have hpath : Inert (Text.replaceChar '.' "/" (package ctx)) :=
    inert_of_not_mem (not_mem_replaceChar hpackage (by decide))
  exact (hpath.append (inert_ofList _ rfl)).append (inert_of_isWord hcls)

theorem inert_descriptor (p : Primitive) : Inert p.row.descriptor := by
  cases p <;> exact inert_ofList _ rfl

theorem inert_fieldDescriptor (api : IsWord ctx.apiName) {f : Field} (named : f.WellNamed)
    (typed : HasJvmType ctx.types f.type) : Inert (fieldDescriptor ctx f.type) := by
  cases hf : f.type with
  | primitive p => exact inert_descriptor p
  | string => exact inert_ofList _ rfl
  | vector element =>
    rw [hf] at typed
    cases element with
    | primitive p => exact (inert_ofList _ rfl).append (inert_descriptor p)
    -- The document's vectors hold scalars, the others have no type on the virtual machine.
    | string | vector _ | named _ => exact absurd typed id
  | named t =>
    -- Enums go as numbers; only a record has its class path in the descriptor.
    have hpath := inert_classPath api (named.reference t hf).flatTypeName.isWord
    rw [fieldDescriptor]
    split
    · exact inert_ofList _ rfl
    · exact ((inert_ofList _ rfl).append hpath).append (inert_ofList _ rfl)

/-- A dotted name in C. -/
theorem inert_cTypeName {record : String} (h : IsDotted record) :
    Inert (Naming.cTypeName record) := by
  refine inert_of_not_mem (not_mem_replaceChar (fun hmem => ?_) (by decide))
  exact absurd (h.all _ hmem) (by decide)

theorem harmless_lookup {r : FieldRead} (hproperty : Inert r.property)
    (hdescriptor : Inert r.descriptor) : Harmless r.lookup := by
  unfold FieldRead.lookup
  with_reducible repeat' first
    | assumption | apply Harmless.append | exact harmless_ofList _ rfl | exact inert_ofList _ rfl

/-- What is looked up begins with a parenthesis, so something sealed stands in front of it. -/
theorem harmless_around {before lookup behind : String} (hbefore : Harmless before)
    (hsealed : Sealed before) (hlookup : Harmless lookup) (hbehind : Inert behind) :
    Harmless (before ++ lookup ++ behind) :=
  (hbefore.append_sealed hsealed hlookup).append hbehind

/-- Copying an array. -/
theorem harmless_arrayLines {r : FieldRead} (p : Primitive) (hfield : Inert r.field)
    (hlookup : Harmless r.lookup) : Code.Each Harmless (FieldRead.arrayLines p r) := by
  obtain ⟨hc, hjni, harray, haccessor⟩ := isWord_row p
  have hc' := inert_of_isWord hc
  have hjni' := inert_of_isWord hjni
  have harray' := inert_of_isWord harray
  have haccessor' := inert_of_isWord haccessor
  rw [FieldRead.arrayLines]
  -- What a line adds around the lookup is fixed text or a word of the table.
  simp only [Code.each_append, Code.each_block, Code.each_lines, Code.each_enclosed,
    List.forall_mem_cons]
  with_reducible repeat' first
    | assumption | apply And.intro
    | refine harmless_around ?_ (Sealed.append _ (sealed_ofList _ rfl)) hlookup (inert_ofList _ rfl)
    | apply Harmless.append | exact harmless_ofList _ rfl | exact inert_ofList _ rfl
    | exact Inert.harmless ‹_› | exact List.forall_mem_nil _

/-- Filling a field that is no record. -/
theorem harmless_fieldRead {r : FieldRead} (hfield : Inert r.field) (hlookup : Harmless r.lookup)
    (henum : ∀ t, r.form = .enum t → Inert (Naming.cTypeName t))
    (hrecord : ∀ t, r.form ≠ .record t) : Code.Each Harmless r.lines := by
  have hout : Harmless ("out->" ++ r.field) := (harmless_ofList _ rfl).append hfield
  rw [FieldRead.lines]
  cases hform : r.form with
  | scalar p =>
    obtain ⟨hc, -, -, haccessor⟩ := isWord_row p
    have hc' := inert_of_isWord hc
    have haccessor' := inert_of_isWord haccessor
    -- Alike for all scalars: they differ in words of the table only.
    cases p
    all_goals
      dsimp only
      rw [Code.each_lines, List.forall_mem_singleton]
      refine harmless_around ?_ (Sealed.append _ (sealed_ofList _ rfl)) hlookup (inert_ofList _ rfl)
      with_reducible repeat' first
        | assumption | apply Harmless.append | exact inert_ofList _ rfl
  | text =>
    dsimp only
    rw [Code.each_lines, List.forall_mem_singleton]
    exact harmless_around (hout.append (inert_ofList _ rfl)) (.append _ (sealed_ofList _ rfl))
      hlookup (inert_ofList _ rfl)
  | array p => exact harmless_arrayLines p hfield hlookup
  | enum t =>
    dsimp only
    rw [Code.each_lines, List.forall_mem_singleton]
    refine harmless_around ?_ (.append _ (sealed_ofList _ rfl)) hlookup (inert_ofList _ rfl)
    exact ((hout.append (inert_ofList _ rfl)).append (henum t hform)).append (inert_ofList _ rfl)
  | record t => exact absurd hform (hrecord t)

/-- Filling a field that is a record. -/
theorem callsOf_recordRead {r : FieldRead} {t : String} (hform : r.form = .record t)
    (hfield : Inert r.field) (hlookup : Harmless r.lookup) (ht : IsDotted t) :
    CallsOf r.lines [helperName .fromJava t] := by
  -- The text is cut where the name of the called helper ends, so that the name is seen as the
  -- called word.
  have hsplit : "_from_java(env, (*env)->GetObjectField(env, obj, " =
      "_from_java" ++ ("(" ++ "env, (*env)->GetObjectField(env, obj, ") := rfl
  have htext : Naming.flatTypeName t ++ "_from_java(env, (*env)->GetObjectField(env, obj, "
        ++ r.lookup ++ "), &out->" ++ r.field ++ ");" =
      "" ++ (helperName .fromJava t ++ ("(" ++ ("env, (*env)->GetObjectField(env, obj, "
        ++ r.lookup ++ "), &out->" ++ r.field ++ ");"))) := by
    rw [hsplit]
    simp only [helperName, HelperKind.ending, String.append_assoc, String.empty_append]
  rw [FieldRead.lines, hform]
  dsimp only
  rw [htext]
  refine .call (by decide) rfl (isWord_helperName ht _) ?_
  refine ((harmless_around ?_ (sealed_ofList _ rfl) hlookup (inert_ofList _ rfl)).append
    hfield).append (inert_ofList _ rfl)
  exact harmless_ofList _ rfl

/-- Filling a field of a record. -/
theorem callsOf_fieldRead (api : IsWord ctx.apiName) {record : String} {f : Field} {r : FieldRead}
    (named : f.WellNamed) (typed : HasJvmType ctx.types f.type)
    (h : FieldRead.ofField ctx record f = .ok r) :
    CallsOf r.lines (innerHelpers ctx .fromJava f) := by
  obtain ⟨hname, hproperty, hdescriptor, hform⟩ :
      r.field = f.name ∧ r.property = Naming.camelCase f.name ∧
        r.descriptor = fieldDescriptor ctx f.type ∧
        FieldForm.ofType ctx record f.type = .ok r.form := by
    obtain ⟨form, hform, rfl⟩ := map_eq_ok_iff.mp h
    exact ⟨rfl, rfl, rfl, hform⟩
  have hfield : Inert r.field := by
    rw [hname]
    exact inert_of_isWord named.name.isWord
  have hlookup : Harmless r.lookup := by
    refine harmless_lookup ?_ ?_
    · rw [hproperty]
      exact inert_of_isWord named.name.isWord.camelCase
    · rw [hdescriptor]
      exact inert_fieldDescriptor api named typed
  -- only the name of a type that is no enumeration is taken for that of a record
  cases hf : f.type with
  | primitive p =>
    rw [hf] at hform
    have hform := Except.ok.inj hform
    rw [innerHelpers_eq_nil (by rw [Field.reference?, hf])]
    refine .none (harmless_fieldRead hfield hlookup ?_ ?_) <;> simp [← hform]
  | string =>
    rw [hf] at hform
    have hform := Except.ok.inj hform
    rw [innerHelpers_eq_nil (by rw [Field.reference?, hf])]
    refine .none (harmless_fieldRead hfield hlookup ?_ ?_) <;> simp [← hform]
  | vector element =>
    rw [hf] at hform
    cases element with
    | primitive p =>
      have hform := Except.ok.inj hform
      rw [innerHelpers_eq_nil (by rw [Field.reference?, hf])]
      refine .none (harmless_fieldRead hfield hlookup ?_ ?_) <;> simp [← hform]
    | string | vector _ | named _ => cases hform
  | named t =>
    rw [hf] at hform
    have hform := Except.ok.inj hform
    have ht := named.reference t hf
    cases henum : ctx.isEnum t with
    | true =>
      rw [henum, if_pos rfl] at hform
      rw [innerHelpers_of_isEnum hf henum]
      refine .none (harmless_fieldRead hfield hlookup ?_ ?_)
      · simpa [← hform] using inert_cTypeName ht
      · simp [← hform]
    | false =>
      rw [henum, if_neg Bool.false_ne_true] at hform
      rw [innerHelpers_of_not_isEnum hf henum]
      exact callsOf_recordRead hform.symm hfield hlookup ht

/-- Releasing a field of a record. -/
theorem callsOf_releaseField {f : Field} (named : f.WellNamed) :
    CallsOf (Code.lines (FromJava.releaseField ctx f).toList) (innerHelpers ctx .release f) := by
  have hn := inert_of_isWord named.name.isWord
  -- texts and elements are freed, and a record inside is left to its own helper
  have hfree : CallsOf (Code.lines ["free((void *)value->" ++ f.name ++ ");"]) [] := by
    refine .none ?_
    rw [Code.each_lines, List.forall_mem_singleton]
    exact ((harmless_ofList _ rfl).append hn).append (inert_ofList _ rfl)
  unfold FromJava.releaseField
  cases hf : f.type with
  | primitive p =>
    rw [innerHelpers_eq_nil (by rw [Field.reference?, hf])]
    exact .none Code.each_nil
  | string | vector element =>
    rw [innerHelpers_eq_nil (by rw [Field.reference?, hf])]
    exact hfree
  | named t =>
    dsimp only
    cases henum : ctx.isEnum t with
    | true =>
      rw [if_pos rfl, innerHelpers_of_isEnum hf henum]
      exact .none Code.each_nil
    | false =>
      have hsplit : "_release(&value->" = "_release" ++ ("(" ++ "&value->") := rfl
      have htext : Naming.flatTypeName t ++ "_release(&value->" ++ f.name ++ ");" =
          "" ++ (helperName .release t ++ ("(" ++ ("&value->" ++ f.name ++ ");"))) := by
        rw [hsplit]
        simp only [helperName, HelperKind.ending, String.append_assoc, String.empty_append]
      rw [if_neg Bool.false_ne_true, innerHelpers_of_not_isEnum hf henum, htext]
      refine .call (by decide) rfl (isWord_helperName (named.reference t hf) _) ?_
      exact ((harmless_ofList _ rfl).append hn).append (inert_ofList _ rfl)

/-! ### Bodies -/

section Bodies

variable {n : String} {d : TypeDef} (hd : ctx.typeDef n = .ok d)
  (named : ∀ f ∈ d.fields, f.WellNamed)

include hd named

/-- **The helper that builds an object** calls those that build the objects inside. -/
theorem callsOf_toJava (api : IsWord ctx.apiName) (hn : IsDotted n)
    (typed : ∀ f ∈ d.fields, HasJvmType ctx.types f.type) {b : ToJava}
    (hb : ToJava.ofRecord ctx n = .ok b) :
    CallsOf (b.helper ctx).body (d.fields.flatMap (innerHelpers ctx .toJava)) := by
  obtain ⟨d', hd', hb⟩ := bind_eq_ok_iff.mp hb
  obtain rfl := Except.ok.inj (hd.symm.trans hd')
  obtain ⟨fields, hfields, hb⟩ := bind_eq_ok_iff.mp hb
  obtain rfl := pure_eq_ok_iff.mp hb
  have hcalls : List.Forall₂ (fun f x => CallsOf x.1 (innerHelpers ctx .toJava f) ∧ Harmless x.2)
      d.fields fields :=
    forall₂_imp_of_mem (mapM_eq_ok_iff.mp hfields) fun f hf x hx =>
      callsOf_toJavaField (named f hf) hx
  -- what is called stands in the values of the fields, so the rest has to be harmless
  have hpath := inert_classPath api hn.flatTypeName.isWord
  have hdescriptors : Inert (String.join (d.fields.map fun f => fieldDescriptor ctx f.type)) := by
    refine inert_join fun s hs => ?_
    obtain ⟨f, hf, rfl⟩ := List.mem_map.mp hs
    exact inert_fieldDescriptor api (named f hf) (typed f hf)
  have hargs : Harmless (Text.commaSep (["env", "cls", "ctor"] ++ fields.map (·.2))) := by
    refine harmless_commaSep fun s hs => ?_
    rcases List.mem_append.mp hs with hs | hs
    · have hfixed : ∀ s ∈ ["env", "cls", "ctor"], IsWord s := by decide
      exact (inert_of_isWord (hfixed s hs)).harmless
    · obtain ⟨x, hx, rfl⟩ := List.mem_map.mp hs
      obtain ⟨f, -, -, hharmless⟩ := exists_mem_of_forall₂ hcalls.flip hx
      exact hharmless
  rw [← List.append_nil (d.fields.flatMap _)]
  refine (CallsOf.flatMap (hcalls.imp fun f x h => h.1)).append (.none ?_)
  rw [Code.each_lines, List.forall_mem_cons, List.forall_mem_cons, List.forall_mem_singleton]
  -- the class, the constructor and the new object
  refine ⟨?_, ?_, ?_⟩
  · exact ((harmless_ofList _ rfl).append hpath).append (inert_ofList _ rfl)
  · exact ((harmless_ofList _ rfl).append hdescriptors).append (inert_ofList _ rfl)
  · exact ((harmless_ofList _ rfl).append_sealed (sealed_ofList _ rfl) hargs).append
      (inert_ofList _ rfl)

/-- **The helper that fills a record** calls those that fill the records inside. -/
theorem callsOf_reader (api : IsWord ctx.apiName)
    (typed : ∀ f ∈ d.fields, HasJvmType ctx.types f.type) {r : FromJava}
    (hr : FromJava.ofRecord ctx n = .ok r) :
    CallsOf r.reader.body (d.fields.flatMap (innerHelpers ctx .fromJava)) := by
  obtain ⟨d', hd', hr⟩ := bind_eq_ok_iff.mp hr
  obtain rfl := Except.ok.inj (hd.symm.trans hd')
  obtain ⟨reads, hreads, hr⟩ := bind_eq_ok_iff.mp hr
  obtain rfl := pure_eq_ok_iff.mp hr
  have hcalls : List.Forall₂ (fun f r => CallsOf r.lines (innerHelpers ctx .fromJava f))
      d.fields reads :=
    forall₂_imp_of_mem (mapM_eq_ok_iff.mp hreads) fun f hf r hr =>
      callsOf_fieldRead api (named f hf) (typed f hf) hr
  -- The lines before the fields call nothing.
  rw [← List.nil_append (d.fields.flatMap _)]
  refine CallsOf.append (.none ?_) (.flatMap hcalls)
  simp only [Code.each_append, Code.each_block, Code.each_lines, List.forall_mem_singleton]
  exact ⟨⟨harmless_ofList _ rfl, (harmless_ofList _ rfl).append (inert_ofList _ rfl),
    harmless_ofList _ rfl, harmless_ofList _ rfl⟩, harmless_ofList _ rfl⟩

/-- **The helper that releases a record** calls those that release the records inside. -/
theorem callsOf_releaser {r : FromJava} (hr : FromJava.ofRecord ctx n = .ok r) :
    CallsOf r.releaser.body (d.fields.flatMap (innerHelpers ctx .release)) := by
  obtain ⟨d', hd', hr⟩ := bind_eq_ok_iff.mp hr
  obtain rfl := Except.ok.inj (hd.symm.trans hd')
  obtain ⟨reads, -, hr⟩ := bind_eq_ok_iff.mp hr
  obtain rfl := pure_eq_ok_iff.mp hr
  have hreleases : CallsOf (Code.lines (d.fields.filterMap (FromJava.releaseField ctx)))
      (d.fields.flatMap (innerHelpers ctx .release)) := by
    rw [List.filterMap_eq_flatMap_toList, Code.lines, List.map_flatMap]
    exact .flatMap (List.forall₂_same.mpr fun f hf => callsOf_releaseField (named f hf))
  rw [FromJava.releaser]
  dsimp only
  cases hempty : d.fields.filterMap (FromJava.releaseField ctx) with
  | nil =>
    -- nothing is released, so nothing is called
    rw [hempty] at hreleases
    have hnone : d.fields.flatMap (innerHelpers ctx .release) = [] :=
      List.eq_nil_iff_forall_not_mem.mpr fun name hname => by
        obtain ⟨l, hl, -⟩ := hreleases.all name hname
        cases hl
    rw [hnone]
    refine .none ?_
    rw [List.isEmpty_nil, if_pos rfl, Code.each_lines, List.forall_mem_singleton]
    exact harmless_ofList _ rfl
  | cons release releases =>
    rw [List.isEmpty_cons, if_neg Bool.false_ne_true, ← hempty]
    exact hreleases

end Bodies

end Kotlin

end Bindery
