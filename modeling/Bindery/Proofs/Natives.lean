import Bindery.Proofs.Coverage

/-!
# Native functions on both sides

A native function is written down twice, as a declaration in Kotlin and as a function in C.
The virtual machine connects the two by name, and no compiler compares their types. Data
classes cross the same gap: the bridge builds and reads their objects through descriptors,
which are only looked at while the program runs.

To compare the two sides, both are read as types of the virtual machine (`JavaType`). On the
C side such a type has a spelling and a descriptor. On the Kotlin side it has a name, which
stands for the class that the file declares under it, and for a built-in type only where
there is no such class (`Source.resolve`). Nothing keeps a record or a handle from having
the name of a built-in type:

* `Source.resolve_external` and `exists_resolve_fieldType` — if none has, the names in
  declarations and in data classes stand for what the bridge takes them for;
* `natives_agree` — names and numbers of parameters always agree, and then types do too, and
  data classes are built and read through their own descriptors;
* `hidden_textContext` — a record called `String`, whose objects the bridge cannot build.
-/

namespace Bindery.Kotlin

/-! ### Types of the virtual machine -/

/-- **A type of the Java virtual machine.** -/
inductive JavaType where
  | void | boolean | byte | short | int | long | float | double
  | string
  | object (path : String)
  | array (element : JavaType)
deriving DecidableEq, Repr

namespace JavaType

/-- The descriptor under which fields and methods are looked up. -/
def descriptor : JavaType → String
  | void => "V"
  | boolean => "Z"
  | byte => "B"
  | short => "S"
  | int => "I"
  | long => "J"
  | float => "F"
  | double => "D"
  | string => "Ljava/lang/String;"
  | object path => "L" ++ path ++ ";"
  | array element => "[" ++ element.descriptor

/-- The spelling in C. -/
def native : JavaType → String
  | void => "void"
  | boolean => "jboolean"
  | byte => "jbyte"
  | short => "jshort"
  | int => "jint"
  | long => "jlong"
  | float => "jfloat"
  | double => "jdouble"
  | string => "jstring"
  | object _ => "jobject"
  | array boolean => "jbooleanArray"
  | array byte => "jbyteArray"
  | array short => "jshortArray"
  | array int => "jintArray"
  | array long => "jlongArray"
  | array float => "jfloatArray"
  | array double => "jdoubleArray"
  | array _ => "jobjectArray"

/-- The names that Kotlin has for types of its own. -/
def builtin? : String → Option JavaType
  | "Unit" => some void
  | "Boolean" => some boolean
  | "Byte" => some byte
  | "Short" => some short
  | "Int" => some int
  | "Long" => some long
  | "Float" => some float
  | "Double" => some double
  | "String" => some string
  | "BooleanArray" => some (array boolean)
  | "ByteArray" => some (array byte)
  | "ShortArray" => some (array short)
  | "IntArray" => some (array int)
  | "LongArray" => some (array long)
  | "FloatArray" => some (array float)
  | "DoubleArray" => some (array double)
  | _ => none

/-- The type of a scalar. The sign is lost. -/
def ofPrimitive : Primitive → JavaType
  | .int8 | .uint8 => byte
  | .int16 | .uint16 => short
  | .int32 | .uint32 => int
  | .int64 | .uint64 => long
  | .float32 => float
  | .float64 => double
  | .bool => boolean

theorem builtin?_kotlin (p : Primitive) : builtin? p.row.kotlin = some (ofPrimitive p) := by
  cases p <;> rfl

theorem builtin?_kotlinArray (p : Primitive) :
    builtin? p.row.kotlinArray = some (array (ofPrimitive p)) := by
  cases p <;> rfl

theorem native_ofPrimitive (p : Primitive) : (ofPrimitive p).native = p.row.jni := by
  cases p <;> rfl

theorem native_array_ofPrimitive (p : Primitive) :
    (array (ofPrimitive p)).native = p.row.jniArray := by
  cases p <;> rfl

theorem descriptor_ofPrimitive (p : Primitive) : (ofPrimitive p).descriptor = p.row.descriptor := by
  cases p <;> rfl

end JavaType

variable {ctx : Context} {source : Source}

/-! ### What a name stands for -/

namespace Source

/-- The classes that the Kotlin file declares. -/
def classNames (ctx : Context) (source : Source) : List String :=
  source.errors.map exceptionName ++ source.records.map (·.name)
    ++ source.classes.map (·.handle.name) ++ [objectName ctx]

/-- **The type that a name stands for.** The classes of the file hide built-in types. -/
def resolve (ctx : Context) (source : Source) (name : String) : Option JavaType :=
  if name ∈ source.classNames ctx then some (.object (classPath ctx name))
  else JavaType.builtin? name

/-- **No built-in type is hidden by a class of the file.** -/
def Unhidden (ctx : Context) (source : Source) : Prop :=
  ∀ name ∈ source.classNames ctx, JavaType.builtin? name = none

theorem resolve_builtin (h : source.Unhidden ctx) {name : String} {t : JavaType}
    (ht : JavaType.builtin? name = some t) : source.resolve ctx name = some t := by
  have hname : name ∉ source.classNames ctx := by
    intro hmem
    rw [h name hmem] at ht
    cases ht
  rw [resolve, if_neg hname, ht]

end Source

/-- What a data class is made of. -/
theorem exists_of_dataClass {n : String} {c : DataClass} (h : DataClass.ofRecord ctx n = .ok c) :
    c.name = Naming.flatTypeName n ∧ ∃ d, ctx.typeDef n = .ok d ∧
      List.Forall₂ (fun f p => p.1 = identifier f.name ∧ fieldType ctx n f.type = .ok p.2)
        d.fields c.fields := by
  obtain ⟨d, hd, h⟩ := bind_eq_ok_iff.mp h
  obtain ⟨fields, hfields, h⟩ := bind_eq_ok_iff.mp h
  obtain rfl := pure_eq_ok_iff.mp h
  refine ⟨rfl, d, hd, (mapM_eq_ok_iff.mp hfields).imp fun f p hp => ?_⟩
  obtain ⟨ty, hty, hp⟩ := bind_eq_ok_iff.mp hp
  obtain rfl := pure_eq_ok_iff.mp hp
  dsimp only
  exact ⟨rfl, hty⟩

/-- **The names of the classes**, from the description: exceptions, records that cross,
handles and the object. -/
theorem Source.classNames_eq (hsource : Source.ofContext ctx = .ok source) :
    source.classNames ctx =
      ctx.api.errorTypes.map exceptionName ++ (recordNames ctx).map Naming.flatTypeName
        ++ ctx.api.handles.map (·.name) ++ [objectName ctx] := by
  obtain ⟨herrors, hrecords, hclasses, -⟩ := exists_of_source hsource
  have hrecordNames : source.records.map (·.name) = (recordNames ctx).map Naming.flatTypeName :=
    map_eq_map_of_forall₂ (mapM_eq_ok_iff.mp hrecords) fun n c hc => (exists_of_dataClass hc).1
  have hclassNames : source.classes.map (·.handle.name) = ctx.api.handles.map (·.name) :=
    map_eq_map_of_forall₂ (mapM_eq_ok_iff.mp hclasses) fun handle c hc =>
      congrArg Handle.name (exists_of_handleClass hc).1
  rw [classNames, herrors, hrecordNames, hclassNames]

/-- A record that crosses has a data class. -/
theorem exists_dataClass (hsource : Source.ofContext ctx = .ok source) {n : String}
    (hn : Crosses ctx n) : ∃ c ∈ source.records, DataClass.ofRecord ctx n = .ok c := by
  obtain ⟨-, hrecords, -, -⟩ := exists_of_source hsource
  exact exists_mem_of_forall₂ (mapM_eq_ok_iff.mp hrecords) (mem_recordNames_iff.mpr hn)

/-- The name of a record that crosses stands for its data class. -/
theorem Source.resolve_record (hsource : Source.ofContext ctx = .ok source) {n : String}
    (hn : Crosses ctx n) :
    source.resolve ctx (Naming.flatTypeName n) =
      some (.object (classPath ctx (Naming.flatTypeName n))) := by
  obtain ⟨c, hc, hmade⟩ := exists_dataClass hsource hn
  -- data classes stand behind exceptions and before handles
  have hname : Naming.flatTypeName n ∈ source.classNames ctx := by
    rw [← (exists_of_dataClass hmade).1]
    refine List.mem_append_left _ (List.mem_append_left _ (List.mem_append_right _ ?_))
    exact List.mem_map_of_mem hc
  rw [resolve, if_pos hname]

/-! ### Parameters -/

/-- The type on the virtual machine. -/
def JvmType.java (ctx : Context) : JvmType → JavaType
  | scalar p => .ofPrimitive p
  | text => .string
  | array p => .array (.ofPrimitive p)
  | handle _ => .long
  | enum _ => .int
  | record q => .object (classPath ctx (Naming.flatTypeName q))

theorem JvmType.native_java (t : JvmType) : (t.java ctx).native = t.jni := by
  cases t with
  | scalar p => exact JavaType.native_ofPrimitive p
  | array p => exact JavaType.native_array_ofPrimitive p
  | text | handle _ | enum _ | record _ => rfl

/-- **The name in a declaration stands for the type of the virtual machine.** -/
theorem Source.resolve_external (hsource : Source.ofContext ctx = .ok source)
    (hunhidden : source.Unhidden ctx) {t : JvmType} (ht : ∀ q, t = .record q → Crosses ctx q) :
    source.resolve ctx t.external = some (t.java ctx) := by
  cases t with
  | scalar p => exact resolve_builtin hunhidden (JavaType.builtin?_kotlin p)
  | array p => exact resolve_builtin hunhidden (JavaType.builtin?_kotlinArray p)
  | text | handle _ | enum _ => exact resolve_builtin hunhidden rfl
  | record q => exact resolve_record hsource (ht q rfl)

/-- A type that crosses as a record names one. -/
theorem qualified?_of_ofText_record {ty q : String} (h : JvmType.ofText ctx ty = .ok (.record q)) :
    Context.qualified? ty = some q ∧ ctx.types.isRecord q = true := by
  obtain ⟨form, hform, h⟩ := bind_eq_ok_iff.mp h
  -- Of the types only a name stands for a record, and the definition behind it tells.
  cases form with
  | string | buffer _ | handle _ | primitive _ => cases pure_eq_ok_iff.mp h
  | qualified name =>
    obtain ⟨d, hd, h⟩ := bind_eq_ok_iff.mp h
    split at h
    · cases pure_eq_ok_iff.mp h
    · split at h
      · next hrecord =>
        obtain rfl := JvmType.record.inj (pure_eq_ok_iff.mp h)
        refine ⟨?_, Schema.isRecord_iff.mpr ⟨d, typeDef_eq_ok_iff.mp hd, hrecord⟩⟩
        rw [Context.qualified?, classify_eq_ok_iff.mp hform]
        rfl
      · cases h

/-- An operation that mentions a schema type was written, as destructors mention none. -/
theorem mem_authored_of_qualified? {a : Api} {op : Operation} (hop : op ∈ a.operations)
    {ty q : String} (hty : ty ∈ Context.mentionedTypes op.method)
    (hq : Context.qualified? ty = some q) : op.method ∈ a.authored := by
  obtain ⟨i, hi, hop⟩ := List.mem_flatMap.mp hop
  refine List.mem_flatMap.mpr ⟨i, hi, List.mem_append.mpr ?_⟩
  rcases mem_operations_iff.mp hop with ⟨c, hc, rfl⟩ | ⟨handle, -, rfl⟩ | ⟨m, hm, rfl⟩
  · exact .inl hc
  · -- all that a destructor mentions is its handle
    obtain rfl : ty = "handle:" ++ handle := by
      simpa [Context.mentionedTypes, Interface.destructorOf, Method.returnType?] using hty
    rw [Context.qualified?, TypeRef.ofString?_handle] at hq
    split at hq <;> cases hq
  · exact .inr hm

/-- A record that an operation takes or returns crosses. -/
theorem crosses_of_ofText {op : Operation} (hop : op ∈ ctx.api.operations) {ty : String}
    (hty : ty ∈ Context.mentionedTypes op.method) {t : JvmType}
    (ht : JvmType.ofText ctx ty = .ok t) (q : String) (hrecord : t = .record q) :
    Crosses ctx q := by
  subst hrecord
  obtain ⟨hq, hisRecord⟩ := qualified?_of_ofText_record ht
  exact ⟨hisRecord, op.method, mem_authored_of_qualified? hop hty hq, ty, hty, q, hq, .refl⟩

theorem exists_of_ofReturn {m : Method} {t : JvmType}
    (h : JvmType.ofReturn ctx m = .ok (some t)) :
    ∃ r, m.returns = some r ∧ JvmType.ofText ctx r.type = .ok t := by
  unfold JvmType.ofReturn at h
  split at h
  · cases h
  · next r hreturns =>
    obtain ⟨t', ht', heq⟩ := map_eq_ok_iff.mp h
    obtain rfl := Option.some.inj heq
    exact ⟨r, hreturns, ht'⟩

theorem crosses_of_ofReturn {op : Operation} (hop : op ∈ ctx.api.operations) {t : JvmType}
    (h : JvmType.ofReturn ctx op.method = .ok (some t)) : ∀ q, t = .record q → Crosses ctx q := by
  obtain ⟨r, hreturns, ht⟩ := exists_of_ofReturn h
  have hty : r.type ∈ Context.mentionedTypes op.method := by
    simp [Context.mentionedTypes, Method.returnType?, hreturns]
  exact crosses_of_ofText hop hty ht

/-! ### Results -/

/-- Whether a value crosses as an object of a data class. -/
def JvmType.isRecord : JvmType → Bool
  | record _ => true
  | _ => false

/-- **The type of what a native function returns.** A result that may fail to come is the
second element of an array, unless it is a record. -/
def answerJava (ctx : Context) (fallible : Bool) : Option JvmType → JavaType
  | none => if fallible then .int else .void
  | some t => if fallible && !t.isRecord then .array .long else t.java ctx

/-- The result of a declaration. -/
theorem answerType_external (fallible : Bool) (t : JvmType) :
    ExternalFun.answerType fallible (some t) =
      if fallible && !t.isRecord then "LongArray" else t.external := by
  cases t <;> cases fallible <;> rfl

/-- The result of a bridge. -/
theorem answerType_bridge (fallible : Bool) (t : JvmType) :
    Bridge.answerType fallible (some t) =
      if fallible && !t.isRecord then "jlongArray" else t.jni := by
  cases t <;> cases fallible <;> rfl

theorem native_answerJava (fallible : Bool) (ret : Option JvmType) :
    (answerJava ctx fallible ret).native = Bridge.answerType fallible ret := by
  cases ret with
  | none => cases fallible <;> rfl
  | some t =>
    rw [answerJava, answerType_bridge]
    split
    · rfl
    · exact t.native_java

/-- **The result in a declaration stands for the type of the virtual machine.** -/
theorem Source.resolve_answerType (hsource : Source.ofContext ctx = .ok source)
    (hunhidden : source.Unhidden ctx) {ret : Option JvmType}
    (hret : ∀ t, ret = some t → ∀ q, t = .record q → Crosses ctx q) (fallible : Bool) :
    source.resolve ctx (ExternalFun.answerType fallible ret) =
      some (answerJava ctx fallible ret) := by
  cases ret with
  | none => cases fallible <;> exact resolve_builtin hunhidden rfl
  | some t =>
    rw [answerJava, answerType_external]
    split
    · exact resolve_builtin hunhidden rfl
    · exact resolve_external hsource hunhidden (hret t rfl)

/-- Whether a wrapper takes a pair of status and payload apart. -/
def Outcome.isPair : Outcome → Bool
  | .pair _ _ => true
  | _ => false

theorem isPair_of_outcomeOf {error : Option String} {t : JvmType} {outcome : Outcome}
    (h : Wrapper.outcomeOf error (some t) = .ok outcome) :
    outcome.isPair = (error.isSome && !t.isRecord) := by
  -- Only a record comes back as it is; everything else is paired with the error.
  cases t with
  | record q => cases error <;> cases h <;> rfl
  | scalar _ | text | array _ | handle _ | enum _ =>
    cases error with
    | none =>
      cases h
      rfl
    | some e =>
      unfold Wrapper.outcomeOf at h
      obtain ⟨payload, -, rfl⟩ := map_eq_ok_iff.mp h
      rfl

/-- A result as it is is no array. -/
theorem java_ne_array {t : JvmType} (ht : IsResult t) (element : JavaType) :
    t.java ctx ≠ .array element := by
  cases t with
  | text | array _ => exact ht.elim
  | handle _ | enum _ | record _ => exact nofun
  | scalar p => cases p <;> exact nofun

/-- **A wrapper takes a pair apart exactly when an array of two comes back.** -/
theorem isPair_iff {error : Option String} {ret : Option JvmType}
    (hret : ∀ t, ret = some t → IsResult t) {outcome : Outcome}
    (h : Wrapper.outcomeOf error ret = .ok outcome) :
    outcome.isPair = true ↔ answerJava ctx error.isSome ret = .array .long := by
  cases ret with
  | none => cases error <;> cases h <;> exact iff_of_false nofun nofun
  | some t =>
    rw [isPair_of_outcomeOf h, answerJava]
    split
    · next hpair => exact iff_of_true hpair rfl
    · next hpair => exact iff_of_false hpair (java_ne_array (hret t rfl) .long)

/-- A value of the C interface is no text and no array. -/
theorem isResult_of_valueType {ty : String} {v : Abi.ValueType}
    (hv : Abi.ValueType.ofText ty = .ok v) {t : JvmType} (ht : JvmType.ofText ctx ty = .ok t) :
    IsResult t := by
  obtain ⟨form, hform, -⟩ := bind_eq_ok_iff.mp ht
  rw [Abi.ValueType.ofText, classify_eq_ok_iff.mp hform] at hv
  refine isResult_of_ofText hform ?_ ?_ ht
  · rintro rfl
    cases hv
  · rintro element rfl
    cases hv

/-- What an operation with a bridge returns is a result. -/
theorem isResult_of_bridge {op : Operation} {b : Bridge} (hb : Bridge.ofOperation ctx op = .ok b)
    {t : JvmType} (h : JvmType.ofReturn ctx op.method = .ok (some t)) : IsResult t := by
  obtain ⟨r, hreturns, ht⟩ := exists_of_ofReturn h
  obtain ⟨s, hs, -⟩ := supplies_of_bridge hb
  obtain ⟨-, -, hends⟩ := Abi.exists_of_ofMethod hs
  -- with a status or without one, the result is a value of the C interface
  obtain ⟨v, hv⟩ : ∃ v, Abi.ValueType.ofText r.type = .ok v := by
    rw [Abi.Ends, hreturns] at hends
    cases herror : op.method.error with
    | none =>
      rw [herror] at hends
      exact hends.imp fun v hv => hv.1
    | some e =>
      rw [herror] at hends
      exact hends.imp fun v hv => hv.1
  exact isResult_of_valueType hv ht

/-! ### Both sides of a native function -/

/-- The name in Kotlin and the spelling in C stand for the same type. -/
def Corresponds (ctx : Context) (source : Source) (kotlin c : String) : Prop :=
  ∃ t, source.resolve ctx kotlin = some t ∧ t.native = c

/-- **The two sides of a native function**: they have the same name for the virtual machine
and the same number of parameters. -/
structure Paired (ctx : Context) (op : Operation) (e : ExternalFun) (b : Bridge) : Prop where
  declares : Declares ctx op e
  bridges : Bridges ctx op b
  symbol : b.symbol = Naming.jniSymbol (package ctx) (objectName ctx) e.name
  arity : b.params.length = e.params.length

/-- **The two sides agree on types**, and the wrappers of the operation take the result for
what it is. -/
structure Typed (ctx : Context) (source : Source) (op : Operation) (e : ExternalFun)
    (b : Bridge) : Prop where
  params : List.Forall₂ (Corresponds ctx source) (e.params.map (·.2)) (b.params.map (·.1))
  answer : Corresponds ctx source e.answer b.answer
  decodes : ∀ onHandle w, Wrapper.ofOperation ctx onHandle op = .ok w →
    (w.outcome.isPair = true ↔ source.resolve ctx e.answer = some (.array .long))

theorem paired_of_made {op : Operation} {e : ExternalFun} {b : Bridge} (he : Declares ctx op e)
    (hb : Bridges ctx op b) : Paired ctx op e b := by
  refine ⟨he, hb, ?_, ?_⟩
  · rw [hb.symbol, he.name]
    rfl
  · obtain ⟨-, hparams, -⟩ := exists_of_external he.made
    obtain ⟨-, hparams', -⟩ := exists_of_bridge hb.made
    exact hparams'.length_eq.symm.trans hparams.length_eq

/-- What the parameters and the result of an operation stand for. -/
theorem typed_of_made (hsource : Source.ofContext ctx = .ok source)
    (hunhidden : source.Unhidden ctx) {op : Operation} (hop : op ∈ ctx.api.operations)
    {e : ExternalFun} {b : Bridge} (he : Declares ctx op e) (hb : Bridges ctx op b) :
    Typed ctx source op e b := by
  obtain ⟨-, hparams, ret, hret, hanswer⟩ := exists_of_external he.made
  obtain ⟨-, hparams', ret', hret', hanswer'⟩ := exists_of_bridge hb.made
  -- both sides start from the same result
  obtain rfl := Except.ok.inj (hret.symm.trans hret')
  have hresolve := Source.resolve_answerType hsource hunhidden
    (fun t ht => crosses_of_ofReturn hop (ht ▸ hret)) op.method.isFallible
  rw [← hanswer] at hresolve
  refine ⟨?_, ⟨_, hresolve, ?_⟩, fun onHandle w hw => ?_⟩
  · rw [List.forall₂_map_left_iff, List.forall₂_map_right_iff]
    refine forall₂_of_common hparams hparams' ?_
    rintro p hp _ _ ⟨t, ht, rfl⟩ ⟨t', ht', rfl⟩
    obtain rfl := Except.ok.inj (ht.symm.trans ht')
    have hty : p.type ∈ Context.mentionedTypes op.method :=
      List.mem_append_left _ (List.mem_map_of_mem hp)
    exact ⟨t.java ctx, Source.resolve_external hsource hunhidden (crosses_of_ofText hop hty ht),
      t.native_java⟩
  · rw [native_answerJava, hanswer']
  · obtain ⟨-, ret'', hret'', houtcome⟩ := exists_of_wrapper hw
    obtain rfl := Except.ok.inj (hret.symm.trans hret'')
    rw [hresolve, Option.some.injEq]
    exact isPair_iff (fun t ht => isResult_of_bridge hb.made (ht ▸ hret)) houtcome

/-! ### Data classes -/

/-- A record inside a record that crosses crosses with it. -/
theorem crosses_of_field {n m : String} (hn : Crosses ctx n) {d : TypeDef}
    (hd : ctx.typeDef n = .ok d) {f : Field} (hf : f ∈ d.fields) (hfield : f.type = .named m)
    (hm : ctx.types.isRecord m = true) : Crosses ctx m := by
  obtain ⟨hrecord, method, hmethod, ty, hty, root, hroot, hpath⟩ := hn
  have hget := typeDef_eq_ok_iff.mp hd
  obtain ⟨d', hget', hisRecord⟩ := Schema.isRecord_iff.mp hrecord
  obtain rfl := Option.some.inj (hget.symm.trans hget')
  have hmem : m ∈ d.fields.filterMap Field.reference? :=
    List.mem_filterMap.mpr ⟨f, hf, Field.reference?_eq_some_iff.mpr hfield⟩
  exact ⟨hm, method, hmethod, ty, hty, root, hroot, hpath.tail ⟨d, hget, hisRecord, hmem, hm⟩⟩

/-- **The name of a field's type stands for what its descriptor says.** -/
theorem exists_resolve_fieldType (hsource : Source.ofContext ctx = .ok source)
    (hunhidden : source.Unhidden ctx) {n : String} (hn : Crosses ctx n) {d : TypeDef}
    (hd : ctx.typeDef n = .ok d) {f : Field} (hf : f ∈ d.fields) {ty : String}
    (hty : fieldType ctx n f.type = .ok ty) :
    ∃ t, source.resolve ctx ty = some t ∧ t.descriptor = fieldDescriptor ctx f.type := by
  -- the name and the descriptor are written by the same cases
  cases htype : f.type with
  | primitive p =>
    rw [htype] at hty
    obtain rfl := Except.ok.inj hty
    exact ⟨.ofPrimitive p, Source.resolve_builtin hunhidden (JavaType.builtin?_kotlin p),
      JavaType.descriptor_ofPrimitive p⟩
  | string =>
    rw [htype] at hty
    obtain rfl := Except.ok.inj hty
    exact ⟨.string, Source.resolve_builtin hunhidden rfl, rfl⟩
  | vector element =>
    rw [htype] at hty
    -- only vectors of scalars have a type
    cases element with
    | primitive p =>
      obtain rfl := Except.ok.inj hty
      refine ⟨.array (.ofPrimitive p),
        Source.resolve_builtin hunhidden (JavaType.builtin?_kotlinArray p), ?_⟩
      rw [JavaType.descriptor, JavaType.descriptor_ofPrimitive]
      rfl
    | string | vector _ | named _ => cases hty
  | named m =>
    rw [htype, fieldType] at hty
    rw [fieldDescriptor]
    -- an enumeration is a number, a record has a class of its own
    split at hty
    · next henum =>
      obtain rfl := Except.ok.inj hty
      rw [if_pos henum]
      exact ⟨.int, Source.resolve_builtin hunhidden rfl, rfl⟩
    · next henum =>
      split at hty
      · next hrecord =>
        obtain rfl := Except.ok.inj hty
        have hcrosses := crosses_of_field hn hd hf htype hrecord
        rw [if_neg henum]
        exact ⟨_, Source.resolve_record hsource hcrosses, rfl⟩
      · cases hty

/-- The descriptor of the constructor of a data class. -/
def DataClass.constructor? (ctx : Context) (source : Source) (c : DataClass) : Option String :=
  (c.fields.mapM fun p => source.resolve ctx p.2).map fun types =>
    "(" ++ String.join (types.map (·.descriptor)) ++ ")V"

theorem exists_mapM_resolve {properties : List (String × String)} {descriptors : List String}
    (h : List.Forall₂ (fun p descriptor => ∃ t, source.resolve ctx p.2 = some t ∧
      t.descriptor = descriptor) properties descriptors) :
    ∃ types, properties.mapM (fun p => source.resolve ctx p.2) = some types ∧
      types.map (·.descriptor) = descriptors := by
  induction h with
  | nil => exact ⟨[], rfl, rfl⟩
  | cons hproperty _ ih =>
    obtain ⟨t, ht, rfl⟩ := hproperty
    obtain ⟨types, htypes, rfl⟩ := ih
    refine ⟨t :: types, ?_, rfl⟩
    rw [List.mapM_cons, ht, htypes]
    rfl

/-- What the helper that builds objects of a record is made of. -/
theorem exists_of_toJava {n : String} {h : ToJava} (hmade : ToJava.ofRecord ctx n = .ok h) :
    h.record = n ∧ ∃ d, ctx.typeDef n = .ok d ∧
      h.descriptors = d.fields.map fun f => fieldDescriptor ctx f.type := by
  obtain ⟨d, hd, hmade⟩ := bind_eq_ok_iff.mp hmade
  obtain ⟨fields, -, hmade⟩ := bind_eq_ok_iff.mp hmade
  obtain rfl := pure_eq_ok_iff.mp hmade
  exact ⟨rfl, d, hd, rfl⟩

/-- What the helper that reads objects of a record is made of. -/
theorem exists_of_fromJava {n : String} {h : FromJava} (hmade : FromJava.ofRecord ctx n = .ok h) :
    h.record = n ∧ ∃ d, ctx.typeDef n = .ok d ∧
      List.Forall₂ (fun f r => r.field = f.name ∧ r.property = Naming.camelCase f.name ∧
        r.descriptor = fieldDescriptor ctx f.type) d.fields h.reads := by
  obtain ⟨d, hd, hmade⟩ := bind_eq_ok_iff.mp hmade
  obtain ⟨reads, hreads, hmade⟩ := bind_eq_ok_iff.mp hmade
  obtain rfl := pure_eq_ok_iff.mp hmade
  refine ⟨rfl, d, hd, (mapM_eq_ok_iff.mp hreads).imp fun f r hr => ?_⟩
  obtain ⟨form, -, rfl⟩ := map_eq_ok_iff.mp hr
  dsimp only
  exact ⟨rfl, rfl, rfl⟩

/-- **The bridge reads a property of a data class**: the one of the field that it fills,
under its name and with its descriptor. -/
structure ReadsProperty (ctx : Context) (source : Source) (property : String × String)
    (r : FieldRead) : Prop where
  field : property.1 = identifier r.field
  /-- The name in Kotlin may stand between backticks. -/
  name : property.1 = r.property ∨ property.1 = "`" ++ r.property ++ "`"
  descriptor : ∃ t, source.resolve ctx property.2 = some t ∧ t.descriptor = r.descriptor

theorem identifier_eq_or (name : String) :
    identifier name = Naming.camelCase name ∨
      identifier name = "`" ++ Naming.camelCase name ++ "`" := by
  rw [identifier]
  split
  · exact .inr rfl
  · exact .inl rfl

/-- A record that is built is built through the constructor of its data class. -/
theorem constructor?_of_builder (hsource : Source.ofContext ctx = .ok source)
    (hunhidden : source.Unhidden ctx) {n : String} (hn : Crosses ctx n) {c : DataClass}
    (hclass : DataClass.ofRecord ctx n = .ok c) {h : ToJava}
    (hmade : ToJava.ofRecord ctx n = .ok h) :
    c.constructor? ctx source = some ("(" ++ String.join h.descriptors ++ ")V") := by
  obtain ⟨-, d, hd, hfields⟩ := exists_of_dataClass hclass
  obtain ⟨-, d', hd', hdescriptors⟩ := exists_of_toJava hmade
  -- The types of the constructor and the descriptors come from the same fields.
  obtain rfl := Except.ok.inj (hd.symm.trans hd')
  have htypes : List.Forall₂ (fun p descriptor => ∃ t, source.resolve ctx p.2 = some t ∧
      t.descriptor = descriptor) c.fields h.descriptors := by
    rw [hdescriptors, List.forall₂_map_right_iff]
    refine (forall₂_imp_of_mem hfields fun f hf p hp => ?_).flip
    exact exists_resolve_fieldType hsource hunhidden hn hd hf hp.2
  obtain ⟨types, hmapM, heq⟩ := exists_mapM_resolve htypes
  rw [DataClass.constructor?, hmapM, ← heq]
  rfl

/-- A record that is read is read property by property. -/
theorem readsProperties_of_reader (hsource : Source.ofContext ctx = .ok source)
    (hunhidden : source.Unhidden ctx) {n : String} (hn : Crosses ctx n) {c : DataClass}
    (hclass : DataClass.ofRecord ctx n = .ok c) {h : FromJava}
    (hmade : FromJava.ofRecord ctx n = .ok h) :
    List.Forall₂ (ReadsProperty ctx source) c.fields h.reads := by
  obtain ⟨-, d, hd, hfields⟩ := exists_of_dataClass hclass
  obtain ⟨-, d', hd', hreads⟩ := exists_of_fromJava hmade
  obtain rfl := Except.ok.inj (hd.symm.trans hd')
  -- Each property was made of the field that it is read for.
  refine forall₂_of_common hfields hreads ?_
  rintro f hf p r ⟨hidentifier, hty⟩ ⟨hfield, hproperty, hdescriptor⟩
  refine ⟨by rw [hidentifier, hfield], ?_, ?_⟩
  · rw [hidentifier, hproperty]
    exact identifier_eq_or f.name
  · rw [hdescriptor]
    exact exists_resolve_fieldType hsource hunhidden hn hd hf hty

/-! ### Both files -/

/-- **The Kotlin file and the C file fit each other.** -/
structure FilesAgree (ctx : Context) (source : Source) (file : BridgeFile) : Prop where
  /-- Each operation has a declaration and a bridge behind it. -/
  operations : ∀ op ∈ ctx.api.operations, ∃ e ∈ source.object.externals, ∃ b ∈ file.functions,
    Paired ctx op e b ∧ (source.Unhidden ctx → Typed ctx source op e b)
  /-- Each record that is built has a data class, and the constructor that is looked up is
  the one of the class. -/
  builders : ∀ h ∈ file.builders, ∃ c ∈ source.records, DataClass.ofRecord ctx h.record = .ok c ∧
    (source.Unhidden ctx →
      c.constructor? ctx source = some ("(" ++ String.join h.descriptors ++ ")V"))
  /-- Each record that is read has a data class, and what is looked up are the properties of
  the class. -/
  readers : ∀ h ∈ file.readers, ∃ c ∈ source.records, DataClass.ofRecord ctx h.record = .ok c ∧
    (source.Unhidden ctx → List.Forall₂ (ReadsProperty ctx source) c.fields h.reads)

/-- **The two files agree as far as no built-in type is hidden.** Names and numbers of
parameters agree in any case. If no class of the Kotlin file has the name of a built-in
type, then types correspond, wrappers take a pair apart exactly where one comes back, and
records are built and read through their data classes. -/
theorem natives_agree (hsource : Source.ofContext ctx = .ok source) {file : BridgeFile}
    (hfile : BridgeFile.ofContext ctx = .ok file) : FilesAgree ctx source file := by
  obtain ⟨hbuilders, hreaders, -⟩ := exists_of_bridgeFile hfile
  -- Operations, builders and readers: each part finds its counterpart on the other side.
  refine ⟨fun op hop => ?_, fun h hh => ?_, fun h hh => ?_⟩
  · obtain ⟨e, he, hdeclares⟩ := exists_mem_of_forall₂ (forall₂_externals hsource) hop
    obtain ⟨b, hb, hbridges⟩ := exists_mem_of_forall₂ (forall₂_functions hfile) hop
    exact ⟨e, he, b, hb, paired_of_made hdeclares hbridges, fun hunhidden =>
      typed_of_made hsource hunhidden hop hdeclares hbridges⟩
  · obtain ⟨n, hn, hmade⟩ := exists_mem_of_forall₂ (mapM_eq_ok_iff.mp hbuilders).flip hh
    obtain ⟨c, hc, hclass⟩ := exists_dataClass hsource (crosses_of_mem (.inl hn))
    rw [(exists_of_toJava hmade).1]
    exact ⟨c, hc, hclass, fun hunhidden =>
      constructor?_of_builder hsource hunhidden (crosses_of_mem (.inl hn)) hclass hmade⟩
  · obtain ⟨n, hn, hmade⟩ := exists_mem_of_forall₂ (mapM_eq_ok_iff.mp hreaders).flip hh
    obtain ⟨c, hc, hclass⟩ := exists_dataClass hsource (crosses_of_mem (.inr hn))
    rw [(exists_of_fromJava hmade).1]
    exact ⟨c, hc, hclass, fun hunhidden =>
      readsProperties_of_reader hsource hunhidden (crosses_of_mem (.inr hn)) hclass hmade⟩

/-- A description with records in both directions, one inside the other. -/
def sketchContext : Context where
  api :=
    { metadata := { name := "demo", version := "1.0.0", language := .rust }
      schemas := ["demo.fbs"]
      handles := [{ name := "Board" }]
      interfaces := [
        { name := "board"
          constructors := [
            { name := "create", returns := some { type := "handle:Board" },
              error := some "Outcome" }]
          methods := [
            { name := "add"
              parameters := [⟨"board", "handle:Board", none, none⟩,
                ⟨"stroke", "Stroke", some .ref, none⟩, ⟨"name", "string", none, none⟩,
                ⟨"data", "buffer<uint8>", some .ref, none⟩] },
            { name := "last", parameters := [⟨"board", "handle:Board", none, none⟩]
              returns := some { type := "Stroke" }, error := some "Outcome" },
            { name := "count", parameters := [⟨"board", "handle:Board", none, none⟩]
              returns := some { type := "uint64" }, error := some "Outcome" }] }] }
  types := (((Keyed.empty.insert "Mode" { kind := .enum, values := [⟨"Off", 0⟩] }).insert
    "Outcome" { kind := .enum, values := [⟨"Ok", 0⟩, ⟨"Failed", 1⟩] }).insert
    "Dot" { kind := .struct, fields := [⟨"x", .primitive .float32⟩] }).insert
    "Stroke" { kind := .table, fields := [⟨"start_at", .named "Dot"⟩, ⟨"in", .string⟩,
      ⟨"widths", .vector (.primitive .float64)⟩, ⟨"mode", .named "Mode"⟩] }

theorem natives_agree_sketch :
    ∃ source file, Source.ofContext sketchContext = .ok source ∧
      BridgeFile.ofContext sketchContext = .ok file ∧ source.Unhidden sketchContext ∧
      FilesAgree sketchContext source file := by
  have hvalid : sketchContext.api.validate (some sketchContext.types) = [] := by decide
  have hnames : Source.recordNames sketchContext = ["Dot", "Stroke"] := by cbv
  obtain ⟨source, file, hsource, hfile⟩ :=
    exists_files (Validate.conforms_of_validate hvalid) hnames (by decide)
  have hunhidden : source.Unhidden sketchContext := by
    rw [Source.Unhidden, Source.classNames_eq hsource, hnames]
    decide
  exact ⟨source, file, hsource, hfile, hunhidden, natives_agree hsource hfile⟩

/-! ### A record that hides a built-in type -/

/-- A description with a record whose name Kotlin has for its texts. -/
def textContext : Context where
  api :=
    { metadata := { name := "demo", version := "1.0.0", language := .rust }
      schemas := ["demo.fbs"]
      interfaces := [
        { name := "notes"
          methods := [
            { name := "echo", parameters := [⟨"value", "String", some .ref, none⟩]
              returns := some { type := "String" } }] }] }
  types := Keyed.empty.insert "String" { kind := .table, fields := [⟨"text", .string⟩] }

/-- **A valid description whose records cannot be built**: the class of the record hides the
built-in type, so its constructor takes an object of the class, and the bridge looks for
one that takes a text. -/
theorem hidden_textContext :
    Api.ofDocument textContext.api.toJson = .ok textContext.api ∧
      textContext.api.validate (some textContext.types) = [] ∧
      ∃ source file, Source.ofContext textContext = .ok source ∧
        BridgeFile.ofContext textContext = .ok file ∧
        source.records.map (·.constructor? textContext source) = [some "(Ldemo/String;)V"] ∧
        file.builders.map (fun h => "(" ++ String.join h.descriptors ++ ")V") =
          ["(Ljava/lang/String;)V"] := by
  have hvalid : textContext.api.validate (some textContext.types) = [] := by decide
  have hnames : Source.recordNames textContext = ["String"] := by cbv
  have hreturned : returnedRecords textContext = ["String"] := by cbv
  obtain ⟨source, file, hsource, hfile⟩ :=
    exists_files (Validate.conforms_of_validate hvalid) hnames (by decide)
  refine ⟨ofDocument_eq_ok_iff.mpr (by decide), hvalid, source, file, hsource, hfile, ?_, ?_⟩
  -- The hidden class is the one the constructor names, as the record took the name of the text
  -- type.
  · have hrecords : source.records = [⟨"String", [("text", "String")]⟩] := by
      obtain ⟨-, hmade, -, -⟩ := exists_of_source hsource
      rw [hnames] at hmade
      exact (Except.ok.inj (hmade.symm.trans (by decide)))
    have hclasses : source.classNames textContext = ["String", "Demo"] := by
      rw [Source.classNames_eq hsource, hnames]
      decide
    rw [hrecords]
    simp only [List.map_cons, List.map_nil, DataClass.constructor?, Source.resolve, hclasses]
    decide
  · obtain ⟨hmade, -, -⟩ := exists_of_bridgeFile hfile
    rw [hreturned] at hmade
    have hdescriptors : (["String"].mapM (ToJava.ofRecord textContext)).map
        (·.map fun h => "(" ++ String.join h.descriptors ++ ")V") =
          .ok ["(Ljava/lang/String;)V"] := by
      decide
    rw [hmade] at hdescriptors
    exact Except.ok.inj hdescriptors

end Bindery.Kotlin
