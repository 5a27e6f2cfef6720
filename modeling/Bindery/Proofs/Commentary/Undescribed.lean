import Bindery.Emit.Go
import Bindery.Emit.Swift
import Bindery.Proofs.Success

/-!
# Descriptions left out

`Api.undescribed` is an API without any of the texts that describe it: those of its own, and of its
handles, interfaces, methods, parameters and results. Two APIs differ in their descriptions only if
they become the same that way.

What the emitters compute from an API does not look at descriptions, it only carries them along. So
leaving them out before the computation is the same as leaving them out of its result:

* `operations_undescribed` — the operations of an API are those with descriptions, without them; the
  destructors keep theirs, which are not the user's;
* `Swift.ofContext_undescribed` — the parts of the Swift file;
* `Go.interfaceDecls_undescribed`, `Go.cgoExports_undescribed`, `Go.ofHandle_undescribed` — the
  parts of the Go files, of which only the interfaces have descriptions at all.
-/

namespace Bindery

/-! ### Texts that are left out -/

def Parameter.undescribed (p : Parameter) : Parameter := { p with description := none }

def Returns.undescribed (r : Returns) : Returns := { r with description := none }

def Method.undescribed (m : Method) : Method :=
  { m with
    description := none
    parameters := m.parameters.map Parameter.undescribed
    returns := m.returns.map Returns.undescribed }

def Interface.undescribed (i : Interface) : Interface :=
  { i with
    description := none
    constructors := i.constructors.map Method.undescribed
    methods := i.methods.map Method.undescribed }

def Handle.undescribed (h : Handle) : Handle := { h with description := none }

/-- **An API without descriptions.** -/
def Api.undescribed (a : Api) : Api :=
  { a with
    metadata := { a.metadata with description := none }
    handles := a.handles.map Handle.undescribed
    interfaces := a.interfaces.map Interface.undescribed }

def Context.undescribed (ctx : Context) : Context := { ctx with api := ctx.api.undescribed }

/-- An operation without descriptions. What is said about a destructor does not come from the
user. -/
def Operation.undescribed (op : Operation) : Operation :=
  { op with
    interface := op.interface.undescribed
    method := if op.kind = .destructor then op.method else op.method.undescribed }

/-! ### Steps for each member -/

section Steps

variable {ε α α' β β' : Type}

/-- If each step carries something along, then so do all of them. -/
theorem mapM_map_eq {f : α → Except ε β} {f' : α' → Except ε β'} {g : α → α'} {k : β → β'}
    {xs : List α} (h : ∀ x ∈ xs, f' (g x) = (f x).map k) :
    (xs.map g).mapM f' = (xs.mapM f).map (List.map k) := by
  induction xs with
  | nil => rfl
  | cons x xs ih =>
    obtain ⟨hx, hxs⟩ := List.forall_mem_cons.mp h
    rw [List.map_cons, List.mapM_cons, List.mapM_cons, hx, ih hxs]
    cases f x with
    | error e => rfl
    | ok y => cases xs.mapM f <;> rfl

/-- Steps that do not look at what is left out. -/
theorem mapM_map_of_blind {f : α → Except ε β} {f' : α' → Except ε β} {g : α → α'} {xs : List α}
    (h : ∀ x ∈ xs, f' (g x) = f x) : (xs.map g).mapM f' = xs.mapM f := by
  have hmap : ∀ x ∈ xs, f' (g x) = (f x).map id := by
    intro x hx
    rw [h x hx]
    cases f x <;> rfl
  rw [mapM_map_eq hmap, List.map_id_fun]
  cases xs.mapM f <;> rfl

end Steps

/-! ### Methods and operations -/

namespace Method

variable (m : Method)

theorem name_undescribed : m.undescribed.name = m.name := rfl

theorem description_undescribed : m.undescribed.description = none := rfl

theorem error_undescribed : m.undescribed.error = m.error := rfl

theorem parameters_undescribed :
    m.undescribed.parameters = m.parameters.map Parameter.undescribed := rfl

theorem returns_undescribed : m.undescribed.returns = m.returns.map Returns.undescribed := rfl

theorem returnType?_undescribed : m.undescribed.returnType? = m.returnType? := by
  rw [returnType?, returnType?, undescribed, Option.map_map]
  rfl

theorem returnedHandle?_undescribed : m.undescribed.returnedHandle? = m.returnedHandle? := by
  rw [returnedHandle?, returnType?_undescribed]
  rfl

theorem leadingHandle?_undescribed : m.undescribed.leadingHandle? = m.leadingHandle? := by
  rw [leadingHandle?, leadingHandle?, undescribed, List.head?_map]
  cases m.parameters.head? <;> rfl

theorem shape_undescribed : m.undescribed.shape = m.shape := by
  rw [shape, shape, undescribed]
  cases m.error <;> cases m.returns <;> rfl

end Method

theorem Interface.constructedHandle?_undescribed (i : Interface) :
    i.undescribed.constructedHandle? = i.constructedHandle? := by
  rw [constructedHandle?, constructedHandle?, undescribed, List.head?_map]
  cases i.constructors.head? with
  | none => rfl
  | some m => exact m.returnedHandle?_undescribed

/-- The operations of an interface, one by one. -/
theorem Interface.operations_undescribed (i : Interface) :
    i.undescribed.operations = i.operations.map Operation.undescribed := by
  have hdestructor : i.undescribed.destructor? = i.destructor? := by
    rw [destructor?, destructor?, constructedHandle?_undescribed]
  rw [operations, operations, hdestructor, List.map_append, List.map_append, List.map_map,
    List.map_map, List.map_map, undescribed, List.map_map, List.map_map]
  rfl

namespace Api

variable (a : Api)

/-- **The operations of an API, one by one.** -/
theorem operations_undescribed :
    a.undescribed.operations = a.operations.map Operation.undescribed := by
  rw [operations, operations, undescribed, List.flatMap_map, List.map_flatMap]
  exact List.flatMap_congr fun i _ => i.operations_undescribed

theorem errorTypes_undescribed : a.undescribed.errorTypes = a.errorTypes := by
  have hauthored : a.undescribed.authored = a.authored.map Method.undescribed := by
    rw [authored, authored, undescribed, List.flatMap_map, List.map_flatMap]
    refine List.flatMap_congr fun i _ => ?_
    rw [Interface.authored, Interface.authored, List.map_append]
    rfl
  rw [errorTypes, errorTypes, hauthored, List.filterMap_map]
  rfl

theorem destructorSymbol?_undescribed (handle : String) :
    a.undescribed.destructorSymbol? handle = a.destructorSymbol? handle := by
  have howner : a.undescribed.handleOwner? handle =
      (a.handleOwner? handle).map Interface.undescribed := by
    rw [handleOwner?, handleOwner?, undescribed, List.find?_map]
    congr 2
    funext i
    rw [Function.comp_apply, Interface.constructedHandle?_undescribed]
  rw [destructorSymbol?, destructorSymbol?, howner, Option.map_map]
  rfl

end Api

/-! ### The parts of the Swift file -/

namespace Swift

def Function.undescribed (f : Function) : Function := { f with description := none }

def HandleClass.undescribed (c : HandleClass) : HandleClass :=
  { c with
    handle := c.handle.undescribed
    functions := c.functions.map Function.undescribed }

def Source.undescribed (s : Source) : Source :=
  { s with
    classes := s.classes.map HandleClass.undescribed
    free := s.free.map Function.undescribed }

/-- An operation that is no destructor. -/
theorem ofOperation_undescribed (ctx : Context) (isStatic : Bool) {op : Operation}
    (hop : op.kind ≠ .destructor) :
    Function.ofOperation ctx.undescribed isStatic op.undescribed =
      (Function.ofOperation ctx isStatic op).map Function.undescribed := by
  have hmethod : op.undescribed.method = op.method.undescribed := if_neg hop
  -- parameters are lowered without a look at their descriptions
  have hown : (if isStatic then op.method.undescribed.parameters
      else op.method.undescribed.parameters.drop 1).mapM (lower ctx.undescribed) =
      (if isStatic then op.method.parameters
        else op.method.parameters.drop 1).mapM (lower ctx) := by
    rw [Method.undescribed, ← List.map_drop, ← apply_ite (List.map Parameter.undescribed)]
    exact mapM_map_of_blind fun p _ => rfl
  have hsymbol : op.undescribed.symbol ctx.undescribed.apiName = op.symbol ctx.apiName := by
    rw [Operation.symbol, Operation.symbol, hmethod]
    rfl
  unfold Function.ofOperation
  dsimp only
  rw [hmethod, hown, hsymbol, Method.shape_undescribed]
  -- both sides fail at the same step
  cases (if isStatic then op.method.parameters else op.method.parameters.drop 1).mapM (lower ctx)
    with
  | error fault => rfl
  | ok lowered =>
    rw [Method.name_undescribed, Method.error_undescribed, Method.description_undescribed,
      Method.returns_undescribed]
    cases op.method.returns with
    | none =>
      refine congrArg Except.ok ?_
      simp only [Function.undescribed]
    | some r =>
      rw [Option.map_some]
      have htype : r.undescribed.type = r.type := rfl
      simp only [htype]
      cases Result.ofText r.type with
      | error fault => rfl
      | ok result =>
        refine congrArg Except.ok ?_
        simp only [Function.undescribed]

/-- The operations of a kind with a property that is not about descriptions. -/
theorem filter_operations_undescribed (a : Api) {kind : Operation.Kind} (hkind : kind ≠ .destructor)
    {p q : Method → Bool} (h : ∀ m, p m.undescribed = q m) :
    a.undescribed.operations.filter (fun op => op.kind = kind && p op.method) =
      (a.operations.filter fun op => op.kind = kind && q op.method).map Operation.undescribed := by
  rw [Api.operations_undescribed, List.filter_map]
  refine congrArg _ (List.filter_congr fun op _ => ?_)
  show (decide (op.kind = kind) && p op.undescribed.method) =
    (decide (op.kind = kind) && q op.method)
  by_cases hop : op.kind = kind
  · have hmethod : op.undescribed.method = op.method.undescribed :=
      if_neg fun hd => hkind (hop.symm.trans hd)
    rw [hmethod, h]
  · rw [decide_eq_false hop, Bool.false_and, Bool.false_and]

theorem kind_of_mem_filter {a : Api} {kind : Operation.Kind} {q : Method → Bool} {op : Operation}
    (h : op ∈ a.operations.filter fun op => op.kind = kind && q op.method) : op.kind = kind :=
  of_decide_eq_true (Bool.and_eq_true_iff.mp (List.mem_filter.mp h).2).1

/-- The functions of the operations of a kind. -/
theorem mapM_filter_undescribed (ctx : Context) (isStatic : Bool) {kind : Operation.Kind}
    (hkind : kind ≠ .destructor) {p q : Method → Bool} (h : ∀ m, p m.undescribed = q m) :
    (ctx.undescribed.api.operations.filter fun op => op.kind = kind && p op.method).mapM
        (Function.ofOperation ctx.undescribed isStatic) =
      ((ctx.api.operations.filter fun op => op.kind = kind && q op.method).mapM
        (Function.ofOperation ctx isStatic)).map (List.map Function.undescribed) := by
  have hfilter := filter_operations_undescribed ctx.api hkind h
  rw [show ctx.undescribed.api = ctx.api.undescribed from rfl, hfilter]
  refine mapM_map_eq fun op hop => ofOperation_undescribed ctx isStatic ?_
  rw [kind_of_mem_filter hop]
  exact hkind

/-- The class of a handle. -/
theorem ofHandle_undescribed (ctx : Context) (h : Handle) :
    HandleClass.ofHandle ctx.undescribed h.undescribed =
      (HandleClass.ofHandle ctx h).map HandleClass.undescribed := by
  -- constructors and methods are chosen by the types that they mention
  have hmakers : (HandleClass.constructors ctx.undescribed.api h.name).mapM
        (Function.ofOperation ctx.undescribed true) =
      ((HandleClass.constructors ctx.api h.name).mapM
        (Function.ofOperation ctx true)).map (List.map Function.undescribed) := by
    refine mapM_filter_undescribed ctx true
      (show Operation.Kind.constructor ≠ .destructor from nofun)
      (p := fun m => m.returnedHandle? == some h.name)
      (q := fun m => m.returnedHandle? == some h.name) ?_
    intro m
    rw [Method.returnedHandle?_undescribed]
  have hothers : (HandleClass.methods ctx.undescribed.api h.name).mapM
        (Function.ofOperation ctx.undescribed false) =
      ((HandleClass.methods ctx.api h.name).mapM
        (Function.ofOperation ctx false)).map (List.map Function.undescribed) := by
    refine mapM_filter_undescribed ctx false
      (show Operation.Kind.method ≠ .destructor from nofun)
      (p := fun m => m.leadingHandle? == some h.name)
      (q := fun m => m.leadingHandle? == some h.name) ?_
    intro m
    rw [Method.leadingHandle?_undescribed]
  have hdestructor : ctx.undescribed.api.destructorSymbol? h.name =
      ctx.api.destructorSymbol? h.name := ctx.api.destructorSymbol?_undescribed h.name
  unfold HandleClass.ofHandle
  rw [show h.undescribed.name = h.name from rfl, hmakers, hothers, hdestructor]
  cases (HandleClass.constructors ctx.api h.name).mapM (Function.ofOperation ctx true) with
  | error fault => rfl
  | ok makers =>
    cases (HandleClass.methods ctx.api h.name).mapM (Function.ofOperation ctx false) with
    | error fault => rfl
    | ok others =>
      refine congrArg Except.ok ?_
      rw [HandleClass.undescribed, List.map_append]

/-- **The Swift file of an API without descriptions** is the file of the API, without them. -/
theorem ofContext_undescribed (ctx : Context) :
    Source.ofContext ctx.undescribed = (Source.ofContext ctx).map Source.undescribed := by
  have herrors : ctx.undescribed.api.errorTypes.mapM (ErrorEnum.ofType ctx.undescribed) =
      ctx.api.errorTypes.mapM (ErrorEnum.ofType ctx) := by
    rw [show ctx.undescribed.api = ctx.api.undescribed from rfl, Api.errorTypes_undescribed]
    rfl
  have hclasses : ctx.undescribed.api.handles.mapM (HandleClass.ofHandle ctx.undescribed) =
      (ctx.api.handles.mapM (HandleClass.ofHandle ctx)).map (List.map HandleClass.undescribed) :=
    mapM_map_eq fun h _ => ofHandle_undescribed ctx h
  have hfree : (freeMethods ctx.undescribed.api).mapM (Function.ofOperation ctx.undescribed true) =
      ((freeMethods ctx.api).mapM (Function.ofOperation ctx true)).map
        (List.map Function.undescribed) := by
    refine mapM_filter_undescribed ctx true
      (show Operation.Kind.method ≠ .destructor from nofun)
      (p := fun m => !(m.leadingHandle?.any fun h =>
        ctx.undescribed.api.handles.any (·.name = h)))
      (q := fun m => !(m.leadingHandle?.any fun h => ctx.api.handles.any (·.name = h))) ?_
    intro m
    have hdeclared : ∀ h : String, ctx.undescribed.api.handles.any (fun x => x.name = h) =
        ctx.api.handles.any fun x => x.name = h := by
      intro h
      exact List.any_map
    rw [Method.leadingHandle?_undescribed]
    simp only [hdeclared]
  -- errors, classes and free functions are collected one after the other
  unfold Source.ofContext
  rw [herrors, hclasses, hfree]
  cases ctx.api.errorTypes.mapM (ErrorEnum.ofType ctx) with
  | error fault => rfl
  | ok errors =>
    cases ctx.api.handles.mapM (HandleClass.ofHandle ctx) with
    | error fault => rfl
    | ok classes =>
      cases (freeMethods ctx.api).mapM (Function.ofOperation ctx true) <;> rfl

end Swift

/-! ### The parts of the Go files -/

namespace Go

def InterfaceDecl.undescribed (d : InterfaceDecl) : InterfaceDecl := { d with description := none }

theorem dispatched_undescribed (i : Interface) :
    dispatched i.undescribed = (dispatched i).map Method.undescribed := by
  rw [dispatched, dispatched, Interface.undescribed, List.filter_map]
  refine congrArg _ (List.filter_congr fun m _ => ?_)
  rw [Function.comp_apply, Method.leadingHandle?_undescribed]

section Methods

variable (ctx : Context) (m : Method)

/-- A match on the error and on the result of a method. -/
theorem methodSig_undescribed : MethodSig.ofMethod m.undescribed = MethodSig.ofMethod m := by
  have hparams : (m.undescribed.parameters.drop 1).mapM
        (fun p => do return (argName p, ← paramType p)) =
      (m.parameters.drop 1).mapM fun p => do return (argName p, ← paramType p) := by
    rw [Method.undescribed, ← List.map_drop]
    exact mapM_map_of_blind fun p _ => rfl
  unfold MethodSig.ofMethod
  rw [hparams, Method.name_undescribed, Method.error_undescribed, Method.returns_undescribed]
  cases m.error <;> cases m.returns <;> rfl

theorem returnOf_undescribed :
    HandleImpl.returnOf ctx.undescribed m.undescribed = HandleImpl.returnOf ctx m := by
  unfold HandleImpl.returnOf
  rw [Method.returns_undescribed, Method.error_undescribed]
  cases m.error <;> cases m.returns <;> rfl

theorem cgoInterface_undescribed :
    CgoExport.interface m.undescribed = CgoExport.interface m := by
  have hparams : m.undescribed.parameters.mapM CgoParam.lower = m.parameters.mapM CgoParam.lower :=
    mapM_map_of_blind fun p _ => rfl
  unfold CgoExport.interface
  rw [hparams, Method.error_undescribed, Method.returns_undescribed]
  cases m.error <;> cases m.returns <;> rfl

theorem cgoConstructor_undescribed : cgoConstructor m.undescribed = cgoConstructor m := by
  unfold cgoConstructor constructedStruct
  rw [Method.returnedHandle?_undescribed, Method.shape_undescribed,
    Method.name_undescribed]

theorem cgoStub_undescribed : cgoStub ctx.undescribed m.undescribed = cgoStub ctx m := by
  unfold cgoStub
  rw [Method.returns_undescribed, Method.error_undescribed]
  cases m.error <;> cases m.returns <;> rfl

theorem cgoBail_undescribed : cgoBail ctx.undescribed m.undescribed = cgoBail ctx m := by
  have hcode : failureCode ctx.undescribed m.undescribed = failureCode ctx m := rfl
  unfold cgoBail
  rw [Method.returns_undescribed, Method.error_undescribed, hcode]
  cases m.error <;> cases m.returns <;> rfl

theorem firstName_undescribed : firstName m.undescribed = firstName m := by
  rw [firstName, firstName, Method.undescribed, List.head?_map, Option.map_map]
  rfl

theorem cgoDispatch_undescribed {op : Operation} (hop : op.kind ≠ .destructor) :
    cgoDispatch ctx.undescribed op.undescribed = cgoDispatch ctx op := by
  -- A destructor is described by the generator and not by the author.
  have hmethod : op.undescribed.method = op.method.undescribed := if_neg hop
  have hpassed : (op.method.undescribed.parameters.drop 1).mapM (cgoPass ctx.undescribed) =
      (op.method.parameters.drop 1).mapM (cgoPass ctx) := by
    rw [Method.parameters_undescribed, ← List.map_drop]
    exact mapM_map_of_blind fun p _ => rfl
  have hcode : failureCode ctx.undescribed op.method.undescribed = failureCode ctx op.method := rfl
  have hinterface : interfaceName op.undescribed.interface = interfaceName op.interface := rfl
  have htypes : ctx.undescribed.types = ctx.types := rfl
  have hstore : cgoStore ctx.undescribed = cgoStore ctx := rfl
  have hreturn : cgoReturn ctx.undescribed = cgoReturn ctx := rfl
  unfold cgoDispatch
  dsimp only
  rw [hmethod, hpassed, hcode, hinterface, htypes, hstore, hreturn, cgoBail_undescribed,
    firstName_undescribed, Method.returnType?_undescribed, Method.name_undescribed,
    Method.error_undescribed, Method.returns_undescribed]
  cases op.method.error <;> cases op.method.returns <;> rfl

/-- An exported function shows no description. -/
theorem cgoExport_undescribed (op : Operation) :
    CgoExport.ofOperation ctx.undescribed op.undescribed = CgoExport.ofOperation ctx op := by
  have hname : op.undescribed.method.name = op.method.name := by
    rw [Operation.undescribed]
    split <;> rfl
  have hsymbol : op.undescribed.symbol ctx.undescribed.apiName = op.symbol ctx.apiName := by
    rw [Operation.symbol, Operation.symbol, hname]
    rfl
  have hkind : op.undescribed.kind = op.kind := rfl
  unfold CgoExport.ofOperation
  dsimp only
  rw [hsymbol, hkind]
  -- the method of a destructor is made up and has no description
  cases hop : op.kind with
  | destructor =>
    have hmethod : op.undescribed.method = op.method := if_pos hop
    rw [hmethod]
  | constructor =>
    have hmethod : op.undescribed.method = op.method.undescribed :=
      if_neg (by rw [hop]; exact nofun)
    rw [hmethod, cgoInterface_undescribed, cgoConstructor_undescribed]
  | method =>
    have hkind : op.kind ≠ .destructor := by
      rw [hop]
      exact nofun
    have hmethod : op.undescribed.method = op.method.undescribed := if_neg hkind
    rw [hmethod, cgoInterface_undescribed, Method.leadingHandle?_undescribed,
      cgoDispatch_undescribed ctx hkind, cgoStub_undescribed]

end Methods

/-- **The Go interfaces of an API without descriptions** are those of the API, without them. -/
theorem interfaceDecls_undescribed (a : Api) :
    interfaceDecls a.undescribed =
      (interfaceDecls a).map (List.map InterfaceDecl.undescribed) := by
  -- Within an interface the functions and the owner come from the methods that are dispatched.
  have hinterface : ∀ i : Interface, InterfaceDecl.ofInterface i.undescribed =
      (InterfaceDecl.ofInterface i).map InterfaceDecl.undescribed := by
    intro i
    have hmethods : (dispatched i.undescribed).mapM MethodSig.ofMethod =
        (dispatched i).mapM MethodSig.ofMethod := by
      rw [dispatched_undescribed]
      exact mapM_map_of_blind fun m _ => methodSig_undescribed m
    have howners : (dispatched i.undescribed).filterMap Method.leadingHandle? =
        (dispatched i).filterMap Method.leadingHandle? := by
      rw [dispatched_undescribed, List.filterMap_map]
      exact List.filterMap_congr fun m _ => m.leadingHandle?_undescribed
    unfold InterfaceDecl.ofInterface
    rw [hmethods, howners]
    cases (dispatched i).mapM MethodSig.ofMethod <;> rfl
  -- Which interfaces are shown depends on their having methods, not on what is said of them.
  have hshown : (a.undescribed.interfaces.filter fun i => !(dispatched i).isEmpty) =
      (a.interfaces.filter fun i => !(dispatched i).isEmpty).map Interface.undescribed := by
    rw [Api.undescribed, List.filter_map]
    refine congrArg _ (List.filter_congr fun i _ => ?_)
    rw [Function.comp_apply, dispatched_undescribed, List.isEmpty_map]
  rw [interfaceDecls, interfaceDecls, hshown]
  exact mapM_map_eq fun i _ => hinterface i

theorem cgoExports_undescribed (ctx : Context) :
    cgoExports ctx.undescribed =
      (cgoExports ctx).map (List.map fun e => (e.1.undescribed, e.2)) := by
  refine mapM_map_eq fun i _ => ?_
  have hexports : i.undescribed.operations.mapM (CgoExport.ofOperation ctx.undescribed) =
      i.operations.mapM (CgoExport.ofOperation ctx) := by
    rw [Interface.operations_undescribed]
    exact mapM_map_of_blind fun op _ => cgoExport_undescribed ctx op
  rw [hexports]
  cases i.operations.mapM (CgoExport.ofOperation ctx) <;> rfl

/-- A structure behind a handle shows no description. -/
theorem handleImpl_undescribed (ctx : Context) (handle : String) :
    HandleImpl.ofHandle ctx.undescribed handle = HandleImpl.ofHandle ctx handle := by
  -- A handle is looked for in the first parameters, which have no description.
  have hinterfaces : interfacesOn ctx.undescribed.api handle =
      (interfacesOn ctx.api handle).map Interface.undescribed := by
    rw [interfacesOn, interfacesOn, show ctx.undescribed.api.interfaces =
      ctx.api.interfaces.map Interface.undescribed from rfl, List.filter_map]
    refine congrArg _ (List.filter_congr fun i _ => ?_)
    rw [Function.comp_apply, dispatched_undescribed, List.any_map]
    refine congrArg (fun p => (dispatched i).any p) (funext fun m => ?_)
    rw [Function.comp_apply, Method.leadingHandle?_undescribed]
  have hmethods : ((interfacesOn ctx.api handle).map Interface.undescribed).flatMap dispatched =
      ((interfacesOn ctx.api handle).flatMap dispatched).map Method.undescribed := by
    rw [List.flatMap_map, List.map_flatMap]
    exact List.flatMap_congr fun i _ => dispatched_undescribed i
  have hnames : ((interfacesOn ctx.api handle).map Interface.undescribed).map interfaceName =
      (interfacesOn ctx.api handle).map interfaceName := by
    rw [List.map_map]
    rfl
  unfold HandleImpl.ofHandle
  dsimp only
  rw [hinterfaces, hmethods, hnames]
  refine congrArg (· >>= _) (mapM_map_of_blind fun m _ => ?_)
  rw [methodSig_undescribed, returnOf_undescribed]

end Go

end Bindery
