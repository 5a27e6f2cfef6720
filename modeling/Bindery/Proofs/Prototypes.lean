import Bindery.Proofs.Description
import Bindery.Proofs.Operations

/-!
# The parameter names of a prototype

Lowering writes the names of the parameters as they are and adds names of its own: the
length of a buffer is named after the buffer, and the trailing pointer is `out_result`.
A C compiler takes a prototype only if all these names are distinct.

Validation looks at one parameter at a time, so it cannot see that two of them share a
name or that one has a name that lowering adds. What is needed besides is stated by
`ParametersApart`, in terms of the names that a method writes. The two families of added
names never meet each other, since one ends in `_len` and the other does not, and a
destructor has one parameter only, so there is nothing else to ask for:

* `nodup_argNames_iff` — the names in one signature;
* `argNames_distinct_iff` — the names in all prototypes of a valid description;
* `blurredApi_argNames` — a valid description with prototypes in which each of the three
  conditions fails.
-/

namespace Bindery

namespace Abi

/-! ### Names that lowering adds -/

theorem lengthName_injective : Function.Injective lengthName :=
  fun _ _ h => (String.append_left_inj "_len").mp h

/-- A name is shorter than the length name made from it. -/
theorem ne_lengthName (name : String) : name ≠ lengthName name := by
  intro h
  have hlength := congrArg String.length h
  rw [lengthName, String.length_append] at hlength
  have hfour : "_len".length = 4 := rfl
  omega

/-- No length is named like the trailing pointer: their last letters differ. -/
theorem lengthName_ne_outName (name : String) : lengthName name ≠ outName := by
  intro h
  have hlast := congrArg (fun text => text.toList.getLast?) h
  have hlength : (lengthName name).toList.getLast? = some 'n' := by
    rw [lengthName, String.toList_append, List.getLast?_append]
    rfl
  have hout : outName.toList.getLast? = some 't' := rfl
  rw [hlength, hout] at hlast
  exact absurd hlast (by decide)

/-! ### The names of one signature -/

/-- The parameter brings a length with it. -/
def IsBuffer (p : Parameter) : Prop := ∃ element, p.typeRef? = some (.buffer element)

instance (p : Parameter) : Decidable (IsBuffer p) :=
  match h : p.typeRef? with
  | some (.buffer element) => isTrue ⟨element, h⟩
  | none | some .string | some (.handle _) | some (.primitive _) | some (.qualified _) =>
    isFalse fun ⟨_, h'⟩ => by rw [h] at h'; cases h'

/-- The names that a parameter takes in a prototype. -/
def takenNames (p : Parameter) : List String :=
  if IsBuffer p then [p.name, lengthName p.name] else [p.name]

theorem mem_takenNames_iff {p : Parameter} {name : String} :
    name ∈ takenNames p ↔ name = p.name ∨ IsBuffer p ∧ name = lengthName p.name := by
  rw [takenNames]
  split
  next h => simp [h]
  next h => simp [h]

theorem nodup_takenNames (p : Parameter) : (takenNames p).Nodup := by
  rw [takenNames]
  split
  · exact List.nodup_cons.mpr ⟨by simpa using ne_lengthName p.name, List.nodup_singleton _⟩
  · exact List.nodup_singleton _

/-- Lowering a parameter uses the names that it takes. -/
theorem names_of_lower {p : Parameter} {ps : List Param} (h : lower p = .ok ps) :
    ps.map (·.name) = takenNames p := by
  obtain ⟨t, ht, h⟩ := bind_eq_ok_iff.mp h
  have hform : p.typeRef? = some t := classify_eq_ok_iff.mp ht
  cases t with
  | buffer element =>
    rw [takenNames, if_pos ⟨element, hform⟩, ← pure_eq_ok_iff.mp h]
    rfl
  | string | handle _ | primitive _ | qualified _ =>
    -- none of these brings a length with it
    have hplain : ¬ IsBuffer p := by
      rintro ⟨element, hbuffer⟩
      rw [hform] at hbuffer
      cases hbuffer
    rw [takenNames, if_neg hplain, ← pure_eq_ok_iff.mp h]
    rfl

/-- **The names of a signature**: those that the parameters take, and that of the trailing
pointer. -/
theorem argNames_of_ofMethod {symbol : String} {m : Method} {s : Signature}
    (h : Signature.ofMethod symbol m = .ok s) :
    s.argNames = m.parameters.flatMap takenNames ++ if PassesResult m then [outName] else [] := by
  obtain ⟨-, ⟨cs, hcs, hargs⟩, -⟩ := exists_of_ofMethod h
  have hnames : cs.flatten.map (·.name) = m.parameters.flatMap takenNames := by
    rw [List.map_flatten, List.flatMap_def]
    exact congrArg List.flatten
      (map_eq_map_of_forall₂ (mapM_eq_ok_iff.mp hcs) fun _ _ => names_of_lower)
  rw [Signature.argNames, Signature.params, List.map_append, hargs, hnames]
  congr 1
  simp only [← isSome_out_iff h]
  cases s.out <;> rfl

/-- **Names that keep the parameters of a prototype apart**, as a method writes them. -/
structure ParametersApart (m : Method) : Prop where
  /-- No two parameters share a name. -/
  names : (m.parameters.map (·.name)).Nodup
  /-- No parameter is named like the length of a buffer. -/
  lengths : ∀ p ∈ m.parameters, IsBuffer p → ∀ q ∈ m.parameters, q.name ≠ lengthName p.name
  /-- No parameter is named like the trailing pointer, if there is one. -/
  result : PassesResult m → ∀ p ∈ m.parameters, p.name ≠ outName

theorem parametersApart_iff {m : Method} :
    ParametersApart m ↔
      (m.parameters.map (·.name)).Nodup ∧
      (∀ p ∈ m.parameters, IsBuffer p → ∀ q ∈ m.parameters, q.name ≠ lengthName p.name) ∧
      (PassesResult m → ∀ p ∈ m.parameters, p.name ≠ outName) :=
  ⟨fun h => ⟨h.names, h.lengths, h.result⟩, fun ⟨h₁, h₂, h₃⟩ => ⟨h₁, h₂, h₃⟩⟩

instance (m : Method) : Decidable (ParametersApart m) := decidable_of_iff' _ parametersApart_iff

/-- Two parameters take different names exactly when their own names differ and neither is
named like the length of the other. -/
theorem disjoint_takenNames_iff {p q : Parameter} :
    (takenNames p).Disjoint (takenNames q) ↔
      p.name ≠ q.name ∧ (IsBuffer p → q.name ≠ lengthName p.name) ∧
        (IsBuffer q → p.name ≠ lengthName q.name) := by
  simp only [List.Disjoint, mem_takenNames_iff]
  constructor
  · intro h
    -- Each kind of clash is a name that both have.
    refine ⟨fun heq => ?_, fun hp heq => ?_, fun hq heq => ?_⟩
    · exact h (.inl rfl) (.inl heq)
    · exact h (.inr ⟨hp, rfl⟩) (.inl heq.symm)
    · exact h (.inl rfl) (.inr ⟨hq, heq⟩)
  · rintro ⟨hnames, hp, hq⟩ name (rfl | ⟨hbuffer, rfl⟩) (heq | ⟨hbuffer', heq⟩)
    · exact hnames heq
    · exact hq hbuffer' heq
    · exact hp hbuffer heq.symm
    · -- lengths that share a name belong to buffers that do
      exact hnames (lengthName_injective heq)

/-- The parameters of a method take distinct names. -/
theorem nodup_flatMap_takenNames_iff {ps : List Parameter} :
    (ps.flatMap takenNames).Nodup ↔
      (ps.map (·.name)).Nodup ∧
        ∀ p ∈ ps, IsBuffer p → ∀ q ∈ ps, q.name ≠ lengthName p.name := by
  rw [List.nodup_flatMap, List.Nodup, List.pairwise_map]
  constructor
  · rintro ⟨-, hdisjoint⟩
    have happart := hdisjoint.imp fun {p q} => disjoint_takenNames_iff.mp
    refine ⟨happart.imp And.left, ?_⟩
    have hlengths : ps.Pairwise fun p q => IsBuffer p → q.name ≠ lengthName p.name :=
      happart.imp fun h => h.2.1
    have hlengths' : ps.Pairwise fun p q => IsBuffer q → p.name ≠ lengthName q.name :=
      happart.imp fun h => h.2.2
    intro p hp hbuffer q hq
    -- a buffer is not named like its own length either
    exact hlengths.forall_of_forall_of_flip (fun p _ _ => ne_lengthName p.name) hlengths' hp hq
      hbuffer
  · rintro ⟨hnames, hlengths⟩
    refine ⟨fun p _ => nodup_takenNames p, hnames.imp_of_mem fun {p q} hp hq hne => ?_⟩
    exact disjoint_takenNames_iff.mpr
      ⟨hne, fun hbuffer => hlengths p hp hbuffer q hq, fun hbuffer => hlengths q hq hbuffer p hp⟩

/-- **When the names of a signature are distinct.** -/
theorem nodup_argNames_iff {symbol : String} {m : Method} {s : Signature}
    (h : Signature.ofMethod symbol m = .ok s) : s.argNames.Nodup ↔ ParametersApart m := by
  rw [argNames_of_ofMethod h, List.nodup_append, nodup_flatMap_takenNames_iff,
    parametersApart_iff, and_assoc]
  -- The last name is the one for the result, if there is any.
  refine and_congr_right fun _ => and_congr_right fun _ => ?_
  by_cases hresult : PassesResult m
  · rw [if_pos hresult, forall_prop_of_true hresult]
    simp only [List.nodup_singleton, List.mem_singleton, forall_eq, true_and, List.mem_flatMap,
      mem_takenNames_iff]
    constructor
    · exact fun hout p hp => hout _ ⟨p, hp, .inl rfl⟩
    · rintro hout name ⟨p, hp, rfl | ⟨-, rfl⟩⟩
      · exact hout p hp
      · exact lengthName_ne_outName p.name
  · rw [if_neg hresult]
    simp [hresult]

/-! ### The prototypes of a description -/

/-- A destructor has nothing that its only parameter could meet. -/
theorem parametersApart_destructorOf (handle : String) :
    ParametersApart (Interface.destructorOf handle) where
  names := List.nodup_singleton _
  lengths := by
    rintro p hp ⟨element, hbuffer⟩
    -- the parameter is a handle, and `handle:` is no way to begin a buffer
    obtain rfl := List.mem_singleton.mp hp
    rw [Parameter.typeRef?, TypeRef.ofString?_handle] at hbuffer
    split at hbuffer <;> cases hbuffer
  result := nofun

/-- The operations of a description have parameters apart if the methods that it writes do. -/
theorem parametersApart_operations_iff {a : Api} :
    (∀ op ∈ a.operations, ParametersApart op.method) ↔ ∀ m ∈ a.authored, ParametersApart m := by
  simp only [Api.operations, Api.authored, List.mem_flatMap, forall_exists_index, and_imp]
  constructor
  · intro h m i hi hm
    rcases List.mem_append.mp hm with hm | hm
    · exact h ⟨i, .constructor, m⟩ i hi (mem_operations_iff.mpr (.inl ⟨m, hm, rfl⟩))
    · exact h ⟨i, .method, m⟩ i hi (mem_operations_iff.mpr (.inr (.inr ⟨m, hm, rfl⟩)))
  · intro h op i hi hop
    rcases mem_operations_iff.mp hop with ⟨c, hc, rfl⟩ | ⟨handle, -, rfl⟩ | ⟨m, hm, rfl⟩
    · exact h c i hi (List.mem_append_left _ hc)
    · exact parametersApart_destructorOf handle
    · exact h m i hi (List.mem_append_right _ hm)

/-- **When the parameter names of every prototype are distinct.** Each operation of a valid
description has a signature, and the names in all of them are distinct exactly when the
methods that the description writes keep their parameters apart. -/
theorem argNames_distinct_iff {a : Api} {types : Schema} (valid : a.validate (some types) = []) :
    (∀ op ∈ a.operations, ∃ s, Signature.ofOperation a.name op = .ok s ∧ s.argNames.Nodup) ↔
      ∀ m ∈ a.authored, ParametersApart m := by
  have hconforms := Validate.conforms_of_validate valid
  rw [← parametersApart_operations_iff]
  refine forall₂_congr fun op hop => ?_
  obtain ⟨s, hs⟩ := exists_signature hconforms hop
  constructor
  · rintro ⟨s', hs', hnodup⟩
    exact (nodup_argNames_iff hs').mp hnodup
  · exact fun happart => ⟨s, hs, (nodup_argNames_iff hs).mpr happart⟩

/-- The only type of the two descriptions below. -/
def outcomeSchema : Schema :=
  Keyed.empty.insert "Outcome"
    { kind := .enum, base := some .int32, values := [⟨"Ok", 0⟩, ⟨"Failed", 1⟩] }

/-- A description in which lowering adds names of both families. -/
def mixerApi : Api where
  metadata := { name := "demo", version := "1.0.0", language := .rust }
  schemas := ["demo.fbs"]
  handles := [{ name := "Mixer" }]
  interfaces := [
    { name := "mixer",
      constructors := [
        { name := "create", returns := some { type := "handle:Mixer" }, error := some "Outcome" }],
      methods := [
        { name := "load",
          parameters := [
            { name := "mixer", type := "handle:Mixer" },
            { name := "data", type := "buffer<uint8>", transfer := some .ref },
            { name := "len", type := "uint32" }],
          returns := some { type := "uint32" },
          error := some "Outcome" }] }]

theorem argNames_distinct_mixerApi :
    mixerApi.validate (some outcomeSchema) = [] ∧
      ∀ op ∈ mixerApi.operations,
        ∃ s, Signature.ofOperation mixerApi.name op = .ok s ∧ s.argNames.Nodup := by
  have hvalid : mixerApi.validate (some outcomeSchema) = [] := by decide
  have hapart : ∀ m ∈ mixerApi.authored, ParametersApart m := by decide
  exact ⟨hvalid, (argNames_distinct_iff hvalid).mpr hapart⟩

/-! ### Names that meet -/

/-- A name used twice, a parameter named like a length, and one named like the trailing
pointer. -/
def blurredApi : Api where
  metadata := { name := "demo", version := "1.0.0", language := .rust }
  schemas := ["demo.fbs"]
  interfaces := [
    { name := "scene",
      methods := [
        { name := "move",
          parameters := [{ name := "x", type := "int32" }, { name := "x", type := "float32" }] },
        { name := "load",
          parameters := [
            { name := "data", type := "buffer<uint8>", transfer := some .ref },
            { name := "data_len", type := "uint32" }] },
        { name := "find",
          parameters := [{ name := "out_result", type := "int32" }],
          returns := some { type := "int32" },
          error := some "Outcome" }] }]

/-- **A valid description whose prototypes repeat a name**, every one of them. -/
theorem blurredApi_argNames :
    Api.ofDocument blurredApi.toJson = .ok blurredApi ∧
      blurredApi.validate (some outcomeSchema) = [] ∧
      ∀ op ∈ blurredApi.operations,
        ∃ s, Signature.ofOperation blurredApi.name op = .ok s ∧ ¬ s.argNames.Nodup := by
  refine ⟨ofDocument_eq_ok_iff.mpr (by decide), by decide, fun op hop => ?_⟩
  have hnames : blurredApi.operations.mapM
      (fun op => (Signature.ofOperation blurredApi.name op).map Signature.argNames) =
        .ok [["x", "x"], ["data", "data_len", "data_len"], ["out_result", "out_result"]] := by
    decide
  obtain ⟨names, hmem, hop⟩ := exists_mem_of_forall₂ (mapM_eq_ok_iff.mp hnames) hop
  obtain ⟨s, hs, rfl⟩ := map_eq_ok_iff.mp hop
  have hrepeat : ∀ names ∈ [["x", "x"], ["data", "data_len", "data_len"],
      ["out_result", "out_result"]], ¬ names.Nodup := by decide
  exact ⟨s, hs, hrepeat _ hmem⟩

end Abi

end Bindery
