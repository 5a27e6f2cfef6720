import Bindery.Proofs.Conformance
import Bindery.Proofs.Names.Operations
import Bindery.Proofs.Names.Spelling

/-!
# Handles in snake case

A handle is declared in Pascal case, and the C interface writes it in snake case: in its type, in
the tag of the structure behind it and in the name of its destructor. An underscore goes before
every upper-case letter but the first, so acronyms, single letters and digits leave pieces of one
character, and none of these is lost.

* `pascalCase_handleToSnake` — Pascal case reads a handle back, letter by letter;
* `handleToSnake_eq_iff` — the names that handles become are those without idle underscores, so
  snake case and Pascal case undo each other between the two kinds of names;
* `handle_names_survive` — hence what is made of distinct handles is distinct.
-/

namespace Bindery

namespace Naming

/-! ### One letter -/

theorem toUpper_toLower {c : Char} (h : c.isUpper = true) : c.toLower.toUpper = c := by
  have hlower : ¬ c.isLower = true := by
    intro hlower
    have hupper : c.isUpper = false := isUpper_of_isSnakeTail (isSnakeTail_of_isLower hlower)
    rw [h] at hupper
    cases hupper
  rw [Char.toUpper_toLower_eq_toUpper, Char.toUpper_eq_of_not_isLower hlower]

/-- **What snake case makes of a letter or a digit is read back as it was**, whatever follows. -/
theorem pascalFrom_lowered_append {c : Char} (h : c.isAlphanum = true) (cs : List Char) :
    pascalFrom false (lowered c ++ cs) = c :: pascalFrom false cs := by
  by_cases hupper : c.isUpper = true
  · -- the underscore raises the letter behind it
    have hlower : c.toLower.isLower = true := by simp [Char.isAlpha, hupper]
    rw [lowered, if_pos hupper, List.cons_append, pascalFrom_underscore, List.singleton_append,
      pascalFrom_cons (ne_underscore_of_isLower hlower), if_pos rfl, toUpper_toLower hupper]
  -- A letter that is not raised stands for itself.
  · have hc : c ≠ '_' := by
      rintro rfl
      exact absurd h (by decide)
    rw [lowered, if_neg hupper, List.singleton_append, pascalFrom_cons hc,
      if_neg Bool.false_ne_true]

theorem pascalFrom_flatMap_lowered {cs : List Char} (h : ∀ c ∈ cs, c.isAlphanum = true) :
    pascalFrom false (cs.flatMap lowered) = cs := by
  induction cs with
  | nil => rfl
  | cons c cs ih =>
    rw [List.forall_mem_cons] at h
    rw [List.flatMap_cons, pascalFrom_lowered_append h.1, ih h.2]

/-! ### Whole names -/

variable {s t : String}

/-- **A handle is read back from snake case.** -/
theorem pascalCase_handleToSnake (h : isPascalIdentifier s = true) :
    pascalCase (handleToSnake s) = s := by
  obtain ⟨c, cs, hs, hupper, hall⟩ := exists_of_isPascalIdentifier h
  have hlower : c.toLower.isLower = true := by simp [Char.isAlpha, hupper]
  have hsnake : (handleToSnake s).toList = c.toLower :: cs.flatMap lowered := by
    rw [handleToSnake, hs]
    exact String.toList_ofList
  apply String.toList_injective
  -- the first letter is raised without an underscore in front of it, the others by theirs
  calc (pascalCase (handleToSnake s)).toList
      = pascalFrom true (c.toLower :: cs.flatMap lowered) := by rw [toList_pascalCase, hsnake]
    _ = c.toLower.toUpper :: pascalFrom false (cs.flatMap lowered) := by
        rw [pascalFrom_cons (ne_underscore_of_isLower hlower), if_pos rfl]
    _ = c :: cs := by rw [toUpper_toLower hupper, pascalFrom_flatMap_lowered hall]
    _ = s.toList := hs.symm

/-- Every underscore in the snake case of a handle stands before a letter. -/
theorem condense_handleToSnake (h : isPascalIdentifier s = true) :
    condense (handleToSnake s) = handleToSnake s := by
  have hsnake := isSnakeIdentifier_handleToSnake h
  calc condense (handleToSnake s)
      = handleToSnake (pascalCase (handleToSnake s)) := (handleToSnake_pascalCase hsnake).symm
    _ = handleToSnake s := by rw [pascalCase_handleToSnake h]

/-- **The names that handles become** are the names in snake case without idle underscores, and a
handle becomes the one that reads as the handle in Pascal case. -/
theorem handleToSnake_eq_iff (hs : isPascalIdentifier s = true) (ht : isSnakeIdentifier t = true) :
    handleToSnake s = t ↔ pascalCase t = s ∧ condense t = t := by
  constructor
  · rintro rfl
    exact ⟨pascalCase_handleToSnake hs, condense_handleToSnake hs⟩
  · rintro ⟨rfl, hcondensed⟩
    rw [handleToSnake_pascalCase ht, hcondensed]

/-- **Distinct handles are distinct in snake case.** -/
theorem handleToSnake_inj (hs : isPascalIdentifier s = true) (ht : isPascalIdentifier t = true) :
    handleToSnake s = handleToSnake t ↔ s = t := by
  constructor
  · intro halike
    calc s = pascalCase (handleToSnake s) := (pascalCase_handleToSnake hs).symm
      _ = pascalCase (handleToSnake t) := by rw [halike]
      _ = t := pascalCase_handleToSnake ht
  · intro halike
    rw [halike]

/-! ### Names that are made of handles -/

theorem handleTypedef_inj (hs : isPascalIdentifier s = true) (ht : isPascalIdentifier t = true) :
    handleTypedef s = handleTypedef t ↔ s = t := by
  rw [handleTypedef, handleTypedef, String.append_left_inj, handleToSnake_inj hs ht]

theorem handleStructTag_inj (hs : isPascalIdentifier s = true)
    (ht : isPascalIdentifier t = true) : handleStructTag s = handleStructTag t ↔ s = t := by
  rw [handleStructTag, handleStructTag, String.append_left_inj, handleToSnake_inj hs ht]

theorem destructorName_inj (hs : isPascalIdentifier s = true) (ht : isPascalIdentifier t = true) :
    destructorName s = destructorName t ↔ s = t := by
  rw [destructorName, destructorName, String.append_right_inj, handleToSnake_inj hs ht]

/-- No type of a handle is called like a tag: their last letters differ. -/
theorem handleTypedef_ne_handleStructTag (s t : String) : handleTypedef s ≠ handleStructTag t := by
  intro h
  have hlast := congrArg (fun text => text.toList.getLast?) h
  have htypedef : (handleTypedef s).toList.getLast? = some 'e' := by
    rw [handleTypedef, String.toList_append, List.getLast?_append]
    rfl
  have htag : (handleStructTag t).toList.getLast? = some 's' := by
    rw [handleStructTag, String.toList_append, List.getLast?_append]
    rfl
  rw [htypedef, htag] at hlast
  exact absurd hlast (by decide)

/-- What is made of the handles of a valid description is distinct if no two handles make the
same. -/
theorem nodup_map_handles {a : Api} {types : Option Schema} (h : Validate.Conforms a types)
    {made : String → String}
    (hmade : ∀ {s t : String}, isPascalIdentifier s = true → isPascalIdentifier t = true →
      (made s = made t ↔ s = t)) :
    (a.handles.map fun handle => made handle.name).Nodup := by
  have hnames := h.handleNames
  have hhandles : a.handles.Nodup := hnames.of_map
  refine (List.nodup_map_iff_inj_on hhandles).mpr fun handle hmem other hother halike => ?_
  refine List.inj_on_of_nodup_map hnames hmem hother ?_
  exact (hmade (h.handlesPascal handle hmem) (h.handlesPascal other hother)).mp halike

/-- **Handles survive snake case.** Every name in Pascal case is a name in snake case then, and
Pascal case reads it back. Hence two handles have the same type, the same tag or the same name of a
destructor only if they are the same handle, and the types, the tags and the names of the
destructors of all handles of a valid description are distinct, each among themselves. No type is
called like a tag. -/
theorem handle_names_survive :
    (∀ h, isPascalIdentifier h = true →
      pascalCase (handleToSnake h) = h ∧ isSnakeIdentifier (handleToSnake h) = true) ∧
      (∀ h h', isPascalIdentifier h = true → isPascalIdentifier h' = true → h ≠ h' →
        handleTypedef h ≠ handleTypedef h' ∧ handleStructTag h ≠ handleStructTag h' ∧
          destructorName h ≠ destructorName h') ∧
      (∀ h h', handleTypedef h ≠ handleStructTag h') ∧
      ∀ (a : Api) (types : Option Schema), a.validate types = [] →
        (a.handles.map fun h => handleTypedef h.name).Nodup ∧
          (a.handles.map fun h => handleStructTag h.name).Nodup ∧
          (a.handles.map fun h => destructorName h.name).Nodup := by
  refine ⟨fun h hpascal => ?_, fun h h' hpascal hpascal' hne => ?_,
    handleTypedef_ne_handleStructTag, fun a types valid => ?_⟩
  · exact ⟨pascalCase_handleToSnake hpascal, isSnakeIdentifier_handleToSnake hpascal⟩
  · refine ⟨?_, ?_, ?_⟩
    · rwa [ne_eq, handleTypedef_inj hpascal hpascal']
    · rwa [ne_eq, handleStructTag_inj hpascal hpascal']
    · rwa [ne_eq, destructorName_inj hpascal hpascal']
  -- Handles of a description are distinct, and so is whatever is injective in them.
  · have hconforms := Validate.conforms_of_validate valid
    exact ⟨nodup_map_handles hconforms handleTypedef_inj,
      nodup_map_handles hconforms handleStructTag_inj,
      nodup_map_handles hconforms destructorName_inj⟩

/-- A description with handles that differ in acronyms, single letters and digits only. -/
def bufferApi : Api where
  metadata := { name := "demo", version := "1.0.0", language := .rust }
  schemas := ["demo.fbs"]
  handles := [{ name := "GPUBuffer" }, { name := "GpuBuffer" }, { name := "B" }, { name := "B2D" },
    { name := "B2d" }]
  interfaces := [{ name := "log", methods := [{ name := "flush" }] }]

theorem handle_names_survive_buffer :
    isPascalIdentifier "GPUBuffer" = true ∧ handleToSnake "GPUBuffer" = "g_p_u_buffer" ∧
      pascalCase "g_p_u_buffer" = "GPUBuffer" ∧ isSnakeIdentifier "g_p_u_buffer" = true ∧
      isPascalIdentifier "GpuBuffer" = true ∧
      handleTypedef "GPUBuffer" ≠ handleTypedef "GpuBuffer" ∧
      bufferApi.validate none = [] ∧
      (bufferApi.handles.map fun h => handleTypedef h.name).Nodup ∧
      (bufferApi.handles.map fun h => handleStructTag h.name).Nodup ∧
      (bufferApi.handles.map fun h => destructorName h.name).Nodup := by
  obtain ⟨hback, hdistinct, -, hdeclared⟩ := handle_names_survive
  have hacronym : isPascalIdentifier "GPUBuffer" = true := by decide
  have hword : isPascalIdentifier "GpuBuffer" = true := by decide
  have hsnake : handleToSnake "GPUBuffer" = "g_p_u_buffer" := by decide
  have valid : bufferApi.validate none = [] := by decide +kernel
  obtain ⟨hpascal, hidentifier⟩ := hback _ hacronym
  rw [hsnake] at hpascal hidentifier
  exact ⟨hacronym, hsnake, hpascal, hidentifier, hword,
    (hdistinct _ _ hacronym hword (by decide)).1, valid, hdeclared bufferApi none valid⟩

end Naming

end Bindery
