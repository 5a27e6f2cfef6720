import Bindery.Path
import Bindery.Proofs.Text

/-!
# Paths and their names

A path is kept as it is written, with void segments between its slashes, while what it leads to
depends only on where it begins and on its names (`Path.place`). The operations on paths are
understood through that:

* `names_eq` — the names are the pieces between slashes that are not void, wherever the path
  begins;
* `names_join`, `isAbsolute_join` — a relative path that is joined to a directory adds its names
  behind those of the directory;
* `exists_names_parent?` — the names of a parent are the first names of the path.
-/

namespace Bindery.Path

open Text

/-- Where a path leads to: whether it starts at the root, and its names. -/
def place (p : String) : Bool × List String := (isAbsolute p, names p)

/-- A path that leads to something in a directory. -/
def Inside (dir p : String) : Prop :=
  isAbsolute p = isAbsolute dir ∧ ∃ rest, rest ≠ [] ∧ names p = names dir ++ rest

/-! ### Names -/

theorem cutList_slash (cs : List Char) : cutList '/' ('/' :: cs) = [] :: cutList '/' cs := rfl

/-- **The names of a path are its pieces that are not void.** -/
theorem names_eq (p : String) :
    names p = ((cutList '/' p.toList).map String.ofList).filter fun s => !isVoid s := by
  unfold names parts
  split
  next rest heq =>
    rw [heq, cutList_slash]
    rfl
  next heq =>
    rw [heq]
    rfl
  next rest heq =>
    -- the dot in front is one more void piece
    have hcut : cutList '/' ('.' :: '/' :: rest) = ['.'] :: cutList '/' rest := rfl
    rw [heq, hcut]
    rfl
  next => rfl

/-- A slash between two texts separates their names. -/
theorem names_append_slash (a b : String) : names (a ++ "/" ++ b) = names a ++ names b := by
  have hsplit : cutList '/' (a ++ "/" ++ b).toList =
      cutList '/' a.toList ++ cutList '/' b.toList := by
    have hlist : (a ++ "/" ++ b).toList = a.toList ++ '/' :: b.toList := by
      simp [String.toList_append]
    rw [hlist, cutList_eq_splitOn, cutList_eq_splitOn, cutList_eq_splitOn,
      List.splitOn_append_cons_self]
  rw [names_eq, names_eq, names_eq, hsplit, List.map_append, List.filter_append]

theorem names_empty : names "" = [] := by decide

/-- A piece without slashes is a name, unless it is void. -/
theorem names_of_piece {s : String} (hslash : '/' ∉ s.toList) (hvoid : isVoid s = false) :
    names s = [s] := by
  have hpiece : cutList '/' s.toList = [s.toList] := by
    rw [cutList_eq_splitOn]
    exact List.splitOn_eq_singleton hslash
  rw [names_eq, hpiece, List.map_singleton, String.ofList_toList, List.filter_singleton, hvoid]
  rfl

/-- The pieces of a path have no slashes. -/
theorem not_mem_of_mem_cutList {sep : Char} {cs piece : List Char} (h : piece ∈ cutList sep cs) :
    sep ∉ piece := by
  -- a character either cuts or goes into the first piece of the rest
  induction cs generalizing piece with
  | nil =>
    obtain rfl := List.mem_singleton.mp h
    exact List.not_mem_nil
  | cons c cs ih =>
    rw [cutList, List.foldr_cons, ← cutList] at h
    split at h
    next =>
      rcases List.mem_cons.mp h with rfl | h
      · exact List.not_mem_nil
      · exact ih h
    next hc =>
      split at h
      next =>
        obtain rfl := List.mem_singleton.mp h
        exact fun hmem => hc (List.mem_singleton.mp hmem).symm
      next first rest heq =>
        rcases List.mem_cons.mp h with rfl | h
        · intro hmem
          rcases List.mem_cons.mp hmem with hsep | hmem
          · exact hc hsep.symm
          · exact ih (heq ▸ List.mem_cons_self) hmem
        · exact ih (heq ▸ List.mem_cons_of_mem _ h)

theorem not_mem_of_mem_segments {p s : String} (h : s ∈ (parts p).segments) : '/' ∉ s.toList := by
  have hpiece : ∀ {cs : List Char}, s ∈ (cutList '/' cs).map String.ofList → '/' ∉ s.toList := by
    intro cs hs
    obtain ⟨piece, hpiece, rfl⟩ := List.mem_map.mp hs
    rw [String.toList_ofList]
    exact not_mem_of_mem_cutList hpiece
  unfold parts at h
  -- By the shape of the whole path: absolute, empty or relative.
  split at h
  next => exact hpiece h
  next => cases h
  next =>
    rcases List.mem_cons.mp h with rfl | h
    · exact List.not_mem_nil
    · exact hpiece h
  next => exact hpiece h

/-- Segments that are joined by slashes have the names of the segments. -/
theorem names_intercalate {segments : List String} (h : ∀ s ∈ segments, '/' ∉ s.toList) :
    names ("/".intercalate segments) = segments.filter fun s => !isVoid s := by
  have hpiece : ∀ s : String, '/' ∉ s.toList → names s = [s].filter fun s => !isVoid s := by
    intro s hs
    cases hvoid : isVoid s with
    | false => rw [names_of_piece hs hvoid, List.filter_cons_of_pos (by simp [hvoid]), List.filter_nil]
    | true =>
      rw [List.filter_cons_of_neg (by simp [hvoid]), List.filter_nil]
      rw [isVoid, Bool.or_eq_true, decide_eq_true_iff, decide_eq_true_iff] at hvoid
      rcases hvoid with rfl | rfl <;> decide
  induction segments with
  | nil => exact names_empty
  | cons s rest ih =>
    obtain ⟨hs, hrest⟩ := List.forall_mem_cons.mp h
    -- The last segment has no slash behind it.
    by_cases hnil : rest = []
    · subst hnil
      rw [String.intercalate_singleton]
      exact hpiece s hs
    · rw [String.intercalate_cons_of_ne_nil hnil, names_append_slash, ih hrest, hpiece s hs,
        ← List.filter_append, List.singleton_append]

/-- A name behind a slash is the last segment of a path. -/
theorem exists_segments_append_slash {a s : String} (ha : a ≠ "") (hs : '/' ∉ s.toList) :
    ∃ front, (parts (a ++ "/" ++ s)).segments = front ++ [s] := by
  have hpiece : (cutList '/' s.toList).map String.ofList = [s] := by
    rw [cutList_eq_splitOn, List.splitOn_eq_singleton hs, List.map_singleton,
      String.ofList_toList]
  -- the last slash cuts off the name, whatever stands in front of it
  have hcut : ∀ cs : List Char, ∃ front,
      (cutList '/' (cs ++ '/' :: s.toList)).map String.ofList = front ++ [s] := by
    intro cs
    refine ⟨(cutList '/' cs).map String.ofList, ?_⟩
    -- by how the path begins; a lone dot it cannot be
    rw [cutList_eq_splitOn, List.splitOn_append_cons_self, ← cutList_eq_splitOn,
      ← cutList_eq_splitOn, List.map_append, hpiece]
  have htext : (a ++ "/" ++ s).toList = a.toList ++ '/' :: s.toList := by
    simp [String.toList_append]
  obtain ⟨c, cs, hcs⟩ := List.exists_cons_of_ne_nil (mt String.toList_eq_nil_iff.mp ha)
  unfold parts
  rw [htext, hcs]
  split
  next rest heq =>
    obtain ⟨-, rfl⟩ := List.cons.inj heq
    exact hcut cs
  next heq => simp at heq
  next rest heq =>
    obtain ⟨-, heq⟩ := List.cons.inj heq
    cases cs with
    | nil =>
      obtain ⟨-, rfl⟩ := List.cons.inj heq
      exact ⟨[""], congrArg ("" :: ·) hpiece⟩
    | cons d ds =>
      obtain ⟨-, rfl⟩ := List.cons.inj heq
      obtain ⟨front, hfront⟩ := hcut ds
      exact ⟨"" :: front, congrArg ("" :: ·) hfront⟩
  next => exact hcut (c :: cs)

/-- A text that is a name in a path, and not the one that leads up. -/
def IsName (s : String) : Prop := '/' ∉ s.toList ∧ isVoid s = false ∧ s ≠ ".."

instance (s : String) : Decidable (IsName s) := inferInstanceAs (Decidable (_ ∧ _ ∧ _))

theorem isAbsolute_iff (p : String) : isAbsolute p = true ↔ p.toList.head? = some '/' := by
  unfold isAbsolute parts
  -- Only the first shape begins with the slash.
  split
  next rest heq => simp [heq]
  next heq => simp [heq]
  next rest heq => simp [heq]
  next cs hroot _ _ =>
    cases hcs : p.toList with
    | nil => simp
    | cons c cs =>
      have hc : c ≠ '/' := by
        rintro rfl
        exact hroot cs hcs
      simpa using hc

/-- A path that begins with a name is relative. -/
theorem IsName.isAbsolute_append {s : String} (h : IsName s) (rest : String) :
    isAbsolute (s ++ rest) = false := by
  obtain ⟨hslash, hvoid, -⟩ := h
  rw [Bool.eq_false_iff, Ne, isAbsolute_iff, String.toList_append]
  cases hs : s.toList with
  | nil =>
    obtain rfl := String.toList_eq_nil_iff.mp hs
    exact absurd hvoid (by decide)
  | cons c cs =>
    intro heq
    rw [hs, Option.some.inj heq] at hslash
    exact hslash List.mem_cons_self

/-! ### Joining -/

/-- **What is joined to a directory adds its names.** -/
theorem names_join {p : String} (h : isAbsolute p = false) (base : String) :
    names (join base p) = names base ++ names p := by
  rw [join, if_neg (by simp [h])]
  by_cases hempty : base = ""
  · subst hempty
    rw [if_pos (by simp), names_empty, List.nil_append, String.empty_append]
  · cases hslash : dropSuffix? "/" base with
    | none => rw [if_neg (by simp [hempty]), names_append_slash]
    | some stem =>
      -- a slash at the end of the directory separates already
      rw [dropSuffix?_eq_some_iff] at hslash
      rw [if_pos (by simp), hslash, names_append_slash]
      have hstem := names_append_slash stem ""
      rw [String.append_empty, names_empty, List.append_nil] at hstem
      rw [hstem]

theorem isAbsolute_join {p : String} (h : isAbsolute p = false) (base : String) :
    isAbsolute (join base p) = isAbsolute base := by
  rw [join, if_neg (by simp [h])]
  by_cases hempty : base = ""
  · subst hempty
    rw [if_pos (by simp), String.empty_append, h]
    rfl
  · obtain ⟨c, cs, hbase⟩ : ∃ c cs, base.toList = c :: cs :=
      List.exists_cons_of_ne_nil (by simpa using hempty)
    rw [Bool.eq_iff_iff, isAbsolute_iff, isAbsolute_iff]
    split
    all_goals simp [String.toList_append, hbase]

/-- **A joined path leads into the directory.** -/
theorem inside_join {p : String} (h : isAbsolute p = false) (hnames : names p ≠ [])
    (base : String) : Inside base (join base p) :=
  ⟨isAbsolute_join h base, names p, hnames, names_join h base⟩

theorem IsName.isAbsolute {s : String} (h : IsName s) : isAbsolute s = false := by
  have happend := h.isAbsolute_append ""
  rwa [String.append_empty] at happend

/-- What is joined to a directory by its name is one name further. -/
theorem IsName.names_join {s : String} (h : IsName s) (base : String) :
    names (join base s) = names base ++ [s] := by
  rw [Path.names_join h.isAbsolute, names_of_piece h.1 h.2.1]

/-- What stands in front of a relative path that is joined to a directory. -/
def lead (dir : String) : String :=
  if dir = "" || (dropSuffix? "/" dir).isSome then dir else dir ++ "/"

theorem join_eq_append {p : String} (h : isAbsolute p = false) (dir : String) :
    join dir p = lead dir ++ p := by
  rw [join, if_neg (by simp [h]), lead]
  split <;> rfl

/-- A directory that ends in a name is followed by a slash. -/
theorem lead_append {a s : String} (hs : s ≠ "") (hslash : '/' ∉ s.toList) :
    lead (a ++ s) = a ++ s ++ "/" := by
  obtain hnil | ⟨front, c, hcs⟩ := s.toList.eq_nil_or_concat
  · exact absurd (String.toList_eq_nil_iff.mp hnil) hs
  have hlist : (a ++ s).toList = (a.toList ++ front) ++ [c] := by
    rw [String.toList_append, hcs, List.concat_eq_append, List.append_assoc]
  -- What is appended does not end in a slash, so the whole does not either.
  have hnone : dropSuffix? "/" (a ++ s) = none := by
    by_contra hsome
    obtain ⟨stem, hstem⟩ := Option.ne_none_iff_exists'.mp hsome
    rw [dropSuffix?_eq_some_iff] at hstem
    have hlast := congrArg String.toList hstem
    rw [hlist, String.toList_append] at hlast
    obtain ⟨-, hc⟩ := List.append_inj' hlast rfl
    obtain rfl : c = '/' := (List.cons.inj hc).1
    exact hslash (by simp [hcs])
  have hne : a ++ s ≠ "" := by
    intro hempty
    rw [hempty] at hlist
    simp at hlist
  rw [lead, hnone, if_neg (by simp [hne])]

theorem lead_prefix (dir : String) : (lead dir).toList <+: (dir ++ "/").toList := by
  rw [lead]
  split
  · rw [String.toList_append]
    exact List.prefix_append _ _
  · exact List.prefix_refl _

/-! ### Parents -/

/-- The segments of a path, joined again. -/
theorem intercalate_cutList (cs : List Char) :
    "/".intercalate ((cutList '/' cs).map String.ofList) = String.ofList cs := by
  rw [← String.toList_inj, String.toList_intercalate, String.toList_ofList, List.map_map]
  have hid : (String.toList ∘ String.ofList) = id := funext fun _ => String.toList_ofList
  rw [hid, List.map_id, cutList_eq_splitOn]
  exact (List.intercalate_splitOn '/').trans String.toList_ofList.symm

/-- **A path that was taken apart can be put together.** -/
theorem text_parts (p : String) : (parts p).text = p := by
  rw [← String.toList_inj]
  unfold parts
  split
  next rest heq => rw [Parts.text, intercalate_cutList, heq]; simp [Front.text]
  next heq => rw [heq]; rfl
  next rest heq =>
    have hne : (cutList '/' rest).map String.ofList ≠ [] := by
      simp [cutList_eq_splitOn]
    rw [Parts.text, String.intercalate_cons_of_ne_nil hne, intercalate_cutList, heq]
    simp [Front.text]
  next => rw [Parts.text, intercalate_cutList]; simp [Front.text]

/-- A path whose segments fall in two parts has a slash between them. -/
theorem Parts.text_append {front : Front} {xs ys : List String} (hxs : xs ≠ []) (hys : ys ≠ []) :
    (Parts.mk front (xs ++ ys)).text = (Parts.mk front xs).text ++ "/" ++ "/".intercalate ys := by
  rw [Parts.text, Parts.text, String.intercalate_append_of_ne_nil hxs hys, ← String.append_assoc,
    ← String.append_assoc]

/-- A parent is the path up to some segment, behind which there is one name. Only the path of the
current directory has a parent without having a name. -/
theorem exists_segments_parent? {p q : String} (h : parent? p = some q) :
    (q = "" ∧ (parts p).front = .current ∧ names p = []) ∨
      ∃ xs ys last, ys.filter (fun s => !isVoid s) = [last] ∧ (parts p).segments = xs ++ ys ∧
        q = (Parts.mk (parts p).front xs).text := by
  simp only [parent?] at h
  split at h
  next last before heq =>
    -- void segments are passed over before the last name, and again behind it
    have hafter := List.takeWhile_append_dropWhile (p := isVoid) (l := (parts p).segments.reverse)
    have hbetween := List.takeWhile_append_dropWhile (p := isVoid) (l := before)
    have hvoid : ∀ l : List String,
        (l.takeWhile isVoid).reverse.filter (fun s => !isVoid s) = [] := by
      intro l
      rw [List.filter_eq_nil_iff]
      intro s hs
      simpa using List.mem_takeWhile_imp (List.mem_reverse.mp hs)
    have hlast : isVoid last = false := by
      have hhead := List.head?_dropWhile_not isVoid (parts p).segments.reverse
      rw [heq] at hhead
      simpa using hhead
    refine .inr ⟨(before.dropWhile isVoid).reverse,
      (before.takeWhile isVoid).reverse ++ [last] ++
        ((parts p).segments.reverse.takeWhile isVoid).reverse, last, ?_, ?_,
      (Option.some.inj h).symm⟩
    · rw [List.filter_append, List.filter_append, hvoid, hvoid]
      simp [hlast]
    · rw [heq, ← hbetween] at hafter
      refine List.reverse_injective (hafter.symm.trans ?_)
      simp
  next heq =>
    split at h
    next hfront =>
      refine .inl ⟨(Option.some.inj h).symm, hfront, ?_⟩
      rw [names, List.filter_eq_nil_iff]
      intro s hs
      simpa using List.dropWhile_eq_nil_iff.mp heq s (List.mem_reverse.mpr hs)
    next => cases h

/-- A path with names has a parent. -/
theorem exists_parent? {p : String} (h : names p ≠ []) : ∃ q, parent? p = some q := by
  simp only [parent?]
  split
  next => exact ⟨_, rfl⟩
  next heq =>
    refine absurd ?_ h
    rw [names, List.filter_eq_nil_iff]
    intro s hs
    simpa using List.dropWhile_eq_nil_iff.mp heq s (List.mem_reverse.mpr hs)

/-- **The names of the parent are those of the path without the last one.** -/
theorem names_parent? {p q : String} (h : parent? p = some q) :
    (q = "" ∧ names p = []) ∨ ∃ last, names p = names q ++ [last] := by
  obtain ⟨hq, -, hnames⟩ | ⟨xs, ys, last, hys, hsegments, rfl⟩ := exists_segments_parent? h
  · exact .inl ⟨hq, hnames⟩
  · refine .inr ⟨last, ?_⟩
    -- The parent is the front alone, or a path that the last segment was cut from.
    by_cases hxs : xs = []
    · subst hxs
      have hfront : names (Parts.mk (parts p).front []).text = [] := by
        cases (parts p).front <;> decide
      rw [hfront, names, hsegments, List.nil_append, hys, List.nil_append]
    · have hne : ys ≠ [] := by
        rintro rfl
        cases hys
      have htext : p = (Parts.mk (parts p).front xs).text ++ "/" ++ "/".intercalate ys := by
        rw [← Parts.text_append hxs hne, ← hsegments]
        exact (text_parts p).symm
      have hslash : ∀ s ∈ ys, '/' ∉ s.toList := fun s hs =>
        not_mem_of_mem_segments (p := p) (hsegments ▸ List.mem_append_right xs hs)
      conv_lhs => rw [htext]
      rw [names_append_slash, names_intercalate hslash, hys]

theorem exists_names_parent? {p q : String} (h : parent? p = some q) :
    ∃ rest, names p = names q ++ rest := by
  obtain ⟨rfl, hnames⟩ | ⟨last, hnames⟩ := names_parent? h
  · exact ⟨[], hnames⟩
  · exact ⟨[last], hnames⟩

/-- A parent is the beginning of the path. -/
theorem beginning_of_parent? {p q : String} (h : parent? p = some q) : q.toList <+: p.toList := by
  obtain ⟨rfl, -, -⟩ | ⟨xs, ys, last, hys, hsegments, rfl⟩ := exists_segments_parent? h
  · exact List.nil_prefix
  · have hp := text_parts p
    -- As above: with no segments left only the front remains.
    by_cases hxs : xs = []
    · subst hxs
      have hfront : (Parts.mk (parts p).front []).text = (parts p).front.text := String.append_empty
      refine ⟨("/".intercalate (parts p).segments).toList, ?_⟩
      rw [hfront, ← String.toList_append]
      exact congrArg String.toList hp
    · have hne : ys ≠ [] := by
        rintro rfl
        cases hys
      refine ⟨("/" ++ "/".intercalate ys).toList, ?_⟩
      rw [← String.toList_append, ← String.append_assoc, ← Parts.text_append hxs hne, ← hsegments, hp]

/-- A text with which a path begins starts where the path does. -/
theorem isAbsolute_of_beginning {p q : String} (h : q.toList <+: p.toList) (hq : q ≠ "") :
    isAbsolute q = isAbsolute p := by
  obtain ⟨rest, hp⟩ := h
  obtain ⟨c, cs, hcs⟩ : ∃ c cs, q.toList = c :: cs :=
    List.exists_cons_of_ne_nil (by simpa using hq)
  rw [Bool.eq_iff_iff, isAbsolute_iff, isAbsolute_iff, ← hp, hcs]
  simp

/-! ### Slashes at the end -/

/-- Slashes at the end of a path add no name. -/
theorem names_append_slashes (p : String) (n : Nat) :
    names (p ++ String.ofList (List.replicate n '/')) = names p := by
  induction n with
  | zero => rw [List.replicate_zero, String.ofList_nil, String.append_empty]
  | succ n ih =>
    have hlast : String.ofList (List.replicate (n + 1) '/') =
        String.ofList (List.replicate n '/') ++ "/" := by
      rw [List.replicate_succ', String.ofList_append]
    have hslash := names_append_slash (p ++ String.ofList (List.replicate n '/')) ""
    rw [String.append_empty, names_empty, List.append_nil, ih] at hslash
    rw [hlast, ← String.append_assoc, hslash]

theorem exists_eq_withoutSlashes (p : String) :
    ∃ n, p = withoutSlashes p ++ String.ofList (List.replicate n '/') := by
  have hsplit := List.takeWhile_append_dropWhile (p := (· = '/')) (l := p.toList.reverse)
  have hslashes : p.toList.reverse.takeWhile (· = '/') =
      List.replicate (p.toList.reverse.takeWhile (· = '/')).length '/' :=
    List.eq_replicate_of_mem fun c hc => by simpa using List.mem_takeWhile_imp hc
  unfold withoutSlashes
  cases hcs : (p.toList.reverse.dropWhile (· = '/')).reverse with
  | nil => exact ⟨0, by rw [List.replicate_zero, String.ofList_nil, String.append_empty]⟩
  | cons c cs =>
    refine ⟨(p.toList.reverse.takeWhile (· = '/')).length, ?_⟩
    rw [← String.toList_inj, String.toList_append, String.toList_ofList, String.toList_ofList, ← hcs,
      ← List.reverse_replicate, ← hslashes, ← List.reverse_append, hsplit, List.reverse_reverse]

/-- **Slashes at the end do not change where a path leads.** -/
theorem names_withoutSlashes (p : String) : names (withoutSlashes p) = names p := by
  obtain ⟨n, hp⟩ := exists_eq_withoutSlashes p
  conv_rhs => rw [hp]
  rw [names_append_slashes]

theorem beginning_withoutSlashes (p : String) : (withoutSlashes p).toList <+: p.toList := by
  obtain ⟨n, hp⟩ := exists_eq_withoutSlashes p
  refine ⟨List.replicate n '/', ?_⟩
  conv_rhs => rw [hp]
  rw [String.toList_append, String.toList_ofList]

theorem withoutSlashes_ne_empty {p : String} (h : p ≠ "") : withoutSlashes p ≠ "" := by
  unfold withoutSlashes
  cases hcs : (p.toList.reverse.dropWhile (· = '/')).reverse with
  | nil => exact h
  | cons c cs =>
    intro hempty
    rw [← String.toList_inj, String.toList_ofList] at hempty
    cases hempty

end Bindery.Path
