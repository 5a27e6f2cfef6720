import Bindery.FileSystem
import Bindery.Proofs.Paths
import Bindery.Proofs.Success

/-!
# Looking up paths

A path is looked up step by step, and every step needs a directory to start from. The location that
it ends at does not depend on what lies there: it can be computed from the names alone
(`FileSystem.target`). So a look-up is a matter of two things, where the path leads and whether the
way there is open:

* `walk_eq_ok` — a look-up that ends well ends at the target, and the way there is open;
* `locate_of_open` — an open way that ends in a directory can be walked;
* `locate_of_names` — where a path ends does not depend on how its names are written;
* `find_congr` — a look-up only sees what lies on its way and at its end.

A file system is a tree when all that lies somewhere lies in a directory (`FileSystem.IsTree`).
-/

namespace Bindery

namespace FileSystem

/-! ### Where paths lead -/

/-- One name further on. -/
def stepTo (l : Location) (name : String) : Location :=
  if name = ".." then l.dropLast else l ++ [name]

/-- Where names lead from a location, whatever lies on the way. -/
def resolve (l : Location) (names : List String) : Location := names.foldl stepTo l

/-- The location that a path names, whatever lies on the way. -/
def target (fs : FileSystem) (path : String) : Location :=
  resolve (fs.start path) (Path.names path)

/-- **A path leads through a location** that it comes by before its end. -/
def LeadsThrough (fs : FileSystem) (path : String) (l : Location) : Prop :=
  ∃ front name rest, Path.names path = front ++ name :: rest ∧ resolve (fs.start path) front = l

/-- A path leads through a location or ends there. -/
def Passes (fs : FileSystem) (path : String) (l : Location) : Prop :=
  ∃ front rest, Path.names path = front ++ rest ∧ resolve (fs.start path) front = l

@[simp] theorem resolve_nil (l : Location) : resolve l [] = l := rfl

@[simp] theorem resolve_cons (l : Location) (name : String) (rest : List String) :
    resolve l (name :: rest) = resolve (stepTo l name) rest := rfl

/-- Names that do not lead up are added to the location. -/
theorem resolve_eq_append {l : Location} {names : List String} (h : ".." ∉ names) :
    resolve l names = l ++ names := by
  induction names generalizing l with
  | nil => exact (List.append_nil l).symm
  | cons name rest ih =>
    rw [List.mem_cons, not_or] at h
    rw [resolve_cons, stepTo, if_neg (Ne.symm h.1), ih h.2, List.append_assoc,
      List.singleton_append]

theorem passes_iff {fs : FileSystem} {path : String} {l : Location} :
    fs.Passes path l ↔ fs.LeadsThrough path l ∨ l = fs.target path := by
  constructor
  · rintro ⟨front, rest, hnames, rfl⟩
    cases rest with
    | nil =>
      rw [List.append_nil] at hnames
      exact .inr (by rw [target, hnames])
    | cons name rest => exact .inl ⟨front, name, rest, hnames, rfl⟩
  · rintro (⟨front, name, rest, hnames, rfl⟩ | rfl)
    · exact ⟨front, name :: rest, hnames, rfl⟩
    · exact ⟨Path.names path, [], (List.append_nil _).symm, rfl⟩

section Home

variable {fs fs' : FileSystem} (h : fs'.home = fs.home)

include h

/-- Where a path leads depends on the working directory only. -/
theorem start_congr (path : String) : fs'.start path = fs.start path := by
  rw [start, start, h]

theorem target_congr (path : String) : fs'.target path = fs.target path := by
  rw [target, target, start_congr h]

theorem leadsThrough_congr (path : String) (l : Location) :
    fs'.LeadsThrough path l ↔ fs.LeadsThrough path l := by
  rw [LeadsThrough, LeadsThrough, start_congr h]

end Home

/-! ### Open ways -/

/-- **A way is open** when every name on it is looked up in a directory and none is too long. -/
def Open (fs : FileSystem) : Location → List String → Prop
  | _, [] => True
  | l, name :: rest =>
    fs.node? l = some .directory ∧ (name = ".." ∨ name.utf8ByteSize ≤ maxName) ∧
      fs.Open (stepTo l name) rest

theorem open_append_iff {fs : FileSystem} {l : Location} {xs ys : List String} :
    fs.Open l (xs ++ ys) ↔ fs.Open l xs ∧ fs.Open (resolve l xs) ys := by
  induction xs generalizing l with
  | nil => exact (and_iff_right trivial).symm
  | cons x xs ih => rw [List.cons_append, Open, Open, ih, resolve_cons, and_assoc, and_assoc]

/-- Whatever an open way leads through is a directory. -/
theorem Open.directory {fs : FileSystem} {path : String} {l : Location}
    (h : fs.Open (fs.start path) (Path.names path)) (hl : fs.LeadsThrough path l) :
    fs.node? l = some .directory := by
  obtain ⟨front, name, rest, hnames, rfl⟩ := hl
  rw [hnames, open_append_iff] at h
  exact h.2.1

/-- One step of a look-up. -/
theorem walk_cons_eq_ok_iff {fs : FileSystem} {l l' : Location} {s : String} {rest : List String} :
    fs.walk l (s :: rest) = .ok l' ↔
      fs.node? l = some .directory ∧
        if Path.isVoid s then fs.walk l rest = .ok l'
        else (s = ".." ∨ s.utf8ByteSize ≤ maxName) ∧ fs.walk (stepTo l s) rest = .ok l' := by
  rw [walk]
  -- By what is there, and then by the kind of the name in the order of the walk.
  cases hnode : fs.node? l with
  | none => simp
  | some n =>
    cases n with
    | file data => simp
    | directory =>
      by_cases hvoid : Path.isVoid s
      · simp [hvoid]
      · by_cases hup : s = ".."
        · subst hup
          simp [hvoid, stepTo]
        · by_cases hlong : maxName < s.utf8ByteSize
          · simp [hvoid, hup, hlong]
          · simp [hvoid, hup, hlong, stepTo, Nat.le_of_not_lt hlong]

theorem walk_append {fs : FileSystem} {l : Location} {xs ys : List String} :
    fs.walk l (xs ++ ys) = fs.walk l xs >>= fun l => fs.walk l ys := by
  -- At each name both walks stop alike or go on with the rest.
  induction xs generalizing l with
  | nil => rfl
  | cons s rest ih =>
    rw [List.cons_append, walk, walk]
    split
    next => rfl
    next => rfl
    next =>
      split
      next => exact ih
      next =>
        split
        next => exact ih
        next =>
          split
          next => rfl
          next => exact ih

/-- **A look-up that ends well ends where the names lead, by an open way.** -/
theorem walk_eq_ok {fs : FileSystem} {l l' : Location} {segments : List String}
    (h : fs.walk l segments = .ok l') :
    fs.Open l (segments.filter fun s => !Path.isVoid s) ∧
      l' = resolve l (segments.filter fun s => !Path.isVoid s) := by
  induction segments generalizing l with
  | nil => exact ⟨trivial, (Except.ok.inj h).symm⟩
  | cons s rest ih =>
    obtain ⟨hnode, hstep⟩ := walk_cons_eq_ok_iff.mp h
    by_cases hvoid : Path.isVoid s
    · rw [if_pos hvoid] at hstep
      rw [List.filter_cons_of_neg (by simp [hvoid])]
      exact ih hstep
    -- Only a name that is not void takes a step.
    · rw [if_neg hvoid] at hstep
      rw [List.filter_cons_of_pos (by simpa using hvoid)]
      obtain ⟨hopen, hl'⟩ := ih hstep.2
      exact ⟨⟨hnode, hstep.1, hopen⟩, hl'⟩

/-- An open way to a directory can be walked. -/
theorem walk_of_open {fs : FileSystem} {l : Location} {segments : List String}
    (hopen : fs.Open l (segments.filter fun s => !Path.isVoid s))
    (hend : fs.node? (resolve l (segments.filter fun s => !Path.isVoid s)) = some .directory) :
    fs.walk l segments = .ok (resolve l (segments.filter fun s => !Path.isVoid s)) := by
  induction segments generalizing l with
  | nil => rfl
  | cons s rest ih =>
    by_cases hvoid : Path.isVoid s
    · rw [List.filter_cons_of_neg (by simp [hvoid])] at hopen hend ⊢
      -- a void segment asks for a directory and stays there
      have hnode : fs.node? l = some .directory := by
        cases hnames : rest.filter fun s => !Path.isVoid s with
        | nil => rwa [hnames] at hend
        | cons name names =>
          rw [hnames] at hopen
          exact hopen.1
      rw [walk_cons_eq_ok_iff, if_pos hvoid]
      exact ⟨hnode, ih hopen hend⟩
    · rw [List.filter_cons_of_pos (by simpa using hvoid)] at hopen hend ⊢
      rw [walk_cons_eq_ok_iff, if_neg hvoid]
      exact ⟨hopen.1, hopen.2.1, ih hopen.2.2 hend⟩

/-- **Directories that stay keep ways open.** -/
theorem walk_mono {fs fs' : FileSystem}
    (h : ∀ l, fs.node? l = some .directory → fs'.node? l = some .directory)
    {l l' : Location} {segments : List String} (hwalk : fs.walk l segments = .ok l') :
    fs'.walk l segments = .ok l' := by
  -- Each step of the walk needs a directory that is still one.
  induction segments generalizing l with
  | nil => exact hwalk
  | cons s rest ih =>
    rw [walk_cons_eq_ok_iff] at hwalk ⊢
    refine ⟨h l hwalk.1, ?_⟩
    by_cases hvoid : Path.isVoid s
    · rw [if_pos hvoid] at hwalk ⊢
      exact ih hwalk.2
    · rw [if_neg hvoid] at hwalk ⊢
      exact ⟨hwalk.2.1, ih hwalk.2.2⟩

/-- A look-up sees what lies where it comes by. -/
theorem walk_congr {fs fs' : FileSystem} {l : Location} {segments : List String}
    (h : ∀ front rest, (segments.filter fun s => !Path.isVoid s) = front ++ rest →
      fs'.node? (resolve l front) = fs.node? (resolve l front)) :
    fs'.walk l segments = fs.walk l segments := by
  induction segments generalizing l with
  | nil => rfl
  | cons s rest ih =>
    have hhere : fs'.node? l = fs.node? l := h [] _ rfl
    rw [walk, walk, hhere]
    by_cases hvoid : Path.isVoid s
    · rw [List.filter_cons_of_neg (by simp [hvoid])] at h
      rw [if_pos hvoid, if_pos hvoid, ih h]
    · rw [List.filter_cons_of_pos (by simpa using hvoid)] at h
      -- further on, every location is one name farther away
      have hfurther : ∀ front rest', (rest.filter fun s => !Path.isVoid s) = front ++ rest' →
          fs'.node? (resolve (stepTo l s) front) = fs.node? (resolve (stepTo l s) front) := by
        intro front rest' hnames
        exact h (s :: front) rest' (by rw [hnames, List.cons_append])
      have hih := ih hfurther
      rw [stepTo] at hih
      rw [if_neg hvoid, if_neg hvoid]
      split at hih
      next hup => rw [if_pos hup, if_pos hup, hih]
      next hup => rw [if_neg hup, if_neg hup, hih]

/-! ### Looking up -/

theorem locate_eq_ok {fs : FileSystem} {path : String} {l : Location} (h : fs.locate path = .ok l) :
    checkPath path = .ok () ∧ fs.Open (fs.start path) (Path.names path) ∧ l = fs.target path := by
  obtain ⟨⟨⟩, hcheck, hwalk⟩ := bind_eq_ok_iff.mp h
  obtain ⟨hopen, hl⟩ := walk_eq_ok hwalk
  exact ⟨hcheck, hopen, hl⟩

/-- A path that leads to a directory by an open way is found. -/
theorem locate_of_open {fs : FileSystem} {path : String} (hcheck : checkPath path = .ok ())
    (hopen : fs.Open (fs.start path) (Path.names path))
    (hend : fs.node? (fs.target path) = some .directory) :
    fs.locate path = .ok (fs.target path) :=
  bind_eq_ok_iff.mpr ⟨(), hcheck, walk_of_open hopen hend⟩

theorem find_eq_ok_iff {fs : FileSystem} {path : String} {n : FileNode} :
    fs.find path = .ok n ↔
      fs.locate path = .ok (fs.target path) ∧ fs.node? (fs.target path) = some n := by
  rw [find, bind_eq_ok_iff]
  constructor
  · rintro ⟨l, hl, hnode⟩
    obtain ⟨-, -, rfl⟩ := locate_eq_ok hl
    refine ⟨hl, ?_⟩
    cases hn : fs.node? (fs.target path) with
    | none => simp [hn] at hnode
    | some m =>
      rw [hn] at hnode
      exact congrArg some (Except.ok.inj hnode)
  · rintro ⟨hl, hn⟩
    exact ⟨fs.target path, hl, by rw [hn]; rfl⟩

theorem pathExists_iff {fs : FileSystem} {path : String} :
    fs.pathExists path = true ↔ ∃ n, fs.find path = .ok n := by
  rw [pathExists]
  cases fs.find path with
  | error e => simp [Except.toOption]
  | ok n => simp [Except.toOption]

theorem readBytes_of_find {fs : FileSystem} {path : String} {data : ByteArray}
    (h : fs.find path = .ok (.file data)) : fs.readBytes path = .ok data :=
  bind_eq_ok_iff.mpr ⟨_, h, rfl⟩

/-- Only a file has bytes. -/
theorem find_of_readBytes {fs : FileSystem} {path : String} {data : ByteArray}
    (h : fs.readBytes path = .ok data) : fs.find path = .ok (.file data) := by
  obtain ⟨n, hn, h⟩ := bind_eq_ok_iff.mp h
  cases n with
  | directory => cases h
  | file bytes =>
    obtain rfl := pure_eq_ok_iff.mp h
    exact hn

theorem size_of_find {fs : FileSystem} {path : String} {data : ByteArray}
    (h : fs.find path = .ok (.file data)) : fs.size path = .ok data.size :=
  bind_eq_ok_iff.mpr ⟨_, h, rfl⟩

/-- A text is read as it was written. -/
theorem readText_of_find {fs : FileSystem} {path text : String}
    (h : fs.find path = .ok (.file text.toUTF8)) : fs.readText path = .ok text := by
  have htext : String.fromUTF8? text.toUTF8 = some text := dif_pos text.isValidUTF8
  refine bind_eq_ok_iff.mpr ⟨_, readBytes_of_find h, ?_⟩
  rw [htext]
  rfl

/-- **A look-up sees nothing but its way and its end.** -/
theorem find_congr {fs fs' : FileSystem} {path : String} (hhome : fs'.home = fs.home)
    (h : ∀ l, fs.Passes path l → fs'.node? l = fs.node? l) : fs'.find path = fs.find path := by
  -- Locating the path looks at nothing that has changed.
  have hlocate : fs'.locate path = fs.locate path := by
    unfold locate
    rw [start_congr hhome, walk_congr fun front rest hnames => h _ ⟨front, rest, hnames, rfl⟩]
  unfold find
  rw [hlocate]
  cases hl : fs.locate path with
  | error e => rfl
  | ok l =>
    obtain ⟨-, -, rfl⟩ := locate_eq_ok hl
    dsimp only [bind, Except.bind]
    rw [h _ (passes_iff.mpr (.inr rfl))]

theorem locate_mono {fs fs' : FileSystem} (hhome : fs'.home = fs.home)
    (h : ∀ l, fs.node? l = some .directory → fs'.node? l = some .directory) {path : String}
    {l : Location} (hl : fs.locate path = .ok l) : fs'.locate path = .ok l := by
  obtain ⟨⟨⟩, hcheck, hwalk⟩ := bind_eq_ok_iff.mp hl
  refine bind_eq_ok_iff.mpr ⟨(), hcheck, ?_⟩
  rw [start_congr hhome]
  exact walk_mono h hwalk

/-- What can be looked up at all. -/
theorem checkPath_eq_ok_iff {path : String} :
    checkPath path = .ok () ↔
      '\x00' ∉ path.toList ∧ path ≠ "" ∧ path.utf8ByteSize ≤ maxPath := by
  rw [checkPath]
  -- The checks come one after another, and each one assumes those before.
  split
  next hzero =>
    rw [List.contains_iff_mem] at hzero
    simp [hzero]
  next hzero =>
    rw [List.contains_iff_mem] at hzero
    split
    next hempty => simp [hempty]
    next hempty =>
      split
      next hlong => simp [Nat.not_le.mpr hlong]
      next hlong => simp [hzero, hempty, Nat.le_of_not_lt hlong]

/-- A beginning of a path that can be looked up can be looked up, unless it is empty. -/
theorem checkPath_of_beginning {p q : String} (h : checkPath p = .ok ())
    (hbegins : q.toList <+: p.toList) (hq : q ≠ "") : checkPath q = .ok () := by
  obtain ⟨rest, hp⟩ := hbegins
  obtain rfl : q ++ String.ofList rest = p := by
    rw [← String.toList_inj, String.toList_append, String.toList_ofList, hp]
  rw [checkPath_eq_ok_iff] at h ⊢
  obtain ⟨hzero, -, hsize⟩ := h
  rw [String.toList_append, List.mem_append, not_or] at hzero
  rw [String.utf8ByteSize_append] at hsize
  exact ⟨hzero.1, hq, by omega⟩

/-- **Another path to what can be looked up**: it starts at the same place and has the same names,
the last of which stands at its end. -/
theorem locate_of_names {fs : FileSystem} {p q : String} {l : Location}
    {front : List String} {last : String} (h : fs.locate p = .ok l) (hcheck : checkPath q = .ok ())
    (hstart : fs.start q = fs.start p) (hnames : Path.names q = Path.names p)
    (hsegments : (Path.parts q).segments = front ++ [last]) (hlast : Path.isVoid last = false) :
    fs.locate q = .ok l := by
  obtain ⟨-, hopen, rfl⟩ := locate_eq_ok h
  -- The two paths have one last name and the same directories above it.
  have hsplit : Path.names q = (front.filter fun s => !Path.isVoid s) ++ [last] := by
    rw [Path.names, hsegments, List.filter_append, List.filter_singleton, hlast]
    rfl
  rw [← hnames, hsplit, open_append_iff] at hopen
  obtain ⟨hfront, hdirectory, hlong, -⟩ := hopen
  refine bind_eq_ok_iff.mpr ⟨(), hcheck, ?_⟩
  rw [hsegments, walk_append, hstart]
  refine bind_eq_ok_iff.mpr ⟨_, walk_of_open hfront hdirectory, ?_⟩
  rw [walk_cons_eq_ok_iff, hlast, if_neg Bool.false_ne_true]
  refine ⟨hdirectory, hlong, ?_⟩
  rw [target, ← hnames, hsplit, resolve, resolve, List.foldl_append]
  rfl

/-! ### Trees -/

/-- The first location is a directory above the second one. -/
def Above (l l' : Location) : Prop := l <+: l' ∧ l ≠ l'

/-- **A tree**: whatever lies somewhere lies in directories. -/
def IsTree (fs : FileSystem) : Prop :=
  ∀ l l', Above l l' → fs.node? l' ≠ none → fs.node? l = some .directory

/-- What lies somewhere is the root or an entry. -/
theorem mem_entries_of_node? {fs : FileSystem} {l : Location} (h : fs.node? l ≠ none) :
    l = [] ∨ ∃ n, (l, n) ∈ fs.entries := by
  by_cases hroot : l = []
  · exact .inl hroot
  · obtain ⟨n, hn⟩ := Option.ne_none_iff_exists'.mp h
    rw [node?, if_neg hroot, lookupEntry, Option.map_eq_some_iff] at hn
    obtain ⟨e, he, -⟩ := hn
    obtain rfl : e.1 = l := by simpa using List.find?_some he
    exact .inr ⟨e.2, List.mem_of_find?_eq_some he⟩

/-- In a tree, every entry lies in a directory, and that is enough. -/
theorem isTree_of_parents {fs : FileSystem}
    (h : ∀ e ∈ fs.entries, e.1 ≠ [] → fs.node? e.1.dropLast = some .directory) : fs.IsTree := by
  intro l l' habove hnode
  induction hlength : l'.length using Nat.strong_induction_on generalizing l' with
  | _ n ih =>
    have hne : l' ≠ [] := by
      rintro rfl
      exact habove.2 (List.prefix_nil.mp habove.1)
    obtain ⟨m, hm⟩ := (mem_entries_of_node? hnode).resolve_left hne
    have hparent := h _ hm hne
    -- what lies above an entry is its directory or lies above that
    by_cases heq : l = l'.dropLast
    · rw [heq]
      exact hparent
    · have hbegins : l <+: l'.dropLast := by
        rw [← List.dropLast_append_getLast hne] at habove
        exact (List.prefix_concat_iff.mp habove.1).resolve_left habove.2
      refine ih l'.dropLast.length ?_ l'.dropLast ⟨hbegins, heq⟩ (by simp [hparent]) rfl
      rw [← hlength, List.length_dropLast]
      have := List.length_pos_of_ne_nil hne
      omega

/-- A path that does not lead up leads through locations above its end. -/
theorem LeadsThrough.above {fs : FileSystem} {path : String} {l : Location}
    (hpath : ".." ∉ Path.names path) (h : fs.LeadsThrough path l) : Above l (fs.target path) := by
  obtain ⟨front, name, rest, hnames, rfl⟩ := h
  have hfront : ".." ∉ front := fun hmem => hpath (hnames ▸ List.mem_append_left _ hmem)
  rw [target, resolve_eq_append hpath, resolve_eq_append hfront, hnames, ← List.append_assoc]
  refine ⟨List.prefix_append _ _, fun heq => ?_⟩
  have hlength := congrArg List.length heq
  simp at hlength

end FileSystem

end Bindery
