import Bindery.Emit.Rust
import Bindery.Proofs.Success
import Bindery.Proofs.Text

/-!
# What stands on a page

A document leaves it to the writer where lines end, so what is printed for it is not seen from the
document alone. Where every line ends by force it is: an item of a Rust file is written behind the
items in front of it, at the start of a line, and the next item starts a new line again
(`Doc.Writes`). So a file is the text of its items, one after the other (`sourceText_eq`).

* `Doc.writeAll_append` — pieces are written one after the other, and what must follow the first
  ones on their line is known from the others;
* `Doc.exists_writeAll` — writing appends, whatever the pieces are;
* `Doc.writes_braced` — a head and pieces between braces, a line for each piece;
* `Doc.writes_braced_head` — if only the head is known, then the item starts with it.

A head may have a list in it. The list is written on one line, or each of its members on a line of
its own with a comma behind it, also behind the last one (`Doc.Listed`).
-/

namespace Bindery

open Doc

namespace Text

/-- The text stands somewhere in the other one. -/
def Holds (file text : String) : Prop := ∃ before behind, file = before ++ text ++ behind

/-- Texts stand in what is joined from them. -/
theorem holds_join {texts : List String} {text : String} (h : text ∈ texts) :
    Holds (String.join texts) text := by
  obtain ⟨before, behind, rfl⟩ := List.append_of_mem h
  exact ⟨String.join before, String.join behind, by
    rw [String.join_append, String.join_cons, String.append_assoc]⟩

end Text

namespace Doc

/-! ### Texts -/

/-- A page on which a line starts at the outermost level. -/
def atStart (written : String) : Page := { written }

theorem put_atStart (written s : String) :
    (atStart written).put s =
      { written := written ++ s, room := (pageWidth : Int) - s.utf8ByteSize } := by
  have htimes : Text.times 0 " " = "" := rfl
  simp only [Page.put, atStart, htimes, String.append_empty]

theorem writeAll_text (s : Setting) (depth : Int) (trailing : Nat) (t : String) (ds : List Doc)
    (p : Page) :
    writeAll s depth trailing (.text t :: ds) p = writeAll s depth trailing ds (p.put t) := by
  rw [writeAll, write]

theorem put_put (p : Page) (s t : String) : (p.put s).put t = p.put (s ++ t) := by
  have htimes : Text.times 0 " " = "" := rfl
  simp only [Page.put, htimes, String.append_empty, String.append_assoc, Int.sub_sub,
    String.utf8ByteSize_append, Int.natCast_add]

/-- Texts are written like one text. -/
theorem writeAll_texts (s : Setting) (depth : Int) (trailing : Nat) {texts : List String}
    (h : texts ≠ []) (p : Page) :
    writeAll s depth trailing (texts.map .text) p = p.put (String.join texts) := by
  induction texts generalizing p with
  | nil => exact absurd rfl h
  | cons t rest ih =>
    rw [List.map_cons, writeAll, write, String.join_cons]
    by_cases hrest : rest = []
    · rw [hrest, List.map_nil, writeAll, String.join_nil, String.append_empty]
    · rw [ih hrest, put_put]

/-! ### One after the other -/

theorem tail_text (outer : Nat) (s : String) (ds : List Doc) :
    tail outer (.text s :: ds) = s.utf8ByteSize + tail outer ds := rfl

theorem tail_group (outer : Nat) (even : Bool) (offset : Int) (body ds : List Doc) :
    tail outer (.group even offset body :: ds) = totalWidth body + tail outer ds := rfl

theorem tail_append (outer : Nat) (a b : List Doc) : tail outer (a ++ b) = tail (tail outer b) a := by
  induction a with
  | nil => rfl
  | cons d ds ih =>
    cases d with
    | stop ending offset mark => rfl
    | text s => rw [List.cons_append, tail_text, tail_text, ih]
    | group even offset body => rw [List.cons_append, tail_group, tail_group, ih]

/-- **Pieces are written one after the other.** -/
theorem writeAll_append (s : Setting) (depth : Int) (trailing : Nat) (a b : List Doc) (p : Page) :
    writeAll s depth trailing (a ++ b) p =
      writeAll s depth trailing b (writeAll s depth (tail trailing b) a p) := by
  induction a generalizing p with
  | nil => rw [List.nil_append, writeAll]
  | cons d ds ih => rw [List.cons_append, writeAll, writeAll, ih, tail_append]

mutual

/-- Writing a piece appends to the page. -/
theorem exists_write (s : Setting) (depth : Int) (trailing : Nat) (d : Doc) (p : Page) :
    ∃ t, (write s depth trailing d p).written = p.written ++ t := by
  -- By the kind of the piece; a group writes its body in one of two ways.
  cases d with
  | text t => exact ⟨Text.times p.held " " ++ t, by rw [write, Page.put, String.append_assoc]⟩
  | stop ending offset mark =>
    rw [write]
    split
    · exact ⟨"", by rw [Page.skip, String.append_empty]⟩
    · rw [Page.turn]
      split
      · exact ⟨"\n", rfl⟩
      · exact ⟨Text.times p.held " " ++ mark ++ "\n", by simp only [String.append_assoc]⟩
  | group even offset body =>
    rw [write]
    split
    · exact exists_writeAll _ _ trailing body p
    · exact exists_writeAll _ _ trailing body p

/-- **Writing appends to the page**, whatever is written. -/
theorem exists_writeAll (s : Setting) (depth : Int) (trailing : Nat) (ds : List Doc) (p : Page) :
    ∃ t, (writeAll s depth trailing ds p).written = p.written ++ t := by
  cases ds with
  | nil => exact ⟨"", by rw [writeAll, String.append_empty]⟩
  | cons d ds =>
    obtain ⟨t, ht⟩ := exists_write s depth (tail trailing ds) d p
    obtain ⟨t', ht'⟩ := exists_writeAll s depth trailing ds (write s depth (tail trailing ds) d p)
    exact ⟨t ++ t', by rw [writeAll, ht', ht, String.append_assoc]⟩

end

/-! ### Lines -/

/-- A page on which a line starts one level deeper. -/
def inBlock (written : String) : Page where
  written
  held := 4
  room := 85

theorem turn_start (p : Page) : p.turn "" (0 + 0) = atStart (p.written ++ "\n") := rfl

theorem turn_in (p : Page) : p.turn "" (0 + step + 0) = inBlock (p.written ++ "\n") := rfl

theorem turn_out (p : Page) : p.turn "" (0 + step + -step) = atStart (p.written ++ "\n") := rfl

theorem turn_in' (p : Page) : p.turn "" (0 + step + 0 + 0) = inBlock (p.written ++ "\n") := rfl

/-- Behind the last member of a broken list stands a comma. -/
theorem turn_comma {p : Page} (h : p.held = 0) :
    p.turn "," (0 + step + 0 + -step) = atStart (p.written ++ "," ++ "\n") := by
  have htimes : Text.times 0 " " = "" := rfl
  rw [Page.turn, if_neg (by decide), h, htimes, String.append_empty]
  rfl

/-- In a broken group every place ends the line. -/
theorem write_evenly (depth : Int) (trailing : Nat) {ending : Ending} (h : ending ≠ .never)
    (offset : Int) (mark : String) (p : Page) :
    write .evenly depth trailing (.stop ending offset mark) p = p.turn mark (depth + offset) := by
  cases ending with
  | never => exact absurd rfl h
  | soft blanks => rfl
  | forced => rfl

/-- Between items the line ends, as nothing is as wide as a page. -/
theorem write_newline (trailing : Nat) {p : Page} (h : p.room ≤ pageWidth) :
    write .filling 0 trailing newline p = atStart (p.written ++ "\n") := by
  have hkeeps : Setting.filling.keeps .forced trailing p.room = false := by
    refine decide_eq_false fun hroom => ?_
    rw [Ending.width] at hroom
    omega
  rw [newline, write, hkeeps]
  exact turn_start p

/-- A block has room for its first line at most, so it is broken. -/
theorem le_totalWidth_of_mem {ds : List Doc} (h : newline ∈ ds) : pageWidth + 1 ≤ totalWidth ds := by
  induction ds with
  | nil => cases h
  | cons d ds ih =>
    rw [totalWidth]
    rcases List.mem_cons.mp h with rfl | h
    · exact Nat.le_add_right _ _
    · exact (ih h).trans (Nat.le_add_left _ _)

/-- **Lines of a block**: each piece on a line of its own, one level deeper. -/
theorem writeAll_lines (trailing : Nat) {pieces : List (List String)} (hpieces : pieces ≠ [])
    (h : ∀ texts ∈ pieces, texts ≠ []) (written : String) :
    writeAll .evenly (0 + step) trailing (lines (pieces.map (·.map .text))) (inBlock written) =
      atStart (written ++ String.join (pieces.map fun texts => "    " ++ String.join texts ++ "\n")) := by
  have hlevel : Text.times 4 " " = "    " := by decide
  -- over the pieces, the last of which leads out of the block
  induction pieces generalizing written with
  | nil => exact absurd rfl hpieces
  | cons texts rest ih =>
    obtain ⟨hfirst, hrest⟩ := List.forall_mem_cons.mp h
    cases rest with
    | nil =>
      change writeAll _ _ _ (texts.map .text ++ [.stop .forced (-step) ""]) _ = _
      rw [writeAll_append, writeAll_texts _ _ _ hfirst, writeAll, writeAll,
        write_evenly _ _ (by decide), turn_out, List.map_singleton, String.join_cons, String.join_nil,
        String.append_empty, Page.put, inBlock]
      simp only [hlevel, String.append_assoc]
    | cons next rest =>
      change writeAll _ _ _ (texts.map .text ++ newline :: lines ((next :: rest).map (·.map .text))) _ = _
      rw [writeAll_append, writeAll_texts _ _ _ hfirst, writeAll, newline,
        write_evenly _ _ (by decide), turn_in, ih (by simp) hrest,
        @List.map_cons _ _ _ texts, String.join_cons, Page.put, inBlock]
      simp only [hlevel, String.append_assoc]

/-- However a block is filled, it ends at the start of a line. -/
theorem exists_writeAll_lines (trailing : Nat) {pieces : List (List Doc)} (h : pieces ≠ [])
    (p : Page) : ∃ t, writeAll .evenly (0 + step) trailing (lines pieces) p =
      atStart (p.written ++ t ++ "\n") := by
  -- The last stop goes back to the margin and writes the final break.
  obtain ⟨init, hinit⟩ : ∃ init, lines pieces = init ++ [.stop .forced (-step) ""] := by
    induction pieces with
    | nil => exact absurd rfl h
    | cons piece rest ih =>
      cases rest with
      | nil => exact ⟨piece, rfl⟩
      | cons next rest =>
        obtain ⟨init, hinit⟩ := ih (by simp)
        exact ⟨piece ++ newline :: init, by rw [lines, hinit, List.append_assoc, List.cons_append]⟩
  obtain ⟨t, ht⟩ := exists_writeAll .evenly (0 + step)
    (tail trailing [.stop .forced (-step) ""]) init p
  exact ⟨t, by rw [hinit, writeAll_append, writeAll, writeAll, write_evenly _ _ (by decide), turn_out,
    ht]⟩

/-! ### Items -/

/-- **The item is written as one of these texts**, at the start of a line and up to the start of the
next one. -/
def Writes (item : List Doc) (texts : String → Prop) : Prop :=
  ∀ written trailing, ∃ text, texts text ∧
    writeAll .filling 0 trailing (item ++ [newline]) (atStart written) =
      atStart (written ++ text ++ "\n")

/-- A line. -/
theorem writes_texts {texts : List String} (h : texts ≠ []) :
    Writes (texts.map .text) (· = String.join texts) := by
  intro written trailing
  refine ⟨_, rfl, ?_⟩
  have hroom : ((atStart written).put (String.join texts)).room ≤ pageWidth := by
    simp only [Page.put, atStart]
    omega
  rw [writeAll_append, writeAll_texts _ _ _ h, writeAll, writeAll, write_newline _ hroom, put_atStart]

/-- Lines in front of an item. -/
theorem writes_under {item : List Doc} {texts : String → Prop} (h : Writes item texts)
    (marks : List String) :
    Writes (Rust.under marks item)
      fun text => ∃ t, texts t ∧ text = String.join (marks.map (· ++ "\n")) ++ t := by
  intro written trailing
  -- Each mark has a line of its own above the item.
  induction marks generalizing written with
  | nil =>
    obtain ⟨text, htext, hwrites⟩ := h written trailing
    exact ⟨text, ⟨text, htext, by rw [List.map_nil, String.join_nil, String.empty_append]⟩, hwrites⟩
  | cons mark marks ih =>
    obtain ⟨text, ⟨t, ht, rfl⟩, hwrites⟩ := ih (written ++ mark ++ "\n")
    obtain ⟨text, rfl, hmark⟩ := writes_texts (by simp : [mark] ≠ []) written
      (tail trailing (Rust.under marks item ++ [newline]))
    refine ⟨_, ⟨t, ht, rfl⟩, ?_⟩
    have hitem : Rust.under (mark :: marks) item ++ [newline] =
        ([mark].map .text ++ [newline]) ++ (Rust.under marks item ++ [newline]) := by
      simp [Rust.under]
    rw [hitem, writeAll_append, hmark, String.join_cons, String.join_nil, String.append_empty, hwrites,
      List.map_cons, String.join_cons]
    simp only [String.append_assoc]

/-- What stands between the braces of a block: nothing, or the lines. -/
def blockText : List String → String
  | [] => ""
  | lines => "\n" ++ String.join (lines.map fun line => "    " ++ line ++ "\n")

theorem blockText_nil : blockText [] = "" := rfl

theorem blockText_of_ne_nil {lines : List String} (h : lines ≠ []) :
    blockText lines = "\n" ++ String.join (lines.map fun line => "    " ++ line ++ "\n") := by
  cases lines with
  | nil => exact absurd rfl h
  | cons line rest => rfl

/-- Whatever a piece on one line is broken to, it is not broken. -/
theorem write_group_texts (s : Setting) (depth offset : Int) (even : Bool) (trailing : Nat)
    {texts : List String} (h : texts ≠ []) (p : Page) :
    write s depth trailing (.group even offset (texts.map .text)) p = p.put (String.join texts) := by
  rw [write]
  split
  · exact writeAll_texts _ _ _ h p
  · exact writeAll_texts _ _ _ h p

/-- **A block that is broken.** Its head is written first, and then its lines. -/
theorem writeAll_braced (head : List Doc) {pieces : List (List Doc)} (hpieces : pieces ≠ [])
    (written : String) (trailing : Nat) :
    writeAll .filling 0 trailing (Rust.braced head pieces ++ [newline]) (atStart written) =
      writeAll .filling 0 trailing [.text "\x7d", newline]
        (writeAll .evenly (0 + step) 1 (lines pieces) (inBlock
          (((writeAll .evenly (0 + step) 2 head (atStart written)).put " \x7b").written ++ "\n"))) := by
  have hbody : Rust.braced head pieces ++ [newline] =
      .even step (head ++ .text " \x7b" :: newline :: lines pieces) :: [.text "\x7d", newline] := by
    rw [Rust.braced, if_neg (by simpa using hpieces)]
    rfl
  -- The bodies have breaks in them, which makes them wider than any room.
  have hwide : (atStart written).room <
      ((totalWidth (head ++ .text " \x7b" :: newline :: lines pieces) + 1 : Nat) : Int) := by
    have hbody := le_totalWidth_of_mem
      (List.mem_append_right head (List.mem_cons_of_mem (.text " \x7b") (List.mem_cons_self (l := lines pieces))))
    change (pageWidth : Int) < _
    omega
  have htail : tail trailing [.text "\x7d", newline] = 1 := rfl
  rw [hbody, writeAll, htail, even, write, if_pos hwide, if_pos rfl, writeAll_append]
  rfl

/-- **A block with a line for each piece.** -/
theorem writes_braced (head : String) {pieces : List (List String)}
    (h : ∀ texts ∈ pieces, texts ≠ []) :
    Writes (Rust.braced [.text head] (pieces.map (·.map .text)))
      (· = head ++ " \x7b" ++ blockText (pieces.map String.join) ++ "\x7d") := by
  intro written trailing
  refine ⟨_, rfl, ?_⟩
  -- An empty body stays on its line; the others are broken, as they are too wide.
  by_cases hpieces : pieces = []
  · have hroom : ((atStart written).put (head ++ (" \x7b" ++ "\x7d"))).room ≤ pageWidth := by
      simp only [Page.put, atStart]
      omega
    rw [hpieces]
    change writeAll _ _ _ [.even step ([head, " \x7b"].map .text), .text "\x7d", newline] _ = _
    rw [writeAll, even, write_group_texts _ _ _ _ _ (by simp), writeAll, write, put_put, writeAll,
      String.join_cons, String.join_cons, String.join_nil, String.append_empty, String.append_assoc,
      write_newline _ hroom, writeAll, put_atStart, List.map_nil, blockText_nil]
    simp only [String.append_assoc, String.empty_append]
  · have hdocs : pieces.map (·.map Doc.text) ≠ [] := by simpa using hpieces
    rw [writeAll_braced _ hdocs, writeAll_lines _ hpieces h, writeAll_text, writeAll_text, put_atStart,
      writeAll, writeAll, write_newline _ (by simp), writeAll, put_put, put_atStart,
      blockText_of_ne_nil (by simpa using hpieces), List.map_map]
    simp only [String.append_assoc]
    rfl

/-- **A block of which the head is known.** It is written behind its head, whatever it holds. -/
theorem writes_braced_head {head : List Doc} {texts : String → Prop} {pieces : List (List Doc)}
    (hpieces : pieces ≠ [])
    (h : ∀ written, ∃ text room, texts text ∧
      writeAll .evenly (0 + step) 2 head (atStart written) = { written := written ++ text, room }) :
    Writes (Rust.braced head pieces) fun text => ∃ t rest, texts t ∧ text = t ++ " \x7b" ++ rest := by
  intro written trailing
  obtain ⟨text, room, htext, hhead⟩ := h written
  rw [writeAll_braced _ hpieces, hhead]
  obtain ⟨t, ht⟩ := exists_writeAll_lines 1 hpieces
    (inBlock ((({ written := written ++ text, room } : Page).put " \x7b").written ++ "\n"))
  refine ⟨_, ⟨text, "\n" ++ t ++ "\n" ++ "\x7d", htext, rfl⟩, ?_⟩
  rw [ht, writeAll, write, put_atStart, writeAll, write_newline _ (by simp), writeAll]
  simp only [Page.put, inBlock, String.append_assoc]
  rfl

/-! ### Lists -/

/-- **A list in a head**: its members on one line, or each on a line of its own. -/
def Listed (members : List String) (text : String) : Prop :=
  text = Text.commaSep members ∨
    members ≠ [] ∧ text = "\n" ++ String.join (members.map fun m => "    " ++ m ++ ",\n")

/-- A list that fits is written on one line. -/
theorem exists_commas_fits (depth : Int) (trailing : Nat) {pieces : List (List String)}
    (hpieces : pieces ≠ []) (h : ∀ texts ∈ pieces, texts ≠ []) (p : Page) :
    ∃ room, writeAll .fits depth trailing (commas (pieces.map (·.map .text))) p =
      { written := p.written ++ Text.times p.held " " ++ Text.commaSep (pieces.map String.join), room } := by
  have hblank : Text.times 1 " " = " " := by decide
  have hcomma : ", " = "," ++ " " := rfl
  induction pieces generalizing p with
  | nil => exact absurd rfl hpieces
  -- The last piece has a comma behind it only where the list is broken.
  | cons texts rest ih =>
    obtain ⟨hfirst, hrest⟩ := List.forall_mem_cons.mp h
    cases rest with
    | nil =>
      refine ⟨((p.put (String.join texts)).skip 0).room, ?_⟩
      change writeAll _ _ _ (texts.map .text ++ [.stop (.soft 0) (-step) ","]) _ = _
      rw [writeAll_append, writeAll_texts _ _ _ hfirst, writeAll, writeAll, List.map_singleton,
        Text.commaSep, String.intercalate_singleton]
      rfl
    | cons next rest =>
      change ∃ room, writeAll _ _ _ (texts.map .text ++ .text "," :: blank ::
        commas ((next :: rest).map (·.map .text))) _ = _
      rw [writeAll_append, writeAll_texts _ _ _ hfirst, writeAll_text, writeAll]
      obtain ⟨room, hroom⟩ := ih (by simp) hrest
        (((p.put (String.join texts)).put ",").skip 1)
      refine ⟨room, hroom.trans ?_⟩
      rw [@List.map_cons _ _ _ texts, Text.commaSep, Text.commaSep,
        String.intercalate_cons_of_ne_nil (by simp), put_put, Page.skip, Page.put, hcomma]
      simp only [Nat.zero_add, hblank, String.append_assoc]

/-- A list that is broken has a line for each member. -/
theorem writeAll_commas_evenly (trailing : Nat) {pieces : List (List String)}
    (hpieces : pieces ≠ []) (h : ∀ texts ∈ pieces, texts ≠ []) (written : String) :
    writeAll .evenly (0 + step + 0) trailing (commas (pieces.map (·.map .text))) (inBlock written) =
      atStart (written ++
        String.join (pieces.map fun texts => "    " ++ String.join texts ++ ",\n")) := by
  have hlevel : Text.times 4 " " = "    " := by decide
  have hcomma : ",\n" = "," ++ "\n" := rfl
  induction pieces generalizing written with
  | nil => exact absurd rfl hpieces
  | cons texts rest ih =>
    obtain ⟨hfirst, hrest⟩ := List.forall_mem_cons.mp h
    -- Broken, all pieces end alike, the last one included.
    cases rest with
    | nil =>
      change writeAll _ _ _ (texts.map .text ++ [.stop (.soft 0) (-step) ","]) _ = _
      rw [writeAll_append, writeAll_texts _ _ _ hfirst, writeAll, writeAll,
        write_evenly _ _ (by decide), turn_comma rfl, Page.put, inBlock, hlevel, List.map_singleton,
        String.join_cons, String.join_nil, String.append_empty, hcomma]
      simp only [String.append_assoc]
    | cons next rest =>
      change writeAll _ _ _ (texts.map .text ++ .text "," :: blank ::
        commas ((next :: rest).map (·.map .text))) _ = _
      rw [writeAll_append, writeAll_texts _ _ _ hfirst, writeAll_text, writeAll, blank,
        write_evenly _ _ (by decide), put_put, turn_in', ih (by simp) hrest,
        @List.map_cons _ _ _ texts, String.join_cons, Page.put, inBlock, hcomma]
      simp only [hlevel, String.append_assoc]

/-- **The parameters of a function are listed** between its parentheses. -/
theorem exists_paramDoc (trailing : Nat) {pieces : List (List String)}
    (h : ∀ texts ∈ pieces, texts ≠ []) (written : String) (room : Int) :
    ∃ text room', Listed (pieces.map String.join) text ∧
      writeAll .evenly (0 + step) trailing (Rust.Signature.paramDoc (pieces.map (·.map .text)))
        { written, room } = { written := written ++ text, room := room' } := by
  have htimes : Text.times 0 " " = "" := rfl
  by_cases hpieces : pieces = []
  · rw [hpieces]
    exact ⟨"", room, .inl rfl, by rw [String.append_empty]; rfl⟩
  have hdoc : Rust.Signature.paramDoc (pieces.map (·.map .text)) =
      [even 0 (zero :: commas (pieces.map (·.map .text)))] := by
    rw [Rust.Signature.paramDoc, if_neg (by simpa using hpieces)]
  rw [hdoc, writeAll, even, write, writeAll]
  split
  · -- the list is broken
    refine ⟨_, pageWidth, .inr ⟨by simpa using hpieces, rfl⟩, ?_⟩
    rw [if_pos rfl, writeAll, zero, write_evenly _ _ (by decide), turn_in',
      writeAll_commas_evenly _ hpieces h, List.map_map, String.append_assoc]
    rfl
  · obtain ⟨room', hroom⟩ := exists_commas_fits (0 + step) (tail trailing []) hpieces h
      (({ written, room } : Page).skip 0)
    refine ⟨_, room', .inl rfl, ?_⟩
    rw [writeAll]
    refine hroom.trans ?_
    simp only [Page.skip, htimes, String.append_empty]

/-! ### Files -/

/-- Items are written one after the other, from wherever a line starts. -/
theorem exists_items {α : Type} {doc : α → List Doc} {texts : α → String → Prop}
    {items : List α} (h : ∀ x ∈ items, Writes (doc x) (texts x)) (start : String) (trailing : Nat) :
    ∃ written, List.Forall₂ texts items written ∧
      writeAll .filling 0 trailing ((items.map doc).flatMap (· ++ [newline])) (atStart start) =
        atStart (start ++ String.join (written.map (· ++ "\n"))) := by
  induction items generalizing start with
  | nil =>
    refine ⟨[], .nil, ?_⟩
    rw [@List.map_nil _ _ (· ++ "\n"), String.join_nil, String.append_empty]
    rfl
  | cons x items ih =>
    obtain ⟨hx, hitems⟩ := List.forall_mem_cons.mp h
    obtain ⟨text, htext, hfirst⟩ := hx start (tail trailing ((items.map doc).flatMap (· ++ [newline])))
    obtain ⟨written, hwritten, hrest⟩ := ih hitems (start ++ text ++ "\n")
    -- The text of the first item, and behind it what the rest writes.
    refine ⟨text :: written, .cons htext hwritten, ?_⟩
    rw [List.map_cons, List.flatMap_cons, writeAll_append, hfirst, hrest, List.map_cons,
      String.join_cons]
    simp only [String.append_assoc]

/-- **A source file is written item by item**, behind the lines at its head. -/
theorem exists_sourceText (head : List String) {α : Type} {doc : α → List Doc}
    {texts : α → String → Prop} {items : List α} (h : ∀ x ∈ items, Writes (doc x) (texts x)) :
    ∃ written, List.Forall₂ texts items written ∧
      Rust.sourceText head (items.map doc) = String.join ((head ++ written).map (· ++ "\n")) := by
  have hline : ∀ line, Writes [Doc.text line] (line = ·) := by
    intro line start trailing
    obtain ⟨_, rfl, hwrites⟩ := writes_texts (by simp : [line] ≠ []) start trailing
    rw [String.join_cons, String.join_nil, String.append_empty] at hwrites
    exact ⟨line, rfl, hwrites⟩
  have hstart : ({} : Page) = atStart "" := rfl
  -- First the lines at the head, each one an item by itself, and then the items.
  obtain ⟨lines, hlines, hhead⟩ := exists_items (fun line _ => hline line) ""
    (tail 0 ((items.map doc).flatMap (· ++ [newline])))
  obtain rfl : head = lines := List.forall₂_eq_eq_eq ▸ hlines
  obtain ⟨written, hwritten, hbody⟩ := exists_items h (String.join (head.map (· ++ "\n"))) 0
  refine ⟨written, hwritten, ?_⟩
  rw [Rust.sourceText, List.flatMap_append, render, writeAll_append, hstart, hhead, String.empty_append,
    hbody, List.map_append, String.join_append]
  rfl

end Doc

/-! ### Types -/

namespace Rust

/-- **How a type is spelled** that crosses the C interface. -/
inductive Ty.Spelled : Ty → String → Prop where
  | primitive (p : Primitive) : Spelled (.primitive p) p.row.rust
  | cChar : Spelled .cChar "c_char"
  | cVoid : Spelled .cVoid "c_void"
  | schema (name : String) : Spelled (.schema name) name
  | toConst {t : Ty} {s : String} (pointee : Spelled t s) : Spelled (.pointer false t) ("*const " ++ s)
  | toMut {t : Ty} {s : String} (pointee : Spelled t s) : Spelled (.pointer true t) ("*mut " ++ s)

theorem Ty.Spelled.eq {t : Ty} {s s' : String} (h : t.Spelled s) (h' : t.Spelled s') : s = s' := by
  induction h generalizing s' with
  | primitive | cChar | cVoid | schema =>
    cases h'
    rfl
  | toConst _ ih =>
    cases h' with
    | toConst pointee => rw [ih pointee]
  | toMut _ ih =>
    cases h' with
    | toMut pointee => rw [ih pointee]

/-- Such a type has no place where a line may end. -/
theorem Ty.Spelled.exists_texts {t : Ty} {s : String} (h : t.Spelled s) :
    ∃ texts, texts ≠ [] ∧ t.doc = texts.map Doc.text ∧ String.join texts = s := by
  have hone : ∀ s : String, String.join [s] = s := by
    intro s
    rw [String.join_cons, String.join_nil, String.append_empty]
  -- A pointer is written in front of what it points to, and anything else is one text.
  induction h with
  | primitive p => exact ⟨[p.row.rust], by simp, rfl, hone _⟩
  | cChar => exact ⟨["c_char"], by simp, rfl, hone _⟩
  | cVoid => exact ⟨["c_void"], by simp, rfl, hone _⟩
  | schema name => exact ⟨[name], by simp, rfl, hone _⟩
  | toConst _ ih =>
    obtain ⟨texts, -, hdoc, rfl⟩ := ih
    exact ⟨"*const " :: texts, by simp, by rw [Ty.doc, hdoc]; rfl, String.join_cons⟩
  | toMut _ ih =>
    obtain ⟨texts, -, hdoc, rfl⟩ := ih
    exact ⟨"*mut " :: texts, by simp, by rw [Ty.doc, hdoc]; rfl, String.join_cons⟩

/-- **A parameter or a field in print**: its name and how its type is spelled. -/
def Binding.Prints (b : Binding) (f : String × String) : Prop := f.1 = b.name ∧ b.type.Spelled f.2

theorem Binding.Prints.exists_texts {b : Binding} {f : String × String} (h : b.Prints f) :
    ∃ texts, texts ≠ [] ∧ b.doc = texts.map Doc.text ∧ String.join texts = f.1 ++ ": " ++ f.2 := by
  obtain ⟨hname, htype⟩ := h
  obtain ⟨texts, -, hdoc, hjoin⟩ := htype.exists_texts
  refine ⟨(b.name ++ ": ") :: texts, by simp, by rw [Binding.doc, hdoc]; rfl, ?_⟩
  rw [String.join_cons, hjoin, hname]

/-! ### Definitions -/

/-- **A record in print.** -/
def structText (name : String) (isPlain : Bool) (fields : List (String × String)) : String :=
  "#[repr(C)]" ++ "\n"
    ++ (if isPlain then "#[derive(Debug, Clone, Copy)]" else "#[derive(Debug)]") ++ "\n"
    ++ "pub struct " ++ name ++ " \x7b"
    ++ blockText (fields.map fun f => "pub " ++ f.1 ++ ": " ++ f.2 ++ ",") ++ "\x7d"

/-- **An enumeration in print.** -/
def enumText (name : String) (values : List (String × Int)) : String :=
  "#[repr(i32)]" ++ "\n" ++ "#[derive(Debug, Clone, Copy, PartialEq, Eq)]" ++ "\n"
    ++ "pub enum " ++ name ++ " \x7b" ++ blockText (values.map fun v => v.1 ++ " = " ++ toString v.2 ++ ",") ++ "\x7d"

theorem writes_enumeration (name : String) (values : List (String × Int)) :
    Writes (Definition.enumeration name values).doc (· = enumText name values) := by
  have hpieces : values.map (fun v => [Doc.text (v.1 ++ " = " ++ toString v.2 ++ ",")]) =
      (values.map fun v => [v.1 ++ " = " ++ toString v.2 ++ ","]).map (·.map Doc.text) := by
    rw [List.map_map]
    rfl
  have hnonempty : ∀ texts ∈ values.map (fun v => [v.1 ++ " = " ++ toString v.2 ++ ","]), texts ≠ [] :=
    List.forall_mem_map.mpr fun _ _ => List.cons_ne_nil _ _
  have hlines : (values.map fun v => [v.1 ++ " = " ++ toString v.2 ++ ","]).map String.join =
      values.map fun v => v.1 ++ " = " ++ toString v.2 ++ "," := by
    rw [List.map_map]
    exact List.map_congr_left fun v _ => by
      rw [Function.comp_apply, String.join_cons, String.join_nil, String.append_empty]
  have hscalar : "#[repr(" ++ Schema.enumScalar.row.rust ++ ")]" = "#[repr(i32)]" := by decide
  intro written trailing
  obtain ⟨_, ⟨_, rfl, rfl⟩, hwrites⟩ := writes_under (writes_braced ("pub enum " ++ name) hnonempty)
    ["#[repr(i32)]", "#[derive(Debug, Clone, Copy, PartialEq, Eq)]"] written trailing
  refine ⟨_, rfl, ?_⟩
  rw [Definition.doc, hscalar, hpieces]
  refine hwrites.trans ?_
  rw [hlines, List.map_cons, List.map_singleton, String.join_cons,
    String.join_cons, String.join_nil, String.append_empty]
  delta enumText
  simp only [String.append_assoc]

/-- The fields of a record, each on a line. -/
theorem exists_pieces {bindings : List Binding} {fields : List (String × String)}
    (h : List.Forall₂ Binding.Prints bindings fields) :
    ∃ pieces : List (List String), (∀ texts ∈ pieces, texts ≠ []) ∧
      bindings.map (fun b => Doc.text "pub " :: b.doc ++ [Doc.text ","]) =
        pieces.map (·.map Doc.text) ∧
      pieces.map String.join = fields.map fun f => "pub " ++ f.1 ++ ": " ++ f.2 ++ "," := by
  induction h with
  | nil => exact ⟨[], List.forall_mem_nil _, rfl, rfl⟩
  | @cons b f bindings fields hprints _ ih =>
    obtain ⟨pieces, hpieces, hdocs, hlines⟩ := ih
    obtain ⟨texts, -, hdoc, hjoin⟩ := hprints.exists_texts
    -- The comma and the visibility are put around the texts of the field.
    refine ⟨("pub " :: (texts ++ [","])) :: pieces,
      List.forall_mem_cons.mpr ⟨List.cons_ne_nil _ _, hpieces⟩, ?_, ?_⟩
    · rw [List.map_cons, List.map_cons, hdocs, hdoc]
      simp
    · rw [List.map_cons, List.map_cons, hlines, String.join_cons, String.join_append, hjoin,
        String.join_cons, String.join_nil, String.append_empty]
      simp only [String.append_assoc]

theorem writes_record (name : String) (isPlain : Bool) {bindings : List Binding}
    {fields : List (String × String)} (h : List.Forall₂ Binding.Prints bindings fields) :
    Writes (Definition.record name isPlain bindings).doc (· = structText name isPlain fields) := by
  obtain ⟨pieces, hnonempty, hpieces, hlines⟩ := exists_pieces h
  intro written trailing
  obtain ⟨_, ⟨_, rfl, rfl⟩, hwrites⟩ := writes_under (writes_braced ("pub struct " ++ name) hnonempty)
    ["#[repr(C)]", if isPlain then "#[derive(Debug, Clone, Copy)]" else "#[derive(Debug)]"]
    written trailing
  refine ⟨_, rfl, ?_⟩
  rw [Definition.doc, hpieces]
  refine hwrites.trans ?_
  rw [hlines, List.map_cons, List.map_singleton, String.join_cons,
    String.join_cons, String.join_nil, String.append_empty]
  delta structText
  simp only [String.append_assoc]

/-- **A definition in print.** -/
def Definition.Prints : Definition → String → Prop
  | .enumeration name values, printed => printed = enumText name values
  | .record name isPlain bindings, printed =>
    ∃ fields, List.Forall₂ Binding.Prints bindings fields ∧
      printed = structText name isPlain fields

theorem Definition.writes {d : Definition} (h : ∃ printed, d.Prints printed) :
    Writes d.doc d.Prints := by
  obtain ⟨printed, hprinted⟩ := h
  intro written trailing
  cases d with
  | enumeration name values =>
    obtain ⟨printed, hprinted, hwrites⟩ := writes_enumeration name values written trailing
    exact ⟨printed, hprinted, hwrites⟩
  | record name isPlain bindings =>
    obtain ⟨fields, hfields, -⟩ := hprinted
    obtain ⟨printed, hprinted, hwrites⟩ := writes_record name isPlain hfields written trailing
    exact ⟨printed, ⟨fields, hfields, hprinted⟩, hwrites⟩

/-- **The file of the types is its definitions**, if they can be printed. -/
theorem exists_typeFile {ds : List Definition} (h : ∀ d ∈ ds, ∃ printed, d.Prints printed) :
    ∃ written, List.Forall₂ Definition.Prints ds written ∧
      typeFile ds = String.join ((["#![allow(unused_imports)]", "use std::ffi::c_char;"] ++ written).map
        (· ++ "\n")) :=
  exists_sourceText _ fun d hd => Definition.writes (h d hd)

end Rust

end Bindery
