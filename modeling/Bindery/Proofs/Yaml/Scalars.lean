import Bindery.Proofs.Success
import Bindery.Proofs.Text
import Bindery.Yaml.Scalar

/-!
# Reading scalars of YAML

A scalar of one line is read back as it was written. Where it ends is decided by what follows: a
plain word goes on up to a colon that is followed by a space, or up to the end of its line, and then
it takes the empty lines and the indentation of the next line with it; a quoted text goes on up to
its quote.

* `readPlain_key`, `readPlain_line` — a word in front of a colon and one at the end of a line;
* `readQuoted_words` — words between quotes.

Cursors are written out, so that it can be seen what each reader leaves.
-/

namespace Bindery.Yaml

/-! ### Characters -/

/-- A character of plain words. -/
def isPlainChar (c : Char) : Bool :=
  c.isAlphanum || c = '_' || c = '.' || c = '/' || c = ':'

theorem toNat_of_isPlainChar {c : Char} (h : isPlainChar c = true) :
    0x2D < c.toNat ∧ c.toNat < 0x7F := by
  simp only [isPlainChar, Bool.or_eq_true, decide_eq_true_eq] at h
  obtain (((h | rfl) | rfl) | rfl) | rfl := h
  · have := Text.toNat_of_isAlphanum h
    omega
  all_goals decide

theorem isSpace_eq_false {c : Char} (h : 0x20 < c.toNat ∧ c.toNat < 0x7F) : isSpace c = false := by
  have hne : ∀ d : Char, d.toNat ≤ 0x20 ∨ 0x7F ≤ d.toNat → c ≠ d := by
    rintro d hd rfl
    omega
  simp only [isSpace, isGap, isBreak, Bool.or_eq_false_iff, decide_eq_false_iff_not]
  exact ⟨⟨hne _ (by decide), hne _ (by decide)⟩,
    ⟨⟨⟨hne _ (by decide), hne _ (by decide)⟩, hne _ (by decide)⟩, hne _ (by decide)⟩,
    hne _ (by decide)⟩

theorem isSpace_of_isPlainChar {c : Char} (h : isPlainChar c = true) : isSpace c = false := by
  obtain ⟨hlow, hhigh⟩ := toNat_of_isPlainChar h
  exact isSpace_eq_false ⟨by omega, hhigh⟩

/-- **Plain words**: they begin with a letter or a digit, and they do not end in a colon. -/
structure IsPlainWord (w : List Char) : Prop where
  start : ∃ c cs, w = c :: cs ∧ c.isAlphanum = true
  chars : ∀ c ∈ w, isPlainChar c = true
  last : w.getLast? ≠ some ':'

/-- A word between quotes. -/
structure IsQuotedWord (w : List Char) : Prop where
  start : w ≠ []
  chars : ∀ c ∈ w, (0x20 < c.toNat ∧ c.toNat < 0x7F) ∧ c ≠ '"' ∧ c ≠ '\\'

/-- Whether what follows ends a plain word. -/
def endsPlain : List Char → Bool
  | [] => true
  | x :: rest => isSpace x || (x = ':' && endsWord rest)

/-- A text that does not begin with a space. -/
def StartsWord (rest : List Char) : Prop := ∀ x ∈ rest.head?, isSpace x = false

/-- Empty lines and an indentation. -/
def lead (above column : Nat) : List Char :=
  List.replicate above '\n' ++ List.replicate column ' '

theorem bytes_blanks (n : Nat) : Cursor.bytes (List.replicate n ' ') = n := by
  induction n with
  | zero => rfl
  | succ n ih =>
    rw [List.replicate_succ, Cursor.bytes, ih, show (' ' : Char).utf8Size = 1 from rfl]
    omega

/-! ### Gaps -/

section Gaps

variable {rest : List Char} (hrest : StartsWord rest) (indent : Nat) (g : Gap) (size i l col : Nat)

include hrest

theorem readGap_word (fuel : Nat) :
    readGap indent fuel g ⟨rest, size, i, l, col⟩ = .ok (g, ⟨rest, size, i, l, col⟩) := by
  cases fuel with
  | zero => rfl
  | succ fuel =>
    cases rest with
    | nil => rfl
    | cons x rest =>
      have hx := hrest x rfl
      rw [isSpace, Bool.or_eq_false_iff] at hx
      simp only [readGap, hx.1, hx.2, Bool.false_eq_true, if_false]

theorem readGap_blanks (hbroken : g.broken = true) {fuel n : Nat} (hfuel : n ≤ fuel) :
    readGap indent fuel g ⟨List.replicate n ' ' ++ rest, size, i, l, col⟩ =
      .ok (g, ⟨rest, size, i + n, l, col + n⟩) := by
  induction n generalizing fuel i col with
  | zero => exact readGap_word hrest indent g size i l col fuel
  | succ n ih =>
    obtain ⟨fuel, rfl⟩ := Nat.exists_eq_add_of_le' (Nat.le_trans (Nat.succ_le_succ n.zero_le) hfuel)
    rw [List.replicate_succ, List.cons_append]
    simp only [readGap, hbroken]
    have hnext : Cursor.next ⟨' ' :: (List.replicate n ' ' ++ rest), size, i, l, col⟩ =
        ⟨List.replicate n ' ' ++ rest, size, i + 1, l, col + 1⟩ := rfl
    rw [hnext, if_pos (by decide), if_neg (by simp), if_pos trivial, ih _ _ (by omega)]
    congr 3 <;> omega

/-- **Empty lines and an indentation are passed over** once a line has ended. -/
theorem readGap_lead (hbroken : g.broken = true) {fuel above column : Nat}
    (hfuel : above + column ≤ fuel) :
    ∃ g' i', g'.broken = true ∧
      readGap indent fuel g ⟨lead above column ++ rest, size, i, l, 0⟩ =
        .ok (g', ⟨rest, size, i', l + above, column⟩) := by
  -- line by line; the indentation comes last
  induction above generalizing fuel g i l with
  | zero =>
    refine ⟨g, i + column, hbroken, ?_⟩
    rw [lead, List.replicate_zero, List.nil_append,
      readGap_blanks hrest indent g size i l 0 hbroken (by omega)]
    simp
  | succ above ih =>
    obtain ⟨fuel, rfl⟩ : ∃ n, fuel = n + 1 := Nat.exists_eq_add_of_le' (by omega)
    have hbreak : Cursor.takeBreak ⟨lead (above + 1) column ++ rest, size, i, l, 0⟩ =
        (['\n'], ⟨lead above column ++ rest, size, i + 1, l + 1, 0⟩) := rfl
    obtain ⟨g', i', hg', hread⟩ :=
      ih { g with further := g.further ++ ['\n'] } (i + 1) (l + 1) hbroken
        (show above + column ≤ fuel by omega)
    refine ⟨g', i', hg', ?_⟩
    have hstep : readGap indent (fuel + 1) g ⟨lead (above + 1) column ++ rest, size, i, l, 0⟩ =
        readGap indent fuel { g with further := g.further ++ ['\n'] }
          ⟨lead above column ++ rest, size, i + 1, l + 1, 0⟩ := by
      rw [readGap]
      change (if isGap '\n' = true then _ else _) = _
      rw [if_neg (by decide), if_pos (by decide), hbreak]
      simp only [hbroken, if_true]
    rw [hstep, hread]
    congr 3
    omega

end Gaps

/-! ### Plain words -/

theorem ne_of_isAlphanum {c : Char} (h : c.isAlphanum = true) (d : Char)
    (hd : d.isAlphanum = false) : c ≠ d := by
  rintro rfl
  rw [h] at hd
  cases hd

theorem atMarker_eq_false {x mark : Char} (h : x ≠ mark) (rest : List Char) (size i l col : Nat) :
    Cursor.atMarker ⟨x :: rest, size, i, l, col⟩ mark = false := by
  unfold Cursor.atMarker
  split
  next heq =>
    rw [(List.cons.inj heq).1.symm, decide_eq_false h]
    simp
  next => simp

/-- No document begins or ends where a word begins, and no comment begins there. -/
theorem IsPlainWord.goesOn {w : List Char} (h : IsPlainWord w) (rest : List Char)
    (size i l col : Nat) :
    (Cursor.atDocumentMarker ⟨w ++ rest, size, i, l, col⟩ ||
      decide ((w ++ rest).head? = some '#')) = false := by
  obtain ⟨c, cs, rfl, hc⟩ := h.start
  have hhead : ((c :: cs) ++ rest).head? ≠ some '#' := fun h =>
    ne_of_isAlphanum hc '#' (by decide) (Option.some.inj h)
  rw [decide_eq_false hhead, List.cons_append, Cursor.atDocumentMarker,
    atMarker_eq_false (ne_of_isAlphanum hc '-' (by decide)),
    atMarker_eq_false (ne_of_isAlphanum hc '.' (by decide))]
  rfl

theorem IsPlainWord.isEmpty_reverse {w : List Char} (h : IsPlainWord w) :
    w.reverse.isEmpty = false := by
  obtain ⟨c, cs, rfl, -⟩ := h.start
  simp

theorem IsPlainWord.startsWord {w : List Char} (h : IsPlainWord w) (rest : List Char) :
    StartsWord (w ++ rest) := by
  obtain ⟨c, cs, rfl, -⟩ := h.start
  intro x hx
  obtain rfl : c = x := Option.some.inj hx
  exact isSpace_of_isPlainChar (h.chars c List.mem_cons_self)

/-- **A plain word is read up to what ends it.** A colon inside is part of it. -/
theorem readWord_plain {w rest : List Char} {fuel : Nat} (acc : List Char) (size i l col : Nat)
    (hchars : ∀ c ∈ w, isPlainChar c = true) (hlast : w.getLast? ≠ some ':')
    (hrest : endsPlain rest = true) (hfuel : w.length ≤ fuel) :
    readWord false fuel acc ⟨w ++ rest, size, i, l, col⟩ =
      .ok (w.reverse ++ acc, ⟨rest, size, i + Cursor.bytes w, l, col + w.length⟩) := by
  induction w generalizing acc fuel i col with
  | nil =>
    cases fuel with
    | zero => rfl
    | succ fuel =>
      cases rest with
      | nil => rfl
      | cons x rest =>
        rw [endsPlain, Bool.or_eq_true] at hrest
        simp only [List.nil_append, readWord, Bool.false_and, Bool.or_false, Bool.false_eq_true,
          if_false]
        by_cases hspace : isSpace x = true
        · rw [if_pos hspace]
          rfl
        · rw [if_neg hspace, if_pos (hrest.resolve_left hspace)]
          rfl
  | cons c cs ih =>
    obtain ⟨fuel, rfl⟩ : ∃ n, fuel = n + 1 := Nat.exists_eq_add_of_le' (by simp at hfuel; omega)
    obtain ⟨hc, hcs⟩ := List.forall_mem_cons.mp hchars
    have hspace := isSpace_of_isPlainChar hc
    -- a colon inside the word is followed by a character of the word
    have hcolon : (decide (c = ':') && endsWord (cs ++ rest)) = false := by
      rw [Bool.and_eq_false_iff, decide_eq_false_iff_not]
      cases cs with
      | nil =>
        refine .inl ?_
        rintro rfl
        exact hlast rfl
      | cons d ds => exact .inr (isSpace_of_isPlainChar (hcs d List.mem_cons_self))
    have hlast' : cs.getLast? ≠ some ':' := by
      cases cs with
      | nil => simp
      | cons d ds => rwa [List.getLast?_cons_cons] at hlast
    have hnext : Cursor.next ⟨c :: (cs ++ rest), size, i, l, col⟩ =
        ⟨cs ++ rest, size, i + c.utf8Size, l, col + 1⟩ := rfl
    rw [List.cons_append, readWord]
    simp only [hspace, hcolon, hnext, Bool.false_and, Bool.false_eq_true, Bool.or_false, if_false]
    rw [ih _ _ _ hcs hlast' (by simp at hfuel; omega), List.reverse_cons, List.append_assoc,
      List.singleton_append, Cursor.bytes, List.length_cons]
    congr 3 <;> omega

section Plain

variable {w : List Char} (hw : IsPlainWord w) (indent size i l col : Nat)

include hw

/-- **A word in front of a colon.** -/
theorem readPlain_key {rest : List Char} (hrest : endsWord rest = true) (hsize : w.length ≤ size) :
    readPlain false indent ⟨w ++ ':' :: rest, size, i, l, col⟩ =
      .ok (String.ofList w, false,
        ⟨':' :: rest, size, i + Cursor.bytes w, l, col + w.length⟩) := by
  have hends : endsPlain (':' :: rest) = true := by simp [endsPlain, hrest]
  have hcolon : isSpace ':' = false := by decide
  rw [readPlain, readPlainFrom]
  simp only [hw.goesOn, hw.isEmpty_reverse, hcolon, Bool.false_eq_true, if_false, bind, Except.bind,
    readWord_plain [] size i l col hw.chars hw.last hends hsize, pure, Except.pure, Bool.not_false,
    if_true, Gap.text, List.append_nil, List.reverse_nil, List.reverse_reverse]

/-- **A word at the end of a line** takes with it what is left of the next line where a word begins,
when that is not more indented. -/
theorem readPlain_line {rest : List Char} {above column : Nat} (hrest : StartsWord rest)
    (hcolumn : column < indent) (hsize : w.length + above + column < size) :
    ∃ i', readPlain false indent ⟨w ++ '\n' :: (lead above column ++ rest), size, i, l, col⟩ =
      .ok (String.ofList w, true, ⟨rest, size, i', l + 1 + above, column⟩) := by
  obtain ⟨n, rfl⟩ : ∃ n, size = n + 1 := Nat.exists_eq_add_of_le' (by omega)
  have hends : endsPlain ('\n' :: (lead above column ++ rest)) = true := rfl
  have hspace : isSpace '\n' = true := by decide
  obtain ⟨g', i', hg', hread⟩ := readGap_lead hrest indent
    { broken := true, blanks := [], first := ['\n'], further := [] } (n + 1)
    (i + Cursor.bytes w + 1) (l + 1) rfl (show above + column ≤ n by omega)
  -- the end of the line is the first step over the gap
  have hgap : readGap indent (n + 1) {} ⟨'\n' :: (lead above column ++ rest), n + 1,
      i + Cursor.bytes w, l, col + w.length⟩ =
      .ok (g', ⟨rest, n + 1, i', l + 1 + above, column⟩) := by
    rw [readGap, ← hread]
    rfl
  have hword := readWord_plain [] (n + 1) i l col hw.chars hw.last hends
    (show w.length ≤ n + 1 by omega)
  refine ⟨i', ?_⟩
  rw [readPlain, readPlainFrom]
  simp only [hw.goesOn, hword, hw.isEmpty_reverse, hspace, hgap, hcolumn, hg', Bool.false_eq_true,
    if_false, if_true, bind, Except.bind, pure, Except.pure, Bool.not_true, Bool.not_false,
    Bool.true_and, decide_true, Gap.text, List.append_nil, List.reverse_nil, List.reverse_reverse]

end Plain

/-! ### Quoted texts -/

/-- The words of a text, with blanks between them. -/
def spaced : List (List Char) → List Char
  | [] => []
  | w :: ws => w ++ ws.flatMap (' ' :: ·)

/-- No word is longer than the text. -/
theorem length_le_spaced {v w : List Char} {ws : List (List Char)} (h : v ∈ w :: ws) :
    v.length ≤ (spaced (w :: ws)).length := by
  rw [spaced, List.length_append]
  obtain rfl | h := List.mem_cons.mp h
  · exact Nat.le_add_right _ _
  · have hsub : v.Sublist (ws.flatMap (' ' :: ·)) :=
      (List.sublist_cons_self ' ' v).trans (List.sublist_flatten_of_mem (List.mem_map_of_mem h))
    have := hsub.length_le
    omega

/-- There are not more words than characters. -/
theorem length_words_le_spaced (w : List Char) (ws : List (List Char)) :
    ws.length ≤ (spaced (w :: ws)).length := by
  have hflat : ws.length ≤ (ws.flatMap (' ' :: ·)).length := by
    induction ws with
    | nil => rfl
    | cons v vs ih =>
      rw [List.flatMap_cons, List.length_append, List.length_cons, List.length_cons]
      omega
  rw [spaced, List.length_append]
  omega

/-- A word between quotes is read up to the next space or quote. -/
theorem readQuotedWord_word {w : List Char} {fuel : Nat} (acc : List Char) (x : Char)
    (rest : List Char) (size i l col : Nat)
    (hchars : ∀ c ∈ w, (0x20 < c.toNat ∧ c.toNat < 0x7F) ∧ c ≠ '"' ∧ c ≠ '\\')
    (hx : isSpace x = true ∨ x = '"') (hfuel : w.length ≤ fuel) :
    readQuotedWord '"' fuel acc ⟨w ++ x :: rest, size, i, l, col⟩ =
      .ok (w.reverse ++ acc, false, ⟨x :: rest, size, i + Cursor.bytes w, l, col + w.length⟩) := by
  -- the characters that are read stand in reverse in front of those before
  induction w generalizing acc fuel i col with
  | nil =>
    cases fuel with
    | zero => rfl
    | succ fuel =>
      rw [List.nil_append, readQuotedWord]
      by_cases hspace : isSpace x = true
      · simp only [hspace, if_true]
        rfl
      · obtain rfl := hx.resolve_left hspace
        rfl
  | cons c cs ih =>
    obtain ⟨fuel, rfl⟩ : ∃ n, fuel = n + 1 := Nat.exists_eq_add_of_le' (by simp at hfuel; omega)
    obtain ⟨⟨hc, hquote, hslash⟩, hcs⟩ := List.forall_mem_cons.mp hchars
    have hother : ('"' : Char) ≠ '\'' := by decide
    have hnext : Cursor.next ⟨c :: (cs ++ x :: rest), size, i, l, col⟩ =
        ⟨cs ++ x :: rest, size, i + c.utf8Size, l, col + 1⟩ := rfl
    rw [List.cons_append, readQuotedWord]
    simp only [isSpace_eq_false hc, hquote, hslash, hother, hnext, decide_false, Bool.and_false,
      Bool.false_and, Bool.false_eq_true, if_false]
    rw [ih _ _ _ hcs (by simp at hfuel; omega), List.reverse_cons, List.append_assoc,
      List.singleton_append, Cursor.bytes, List.length_cons]
    congr 4 <;> omega

theorem IsQuotedWord.startsWord {w : List Char} (h : IsQuotedWord w) (rest : List Char) :
    StartsWord (w ++ rest) := by
  obtain ⟨c, cs, rfl⟩ := List.exists_cons_of_ne_nil h.start
  intro x hx
  obtain rfl : c = x := Option.some.inj hx
  exact isSpace_eq_false (h.chars c List.mem_cons_self).1

/-- No document begins or ends inside of a line, and the text goes on. -/
theorem IsQuotedWord.goesOn {w : List Char} (h : IsQuotedWord w) (rest : List Char)
    (size i l : Nat) {col : Nat} (hcol : col ≠ 0) :
    (Cursor.atDocumentMarker ⟨w ++ rest, size, i, l, col⟩ || (w ++ rest).isEmpty) = false := by
  obtain ⟨c, cs, rfl⟩ := List.exists_cons_of_ne_nil h.start
  rw [Cursor.atDocumentMarker, Cursor.atMarker, Cursor.atMarker, decide_eq_false hcol]
  rfl

/-- **Words are read up to the closing quote**, with one blank between two of them. -/
theorem readQuotedFrom_words {w : List Char} {ws : List (List Char)} {fuel : Nat}
    (acc rest : List Char) (size i l col : Nat)
    (hwords : ∀ v ∈ w :: ws, IsQuotedWord v ∧ v.length ≤ size) (hcol : col ≠ 0) (hfuel : ws.length < fuel) :
    ∃ i' col', readQuotedFrom '"' fuel acc ⟨spaced (w :: ws) ++ '"' :: rest, size, i, l, col⟩ =
      .ok ((spaced (w :: ws)).reverse ++ acc, ⟨rest, size, i', l, col'⟩) := by
  induction ws generalizing w acc i col fuel with
  | nil =>
    obtain ⟨fuel, rfl⟩ : ∃ n, fuel = n + 1 := Nat.exists_eq_add_of_le' (by omega)
    obtain ⟨hw, hsize⟩ := hwords w List.mem_cons_self
    have hread := readQuotedWord_word acc '"' rest size i l col hw.chars
      (.inr rfl) hsize
    refine ⟨i + Cursor.bytes w + 1, col + w.length + 1, ?_⟩
    simp only [spaced, List.flatMap_nil, List.append_nil]
    rw [readQuotedFrom]
    simp only [hw.goesOn _ _ _ _ hcol, hread, Bool.false_eq_true, if_false, bind, Except.bind,
      List.head?_cons, if_true]
    rfl
  | cons v vs ih =>
    obtain ⟨fuel, rfl⟩ : ∃ n, fuel = n + 1 := Nat.exists_eq_add_of_le' (by omega)
    obtain ⟨⟨hw, hsize⟩, hlater⟩ := List.forall_mem_cons.mp hwords
    obtain ⟨hv, -⟩ := hlater v List.mem_cons_self
    have htext : spaced (w :: v :: vs) = w ++ ' ' :: spaced (v :: vs) := rfl
    have hread := readQuotedWord_word acc ' ' (spaced (v :: vs) ++ '"' :: rest) size i l col
      hw.chars (.inl (by decide)) hsize
    have hstarts : StartsWord (spaced (v :: vs) ++ '"' :: rest) := by
      rw [spaced, List.append_assoc]
      exact hv.startsWord _
    obtain ⟨n, rfl⟩ : ∃ n, size = n + 1 := by
      have := List.length_pos_iff.mpr hw.start
      exact Nat.exists_eq_add_of_le' (by omega)
    -- the blank is kept
    have hgap : readGap 0 (n + 1) {} ⟨' ' :: (spaced (v :: vs) ++ '"' :: rest), n + 1,
        i + Cursor.bytes w, l, col + w.length⟩ =
        .ok ({ blanks := [' '] }, ⟨spaced (v :: vs) ++ '"' :: rest, n + 1,
          i + Cursor.bytes w + 1, l, col + w.length + 1⟩) := by
      rw [readGap]
      exact readGap_word hstarts 0 _ (n + 1) _ l _ n
    obtain ⟨i', col', hrest⟩ := ih (' ' :: (w.reverse ++ acc)) (i + Cursor.bytes w + 1)
      (col + w.length + 1) hlater (by omega) (by simpa using hfuel)
    refine ⟨i', col', ?_⟩
    have hquote : (some ' ' : Option Char) ≠ some '"' := by decide
    rw [htext, List.append_assoc, List.cons_append, readQuotedFrom]
    simp only [hw.goesOn _ _ _ _ hcol, hread, hgap, hquote, Bool.false_eq_true, if_false, bind,
      Except.bind, List.head?_cons]
    rw [show ({ blanks := [' '] } : Gap).text.reverse ++ (w.reverse ++ acc) =
      ' ' :: (w.reverse ++ acc) from rfl, hrest, List.reverse_append, List.reverse_cons,
      List.append_assoc, List.append_assoc, List.singleton_append]

/-- **A quoted text on one line.** -/
theorem readQuoted_words {w : List Char} {ws : List (List Char)} (rest : List Char)
    (size i l col : Nat) (hwords : ∀ v ∈ w :: ws, IsQuotedWord v ∧ v.length ≤ size)
    (hsize : ws.length ≤ size) :
    ∃ i' col', readQuoted '"' ⟨'"' :: (spaced (w :: ws) ++ '"' :: rest), size, i, l, col⟩ =
      .ok (String.ofList (spaced (w :: ws)), ⟨rest, size, i', l, col'⟩) := by
  obtain ⟨i', col', hread⟩ := readQuotedFrom_words [] rest size (i + 1) l (col + 1) hwords
    (Nat.succ_ne_zero col) (show ws.length < size + 1 by omega)
  refine ⟨i', col', ?_⟩
  have hnext : Cursor.next ⟨'"' :: (spaced (w :: ws) ++ '"' :: rest), size, i, l, col⟩ =
      ⟨spaced (w :: ws) ++ '"' :: rest, size, i + 1, l, col + 1⟩ := rfl
  rw [readQuoted, hnext]
  simp only [hread, bind, Except.bind, List.append_nil, List.reverse_reverse]
  rfl

end Bindery.Yaml
