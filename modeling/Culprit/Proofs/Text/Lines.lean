import Culprit.Text.Blank
import Culprit.Text.Lines
import Mathlib.Data.List.DropRight
import Mathlib.Data.List.TakeWhile
import Mathlib.Data.String.Basic

/-!
Text that was put together is taken apart again: pieces between separators, a text between blanks,
records on lines of their own. A line may end with a carriage return before the line feed, and lines
that write no record may stand among the others.
-/

namespace Culprit.Text

variable {sep : Char} {cs xs ys : List Char}

/-! ### At a separator -/

theorem intercalate_cons (sep : Char) (xs : List Char) {pieces : List (List Char)}
    (h : pieces ≠ []) :
    [sep].intercalate (xs :: pieces) = xs ++ sep :: [sep].intercalate pieces := by
  rw [List.intercalate_cons_of_ne_nil h, List.append_assoc, List.singleton_append]

theorem notMem_intercalate {c : Char} (hc : c ≠ sep) {pieces : List (List Char)}
    (h : ∀ piece ∈ pieces, c ∉ piece) : c ∉ [sep].intercalate pieces := by
  induction pieces with
  | nil => exact List.not_mem_nil
  | cons piece pieces ih =>
      obtain ⟨hpiece, hpieces⟩ := List.forall_mem_cons.mp h
      rcases eq_or_ne pieces [] with rfl | hne
      · rwa [List.intercalate_singleton]
      · rw [intercalate_cons sep piece hne]
        simp [hpiece, hc, ih hpieces]

theorem splitAtChar_append (sep : Char) (xs ys : List Char) :
    splitAtChar sep (xs ++ sep :: ys) = splitAtChar sep xs ++ splitAtChar sep ys := by
  induction xs with
  | nil => simp [splitAtChar]
  | cons c xs ih =>
      rw [List.cons_append, splitAtChar, splitAtChar, ih]
      split_ifs
      · rfl
      · cases hxs : splitAtChar sep xs with
        | nil => exact absurd hxs (splitAtChar_ne_nil sep xs)
        | cons piece pieces => rfl

theorem splitAtChar_of_notMem {xs : List Char} (h : sep ∉ xs) : splitAtChar sep xs = [xs] := by
  induction xs with
  | nil => rfl
  | cons c xs ih =>
      obtain ⟨hc, hxs⟩ := not_or.mp (mt List.mem_cons.mpr h)
      rw [splitAtChar, if_neg (Ne.symm hc), ih hxs]

theorem eq_nil_of_splitAtChar {xs : List Char} (h : splitAtChar sep xs = [[]]) : xs = [] := by
  cases xs with
  | nil => rfl
  | cons c xs =>
      rw [splitAtChar] at h
      split_ifs at h
      · exact absurd (List.cons.inj h).2 (splitAtChar_ne_nil sep xs)
      · split at h <;> simp at h

/-- Pieces without the separator are what the text between separators is cut into. -/
theorem splitAtChar_intercalate {pieces : List (List Char)} (h : ∀ piece ∈ pieces, sep ∉ piece)
    (hne : pieces ≠ []) : splitAtChar sep ([sep].intercalate pieces) = pieces := by
  induction pieces with
  | nil => exact absurd rfl hne
  | cons piece pieces ih =>
      obtain ⟨hpiece, hpieces⟩ := List.forall_mem_cons.mp h
      cases pieces with
      | nil => rw [List.intercalate_singleton, splitAtChar_of_notMem hpiece]
      | cons next pieces =>
          rw [intercalate_cons sep piece (List.cons_ne_nil _ _), splitAtChar_append,
            splitAtChar_of_notMem hpiece, ih hpieces (List.cons_ne_nil _ _), List.singleton_append]

/-- What goes on without the separator lengthens the last piece. -/
theorem splitAtChar_append_of_notMem (h : sep ∉ ys) (cs : List Char) :
    ∃ before last, splitAtChar sep cs = before ++ [last] ∧
      splitAtChar sep (cs ++ ys) = before ++ [last ++ ys] := by
  induction cs with
  | nil => exact ⟨[], [], rfl, splitAtChar_of_notMem h⟩
  | cons c cs ih =>
      obtain ⟨before, last, hcs, hmore⟩ := ih
      rw [List.cons_append, splitAtChar, splitAtChar, hcs, hmore]
      split_ifs with hc
      · exact ⟨[] :: before, last, rfl, rfl⟩
      · cases before with
        | nil => exact ⟨[], c :: last, rfl, rfl⟩
        | cons piece before => exact ⟨(c :: piece) :: before, last, rfl, rfl⟩

theorem exists_splitAtChar (sep : Char) (cs : List Char) : ∃ pieces : List (List Char),
    pieces ≠ [] ∧ (∀ piece ∈ pieces, sep ∉ piece) ∧ [sep].intercalate pieces = cs := by
  induction cs with
  | nil => exact ⟨[[]], List.cons_ne_nil _ _, by simp, rfl⟩
  | cons c cs ih =>
      obtain ⟨pieces, hne, hfree, rfl⟩ := ih
      obtain ⟨piece, pieces, rfl⟩ := List.exists_cons_of_ne_nil hne
      obtain ⟨hpiece, hpieces⟩ := List.forall_mem_cons.mp hfree
      by_cases hc : c = sep
      · subst hc
        refine ⟨[] :: piece :: pieces, List.cons_ne_nil _ _, ?_, ?_⟩
        · exact List.forall_mem_cons.mpr ⟨List.not_mem_nil, hfree⟩
        · rw [intercalate_cons c [] (List.cons_ne_nil _ _), List.nil_append]
      · refine ⟨(c :: piece) :: pieces, List.cons_ne_nil _ _, ?_, List.intercalate_cons_cons_left⟩
        exact List.forall_mem_cons.mpr ⟨by simp [Ne.symm hc, hpiece], hpieces⟩

/-- There is one piece more than there are separators. -/
theorem length_splitAtChar (sep : Char) (cs : List Char) :
    (splitAtChar sep cs).length = cs.count sep + 1 := by
  induction cs with
  | nil => rfl
  | cons c cs ih =>
      by_cases hc : c = sep
      · subst hc
        rw [splitAtChar, if_pos rfl, List.length_cons, ih, List.count_cons_self]
      · obtain ⟨piece, pieces, hpieces⟩ := List.exists_cons_of_ne_nil (splitAtChar_ne_nil sep cs)
        rw [splitAtChar, if_neg hc, List.count_cons_of_ne hc, ← ih, hpieces, List.length_cons,
          List.length_cons]

theorem splitFirst?_append (h : sep ∉ xs) (ys : List Char) :
    splitFirst? sep (xs ++ sep :: ys) = some (xs, ys) := by
  induction xs with
  | nil => rw [List.nil_append, splitFirst?, if_pos rfl]
  | cons c xs ih =>
      obtain ⟨hc, hxs⟩ := not_or.mp (mt List.mem_cons.mpr h)
      rw [List.cons_append, splitFirst?, if_neg (Ne.symm hc), ih hxs, Option.map_some]

theorem splitFirst?_of_notMem (h : sep ∉ cs) : splitFirst? sep cs = none := by
  induction cs with
  | nil => rfl
  | cons c cs ih =>
      obtain ⟨hc, hcs⟩ := not_or.mp (mt List.mem_cons.mpr h)
      rw [splitFirst?, if_neg (Ne.symm hc), ih hcs, Option.map_none]

theorem splitFirst?_eq_some_iff :
    splitFirst? sep cs = some (xs, ys) ↔ cs = xs ++ sep :: ys ∧ sep ∉ xs := by
  refine ⟨fun h => ?_, fun ⟨hcs, hxs⟩ => hcs ▸ splitFirst?_append hxs ys⟩
  by_cases hmem : sep ∈ cs
  · obtain ⟨before, after, rfl, hbefore⟩ := List.eq_append_cons_of_mem hmem
    rw [splitFirst?_append hbefore] at h
    cases h
    exact ⟨rfl, hbefore⟩
  · rw [splitFirst?_of_notMem hmem] at h
    cases h

theorem splitLast?_append (h : sep ∉ ys) (xs : List Char) :
    splitLast? sep (xs ++ sep :: ys) = some (xs, ys) := by
  have hreverse : (xs ++ sep :: ys).reverse = ys.reverse ++ sep :: xs.reverse := by simp
  rw [splitLast?, hreverse, splitFirst?_append (by simpa using h), Option.map_some,
    List.reverse_reverse, List.reverse_reverse]

/-! ### Blanks at the ends -/

def Blanks (cs : List Char) : Prop :=
  ∀ c ∈ cs, isBlank c = true

instance (cs : List Char) : Decidable (Blanks cs) :=
  List.decidableBAll _ cs

theorem Blanks.notMem {c : Char} (h : Blanks cs) (hc : isBlank c = false) : c ∉ cs :=
  fun hmem => Bool.false_ne_true (hc.symm.trans (h c hmem))

def Blankless (cs : List Char) : Prop :=
  ∀ c ∈ cs, isBlank c = false

instance (cs : List Char) : Decidable (Blankless cs) :=
  List.decidableBAll _ cs

theorem Blankless.notMem {c : Char} (h : Blankless cs) (hc : isBlank c = true) : c ∉ cs :=
  fun hmem => Bool.false_ne_true ((h c hmem).symm.trans hc)

/-- There is nothing to trim. -/
structure Trimmed (cs : List Char) : Prop where
  head : ∀ c ∈ cs.head?, isBlank c = false
  last : ∀ c ∈ cs.getLast?, isBlank c = false

theorem Blankless.trimmed (h : Blankless cs) : Trimmed cs :=
  ⟨fun c hc => h c (List.mem_of_head? hc), fun c hc => h c (List.mem_of_getLast? hc)⟩

theorem Trimmed.append (hxs : Trimmed xs) (hys : Trimmed ys) (hx : xs ≠ []) (hy : ys ≠ [])
    (between : List Char) : Trimmed (xs ++ (between ++ ys)) where
  head c hc := hxs.head c (by rwa [List.head?_append_of_ne_nil xs hx] at hc)
  last c hc := by
    rw [← List.append_assoc, List.getLast?_append_of_ne_nil _ hy] at hc
    exact hys.last c hc

theorem trimLeft_blanks_append (h : Blanks xs) (cs : List Char) :
    trimLeft (xs ++ cs) = trimLeft cs :=
  List.dropWhile_append_of_pos h

theorem trimRight_append_blanks (h : Blanks xs) (cs : List Char) :
    trimRight (cs ++ xs) = trimRight cs := by
  rw [trimRight, List.reverse_append,
    List.dropWhile_append_of_pos fun c hc => h c (List.mem_reverse.mp hc), trimRight]

theorem trimLeft_of_head (h : ∀ c ∈ cs.head?, isBlank c = false) : trimLeft cs = cs := by
  cases cs with
  | nil => rfl
  | cons c cs => exact trimLeft_cons_of_not_blank (h c rfl) cs

theorem trimRight_of_last (h : ∀ c ∈ cs.getLast?, isBlank c = false) : trimRight cs = cs :=
  List.rdropWhile_eq_self_iff.mpr fun hne => by simp [h _ (List.getLast?_eq_some_getLast hne)]

theorem Trimmed.trimChars_eq (h : Trimmed cs) : trimChars cs = cs := by
  rw [trimChars, trimLeft_of_head h.head, trimRight_of_last h.last]

theorem trimChars_blanks (h : Blanks cs) : trimChars cs = [] := by
  rw [trimChars, trimLeft, List.dropWhile_eq_nil_iff.mpr h, trimRight_nil]

theorem trimChars_blanks_append (h : Blanks xs) (cs : List Char) :
    trimChars (xs ++ cs) = trimChars cs := by
  rw [trimChars, trimLeft_blanks_append h, trimChars]

theorem trimChars_append_blanks (h : Blanks xs) (cs : List Char) :
    trimChars (cs ++ xs) = trimChars cs := by
  by_cases hcs : Blanks cs
  · rw [trimChars_blanks_append hcs, trimChars_blanks h, trimChars_blanks hcs]
  · have hleft : trimLeft (cs ++ xs) = trimLeft cs ++ xs := by
      rw [trimLeft, List.dropWhile_append, if_neg, trimLeft]
      rwa [List.isEmpty_iff, List.dropWhile_eq_nil_iff]
    rw [trimChars, hleft, trimRight_append_blanks h, trimChars]

theorem trimChars_append_return (cs : List Char) : trimChars (cs ++ ['\r']) = trimChars cs :=
  trimChars_append_blanks (List.forall_mem_singleton.mpr rfl) cs

/-- Blanks around a text do not count. -/
theorem Trimmed.trimChars_padded (h : Trimmed cs) (hxs : Blanks xs) (hys : Blanks ys) :
    trimChars (xs ++ cs ++ ys) = cs := by
  rw [trimChars_append_blanks hys, trimChars_blanks_append hxs, h.trimChars_eq]

theorem head_trimLeft (cs : List Char) : ∀ c ∈ (trimLeft cs).head?, isBlank c = false := by
  intro c hc
  have hhead := List.head?_dropWhile_not isBlank cs
  rw [← trimLeft, hc] at hhead
  exact hhead

theorem trimmed_trimChars (cs : List Char) : Trimmed (trimChars cs) where
  head c hc := by
    obtain ⟨after, hafter⟩ : trimChars cs <+: trimLeft cs := List.rdropWhile_prefix _ _
    refine head_trimLeft cs c ?_
    rw [← hafter, List.head?_append, hc]
    rfl
  last c hc := by
    obtain ⟨hne, rfl⟩ := List.mem_getLast?_eq_getLast hc
    exact Bool.eq_false_iff.mpr (List.rdropWhile_last_not _ _ hne)

instance (cs : List Char) : Decidable (Trimmed cs) :=
  decidable_of_iff (trimChars cs = cs)
    ⟨fun h => h ▸ trimmed_trimChars cs, Trimmed.trimChars_eq⟩

/-- What is trimmed away are blanks. -/
theorem exists_padding (cs : List Char) :
    ∃ before after, cs = before ++ trimChars cs ++ after ∧ Blanks before ∧ Blanks after := by
  have hright : trimChars cs ++ (trimLeft cs).rtakeWhile isBlank = trimLeft cs :=
    List.rdropWhile_append_rtakeWhile
  refine ⟨cs.takeWhile isBlank, (trimLeft cs).rtakeWhile isBlank, ?_,
    fun c hc => List.mem_takeWhile_imp hc, fun c hc => List.mem_rtakeWhile_imp hc⟩
  rw [List.append_assoc, hright, trimLeft, List.takeWhile_append_dropWhile]

theorem trimChars_eq_nil_iff : trimChars cs = [] ↔ Blanks cs := by
  refine ⟨fun h => ?_, trimChars_blanks⟩
  have hblanks : ∀ c ∈ trimLeft cs, isBlank c = true := List.rdropWhile_eq_nil_iff.mp h
  refine List.dropWhile_eq_nil_iff.mp (List.head?_eq_none_iff.mp ?_)
  refine Option.eq_none_iff_forall_not_mem.mpr fun c hc => ?_
  exact Bool.false_ne_true ((head_trimLeft cs c hc).symm.trans (hblanks c (List.mem_of_head? hc)))

/-- A trimmed text does not end in blanks. -/
theorem Trimmed.not_blanks_right (h : Trimmed (xs ++ ys)) (hne : ys ≠ []) : ¬Blanks ys := by
  intro hblanks
  have hlast : ys.getLast hne ∈ (xs ++ ys).getLast? := by
    rw [List.getLast?_append_of_ne_nil xs hne]
    exact List.getLast?_eq_some_getLast hne
  exact Bool.false_ne_true ((h.last _ hlast).symm.trans (hblanks _ (List.getLast_mem hne)))

/-! ### Lines -/

theorem read_dropReturn {α : Type} {read : List Char → α}
    (hreturn : ∀ line, read (line ++ ['\r']) = read line) (line : List Char) :
    read (dropReturn line) = read line := by
  rw [dropReturn]
  split_ifs with hlast
  · rw [← hreturn line.dropLast, List.dropLast_append_getLast? '\r' hlast]
  · rfl

theorem filterMap_linesAux {α : Type} {read : List Char → Option α}
    (hreturn : ∀ line, read (line ++ ['\r']) = read line) (hblank : read [] = none)
    (lines : List (List Char)) : (linesAux lines).filterMap read = lines.filterMap read := by
  induction lines with
  | nil => rfl
  | cons line lines ih =>
      cases lines with
      | nil =>
          by_cases hline : line.isEmpty = true
          · rw [linesAux, if_pos hline, List.isEmpty_iff.mp hline]
            simp [hblank]
          · rw [linesAux, if_neg hline]
      | cons next lines =>
          rw [linesAux, List.filterMap_cons, List.filterMap_cons,
            read_dropReturn hreturn, ih]
          exact List.cons_ne_nil _ _

/-- A reader that does not mind a carriage return at the end of a line, and that finds nothing in an
empty line, reads what is between the line feeds. -/
theorem filterMap_linesOf {α : Type} {read : List Char → Option α}
    (hreturn : ∀ line, read (line ++ ['\r']) = read line) (hblank : read [] = none)
    {lines : List (List Char)} (h : ∀ line ∈ lines, '\n' ∉ line) :
    (linesOf (['\n'].intercalate lines)).filterMap read = lines.filterMap read := by
  cases lines with
  | nil => rfl
  | cons line lines =>
      rw [linesOf, splitAtChar_intercalate h (List.cons_ne_nil _ _),
        filterMap_linesAux hreturn hblank]

/-- Lines that write the records one after the other, and other lines among them. -/
inductive Interspersed {α : Type} (writes : α → List Char → Prop) (stray : List Char → Prop) :
    List α → List String → Prop
  | nil : Interspersed writes stray [] []
  | record {a : α} {as : List α} {line : String} {lines : List String}
      (hline : writes a line.toList) (hlines : Interspersed writes stray as lines) :
      Interspersed writes stray (a :: as) (line :: lines)
  | stray {as : List α} {line : String} {lines : List String} (hbreak : '\n' ∉ line.toList)
      (hline : stray line.toList) (hlines : Interspersed writes stray as lines) :
      Interspersed writes stray as (line :: lines)

namespace Interspersed

variable {α β : Type} {writes : α → List Char → Prop} {stray : List Char → Prop} {as : List α}
  {lines : List String}

theorem no_break (h : Interspersed writes stray as lines)
    (hwrites : ∀ a ∈ as, ∀ line, writes a line → '\n' ∉ line) :
    ∀ line ∈ lines.map String.toList, '\n' ∉ line := by
  induction h with
  | nil => exact List.forall_mem_nil _
  | record hline _ ih =>
      obtain ⟨ha, has⟩ := List.forall_mem_cons.mp hwrites
      exact List.forall_mem_cons.mpr ⟨ha _ hline, ih has⟩
  | stray hbreak _ _ ih => exact List.forall_mem_cons.mpr ⟨hbreak, ih hwrites⟩

theorem filterMap_eq (h : Interspersed writes stray as lines) {read : List Char → Option β}
    {meaning : α → β} (hwrites : ∀ a ∈ as, ∀ line, writes a line → read line = some (meaning a))
    (hstray : ∀ line, stray line → read line = none) :
    (lines.map String.toList).filterMap read = as.map meaning := by
  induction h with
  | nil => rfl
  | record hline _ ih =>
      obtain ⟨ha, has⟩ := List.forall_mem_cons.mp hwrites
      rw [List.map_cons, List.filterMap_cons_some (ha _ hline), ih has, List.map_cons]
  | stray _ hline _ ih =>
      rw [List.map_cons, List.filterMap_cons_none (hstray _ hline), ih hwrites]

/-- The records are read back, in their order and without what stands among them. -/
theorem filterMap_linesOf (h : Interspersed writes stray as lines)
    {read : List Char → Option β} {meaning : α → β}
    (hreturn : ∀ line, read (line ++ ['\r']) = read line) (hblank : read [] = none)
    (hbreak : ∀ a ∈ as, ∀ line, writes a line → '\n' ∉ line)
    (hwrites : ∀ a ∈ as, ∀ line, writes a line → read line = some (meaning a))
    (hstray : ∀ line, stray line → read line = none) :
    (linesOf ("\n".intercalate lines).toList).filterMap read = as.map meaning := by
  rw [String.toList_intercalate, ← h.filterMap_eq hwrites hstray]
  exact Text.filterMap_linesOf hreturn hblank (h.no_break hbreak)

end Interspersed

end Culprit.Text
