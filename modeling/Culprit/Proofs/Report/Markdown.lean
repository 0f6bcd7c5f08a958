import Culprit.Report.Markdown
import Mathlib.Algebra.Order.Ring.Nat
import Mathlib.Data.List.Basic
import Mathlib.Tactic.Common
import Mathlib.Tactic.MkIffOfInductiveProp

/-!
The shape of the tables in a report's section. A bar counts as the border of a column unless there
is a backslash right before it, and a line feed ends a row. The detail of an issue can bring in
neither; a path, a signature, a location and the context of an issue stand in their cells as they
are, so the tables have their shape exactly when none of these holds a border or a line feed of its
own.
-/

namespace Culprit

/-! ### Texts without borders and line feeds -/

/-- How many bars of a text have no backslash right before them. The character before the text is
`previous`. -/
def borders (previous : Char) : List Char → Nat
  | [] => 0
  | c :: r => (if c = '|' ∧ previous ≠ '\\' then 1 else 0) + borders c r

/-- What stands in a cell and leaves the table as it is. -/
@[mk_iff]
structure Inert (s : String) : Prop where
  borders : borders ' ' s.toList = 0
  noBreak : '\n' ∉ s.toList

instance (s : String) : Decidable (Inert s) :=
  decidable_of_iff _ (inert_iff s).symm

/-- One line with that many borders. -/
def IsRow (n : Nat) (row : String) : Prop :=
  ∃ line, row.toList = line ++ ['\n'] ∧ '\n' ∉ line ∧ borders ' ' line = n

instance (n : Nat) (row : String) : Decidable (IsRow n row) :=
  decidable_of_iff (row.toList = row.toList.dropLast ++ ['\n'] ∧ '\n' ∉ row.toList.dropLast ∧
      borders ' ' row.toList.dropLast = n)
    ⟨fun h => ⟨_, h⟩, fun ⟨line, hrow, h⟩ => by rwa [hrow, List.dropLast_concat, eq_self, true_and]⟩

variable {p q c : Char} {cs : List Char} {s : String}

theorem borders_congr (hp : p ≠ '\\') (hq : q ≠ '\\') (cs : List Char) :
    borders p cs = borders q cs := by
  cases cs with
  | nil => rfl
  | cons c cs => simp [borders, hp, hq]

theorem borders_cons_of_ne (hc : c ≠ '|') (p : Char) (cs : List Char) :
    borders p (c :: cs) = borders c cs := by
  simp [borders, hc]

theorem borders_append_of_ne (hc : c ≠ '|') (p : Char) (xs ys : List Char) :
    borders p (xs ++ c :: ys) = borders p xs + borders c ys := by
  induction xs generalizing p with
  | nil => rw [List.nil_append, borders_cons_of_ne hc, borders, Nat.zero_add]
  | cons x xs ih => rw [List.cons_append, borders, borders, ih, Nat.add_assoc]

theorem borders_of_notMem (h : '|' ∉ cs) (p : Char) : borders p cs = 0 := by
  induction cs generalizing p with
  | nil => rfl
  | cons c cs ih =>
      obtain ⟨hc, hcs⟩ := not_or.mp (mt List.mem_cons.mpr h)
      rw [borders_cons_of_ne (Ne.symm hc), ih hcs]

theorem inert_of_notMem (hbar : '|' ∉ s.toList) (hbreak : '\n' ∉ s.toList) : Inert s :=
  ⟨borders_of_notMem hbar ' ', hbreak⟩

/-! ### One row -/

/-- Each cell stands between blanks, and a border before it. -/
def bordered (cell : String) : List Char :=
  '|' :: ' ' :: (cell.toList ++ [' '])

theorem flatMap_bordered {cells : List String} (hne : cells ≠ []) :
    cells.flatMap bordered =
      '|' :: ' ' :: [' ', '|', ' '].intercalate (cells.map String.toList) ++ [' '] := by
  induction cells with
  | nil => exact absurd rfl hne
  | cons cell cells ih =>
      rcases eq_or_ne cells [] with rfl | hrest
      · simp [bordered]
      · rw [List.flatMap_cons, ih hrest]
        obtain ⟨next, cells, rfl⟩ := List.exists_cons_of_ne_nil hrest
        simp [List.intercalate_cons_cons, bordered]

theorem toList_tableRow {cells : List String} (hne : cells ≠ []) :
    (tableRow cells).toList = cells.flatMap bordered ++ ['|'] ++ ['\n'] := by
  rw [flatMap_bordered hne, tableRow]
  simp

theorem borders_cells (cells : List String) (rest : List Char) :
    borders ' ' (cells.flatMap bordered ++ rest) =
      cells.length + (cells.map fun cell => borders ' ' cell.toList).sum + borders ' ' rest := by
  induction cells with
  | nil => simp
  | cons cell cells ih =>
      have hcell : (cell :: cells).flatMap bordered ++ rest =
          '|' :: ' ' :: (cell.toList ++ ' ' :: (cells.flatMap bordered ++ rest)) := by
        simp [bordered]
      rw [hcell, borders, borders_cons_of_ne (by decide), borders_append_of_ne (by decide), ih,
        if_pos (by decide), List.length_cons, List.map_cons, List.sum_cons]
      omega

/-- A row has a border before each cell and one at its end unless a cell brings in more. -/
theorem isRow_tableRow_iff (cells : List String) (hne : cells ≠ []) :
    IsRow (cells.length + 1) (tableRow cells) ↔ ∀ cell ∈ cells, Inert cell := by
  have hline (line : List Char) : (tableRow cells).toList = line ++ ['\n'] ↔
      line = cells.flatMap bordered ++ ['|'] := by
    rw [toList_tableRow hne, List.append_left_inj]
    exact eq_comm
  have hborders : borders ' ' (cells.flatMap bordered ++ ['|']) = cells.length + 1 ↔
      ∀ cell ∈ cells, borders ' ' cell.toList = 0 := by
    have hlast : borders ' ' ['|'] = 1 := rfl
    have hsum : (cells.map fun cell => borders ' ' cell.toList).sum = 0 ↔
        ∀ cell ∈ cells, borders ' ' cell.toList = 0 := by
      rw [List.sum_eq_zero_iff_forall_eq_nat, List.forall_mem_map]
    rw [borders_cells, hlast, ← hsum]
    omega
  have hbreak : '\n' ∉ cells.flatMap bordered ++ ['|'] ↔ ∀ cell ∈ cells, '\n' ∉ cell.toList := by
    simp [bordered]
  simp only [IsRow, hline, exists_eq_left, hbreak, hborders, inert_iff, forall_and]
  exact and_comm

/-! ### Cells -/

theorem inert_code_iff : Inert (code s) ↔ Inert s := by
  have htext : (code s).toList = '\x60' :: (s.toList ++ ['\x60']) := by simp [code]
  rw [inert_iff, inert_iff, htext, borders_cons_of_ne (by decide), borders_append_of_ne (by decide),
    borders_congr (p := '\x60') (q := ' ') (by decide) (by decide)]
  simp [borders]

/-- Neither a bar nor a line feed. -/
def Borderless (cs : List Char) : Prop :=
  ∀ c ∈ cs, c ≠ '|' ∧ c ≠ '\n'

instance (cs : List Char) : Decidable (Borderless cs) :=
  List.decidableBAll _ cs

theorem borderless_nil : Borderless [] :=
  List.forall_mem_nil _

theorem Borderless.append {xs ys : List Char} (hxs : Borderless xs) (hys : Borderless ys) :
    Borderless (xs ++ ys) :=
  List.forall_mem_append.mpr ⟨hxs, hys⟩

theorem Borderless.cons (hc : c ≠ '|' ∧ c ≠ '\n') (hcs : Borderless cs) : Borderless (c :: cs) :=
  List.forall_mem_cons.mpr ⟨hc, hcs⟩

theorem borderless_digitsOf (n : Nat) : Borderless (Decimal.digitsOf n) := by
  intro c hc
  have hdigit := Nat.isDigit_of_mem_toDigits (by decide) (by decide) hc
  constructor <;> rintro rfl <;> cases hdigit

theorem borderless_zeros (n : Nat) : Borderless (Decimal.zeros n) := by
  intro c hc
  rw [List.eq_of_mem_replicate hc]
  decide

theorem Borderless.mantissa (h : Borderless cs) : Borderless (Decimal.mantissa cs) := by
  match cs, h with
  | [], h => exact h
  | [_], h => exact h
  | d :: e :: r, h =>
    obtain ⟨hd, hr⟩ := List.forall_mem_cons.mp h
    exact .cons hd (.cons (by decide) hr)

theorem borderless_exponentText (e : Int) : Borderless (Decimal.exponentText false e) := by
  rw [Decimal.exponentText]
  refine .cons (by decide) (.append ?_ (borderless_digitsOf _))
  rw [if_neg Bool.false_ne_true]
  split_ifs
  · exact .cons (by decide) borderless_nil
  · exact borderless_nil

theorem borderless_withSign {finite : Decimal.Dyadic → List Char} (h : ∀ d, Borderless (finite d))
    (x : Float) : Borderless (Decimal.withSign x finite).toList := by
  rw [Decimal.withSign]
  split
  · decide
  · split <;> decide
  · next d _ =>
      rw [String.toList_ofList]
      split_ifs
      · exact .cons (by decide) (h d)
      · exact h d

theorem borderless_fixed (places : Nat) (x : Float) :
    Borderless (Decimal.fixed places x).toList := by
  refine borderless_withSign (fun d => ?_) x
  have hdigits : Borderless (Decimal.zeros
      (places + 1 - (Decimal.digitsOf (d.roundTo (-(places : Int)))).length) ++
        Decimal.digitsOf (d.roundTo (-(places : Int)))) :=
    (borderless_zeros _).append (borderless_digitsOf _)
  refine Borderless.append (fun c hc => hdigits c (List.mem_of_mem_take hc)) ?_
  split_ifs
  · exact borderless_nil
  · exact .cons (by decide) fun c hc => hdigits c (List.mem_of_mem_drop hc)

theorem borderless_scientific (places : Nat) (x : Float) :
    Borderless (Decimal.scientific places x).toList :=
  borderless_withSign (fun _ =>
    ((borderless_digitsOf _).append (borderless_zeros _)).mantissa.append
      (borderless_exponentText _)) x

theorem inert_scoreText (s : Score) : Inert s.text := by
  have htext : Borderless s.text.toList := by
    rw [Score.text, scoreText]
    split_ifs
    · decide
    · exact borderless_scientific 3 _
    · exact borderless_fixed 4 _
  exact inert_of_notMem (fun h => (htext _ h).1 rfl) fun h => (htext _ h).2 rfl

theorem substituteAux_char (p : Char) (value cs : List Char) :
    Text.substituteAux [p] value 0 cs = cs.flatMap fun c => if c = p then value else [c] := by
  induction cs with
  | nil => rfl
  | cons c cs ih =>
      rw [Text.substituteAux, List.flatMap_cons]
      by_cases hc : c = p
      · subst hc
        rw [if_pos (by simp), if_pos rfl]
        exact congrArg (value ++ ·) ih
      · rw [if_neg (by simpa using Ne.symm hc), if_neg hc, ih]
        rfl

/-- What stands for a character of a detail. -/
def escaped (c : Char) : List Char :=
  if c = '|' then ['\\', '|'] else if c = '\n' then [' '] else [c]

theorem toList_cellText (s : String) : (Report.cellText s).toList = s.toList.flatMap escaped := by
  have hbars : (Text.substitute "|" "\\|" s).toList =
      Text.substituteAux ['|'] ['\\', '|'] 0 s.toList := String.toList_ofList
  have hbreaks (t : String) : (Text.substitute "\n" " " t).toList =
      Text.substituteAux ['\n'] [' '] 0 t.toList := String.toList_ofList
  rw [Report.cellText, hbreaks, hbars, substituteAux_char, substituteAux_char, List.flatMap_assoc]
  -- the second replacement finds no line feed in what the first one puts in
  refine List.flatMap_congr fun c _ => ?_
  rw [escaped]
  split_ifs <;> simp_all

theorem borders_escaped (cs : List Char) (p : Char) : borders p (cs.flatMap escaped) = 0 := by
  induction cs generalizing p with
  | nil => rfl
  | cons c cs ih =>
      rw [List.flatMap_cons, escaped]
      split_ifs with hbar hbreak
      · rw [List.cons_append, List.cons_append, borders_cons_of_ne (by decide), borders,
          if_neg (by decide)]
        exact (Nat.zero_add _).trans (ih _)
      · exact (borders_cons_of_ne (by decide) p _).trans (ih _)
      · exact (borders_cons_of_ne hbar p _).trans (ih _)

theorem ne_break_of_mem_escaped {c d : Char} (h : d ∈ escaped c) : d ≠ '\n' := by
  rintro rfl
  rw [escaped] at h
  split_ifs at h with hbar hbreak
  · simp at h
  · simp at h
  · exact hbreak (List.mem_singleton.mp h).symm

/-- The bars of a detail have backslashes before them, and its line feeds are blanks. -/
theorem inert_detail (s : String) : Inert (Report.cellText s) := by
  constructor
  case borders =>
    rw [toList_cellText]
    exact borders_escaped s.toList ' '
  case noBreak =>
    rw [toList_cellText, List.mem_flatMap]
    rintro ⟨c, -, hc⟩
    exact ne_break_of_mem_escaped hc rfl

theorem inert_kind (k : IssueKind) : Inert (k.sign ++ " " ++ k.label) := by
  cases k <;> decide

/-! ### The two tables -/

namespace Report

/-- The rows of the table of findings. -/
def findings (r : Report) : List String :=
  r.files.flatMap findingRows

theorem inert_ite {b : Prop} [Decidable b] {s : String} :
    Inert (if b then s else "") ↔ (b → Inert s) := by
  split_ifs with hb
  · simp [hb]
  · simp only [hb, false_imp_iff, iff_true]
    decide

theorem isRow_symbolRow_iff (f : FileFinding) (s : SymbolFinding) (position : Nat) :
    IsRow 6 (symbolRow f s position) ↔
      (position = 0 → Inert f.unit.path) ∧ Inert s.symbol.signature ∧ Inert s.symbol.location := by
  have hrow := isRow_tableRow_iff [if position = 0 then code f.unit.path else "",
    if position = 0 then f.score.text else "", code s.symbol.signature, s.symbol.location,
    s.score.text] (List.cons_ne_nil _ _)
  rw [symbolRow]
  refine hrow.trans ?_
  simp only [List.forall_mem_cons, inert_ite, inert_code_iff, inert_scoreText, List.not_mem_nil,
    false_imp_iff, implies_true, true_and, and_true]

theorem isRow_findingRows_iff (f : FileFinding) : (∀ row ∈ findingRows f, IsRow 6 row) ↔
    Inert f.unit.path ∧ ∀ s ∈ f.symbols, Inert s.symbol.signature ∧ Inert s.symbol.location := by
  rw [findingRows]
  split_ifs with hempty
  · have hrow := isRow_tableRow_iff [code f.unit.path, f.score.text, "-", "-", "-"]
      (List.cons_ne_nil _ _)
    rw [List.isEmpty_iff.mp hempty, List.forall_mem_singleton]
    refine hrow.trans ?_
    have hdash : Inert "-" := by decide
    simp [inert_code_iff, inert_scoreText, hdash]
  · obtain ⟨first, rest, hsymbols⟩ :=
      List.exists_cons_of_ne_nil (mt List.isEmpty_iff.mpr hempty)
    simp only [List.forall_mem_map, isRow_symbolRow_iff]
    constructor
    · intro h
      refine ⟨(h (first, 0) (by simp [hsymbols])).1 rfl, fun s hs => ?_⟩
      obtain ⟨position, hlt, rfl⟩ := List.getElem_of_mem hs
      exact (h (f.symbols[position], position) (List.mk_mem_zipIdx_iff_getElem?.mpr
        (List.getElem?_eq_getElem hlt))).2
    · rintro ⟨hpath, hrest⟩ ⟨s, position⟩ hs
      exact ⟨fun _ => hpath, hrest s (List.fst_mem_of_mem_zipIdx hs)⟩

theorem isRow_issueRow_iff (i : Issue) : IsRow 4 (issueRow i) ↔ Inert i.context := by
  have hrow := isRow_tableRow_iff [i.kind.sign ++ " " ++ i.kind.label, i.context,
    cellText i.detail] (List.cons_ne_nil _ _)
  rw [issueRow]
  refine hrow.trans ?_
  simp [inert_kind, inert_detail]

example : ¬IsRow 4 (issueRow ⟨.buildFailure, "files variant=[a|b.c] (1/2)", "c|d"⟩) := by
  decide

theorem length_findings (r : Report) :
    r.findings.length = (r.files.map fun f => max 1 f.symbols.length).sum := by
  rw [findings, List.length_flatMap]
  refine congrArg List.sum (List.map_congr_left fun f _ => ?_)
  rw [findingRows]
  split_ifs with hempty
  · rw [List.isEmpty_iff.mp hempty]
    rfl
  · have hsymbols : 1 ≤ f.symbols.length :=
      List.length_pos_iff.mpr (mt List.isEmpty_iff.mpr hempty)
    rw [List.length_map, List.length_zipIdx, Nat.max_eq_right hsymbols]

/-- The texts that stand in the tables as they are bring in no border and no line feed. -/
structure Tabular (r : Report) : Prop where
  paths : ∀ f ∈ r.files, Inert f.unit.path
  signatures : ∀ f ∈ r.files, ∀ s ∈ f.symbols, Inert s.symbol.signature
  locations : ∀ f ∈ r.files, ∀ s ∈ f.symbols, Inert s.symbol.location
  contexts : ∀ i ∈ r.issues, Inert i.context

theorem exists_markdownSection (heading : String) (r : Report) :
    ∃ before between, r.markdownSection heading =
      before ++ String.join (part findingHeader r.findings) ++ between ++
        String.join (part issueHeader (r.issues.map issueRow)) := by
  refine ⟨String.join (["### " ++ r.status.sign ++ " " ++ heading ++ "\n", "\n"] ++ r.headRows ++
      ["\n"]), String.join (part ["**Interactions** (not attributable to single elements):\n", "\n"]
        (r.interactions.map interactionItem)), ?_⟩
  rw [markdownSection, sectionLines, String.join_append, String.join_append, String.join_append,
    findings]

/-- The section has a table of findings, with a row for each suspect symbol and one for each file
without any, and a table of issues. Each row is one line with six or four borders exactly when the
paths, the signatures, the locations and the contexts bring in none and no line feed; the heading,
the test, the flags and the details may hold anything. -/
theorem markdownSection_shaped_iff (heading : String) (r : Report) :
    (∃ before between, r.markdownSection heading =
      before ++ String.join (part findingHeader r.findings) ++ between ++
        String.join (part issueHeader (r.issues.map issueRow))) ∧
    r.findings.length = (r.files.map fun f => max 1 f.symbols.length).sum ∧
    (∀ row ∈ findingHeader, IsRow 6 row) ∧ (∀ row ∈ issueHeader, IsRow 4 row) ∧
    ((∀ row ∈ r.findings, IsRow 6 row) ∧ (∀ row ∈ r.issues.map issueRow, IsRow 4 row) ↔
      r.Tabular) := by
  refine ⟨exists_markdownSection heading r, r.length_findings, by decide, by decide, ?_⟩
  simp only [findings, List.forall_mem_flatMap, isRow_findingRows_iff, List.forall_mem_map,
    isRow_issueRow_iff]
  constructor
  · rintro ⟨hfiles, hissues⟩
    exact ⟨fun f hf => (hfiles f hf).1, fun f hf s hs => ((hfiles f hf).2 s hs).1,
      fun f hf s hs => ((hfiles f hf).2 s hs).2, hissues⟩
  · intro h
    exact ⟨fun f hf => ⟨h.paths f hf, fun s hs => ⟨h.signatures f hf s hs, h.locations f hf s hs⟩⟩,
      h.contexts⟩

end Report

end Culprit
