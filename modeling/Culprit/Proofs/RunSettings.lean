import Culprit.RunSettings
import Mathlib.Data.List.Basic
import Mathlib.Data.List.Count
import Mathlib.Logic.Function.Basic

/-!
The arguments of a run. A template is a list of characters and placeholders, and an argument is that
list with a value in the place of each placeholder. Since the placeholders are replaced one after
the other, this holds as long as no value makes a new one: the argument then is what comes of
replacing all of them at the same time. How often a mark begins in a text says whether the pieces of
the text have been put together without making a new one.
-/

namespace Culprit.Text

variable {pattern xs ys : List Char} {c : Char}

/-! ### Occurrences -/

/-- How often the pattern begins in a text. -/
def occurrences (pattern : List Char) : List Char → Nat
  | [] => 0
  | c :: r => (if pattern <+: c :: r then 1 else 0) + occurrences pattern r

theorem occurrences_le_append (pattern xs ys : List Char) :
    occurrences pattern ys ≤ occurrences pattern (xs ++ ys) := by
  induction xs with
  | nil => exact Nat.le_refl _
  | cons c xs ih => exact Nat.le_add_left_of_le ih

theorem succ_occurrences_le (hne : pattern ≠ []) (ys : List Char) :
    occurrences pattern ys + 1 ≤ occurrences pattern (pattern ++ ys) := by
  obtain ⟨c, rest, rfl⟩ := List.exists_cons_of_ne_nil hne
  have hrest := occurrences_le_append (c :: rest) rest ys
  have hbegins : c :: rest <+: c :: (rest ++ ys) := List.prefix_append (c :: rest) ys
  rw [List.cons_append, occurrences, if_pos hbegins]
  omega

/-- It begins nowhere in a text that does not hold its first character. -/
theorem occurrences_append_of_notMem (h : c ∉ xs) (rest ys : List Char) :
    occurrences (c :: rest) (xs ++ ys) = occurrences (c :: rest) ys := by
  induction xs with
  | nil => rfl
  | cons d xs ih =>
      obtain ⟨hd, hxs⟩ := not_or.mp (mt List.mem_cons.mpr h)
      rw [List.cons_append, occurrences,
        if_neg fun hprefix => hd (List.cons_prefix_cons.mp hprefix).1, Nat.zero_add, ih hxs]

/-! ### Substitution -/

/-- Where no occurrence begins, nothing is replaced. -/
theorem substituteAux_append (value : List Char)
    (h : occurrences pattern (xs ++ ys) = occurrences pattern ys) :
    substituteAux pattern value 0 (xs ++ ys) = xs ++ substituteAux pattern value 0 ys := by
  induction xs with
  | nil => rfl
  | cons c xs ih =>
      have hle := occurrences_le_append pattern xs ys
      rw [List.cons_append, occurrences] at h
      have hprefix : ¬pattern <+: c :: (xs ++ ys) := by
        intro hbegins
        rw [if_pos hbegins] at h
        omega
      rw [if_neg hprefix, Nat.zero_add] at h
      rw [List.cons_append, substituteAux, if_neg (by rwa [List.isPrefixOf_iff_prefix]), ih h,
        List.cons_append]

theorem substituteAux_skip (pattern value xs ys : List Char) :
    substituteAux pattern value xs.length (xs ++ ys) = substituteAux pattern value 0 ys := by
  induction xs with
  | nil => rfl
  | cons c xs ih => exact ih

theorem substituteAux_pattern (hne : pattern ≠ []) (value ys : List Char) :
    substituteAux pattern value 0 (pattern ++ ys) = value ++ substituteAux pattern value 0 ys := by
  obtain ⟨c, rest, rfl⟩ := List.exists_cons_of_ne_nil hne
  rw [List.cons_append, substituteAux, if_pos (by simp)]
  exact congrArg (value ++ ·) (substituteAux_skip (c :: rest) value rest ys)

end Culprit.Text

namespace Culprit.RunSettings

open Text (occurrences substituteAux)

inductive Mark where
  | precision
  | test
  | workdir
deriving DecidableEq, Repr

namespace Mark

def text : Mark → String
  | .precision => precisionMark
  | .test => testMark
  | .workdir => workdirMark

/-- What the mark stands for. -/
def value (target : Target) (workdir : String) : Mark → String
  | .precision => target.precision
  | .test => target.test
  | .workdir => workdir

/-- The mark that a text begins with. -/
def begins? (cs : List Char) : Option Mark :=
  [precision, test, workdir].find? fun m => m.text.toList.isPrefixOf cs

/-- Only the first character of a mark is an opening brace. -/
theorem exists_toList_text (m : Mark) : ∃ rest, m.text.toList = '\x7b' :: rest ∧ '\x7b' ∉ rest := by
  cases m <;> exact ⟨_, rfl, by decide⟩

theorem text_ne_nil (m : Mark) : m.text.toList ≠ [] := by
  obtain ⟨rest, h, -⟩ := m.exists_toList_text
  exact h ▸ List.cons_ne_nil _ _

/-- No mark is the beginning of another one. -/
theorem text_prefix_iff {m m' : Mark} {cs : List Char} :
    m.text.toList <+: m'.text.toList ++ cs ↔ m = m' := by
  have hlength : ∀ m : Mark, 2 ≤ m.text.toList.length := by rintro (_ | _ | _) <;> decide
  have htake : ∀ m m' : Mark, m.text.toList.take 2 = m'.text.toList.take 2 → m = m' := by
    rintro (_ | _ | _) (_ | _ | _) <;> decide
  refine ⟨fun ⟨rest, h⟩ => htake m m' ?_, fun h => h ▸ List.prefix_append _ _⟩
  have hstart := congrArg (List.take 2) h
  rwa [List.take_append_of_le_length (hlength m), List.take_append_of_le_length (hlength m')]
    at hstart

theorem occurrences_text_append (m m' : Mark) (cs : List Char) :
    occurrences m.text.toList (m'.text.toList ++ cs) =
      (if m = m' then 1 else 0) + occurrences m.text.toList cs := by
  obtain ⟨rest, hm, -⟩ := m.exists_toList_text
  obtain ⟨rest', hm', hrest'⟩ := m'.exists_toList_text
  have hbegins : m.text.toList <+: '\x7b' :: (rest' ++ cs) ↔ m = m' := by
    rw [← List.cons_append, ← hm', text_prefix_iff]
  rw [hm', List.cons_append, occurrences]
  simp only [hbegins]
  rw [hm, Text.occurrences_append_of_notMem hrest']

theorem prefix_of_begins? {m : Mark} {cs : List Char} (h : begins? cs = some m) :
    m.text.toList <+: cs := by
  rw [begins?] at h
  exact List.isPrefixOf_iff_prefix.mp (List.find?_some h :)

theorem not_prefix_of_begins? {cs : List Char} (h : begins? cs = none) (m : Mark) :
    ¬m.text.toList <+: cs := by
  have hnone := List.find?_eq_none.mp h m (by cases m <;> decide)
  rwa [List.isPrefixOf_iff_prefix] at hnone

end Mark

inductive Piece where
  | char (c : Char)
  | mark (m : Mark)
deriving DecidableEq, Repr

def Piece.spell (value : Mark → String) : Piece → List Char
  | .char c => [c]
  | .mark m => (value m).toList

/-- `skip` characters still belong to the mark that was just found. -/
def piecesAux : Nat → List Char → List Piece
  | _, [] => []
  | skip + 1, _ :: r => piecesAux skip r
  | 0, c :: r =>
    match Mark.begins? (c :: r) with
    | some m => .mark m :: piecesAux (m.text.toList.length - 1) r
    | none => .char c :: piecesAux 0 r

/-- The marks of a template and the characters between them. -/
def pieces (template : String) : List Piece :=
  piecesAux 0 template.toList

def spelled (value : Mark → String) (ps : List Piece) : List Char :=
  ps.flatMap (Piece.spell value)

/-- All marks of the template replaced at the same time. -/
def verbatim (target : Target) (workdir template : String) : String :=
  String.ofList (spelled (Mark.value target workdir) (pieces template))

/-- No new mark comes into being while the marks are replaced one after the other. -/
structure Unforged (target : Target) (template : String) : Prop where
  test : occurrences testMark.toList
      (Text.substitute precisionMark target.precision template).toList =
    occurrences testMark.toList template.toList
  workdir : occurrences workdirMark.toList
      (Text.substitute testMark target.test
        (Text.substitute precisionMark target.precision template)).toList =
    occurrences workdirMark.toList template.toList

instance (target : Target) (template : String) : Decidable (Unforged target template) :=
  decidable_of_iff (_ ∧ _) ⟨fun ⟨htest, hworkdir⟩ => ⟨htest, hworkdir⟩,
    fun h => ⟨h.test, h.workdir⟩⟩

variable {value : Mark → String} {m : Mark} {ps : List Piece} {target : Target}
  {workdir template : String}

theorem spelled_cons (p : Piece) (ps : List Piece) :
    spelled value (p :: ps) = p.spell value ++ spelled value ps :=
  List.flatMap_cons

/-! ### The pieces of a template -/

/-- The pieces are the template, and a mark is one of them wherever it occurs. -/
theorem piecesAux_spec (skip : Nat) (cs : List Char) :
    spelled Mark.text (piecesAux skip cs) = cs.drop skip ∧
      ∀ m : Mark, occurrences m.text.toList (cs.drop skip) =
        (piecesAux skip cs).count (.mark m) := by
  fun_induction piecesAux skip cs with
  | case1 skip => simp [spelled, occurrences]
  | case2 skip c r ih => exact ih
  | case3 c r m' hbegins ih =>
      obtain ⟨rest, hrest⟩ := Mark.prefix_of_begins? hbegins
      obtain ⟨d, name, hname⟩ := List.exists_cons_of_ne_nil m'.text_ne_nil
      have hdrop : r.drop (m'.text.toList.length - 1) = rest := by
        rw [hname, List.cons_append] at hrest
        obtain ⟨-, rfl⟩ := List.cons_eq_cons.mp hrest
        rw [hname, List.length_cons, Nat.add_sub_cancel, List.drop_left]
      rw [hdrop] at ih
      rw [List.drop_zero, ← hrest]
      refine ⟨?_, fun m => ?_⟩
      · rw [spelled_cons, ih.1]
        rfl
      · rw [Mark.occurrences_text_append, ih.2 m]
        split_ifs with hm
        · rw [hm, List.count_cons_self, Nat.add_comm]
        · rw [List.count_cons_of_ne fun heq => hm (Piece.mark.inj heq).symm, Nat.zero_add]
  | case4 c r hbegins ih =>
      rw [List.drop_zero] at ih ⊢
      refine ⟨?_, fun m => ?_⟩
      · rw [spelled_cons, ih.1]
        rfl
      · rw [occurrences, if_neg (Mark.not_prefix_of_begins? hbegins m), ih.2 m,
          List.count_cons_of_ne (by simp), Nat.zero_add]

theorem spelled_pieces (template : String) :
    spelled Mark.text (pieces template) = template.toList :=
  (piecesAux_spec 0 template.toList).1

theorem count_pieces (m : Mark) (template : String) :
    (pieces template).count (.mark m) = occurrences m.text.toList template.toList :=
  ((piecesAux_spec 0 template.toList).2 m).symm

/-! ### One mark after the other -/

theorem count_le_occurrences (h : value m = m.text) (ps : List Piece) :
    ps.count (.mark m) ≤ occurrences m.text.toList (spelled value ps) := by
  induction ps with
  | nil => exact Nat.zero_le _
  | cons p ps ih =>
      rw [spelled_cons]
      by_cases hp : p = .mark m
      · have hsucc := Text.succ_occurrences_le m.text_ne_nil (spelled value ps)
        rw [hp, List.count_cons_self, Piece.spell, h]
        omega
      · rw [List.count_cons_of_ne hp]
        exact Nat.le_trans ih (Text.occurrences_le_append _ _ _)

theorem spell_update {p : Piece} (hp : p ≠ .mark m) (new : String) :
    p.spell (Function.update value m new) = p.spell value := by
  cases p with
  | char c => rfl
  | mark m' =>
      rw [Piece.spell, Function.update_of_ne fun h => hp (congrArg Piece.mark h), Piece.spell]

/-- If a mark occurs only where the template has it, it is replaced there and nowhere else. -/
theorem substitute_spelled (h : value m = m.text)
    (hcount : occurrences m.text.toList (spelled value ps) = ps.count (.mark m)) (new : String) :
    Text.substitute m.text new (String.ofList (spelled value ps)) =
      String.ofList (spelled (Function.update value m new) ps) := by
  rw [Text.substitute, String.toList_ofList, Text.substituteChars]
  refine congrArg String.ofList ?_
  induction ps with
  | nil => rfl
  | cons p ps ih =>
      have hle := count_le_occurrences h ps
      rw [spelled_cons] at hcount
      rw [spelled_cons, spelled_cons]
      by_cases hp : p = .mark m
      · have hsucc := Text.succ_occurrences_le m.text_ne_nil (spelled value ps)
        rw [hp, List.count_cons_self, Piece.spell, h] at hcount
        rw [hp, Piece.spell, Piece.spell, h, Function.update_self,
          Text.substituteAux_pattern m.text_ne_nil, ih (by omega)]
      · have happend := Text.occurrences_le_append m.text.toList (p.spell value)
          (spelled value ps)
        rw [List.count_cons_of_ne hp] at hcount
        rw [Text.substituteAux_append _ (by omega), ih (by omega), spell_update hp]

/-- What the marks are spelled as once the precision has been filled in. -/
def withPrecision (target : Target) : Mark → String :=
  Function.update Mark.text .precision target.precision

/-- What the marks are spelled as once the test has been filled in, too. -/
def withTest (target : Target) : Mark → String :=
  Function.update (withPrecision target) .test target.test

theorem withPrecision_of_ne (target : Target) (h : m ≠ .precision) :
    withPrecision target m = m.text :=
  Function.update_of_ne h _ _

theorem withTest_workdir (target : Target) : withTest target .workdir = Mark.text .workdir :=
  rfl

theorem value_eq_update (target : Target) (workdir : String) :
    Mark.value target workdir = Function.update (withTest target) .workdir workdir := by
  funext m
  cases m <;> rfl

theorem count_of_occurrences
    (h : occurrences m.text.toList (String.ofList (spelled value (pieces template))).toList =
      occurrences m.text.toList template.toList) :
    occurrences m.text.toList (spelled value (pieces template)) =
      (pieces template).count (.mark m) := by
  rwa [String.toList_ofList, ← count_pieces] at h

theorem substitute_precision (target : Target) (template : String) :
    Text.substitute precisionMark target.precision template =
      String.ofList (spelled (withPrecision target) (pieces template)) := by
  have hcount : occurrences precisionMark.toList (spelled Mark.text (pieces template)) =
      (pieces template).count (.mark .precision) := by
    rw [spelled_pieces, count_pieces]
    rfl
  have hstage := substitute_spelled (m := .precision) rfl hcount target.precision
  rwa [spelled_pieces, String.ofList_toList] at hstage

theorem substitute_test (h : occurrences testMark.toList
      (Text.substitute precisionMark target.precision template).toList =
    occurrences testMark.toList template.toList) :
    Text.substitute testMark target.test
        (Text.substitute precisionMark target.precision template) =
      String.ofList (spelled (withTest target) (pieces template)) := by
  rw [substitute_precision] at h ⊢
  exact substitute_spelled (withPrecision_of_ne target (by decide))
    (count_of_occurrences (m := .test) h) target.test

/-- The marks of a template are replaced as if at the same time. -/
theorem fill_eq_verbatim (h : Unforged target template) (workdir : String) :
    fill target workdir template = verbatim target workdir template := by
  have hworkdir := h.workdir
  rw [substitute_test h.test] at hworkdir
  rw [fill, substitute_test h.test, verbatim, value_eq_update]
  exact substitute_spelled (withTest_workdir target) (count_of_occurrences hworkdir) workdir

/-! ### Ordinary values -/

/-- Where braces open nothing but marks, each mark is one of the template. -/
theorem occurrences_of_noBrace (h : value m = m.text)
    (hothers : ∀ m', m' ≠ m → value m' = m'.text ∨ '\x7b' ∉ (value m').toList)
    (hps : .char '\x7b' ∉ ps) :
    occurrences m.text.toList (spelled value ps) = ps.count (.mark m) := by
  obtain ⟨rest, hm, -⟩ := m.exists_toList_text
  induction ps with
  | nil => rw [hm]; rfl
  | cons p ps ih =>
      obtain ⟨hp, hrest⟩ := not_or.mp (mt List.mem_cons.mpr hps)
      have ih := ih hrest
      rw [spelled_cons]
      cases p with
      | char c =>
          have hc : '\x7b' ∉ [c] := fun hmem => hp (congrArg _ (List.mem_singleton.mp hmem))
          rw [hm, Piece.spell, Text.occurrences_append_of_notMem hc, ← hm, ih,
            List.count_cons_of_ne (by simp)]
      | mark m' =>
          by_cases hsame : m' = m
          · rw [hsame, Piece.spell, h, Mark.occurrences_text_append, if_pos rfl, ih,
              List.count_cons_self, Nat.add_comm]
          · rw [List.count_cons_of_ne fun heq => hsame (Piece.mark.inj heq), Piece.spell]
            rcases hothers m' hsame with htext | hbrace
            · rw [htext, Mark.occurrences_text_append, if_neg (Ne.symm hsame), ih, Nat.zero_add]
            · rw [hm, Text.occurrences_append_of_notMem hbrace, ← hm, ih]

/-- Values without an opening brace make no new mark in a template in which every opening brace
begins one. -/
theorem unforged_of_noBrace (hprecision : '\x7b' ∉ target.precision.toList)
    (htest : '\x7b' ∉ target.test.toList) (htemplate : .char '\x7b' ∉ pieces template) :
    Unforged target template := by
  have hfirst : occurrences testMark.toList
      (Text.substitute precisionMark target.precision template).toList =
        occurrences testMark.toList template.toList := by
    rw [substitute_precision, String.toList_ofList]
    refine (occurrences_of_noBrace (withPrecision_of_ne target (m := .test) (by decide)) ?_
      htemplate).trans (count_pieces .test template)
    rintro (_ | _ | _) hm
    · exact .inr hprecision
    · exact absurd rfl hm
    · exact .inl rfl
  refine ⟨hfirst, ?_⟩
  rw [substitute_test hfirst, String.toList_ofList]
  refine (occurrences_of_noBrace (withTest_workdir target) ?_ htemplate).trans
    (count_pieces .workdir template)
  rintro (_ | _ | _) hm
  · exact .inr hprecision
  · exact .inr htest
  · exact absurd rfl hm

/-! ### The arguments -/

/-- The test alone is passed as it is unless it holds the mark of the directory. -/
theorem fill_testMark (target : Target) (workdir : String) :
    fill target workdir testMark = Text.substitute workdirMark workdir target.test := by
  have hprecision : Text.substitute precisionMark target.precision testMark = testMark := rfl
  have htest : Text.substitute testMark target.test testMark = target.test := by
    have hpattern := Text.substituteAux_pattern (Mark.text_ne_nil .test) target.test.toList []
    rw [List.append_nil] at hpattern
    rw [Text.substitute, Text.substituteChars, show testMark = Mark.text .test from rfl, hpattern]
    simp [Text.substituteAux]
  rw [fill, hprecision, htest]

example : fill ⟨workdirMark, "double"⟩ "/w" testMark = "/w" := by
  decide

/-- The arguments of a run are its templates with the value of each placeholder in its place, and
nothing of a value counts as a placeholder. -/
theorem invocation_verbatim {s : RunSettings} {target : Target}
    (h : ∀ template ∈ s.args, Unforged target template) (cwd executable workdir : String) :
    (s.invocation cwd executable target workdir).args = s.args.map (verbatim target workdir) :=
  List.map_congr_left fun template htemplate => fill_eq_verbatim (h template htemplate) workdir

theorem invocation_verbatim_braces :
    let args := ["--precision=\x7bprecision\x7d", "\x7btest\x7d", "\x7bworkdir\x7d/\x7bout\x7d"]
    let target : Target := ⟨"Dot\x7b3\x7d", "double"⟩
    (∀ template ∈ args, Unforged target template) ∧
      ({ standard with args }.invocation "/" "/w/bin" target "/w/\x7btest\x7d").args =
        ["--precision=double", "Dot\x7b3\x7d", "/w/\x7btest\x7d/\x7bout\x7d"] := by
  intro args target
  have hunforged : ∀ template ∈ args, Unforged target template := by decide
  exact ⟨hunforged,
    (invocation_verbatim hunforged "/" "/w/bin" "/w/\x7btest\x7d").trans (by decide)⟩

end Culprit.RunSettings
