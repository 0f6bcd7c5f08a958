import Culprit.Results
import Mathlib.Tactic.MkIffOfInductiveProp

/-!
The two ways of naming a configuration. An identifier is one text that is split into words; a row of
recorded runs has the compiler and the level in columns of their own. A word without quotes reads as
itself and leaves what follows it alone, so both ways come to the same flags, and the arguments are
the words of the identifier with nothing but the level out of its place.
-/

namespace Culprit.Text.ShellWords

variable {word rest : List Char} {c : Char}

/-- Outside quotes such a character stands for itself. -/
def isLiteral (c : Char) : Bool :=
  !(isSeparator c || c = '\\' || c = '\'' || c = '"')

/-- A text that is one word as it stands. -/
@[mk_iff]
structure Plain (word : List Char) : Prop where
  ne_nil : word ≠ []
  literal : ∀ c ∈ word, isLiteral c = true
  noComment : word.head? ≠ some '#'

instance (word : List Char) : Decidable (Plain word) :=
  haveI : Decidable (∀ c ∈ word, isLiteral c = true) := List.decidableBAll _ word
  decidable_of_iff _ (plain_iff word).symm

theorem isLiteral_iff :
    isLiteral c = true ↔ isSeparator c = false ∧ c ≠ '\\' ∧ c ≠ '\'' ∧ c ≠ '"' := by
  simp [isLiteral, and_assoc]

theorem splitAux_bare_append (h : ∀ c ∈ rest, isLiteral c = true) (word cs : List Char) :
    splitAux .bare word (rest ++ cs) = splitAux .bare (rest.reverse ++ word) cs := by
  induction rest generalizing word with
  | nil => rfl
  | cons c rest ih =>
      obtain ⟨hc, hrest⟩ := List.forall_mem_cons.mp h
      obtain ⟨hsep, hescape, hsingle, hdouble⟩ := isLiteral_iff.mp hc
      rw [List.cons_append, splitAux, if_neg (by simp [hsep]), if_neg hescape, if_neg hsingle,
        if_neg hdouble, ih hrest, List.reverse_cons, List.append_assoc, List.singleton_append]

/-- A plain word is read as it stands, and what follows the blank after it as if it stood alone. -/
theorem Plain.splitChars_append (h : Plain word) (cs : List Char) :
    splitChars (word ++ ' ' :: cs) = (splitChars cs).map (word :: ·) := by
  obtain ⟨c, rest, rfl⟩ := List.exists_cons_of_ne_nil h.ne_nil
  obtain ⟨hc, hrest⟩ := List.forall_mem_cons.mp h.literal
  obtain ⟨hsep, hescape, hsingle, hdouble⟩ := isLiteral_iff.mp hc
  have hcomment : c ≠ '#' := fun heq => h.noComment (congrArg some heq)
  rw [splitChars, List.cons_append, splitAux, if_neg (by simp [hsep]), if_neg hcomment,
    if_neg hescape, if_neg hsingle, if_neg hdouble, splitAux_bare_append hrest, splitAux,
    if_pos (by decide), List.reverse_append, List.reverse_reverse]
  rfl

theorem Plain.split_append {word : String} (h : Plain word.toList) (s : String) :
    split (word ++ " " ++ s) = (split s).map (word :: ·) := by
  have htext : (word ++ " " ++ s).toList = word.toList ++ ' ' :: s.toList := by simp
  rw [split, split, htext, h.splitChars_append]
  cases splitChars s.toList with
  | none => rfl
  | some words => simp

end Culprit.Text.ShellWords

namespace Culprit.Flags

open Text.ShellWords (Plain split)

/-- The second list is the first one with the first level, if there is any, at its front. -/
inductive LevelFirst : List String → List String → Prop
  | moved {before after : List String} {level : String} (hlevel : isLevel level = true)
      (hbefore : ∀ word ∈ before, isLevel word = false) :
      LevelFirst (before ++ level :: after) (level :: (before ++ after))
  | kept {words : List String} (h : ∀ word ∈ words, isLevel word = false) : LevelFirst words words

theorem ofWords_level {level : String} (h : isLevel level = true) (compiler : String)
    (switches : List String) :
    ofWords (compiler :: level :: switches) = .ok ⟨compiler, level, switches⟩ := by
  simp [ofWords, h]

theorem exists_levelFirst {compiler : String} {rest : List String} {f : Flags}
    (h : ofWords (compiler :: rest) = .ok f) :
    f.compiler = compiler ∧
      ∃ arranged, LevelFirst rest arranged ∧ f.args = arranged.filter (!·.isEmpty) := by
  obtain rfl := Except.ok.inj h
  refine ⟨rfl, ?_⟩
  by_cases hany : ∃ level ∈ rest, isLevel level = true
  · obtain ⟨level, hmem, hlevel⟩ := hany
    -- the level that is taken out is the one that is found: both are the first
    obtain ⟨first, before, after, hbefore, hfirst, hrest, herase⟩ :=
      List.exists_of_eraseP hmem hlevel
    have hbefore : ∀ word ∈ before, isLevel word = false := fun word hword =>
      Bool.eq_false_iff.mpr (hbefore word hword)
    refine ⟨first :: (before ++ after), hrest ▸ .moved hfirst hbefore, ?_⟩
    have hfind : rest.find? isLevel = some first := by
      rw [hrest, List.find?_append, List.find?_eq_none.mpr (by simpa using hbefore)]
      simp [hfirst]
    rw [args, herase, hfind, Option.getD_some]
  · have hnone : ∀ word ∈ rest, isLevel word = false := fun word hword =>
      Bool.eq_false_iff.mpr fun hlevel => hany ⟨word, hword, hlevel⟩
    have hfind : rest.find? isLevel = none := List.find?_eq_none.mpr (by simpa using hnone)
    refine ⟨rest, .kept hnone, ?_⟩
    rw [args, hfind, List.eraseP_of_forall_not (by simpa using hnone)]
    simp

/-- A row names the configuration that its compiler, its level and its switches name as one text,
and the arguments of an identifier are its words after the compiler, with the first level at their
front and without the empty ones. -/
theorem parse_consistent :
    (∀ r : ResultRow, Plain r.compiler.toList → Plain r.optimization.toList →
      isLevel r.optimization = true → (split r.switches).isSome →
        parse (" ".intercalate [r.compiler, r.optimization, r.switches]) = .ok r.flags) ∧
    ∀ identifier f, parse identifier = .ok f →
      ∃ rest arranged, split identifier = some (f.compiler :: rest) ∧ LevelFirst rest arranged ∧
        f.args = arranged.filter (!·.isEmpty) := by
  constructor
  · intro r hcompiler hlevel hO hswitches
    obtain ⟨switches, hsplit⟩ := Option.isSome_iff_exists.mp hswitches
    have htext : " ".intercalate [r.compiler, r.optimization, r.switches] =
        r.compiler ++ " " ++ (r.optimization ++ " " ++ r.switches) := by
      show r.compiler ++ " " ++ r.optimization ++ " " ++ r.switches = _
      simp only [String.append_assoc]
    rw [parse, htext, hcompiler.split_append, hlevel.split_append, hsplit]
    show ofWords (r.compiler :: r.optimization :: switches) = _
    rw [ofWords_level hO, ResultRow.flags, splitSwitches, hsplit, Option.getD_some]
  · intro identifier f hparse
    rw [parse] at hparse
    split at hparse
    · cases hparse
    · next words hsplit =>
        cases words with
        | nil => cases hparse
        | cons compiler rest =>
            obtain ⟨rfl, arranged, harranged, hargs⟩ := exists_levelFirst hparse
            exact ⟨rest, arranged, hsplit, harranged, hargs⟩

theorem parse_consistent_quoted :
    let r : ResultRow := ⟨"Dot", "double", "g++#1", "-O3", "-DX='a b' \"\" -O1 # -g", none⟩
    let f : Flags := ⟨"cc", "-O2", ["", "-DX=a b", "-O3"]⟩
    (Plain r.compiler.toList ∧ Plain r.optimization.toList ∧ isLevel r.optimization = true ∧
      (split r.switches).isSome) ∧
    parse "g++#1 -O3 -DX='a b' \"\" -O1 # -g" = .ok r.flags ∧
    r.flags = ⟨"g++#1", "-O3", ["-DX=a b", "", "-O1"]⟩ ∧
    parse "cc '' -DX='a b' -O2 -O3" = .ok f ∧
    ∃ rest arranged, split "cc '' -DX='a b' -O2 -O3" = some ("cc" :: rest) ∧
      LevelFirst rest arranged ∧ f.args = arranged.filter (!·.isEmpty) := by
  intro r f
  have hrow : Plain r.compiler.toList ∧ Plain r.optimization.toList ∧
      isLevel r.optimization = true ∧ (split r.switches).isSome := by decide
  have hparse : parse "cc '' -DX='a b' -O2 -O3" = .ok f := rfl
  exact ⟨hrow, parse_consistent.1 r hrow.1 hrow.2.1 hrow.2.2.1 hrow.2.2.2, by decide, hparse,
    parse_consistent.2 _ f hparse⟩

end Culprit.Flags
