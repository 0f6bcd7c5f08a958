import Culprit.Proofs.Partition.Accepted
import Culprit.Toolchain.Plan
import Mathlib.Data.List.Nodup

/-!
What `objcopy` makes of the globals that an object defines. A definition gets its new name first
and is then weakened under that name; symbols that are added come last.

Splicing settles every name. Of the two objects of a divided unit, each keeps or gets the strong
definitions of the candidates that it owns and gives up those of the others; the other globals stay
strong in the trusted object only. So no name has two strong definitions, and none is lost.
-/

namespace Culprit.Toolchain

/-- A global symbol that an object defines, and where. -/
structure Definition where
  name : String
  strong : Bool
  place : String
  value : Nat
deriving DecidableEq, Repr

def Global.definition (g : Global) : Definition :=
  ⟨g.name, g.isStrong, g.place, g.value⟩

/-- The names of the strong definitions, once for each of them. -/
def strongNames (ds : List Definition) : List String :=
  (ds.filter (·.strong)).map (·.name)

namespace Objcopy

inductive Command where
  | weaken (name : String)
  | rename (old new : String)
  /-- A new strong global. -/
  | add (name place : String) (value : Nat) (kind : String)
deriving DecidableEq, Repr

def Command.args : Command → List String
  | .weaken name => ["--weaken-symbol=" ++ name]
  | .rename old new => ["--redefine-sym", old ++ "=" ++ new]
  | .add name place value kind =>
    ["--add-symbol", name ++ "=" ++ place ++ ":" ++ toString value ++ ",global," ++ kind]

def Command.newName? (name : String) : Command → Option String
  | .rename old new => if old = name then some new else none
  | _ => none

def Command.added? : Command → Option Definition
  | .add name place value _ => some ⟨name, true, place, value⟩
  | _ => none

def newName (cs : List Command) (name : String) : String :=
  (cs.findSome? (Command.newName? name)).getD name

def carry (cs : List Command) (d : Definition) : Definition :=
  { d with
    name := newName cs d.name
    strong := d.strong && Command.weaken (newName cs d.name) ∉ cs }

def apply (cs : List Command) (ds : List Definition) : List Definition :=
  ds.map (carry cs) ++ cs.filterMap Command.added?

theorem newName_eq_self {cs : List Command} {name : String}
    (h : ∀ new, Command.rename name new ∉ cs) : newName cs name = name := by
  have hnone : cs.findSome? (Command.newName? name) = none := by
    rw [List.findSome?_eq_none_iff]
    rintro (_ | ⟨old, new⟩ | _) hc
    · rfl
    · have hne : old ≠ name := fun heq => h new (heq ▸ hc)
      simp [Command.newName?, hne]
    · rfl
  rw [newName, hnone, Option.getD_none]

theorem newName_eq_of_mem {cs : List Command} {name new : String}
    (hmem : Command.rename name new ∈ cs)
    (honly : ∀ other, Command.rename name other ∈ cs → other = new) : newName cs name = new := by
  cases hfind : cs.findSome? (Command.newName? name) with
  | none =>
      rw [List.findSome?_eq_none_iff] at hfind
      simpa [Command.newName?] using hfind _ hmem
  | some found =>
      obtain ⟨c, hc, hnew⟩ := List.exists_of_findSome?_eq_some hfind
      rw [newName, hfind, Option.getD_some]
      cases c with
      | weaken _ => simp [Command.newName?] at hnew
      | add _ _ _ _ => simp [Command.newName?] at hnew
      | rename old other =>
          obtain ⟨rfl, rfl⟩ : old = name ∧ other = found := by
            simpa [Command.newName?] using hnew
          exact honly other hc

end Objcopy

/-! ### Edits as commands -/

open Objcopy

def Edit.commands : Edit → List Command
  | .weaken name => [.weaken name]
  | .promote g =>
    [.rename g.name (Splice.promotedName g.name),
      .add g.name g.place g.value (if g.cls = 'V' then "object" else "function")]

def Splice.commands (s : Splice) (gs : List Global) : List Command :=
  (s.edits gs).flatMap Edit.commands

theorem Edit.args_eq (e : Edit) : e.args = e.commands.flatMap Command.args := by
  cases e <;> rfl

/-- The arguments are those of the commands. -/
theorem Splice.args_eq (s : Splice) (gs : List Global) :
    s.args gs = (s.commands gs).flatMap Command.args := by
  have hargs : Edit.args = fun e => e.commands.flatMap Command.args := funext Edit.args_eq
  rw [Splice.args, Splice.commands, List.flatMap_assoc, hargs]

/-! ### Splicing -/

open Splice

variable {s : Splice} {gs : List Global} {g : Global}

/-- What is known of the listing of an object whose symbols are divided. -/
structure Listing (candidates : List String) (gs : List Global) : Prop where
  distinct : (gs.map (·.name)).Nodup
  classed : ∀ g ∈ gs, g.isStrong = true ∨ g.isWeak = true
  placed : ∀ g ∈ gs, g.isWeak = true → g.name ∈ candidates → g.place ≠ ""
  unpromoted : ∀ g ∈ gs, ¬".fpbisect".toList <:+ g.name.toList

theorem Listing.eq_of_name {candidates : List String} (h : Listing candidates gs) {g' : Global}
    (hg : g ∈ gs) (hg' : g' ∈ gs) (heq : g.name = g'.name) : g = g' :=
  List.inj_on_of_nodup_map h.distinct hg hg' heq

theorem Listing.ne_promotedName {candidates : List String} (h : Listing candidates gs)
    (hg : g ∈ gs) (name : String) : g.name ≠ promotedName name := by
  intro heq
  refine h.unpromoted g hg ?_
  rw [heq, promotedName, String.toList_append]
  exact List.suffix_append _ _

theorem promotedName_injective : Function.Injective promotedName := by
  intro a b h
  have hlists := congrArg String.toList h
  rw [promotedName, promotedName, String.toList_append, String.toList_append] at hlists
  exact String.toList_injective (List.append_cancel_right hlists)

/-! ### What becomes of one global -/

theorem strong_of_edit?_weaken {name : String} (h : s.edit? g = some (.weaken name)) :
    g.isStrong = true ∧ s.givesUp g = true ∧ name = g.name := by
  grind [Splice.edit?]

theorem weak_of_edit?_promote {g' : Global} (h : s.edit? g = some (.promote g')) :
    g.isStrong = false ∧ g.name ∈ s.owned ∧ g' = g := by
  grind [Splice.edit?]

theorem mem_commands {c : Command} :
    c ∈ s.commands gs ↔ ∃ g ∈ gs, ∃ e, s.edit? g = some e ∧ c ∈ e.commands := by
  simp only [Splice.commands, Splice.edits, List.mem_flatMap, List.mem_filterMap]
  constructor
  · rintro ⟨e, ⟨g, hg, he⟩, hc⟩
    exact ⟨g, hg, e, he, hc⟩
  · rintro ⟨g, hg, e, he, hc⟩
    exact ⟨e, ⟨g, hg, he⟩, hc⟩

theorem weaken_mem_commands {name : String} :
    Command.weaken name ∈ s.commands gs ↔
      ∃ g ∈ gs, s.edit? g = some (.weaken name) := by
  rw [mem_commands]
  refine exists_congr fun g => and_congr_right fun _ => ⟨?_, fun h => ?_⟩
  · rintro ⟨e, he, hc⟩
    cases e <;> simp_all [Edit.commands]
  · exact ⟨_, h, by simp [Edit.commands]⟩

theorem rename_mem_commands {old new : String} :
    Command.rename old new ∈ s.commands gs ↔
      new = promotedName old ∧ ∃ g ∈ gs, g.name = old ∧ s.edit? g = some (.promote g) := by
  rw [mem_commands]
  constructor
  · rintro ⟨g, hg, _ | g', he, hc⟩
    · simp [Edit.commands] at hc
    · obtain ⟨-, -, rfl⟩ := weak_of_edit?_promote he
      obtain ⟨rfl, rfl⟩ : old = g'.name ∧ new = promotedName g'.name := by
        simpa [Edit.commands] using hc
      exact ⟨rfl, g', hg, rfl, he⟩
  · rintro ⟨rfl, g, hg, rfl, he⟩
    exact ⟨g, hg, _, he, by simp [Edit.commands]⟩

/-- The definition of a global in the spliced object. -/
def Splice.carried (s : Splice) (g : Global) : Definition :=
  match s.edit? g with
  | some (.weaken _) => { g.definition with strong := false }
  | some (.promote _) => { g.definition with name := promotedName g.name }
  | none => g.definition

/-- The strong definition of a global at its address. -/
def Global.strongly (g : Global) : Definition :=
  ⟨g.name, true, g.place, g.value⟩

/-- A weak global that gets a strong definition. -/
def Splice.promotes (s : Splice) (g : Global) : Bool :=
  s.edit? g = some (.promote g)

/-- The definitions of an object after its splicing. -/
def Splice.spliced (s : Splice) (gs : List Global) : List Definition :=
  Objcopy.apply (s.commands gs) (gs.map Global.definition)

theorem weaken_mem_commands_of_mem (h : (gs.map (·.name)).Nodup) (hg : g ∈ gs) :
    Command.weaken g.name ∈ s.commands gs ↔ s.edit? g = some (.weaken g.name) := by
  rw [weaken_mem_commands]
  refine ⟨fun ⟨g', hg', he⟩ => ?_, fun he => ⟨g, hg, he⟩⟩
  have hsame := (strong_of_edit?_weaken he).2.2
  obtain rfl := List.inj_on_of_nodup_map h hg hg' hsame
  exact he

theorem newName_of_mem (h : (gs.map (·.name)).Nodup) (hg : g ∈ gs) :
    newName (s.commands gs) g.name = if s.promotes g then promotedName g.name else g.name := by
  split
  · next hp =>
      refine newName_eq_of_mem (rename_mem_commands.mpr ⟨rfl, g, hg, rfl, ?_⟩) fun other ho => ?_
      · exact of_decide_eq_true hp
      · exact (rename_mem_commands.mp ho).1
  · next hp =>
      refine newName_eq_self fun new hnew => hp ?_
      obtain ⟨-, g', hg', hsame, he⟩ := rename_mem_commands.mp hnew
      obtain rfl := List.inj_on_of_nodup_map h hg' hg hsame
      exact decide_eq_true he

theorem carry_definition (h : (gs.map (·.name)).Nodup) (hg : g ∈ gs) :
    carry (s.commands gs) g.definition = s.carried g := by
  have hname := newName_of_mem (s := s) h hg
  have hweaken := weaken_mem_commands_of_mem (s := s) h hg
  cases he : s.edit? g with
  | none =>
      have hp : s.promotes g = false := by simp [Splice.promotes, he]
      have hkept : Command.weaken g.name ∉ s.commands gs := by simp [hweaken, he]
      simp_all [carry, Splice.carried, Global.definition]
  | some e =>
      cases e with
      | weaken name =>
          obtain ⟨-, -, rfl⟩ := strong_of_edit?_weaken he
          have hp : s.promotes g = false := by simp [Splice.promotes, he]
          simp_all [carry, Splice.carried, Global.definition]
      | promote g' =>
          obtain ⟨hweak, -, rfl⟩ := weak_of_edit?_promote he
          have hp : s.promotes g' = true := by simp [Splice.promotes, he]
          simp_all [carry, Splice.carried, Global.definition]

theorem commands_cons (s : Splice) (g : Global) (gs : List Global) :
    s.commands (g :: gs) = (s.edit? g).toList.flatMap Edit.commands ++ s.commands gs := by
  cases he : s.edit? g <;> simp [Splice.commands, Splice.edits, he]

theorem filterMap_added? (s : Splice) (gs : List Global) :
    (s.commands gs).filterMap Command.added? = (gs.filter s.promotes).map Global.strongly := by
  induction gs with
  | nil => rfl
  | cons g gs ih =>
      rw [commands_cons, List.filterMap_append, ih]
      rcases he : s.edit? g with _ | ⟨name⟩ | ⟨g'⟩
      · simp [Splice.promotes, he]
      · simp [Splice.promotes, he, Edit.commands, Command.added?]
      · obtain ⟨-, -, rfl⟩ := weak_of_edit?_promote he
        simp only [Splice.promotes, he, List.filter_cons, decide_true, if_true]
        rfl

theorem spliced_eq (h : (gs.map (·.name)).Nodup) :
    s.spliced gs = gs.map s.carried ++ (gs.filter s.promotes).map Global.strongly := by
  rw [Splice.spliced, Objcopy.apply, filterMap_added?, List.map_map]
  congr 1
  exact List.map_congr_left fun g hg => carry_definition h hg

/-! ### The strong definitions of a spliced object -/

/-- A strong global that is not given up. -/
def Splice.keeps (s : Splice) (g : Global) : Bool :=
  g.isStrong && !s.givesUp g

theorem promotes_iff :
    s.promotes g = true ↔
      g.isStrong = false ∧ g.isWeak = true ∧ g.name ∈ s.owned ∧ g.place ≠ "" := by
  grind [Splice.promotes, Splice.edit?, String.isEmpty_iff]

theorem carried_strong : (s.carried g).strong = s.keeps g := by
  rcases he : s.edit? g with _ | ⟨name⟩ | ⟨g'⟩
  · grind [Splice.edit?, Splice.carried, Splice.keeps, Global.definition]
  · obtain ⟨hstrong, hgives, -⟩ := strong_of_edit?_weaken he
    simp [Splice.carried, Splice.keeps, he, hstrong, hgives]
  · obtain ⟨hweak, -, -⟩ := weak_of_edit?_promote he
    simp [Splice.carried, Splice.keeps, he, hweak, Global.definition]

theorem carried_name :
    (s.carried g).name = if s.promotes g then promotedName g.name else g.name := by
  rcases he : s.edit? g with _ | ⟨name⟩ | ⟨g'⟩
  · simp [Splice.carried, Splice.promotes, he, Global.definition]
  · simp [Splice.carried, Splice.promotes, he, Global.definition]
  · obtain ⟨-, -, rfl⟩ := weak_of_edit?_promote he
    simp [Splice.carried, Splice.promotes, he]

theorem carried_of_keeps (h : s.keeps g = true) : s.carried g = g.strongly := by
  have hnone : s.edit? g = none := by grind [Splice.keeps, Splice.edit?]
  have hstrong : g.isStrong = true := (Bool.and_eq_true_iff.mp h).1
  simp [Splice.carried, hnone, Global.definition, Global.strongly, hstrong]

theorem filter_strong_spliced (h : (gs.map (·.name)).Nodup) :
    (s.spliced gs).filter (·.strong) =
      (gs.filter s.keeps ++ gs.filter s.promotes).map Global.strongly := by
  have hadded : ((gs.filter s.promotes).map Global.strongly).filter (·.strong) =
      (gs.filter s.promotes).map Global.strongly :=
    List.filter_eq_self.mpr fun d hd => by
      obtain ⟨g, -, rfl⟩ := List.mem_map.mp hd
      rfl
  have hcarried : (gs.map s.carried).filter (·.strong) =
      (gs.filter s.keeps).map Global.strongly := by
    have hpred : (fun d : Definition => d.strong) ∘ s.carried = s.keeps :=
      funext fun g => carried_strong
    rw [List.filter_map, hpred]
    exact List.map_congr_left fun g hg => carried_of_keeps (List.of_mem_filter hg)
  rw [spliced_eq h, List.filter_append, hcarried, hadded, List.map_append]

theorem strongNames_spliced (h : (gs.map (·.name)).Nodup) :
    strongNames (s.spliced gs) = (gs.filter s.keeps ++ gs.filter s.promotes).map (·.name) := by
  rw [strongNames, filter_strong_spliced h, List.map_map]
  rfl

theorem strongly_mem_spliced (h : (gs.map (·.name)).Nodup) (hg : g ∈ gs)
    (hs : s.keeps g = true ∨ s.promotes g = true) : g.strongly ∈ s.spliced gs := by
  have hmem : g.strongly ∈ (s.spliced gs).filter (·.strong) := by
    rw [filter_strong_spliced h]
    refine List.mem_map_of_mem ?_
    rcases hs with hs | hs
    · exact List.mem_append_left _ (List.mem_filter.mpr ⟨hg, hs⟩)
    · exact List.mem_append_right _ (List.mem_filter.mpr ⟨hg, hs⟩)
  exact (List.mem_filter.mp hmem).1

theorem mem_strongNames_spliced (h : (gs.map (·.name)).Nodup)
    {name : String} (hname : name ∈ strongNames (s.spliced gs)) :
    ∃ g ∈ gs, g.name = name ∧ (s.keeps g = true ∨ s.promotes g = true) := by
  rw [strongNames_spliced h] at hname
  obtain ⟨g, hg, rfl⟩ := List.mem_map.mp hname
  rcases List.mem_append.mp hg with hg | hg
  · exact ⟨g, (List.mem_filter.mp hg).1, rfl, .inl (List.mem_filter.mp hg).2⟩
  · exact ⟨g, (List.mem_filter.mp hg).1, rfl, .inr (List.mem_filter.mp hg).2⟩

theorem nodup_strongNames_spliced {candidates : List String} (h : Listing candidates gs) :
    (strongNames (s.spliced gs)).Nodup := by
  rw [strongNames_spliced h.distinct, List.map_append, List.nodup_append']
  refine ⟨h.distinct.sublist (List.filter_sublist.map _),
    h.distinct.sublist (List.filter_sublist.map _), fun name hkeeps hpromotes => ?_⟩
  -- The same name would be one global, strong and weak at once.
  obtain ⟨g, hg, rfl⟩ := List.mem_map.mp hkeeps
  obtain ⟨g', hg', hsame⟩ := List.mem_map.mp hpromotes
  obtain rfl := h.eq_of_name (List.mem_filter.mp hg').1 (List.mem_filter.mp hg).1 hsame
  have hstrong := (Bool.and_eq_true_iff.mp (List.mem_filter.mp hg).2).1
  have hweak := (promotes_iff.mp (List.mem_filter.mp hg').2).1
  simp [hstrong] at hweak

/-! ### The names that a spliced object defines -/

theorem names_subset_spliced (h : (gs.map (·.name)).Nodup) :
    gs.map (·.name) ⊆ (s.spliced gs).map (·.name) := by
  intro name hname
  obtain ⟨g, hg, rfl⟩ := List.mem_map.mp hname
  rw [spliced_eq h, List.map_append, List.mem_append, List.map_map, List.map_map]
  by_cases hp : s.promotes g = true
  · exact .inr (List.mem_map.mpr ⟨g, List.mem_filter.mpr ⟨hg, hp⟩, rfl⟩)
  · exact .inl (List.mem_map.mpr ⟨g, hg, by rw [Function.comp_apply, carried_name, if_neg hp]⟩)

theorem nodup_names_spliced {candidates : List String} (h : Listing candidates gs) :
    ((s.spliced gs).map (·.name)).Nodup := by
  rw [spliced_eq h.distinct, List.map_append, List.map_map, List.map_map, List.nodup_append']
  refine ⟨h.distinct.of_map.map_on ?_, h.distinct.sublist (List.filter_sublist.map _), ?_⟩
  · intro g hg g' hg' hsame
    simp only [Function.comp_apply, carried_name] at hsame
    split at hsame <;> split at hsame
    · exact h.eq_of_name hg hg' (promotedName_injective hsame)
    · exact absurd hsame.symm (h.ne_promotedName hg' _)
    · exact absurd hsame (h.ne_promotedName hg _)
    · exact h.eq_of_name hg hg' hsame
  · intro name hcarried hadded
    obtain ⟨g, hg, rfl⟩ := List.mem_map.mp hcarried
    obtain ⟨g', hg', hsame⟩ := List.mem_map.mp hadded
    obtain ⟨hg', hp⟩ := List.mem_filter.mp hg'
    simp only [Function.comp_apply, carried_name] at hsame
    split at hsame
    · exact h.ne_promotedName hg' _ hsame
    · next hnot =>
        obtain rfl := h.eq_of_name hg' hg hsame
        exact hnot hp

/-! ### Who supplies what -/

theorem owner_of_supplied (hs : s.keeps g = true ∨ s.promotes g = true) :
    g.name ∈ s.owned ∨ (s.ownsData = true ∧ g.name ∉ s.candidates) := by
  rcases hs with hs | hs
  · grind [Splice.keeps, Splice.givesUp]
  · exact .inl (promotes_iff.mp hs).2.2.1

theorem supplied_of_owned (h : Listing s.candidates gs) (hg : g ∈ gs)
    (hsub : s.owned ⊆ s.candidates) (howned : g.name ∈ s.owned) :
    s.keeps g = true ∨ s.promotes g = true := by
  have hcandidate := hsub howned
  by_cases hstrong : g.isStrong = true
  · exact .inl (by simp [Splice.keeps, Splice.givesUp, hstrong, hcandidate, howned])
  · have hweak : g.isWeak = true := (h.classed g hg).resolve_left hstrong
    exact .inr (promotes_iff.mpr
      ⟨eq_false_of_ne_true hstrong, hweak, howned, h.placed g hg hweak hcandidate⟩)

theorem kept_of_data (hdata : s.ownsData = true) (hstrong : g.isStrong = true)
    (hother : g.name ∉ s.candidates) : s.keeps g = true := by
  simp [Splice.keeps, Splice.givesUp, hstrong, hother, hdata]

/-! ### The two objects of a divided unit -/

/-- What the two objects of a unit define once their listings `inTrusted` and `inVariant` have
become `t` and `v`. -/
structure Settled (p : Partition) (inTrusted inVariant : List Global) (t v : List Definition) :
    Prop where
  /-- No name has two strong definitions. -/
  apart : (strongNames t ++ strongNames v).Nodup
  single : (t.map (·.name)).Nodup ∧ (v.map (·.name)).Nodup
  defined : inTrusted.map (·.name) ⊆ t.map (·.name) ∧ inVariant.map (·.name) ⊆ v.map (·.name)
  trusted : ∀ g ∈ inTrusted, g.name ∈ p.trusted → g.strongly ∈ t ∧ g.name ∉ strongNames v
  variant : ∀ g ∈ inVariant, g.name ∈ p.variant → g.strongly ∈ v ∧ g.name ∉ strongNames t
  others : ∀ g ∈ inTrusted, g.isStrong = true → g.name ∉ p.trusted ++ p.variant →
    g.strongly ∈ t

def Plan.trustedSplice (p : Partition) : Splice :=
  ⟨p.trusted, p.trusted ++ p.variant, true⟩

def Plan.variantSplice (p : Partition) : Splice :=
  ⟨p.variant, p.trusted ++ p.variant, false⟩

theorem settled_spliced {p : Partition} {inTrusted inVariant : List Global}
    (hdisjoint : p.trusted.Disjoint p.variant)
    (ht : Listing (p.trusted ++ p.variant) inTrusted)
    (hv : Listing (p.trusted ++ p.variant) inVariant) :
    Settled p inTrusted inVariant ((Plan.trustedSplice p).spliced inTrusted)
      ((Plan.variantSplice p).spliced inVariant) := by
  have hvariant {name : String}
      (h : name ∈ strongNames ((Plan.variantSplice p).spliced inVariant)) : name ∈ p.variant := by
    obtain ⟨g, -, rfl, hs⟩ := mem_strongNames_spliced hv.distinct h
    exact (owner_of_supplied hs).resolve_right (fun hdata => by simp [Plan.variantSplice] at hdata)
  have htrusted {name : String}
      (h : name ∈ strongNames ((Plan.trustedSplice p).spliced inTrusted)) : name ∉ p.variant := by
    obtain ⟨g, -, rfl, hs⟩ := mem_strongNames_spliced ht.distinct h
    rcases owner_of_supplied hs with howned | ⟨-, hother⟩
    · exact fun hmem => hdisjoint howned hmem
    · exact fun hmem => hother (List.mem_append_right _ hmem)
  refine ⟨?_, ⟨nodup_names_spliced ht, nodup_names_spliced hv⟩,
    ⟨names_subset_spliced ht.distinct, names_subset_spliced hv.distinct⟩,
    fun g hg howned => ⟨?_, ?_⟩, fun g hg howned => ⟨?_, ?_⟩, fun g hg hstrong hother => ?_⟩
  · rw [List.nodup_append']
    exact ⟨nodup_strongNames_spliced ht, nodup_strongNames_spliced hv,
      fun name h h' => htrusted h (hvariant h')⟩
  · exact strongly_mem_spliced ht.distinct hg
      (supplied_of_owned ht hg (List.subset_append_left _ _) howned)
  · exact fun h => hdisjoint howned (hvariant h)
  · exact strongly_mem_spliced hv.distinct hg
      (supplied_of_owned hv hg (List.subset_append_right _ _) howned)
  · exact fun h => htrusted h howned
  · exact strongly_mem_spliced ht.distinct hg (.inl (kept_of_data rfl hstrong hother))

theorem jobsOf_contested {p : Partition} {divided : String} {unit : SourceUnit}
    (trusted variant : Flags) (objectDir : String) (hscope : p.scope = .symbols divided)
    (hunit : (SourceUnit.mk divided).key = unit.key) (htrusted : p.trusted ≠ [])
    (hvariant : p.variant ≠ []) :
    Plan.jobsOf p trusted variant objectDir unit =
      [⟨unit, trusted, Plan.objectPath objectDir unit "_trusted", true,
          some (Plan.trustedSplice p)⟩,
        ⟨unit, variant, Plan.objectPath objectDir unit "_variant", true,
          some (Plan.variantSplice p)⟩] := by
  simp [Plan.jobsOf, hscope, hunit, Plan.scopedJobs, htrusted, hvariant, Plan.splice?,
    Plan.contested, Plan.trustedSplice, Plan.variantSplice]

/-- A build that divides the symbols of a unit compiles it once for each side and splices the two
objects. Taking `objcopy` at its word, the spliced objects have at most one strong definition for
each name and lose none; a candidate is strong in the object of its own side only, at the address
it has there, and every other global that was strong in the trusted object still is. -/
theorem splice_resolves (units : List SourceUnit) (unit : SourceUnit) (p : Partition)
    (divided : String) (trusted variant : Flags) (objectDir : String)
    (inTrusted inVariant : List Global) (hunits : unit ∈ units)
    (hscope : p.scope = .symbols divided) (hunit : (SourceUnit.mk divided).key = unit.key)
    (htrusted : p.trusted ≠ []) (hvariant : p.variant ≠ [])
    (hdisjoint : p.trusted.Disjoint p.variant)
    (ht : Listing (p.trusted ++ p.variant) inTrusted)
    (hv : Listing (p.trusted ++ p.variant) inVariant) :
    ∃ (t v : CompileJob) (st sv : Splice) (ct cv : List Command),
      [t, v] <:+: plan units p trusted variant objectDir ∧
      (t.unit = unit ∧ t.flags = trusted ∧ t.splice? = some st) ∧
      (v.unit = unit ∧ v.flags = variant ∧ v.splice? = some sv) ∧
      st.args inTrusted = ct.flatMap Command.args ∧
      sv.args inVariant = cv.flatMap Command.args ∧
      Settled p inTrusted inVariant (Objcopy.apply ct (inTrusted.map Global.definition))
        (Objcopy.apply cv (inVariant.map Global.definition)) := by
  have hjobs := jobsOf_contested trusted variant objectDir hscope hunit htrusted hvariant
  refine ⟨⟨unit, trusted, Plan.objectPath objectDir unit "_trusted", true,
      some (Plan.trustedSplice p)⟩,
    ⟨unit, variant, Plan.objectPath objectDir unit "_variant", true, some (Plan.variantSplice p)⟩,
    Plan.trustedSplice p, Plan.variantSplice p, (Plan.trustedSplice p).commands inTrusted,
    (Plan.variantSplice p).commands inVariant, ?_, ⟨rfl, rfl, rfl⟩, ⟨rfl, rfl, rfl⟩,
    Splice.args_eq _ _, Splice.args_eq _ _, settled_spliced hdisjoint ht hv⟩
  -- The jobs of one unit stand together in the plan.
  obtain ⟨before, after, rfl⟩ := List.append_of_mem hunits
  refine ⟨plan before p trusted variant objectDir, plan after p trusted variant objectDir, ?_⟩
  simp only [plan, List.flatMap_append, List.flatMap_cons, hjobs, List.append_assoc]

/-- Two functions, a template instance and a variable. -/
def fourGlobals : List Global :=
  [⟨"f", 'T', 0, ".text"⟩, ⟨"g", 'T', 16, ".text"⟩, ⟨"tw", 'W', 32, ".text.tw"⟩,
    ⟨"counter", 'B', 0, ".bss"⟩]

theorem fourGlobals_listing : Listing ["g", "f", "tw"] fourGlobals :=
  ⟨by decide, by decide, by decide, by decide⟩

theorem splice_resolves_fourGlobals :
    ∃ p, Partition.of (.symbols "a.cpp") ["f", "g", "tw"] ["f", "tw"] = .ok p ∧
      p.trusted.Disjoint p.variant ∧ Listing (p.trusted ++ p.variant) fourGlobals ∧
      ∃ (sv : Splice) (cv : List Command), sv.args fourGlobals = cv.flatMap Command.args ∧
        (⟨"tw", true, ".text.tw", 32⟩ : Definition) ∈
          Objcopy.apply cv (fourGlobals.map Global.definition) := by
  have hof : Partition.of (.symbols "a.cpp") ["f", "g", "tw"] ["f", "tw"] =
      .ok ⟨.symbols "a.cpp", ["f", "tw"], ["g"]⟩ := by decide
  obtain ⟨_, _, _, sv, _, cv, -, -, -, -, hargs, hsettled⟩ := splice_resolves
    [⟨"a.cpp"⟩, ⟨"b.cpp"⟩] ⟨"a.cpp"⟩ ⟨.symbols "a.cpp", ["f", "tw"], ["g"]⟩ "a.cpp"
    ⟨"g++", "-O0", []⟩ ⟨"g++", "-O3", []⟩ "/work/obj" fourGlobals fourGlobals (by decide) rfl rfl
    (by decide) (by decide) (Partition.disjoint_of_ok hof) fourGlobals_listing fourGlobals_listing
  exact ⟨_, hof, Partition.disjoint_of_ok hof, fourGlobals_listing, sv, cv, hargs,
    (hsettled.variant ⟨"tw", 'W', 32, ".text.tw"⟩ (by decide) (by decide)).1⟩

end Culprit.Toolchain
