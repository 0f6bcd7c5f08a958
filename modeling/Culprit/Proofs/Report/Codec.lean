import Culprit.Proofs.Json.Fields
import Culprit.Proofs.Report.Scores
import Culprit.Report.Codec

/-!
Records and reports can be read back from what is written of them. What a record needs for it is
that its numbers fit the fields they are read into and that its scores are exact.
-/

namespace Culprit

open Json (Restores read_fields read_next)

/-- The score can be read back from its text. -/
def Score.Exact (s : Score) : Prop :=
  Json.Exact s.value

theorem Score.restores {s : Score} (h : s.Exact) :
    Restores Score.ofJson? s.toJson s where
  faithful := h
  read := by
    rw [ofJson?, toJson, (Restores.real h).read]
    rfl
  ne_null := nofun

theorem Stage.restores (s : Stage) :
    Restores (Json.oneOf? [Stage.build, .run] Stage.word) (.string s.word) s :=
  Restores.word (by decide) (by cases s <;> decide)

theorem Failure.restores (f : Failure) : Restores Failure.ofJson? f.toJson f where
  faithful := Json.faithful_object.mpr (by simp)
  read := by
    have hfields : f.toJson = Json.present [("kind", some (.string f.stage.word)),
      ("detail", some (.string f.detail))] := rfl
    rw [ofJson?, hfields]
    refine read_fields (by decide) rfl fun g hold => ?_
    refine read_next (hold.required? rfl f.stage.restores) ?_
    exact read_next (hold.required? rfl (.string f.detail)) rfl
  ne_null := nofun

namespace Trial

/-- The integers of a record are below the bounds of their fields. -/
@[mk_iff]
structure Fits (t : Trial) : Prop where
  version : t.version < Json.halfBound
  seq : t.seq < Json.wordBound
  variantCount : t.variantCount < Json.wordBound
  buildMs : ∀ n ∈ t.buildMs?, n < Json.doubleBound
  runMs : ∀ n ∈ t.runMs?, n < Json.doubleBound

instance (t : Trial) : Decidable t.Fits :=
  decidable_of_iff _ (fits_iff t).symm

/-- A record that can be read back. -/
structure Legible (t : Trial) : Prop extends Fits t where
  score : ∀ s ∈ t.score?, s.Exact

theorem legible_ofOutcome {seq : Nat} {p : Partition} {o : Outcome} {buildMs? runMs? : Option Nat}
    {cached : Bool} (hseq : seq < Json.wordBound) (hvariant : p.variant.length < Json.wordBound)
    (hscore : ∀ s, o = .ok s → Json.Exact s.value) (hbuild : ∀ n ∈ buildMs?, n < Json.doubleBound)
    (hrun : ∀ n ∈ runMs?, n < Json.doubleBound) :
    (ofOutcome seq p o buildMs? runMs? cached).Legible where
  version := by show formatVersion < _; decide
  seq := hseq
  variantCount := hvariant
  score s hs := by
    cases o with
    | ok s' => exact hscore s (congrArg Except.ok (Option.some.inj hs))
    | error f => cases hs
  buildMs := hbuild
  runMs := hrun

theorem Legible.restores {t : Trial} (h : t.Legible) : Restores Trial.ofJson? t.toJson t where
  faithful := by
    have hscore : ∀ s ∈ t.score?, s.toJson.Faithful := fun s hs => h.score s hs
    have hfailure : ∀ f ∈ t.failure?, f.toJson.Faithful := fun f _ => f.restores.faithful
    refine Json.faithful_present ?_
    simp only [List.forall_mem_cons, Json.faithful_of_mem_map]
    simpa [Json.natural] using ⟨hscore, hfailure⟩
  read := by
    rw [ofJson?, toJson]
    refine read_fields (by decide) rfl fun f hold => ?_
    refine read_next (hold.required? rfl (.natural h.version)) ?_
    refine read_next (hold.required? rfl (.natural h.seq)) ?_
    refine read_next (hold.required? rfl (.string t.description)) ?_
    refine read_next (hold.required? rfl (.string t.signature)) ?_
    refine read_next (hold.required? rfl (.natural h.variantCount)) ?_
    refine read_next (hold.optional? rfl fun s hs => s.restores (h.score s hs)) ?_
    refine read_next (hold.optional? rfl fun f _ => f.restores) ?_
    refine read_next (hold.optional? rfl fun n hn => .natural (h.buildMs n hn)) ?_
    refine read_next (hold.optional? rfl fun n hn => .natural (h.runMs n hn)) ?_
    exact read_next (hold.required? rfl (.bool t.cached)) rfl
  ne_null := nofun

end Trial

theorem SourceUnit.restores (u : SourceUnit) : Restores SourceUnit.ofJson? u.toJson u where
  faithful := Json.faithful_object.mpr (by simp)
  read := by
    have hfields : u.toJson = Json.present [("path", some (.string u.path))] := rfl
    rw [ofJson?, hfields]
    refine read_fields (by decide) rfl fun f hold => ?_
    exact read_next (hold.required? rfl (.string u.path)) rfl
  ne_null := nofun

/-- The line of the symbol is below the bound of lines. -/
def LinkSymbol.Fits (s : LinkSymbol) : Prop :=
  ∀ n ∈ s.line?, n < Json.halfBound

instance (s : LinkSymbol) : Decidable s.Fits :=
  inferInstanceAs (Decidable (∀ n ∈ s.line?, n < Json.halfBound))

theorem LinkSymbol.restores {s : LinkSymbol} (h : s.Fits) :
    Restores LinkSymbol.ofJson? s.toJson s where
  faithful := by
    refine Json.faithful_present ?_
    simp only [List.forall_mem_cons, Json.faithful_of_mem_map]
    simp [Json.natural]
  read := by
    rw [ofJson?, toJson]
    refine read_fields (by decide) rfl fun f hold => ?_
    refine read_next (hold.required? rfl (.string s.unit)) ?_
    refine read_next (hold.required? rfl (.string s.name)) ?_
    refine read_next (hold.required? rfl (.string s.signature)) ?_
    refine read_next (hold.optional? rfl fun file _ => .string file) ?_
    exact read_next (hold.optional? rfl fun n hn => .natural (h n hn)) rfl
  ne_null := nofun

theorem Issue.restores (i : Issue) : Restores Issue.ofJson? i.toJson i where
  faithful := Json.faithful_object.mpr (by simp)
  read := by
    have hfields : i.toJson = Json.present [("kind", some (.string i.kind.word)),
      ("context", some (.string i.context)), ("detail", some (.string i.detail))] := rfl
    have hkind : Restores (Json.oneOf? IssueKind.all IssueKind.word) (.string i.kind.word) i.kind :=
      Restores.word (by decide) (by cases i.kind <;> decide)
    rw [ofJson?, hfields]
    refine read_fields (by decide) rfl fun f hold => ?_
    refine read_next (hold.required? rfl hkind) ?_
    refine read_next (hold.required? rfl (.string i.context)) ?_
    exact read_next (hold.required? rfl (.string i.detail)) rfl
  ne_null := nofun

theorem Interaction.restores (i : Interaction) :
    Restores Interaction.ofJson? i.toJson i where
  faithful := Json.faithful_object.mpr (by simp [Json.faithful_array])
  read := by
    have hfields : i.toJson = Json.present [("scope", some (.string i.scope)),
      ("members", some (.array (i.members.map .string))),
      ("attributed", some (.array (i.attributed.map .string)))] := rfl
    rw [ofJson?, hfields]
    refine read_fields (by decide) rfl fun f hold => ?_
    refine read_next (hold.required? rfl (.string i.scope)) ?_
    refine read_next (hold.required? rfl (.array fun s _ => .string s)) ?_
    exact read_next (hold.required? rfl (.array fun s _ => .string s)) rfl
  ne_null := nofun

theorem SymbolFinding.restores {s : SymbolFinding} (hfits : s.symbol.Fits)
    (hscore : s.score.Exact) : Restores SymbolFinding.ofJson? s.toJson s where
  faithful := Json.faithful_object.mpr
    (by simp [(LinkSymbol.restores hfits).faithful, (Score.restores hscore).faithful])
  read := by
    have hfields : s.toJson = Json.present [("site", some s.symbol.toJson),
      ("score", some s.score.toJson)] := rfl
    rw [ofJson?, hfields]
    refine read_fields (by decide) rfl fun f hold => ?_
    refine read_next (hold.required? rfl (LinkSymbol.restores hfits)) ?_
    exact read_next (hold.required? rfl (Score.restores hscore)) rfl
  ne_null := nofun

theorem FileFinding.restores {f : FileFinding} (hfits : ∀ s ∈ f.symbols, s.symbol.Fits)
    (hexact : f.Within Score.Exact) : Restores FileFinding.ofJson? f.toJson f := by
  have hscore := Score.restores hexact.score
  have hsymbols := Restores.array fun s hs =>
    SymbolFinding.restores (hfits s hs) (hexact.symbols s hs)
  have hverification : ∀ s ∈ f.verification?, Restores Score.ofJson? s.toJson s :=
    fun s hs => s.restores (hexact.verification s hs)
  refine ⟨?_, ?_, nofun⟩
  · refine Json.faithful_present ?_
    simp only [List.forall_mem_cons, Json.faithful_of_mem_map]
    simpa [f.unit.restores.faithful, hscore.faithful] using
      ⟨hsymbols.faithful, fun s hs => (hverification s hs).faithful⟩
  · rw [ofJson?, toJson]
    refine read_fields (by decide) rfl fun g hold => ?_
    refine read_next (hold.required? rfl f.unit.restores) ?_
    refine read_next (hold.required? rfl hscore) ?_
    refine read_next (hold.withDefault? rfl hsymbols) ?_
    exact read_next (hold.optional? rfl hverification) rfl

namespace Report

/-- The integers of a report are below the bounds of their fields. -/
@[mk_iff]
structure Fits (r : Report) : Prop where
  version : r.version < Json.halfBound
  symbols : ∀ f ∈ r.files, ∀ s ∈ f.symbols, s.symbol.Fits
  trials : ∀ t ∈ r.trials, t.Fits
  executed : r.executed < Json.wordBound

instance (r : Report) : Decidable r.Fits :=
  decidable_of_iff _ (fits_iff r).symm

theorem restores {r : Report} (hfits : r.Fits) (hexact : r.Within Score.Exact) :
    Restores Report.ofJson? r.toJson r := by
  have hstatus : Restores (Json.oneOf? Status.all Status.word) (.string r.status.word) r.status :=
    Restores.word (by decide) (by cases r.status <;> decide)
  have hwhole : ∀ s ∈ r.whole?, Restores Score.ofJson? s.toJson s :=
    fun s hs => s.restores (hexact.whole s hs)
  have hfiles := Restores.array fun f hf =>
    FileFinding.restores (hfits.symbols f hf) (hexact.files f hf)
  have hinteractions := Restores.array fun i (_ : i ∈ r.interactions) => i.restores
  have hissues := Restores.array fun i (_ : i ∈ r.issues) => i.restores
  have hverification : ∀ s ∈ r.verification?, Restores Score.ofJson? s.toJson s :=
    fun s hs => s.restores (hexact.verification s hs)
  have htrials := Restores.array fun t ht =>
    (Trial.Legible.mk (hfits.trials t ht) (hexact.trials t ht)).restores
  refine ⟨?_, ?_, nofun⟩
  · refine Json.faithful_present ?_
    simp only [List.forall_mem_cons, Json.faithful_of_mem_map]
    simpa [Json.natural, hinteractions.faithful, hissues.faithful] using
      ⟨fun s hs => (hwhole s hs).faithful, hfiles.faithful,
        fun s hs => (hverification s hs).faithful, htrials.faithful⟩
  · rw [ofJson?, toJson]
    refine read_fields (by decide) rfl fun f hold => ?_
    refine read_next (hold.required? rfl (.natural hfits.version)) ?_
    refine read_next (hold.required? rfl (.string r.test)) ?_
    refine read_next (hold.required? rfl (.string r.precision)) ?_
    refine read_next (hold.required? rfl (.string r.trusted)) ?_
    refine read_next (hold.required? rfl (.string r.variant)) ?_
    refine read_next (hold.required? rfl hstatus) ?_
    refine read_next (hold.optional? rfl hwhole) ?_
    refine read_next (hold.required? rfl hfiles) ?_
    refine read_next (hold.withDefault? rfl hinteractions) ?_
    refine read_next (hold.withDefault? rfl hissues) ?_
    refine read_next (hold.optional? rfl hverification) ?_
    refine read_next (hold.withDefault? rfl htrials) ?_
    refine read_next (hold.required? rfl (.natural hfits.executed)) ?_
    exact read_next (hold.required? rfl (.string r.generatedAt)) rfl

end Report

end Culprit
