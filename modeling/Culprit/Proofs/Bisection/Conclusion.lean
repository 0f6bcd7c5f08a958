import Culprit.Proofs.Bisection.Course
import Culprit.Proofs.Search.Accounting

/-!
The status of a report is true. It goes by the trial of all units: a bisection is aborted when that
trial failed, there is no divergence when it agreed with the baseline, and otherwise the bisection
is completed and its report names a suspect, an interaction or a failed trial. A bisection that was
asked to stop is never completed.
-/

namespace Culprit

variable {σ : Type}

/-! ### What the report says -/

/-- A trial of exactly this partition came to this outcome. -/
def Report.Records (r : Report) (p : Partition) (o : Outcome) : Prop :=
  ∃ t ∈ r.trials, t.gist = Trial.note p o

theorem Session.Noted.records {s : Session σ} {p : Partition} {o : Outcome} (h : s.Noted p o)
    (stop : Bool) (r : Report) : (Engine.closeReport stop s r).Records p o :=
  List.mem_map.mp h

theorem Report.fileKeys_eq (r : Report) :
    r.fileKeys = keysOf ((r.files.map (·.suspect)).map (·.candidate)) := by
  rw [fileKeys, keysOf, List.map_map, List.map_map]
  rfl

theorem FileFinding.symbols_eq (f : FileFinding) :
    f.symbols.map (·.symbol) = (f.symbols.map (·.suspect)).map (·.candidate) := by
  rw [List.map_map]
  rfl

/-- How the trial of all units came out. -/
inductive Conclusion where
  | failed
  | agreed
  | diverged
deriving DecidableEq, Repr

/-- The report is one of a trial of all units, `whole`, that came out in this way. -/
def Report.Concludes (r : Report) (whole : Partition) : Conclusion → Prop
  | .failed => ∃ f, r.Tells whole (.error f) ∧ r.status = .aborted ∧ r.whole? = none ∧
      r.files = [] ∧ r.interactions = [] ∧ r.issues = [.ofFailure "all files variant" f]
  | .agreed => ∃ v, r.Tells whole (.ok v) ∧ v.isDivergent = false ∧ r.status = .noDivergence ∧
      r.whole? = some v ∧ r.files = [] ∧ r.interactions = [] ∧ r.issues = []
  | .diverged => ∃ v, r.Tells whole (.ok v) ∧ v.isDivergent = true ∧ r.status = .completed ∧
      r.whole? = some v ∧ (r.files ≠ [] ∨ r.interactions ≠ [] ∨
        ∃ i ∈ r.issues, i.kind = .buildFailure ∨ i.kind = .runFailure)

/-- The status tells the conclusion. -/
theorem Report.Concludes.eq {r : Report} {whole : Partition} {k k' : Conclusion}
    (h : r.Concludes whole k) (h' : r.Concludes whole k') : k = k' := by
  have status {k : Conclusion} (h : r.Concludes whole k) : r.status =
      match k with
      | .failed => .aborted
      | .agreed => .noDivergence
      | .diverged => .completed := by
    cases k with
    | failed => obtain ⟨_, _, hstatus, _⟩ := h; exact hstatus
    | agreed => obtain ⟨_, _, _, hstatus, _⟩ := h; exact hstatus
    | diverged => obtain ⟨_, _, _, hstatus, _⟩ := h; exact hstatus
  have hsame := (status h).symm.trans (status h')
  cases k <;> cases k' <;> first | rfl | cases hsame

/-- There is one search of the units. -/
theorem FileSearch.eq_found {x : Experiment σ} {units : List SourceUnit} {s s₁ s₂ : Session σ}
    {suspects : List (Suspect SourceUnit)} {whole : Score} {found : SearchResult SourceUnit}
    (h : FileSearch x units s suspects)
    (hconfirm : (Search.confirm x.bench (fileSpace units)).runOn s = (.ok (.ok whole), s₁))
    (hdivergent : whole.isDivergent = true)
    (hsearch : (Search.search x.bench (fileSpace units) whole).runOn s₁ = (.ok found, s₂)) :
    suspects = found.suspects := by
  cases h with
  | none hconfirm' hsame =>
      rw [hconfirm] at hconfirm'
      cases hconfirm'
      exact absurd (hsame whole rfl) (by simp [hdivergent])
  | found hconfirm' _ hsearch' =>
      rw [hconfirm] at hconfirm'
      cases hconfirm'
      rw [hsearch] at hsearch'
      cases hsearch'
      rfl

/-! ### What no step takes back -/

/-- From one report and state to another nothing that was reported is lost, the scores of the units
stay as they are, and only a request to stop changes the status. -/
structure Advances (fired : σ → Prop) (r : Report) (s : Session σ) (r' : Report)
    (s' : Session σ) : Prop where
  whole : r'.whole? = r.whole?
  verification : r'.verification? = r.verification?
  interactions : r.interactions ⊆ r'.interactions
  issues : r.issues ⊆ r'.issues
  sound : (∀ f ∈ r.files, f.Sound) → ∀ f ∈ r'.files, f.Sound
  asked : s.Asked fired → s'.Asked fired
  status : s'.Asked fired ∨ r'.status = r.status

namespace Engine

variable {e : Engine σ} {x : Experiment σ} {fired : σ → Prop} {s s' : Session σ}

/-- A search that nobody asked to stop is not cancelled. -/
theorem search_going {α : Type} [Candidate α] {space : Space α} {whole : Score}
    {found : SearchResult α} (hx : x.Latched fired) (hkeys : (Search.keys space).Nodup)
    (hrun : (Search.search x.bench space whole).runOn s = (.ok found, s')) :
    (s.Asked fired → s'.Asked fired) ∧ (s'.Asked fired ∨ found.cancelled = false) := by
  obtain ⟨found', _, s'', hrun', honward, -⟩ :=
    Search.search_founded whole hkeys (bench_traced hx s) (.refl s)
  obtain ⟨hfound, rfl⟩ := Prod.mk.inj (hrun'.symm.trans hrun)
  refine ⟨honward.asked, ?_⟩
  by_cases hsome : space.candidates = []
  · rw [Search.search, if_pos (by simpa using hsome)] at hrun
    cases hrun
    exact .inr rfl
  · exact (Search.search_informs hkeys hsome (bench_traced hx s) hrun).imp_right And.left

theorem advances_noteSearch {α : Type} {found : SearchResult α} {r : Report}
    (hasked : s.Asked fired → s'.Asked fired) (hgoing : s'.Asked fired ∨ found.cancelled = false) :
    Advances fired r s (noteSearch r found) s' where
  whole := rfl
  verification := rfl
  interactions := List.subset_append_left _ _
  issues := List.subset_append_left _ _
  sound := id
  asked := hasked
  status := hgoing.imp_right fun h => by rw [noteSearch, h]; rfl

theorem obeys_advances (hlab : e.lab.Latched fired) (hx : x.Latched fired) :
    e.Obeys x (Advances fired) where
  refl r s := ⟨rfl, rfl, List.Subset.refl _, List.Subset.refl _, id, id, .inr rfl⟩
  trans {r r₁ r' s s₁ s'} h h' :=
    { whole := h'.whole.trans h.whole
      verification := h'.verification.trans h.verification
      interactions := List.Subset.trans h.interactions h'.interactions
      issues := List.Subset.trans h.issues h'.issues
      sound := h'.sound ∘ h.sound
      asked := h'.asked ∘ h.asked
      status := h'.status.elim .inl fun hsame' =>
        h.status.imp h'.asked fun hsame => hsame'.trans hsame }
  look r s := ⟨rfl, rfl, List.Subset.refl _, List.Subset.refl _, id, (onward_look hx s).asked,
    .inr rfl⟩
  list unit r s := ⟨rfl, rfl, List.Subset.refl _, List.Subset.refl _, id,
    (onward_list hlab unit s).asked, .inr rfl⟩
  batch ps r s := ⟨rfl, rfl, List.Subset.refl _, List.Subset.refl _, id,
    (onward_batch hx ps s).asked, .inr rfl⟩
  search {unit} listed _ _ _ _ hrun r := by
    have hkeys : (Search.keys (symbolSpace unit listed)).Nodup :=
      (LinkSymbol.nodup_distinct [] listed).1
    obtain ⟨hasked, hgoing⟩ := search_going hx hkeys hrun
    exact advances_noteSearch hasked hgoing
  addIssue i r s := ⟨rfl, rfl, List.Subset.refl _, List.subset_append_left _ _, id, id, .inr rfl⟩
  addFile {f} hf r s :=
    { whole := rfl
      verification := rfl
      interactions := List.Subset.refl _
      issues := List.Subset.refl _
      sound := fun hfiles => List.forall_mem_append.mpr ⟨hfiles, by simpa using hf⟩
      asked := id
      status := .inr rfl }

/-! ### The phases -/

variable {units : List SourceUnit} {r r' : Report}

/-- The report of phases that went on after the trial of all units. -/
structure Searched (fired : σ → Prop) (whole : Score) (r : Report) (s : Session σ) : Prop where
  whole : r.whole? = some whole
  verified : ∀ v, r.verification? = some v → r.files ≠ []
  sound : ∀ f ∈ r.files, f.Sound
  status : s.Asked fired ∨ r.status = .completed
  informs : s.Asked fired ∨ r.files ≠ [] ∨ r.interactions ≠ [] ∨
    ∃ i ∈ r.issues, i.kind = .buildFailure ∨ i.kind = .runFailure

theorem searched_of_suspects (hlab : e.lab.Latched fired) (hx : x.Latched fired)
    (hkeys : (keysOf units).Nodup) (hsome : units ≠ []) (hstatus : r.status = .completed)
    (hnone : r.files = []) {whole : Score} {found : SearchResult SourceUnit}
    {verified : Option Score} {r₁ : Report} {s₁ s₂ : Session σ}
    (hsearch : (Search.search x.bench (fileSpace units) whole).runOn s = (.ok found, s₁))
    (hverify : (e.verifySuspects x (fileSpace units) found.suspects "suspect files variant"
      (noteSearch { r with whole? := some whole } found)).runOn s₁ = (.ok (verified, r₁), s₂))
    (hsuspects : (e.suspectPhases x found.suspects { r₁ with verification? := verified }).runOn s₂ =
      (.ok r', s'))
    (hfiles : r'.files.map (·.suspect) = found.suspects) : Searched fired whole r' s' := by
  have hobeys := obeys_advances hlab hx
  obtain ⟨hadvances, hverified⟩ := hobeys.verifySuspects _ _ _ _ s₁ _ s₂ hverify
  have hadvances' := hobeys.suspectPhases _ _ s₂ r' s' hsuspects
  have hspace : (Search.keys (fileSpace units)).Nodup := hkeys
  obtain ⟨-, hgoing⟩ := search_going hx hspace hsearch
  have hinforms := Search.search_informs hspace hsome (bench_traced hx s) hsearch
  have hasked : s₁.Asked fired → s'.Asked fired := hadvances'.asked ∘ hadvances.asked
  have hsome_files (h : found.suspects ≠ []) : r'.files ≠ [] := by
    rintro hnil
    rw [hnil] at hfiles
    exact h hfiles.symm
  refine ⟨hadvances'.whole.trans hadvances.whole, fun v hv => ?_, ?_, ?_, ?_⟩
  · exact hsome_files (hverified v (hadvances'.verification.symm.trans hv))
  · refine hadvances'.sound (hadvances.sound fun f hf => ?_)
    rw [show (noteSearch { r with whole? := some whole } found).files = r.files from rfl,
      hnone] at hf
    exact absurd hf List.not_mem_nil
  · rcases hgoing with h | hgoing
    · exact .inl (hasked h)
    rcases hadvances'.status with h | hsame'
    · exact .inl h
    rcases hadvances.status with h | hsame
    · exact .inl (hadvances'.asked h)
    refine .inr (hsame'.trans (hsame.trans ?_))
    simp [noteSearch, hgoing, hstatus]
  · rcases hinforms with h | ⟨-, hinforms⟩
    · exact .inl (hasked h)
    refine .inr ?_
    rcases hinforms with h | h | ⟨i, hi, hfailure⟩
    · exact .inl (hsome_files h)
    · obtain ⟨i, hi⟩ := List.exists_mem_of_ne_nil _ h
      exact .inr (.inl (List.ne_nil_of_mem
        (hadvances'.interactions (hadvances.interactions (List.mem_append_right _ hi)))))
    · exact .inr (.inr ⟨i, hadvances'.issues (hadvances.issues (List.mem_append_right _ hi)),
        Issue.isSome_failure?_iff.mp hfailure⟩)

theorem noted_of_confirm (hx : x.Latched fired) (hkeys : (keysOf units).Nodup) {o : Outcome}
    (hconfirm : (Search.confirm x.bench (fileSpace units)).runOn s = (.ok o, s')) :
    s'.Noted ((fileSpace units).bipartition (keysOf units)) o := by
  have hspace : (Search.keys (fileSpace units)).Nodup := hkeys
  obtain ⟨o', s'', hconfirm', honward⟩ := confirm_onward hx hspace s
  rw [hconfirm] at hconfirm'
  cases hconfirm'
  exact honward.noted_of_mem List.mem_cons_self

/-- Every way that the phases can go, for the finding of files that they come to. -/
theorem concludes_of_course (hlab : e.lab.Latched fired) (hx : x.Latched fired)
    (hkeys : (keysOf units).Nodup) (hsome : units ≠ []) {q : Request} {now : String}
    (hcourse : Course e x units (e.blank q now) s r s')
    {suspects : List (Suspect SourceUnit)} (hsearch : FileSearch x units s suspects)
    (hfiles : r.files.map (·.suspect) = suspects) :
    ((∀ v, r.verification? = some v → r.files ≠ []) ∧ ∀ f ∈ r.files, f.Sound) ∧
      ((∀ v, r.whole? = some v → s'.Noted ((fileSpace units).bipartition (keysOf units)) (.ok v)) →
        (∀ p o, s'.Noted p o → (closeReport false s' r).Tells p o) → ¬s'.Asked fired →
        ∃ k, (closeReport false s' r).Concludes
          ((fileSpace units).bipartition (keysOf units)) k) := by
  have hnothing {r : Report} (hverification : r.verification? = none) (hnone : r.files = []) :
      (∀ v, r.verification? = some v → r.files ≠ []) ∧ ∀ f ∈ r.files, f.Sound := by
    simp [hverification, hnone]
  cases hcourse with
  | failed hconfirm =>
      refine ⟨hnothing rfl rfl, fun _ htells _ => ⟨.failed, _, ?_, rfl, rfl, rfl, rfl, rfl⟩⟩
      exact htells _ _ (noted_of_confirm hx hkeys hconfirm)
  | agreed hconfirm hsame =>
      refine ⟨hnothing rfl rfl, fun _ htells _ => ⟨.agreed, _, ?_, hsame, rfl, rfl, rfl, rfl, rfl⟩⟩
      exact htells _ _ (noted_of_confirm hx hkeys hconfirm)
  | searched hconfirm hdivergent hsearch' hverify hsuspects =>
      obtain rfl := hsearch.eq_found hconfirm hdivergent hsearch'
      have hsearched := searched_of_suspects hlab hx hkeys hsome rfl rfl hsearch' hverify hsuspects
        hfiles
      refine ⟨⟨hsearched.verified, hsearched.sound⟩, fun hwhole htells hgoing => ?_⟩
      exact ⟨.diverged, _, htells _ _ (hwhole _ hsearched.whole), hdivergent,
        hsearched.status.resolve_left hgoing, hsearched.whole,
        hsearched.informs.resolve_left hgoing⟩

end Engine

/-! ### The report -/

/-- The status of a report is true. When nobody asked to stop, the report has one of three
conclusions, by the trial of all units: it failed, and the report is aborted with this one issue; it
agreed with the baseline, and the report has nothing else to tell; it diverged, and the report is
completed and names a file, an interaction or a failed trial. Stopped or not, a score of a
verification is that of a trial of exactly the files or symbols that are blamed. A bisection that
was asked to stop is not completed. -/
theorem bisect_concludes (e : Engine σ) (q : Request) (fired : σ → Prop) (s s' : Archive σ)
    (r : Report) (hlab : e.lab.Latched fired) (hrun : (e.bisect q).runOn s = (.ok r, s')) :
    ∃ now units baseline s₁, (e.prepare q).runOn s = (.ok (now, units, baseline), s₁) ∧
      (¬fired s'.site.world →
        ∃! k, r.Concludes ((fileSpace units).bipartition (keysOf units)) k) ∧
      (fired s'.site.world → r.status ≠ .completed) ∧
      (∀ v, r.verification? = some v → r.files ≠ [] ∧
        r.Records ((fileSpace units).bipartition r.fileKeys) (.ok v)) ∧
      ∀ f ∈ r.files, ∀ v, f.verification? = some v → f.symbols ≠ [] ∧
        ∃ listed, r.Records
          ((symbolSpace f.unit listed).bipartition (keysOf (f.symbols.map (·.symbol))))
          (.ok v) := by
  obtain ⟨now, units, baseline, s₁, r₀, session, hprepare, hsome, hkeys, hphases, rfl, hworld⟩ :=
    Engine.exists_phases hrun
  have hx := hlab.experiment q baseline
  obtain ⟨r₁, session₁, hphases₁, hreports, hshown⟩ := Engine.phases_reports hlab hx hkeys
    (r := e.blank q now) rfl (.start s₁.site) fun _ hi => absurd hi List.not_mem_nil
  rw [hphases] at hphases₁
  cases hphases₁
  obtain ⟨_, _, suspects, hrun', hsearch, hfiles⟩ := Engine.exists_report hprepare hkeys
  rw [hrun] at hrun'
  cases hrun'
  obtain ⟨⟨hverified, hsound⟩, hconcludes⟩ := Engine.concludes_of_course hlab hx hkeys hsome
    (Engine.course_of_phases hphases) hsearch hfiles
  have hlook : (e.lab.cancelled session.site.world).1 = true ↔ fired s'.site.world :=
    hworld ▸ hlab.seen
  refine ⟨now, units, baseline, s₁, hprepare, fun hgoing => ?_, fun hfired => ?_, fun v hv => ?_,
    fun f hf v hv => ?_⟩
  · have hunasked : ¬session.Asked fired := fun hasked =>
      hgoing (hworld ▸ hlab.keeps.cancelled _ hasked)
    obtain ⟨_, honward⟩ := hreports.onward
    have hagreed := (honward.agrees (.inr (Session.start_agreed s₁.site))).resolve_left hunasked
    rw [eq_false_of_ne_true (mt hlook.mp hgoing)]
    obtain ⟨k, hk⟩ := hconcludes hshown.whole
      (fun _ _ hnoted => hagreed.recalls.tells hnoted false r₀) hunasked
    exact ⟨k, hk, fun k' hk' => hk'.eq hk⟩
  · rw [hlook.mpr hfired]
    show (if true && r₀.status = .completed then Status.aborted else r₀.status) ≠ .completed
    split <;> simp_all
  · refine ⟨hverified v hv, ?_⟩
    rw [Report.fileKeys_eq]
    exact (hshown.files.verified v hv).records _ r₀
  · obtain ⟨listed, hblamed⟩ := hshown.symbols f hf
    refine ⟨hsound f hf v hv, listed, ?_⟩
    rw [FileFinding.symbols_eq]
    exact (hblamed.verified v hv).records _ r₀

/-- One file diverges by its only symbol. -/
def oneSymbol : Scenario where
  units := [⟨"a.c"⟩]
  symbols := fun _ => [⟨"a.c", "g", "g()", none, none⟩]
  ends := fun p => .ok ⟨.code 0, if p.variant = [] then "" else "x", "", 1⟩
  stops := fun _ => false

set_option maxRecDepth 10000 in
/-- The file and the symbol are verified, each by a trial of its own. -/
theorem bisect_concludes_oneSymbol :
    ∃ r s', (oneSymbol.engine.bisect Scenario.request).runOn ⟨⟨.empty, .empty⟩, .empty⟩ =
        (.ok r, s') ∧ r.verification? = some ⟨1⟩ ∧
      r.files.map (·.verification?) = [some ⟨1⟩] ∧ ∃ units,
        (∃! k, r.Concludes ((fileSpace units).bipartition (keysOf units)) k) ∧
        r.Records ((fileSpace units).bipartition r.fileKeys) (.ok ⟨1⟩) := by
  have hscores : ((oneSymbol.engine.bisect Scenario.request).runOn
      ⟨⟨.empty, .empty⟩, .empty⟩).1.map
        (fun r => (r.verification?, r.files.map (·.verification?))) =
        .ok (some ⟨1⟩, [some ⟨1⟩]) := by
    decide +kernel
  rcases hrun : (oneSymbol.engine.bisect Scenario.request).runOn
    ⟨⟨.empty, .empty⟩, .empty⟩ with ⟨fault | r, s'⟩ <;> rw [hrun] at hscores
  · cases hscores
  · obtain ⟨hverified, hsymbols⟩ := Prod.mk.inj (Except.ok.inj hscores)
    have hlatched : oneSymbol.engine.lab.Latched fun _ => False :=
      Scenario.latched (c := oneSymbol) fun _ => rfl
    obtain ⟨_, units, _, _, -, hconcludes, -, hfiles, -⟩ :=
      bisect_concludes oneSymbol.engine Scenario.request (fun _ => False) _ s' r hlatched hrun
    exact ⟨r, s', rfl, hverified, hsymbols, units, hconcludes id, (hfiles _ hverified).2⟩

end Culprit
