import Culprit.Proofs.Bisection.Listing
import Culprit.Proofs.Bisection.Outline
import Culprit.Proofs.Search.Culprits
import Culprit.Proofs.Sha256
import Mathlib.Data.List.Sublists

/-!
A bisection from its first trial to its report. When the culprits among the files, and among the
symbols of each guilty file, decide about every score, and partitions with one signature have one
outcome, the report names exactly the culprits.
-/

namespace Culprit

variable {σ : Type}

/-! ### The trials of a session -/

theorem Bench.FollowsOn.congr {τ : Type} {b : Bench τ} {inv : τ → Prop}
    {domain domain' : Partition → Prop} {oracle oracle' : Partition → Outcome}
    (hb : b.FollowsOn inv domain oracle)
    (h : ∀ p, domain' p → domain p ∧ oracle p = oracle' p) : b.FollowsOn inv domain' oracle' where
  going := hb.going
  looked := hb.looked
  answers hs hps := by
    obtain ⟨houtcomes, hinv⟩ := hb.answers hs fun p hp => (h p (hps p hp)).1
    exact ⟨houtcomes.trans (List.map_congr_left fun p hp => (h p (hps p hp)).2), hinv⟩

theorem Experiment.bench_followsOn {x : Experiment σ} {domain : Partition → Prop}
    {truth : Partition → Outcome} {inv : Track → σ → Prop} (hx : x.Steady domain truth inv)
    (hsame : SameBySignature domain truth) :
    x.bench.FollowsOn (Session.Idle domain truth inv) domain truth where
  going := fun ⟨_, _, h⟩ => hx.going h.world
  looked := fun ⟨asked, t, h⟩ => ⟨asked, t, h.move (hx.looked h.world)⟩
  answers := fun ⟨_, _, h⟩ hps => by
    obtain ⟨t', s', heq, h'⟩ := batch_underway hx hsame hps h
    have hbatch : x.bench.batch _ _ = _ := heq
    rw [hbatch]
    exact ⟨rfl, _, t', h'⟩

/-! ### Who is guilty -/

/-- The files and symbols behind a divergence, and the scores that they lead to. -/
structure Guilt where
  files : Finset String
  fileScore : Finset String → Score
  symbols : SourceUnit → Finset String
  symbolScore : SourceUnit → Finset String → Score

namespace Guilt

/-- A trial scores by the culprits among its variant keys. -/
def truth (c : Guilt) (p : Partition) : Outcome :=
  match p.scope with
  | .units => Search.scoring c.fileScore c.files p
  | .symbols path => Search.scoring (c.symbolScore ⟨path⟩) (c.symbols ⟨path⟩) p

/-- The partitions that a bisection tries: of the files, and of the symbols of a guilty file. -/
def Tries (c : Guilt) (units : List SourceUnit) (listed : SourceUnit → List LinkSymbol)
    (p : Partition) : Prop :=
  (fileSpace units).IsTrial p ∨
    ∃ u ∈ units, u.key ∈ c.files ∧ (symbolSpace u (listed u)).IsTrial p

/-- There are guilty files, each with a guilty symbol, and a score is zero where nothing guilty is
variant. -/
structure Coherent (c : Guilt) (units : List SourceUnit)
    (listed : SourceUnit → List LinkSymbol) : Prop where
  distinct : (keysOf units).Nodup
  files_nonempty : c.files.Nonempty
  files_mem : ∀ k ∈ c.files, k ∈ keysOf units
  fileScore : ∀ A ⊆ c.files, (c.fileScore A).isDivergent = true ↔ A.Nonempty
  symbols_nonempty : ∀ u ∈ units, u.key ∈ c.files → (c.symbols u).Nonempty
  symbols_mem : ∀ u ∈ units, u.key ∈ c.files → ∀ n ∈ c.symbols u, n ∈ (listed u).map (·.name)
  symbolScore : ∀ u ∈ units, u.key ∈ c.files → ∀ A ⊆ c.symbols u,
    (c.symbolScore u A).isDivergent = true ↔ A.Nonempty

variable {c : Guilt} {units : List SourceUnit} {listed : SourceUnit → List LinkSymbol}

theorem Coherent.files (h : c.Coherent units listed) :
    Search.Explained (fileSpace units) c.fileScore c.files :=
  ⟨h.distinct, h.files_nonempty, h.files_mem, h.fileScore⟩

theorem Coherent.symbols (h : c.Coherent units listed) {u : SourceUnit} (hu : u ∈ units)
    (hguilty : u.key ∈ c.files) :
    Search.Explained (symbolSpace u (listed u)) (c.symbolScore u) (c.symbols u) :=
  ⟨(LinkSymbol.nodup_distinct [] _).1, h.symbols_nonempty u hu hguilty,
    fun n hn => LinkSymbol.mem_names_distinct (h.symbols_mem u hu hguilty n hn),
    h.symbolScore u hu hguilty⟩

theorem tries_file {p : Partition} (hp : (fileSpace units).IsTrial p) :
    c.Tries units listed p ∧ c.truth p = Search.scoring c.fileScore c.files p := by
  refine ⟨.inl hp, ?_⟩
  obtain ⟨V, -, -, rfl⟩ := hp
  rfl

theorem tries_symbol {u : SourceUnit} (hu : u ∈ units) (hguilty : u.key ∈ c.files)
    {p : Partition} (hp : (symbolSpace u (listed u)).IsTrial p) :
    c.Tries units listed p ∧ c.truth p = Search.scoring (c.symbolScore u) (c.symbols u) p := by
  refine ⟨.inr ⟨u, hu, hguilty, hp⟩, ?_⟩
  obtain ⟨V, -, -, rfl⟩ := hp
  rfl

/-- The finding for a guilty file. -/
def finding (c : Guilt) (listed : SourceUnit → List LinkSymbol) (u : SourceUnit) : FileFinding where
  unit := u
  score := c.fileScore {u.key}
  symbols := ((LinkSymbol.distinct [] (listed u)).filter (·.name ∈ c.symbols u)).map
    fun s => ⟨s, c.symbolScore u {s.name}⟩
  verification? := some (c.symbolScore u (c.symbols u))

/-- The findings of a whole bisection. -/
def findings (c : Guilt) (units : List SourceUnit) (listed : SourceUnit → List LinkSymbol) :
    List FileFinding :=
  (units.filter (·.key ∈ c.files)).map (c.finding listed)

end Guilt

namespace Engine

section Phases

variable {e : Engine σ} {x : Experiment σ} {inv : Session σ → Prop} {s : Session σ}

theorem noteSearch_suspects {α : Type} (r : Report) (suspects : List (Suspect α)) :
    noteSearch r ⟨suspects, [], [], false⟩ = r := by
  simp [noteSearch]

/-- The suspects of a search among culprits account for the whole divergence. -/
theorem verifySuspects_culprits {α : Type} [Candidate α] {space : Space α}
    {score : Finset String → Score} {culprits : Finset String} (hverify : e.verify = true)
    (h : Search.Explained space score culprits)
    (hb : x.bench.FollowsOn inv space.IsTrial (Search.scoring score culprits)) (hs : inv s)
    (context : String) (r : Report) :
    ∃ s', (e.verifySuspects x space (Search.blamed space score culprits) context r).runOn s =
        (.ok (some (score culprits), r), s') ∧ inv s' := by
  have hsome : Search.blamed space score culprits ≠ [] := by
    obtain ⟨k, hk⟩ := h.nonempty
    have hmem := h.mem_blamed k hk
    intro hnil
    simp [hnil, keysOf] at hmem
  obtain ⟨s', hrun, hs'⟩ := Search.verify_culprits h hb hs
  exact ⟨s', runOn_verifySuspects hverify hsome hrun context r, hs'⟩

/-- The guilty symbols of a listing are found and verified. -/
theorem searchSymbols_culprits {u : SourceUnit} {symbols : List LinkSymbol}
    {score : Finset String → Score} {culprits : Finset String} (hverify : e.verify = true)
    (h : Search.Explained (⟨.symbols u.path, symbols⟩ : Space LinkSymbol) score culprits)
    (hb : x.bench.FollowsOn inv (⟨.symbols u.path, symbols⟩ : Space LinkSymbol).IsTrial
      (Search.scoring score culprits))
    (hs : inv s) (found : Score) (r : Report) :
    ∃ s', (e.searchSymbols x ⟨u, found, [], none⟩ symbols r).runOn s =
        (.ok (⟨u, found, (symbols.filter (·.name ∈ culprits)).map fun s => ⟨s, score {s.name}⟩,
          some (score culprits)⟩, r), s') ∧ inv s' := by
  obtain ⟨s₁, hconfirm, hs₁⟩ := Search.confirm_culprits h hb hs
  obtain ⟨s₂, hsearch, hs₂⟩ := Search.search_culprits h hb hs₁
  obtain ⟨s₃, hverified, hs₃⟩ := verifySuspects_culprits hverify h hb hs₂
    ("suspect symbols of " ++ u.path ++ " variant") r
  refine ⟨s₃, ?_, hs₃⟩
  rw [searchSymbols, Attempt.runOn_bind, hconfirm]
  simp only [h.divergent, if_true]
  rw [Attempt.runOn_bind, hsearch]
  simp only [noteSearch_suspects]
  rw [Attempt.runOn_bind, hverified]
  simp only [Attempt.runOn_pure, Search.blamed, List.map_map]
  rfl

end Phases

end Engine

/-! ### The whole bisection -/

/-- What the phases of a bisection rely on. -/
structure Guilt.Setting (c : Guilt) (e : Engine σ) (x : Experiment σ) (units : List SourceUnit)
    (listed : SourceUnit → List LinkSymbol) (inv : Track → σ → Prop) : Prop where
  verify : e.verify = true
  symbols : e.symbols = true
  lab : x.lab = e.lab
  timeout : x.buildTimeout = e.buildTimeout
  steady : x.Steady (c.Tries units listed) c.truth inv
  same : SameBySignature (c.Tries units listed) c.truth
  coherent : c.Coherent units listed
  lists : ∀ u ∈ units, u.key ∈ c.files → e.Lists inv u (listed u)

section Bisection

variable {e : Engine σ} {x : Experiment σ} {c : Guilt} {units : List SourceUnit}
  {listed : SourceUnit → List LinkSymbol} {inv : Track → σ → Prop} {s : Session σ}

theorem suspectPhase_culprit (h : c.Setting e x units listed inv) {u : SourceUnit}
    (hu : u ∈ units) (hguilty : u.key ∈ c.files)
    (hs : s.Idle (c.Tries units listed) c.truth inv) (r : Report) :
    ∃ s', (e.suspectPhase x ⟨u, c.fileScore {u.key}⟩ r).runOn s =
        (.ok { r with files := r.files ++ [c.finding listed u] }, s') ∧
      s'.Idle (c.Tries units listed) c.truth inv := by
  have hb := Experiment.bench_followsOn h.steady h.same
  have hgo := hb.going hs
  obtain ⟨s₂, hlist, hs₂⟩ :=
    listSymbols_idle h.steady h.lab h.timeout (h.lists u hu hguilty) (hb.looked hs)
  have hexplained := h.coherent.symbols hu hguilty
  have hsome : LinkSymbol.distinct [] (listed u) ≠ [] := by
    obtain ⟨k, hk⟩ := hexplained.nonempty
    obtain ⟨symbol, hsymbol, -⟩ := List.mem_map.mp (hexplained.mem k hk)
    exact List.ne_nil_of_mem hsymbol
  obtain ⟨s₃, hsearch, hs₃⟩ := Engine.searchSymbols_culprits h.verify hexplained
    (hb.congr fun p => Guilt.tries_symbol hu hguilty) hs₂ (c.fileScore {u.key}) r
  refine ⟨s₃, ?_, hs₃⟩
  rw [Engine.suspectPhase, h.symbols]
  simp only [if_true]
  rw [Attempt.runOn_lift_bind, hgo]
  simp only [Bool.false_eq_true, if_false]
  rw [Attempt.runOn_bind, Engine.runOn_symbolPhase ⟨u, c.fileScore {u.key}, [], none⟩ hsome hlist,
    hsearch]
  rfl

theorem suspectPhases_culprits (h : c.Setting e x units listed inv) {guilty : List SourceUnit}
    (hguilty : ∀ u ∈ guilty, u ∈ units ∧ u.key ∈ c.files)
    (hs : s.Idle (c.Tries units listed) c.truth inv) (r : Report) :
    ∃ s', (e.suspectPhases x (guilty.map fun u => ⟨u, c.fileScore {u.key}⟩) r).runOn s =
        (.ok { r with files := r.files ++ guilty.map (c.finding listed) }, s') ∧
      s'.Idle (c.Tries units listed) c.truth inv := by
  induction guilty generalizing s r with
  | nil =>
      refine ⟨s, ?_, hs⟩
      rw [List.map_nil, List.map_nil, List.append_nil, Engine.suspectPhases]
      rfl
  | cons u guilty ih =>
      obtain ⟨⟨hu, hkey⟩, hrest⟩ := List.forall_mem_cons.mp hguilty
      obtain ⟨s₁, hfirst, hs₁⟩ := suspectPhase_culprit h hu hkey hs r
      obtain ⟨s₂, hothers, hs₂⟩ := ih hrest hs₁ { r with files := r.files ++ [c.finding listed u] }
      refine ⟨s₂, ?_, hs₂⟩
      rw [List.map_cons, Engine.suspectPhases, Attempt.runOn_bind, hfirst]
      simp only
      rw [hothers, List.map_cons, List.append_assoc]
      rfl

/-- The phases add to the report who is guilty. -/
theorem phases_culprits (h : c.Setting e x units listed inv)
    (hs : s.Idle (c.Tries units listed) c.truth inv) (r : Report) :
    ∃ s', (e.phases x units r).runOn s =
        (.ok { r with
          whole? := some (c.fileScore c.files)
          verification? := some (c.fileScore c.files)
          files := r.files ++ c.findings units listed }, s') ∧
      s'.Idle (c.Tries units listed) c.truth inv := by
  have hfiles := h.coherent.files
  have hb : x.bench.FollowsOn (Session.Idle (c.Tries units listed) c.truth inv)
      (fileSpace units).IsTrial (Search.scoring c.fileScore c.files) :=
    (Experiment.bench_followsOn h.steady h.same).congr fun p => Guilt.tries_file
  obtain ⟨s₁, hconfirm, hs₁⟩ := Search.confirm_culprits hfiles hb hs
  obtain ⟨s₂, hsearch, hs₂⟩ := Search.search_culprits hfiles hb hs₁
  obtain ⟨s₃, hverified, hs₃⟩ := Engine.verifySuspects_culprits h.verify hfiles hb hs₂
    "suspect files variant" { r with whole? := some (c.fileScore c.files) }
  have hguilty : ∀ u ∈ units.filter (·.key ∈ c.files), u ∈ units ∧ u.key ∈ c.files :=
    fun u hu => ⟨(List.mem_filter.mp hu).1, of_decide_eq_true (List.mem_filter.mp hu).2⟩
  obtain ⟨s₄, hphases, hs₄⟩ := suspectPhases_culprits h hguilty hs₃ { r with
    whole? := some (c.fileScore c.files), verification? := some (c.fileScore c.files) }
  refine ⟨s₄, ?_, hs₄⟩
  rw [Engine.phases, Attempt.runOn_bind, ← fileSpace, hconfirm]
  simp only [hfiles.divergent, if_true]
  rw [Attempt.runOn_bind, hsearch]
  simp only [Engine.noteSearch_suspects]
  rw [Attempt.runOn_bind, hverified]
  exact hphases

end Bisection

/-- A bisection that gets to its trials blames the guilty files and their guilty symbols, each with
the score it has alone, and nothing else; the verifications come to the scores of the whole. For
this the signatures have to tell partitions with different outcomes apart. -/
theorem bisect_localises (e : Engine σ) (q : Request) (c : Guilt) (units : List SourceUnit)
    (listed : SourceUnit → List LinkSymbol) (now : String) (baseline : Baseline)
    (inv : Track → σ → Prop) (s s₁ : Archive σ) (hverify : e.verify = true)
    (hsymbols : e.symbols = true) (hc : c.Coherent units listed)
    (hprepare : (e.prepare q).runOn s = (.ok (now, units, baseline), s₁))
    (hs₁ : inv .empty s₁.site.world)
    (hx : (e.experiment q baseline).Steady (c.Tries units listed) c.truth inv)
    (hlists : ∀ u ∈ units, u.key ∈ c.files → e.Lists inv u (listed u))
    (hsame : SameBySignature (c.Tries units listed) c.truth) :
    ∃ r s', (e.bisect q).runOn s = (.ok r, s') ∧ r.status = .completed ∧ r.issues = [] ∧
      r.interactions = [] ∧ r.files = c.findings units listed ∧
      r.whole? = some (c.fileScore c.files) ∧ r.verification? = some (c.fileScore c.files) := by
  have hsetting : c.Setting e (e.experiment q baseline) units listed inv :=
    ⟨hverify, hsymbols, rfl, rfl, hx, hsame, hc, hlists⟩
  obtain ⟨session, hphases, asked, t, hidle⟩ :=
    phases_culprits hsetting ⟨[], .empty, start_underway hs₁⟩ (e.blank q now)
  have hgo : (e.lab.cancelled session.site.world).1 = false := hx.going hidle.world
  refine ⟨_, _, Engine.runOn_bisect hprepare hphases (Prod.ext hgo rfl), ?_⟩
  simp [Engine.closeReport, Engine.blank, Report.blank]

/-- The first of two files is guilty by its only symbol, which is listed twice. -/
def twoFiles : Scenario where
  units := [⟨"a.c"⟩, ⟨"b.c"⟩]
  symbols := fun u =>
    if u.path = "a.c" then
      [⟨"a.c", "g", "g()", none, some 3⟩, ⟨"a.c", "g", "g()", none, some 9⟩]
    else []
  ends := fun p =>
    .ok ⟨.code 0, if "a.c" ∈ p.variant ∨ "g" ∈ p.variant then "x" else "", "", 1⟩
  stops := fun _ => false

def oneIfAny (A : Finset String) : Score :=
  if A = ∅ then ⟨0⟩ else ⟨1⟩

theorem oneIfAny_zero (A : Finset String) : (oneIfAny A).isDivergent = true ↔ A.Nonempty := by
  rw [oneIfAny]
  split
  · next h => exact iff_of_false (by decide) (Finset.not_nonempty_iff_eq_empty.mpr h)
  · next h => exact iff_of_true (by decide) (Finset.nonempty_iff_ne_empty.mpr h)

def firstGuilty : Guilt where
  files := {"a.c"}
  fileScore := oneIfAny
  symbols := fun _ => {"g"}
  symbolScore := fun _ => oneIfAny

theorem firstGuilty_coherent : firstGuilty.Coherent twoFiles.units twoFiles.symbols where
  distinct := by decide
  files_nonempty := by decide
  files_mem := by decide
  fileScore A _ := oneIfAny_zero A
  symbols_nonempty := by decide
  symbols_mem := by decide
  symbolScore _ _ _ A _ := oneIfAny_zero A

/-- The partitions with something guilty variant. -/
def guiltyTrials : List Partition :=
  [⟨.units, ["a.c"], ["b.c"]⟩, ⟨.units, ["a.c", "b.c"], []⟩, ⟨.symbols "a.c", ["g"], []⟩]

def innocentTrial : Partition := ⟨.units, ["b.c"], ["a.c"]⟩

theorem mem_of_tries {p : Partition} (hp : firstGuilty.Tries twoFiles.units twoFiles.symbols p) :
    p ∈ innocentTrial :: guiltyTrials := by
  -- The variant keys are a sublist of the keys, and there are few.
  rcases hp with ⟨V, hne, hsub, rfl⟩ | ⟨u, hu, hguilty, V, hne, hsub, rfl⟩
  · have hall : ∀ V ∈ (Search.keys (fileSpace twoFiles.units)).sublists, V ≠ [] →
        (fileSpace twoFiles.units).bipartition V ∈ innocentTrial :: guiltyTrials := by decide
    exact hall V (List.mem_sublists.mpr hsub) hne
  · obtain rfl : u = ⟨"a.c"⟩ := by
      have hall : ∀ u ∈ twoFiles.units, u.key ∈ firstGuilty.files → u = ⟨"a.c"⟩ := by decide
      exact hall u hu hguilty
    have hall : ∀ V ∈ (Search.keys (symbolSpace ⟨"a.c"⟩ (twoFiles.symbols ⟨"a.c"⟩))).sublists,
        V ≠ [] → (symbolSpace ⟨"a.c"⟩ (twoFiles.symbols ⟨"a.c"⟩)).bipartition V ∈
          innocentTrial :: guiltyTrials := by decide
    exact hall V (List.mem_sublists.mpr hsub) hne

theorem sortedKeys_pair : Partition.sortedKeys ["a.c", "b.c"] = ["a.c", "b.c"] := by
  rw [Partition.sortedKeys, List.mergeSort_of_pairwise (by decide)]
  decide

theorem canonical_both : (⟨.units, ["a.c", "b.c"], []⟩ : Partition).canonical =
    "Units\nv:a.c\nv:b.c\n" := by
  rw [Partition.canonical, sortedKeys_pair]
  decide +kernel

set_option maxRecDepth 10000 in
theorem signature_ne_innocentTrial :
    ∀ p ∈ guiltyTrials, p.signature ≠ innocentTrial.signature := by
  simp only [guiltyTrials, List.forall_mem_cons, List.not_mem_nil, false_implies, implies_true,
    and_true]
  rw [Partition.signature, Partition.signature, Partition.signature, canonical_both]
  simp only [Sha256.hexOfText_eq]
  decide +kernel

theorem sameBySignature_twoFiles :
    SameBySignature (firstGuilty.Tries twoFiles.units twoFiles.symbols) firstGuilty.truth := by
  have hguilty : ∀ p ∈ guiltyTrials, firstGuilty.truth p = .ok ⟨1⟩ := by decide
  intro p p' hp hp' heq
  rcases List.mem_cons.mp (mem_of_tries hp) with rfl | hp <;>
    rcases List.mem_cons.mp (mem_of_tries hp') with rfl | hp'
  · rfl
  · exact absurd heq.symm (signature_ne_innocentTrial p' hp')
  · exact absurd heq (signature_ne_innocentTrial p hp)
  · rw [hguilty p hp, hguilty p' hp']

theorem bisect_localises_twoFiles :
    ∃ r s', (twoFiles.engine.bisect Scenario.request).runOn ⟨⟨.empty, .empty⟩, .empty⟩ =
        (.ok r, s') ∧ r.status = .completed ∧ r.issues = [] ∧ r.interactions = [] ∧
      r.files = [⟨⟨"a.c"⟩, ⟨1⟩, [⟨⟨"a.c", "g", "g()", none, some 3⟩, ⟨1⟩⟩], some ⟨1⟩⟩] ∧
      r.whole? = some ⟨1⟩ ∧ r.verification? = some ⟨1⟩ := by
  have htruth : ∀ p ∈ innocentTrial :: guiltyTrials, twoFiles.truth
      (twoFiles.engine.experiment Scenario.request
        ⟨⟨"t", "double"⟩, ⟨"g++", "-O0", []⟩, "", 0, 1⟩) p = firstGuilty.truth p := by decide
  have hx := Scenario.steady (c := twoFiles) (x := twoFiles.engine.experiment Scenario.request
    ⟨⟨"t", "double"⟩, ⟨"g++", "-O0", []⟩, "", 0, 1⟩)
    (firstGuilty.Tries twoFiles.units twoFiles.symbols)
    ((twoFiles.engine.prepare Scenario.request).runOn
      ⟨⟨.empty, .empty⟩, .empty⟩).2.site.world rfl rfl fun _ => rfl
  exact bisect_localises twoFiles.engine Scenario.request firstGuilty twoFiles.units
    twoFiles.symbols "" ⟨⟨"t", "double"⟩, ⟨"g++", "-O0", []⟩, "", 0, 1⟩ _ _ _ rfl rfl
    firstGuilty_coherent rfl (twoFiles.agrees_start _)
    (hx.congr fun p hp => htruth p (mem_of_tries hp)) (fun u _ _ => twoFiles.lists _ u)
    sameBySignature_twoFiles

/-! ### Signatures that do not tell partitions apart -/

/-- The name of the second file continues as a line of the canonical text. -/
def brokenName : Scenario where
  units := [⟨"a.c"⟩, ⟨"a.c\nt:a.c"⟩]
  symbols := fun _ => []
  ends := fun p => .ok ⟨.code 0, if "a.c" ∈ p.variant then "x" else "", "", 1⟩
  stops := fun _ => false

set_option maxRecDepth 10000 in
/-- A batch of the two files gives the second one the outcome of the first. -/
theorem batch_brokenName :
    let first := (fileSpace brokenName.units).bipartition ["a.c"]
    let second := (fileSpace brokenName.units).bipartition ["a.c\nt:a.c"]
    first.signature = second.signature ∧
      (brokenName.experiment.batch [first, second] (.start ⟨.empty, .empty⟩)).1 =
        [.ok ⟨1⟩, .ok ⟨1⟩] ∧
      (brokenName.experiment.alone second ⟨.empty, .empty⟩).1 = .ok ⟨0⟩ := by
  exact ⟨congrArg Sha256.hexOfText (by decide +kernel), by decide +kernel, rfl⟩

end Culprit
