import Culprit.Proofs.Search.Failures
import Culprit.Proofs.Search.Turn

/-!
No divergence is lost without a word. A set that enters the queue of a search that is not stopped
is accounted for in the end: by a suspect among its members, by an interaction within it, or by the
issue of a failed trial of a part of it. Nothing is asked of the outcomes. So the search is not
marked as cancelled, and as long as there was a candidate it names something to look at.
-/

namespace Culprit.Search

variable {α τ : Type} [Candidate α]

/-- The result blames a member of the set, reports an interaction within it, or reports a part of
it whose trial failed. -/
def AccountsFor (space : Space α) (tried : List (Partition × Outcome))
    (r : SearchResult α) (set : List (Member α)) : Prop :=
  (∃ x ∈ r.suspects, x.candidate ∈ set.map Prod.fst) ∨
  (∃ i ∈ r.interactions, i.members ≠ [] ∧ i.members ⊆ memberKeys set) ∨
  ∃ keys f, keys ≠ [] ∧ keys ⊆ memberKeys set ∧ (space.bipartition keys, .error f) ∈ tried ∧
    .ofFailure (space.bipartition keys).describe f ∈ r.issues

/-- The same of a tally, and of the trials it comes from. -/
inductive Moment.Accounts (space : Space α) (m : Moment τ α) (set : List (Member α)) : Prop
  | suspect {f : Member α × Score} (hf : f ∈ m.tally.found) (hset : f.1 ∈ set)
  | interaction {i : Interaction} (hi : i ∈ m.tally.interactions) (hne : i.members ≠ [])
      (hset : i.members ⊆ memberKeys set)
  | failure {part : List (Member α)} {f : Failure} (hne : part ≠ []) (hset : part ⊆ set)
      (htried : (space.bipartition (memberKeys part), .error f) ∈ m.tried)
      (hissue : .ofFailure (space.bipartition (memberKeys part)).describe f ∈ m.tally.issues)

/-- The set is accounted for, or a branch within it still waits. -/
def Moment.Covers (space : Space α) (m : Moment τ α) (set : List (Member α)) : Prop :=
  m.Accounts space set ∨ ∃ b ∈ m.queue, b.members ⊆ set

variable {bench : Bench τ} {space : Space α} {inv : τ → Prop} {m m' : Moment τ α}
  {set : List (Member α)}

/-! ### Preservation -/

theorem Moment.Accounts.mono (hsub : m.Subset m') (h : m.Accounts space set) :
    m'.Accounts space set := by
  cases h with
  | suspect hf hset => exact .suspect (hsub.found hf) hset
  | interaction hi hne hset => exact .interaction (hsub.interactions hi) hne hset
  | failure hne hset htried hissue =>
      exact .failure hne hset (hsub.tried htried) (hsub.issues hissue)

/-- A half that failed is a part of the set, and its issue is among those of the batch. -/
theorem exists_failed_half {ms : List (Member α)} {os : List Outcome} {i : Issue}
    (hlarge : 2 ≤ ms.length) (hi : i ∈ failures (trials space (halfSets ms)) os) :
    ∃ part f, part ≠ [] ∧ part ⊆ ms ∧
      (space.bipartition (memberKeys part), .error f) ∈ (trials space (halfSets ms)).zip os ∧
      i = .ofFailure (space.bipartition (memberKeys part)).describe f := by
  obtain ⟨p, f, hmem, rfl⟩ := mem_failures.mp hi
  obtain ⟨part, hpart, rfl⟩ := List.mem_map.mp (List.of_mem_zip hmem).1
  exact ⟨part, f, ne_nil_of_mem_halfSets hlarge hpart, (infix_of_mem_halfSets hpart).subset, hmem,
    rfl⟩

/-- Only a request to stop makes a turn lose a set. -/
theorem Turn.covers_or_stops (hm : m.Sound space inv) (hc : m.Covers space set)
    (h : Turn bench space m m') :
    m'.Covers space set ∨ bench.cancelled m.world = (true, m'.world) := by
  rcases hc with hacc | ⟨c, hcm, hset⟩
  · exact .inl (.inl (hacc.mono h.subset))
  cases h with
  | stop hstop => exact .inr hstop
  | emit =>
      left
      rcases List.mem_cons.mp hcm with rfl | hcm
      · exact .inl (.suspect (List.mem_append_right _ List.mem_cons_self)
          (hset List.mem_cons_self))
      · exact .inr ⟨c, hcm, hset⟩
  | putBack => exact .inl (.inr ⟨c, hcm, hset⟩)
  | follow hlarge _ _ _ hlead =>
      left
      rcases List.mem_cons.mp hcm with rfl | hcm
      · rcases hlead with hlead | hlead
        · obtain ⟨d, hd⟩ := List.exists_mem_of_ne_nil _ hlead
          have hpart := infix_of_mem_halfSets (List.of_mem_zip (mem_diverging.mp hd).1).1
          exact .inr ⟨d, List.mem_append_right _ hd, List.Subset.trans hpart.subset hset⟩
        · obtain ⟨i, hi⟩ := List.exists_mem_of_ne_nil _ hlead
          obtain ⟨part, f, hne, hpart, htried, rfl⟩ := exists_failed_half hlarge hi
          exact .inl (.failure hne (List.Subset.trans hpart hset)
            (List.mem_append_right _ htried) (List.mem_append_right _ hi))
      · exact .inr ⟨c, List.mem_append_left _ hcm, hset⟩
  | isolate =>
      left
      rcases List.mem_cons.mp hcm with rfl | hcm
      · have hne := (hm.segments _ List.mem_cons_self).1
        exact .inl (.interaction (List.mem_append_right _ List.mem_cons_self)
          (memberKeys_ne_nil hne) (memberKeys_subset hset))
      · exact .inr ⟨c, hcm, hset⟩

theorem Turn.covers (hb : bench.Uncancelled inv) (hm : m.Sound space inv)
    (hc : m.Covers space set) (h : Turn bench space m m') : m'.Covers space set :=
  (h.covers_or_stops hm hc).resolve_right (hb.not_stop hm.world)

theorem Turns.covers (hb : bench.Uncancelled inv) (hm : m.Sound space inv)
    (hc : m.Covers space set) (h : Turns bench space m m') : m'.Covers space set := by
  refine Turns.keep (P := fun m₁ => m₁.Covers space set) hb.toKeeps hm h hc ?_
  intro m₁ m₂ hm₁ hturn hc₁
  exact hturn.covers hb hm₁ hc₁

/-! ### At the end -/

theorem Moment.Covers.accounts (hend : m.queue = []) (h : m.Covers space set) :
    m.Accounts space set := by
  rcases h with hacc | ⟨b, hb, -⟩
  · exact hacc
  · rw [hend] at hb
    exact absurd hb List.not_mem_nil

theorem Moment.Accounts.result (h : m.Accounts space set) :
    AccountsFor space m.tried m.tally.result set := by
  cases h with
  | @suspect f hf hset =>
      refine .inl ⟨⟨f.1.1, f.2⟩, ?_, List.mem_map_of_mem hset⟩
      exact List.mem_map_of_mem (Tally.mem_sorted.mpr hf)
  | @interaction i hi hne hset => exact .inr (.inl ⟨i, hi, hne, hset⟩)
  | failure hne hset htried hissue =>
      exact .inr (.inr ⟨_, _, memberKeys_ne_nil hne, memberKeys_subset hset, htried, hissue⟩)

/-- A search that is not stopped accounts for every set that ever enters its queue. So it comes
back with nothing at all only if there was nothing to search. -/
theorem search_accounting (bench : Bench τ) (space : Space α) (whole : Score) (s : τ)
    (hkeys : (keys space).Nodup) (hb : bench.Uncancelled inv) (hs : inv s) :
    ∃ m, Turns bench space (opening space whole s) m ∧ m.queue = [] ∧
      (search bench space whole).runOn s = (.ok m.tally.result, m.world) ∧
      (∀ m', Turns bench space (opening space whole s) m' → ∀ b ∈ m'.queue,
        AccountsFor space m.tried m.tally.result b.members) ∧
      (m.tally.result.suspects = [] → m.tally.result.interactions = [] →
        m.tally.result.issues = [] → space.candidates = []) := by
  have hsound := opening_sound space whole hs
  obtain ⟨m, hm, hend⟩ := exists_turns hb.latched hsound
  have hall (m' : Moment τ α) (hm' : Turns bench space (opening space whole s) m')
      (b : Branch α) (hbm : b ∈ m'.queue) : AccountsFor space m.tried m.tally.result b.members := by
    -- The branch covers itself at `m'`, and the end of the search lies ahead of `m'`.
    have hcovers : m'.Covers space b.members := .inr ⟨b, hbm, List.Subset.refl _⟩
    have hto := hm'.to_end hm hend
    exact ((Turns.covers hb (Turns.sound hb.toKeeps hsound hm') hcovers hto).accounts hend).result
  refine ⟨m, hm, hend, ?_, hall, fun hsuspects hinteractions hissues => ?_⟩
  · rw [runOn_search, Turns.finish_eq hkeys hb hsound hm, finish_of_queue_nil hend]
    rfl
  · by_contra hnone
    have hopen : (⟨space.candidates.zipIdx, whole⟩ : Branch α) ∈
        (opening space whole s).queue := by
      simp [opening, hnone]
    rcases hall _ .refl _ hopen with ⟨x, hx, -⟩ | ⟨i, hi, -⟩ | ⟨_, _, -, -, -, hissue⟩
    · simp [hsuspects] at hx
    · simp [hinteractions] at hi
    · simp [hissues] at hissue

/-- Every trial of the first file fails, and the other two files are silent. -/
def hungHalf (p : Partition) : Outcome :=
  if "a.c" ∈ p.variant then .error ⟨.run, "timed out"⟩ else .ok ⟨0⟩

theorem search_accounting_hungHalf :
    (keys threeUnits).Nodup ∧ ∃ r s',
      (search (Bench.ofOracle hungHalf) threeUnits ⟨1⟩).runOn () = (.ok r, s') ∧
        ¬(r.suspects = [] ∧ r.interactions = [] ∧ r.issues = []) := by
  have hkeys : (keys threeUnits).Nodup := by decide
  obtain ⟨m, -, -, hrun, -, hnone⟩ := search_accounting (Bench.ofOracle hungHalf) threeUnits ⟨1⟩ ()
    hkeys (Bench.ofOracle_follows hungHalf).toUncancelled trivial
  refine ⟨hkeys, m.tally.result, m.world, hrun, fun ⟨hsuspects, hinteractions, hissues⟩ => ?_⟩
  exact absurd (hnone hsuspects hinteractions hissues) (by decide)

end Culprit.Search

namespace Culprit

/-- The issue reports a failed trial. -/
theorem Issue.isSome_failure?_iff {i : Issue} :
    i.failure?.isSome ↔ i.kind = .buildFailure ∨ i.kind = .runFailure := by
  rw [failure?]
  split <;> simp_all

namespace SearchResult

/-- Something for an operator to look at. -/
def Informs {α : Type} (r : SearchResult α) : Prop :=
  r.suspects ≠ [] ∨ r.interactions ≠ [] ∨ ∃ i ∈ r.issues, i.failure?.isSome

end SearchResult

namespace Search

variable {α τ : Type} [Candidate α] {bench : Bench τ} {fired : τ → Prop}
  {inv : List (Partition × Outcome) → τ → Prop} {space : Space α} {m m' : Moment τ α}
  {set : List (Member α)}

/-- There was a request to stop, or the search goes on and has not lost the set. -/
def Moment.Pursues (fired : τ → Prop) (space : Space α) (set : List (Member α))
    (m : Moment τ α) : Prop :=
  fired m.world ∨ m.tally.cancelled = false ∧ m.Covers space set

theorem Turn.cancelled_or_stops (h : Turn bench space m m') :
    m'.tally.cancelled = m.tally.cancelled ∨ bench.cancelled m.world = (true, m'.world) := by
  cases h with
  | stop hstop => exact .inr hstop
  | emit => exact .inl rfl
  | putBack => exact .inl rfl
  | follow => exact .inl rfl
  | isolate => exact .inl rfl

theorem Turn.pursues {P : τ → Prop} (hb : bench.Traced fired inv) (hm : m.Sound space P)
    (hp : m.Pursues fired space set) (h : Turn bench space m m') :
    m'.Pursues fired space set := by
  rcases hp with hfired | ⟨hgoing, hcovers⟩
  · exact .inl (h.asked hb.toKeeps hfired)
  rcases h.covers_or_stops hm hcovers with hcovers' | hstop
  · rcases h.cancelled_or_stops with hsame | hstop
    · exact .inr ⟨hsame.trans hgoing, hcovers'⟩
    · exact .inl (hb.of_stop hstop)
  · exact .inl (hb.of_stop hstop)

theorem AccountsFor.informs {tried : List (Partition × Outcome)} {r : SearchResult α}
    (h : AccountsFor space tried r set) : r.Informs := by
  rcases h with ⟨x, hx, -⟩ | ⟨i, hi, -⟩ | ⟨_, f, -, -, -, hissue⟩
  · exact .inl (List.ne_nil_of_mem hx)
  · exact .inr (.inl (List.ne_nil_of_mem hi))
  · refine .inr (.inr ⟨_, hissue, ?_⟩)
    rw [Issue.failure?_ofFailure]
    rfl

/-- Without a request to stop a search of something is not cancelled and comes back with
something. -/
theorem search_informs {whole : Score} {s s' : τ} {found : SearchResult α}
    (hkeys : (keys space).Nodup) (hsome : space.candidates ≠ []) (hb : bench.Traced fired inv)
    (hrun : (search bench space whole).runOn s = (.ok found, s')) :
    fired s' ∨ found.cancelled = false ∧ found.Informs := by
  have hkeeps : bench.Keeps fun _ => True := ⟨fun _ => trivial, fun _ _ => trivial⟩
  have hsound : (opening space whole s).Sound space fun _ => True :=
    opening_sound space whole trivial
  obtain ⟨m, t, hm, hends, hrun'⟩ := exists_search whole hkeys hkeeps (s := s) trivial
  obtain ⟨hfound, rfl⟩ := Prod.mk.inj (hrun'.symm.trans hrun)
  obtain rfl := Except.ok.inj hfound
  -- The set of all candidates waits in the queue from the start.
  have hopen : (opening space whole s).Pursues fired space space.candidates.zipIdx := by
    refine .inr ⟨rfl, .inr ⟨⟨space.candidates.zipIdx, whole⟩, ?_, List.Subset.refl _⟩⟩
    simp [opening, hsome]
  have hpursues := Turns.keep (P := Moment.Pursues fired space space.candidates.zipIdx) hkeeps
    hsound hm hopen fun _ _ hm₁ hturn hp => hturn.pursues hb hm₁ hp
  cases hends with
  | done hend =>
      rcases hpursues with hfired | ⟨hgoing, hcovers⟩
      · exact .inl hfired
      · exact .inr ⟨hgoing, (hcovers.accounts hend).result.informs⟩
  | stopped hstop => exact .inl (hb.of_stop hstop)

end Search

end Culprit
