import Culprit.Proofs.Search.Turn
import Culprit.Proofs.Search.Culprits
import Mathlib.Data.Nat.Log

/-!
What a search costs. Every branch of the queue has a price, which pays for the trials of its halves
and leaves the prices of those that diverge. So a search costs no more than the price of the whole.
-/

namespace Culprit

namespace Bench

variable {τ : Type}

/-- A look costs nothing, and a batch no more than one for each partition that is not known. -/
structure Metered (b : Bench τ) (spent : τ → Nat) (known : τ → Partition → Bool) : Prop where
  looked (s : τ) : spent (b.cancelled s).2 = spent s
  tried (ps : List Partition) (s : τ) :
    spent (b.batch ps s).2 ≤ spent s + ps.countP fun p => !known s p

/-- Unless a look then finds a request to stop, a batch is known afterwards. -/
structure Thrifty (b : Bench τ) (spent : τ → Nat) (known : τ → Partition → Bool) : Prop
    extends Metered b spent known where
  recalls {s : τ} {p : Partition} : known s p = true → known (b.cancelled s).2 p = true
  learns {s : τ} {ps : List Partition} : (b.cancelled (b.batch ps s).2).1 = false →
    ∀ p ∈ ps, known (b.batch ps s).2 p = true

variable {b : Bench τ} {spent : τ → Nat} {known : τ → Partition → Bool} {s s' : τ}

theorem Metered.of_cancelled {stop : Bool} (hb : b.Metered spent known)
    (he : b.cancelled s = (stop, s')) : spent s' = spent s := by
  have := hb.looked s
  rwa [he] at this

theorem Metered.of_batch {ps : List Partition} {os : List Outcome} (hb : b.Metered spent known)
    (he : b.batch ps s = (os, s')) : spent s' ≤ spent s + ps.countP fun p => !known s p := by
  have := hb.tried ps s
  rwa [he] at this

theorem Metered.of_batch_le {ps : List Partition} {os : List Outcome} (hb : b.Metered spent known)
    (he : b.batch ps s = (os, s')) : spent s' ≤ spent s + ps.length :=
  Nat.le_trans (hb.of_batch he) (Nat.add_le_add_left List.countP_le_length _)

end Bench

namespace Search

variable {α τ : Type}

/-! ### The price of a queue -/

/-- What the branches of a queue cost at the given prices. -/
def charge (price : List (Member α) → Nat) (queue : List (Branch α)) : Nat :=
  (queue.map fun b => price b.members).sum

section Charge

variable {price : List (Member α) → Nat}

@[simp] theorem charge_nil : charge price ([] : List (Branch α)) = 0 := rfl

@[simp] theorem charge_cons (b : Branch α) (bs : List (Branch α)) :
    charge price (b :: bs) = price b.members + charge price bs := rfl

@[simp] theorem charge_append (bs cs : List (Branch α)) :
    charge price (bs ++ cs) = charge price bs + charge price cs := by
  simp [charge]

/-- The sets that diverge are some of those that were tried. -/
theorem charge_diverging_le (price : List (Member α) → Nat) (sets : List (List (Member α)))
    (os : List Outcome) :
    charge price (diverging sets os) ≤ (sets.map price).sum := by
  induction sets generalizing os with
  | nil => simp [diverging]
  | cons ms sets ih =>
      rw [List.map_cons, List.sum_cons]
      rcases os with _ | ⟨f | s, os⟩
      · exact Nat.zero_le _
      · exact Nat.le_trans (ih os) (Nat.le_add_left _ _)
      · by_cases hs : s.isDivergent
        · simpa [diverging, hs] using ih os
        · simpa [diverging, hs] using Nat.le_trans (ih os) (Nat.le_add_left _ _)

end Charge

/-- Two for each halving that is to come, however it goes. -/
def twiceLess (ms : List (Member α)) : Nat :=
  2 * (ms.length - 1)

theorem twiceLess_halves {ms : List (Member α)} (hlarge : 2 ≤ ms.length) :
    2 + ((halfSets ms).map twiceLess).sum = twiceLess ms := by
  obtain ⟨hfirst, hsecond⟩ := halves_lengths ms
  simp only [halfSets, List.map_cons, List.map_nil, List.sum_cons, List.sum_nil, twiceLess, hfirst,
    hsecond]
  omega

/-- So far no more than `budget` was spent, and without a request to stop it will do for the rest of
the queue. -/
structure Moment.Within (bench : Bench τ) (spent : τ → Nat) (price : List (Member α) → Nat)
    (budget : Nat) (m : Moment τ α) : Prop where
  sofar : spent m.world ≤ budget
  rest : (bench.cancelled m.world).1 = false → spent m.world + charge price m.queue ≤ budget

theorem Moment.within_of_le {bench : Bench τ} {spent : τ → Nat} {price : List (Member α) → Nat}
    {budget : Nat} {m : Moment τ α} (h : spent m.world + charge price m.queue ≤ budget) :
    m.Within bench spent price budget :=
  ⟨Nat.le_trans (Nat.le_add_right _ _) h, fun _ => h⟩

/-- Halving a set takes one from the number of times that it can be halved. -/
theorem clog_halves {ms : List (Member α)} (hlarge : 2 ≤ ms.length) :
    ∀ half ∈ halfSets ms, Nat.clog 2 half.length + 1 ≤ Nat.clog 2 ms.length := by
  obtain ⟨hfirst, hsecond⟩ := halves_lengths ms
  have hclog : Nat.clog 2 ms.length = Nat.clog 2 ((ms.length + 1) / 2) + 1 := by
    simpa using Nat.clog_of_two_le (b := 2) (by omega) hlarge
  have hsmaller : Nat.clog 2 (ms.length / 2) ≤ Nat.clog 2 ((ms.length + 1) / 2) :=
    Nat.clog_mono_right 2 (by omega)
  intro half hhalf
  rcases List.mem_cons.mp hhalf with rfl | hhalf
  · rw [hfirst]
    omega
  · rw [List.mem_singleton.mp hhalf, hsecond]
    omega

theorem charge_opening_twiceLess (space : Space α) (whole : Score) (s : τ) :
    charge twiceLess (opening space whole s).queue ≤ 2 * (space.candidates.length - 1) := by
  rw [opening]
  split
  · exact Nat.zero_le _
  · simp [twiceLess]

variable [Candidate α]

/-- The price of a branch pays for the trials of its halves and the prices of both, and, when they
are silent, for the trials of the halves and of the single members. -/
structure Pays (bench : Bench τ) (space : Space α) (inv : τ → Prop) (spent : τ → Nat)
    (price : List (Member α) → Nat) (ms : List (Member α)) : Prop where
  halves : 2 ≤ ms.length → 2 + ((halfSets ms).map price).sum ≤ price ms
  singles {s s₁ s₂ s₃ s' : τ} {os os' : List Outcome} : 2 ≤ ms.length → inv s →
    bench.cancelled s = (false, s₁) → bench.batch (trials space (halfSets ms)) s₁ = (os, s₂) →
    bench.cancelled s₂ = (false, s₃) → diverging (halfSets ms) os = [] →
    failures (trials space (halfSets ms)) os = [] →
    bench.batch (trials space (singleSets ms)) s₃ = (os', s') → spent s' ≤ spent s + price ms

section Within

variable {bench : Bench τ} {space : Space α} {inv : τ → Prop} {spent : τ → Nat}
  {known : τ → Partition → Bool} {price : List (Member α) → Nat} {budget : Nat}
  {m m' : Moment τ α}

/-- Once the halves of a set are tried, what is left of its price pays for both. -/
theorem Pays.tried {ms : List (Member α)} (h : Pays bench space inv spent price ms)
    (hmeter : bench.Metered spent known) (hlarge : 2 ≤ ms.length) {s s₁ s₂ : τ}
    {os : List Outcome} (hgo : bench.cancelled s = (false, s₁))
    (htry : bench.batch (trials space (halfSets ms)) s₁ = (os, s₂)) :
    spent s₂ + ((halfSets ms).map price).sum ≤ spent s + price ms := by
  have hprice := h.halves hlarge
  have hcost := hmeter.of_batch_le htry
  have hlength : (trials space (halfSets ms)).length = 2 := rfl
  rw [hmeter.of_cancelled hgo, hlength] at hcost
  omega

theorem Turn.within (hmeter : bench.Metered spent known) (hb : bench.Latched inv)
    (hm : m.Sound space inv)
    (hpays : ∀ b ∈ m.queue, Pays bench space inv spent price b.members)
    (hwithin : m.Within bench spent price budget) (h : Turn bench space m m') :
    m'.Within bench spent price budget := by
  obtain ⟨hspent, hrest⟩ := hwithin
  cases h with
  | stop hstop =>
      refine Moment.within_of_le ?_
      rw [charge_nil, hmeter.of_cancelled hstop]
      exact hspent
  | @emit c score rest t tried s s' hgo =>
      have hrest : spent s + (price [c] + charge price rest) ≤ budget := hrest (by rw [hgo])
      refine Moment.within_of_le ?_
      show spent s' + charge price rest ≤ budget
      rw [hmeter.of_cancelled hgo]
      omega
  | @putBack b rest t tried os s s₁ s₂ s' hlarge hgo htry hstop =>
      have hrest : spent s + (price b.members + charge price rest) ≤ budget :=
        hrest (by rw [hgo])
      have htried := (hpays b List.mem_cons_self).tried hmeter hlarge hgo htry
      -- The halves are paid for; the queue is not, but nothing of it will be tried.
      refine ⟨?_, fun hgoing => ?_⟩
      · show spent s' ≤ budget
        rw [hmeter.of_cancelled hstop]
        omega
      · have hworld := hb.of_batch (hb.of_cancelled hm.world hgo) htry
        obtain ⟨_, hagain⟩ := hb.again hworld hstop
        rw [hagain] at hgoing
        simp at hgoing
  | @follow b rest t tried os s s₁ s₂ s' hlarge hgo htry hgo' hlead =>
      have hrest : spent s + (price b.members + charge price rest) ≤ budget :=
        hrest (by rw [hgo])
      have htried := (hpays b List.mem_cons_self).tried hmeter hlarge hgo htry
      have hparts := charge_diverging_le price (halfSets b.members) os
      refine Moment.within_of_le ?_
      show spent s' + charge price _ ≤ budget
      rw [hmeter.of_cancelled hgo', charge_append]
      omega
  | @isolate b rest t tried os os' s s₁ s₂ s₃ s' hlarge hgo htry hgo' hsilent hfailed halone =>
      have hrest : spent s + (price b.members + charge price rest) ≤ budget :=
        hrest (by rw [hgo])
      have hcost : spent s' ≤ spent s + price b.members :=
        (hpays b List.mem_cons_self).singles hlarge hm.world hgo htry hgo' hsilent hfailed halone
      refine Moment.within_of_le ?_
      show spent s' + charge price rest ≤ budget
      omega

/-- Where every branch pays, no more is spent than the price of the whole. -/
theorem Turns.within (hmeter : bench.Metered spent known) (hb : bench.Latched inv)
    (hm : m.Sound space inv)
    (hpays : ∀ m₁, Turns bench space m m₁ → ∀ b ∈ m₁.queue,
      Pays bench space inv spent price b.members)
    (hwithin : m.Within bench spent price budget) (h : Turns bench space m m') :
    m'.Within bench spent price budget := by
  induction h with
  | refl => exact hwithin
  | tail hturns hlast ih =>
      exact hlast.within hmeter hb (Turns.sound hb.toKeeps hm hturns) (hpays _ hturns) ih

end Within

/-! ### Any outcomes -/

section Any

variable {bench : Bench τ} {space : Space α} {inv : τ → Prop} {spent : τ → Nat}
  {known : τ → Partition → Bool}

/-- Single members that are halves too are known by now. -/
theorem countP_singles_le {s : τ} {ms : List (Member α)} (hlarge : 2 ≤ ms.length)
    (hknown : ∀ p ∈ trials space (halfSets ms), known s p = true) :
    2 + (trials space (singleSets ms)).countP (fun p => !known s p) ≤ twiceLess ms := by
  match ms, hlarge with
  | [a, b], _ =>
      have hsame : trials space (singleSets [a, b]) = trials space (halfSets [a, b]) := by
        simp [trials, singleSets, halfSets, halves, List.splitAt_eq]
      have hnone : (trials space (singleSets [a, b])).countP (fun p => !known s p) = 0 := by
        rw [hsame, List.countP_eq_zero]
        intro p hp
        simp [hknown p hp]
      rw [hnone]
      exact Nat.le_refl 2
  | [a, b, c], _ =>
      have hlast : known s (space.bipartition (memberKeys [c])) = true := by
        refine hknown _ ?_
        simp [trials, halfSets, halves, List.splitAt_eq]
      have hsplit : trials space (singleSets [a, b, c]) =
          trials space (singleSets [a, b]) ++ [space.bipartition (memberKeys [c])] := rfl
      have hcount := List.countP_le_length (p := fun p => !known s p)
        (l := trials space (singleSets [a, b]))
      have hlength : (trials space (singleSets [a, b])).length = 2 := rfl
      rw [hsplit, List.countP_append, List.countP_singleton, hlast]
      simp only [twiceLess, List.length_cons, List.length_nil, Bool.not_true, Bool.false_eq_true,
        if_false]
      omega
  | a :: b :: c :: d :: ms, _ =>
      have hcount := List.countP_le_length (p := fun p => !known s p)
        (l := trials space (singleSets (a :: b :: c :: d :: ms)))
      simp only [trials, singleSets, List.length_map, List.length_cons] at hcount
      simp only [twiceLess, trials, singleSets, List.length_cons]
      omega

theorem pays_twiceLess (hmeter : bench.Thrifty spent known) (ms : List (Member α)) :
    Pays bench space inv spent twiceLess ms where
  halves hlarge := Nat.le_of_eq (twiceLess_halves hlarge)
  singles {s s₁ s₂ s₃ s' os os'} hlarge _ hgo htry hgo' _ _ halone := by
    have hknown : ∀ p ∈ trials space (halfSets ms), known s₃ p = true := by
      intro p hp
      have hlearned : known (bench.batch (trials space (halfSets ms)) s₁).2 p = true :=
        hmeter.learns (by rw [htry, hgo']) p hp
      have hrecalled := hmeter.recalls hlearned
      rwa [htry, hgo'] at hrecalled
    have hhalves := hmeter.of_batch_le htry
    have hsingles := hmeter.of_batch halone
    have hcount := countP_singles_le hlarge hknown
    have hlength : (trials space (halfSets ms)).length = 2 := rfl
    rw [hmeter.of_cancelled hgo, hlength] at hhalves
    rw [hmeter.of_cancelled hgo'] at hsingles
    omega

/-- A search begins no more than two builds for each candidate but one, whatever comes of them and
whenever it is asked to stop. -/
theorem spent_search_le (hmeter : bench.Thrifty spent known) (hb : bench.Latched inv)
    (whole : Score) {s : τ} (hs : inv s) {m : Moment τ α}
    (h : Turns bench space (opening space whole s) m) :
    spent m.world ≤ spent s + 2 * (space.candidates.length - 1) := by
  have hopening : (opening space whole s).Within bench spent twiceLess
      (spent s + 2 * (space.candidates.length - 1)) :=
    Moment.within_of_le (Nat.add_le_add_left (charge_opening_twiceLess space whole s) _)
  exact (Turns.within hmeter.toMetered hb (opening_sound space whole hs)
    (fun _ _ b _ => pays_twiceLess hmeter b.members) hopening h).sofar

end Any

/-! ### A fixed set of culprits -/

section Blamed

variable {bench : Bench τ} {space : Space α} {inv : τ → Prop} {spent : τ → Nat}
  {known : τ → Partition → Bool} {oracle : Partition → Outcome} {culprits : List String}

variable (culprits) in
/-- How many members are culprits. -/
def guilty (ms : List (Member α)) : Nat :=
  ms.countP fun m => Candidate.key m.1 ∈ culprits

theorem guilty_pos {ms : List (Member α)} :
    0 < guilty culprits ms ↔ ∃ k ∈ memberKeys ms, k ∈ culprits := by
  simp [guilty, List.countP_pos_iff, memberKeys]

theorem guilty_halves (culprits : List String) (ms : List (Member α)) :
    guilty culprits (halves ms).1 + guilty culprits (halves ms).2 = guilty culprits ms := by
  rw [guilty, guilty, guilty, ← List.countP_append, halves_append]

variable (culprits) in
/-- Two for each culprit at each level below the set. -/
def twiceLevels (ms : List (Member α)) : Nat :=
  2 * guilty culprits ms * Nat.clog 2 ms.length

theorem twiceLevels_halves {ms : List (Member α)} (hlarge : 2 ≤ ms.length)
    (hguilty : 0 < guilty culprits ms) :
    2 + ((halfSets ms).map (twiceLevels culprits)).sum ≤ twiceLevels culprits ms := by
  have hclog := clog_halves hlarge
  obtain ⟨level, hlevel⟩ : ∃ level, Nat.clog 2 ms.length = level + 1 :=
    Nat.exists_eq_add_one.mpr (Nat.lt_of_lt_of_le (Nat.succ_pos _) (hclog _ List.mem_cons_self))
  have hprice : ∀ half ∈ halfSets ms,
      twiceLevels culprits half ≤ 2 * guilty culprits half * level := by
    intro half hhalf
    have := hclog half hhalf
    exact Nat.mul_le_mul_left _ (by omega)
  have hfirst := hprice (halves ms).1 List.mem_cons_self
  have hsecond := hprice (halves ms).2 (List.mem_cons_of_mem _ List.mem_cons_self)
  calc 2 + ((halfSets ms).map (twiceLevels culprits)).sum =
        2 + (twiceLevels culprits (halves ms).1 + twiceLevels culprits (halves ms).2) := by
        simp [halfSets]
    _ ≤ 2 + (2 * guilty culprits (halves ms).1 * level +
        2 * guilty culprits (halves ms).2 * level) := by omega
    _ = 2 + 2 * guilty culprits ms * level := by
        rw [← Nat.add_mul, ← Nat.mul_add, guilty_halves]
    _ ≤ 2 * guilty culprits ms * (level + 1) := by
        rw [Nat.mul_succ]
        omega
    _ = twiceLevels culprits ms := by rw [twiceLevels, hlevel]

/-- A half with a culprit diverges, so a set with a culprit does not have two silent halves. -/
theorem pays_twiceLevels (hb : bench.Follows inv oracle)
    (hblames : Blames oracle space culprits) {ms : List (Member α)}
    (hms : ms.Sublist space.candidates.zipIdx) (hguilty : 0 < guilty culprits ms) :
    Pays bench space inv spent (twiceLevels culprits) ms where
  halves hlarge := twiceLevels_halves hlarge hguilty
  singles {s s₁ s₂ s₃ s' os os'} _ hs hgo htry _ hsilent hfailed _ := by
    obtain rfl := hb.outcomes (hb.of_cancelled hs hgo) htry
    have hquiet := all_silent_iff.mpr ⟨hsilent, hfailed⟩
    have hnone (half : List (Member α)) (hhalf : half ∈ halfSets ms) :
        ¬0 < guilty culprits half := by
      intro hpos
      have hsub := memberKeys_sublist_keys ((infix_of_mem_halfSets hhalf).sublist.trans hms)
      obtain ⟨score, hscore, hdiv⟩ := (hblames _ hsub).mpr (guilty_pos.mp hpos)
      have hloud := hquiet half hhalf
      rw [outcomeOf, partitionOf, hscore] at hloud
      simp [isSilent, hdiv] at hloud
    have hfirst := hnone (halves ms).1 List.mem_cons_self
    have hsecond := hnone (halves ms).2 (List.mem_cons_of_mem _ List.mem_cons_self)
    have hsum := guilty_halves culprits ms
    omega

/-- Every branch of the queue has a culprit. -/
theorem Turn.guilty_pos (hb : bench.Follows inv oracle) (hblames : Blames oracle space culprits)
    {m m' : Moment τ α} (hm : m.Sound space inv)
    (hguilty : ∀ b ∈ m.queue, 0 < guilty culprits b.members) (h : Turn bench space m m') :
    ∀ b ∈ m'.queue, 0 < guilty culprits b.members := by
  obtain ⟨hworld, hsegs⟩ := hm
  intro c hc
  cases h with
  | stop => exact absurd hc List.not_mem_nil
  | emit => exact hguilty c (List.mem_cons_of_mem _ hc)
  | putBack => exact hguilty c hc
  | @follow b rest _ _ os _ _ _ _ hlarge hgo htry =>
      rcases List.mem_append.mp hc with hc | hc
      · exact hguilty c (List.mem_cons_of_mem _ hc)
      · obtain rfl := hb.outcomes (hb.of_cancelled hworld hgo) htry
        have hseg := isSegment_of_mem_diverging (hsegs b List.mem_cons_self) hlarge hc
        obtain ⟨hmem, hdiv⟩ := mem_diverging.mp hc
        rw [trials_map, zip_map_self] at hmem
        obtain ⟨half, -, heq⟩ := List.mem_map.mp hmem
        obtain ⟨rfl, hscore⟩ := Prod.mk.inj heq
        exact Search.guilty_pos.mpr
          ((hblames _ (memberKeys_sublist_keys hseg.sublist)).mp ⟨_, hscore, hdiv⟩)
  | isolate => exact hguilty c (List.mem_cons_of_mem _ hc)

theorem guilty_opening (hsome : ∃ k ∈ keys space, k ∈ culprits) (whole : Score) (s : τ) :
    ∀ b ∈ (opening space whole s).queue, 0 < guilty culprits b.members := by
  intro b hb
  by_cases hnone : space.candidates.isEmpty
  · simp [opening, hnone] at hb
  · obtain rfl : b = ⟨space.candidates.zipIdx, whole⟩ := by simpa [opening, hnone] using hb
    rw [guilty_pos, memberKeys_zipIdx]
    exact hsome

theorem charge_opening_twiceLevels (space : Space α) (whole : Score) (s : τ) :
    charge (twiceLevels culprits) (opening space whole s).queue ≤
      2 * space.candidates.countP (fun c => Candidate.key c ∈ culprits) *
        Nat.clog 2 space.candidates.length := by
  have hguilty : guilty culprits space.candidates.zipIdx =
      space.candidates.countP fun c => Candidate.key c ∈ culprits := by
    rw [← List.zipIdx_map_fst 0 space.candidates, List.countP_map, List.zipIdx_map_fst]
    rfl
  rw [opening]
  split
  · exact Nat.zero_le _
  · simp [twiceLevels, hguilty]

/-- Among culprits a search begins no more than two builds for each culprit at each level. -/
theorem spent_search_le_log (hmeter : bench.Metered spent known) (hb : bench.Follows inv oracle)
    (hblames : Blames oracle space culprits) (hsome : ∃ k ∈ keys space, k ∈ culprits)
    (whole : Score) {s : τ} (hs : inv s) {m : Moment τ α}
    (h : Turns bench space (opening space whole s) m) :
    spent m.world ≤ spent s + 2 * space.candidates.countP (fun c => Candidate.key c ∈ culprits) *
      Nat.clog 2 space.candidates.length := by
  have hsound := opening_sound space whole hs
  have hlatched := hb.toUncancelled.latched
  have hopening : (opening space whole s).Within bench spent (twiceLevels culprits)
      (spent s + 2 * space.candidates.countP (fun c => Candidate.key c ∈ culprits) *
        Nat.clog 2 space.candidates.length) :=
    Moment.within_of_le (Nat.add_le_add_left (charge_opening_twiceLevels space whole s) _)
  refine (Turns.within hmeter hlatched hsound (fun m₁ hm₁ b hbm => ?_) hopening h).sofar
  have hguilty : ∀ c ∈ m₁.queue, 0 < guilty culprits c.members := by
    refine Turns.keep (P := fun m => ∀ c ∈ m.queue, 0 < guilty culprits c.members) hb.toKeeps
      hsound hm₁ (guilty_opening hsome whole s) ?_
    exact fun _ _ hm₂ hturn hpos => hturn.guilty_pos hb hblames hm₂ hpos
  exact pays_twiceLevels hb hblames
    ((Turns.sound hb.toKeeps hsound hm₁).segments b hbm).sublist (hguilty b hbm)

end Blamed

end Search

end Culprit
