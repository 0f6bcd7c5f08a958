import Culprit.Proofs.Partition.Accepted
import Culprit.Proofs.Search.Bench
import Mathlib.Data.List.Infix
import Mathlib.Data.List.Sort

/-!
The trials of a search: the two halves of a set, or its members one at a time. Among candidates
with distinct keys every such set gives a partition, and the outcomes of a batch are read off set
by set. Findings at distinct positions come out in the order of the candidates, however the search
came upon them.
-/

namespace Culprit

/-- The partition with exactly the given keys variant. -/
def Space.bipartition {α : Type} [Candidate α] (space : Space α) (variant : List String) :
    Partition where
  scope := space.scope
  variant := variant
  trusted := (Search.keys space).filter (· ∉ variant)

namespace Search

/-- A small space: the three files `a.c`, `b.c` and `c.c`. -/
def threeUnits : Space SourceUnit :=
  ⟨.units, [⟨"a.c"⟩, ⟨"b.c"⟩, ⟨"c.c"⟩]⟩

variable {α τ : Type}

/-! ### Sets of members -/

/-- The branch has a member, and its members stand one after the other among the candidates. -/
def Branch.IsSegment (space : Space α) (b : Branch α) : Prop :=
  b.members ≠ [] ∧ b.members <:+: space.candidates.zipIdx

def halfSets (ms : List (Member α)) : List (List (Member α)) :=
  [(halves ms).1, (halves ms).2]

def singleSets (ms : List (Member α)) : List (List (Member α)) :=
  ms.map fun m => [m]

theorem halves_append (ms : List α) : (halves ms).1 ++ (halves ms).2 = ms := by
  simp [halves, List.splitAt_eq]

theorem halves_ne_nil {ms : List α} (h : 2 ≤ ms.length) :
    (halves ms).1 ≠ [] ∧ (halves ms).2 ≠ [] := by
  obtain ⟨h₁, h₂⟩ := halves_lengths ms
  constructor <;> intro hnil <;> simp only [hnil, List.length_nil] at h₁ h₂ <;> omega

theorem halfSets_flatten (ms : List (Member α)) : (halfSets ms).flatten = ms := by
  simp [halfSets, halves_append]

theorem singleSets_flatten (ms : List (Member α)) : (singleSets ms).flatten = ms := by
  induction ms with
  | nil => rfl
  | cons m ms ih => simpa [singleSets] using ih

/-! ### Reading the outcomes of a batch -/

/-- A set whose trial diverged is a branch. -/
def branch? : List (Member α) × Outcome → Option (Branch α)
  | (ms, .ok s) => if s.isDivergent then some ⟨ms, s⟩ else none
  | (_, .error _) => none

/-- A trial that failed is an issue. -/
def issue? : Partition × Outcome → Option Issue
  | (p, .error f) => some (.ofFailure p.describe f)
  | (_, .ok _) => none

@[simp] theorem branch?_error (ms : List (Member α)) (f : Failure) :
    branch? (ms, .error f) = none := rfl

@[simp] theorem issue?_error (p : Partition) (f : Failure) :
    issue? (p, .error f) = some (.ofFailure p.describe f) := rfl

theorem diverging_eq_filterMap (sets : List (List (Member α))) (os : List Outcome) :
    diverging sets os = (sets.zip os).filterMap branch? := by
  induction sets generalizing os with
  | nil => simp [diverging]
  | cons ms sets ih =>
      rcases os with _ | ⟨f | s, os⟩
      · simp [diverging]
      · simp [diverging, branch?, ih, List.filterMap_cons]
      · by_cases hs : s.isDivergent <;> simp [diverging, branch?, hs, ih]

theorem failures_eq_filterMap (ps : List Partition) (os : List Outcome) :
    failures ps os = (ps.zip os).filterMap issue? := by
  induction ps generalizing os with
  | nil => simp [failures]
  | cons p ps ih =>
      rcases os with _ | ⟨f | s, os⟩ <;> simp [failures, issue?, ih, List.filterMap_cons]

theorem mem_diverging {sets : List (List (Member α))} {os : List Outcome} {b : Branch α} :
    b ∈ diverging sets os ↔ (b.members, .ok b.score) ∈ sets.zip os ∧ b.score.isDivergent := by
  rw [diverging_eq_filterMap, List.mem_filterMap]
  constructor
  · rintro ⟨⟨ms, f | s⟩, hmem, hb⟩
    · simp [branch?] at hb
    · obtain ⟨hs, rfl⟩ : s.isDivergent ∧ ⟨ms, s⟩ = b := by simpa [branch?] using hb
      exact ⟨hmem, hs⟩
  · rintro ⟨hmem, hs⟩
    exact ⟨_, hmem, by simp [branch?, hs]⟩

theorem mem_failures {ps : List Partition} {os : List Outcome} {i : Issue} :
    i ∈ failures ps os ↔ ∃ p f, (p, .error f) ∈ ps.zip os ∧ i = .ofFailure p.describe f := by
  rw [failures_eq_filterMap, List.mem_filterMap]
  constructor
  · rintro ⟨⟨p, f | s⟩, hmem, hi⟩
    · exact ⟨p, f, hmem, by simpa [issue?, eq_comm] using hi⟩
    · simp [issue?] at hi
  · rintro ⟨p, f, hmem, rfl⟩
    exact ⟨_, hmem, rfl⟩

theorem exists_mem_zip {β γ : Type} {l : List β} {r : List γ} (hlength : r.length = l.length)
    {x : β} (hx : x ∈ l) : ∃ y, (x, y) ∈ l.zip r := by
  obtain ⟨n, hn, rfl⟩ := List.mem_iff_getElem.mp hx
  refine ⟨r[n], List.mem_iff_getElem.mpr ⟨n, ?_, List.getElem_zip⟩⟩
  rw [List.length_zip]
  omega

/-- The branches of a batch are some of its sets, in their order. -/
theorem members_diverging_sublist (sets : List (List (Member α))) (os : List Outcome) :
    ((diverging sets os).flatMap Branch.members).Sublist sets.flatten := by
  induction sets generalizing os with
  | nil => simp [diverging]
  | cons ms sets ih =>
      rcases os with _ | ⟨f | s, os⟩
      · simp [diverging]
      · simpa [diverging] using (ih os).trans (List.sublist_append_right ms _)
      · by_cases hs : s.isDivergent
        · simpa [diverging, hs] using ih os
        · simpa [diverging, hs] using (ih os).trans (List.sublist_append_right ms _)

theorem weight_halfSets_lt {b : Branch α} (os : List Outcome) (hlarge : 2 ≤ b.members.length) :
    weight (diverging (halfSets b.members) os) < b.weight := by
  obtain ⟨_ | ⟨m, _ | ⟨n, ms⟩⟩, score⟩ := b
  · simp at hlarge
  · simp at hlarge
  · exact weight_halves_lt m n ms score os

/-! ### Branches that are segments -/

variable {space : Space α}

theorem Branch.IsSegment.sublist {b : Branch α} (h : b.IsSegment space) :
    b.members.Sublist space.candidates.zipIdx :=
  h.2.sublist

theorem Branch.IsSegment.exists_range {b : Branch α} (h : b.IsSegment space) :
    ∃ start len, 0 < len ∧ start + len ≤ space.candidates.length ∧
      b.members = (space.candidates.zipIdx.drop start).take len := by
  obtain ⟨hne, before, after, heq⟩ := h
  have hlength := congrArg List.length heq
  simp only [List.length_append, List.length_zipIdx] at hlength
  refine ⟨before.length, b.members.length, List.length_pos_iff.mpr hne, by omega, ?_⟩
  rw [← heq]
  simp

theorem infix_of_mem_halfSets {ms part : List (Member α)} (h : part ∈ halfSets ms) :
    part <:+: ms := by
  rw [← halves_append ms]
  rcases List.mem_cons.mp h with rfl | h
  · exact (List.prefix_append _ _).isInfix
  · rw [List.mem_singleton.mp h]
    exact (List.suffix_append _ _).isInfix

theorem ne_nil_of_mem_halfSets {ms part : List (Member α)} (hlarge : 2 ≤ ms.length)
    (h : part ∈ halfSets ms) : part ≠ [] := by
  obtain ⟨hfirst, hsecond⟩ := halves_ne_nil hlarge
  rcases List.mem_cons.mp h with rfl | h
  · exact hfirst
  · exact List.mem_singleton.mp h ▸ hsecond

theorem isSegment_of_mem_diverging {b c : Branch α} {os : List Outcome} (hb : b.IsSegment space)
    (hlarge : 2 ≤ b.members.length) (hc : c ∈ diverging (halfSets b.members) os) :
    c.IsSegment space := by
  have hpart : c.members ∈ halfSets b.members := (List.of_mem_zip (mem_diverging.mp hc).1).1
  exact ⟨ne_nil_of_mem_halfSets hlarge hpart, (infix_of_mem_halfSets hpart).trans hb.2⟩

/-! ### Sets and their partitions -/

theorem mapM_eq_ok {β γ : Type} {f : β → Except Error γ} {g : β → γ} {xs : List β}
    (h : ∀ x ∈ xs, f x = .ok (g x)) : xs.mapM f = .ok (xs.map g) := by
  induction xs with
  | nil => rfl
  | cons x xs ih =>
      rw [List.mapM_cons, h x List.mem_cons_self,
        ih fun y hy => h y (List.mem_cons_of_mem x hy)]
      rfl

variable [Candidate α]

/-- One partition for each set, with exactly that set variant. -/
def trials (space : Space α) (sets : List (List (Member α))) : List Partition :=
  sets.map fun ms => space.bipartition (memberKeys ms)

@[simp] theorem memberKeys_append (ms ns : List (Member α)) :
    memberKeys (ms ++ ns) = memberKeys ms ++ memberKeys ns := by
  simp [memberKeys]

theorem memberKeys_sublist {ms ns : List (Member α)} (h : ms.Sublist ns) :
    (memberKeys ms).Sublist (memberKeys ns) :=
  h.map _

theorem memberKeys_subset {ms ns : List (Member α)} (h : ms ⊆ ns) :
    memberKeys ms ⊆ memberKeys ns :=
  List.map_subset _ h

theorem memberKeys_ne_nil {ms : List (Member α)} (h : ms ≠ []) : memberKeys ms ≠ [] := by
  simpa [memberKeys] using h

theorem memberKeys_halves (ms : List (Member α)) :
    (halves (memberKeys ms)).1 = memberKeys (halves ms).1 ∧
      (halves (memberKeys ms)).2 = memberKeys (halves ms).2 := by
  simp [halves, List.splitAt_eq, memberKeys, List.map_take, List.map_drop]

theorem memberKeys_zipIdx (space : Space α) : memberKeys space.candidates.zipIdx = keys space := by
  calc memberKeys space.candidates.zipIdx =
        (space.candidates.zipIdx.map Prod.fst).map Candidate.key := by
        rw [memberKeys, List.map_map]
        rfl
    _ = keys space := by
        rw [List.zipIdx_map_fst]
        rfl

theorem memberKeys_sublist_keys {ms : List (Member α)}
    (h : ms.Sublist space.candidates.zipIdx) : (memberKeys ms).Sublist (keys space) := by
  rw [← memberKeys_zipIdx]
  exact memberKeys_sublist h

theorem partition_eq_ok (hkeys : (keys space).Nodup) {ms : List (Member α)}
    (h : ms.Sublist space.candidates.zipIdx) :
    partition space ms = .ok (space.bipartition (memberKeys ms)) := by
  have hsub := memberKeys_sublist_keys h
  exact Partition.of_ok hsub.subset (hkeys.sublist hsub)

theorem mapM_halfSets (hkeys : (keys space).Nodup) {ms : List (Member α)}
    (h : ms.Sublist space.candidates.zipIdx) :
    [(halves ms).1, (halves ms).2].mapM (partition space) = .ok (trials space (halfSets ms)) := by
  refine mapM_eq_ok fun part hpart => partition_eq_ok hkeys (List.Sublist.trans ?_ h)
  rw [← halfSets_flatten ms]
  exact List.sublist_flatten_of_mem hpart

theorem mapM_singleSets (hkeys : (keys space).Nodup) {ms : List (Member α)}
    (h : ms.Sublist space.candidates.zipIdx) :
    (ms.mapM fun m => partition space [m]) = .ok (trials space (singleSets ms)) := by
  rw [trials, singleSets, List.map_map]
  refine mapM_eq_ok fun m hm => partition_eq_ok hkeys (List.Sublist.trans ?_ h)
  exact List.singleton_sublist.mpr hm

theorem zip_trials (space : Space α) (sets : List (List (Member α))) (os : List Outcome) :
    (trials space sets).zip os =
      (sets.zip os).map fun r => (space.bipartition (memberKeys r.1), r.2) := by
  rw [trials, List.zip_map_left]
  rfl

/-! ### A single trial -/

/-- A trial of its own is a batch of one. -/
theorem exists_trial {b : Bench τ} (hlength : ∀ ps s, (b.batch ps s).1.length = ps.length)
    (hkeys : (keys space).Nodup) {V : List String} (hsub : V.Sublist (keys space)) (s : τ) :
    ∃ o s', b.batch [space.bipartition V] s = ([o], s') ∧
      Attempt.runOn (Attempt.of (Partition.of space.scope (keys space) V) >>= fun p =>
        ExceptT.lift (b.trial p)) s = (.ok o, s') := by
  rcases htry : b.batch [space.bipartition V] s with ⟨os, s'⟩
  have hone := hlength [space.bipartition V] s
  rw [htry] at hone
  obtain ⟨o, rfl⟩ := List.length_eq_one_iff.mp hone
  refine ⟨o, s', rfl, ?_⟩
  rw [Partition.of_ok hsub.subset (hkeys.sublist hsub), Attempt.runOn_of_ok_bind]
  exact Attempt.runOn_lift (bind_of htry)

end Search

/-! ### The order of the suspects -/

namespace Search

variable {α : Type}

/-- One finding stands before the other. -/
abbrev Before (f g : Member α × Score) : Prop :=
  f.1.2 < g.1.2

theorem zipIdx_pairwise (cs : List α) : cs.zipIdx.Pairwise fun m n => m.2 < n.2 := by
  rw [← List.pairwise_map, List.zipIdx_map_snd]
  exact List.pairwise_lt_range'

/-- The findings of a tally as its result lists them. -/
def Tally.sorted (t : Tally α) : List (Member α × Score) :=
  t.found.mergeSort fun f g => f.1.2 ≤ g.1.2

theorem Tally.result_suspects (t : Tally α) :
    t.result.suspects = t.sorted.map fun f => ⟨f.1.1, f.2⟩ := rfl

theorem Tally.sorted_perm (t : Tally α) : t.sorted.Perm t.found :=
  List.mergeSort_perm _ _

theorem Tally.mem_sorted {t : Tally α} {f : Member α × Score} :
    f ∈ t.sorted ↔ f ∈ t.found :=
  t.sorted_perm.mem_iff

theorem Tally.sorted_pairwise {t : Tally α} (h : (t.found.map fun f => f.1.2).Nodup) :
    t.sorted.Pairwise Before := by
  have hle : t.sorted.Pairwise fun f g => f.1.2 ≤ g.1.2 := by
    refine (List.pairwise_mergeSort ?_ ?_ t.found).imp of_decide_eq_true
    · intro f g h hfg hgh
      simp only [decide_eq_true_eq] at hfg hgh ⊢
      exact hfg.trans hgh
    · intro f g
      simp only [Bool.or_eq_true, decide_eq_true_eq]
      exact Nat.le_total _ _
  have hne : t.sorted.Pairwise fun f g => f.1.2 ≠ g.1.2 :=
    List.pairwise_map.mp ((t.sorted_perm.map _).nodup_iff.mpr h)
  exact (hle.and hne).imp fun hfg => Nat.lt_of_le_of_ne hfg.1 hfg.2

/-- However findings were come upon, their one ascending order is the order of the result. -/
theorem Tally.sorted_eq_of_perm {t : Tally α} {fs : List (Member α × Score)}
    (hperm : t.found.Perm fs) (hfs : fs.Pairwise Before) : t.sorted = fs := by
  have hnodup : (t.found.map fun f => f.1.2).Nodup :=
    (hperm.map _).nodup_iff.mpr (List.pairwise_map.mpr (hfs.imp Nat.ne_of_lt))
  refine (t.sorted_perm.trans hperm).eq_of_pairwise ?_ (t.sorted_pairwise hnodup) hfs
  intro f g _ _ hfg hgf
  exact absurd hfg (Nat.lt_asymm hgf)

/-- Candidates at ascending positions are some of the candidates, in their order. -/
theorem sublist_of_pairwise {cs : List α} {ms : List (Member α)} (hsub : ms ⊆ cs.zipIdx)
    (hms : ms.Pairwise fun m n => m.2 < n.2) : (ms.map Prod.fst).Sublist cs := by
  have hnodup : ms.Nodup := List.Nodup.of_map Prod.snd
    (List.pairwise_map.mpr (hms.imp Nat.ne_of_lt))
  have hsublist : ms.Sublist cs.zipIdx := by
    have : Std.Antisymm fun m n : Member α => m.2 < n.2 :=
      ⟨fun m n hmn hnm => absurd hmn (Nat.lt_asymm hnm)⟩
    exact List.sublist_of_subperm_of_pairwise (List.subperm_of_subset hnodup hsub) hms
      (zipIdx_pairwise cs)
  have := hsublist.map Prod.fst
  rwa [List.zipIdx_map_fst] at this

end Search

end Culprit
