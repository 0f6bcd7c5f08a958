import Culprit.Proofs.Session.Records

/-!
Records of one signature agree. A signature is remembered once, the record of its trial tells what
is remembered, and so does the record of every repetition. A request to stop puts an end to this,
since what ends after it is recorded and not remembered.
-/

namespace Culprit

variable {σ : Type}

/-- The record has the outcome `o`. -/
def Trial.Tells (t : Trial) (o : Outcome) : Prop :=
  t.score? = score?Of o ∧ t.failure? = failure?Of o

theorem Trial.tells_ofOutcome (seq : Nat) (p : Partition) (o : Outcome)
    (buildMs? runMs? : Option Nat) (cached : Bool) :
    (Trial.ofOutcome seq p o buildMs? runMs? cached).Tells o :=
  ⟨rfl, rfl⟩

/-- Records that go with a memory. Each tells what is remembered of its signature; one that is not
cached is the first of its signature, and the cached ones come after it. -/
structure Recalled (memory : List (String × Outcome)) (trials : List Trial) : Prop where
  tells : ∀ t ∈ trials, ∃ o, memory.lookup t.signature = some o ∧ t.Tells o
  tried : (trials.filter (!·.cached)).map (·.signature) = (memory.map (·.1)).reverse
  repeats : ∀ before t, before ++ [t] <+: trials → t.cached = true →
    ∃ u ∈ before, u.cached = false ∧ u.signature = t.signature

namespace Recalled

variable {memory : List (String × Outcome)} {trials : List Trial} {t : Trial} {o : Outcome}

theorem mem_keys_of_lookup {g : String} (h : memory.lookup g = some o) :
    g ∈ memory.map (·.1) := by
  obtain ⟨_, _, rfl, -⟩ := List.lookup_eq_some_iff.mp h
  simp

theorem nil : Recalled [] [] where
  tells _ ht := absurd ht List.not_mem_nil
  tried := rfl
  repeats _ _ hprefix := by simp at hprefix

theorem exists_first (h : Recalled memory trials) {g : String} (hg : g ∈ memory.map (·.1)) :
    ∃ u ∈ trials, u.cached = false ∧ u.signature = g := by
  rw [← List.mem_reverse, ← h.tried] at hg
  obtain ⟨u, hu, hsignature⟩ := List.mem_map.mp hg
  obtain ⟨hmem, huncached⟩ := List.mem_filter.mp hu
  exact ⟨u, hmem, by simpa using huncached, hsignature⟩

/-- One more record of what is remembered. -/
theorem again (h : Recalled memory trials) (ho : memory.lookup t.signature = some o)
    (ht : t.Tells o) (hcached : t.cached = true) :
    Recalled memory (trials ++ [t]) where
  tells := by
    intro t' ht'
    rcases List.mem_append.mp ht' with ht' | ht'
    · exact h.tells t' ht'
    · obtain rfl := List.mem_singleton.mp ht'
      exact ⟨o, ho, ht⟩
  tried := by
    rw [List.filter_append, List.filter_cons_of_neg (by simp [hcached]), List.filter_nil,
      List.append_nil, h.tried]
  repeats before t' hprefix hcached' := by
    rcases List.prefix_concat_iff.mp hprefix with heq | hprefix
    · obtain ⟨rfl, hlast⟩ := List.append_inj' heq rfl
      obtain rfl := List.singleton_inj.mp hlast
      exact h.exists_first (mem_keys_of_lookup ho)
    · exact h.repeats before t' hprefix hcached'

/-- The first record of a signature, and its place in the memory. -/
theorem first (h : Recalled memory trials) (hnew : t.signature ∉ memory.map (·.1))
    (ht : t.Tells o) (hfirst : t.cached = false) :
    Recalled ((t.signature, o) :: memory) (trials ++ [t]) where
  tells := by
    intro t' ht'
    rcases List.mem_append.mp ht' with ht' | ht'
    · -- The other records are of other signatures, since this one was not known.
      obtain ⟨o', ho', htells⟩ := h.tells t' ht'
      have hne : t'.signature ≠ t.signature := fun heq =>
        hnew (heq ▸ mem_keys_of_lookup ho')
      exact ⟨o', by rwa [List.lookup_cons, beq_eq_false_iff_ne.mpr hne], htells⟩
    · obtain rfl := List.mem_singleton.mp ht'
      exact ⟨o, List.lookup_cons_self, ht⟩
  tried := by
    rw [List.filter_append, List.filter_cons_of_pos (by simp [hfirst]), List.filter_nil,
      List.map_append, h.tried]
    exact List.reverse_cons.symm
  repeats before t' hprefix hcached := by
    rcases List.prefix_concat_iff.mp hprefix with heq | hprefix
    · obtain ⟨-, hlast⟩ := List.append_inj' heq rfl
      obtain rfl := List.singleton_inj.mp hlast
      rw [hfirst] at hcached
      cases hcached
    · exact h.repeats before t' hprefix hcached

/-- Before a record that is cached there is one of its signature that is not, and it has the same
outcome. -/
theorem one_first (h : Recalled memory trials) (hdistinct : (memory.map (·.1)).Nodup)
    {before after : List Trial} (hsplit : trials = before ++ t :: after)
    (hcached : t.cached = true) :
    ∃ u, before.filter (fun u => !u.cached && u.signature == t.signature) = [u] ∧
      u.score? = t.score? ∧ u.failure? = t.failure? := by
  have hprefix : before ++ [t] <+: trials := ⟨after, by simp [hsplit]⟩
  obtain ⟨u, hu, hfirst, hsignature⟩ := h.repeats before t hprefix hcached
  -- What is tried is tried once.
  have hnodup : ((before.filter (!·.cached)).map (·.signature)).Nodup := by
    have htried : ((trials.filter (!·.cached)).map (·.signature)).Nodup := by
      rw [h.tried]
      exact List.nodup_reverse.mpr hdistinct
    rw [hsplit, List.filter_append, List.map_append] at htried
    exact (List.nodup_append.mp htried).1
  have hmem : t.signature ∈ (before.filter (!·.cached)).map (·.signature) :=
    hsignature ▸ List.mem_map_of_mem (List.mem_filter.mpr ⟨hu, by simp [hfirst]⟩)
  have hone : (before.filter fun u => !u.cached && u.signature == t.signature).length = 1 := by
    have hcount := List.count_eq_one_of_mem hnodup hmem
    rw [List.count, List.countP_map, List.countP_filter] at hcount
    rw [← List.countP_eq_length_filter, ← hcount]
    exact List.countP_congr fun u _ => by simp [and_comm]
  obtain ⟨u', hu'⟩ := List.length_eq_one_iff.mp hone
  have hin : u' ∈ before.filter fun u => !u.cached && u.signature == t.signature :=
    hu' ▸ List.mem_singleton_self u'
  obtain ⟨hmem', hsame⟩ := List.mem_filter.mp hin
  obtain ⟨o, ho, htells⟩ := h.tells t (hsplit ▸ by simp)
  obtain ⟨o', ho', htells'⟩ := h.tells u' (hsplit ▸ List.mem_append_left _ hmem')
  rw [(by simpa using (Bool.and_eq_true_iff.mp hsame).2 : u'.signature = t.signature), ho] at ho'
  obtain rfl := Option.some.inj ho'
  exact ⟨u', hu', htells'.1.trans htells.1.symm, htells'.2.trans htells.2.symm⟩

end Recalled

/-- The records of a session go with what it remembers. -/
def Session.Recalls (s : Session σ) : Prop :=
  Recalled s.memory s.trials

/-- A series of trials while `tasks` of a batch are under way. The signatures in `asked` belong to
the batch. -/
structure Agreed (asked : List String) (tasks : List Task) (s : Session σ) : Prop where
  recalls : s.Recalls
  owing : Owing asked tasks s.signatures

namespace Agreed

variable {asked : List String} {tasks tasks' others : List Task} {k : Task} {s s' : Session σ}

theorem perm (htasks : tasks.Perm tasks') (h : Agreed asked tasks s) : Agreed asked tasks' s :=
  ⟨h.recalls, h.owing.perm htasks (List.Perm.refl _)⟩

/-- One more record of what is remembered. -/
theorem note (h : Agreed asked tasks s) {t : Trial} {o : Outcome} {site : Site σ}
    (ho : s.remembered? t.signature = some o) (ht : t.Tells o) (hcached : t.cached = true) :
    Agreed asked tasks { s with site := site, trials := s.trials ++ [t] } where
  recalls := h.recalls.again ho ht hcached
  owing := h.owing

/-- The first task is over; its outcome is remembered and recorded. -/
theorem settle (h : Agreed asked (k :: others) s) (hpending : k.progress.isPending = true)
    {t : Trial} {o : Outcome} (hsignature : t.signature = k.signature) (ht : t.Tells o)
    (hfirst : t.cached = false) :
    Agreed asked ({ k with progress := .settled o } :: others)
      ⟨s.site, (k.signature, o) :: s.memory, s.executed, s.trials ++ [t]⟩ where
  recalls := by
    have hnew := (List.forall_mem_cons.mp h.owing.unknown).1 hpending
    rw [← hsignature] at hnew ⊢
    exact h.recalls.first hnew ht hfirst
  owing := h.owing.settle hpending

end Agreed

namespace Experiment

variable {x : Experiment σ} {fired : σ → Prop} {asked : List String} {k : Task}
  {others : List Task} {s : Session σ}

/-- There was a request to stop, or what is recorded agrees. -/
def Agrees (fired : σ → Prop) (asked : List String) (tasks : List Task) (s : Session σ) : Prop :=
  fired s.site.world ∨ Agreed asked tasks s

theorem record_agreed (h : Agreed asked others s) {p : Partition} {o : Outcome}
    (ho : s.remembered? p.signature = some o) :
    Agreed asked others (x.record p o none none true s).2 := by
  rw [record_eq]
  exact h.note ho (Trial.tells_ofOutcome _ p o none none true) rfl

theorem finish_agrees (hx : x.Latched fired) (h : Agreed asked (k :: others) s)
    (hpending : k.progress.isPending = true) (o : Outcome) (buildMs? runMs? : Option Nat)
    {site : Site σ} {executed : Nat} :
    Agrees fired asked
      ((x.finish k o buildMs? runMs? { s with site := site, executed := executed }).1 :: others)
      (x.finish k o buildMs? runMs? { s with site := site, executed := executed }).2 := by
  have hsignature := (h.owing.tasked k List.mem_cons_self).1
  rw [finish_fst]
  rcases hlook : x.lab.cancelled site.world with ⟨stop, w⟩
  rw [finish, bind_of (Session.onWorld_eq hlook)]
  cases stop with
  | true =>
      have hfired : fired w := by simpa [hlook] using hx.seen (w := site.world)
      have hrecord := record_holds (M := fun _ => False) hx.keeps k.partition o buildMs? runMs?
        false { s with site := { site with world := w }, executed := executed } (.inl hfired)
      exact .inl (hrecord.resolve_right id)
  | false =>
      refine .inr ?_
      let t := Trial.ofOutcome (s.trials.length + 1) k.partition o buildMs? runMs? false
      have ht : t.signature = k.signature := hsignature.symm
      have hsettled := h.settle hpending ht
        (Trial.tells_ofOutcome _ k.partition o buildMs? runMs? false) rfl
      exact ⟨hsettled.recalls, hsettled.owing⟩

/-- Once a request was made the passes change nothing about that. -/
theorem buildTask_fired (hx : x.Latched fired) (hfired : fired s.site.world) :
    fired (x.buildTask k s).2.site.world :=
  (buildTask_holds (M := fun _ => False) hx.keeps trivial (fun _ _ => id) s
    (.inl hfired)).resolve_right id

theorem runTask_fired (hx : x.Latched fired) (hfired : fired s.site.world) :
    fired (x.runTask k s).2.site.world :=
  (runTask_holds (M := fun _ => False) hx.keeps (fun _ _ => id) s (.inl hfired)).resolve_right id

theorem settleTask_fired (hx : x.Latched fired) (hfired : fired s.site.world) :
    fired (x.settleTask k s).2.site.world :=
  (settleTask_holds (M := fun _ => False) hx.keeps k s (.inl hfired)).resolve_right id

theorem buildTask_agrees (hx : x.Latched fired) (h : Agrees fired asked (k :: others) s) :
    Agrees fired asked ((x.buildTask k s).1 :: others) (x.buildTask k s).2 := by
  rcases h with hfired | h
  · exact .inl (buildTask_fired hx hfired)
  have hpending (hk : k.progress = .waiting) : k.progress.isPending = true := by rw [hk]; rfl
  have hturn := buildTask_turn x k s
  generalize x.buildTask k s = r at hturn ⊢
  cases hturn with
  | other => exact .inr h
  | barred hk | unbuilt hk => exact finish_agrees hx h (hpending hk) _ none none
  | @built path made w w' hk =>
      exact .inr ⟨h.recalls,
        h.owing.proceed (g := .built { path := path } made) (hpending hk) rfl⟩

theorem runTask_agrees (hx : x.Latched fired) (h : Agrees fired asked (k :: others) s) :
    Agrees fired asked ((x.runTask k s).1 :: others) (x.runTask k s).2 := by
  rcases h with hfired | h
  · exact .inl (runTask_fired hx hfired)
  cases hk : k.progress with
  | built w made =>
      have hpending : k.progress.isPending = true := by rw [hk]; rfl
      rw [runTask_built hk rfl]
      exact finish_agrees hx h hpending _ _ _
  | _ =>
      rw [runTask_other (by rw [hk]; rfl)]
      exact .inr h

/-- The first pass takes in one task for each partition. `done` are those taken in before. -/
theorem recallAll_agreed {ps : List Partition} (seen : List String) {done : List Task}
    (hseen : Awaits seen done) (h : Agreed asked done s) :
    Agreed (ps.map (·.signature) ++ asked) ((x.recallAll seen ps s).1 ++ done)
      (x.recallAll seen ps s).2 := by
  induction ps generalizing seen done asked s with
  | nil => exact h
  | cons p rest ih =>
      cases hknown : s.remembered? p.signature with
      | some o =>
          have hnoted := record_agreed (x := x) h hknown
          have hadd := hnoted.owing.add (k := ⟨p, p.signature, .settled o⟩) rfl
            (fun hpending => by simp [Progress.isPending] at hpending)
            (fun _ => .inl (Session.mem_signatures hknown))
          have hrest := ih seen (hseen.skip rfl) ⟨hnoted.recalls, hadd⟩
          rw [recallAll_known hknown rfl]
          exact ⟨hrest.recalls, hrest.owing.perm List.perm_middle List.perm_middle⟩
      | none =>
          have hnew := Session.remembered?_eq_none.mp hknown
          by_cases hfirst : p.signature ∈ seen
          · have hadd := h.owing.add (k := ⟨p, p.signature, .repeated⟩) rfl
              (fun hpending => by simp [Progress.isPending] at hpending)
              (fun _ => .inr ((hseen _).mp hfirst))
            have hrest := ih seen (hseen.skip rfl) ⟨h.recalls, hadd⟩
            rw [recallAll_repeated hknown hfirst rfl]
            exact ⟨hrest.recalls, hrest.owing.perm List.perm_middle List.perm_middle⟩
          · have hadd := h.owing.add (k := ⟨p, p.signature, .waiting⟩) rfl
              (fun _ => ⟨hnew, fun k' hk' hpending heq =>
                hfirst ((hseen _).mpr ⟨k', hk', hpending, heq⟩)⟩)
              (fun hpending => by simp [Progress.isPending] at hpending)
            have hrest := ih _ (hseen.push rfl) ⟨h.recalls, hadd⟩
            rw [recallAll_new hknown hfirst rfl]
            exact ⟨hrest.recalls, hrest.owing.perm List.perm_middle List.perm_middle⟩

/-- In the last pass nothing is owed, so what is repeated is remembered by now. -/
theorem settleTask_agrees (hx : x.Latched fired) (h : Agrees fired asked (k :: others) s)
    (hdone : ∀ k' ∈ k :: others, k'.progress.isPending = false) :
    Agrees fired asked others (x.settleTask k s).2 := by
  rcases h with hfired | h
  · exact .inl (settleTask_fired hx hfired)
  obtain ⟨hsignature, hasked⟩ := h.owing.tasked k List.mem_cons_self
  have hothers : Agreed asked others s := ⟨h.recalls, h.owing.drop (hdone k List.mem_cons_self)⟩
  have hmem : k.signature ∈ s.signatures := by
    rcases h.owing.covered _ hasked with hmem | ⟨k', hk', hpending, -⟩
    · exact hmem
    · simp [hdone k' hk'] at hpending
  obtain ⟨o, ho⟩ := Option.ne_none_iff_exists'.mp
    fun hnone => Session.remembered?_eq_none.mp hnone hmem
  cases hk : k.progress with
  | settled o' =>
      rw [settleTask, hk]
      exact .inr hothers
  | repeated =>
      rw [settleTask, hk]
      refine .inr (record_agreed hothers ?_)
      rw [ho, ← hsignature]
      exact ho
  | waiting => simp [hk, Progress.isPending] at hdone
  | built w made => simp [hk, Progress.isPending] at hdone

theorem settleAll_agrees (hx : x.Latched fired) {tasks : List Task}
    (h : Agrees fired asked tasks s) (hdone : ∀ k ∈ tasks, k.progress.isPending = false) :
    Agrees fired asked [] (tasks.mapM x.settleTask s).2 := by
  induction tasks generalizing s with
  | nil => exact h
  | cons k tasks ih =>
      rw [List.mapM_cons]
      exact ih (settleTask_agrees hx h hdone) (List.forall_mem_cons.mp hdone).2

/-- What is recorded after a batch agrees if it did before, or there was a request to stop. -/
theorem batch_agrees (hx : x.Latched fired) (ps : List Partition)
    (h : Agrees fired [] [] s) : Agrees fired [] [] (x.batch ps s).2 := by
  rcases h with hfired | h
  · exact .inl (batch_keeps hx.keeps (fun _ _ => trivial) hfired)
  rcases hrecall : x.recallAll [] ps s with ⟨tasks, s₁⟩
  have h₁ : Agreed (ps.map (·.signature) ++ []) ((x.recallAll [] ps s).1 ++ [])
      (x.recallAll [] ps s).2 := recallAll_agreed [] .nil h
  rw [hrecall] at h₁
  -- What is asked for in this batch is owed while the batch is under way.
  let J := Agrees fired (ps.map (·.signature) ++ [])
  have hperm : ∀ {ks ks' : List Task} {s : Session σ}, ks.Perm ks' → J ks s → J ks' s :=
    fun hks h => h.imp_right (Agreed.perm hks)
  have h₂ := mapM_tasks (J := J) hperm (buildTask_agrees hx) (.inr h₁)
  rcases hbuild : tasks.mapM x.buildTask s₁ with ⟨built, s₂⟩
  rw [hbuild] at h₂
  have h₃ := mapM_tasks (J := J) hperm (runTask_agrees hx) h₂
  rcases hrun : built.mapM x.runTask s₂ with ⟨ran, s₃⟩
  rw [hrun, List.append_nil] at h₃
  rw [batch_of_passes hrecall hbuild hrun]
  have h₄ := settleAll_agrees hx h₃ (not_pending_of_passes hbuild hrun)
  exact h₄.imp_right fun h₄ => ⟨h₄.recalls, Owing.idle h₄.owing.distinct⟩

end Experiment

/-- Records of one signature tell one outcome. -/
theorem Session.Recalls.agree {s : Session σ} (h : s.Recalls) {t t' : Trial} (ht : t ∈ s.trials)
    (ht' : t' ∈ s.trials) (hsignature : t.signature = t'.signature) {o : Outcome}
    (ho : t'.Tells o) : t.Tells o := by
  obtain ⟨o₁, hknown, htells⟩ := h.tells t ht
  obtain ⟨o₂, hknown', htells'⟩ := h.tells t' ht'
  obtain rfl : o₁ = o₂ := by
    rw [hsignature, hknown'] at hknown
    exact (Option.some.inj hknown).symm
  exact ⟨htells.1.trans (htells'.1.symm.trans ho.1), htells.2.trans (htells'.2.symm.trans ho.2)⟩

end Culprit
