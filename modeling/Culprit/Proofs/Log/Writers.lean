import Culprit.Proofs.Log.Appending
import Mathlib.Logic.Function.Basic
import Mathlib.Logic.Relation

/-!
Many writers that append to one log at the same time. A writer whose record is of another version is
refused at once. The others wait for the lock, and whoever holds it makes the directory, opens the
file and writes the line, which may take any number of writes. The steps of the writers interleave
in any way.

Nobody but the holder of the lock touches the file, so the file is always what it would be if the
records had been appended one after the other, in the order in which the lock was taken.
-/

namespace Culprit.TrialLog

open Attempt (runOn)

variable {ι : Type} {path : String} {t : Trial} {rest : List Trial} {m m' : Machine}

/-- How far the holder of the lock has come. -/
inductive Grip where
  | locked
  /-- The directory is there. -/
  | housed
  /-- The file is open, and this is still to be written. -/
  | writing (left : String)

/-- What the holder of the lock did to the machine `m` it found. -/
def Grip.Reached (path : String) (t : Trial) (m : Machine) : Grip → Machine → Prop
  | .locked, m' => m' = m
  | .housed, m' => makeParent path m = (.ok (), m')
  | .writing left, m' => ∃ m₁ written, makeParent path m = (.ok (), m₁) ∧
      Machine.appendText path written m₁ = (.ok (), m') ∧ written ++ left = line t

/-- What a writer has still to append, and what it was told so far. -/
structure Writer where
  todo : List Trial
  told : List (Trial × Except Error Unit)

structure Writers (ι : Type) where
  machine : Machine
  writer : ι → Writer
  lock : Option (ι × Trial × Grip)
  /-- Who took the lock, in this order, and for which record. -/
  order : List (ι × Trial)

/-- What is told about a record. -/
def answer (t : Trial) : Except Error Unit :=
  if t.version = Trial.formatVersion then .ok () else .error (.logVersion t.version)

/-- The records that get into the log. -/
def accepted (ts : List Trial) : List Trial :=
  ts.filter fun t => t.version = Trial.formatVersion

theorem accepted_append (ts ts' : List Trial) :
    accepted (ts ++ ts') = accepted ts ++ accepted ts' :=
  List.filter_append ..

theorem accepted_single (h : t.version = Trial.formatVersion) : accepted [t] = [t] := by
  simp [accepted, h]

theorem accepted_refused (h : t.version ≠ Trial.formatVersion) : accepted [t] = [] := by
  simp [accepted, h]

namespace Writers

variable {w w' : Writers ι} {queue : ι → List Trial} {i j : ι}

/-- Nothing was appended yet. -/
def opening (m : Machine) (queue : ι → List Trial) : Writers ι :=
  ⟨m, fun i => ⟨queue i, []⟩, none, []⟩

/-- The records that went into the log or are on their way. -/
def logged (w : Writers ι) : List Trial :=
  w.order.map (·.2)

section Steps

variable [DecidableEq ι]

/-- One atomic step, with all of its input and output successful. -/
inductive Step (path : String) (w : Writers ι) : Writers ι → Prop
  | refuse (i : ι) (t : Trial) (rest : List Trial) : (∀ t g, w.lock ≠ some (i, t, g)) →
      (w.writer i).todo = t :: rest → t.version ≠ Trial.formatVersion →
      Step path w { w with
        writer := Function.update w.writer i
          ⟨rest, (w.writer i).told ++ [(t, .error (.logVersion t.version))]⟩ }
  | enter (i : ι) (t : Trial) (rest : List Trial) : w.lock = none →
      (w.writer i).todo = t :: rest → t.version = Trial.formatVersion →
      Step path w { w with
        writer := Function.update w.writer i ⟨rest, (w.writer i).told⟩
        lock := some (i, t, .locked)
        order := w.order ++ [(i, t)] }
  | house (i : ι) (t : Trial) (m : Machine) : w.lock = some (i, t, .locked) →
      makeParent path w.machine = (.ok (), m) →
      Step path w { w with machine := m, lock := some (i, t, .housed) }
  | create (i : ι) (t : Trial) (m : Machine) : w.lock = some (i, t, .housed) →
      Machine.appendText path "" w.machine = (.ok (), m) →
      Step path w { w with machine := m, lock := some (i, t, .writing (line t)) }
  | write (i : ι) (t : Trial) (piece left : String) (m : Machine) :
      w.lock = some (i, t, .writing (piece ++ left)) →
      Machine.appendText path piece w.machine = (.ok (), m) →
      Step path w { w with machine := m, lock := some (i, t, .writing left) }
  | leave (i : ι) (t : Trial) : w.lock = some (i, t, .writing "") →
      Step path w { w with
        writer := Function.update w.writer i
          ⟨(w.writer i).todo, (w.writer i).told ++ [(t, .ok ())]⟩
        lock := none }

/-- Any interleaving. -/
abbrev Steps (path : String) : Writers ι → Writers ι → Prop :=
  Relation.ReflTransGen (Step path)

end Steps

/-! ### One after the other -/

/-- The machine is where appending one record after the other would have brought it, but for what
the holder of the lock has done. -/
def InOrder (path : String) (m : Machine) (w : Writers ι) : Prop :=
  match w.lock with
  | none => runOn (forM w.logged (append path)) m = (.ok (), w.machine)
  | some (i, t, g) => t.version = Trial.formatVersion ∧ ∃ before m₁,
      w.order = before ++ [(i, t)] ∧
      runOn (forM (before.map (·.2)) (append path)) m = (.ok (), m₁) ∧
      Grip.Reached path t m₁ g w.machine

theorem inOrder_opening (path : String) (m : Machine) (queue : ι → List Trial) :
    InOrder path m (opening m queue) :=
  rfl

theorem InOrder.free (h : InOrder path m w) (hlock : w.lock = none) :
    runOn (forM w.logged (append path)) m = (.ok (), w.machine) := by
  rwa [InOrder, hlock] at h

theorem InOrder.held {g : Grip} (h : InOrder path m w) (hlock : w.lock = some (i, t, g)) :
    t.version = Trial.formatVersion ∧ ∃ before m₁, w.order = before ++ [(i, t)] ∧
      runOn (forM (before.map (·.2)) (append path)) m = (.ok (), m₁) ∧
      g.Reached path t m₁ w.machine := by
  rwa [InOrder, hlock] at h

variable [DecidableEq ι]

theorem InOrder.step (h : InOrder path m w) (hstep : Step path w w') : InOrder path m w' := by
  cases hstep with
  | refuse i t rest hidle htodo hversion => exact h
  | enter i t rest hlock htodo hversion => exact ⟨hversion, w.order, _, rfl, h.free hlock, rfl⟩
  | house i t m' hlock hparent =>
      obtain ⟨hversion, before, m₁, horder, hbefore, hreached⟩ := h.held hlock
      have hfound : w.machine = m₁ := hreached
      exact ⟨hversion, before, m₁, horder, hbefore, hfound ▸ hparent⟩
  | create i t m' hlock hwrite =>
      obtain ⟨hversion, before, m₁, horder, hbefore, hparent⟩ := h.held hlock
      exact ⟨hversion, before, m₁, horder, hbefore, _, "", hparent, hwrite, String.empty_append⟩
  | write i t piece left m' hlock hwrite =>
      obtain ⟨hversion, before, m₁, horder, hbefore, m₂, written, hparent, hwritten, hline⟩ :=
        h.held hlock
      refine ⟨hversion, before, m₁, horder, hbefore, m₂, written ++ piece, hparent,
        Machine.appendText_append hwritten hwrite, ?_⟩
      rw [String.append_assoc, hline]
  | leave i t hlock =>
      obtain ⟨hversion, before, m₁, horder, hbefore, m₂, written, hparent, hwritten, hline⟩ :=
        h.held hlock
      rw [String.append_empty] at hline
      subst hline
      show runOn (forM w.logged (append path)) m = (.ok (), w.machine)
      rw [logged, horder, List.map_append]
      exact forM_concat.mpr ⟨m₁, hbefore, append_ok_iff.mpr ⟨hversion, m₂, hparent, hwritten⟩⟩

theorem InOrder.steps (h : InOrder path m w) (hsteps : Steps path w w') : InOrder path m w' := by
  induction hsteps with
  | refl => exact h
  | tail _ hstep ih => exact ih.step hstep

/-! ### What a writer is told -/

/-- The record with which a writer holds the lock. -/
def pending (w : Writers ι) (i : ι) : List Trial :=
  match w.lock with
  | some (j, t, _) => if j = i then [t] else []
  | none => []

theorem pending_free (h : w.lock = none) (i : ι) : w.pending i = [] := by
  rw [pending, h]

theorem pending_held {g : Grip} (h : w.lock = some (j, t, g)) (i : ι) :
    w.pending i = if j = i then [t] else [] := by
  rw [pending, h]

theorem pending_idle (h : ∀ t g, w.lock ≠ some (i, t, g)) : w.pending i = [] := by
  rw [pending]
  split
  · next j t g hlock =>
      rw [if_neg]
      rintro rfl
      exact h t g hlock
  · rfl

/-- The records for which a writer took the lock. -/
def turns (order : List (ι × Trial)) (i : ι) : List Trial :=
  (order.filter (·.1 = i)).map (·.2)

theorem turns_concat (order : List (ι × Trial)) (j : ι) (t : Trial) (i : ι) :
    turns (order ++ [(j, t)]) i = turns order i ++ if j = i then [t] else [] := by
  by_cases h : j = i <;> simp [turns, h]

/-- The calls of a writer are answered one after the other, and its records are logged in the order
of its calls. -/
def Served (queue : ι → List Trial) (w : Writers ι) (i : ι) : Prop :=
  ∃ done, (w.writer i).told = done.map (fun t => (t, answer t)) ∧
    queue i = done ++ w.pending i ++ (w.writer i).todo ∧
    turns w.order i = accepted done ++ w.pending i

theorem served_opening (m : Machine) (queue : ι → List Trial) (i : ι) :
    Served queue (opening m queue) i :=
  ⟨[], rfl, rfl, rfl⟩

/-- Nothing that concerns the writer has changed. -/
theorem Served.congr (h : Served queue w i) (hwriter : w'.writer i = w.writer i)
    (hpending : w'.pending i = w.pending i) (hturns : turns w'.order i = turns w.order i) :
    Served queue w' i := by
  rw [Served, hwriter, hpending, hturns]
  exact h

theorem Served.step (h : Served queue w i) (horder : InOrder path m w) (hstep : Step path w w') :
    Served queue w' i := by
  cases hstep with
  | refuse j t rest hidle htodo hversion =>
      by_cases hji : j = i
      · subst hji
        obtain ⟨done, htold, hqueue, hturns⟩ := h
        rw [pending_idle hidle] at hqueue hturns
        refine ⟨done ++ [t], ?_, ?_, ?_⟩
        · simp [htold, answer, hversion]
        · show _ = done ++ [t] ++ w.pending j ++ (Function.update w.writer j _ j).todo
          simp [hqueue, htodo, pending_idle hidle]
        · show _ = _ ++ w.pending j
          simp [hturns, pending_idle hidle, accepted_append, accepted_refused hversion]
      · exact h.congr (Function.update_of_ne (Ne.symm hji) ..) rfl rfl
  | enter j t rest hlock htodo hversion =>
      by_cases hji : j = i
      · subst hji
        obtain ⟨done, htold, hqueue, hturns⟩ := h
        rw [pending_free hlock] at hqueue hturns
        refine ⟨done, ?_, ?_, ?_⟩
        · simpa using htold
        · rw [pending_held rfl, if_pos rfl]
          simp [hqueue, htodo]
        · rw [pending_held rfl, if_pos rfl, turns_concat, if_pos rfl, hturns, List.append_nil]
      · refine h.congr (Function.update_of_ne (Ne.symm hji) ..) ?_ ?_
        · rw [pending_held rfl, if_neg hji, pending_free hlock]
        · rw [turns_concat, if_neg hji, List.append_nil]
  | house j t m' hlock hparent =>
      exact h.congr rfl ((pending_held rfl i).trans (pending_held hlock i).symm) rfl
  | create j t m' hlock hwrite =>
      exact h.congr rfl ((pending_held rfl i).trans (pending_held hlock i).symm) rfl
  | write j t piece left m' hlock hwrite =>
      exact h.congr rfl ((pending_held rfl i).trans (pending_held hlock i).symm) rfl
  | leave j t hlock =>
      have hversion := (horder.held hlock).1
      by_cases hji : j = i
      · subst hji
        obtain ⟨done, htold, hqueue, hturns⟩ := h
        rw [pending_held hlock, if_pos rfl] at hqueue hturns
        refine ⟨done ++ [t], ?_, ?_, ?_⟩
        · simp [htold, answer, hversion]
        · rw [pending_free rfl]
          simp [hqueue]
        · rw [pending_free rfl, accepted_append, accepted_single hversion, List.append_nil, hturns]
      · refine h.congr (Function.update_of_ne (Ne.symm hji) ..) ?_ rfl
        rw [pending_free rfl, pending_held hlock, if_neg hji]

theorem Served.steps (h : Served queue w i) (horder : InOrder path m w)
    (hsteps : Steps path w w') : Served queue w' i := by
  induction hsteps with
  | refl => exact h
  | tail hsteps hstep ih => exact ih.step (horder.steps hsteps) hstep

/-! ### A writer on its own -/

/-- A writer that nobody gets in the way of does what `append` does. -/
theorem undisturbed_append (hlock : w.lock = none) (htodo : (w.writer i).todo = t :: rest)
    (h : runOn (append path t) w.machine = (.ok (), m')) :
    ∃ w', Steps path w w' ∧ w'.machine = m' ∧ w'.lock = none ∧ w'.order = w.order ++ [(i, t)] ∧
      ∀ j, j ≠ i → w'.writer j = w.writer j := by
  obtain ⟨hversion, m₁, hparent, hwrite⟩ := append_ok_iff.mp h
  obtain ⟨m₂, hopen, hline⟩ := Machine.appendText_empty hwrite
  refine ⟨_, .tail (.tail (.tail (.tail (.tail .refl (.enter i t rest hlock htodo hversion))
    (.house i t m₁ rfl hparent)) (.create i t m₂ rfl hopen))
    (.write i t (line t) "" m' ?_ hline)) (.leave i t rfl), rfl, rfl, rfl, ?_⟩
  · rw [String.append_empty]
  · intro j hj
    simp [Function.update_of_ne hj]

/-- What is logged was to be appended by some writer and is of the right version. -/
theorem Served.of_mem_logged (h : ∀ i, Served queue w i) (hlock : w.lock = none)
    (ht : t ∈ w.logged) : ∃ i, t ∈ queue i ∧ t.version = Trial.formatVersion := by
  obtain ⟨⟨i, t⟩, hmem, rfl⟩ := List.mem_map.mp ht
  obtain ⟨done, -, hqueue, hturns⟩ := h i
  have hturn : t ∈ turns w.order i :=
    List.mem_map.mpr ⟨(i, t), List.mem_filter.mpr ⟨hmem, by simp⟩, rfl⟩
  rw [hturns, pending_free hlock, List.append_nil] at hturn
  obtain ⟨hdone, hversion⟩ := List.mem_filter.mp hturn
  exact ⟨i, by simp [hqueue, hdone], by simpa using hversion⟩

end Writers

/-! ### Logs survive any interleaving -/

/-- Any number of writers append to a fresh log, and their steps interleave in any way. Each writer
has its calls answered in order: a record of another version is refused, the others are accepted.
Whenever nobody holds the lock, the accepted records of each writer are logged in the order of its
calls, and the machine is where appending the records one after the other would have brought it, in
the order in which the lock was taken. If there are any, the file holds just their lines, one for
each, and is read as these records; else nothing has changed at all, and there is no file. A record
of another version never changes anything, and a writer that nobody gets in the way of does what
`append` does. -/
theorem append_together [DecidableEq ι] (path : String) (queue : ι → List Trial) {m : Machine}
    (hfresh : Fresh path m)
    (hlegible : ∀ i, ∀ t ∈ queue i, t.version = Trial.formatVersion → t.Legible)
    {w : Writers ι} (h : Writers.Steps path (Writers.opening m queue) w) :
    (∀ i, ∃ done, (w.writer i).told = done.map (fun t => (t, answer t)) ∧
      queue i = done ++ w.pending i ++ (w.writer i).todo) ∧
    (w.lock = none →
      (∀ i, Writers.turns w.order i = accepted ((w.writer i).told.map (·.1))) ∧
      runOn (forM w.logged (append path)) m = (.ok (), w.machine) ∧
      (w.logged ≠ [] →
        Machine.read path w.machine = (.ok (textOf w.logged).toUTF8, w.machine) ∧
        linesOf (splitLines (textOf w.logged).toUTF8.toList) =
          w.logged.map (fun t => t.toJson.compact.toUTF8.toList) ∧
        runOn (readAll path) w.machine = (.ok w.logged, w.machine)) ∧
      (w.logged = [] → w.machine = m ∧
        runOn (readAll path) w.machine = (.error (.logMissing path), w.machine))) ∧
    (∀ t m', t.version ≠ Trial.formatVersion →
      runOn (append path t) m' = (.error (.logVersion t.version), m')) ∧
    ∀ i t rest m', w.lock = none → (w.writer i).todo = t :: rest →
      runOn (append path t) w.machine = (.ok (), m') →
      ∃ w', Writers.Steps path w w' ∧ w'.machine = m' ∧ w'.lock = none ∧
        w'.order = w.order ++ [(i, t)] ∧ ∀ j, j ≠ i → w'.writer j = w.writer j := by
  have hopening := Writers.inOrder_opening path m queue
  have horder := hopening.steps h
  have hserved (i : ι) : Writers.Served queue w i :=
    (Writers.served_opening m queue i).steps hopening h
  refine ⟨fun i => ?_, fun hlock => ⟨fun i => ?_, horder.free hlock, fun hsome => ?_,
      fun hnone => ?_⟩, fun t m' => append_refused,
    fun i t rest m' hlock htodo happend => Writers.undisturbed_append hlock htodo happend⟩
  · obtain ⟨done, htold, hqueue, -⟩ := hserved i
    exact ⟨done, htold, hqueue⟩
  · obtain ⟨done, htold, -, hturns⟩ := hserved i
    have hdone : (w.writer i).told.map (·.1) = done := by
      rw [htold, List.map_map]
      exact List.map_id done
    rw [hturns, hdone, Writers.pending_free hlock, List.append_nil]
  · obtain ⟨hempty, -⟩ | ⟨-, hholds⟩ := holds_appended hfresh (horder.free hlock)
    · exact absurd hempty hsome
    refine ⟨hholds.read, lines_textOf w.logged, readAll_holds hholds fun t ht => ?_⟩
    obtain ⟨i, hmem, hversion⟩ := Writers.Served.of_mem_logged hserved hlock ht
    exact hlegible i t hmem hversion
  · obtain ⟨-, hsame⟩ | ⟨hsome, -⟩ := holds_appended hfresh (horder.free hlock)
    · rw [hsame]
      exact ⟨rfl, readAll_missing hfresh.missing⟩
    · exact absurd hnone hsome

/-- A record of a failure whose key and detail have line breaks, quotes and more in them. -/
def brokenBuild : Trial :=
  .ofOutcome 1 ⟨.units, ["a\n\"é\".cpp"], []⟩ (.error ⟨.build, "ld:\r\n\t\x07 error"⟩) (some 12)
    none false

def halfScore : Trial :=
  .ofOutcome 3 ⟨.units, [], ["a.cpp"]⟩ (.ok ⟨0.5⟩) (some (Nat.pow 2 100)) (some 0) true

/-- The second writer begins with a record of another version. -/
def twoQueues : Bool → List Trial
  | true => [brokenBuild]
  | false => [{ halfScore with version := 999 }, halfScore]

theorem legible_twoQueues :
    ∀ i, ∀ t ∈ twoQueues i, t.version = Trial.formatVersion → t.Legible := by
  have hbroken : brokenBuild.Legible :=
    Trial.legible_ofOutcome (by decide) (by decide) nofun (by decide) nofun
  have hhalf : halfScore.Legible := by
    refine Trial.legible_ofOutcome (by decide) (by decide) ?_ (by decide) (by decide)
    rintro s ⟨⟩
    show Json.Exact 0.5
    decide +kernel
  rintro (_ | _) t ht hversion
  · rcases List.mem_cons.mp ht with rfl | ht
    · cases hversion
    · exact List.mem_singleton.mp ht ▸ hhalf
  · exact List.mem_singleton.mp ht ▸ hbroken

theorem append_together_twoWriters :
    ∃ w, Writers.Steps "t.jsonl" (Writers.opening (.start "/" .empty) twoQueues) w ∧
      w.lock = none ∧ w.logged = [brokenBuild, halfScore] ∧
      runOn (readAll "t.jsonl") w.machine = (.ok w.logged, w.machine) := by
  have hopen : (Machine.appendText "t.jsonl" "" (.start "/" .empty)).1 = .ok () := rfl
  rcases hcreate : Machine.appendText "t.jsonl" "" (.start "/" .empty) with ⟨made, m₁⟩
  rw [hcreate] at hopen
  subst hopen
  have hempty : m₁.Holds "t.jsonl" "" := Machine.holds_of_new rfl hcreate
  obtain ⟨m₂, hrecord, hheld⟩ := hempty.append brokenBuild.toJson.compact
  obtain ⟨m₃, hbreak, hheld⟩ := hheld.append "\n"
  obtain ⟨m₄, hlast, -⟩ := hheld.append (line halfScore)
  have happend : runOn (append "t.jsonl" halfScore) m₃ = (.ok (), m₄) :=
    append_ok_iff.mpr ⟨rfl, m₃, rfl, hlast⟩
  -- The refusal comes while the first writer is at its line.
  obtain ⟨w₁, hfirst, rfl, hfree, htodo, horder₁⟩ :
      ∃ w₁, Writers.Steps "t.jsonl" (Writers.opening (.start "/" .empty) twoQueues) w₁ ∧
        w₁.machine = m₃ ∧ w₁.lock = none ∧ (w₁.writer false).todo = [halfScore] ∧
        w₁.order = [(true, brokenBuild)] :=
    ⟨_, .tail (.tail (.tail (.tail (.tail (.tail (.tail .refl
      (.enter true brokenBuild [] rfl rfl rfl))
      (.house true brokenBuild _ rfl rfl))
      (.create true brokenBuild m₁ rfl hcreate))
      (.write true brokenBuild brokenBuild.toJson.compact "\n" m₂ rfl hrecord))
      (.refuse false _ _ nofun rfl (by decide)))
      (.write true brokenBuild "\n" "" m₃ rfl hbreak))
      (.leave true brokenBuild rfl), rfl, rfl, rfl, rfl⟩
  obtain ⟨w, hsecond, -, hlock, horder, -⟩ := Writers.undisturbed_append hfree htodo happend
  have hsteps := hfirst.trans hsecond
  have hlogged : w.logged = [brokenBuild, halfScore] := by
    rw [Writers.logged, horder, horder₁]
    rfl
  refine ⟨w, hsteps, hlock, hlogged, ?_⟩
  have hfresh : Fresh "t.jsonl" (.start "/" .empty) := rfl
  obtain ⟨-, hover, -⟩ := append_together "t.jsonl" twoQueues hfresh legible_twoQueues hsteps
  exact ((hover hlock).2.2.1 (by simp [hlogged])).2.2

end Culprit.TrialLog
