import Culprit.Proofs.Workspace.Entries
import Culprit.Proofs.Workspace.Yard

/-!
Names of workspaces. Whatever text a workspace is labelled with, its name begins with at most sixty
characters of an alphabet without slashes and dots, and a dash. So every workspace is an entry of
the directory that they are made in, for as long as somebody holds it and until it is removed,
however the holders take turns.
-/

namespace Culprit

variable {σ : Type}

/-! ### Labels -/

namespace Workspace

/-- An ASCII letter or digit, a dash or an underscore. -/
def IsSafe (c : Char) : Prop :=
  c.isAlphanum = true ∨ c = '-' ∨ c = '_'

instance : DecidablePred IsSafe :=
  fun _ => inferInstanceAs (Decidable (_ ∨ _ ∨ _))

theorem isSafe_labelChar (c : Char) : IsSafe (labelChar c) := by
  rw [labelChar]
  split_ifs with h
  · simpa [IsSafe, or_assoc] using h
  · exact .inr (.inr rfl)

theorem cleanLabel_ne_empty (label : String) : cleanLabel label ≠ "" := by
  rw [cleanLabel]
  split_ifs with h
  · decide
  · simpa using h

theorem length_cleanLabel_le (label : String) : (cleanLabel label).length ≤ 60 := by
  rw [cleanLabel]
  split_ifs
  · decide
  · rw [String.length_ofList]
    exact List.length_take_le 60 _

theorem isSafe_of_mem_cleanLabel {label : String} {c : Char} (h : c ∈ (cleanLabel label).toList) :
    IsSafe c := by
  rw [cleanLabel] at h
  split_ifs at h
  · revert c
    simp [IsSafe]
  · rw [String.toList_ofList] at h
    obtain ⟨c, -, rfl⟩ := List.mem_map.mp (List.mem_of_mem_take h)
    exact isSafe_labelChar c

/-- What the name of a workspace may begin with: something from the alphabet and a dash. -/
structure Opening (start : String) : Prop where
  nonempty : 1 < start.length
  short : start.length ≤ 61
  safe : ∀ c ∈ start.toList, IsSafe c

theorem opening_cleanLabel (label : String) : Opening (cleanLabel label ++ "-") where
  nonempty := by
    have hlength : (cleanLabel label).length ≠ 0 := by simpa using cleanLabel_ne_empty label
    rw [String.length_append]
    exact Nat.add_lt_add_right (Nat.pos_of_ne_zero hlength) 1
  short := by
    rw [String.length_append]
    exact Nat.add_le_add_right (length_cleanLabel_le label) 1
  safe c hc := by
    rw [String.toList_append, List.mem_append] at hc
    rcases hc with hc | hc
    · exact isSafe_of_mem_cleanLabel hc
    · revert c
      simp [IsSafe]

example : cleanLabel "g++ -O3/a.cpp" = "g___-O3_a_cpp" := by decide

theorem plain_of_isSafe {name : String} (hne : name ≠ "") (h : ∀ c ∈ name.toList, IsSafe c) :
    Path.Plain name where
  noSlash hmem := absurd (h '/' hmem) (by decide)
  ne_empty := hne
  ne_here heq := absurd (h '.' (by simp [heq])) (by decide)
  ne_up heq := absurd (h '.' (by simp [heq])) (by decide)

/-- The path is that of an entry of `root` whose name begins with the label, as far as it can stand
in a name. Letters and digits follow. -/
def Placed (root label path : String) : Prop :=
  ∃ ending : String, (∀ c ∈ ending.toList, c.isAlphanum = true) ∧
    Path.Child root (cleanLabel label ++ "-" ++ ending) path

theorem placed_join {root label ending : String} (hroot : root ≠ "")
    (hending : ∀ c ∈ ending.toList, c.isAlphanum = true) :
    Placed root label (Path.join root (cleanLabel label ++ "-" ++ ending)) := by
  have hsafe : ∀ c ∈ (cleanLabel label ++ "-" ++ ending).toList, IsSafe c := by
    intro c hc
    rw [String.toList_append, List.mem_append] at hc
    exact hc.elim ((opening_cleanLabel label).safe c) fun hc => .inl (hending c hc)
  exact ⟨ending, hending, Path.child_join (plain_of_isSafe (by simp) hsafe) hroot⟩

end Workspace

/-! ### Where workspaces are made -/

theorem Site.exists_of_acquire {lab : Lab σ} {label : String} {w : Workspace} {s s' : Site σ}
    (h : (acquire lab label).runOn s = (.ok w, s')) :
    ∃ path v,
      (lab.makeDirectory (Workspace.cleanLabel label ++ "-")).runOn s.world = (.ok path, v) ∧
        w = { path := path } ∧ s' = ⟨v, s.ledger.enter⟩ := by
  rcases hmake : (lab.makeDirectory (Workspace.cleanLabel label ++ "-")).runOn s.world with
    ⟨fault | path, v⟩
  · rw [acquire_error lab hmake] at h
    cases h
  · rw [acquire_ok lab hmake] at h
    obtain ⟨hw, rfl⟩ := Prod.mk.inj h
    exact ⟨path, v, rfl, (Except.ok.inj hw).symm, rfl⟩

/-- Directories are made at paths that are joined to `root`: letters and digits are put behind the
text that their names are to begin with. -/
structure Lab.MakesIn (lab : Lab σ) (root : String) : Prop where
  rooted : Path.isAbsolute root = true
  made {w w' : σ} {start path : String} : (lab.makeDirectory start).runOn w = (.ok path, w') →
    ∃ ending : String, (∀ c ∈ ending.toList, c.isAlphanum = true) ∧
      path = Path.join root (start ++ ending)

namespace Lab.MakesIn

variable {lab : Lab σ} {root label path : String}

theorem placed (h : lab.MakesIn root) {w w' : σ}
    (hmake : (lab.makeDirectory (Workspace.cleanLabel label ++ "-")).runOn w = (.ok path, w')) :
    Workspace.Placed root label path := by
  obtain ⟨ending, hending, rfl⟩ := h.made hmake
  exact Workspace.placed_join (by simpa using Path.isEmpty_of_isAbsolute h.rooted) hending

theorem placed_acquire (h : lab.MakesIn root) {w : Workspace} {s s' : Site σ}
    (hacquire : (Site.acquire lab label).runOn s = (.ok w, s')) :
    Workspace.Placed root label w.path := by
  obtain ⟨path, v, hmake, rfl, -⟩ := Site.exists_of_acquire hacquire
  exact h.placed hmake

end Lab.MakesIn

/-! ### Many holders -/

namespace Tenure

variable {lab : Lab σ} {root label : String} {t : Tenure}

/-- The directory that its holder has, or is about to remove. -/
def path? : Tenure → Option String
  | .away _ => none
  | .named path => some path
  | .entered path => some path
  | .counted path _ => some path
  | .keeping w => some w.path
  | .clearing path => some path

/-- Whoever asks, asks with the label; whoever has a directory, has one with the label. -/
structure Sited (root label : String) (t : Tenure) : Prop where
  asked : ∀ asked, t = .away asked → asked = label
  placed : ∀ path ∈ t.path?, Workspace.Placed root label path

theorem sited_of_path {path : String} (hpath : t.path? = some path)
    (h : Workspace.Placed root label path) : t.Sited root label where
  asked asked heq := by
    rw [heq] at hpath
    cases hpath
  placed path' hpath' := by
    rw [Option.mem_def, hpath] at hpath'
    exact Option.some.inj hpath' ▸ h

theorem Sited.advance (hlab : lab.MakesIn root) (h : t.Sited root label) (s : Site σ) :
    (advance lab (t, s)).1.Sited root label := by
  cases t with
  | away asked =>
      obtain rfl := h.asked asked rfl
      rcases hmake : (lab.makeDirectory (Workspace.cleanLabel asked ++ "-")).runOn s.world with
        ⟨fault | path, w⟩
      · rw [Tenure.advance, hmake]
        exact h
      · rw [Tenure.advance, hmake]
        exact sited_of_path rfl (hlab.placed hmake)
  | named path => exact sited_of_path rfl (h.placed path rfl)
  | entered path => exact sited_of_path rfl (h.placed path rfl)
  | counted path now => exact sited_of_path rfl (h.placed path rfl)
  | keeping w =>
      obtain ⟨path, _ | _⟩ := w
      · exact h
      · exact sited_of_path rfl (h.placed path rfl)
  | clearing path => exact sited_of_path rfl (h.placed path rfl)

end Tenure

namespace Yard

variable {lab : Lab σ} {root : String} {labels : List String} {y : Yard σ}

/-- Every holder has a directory with the label that it came with. -/
def Sited (root : String) (labels : List String) (y : Yard σ) : Prop :=
  ∀ (i : Nat) (t : Tenure), y.tenures[i]? = some t →
    ∃ label, labels[i]? = some label ∧ t.Sited root label

theorem sited_opening (root : String) (labels : List String) (world : σ) :
    (opening labels world).Sited root labels := by
  intro i t ht
  rw [opening, List.getElem?_map, Option.map_eq_some_iff] at ht
  obtain ⟨label, hlabel, rfl⟩ := ht
  refine ⟨label, hlabel, fun _ heq => (Tenure.away.inj heq).symm, fun path hpath => ?_⟩
  cases hpath

theorem Sited.step (hlab : lab.MakesIn root) (h : y.Sited root labels) (a : Act σ) :
    (y.step lab a).Sited root labels := by
  cases a with
  | drift w => exact h
  | move i =>
      show (y.move lab i).Sited root labels
      cases ht : y.tenures[i]? with
      | none =>
          rw [move, ht]
          exact h
      | some t =>
          intro j u hu
          rw [move_eq lab ht] at hu
          by_cases hj : i = j
          · subst hj
            obtain ⟨label, hlabel, hsited⟩ := h i t ht
            obtain ⟨hlt, -⟩ := List.getElem?_eq_some_iff.mp ht
            rw [List.getElem?_set_self hlt] at hu
            exact ⟨label, hlabel, Option.some.inj hu ▸ hsited.advance hlab y.site⟩
          · rw [List.getElem?_set_ne hj] at hu
            exact h j u hu

theorem Sited.run (hlab : lab.MakesIn root) (h : y.Sited root labels) (acts : List (Act σ)) :
    (y.run lab acts).Sited root labels := by
  induction acts generalizing y with
  | nil => exact h
  | cons a acts ih => exact ih (h.step hlab a)

end Yard

end Culprit
