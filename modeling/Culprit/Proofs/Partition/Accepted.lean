import Culprit.Partition
import Mathlib.Data.List.Lattice

/-!
Which divisions of a candidate set are accepted. A list of distinct candidates always is, and the
candidates that it leaves out are the trusted ones. A list that is refused is refused for the first
key in it that is no candidate or was given before.
-/

namespace Culprit.Partition

variable {scope : Scope} {candidates seen variant : List String}

theorem check_ok (hsub : variant ⊆ candidates) (hnodup : variant.Nodup)
    (hseen : variant.Disjoint seen) : check scope candidates seen variant = .ok () := by
  induction variant generalizing seen with
  | nil => rfl
  | cons key rest ih =>
      obtain ⟨hkey, hrest⟩ := List.cons_subset.mp hsub
      obtain ⟨hfresh, hnodup⟩ := List.nodup_cons.mp hnodup
      obtain ⟨hunseen, hseen⟩ := List.disjoint_cons_left.mp hseen
      rw [check, if_neg (not_not.mpr hkey), if_neg hunseen]
      exact ih hrest hnodup (List.disjoint_cons_right.mpr ⟨hfresh, hseen⟩)

theorem of_ok (hsub : variant ⊆ candidates) (hnodup : variant.Nodup) :
    of scope candidates variant = .ok ⟨scope, variant, candidates.filter (· ∉ variant)⟩ := by
  rw [of, check_ok hsub hnodup (List.disjoint_nil_right variant)]

theorem nodup_of_check (h : check scope candidates seen variant = .ok ()) :
    variant.Nodup ∧ variant.Disjoint seen := by
  induction variant generalizing seen with
  | nil => exact ⟨List.nodup_nil, List.disjoint_nil_left seen⟩
  | cons key rest ih =>
      rw [check] at h
      split at h
      · cases h
      · split at h
        · cases h
        · next hunseen =>
            obtain ⟨hnodup, hapart⟩ := ih h
            obtain ⟨hfresh, hseen⟩ := List.disjoint_cons_right.mp hapart
            exact ⟨List.nodup_cons.mpr ⟨hfresh, hnodup⟩,
              List.disjoint_cons_left.mpr ⟨hunseen, hseen⟩⟩

/-- No candidate is given twice. -/
theorem nodup_of_ok {p : Partition} (h : of scope candidates variant = .ok p) :
    variant.Nodup := by
  rw [of] at h
  split at h
  · cases h
  · next hcheck => exact (nodup_of_check hcheck).1

theorem eq_of_ok {p : Partition} (h : of scope candidates variant = .ok p) :
    p = ⟨scope, variant, candidates.filter (· ∉ variant)⟩ := by
  grind [of]

theorem subset_of_check (h : check scope candidates seen variant = .ok ()) :
    variant ⊆ candidates := by
  induction variant generalizing seen with
  | nil => exact List.nil_subset candidates
  | cons key rest ih => grind [check]

/-- Only candidates are given. -/
theorem subset_of_ok {p : Partition} (h : of scope candidates variant = .ok p) :
    variant ⊆ candidates := by
  rw [of] at h
  split at h
  · cases h
  · next hcheck => exact subset_of_check hcheck

theorem of_ok_iff : (∃ p, of scope candidates variant = .ok p) ↔
    variant ⊆ candidates ∧ variant.Nodup :=
  ⟨fun ⟨_, h⟩ => ⟨subset_of_ok h, nodup_of_ok h⟩, fun ⟨hsub, hnodup⟩ => ⟨_, of_ok hsub hnodup⟩⟩

theorem disjoint_of_ok {p : Partition} (h : of scope candidates variant = .ok p) :
    p.trusted.Disjoint p.variant := by
  obtain rfl := eq_of_ok h
  intro key htrusted hvariant
  simp_all

/-! ### Refused lists -/

theorem check_error {e : Error} (h : check scope candidates seen variant = .error e) :
    ∃ before key after, variant = before ++ key :: after ∧
      check scope candidates seen before = .ok () ∧
      (key ∉ candidates ∧ e = .notACandidate key scope.display ∨
        key ∈ candidates ∧ (key ∈ before ∨ key ∈ seen) ∧ e = .assignedTwice key) := by
  induction variant generalizing seen with
  | nil => cases h
  | cons key rest ih =>
      rw [check] at h
      by_cases hkey : key ∈ candidates
      · rw [if_neg (not_not.mpr hkey)] at h
        by_cases hseen : key ∈ seen
        · rw [if_pos hseen] at h
          cases h
          exact ⟨[], key, rest, rfl, rfl, .inr ⟨hkey, .inr hseen, rfl⟩⟩
        · rw [if_neg hseen] at h
          obtain ⟨before, fault, after, rfl, hbefore, hfault⟩ := ih h
          refine ⟨key :: before, fault, after, rfl, ?_, by grind⟩
          rw [check, if_neg (not_not.mpr hkey), if_neg hseen, hbefore]
      · rw [if_pos hkey] at h
        cases h
        exact ⟨[], key, rest, rfl, rfl, .inl ⟨hkey, rfl⟩⟩

/-- The first key at fault is named. -/
theorem of_error {e : Error} (h : of scope candidates variant = .error e) :
    ∃ before key after, variant = before ++ key :: after ∧ before ⊆ candidates ∧ before.Nodup ∧
      (key ∉ candidates ∧ e = .notACandidate key scope.display ∨
        key ∈ candidates ∧ key ∈ before ∧ e = .assignedTwice key) := by
  rw [of] at h
  split at h
  · next hcheck =>
      cases h
      obtain ⟨before, key, after, hvariant, hbefore, hfault⟩ := check_error hcheck
      refine ⟨before, key, after, hvariant, subset_of_check hbefore,
        (nodup_of_check hbefore).1, ?_⟩
      simpa only [List.not_mem_nil, or_false] using hfault
  · cases h

end Culprit.Partition
