import Culprit.Text.Hex
import Mathlib.Data.List.Induction
import Mathlib.Data.Nat.Digits.Defs

/-!
What is read as a hexadecimal number: its digits, small or capital, after any number of zeros.
-/

namespace Culprit.Text

/-- What holds of the first characters can be checked one by one. -/
theorem forall_char_le {P : Char → Prop} {b : Nat} (h : ∀ n ≤ b, P (Char.ofNat n)) {c : Char}
    (hc : c.toNat ≤ b) : P c := by
  have hn := h c.toNat hc
  rwa [Char.ofNat_toNat] at hn

namespace Hex

/-- The digits write the number, each as a small or a capital letter; zeros may precede them. -/
def Writes (cs : List Char) (n : Nat) : Prop :=
  ∃ zeros, cs.map Char.toLower = List.replicate zeros '0' ++ Nat.toDigits 16 n

/-! ### One digit -/

theorem bounds_of_digitValue? {c : Char} {d : Nat} (h : digitValue? c = some d) :
    c.toNat ≤ 102 ∧ d < 16 := by
  have hle {a b : Char} (hab : a ≤ b) : a.toNat ≤ b.toNat := hab
  rw [digitValue?] at h
  split_ifs at h with h09 haf hAF <;> cases h
  · have hhi : c.toNat ≤ 57 := hle h09.2
    omega
  · have hhi : c.toNat ≤ 102 := hle haf.2
    omega
  · have hhi : c.toNat ≤ 70 := hle hAF.2
    omega

theorem toNat_le_of_toLower {c : Char} {d : Nat} (hd : d < 16) (h : c.toLower = Nat.digitChar d) :
    c.toNat ≤ 102 := by
  have hdigits : ∀ d < 16, (Nat.digitChar d).toNat ≤ 102 := by decide
  by_cases hupper : 'A'.val ≤ c.val ∧ c.val ≤ 'Z'.val
  · have hhi : c.toNat ≤ 90 := hupper.2
    omega
  · have hsame : c.toLower = c := dif_neg hupper
    rw [← hsame, h]
    exact hdigits d hd

/-- A character counts as the digit that its small form is. -/
theorem digitValue?_eq_some_iff {c : Char} {d : Nat} :
    digitValue? c = some d ↔ d < 16 ∧ c.toLower = Nat.digitChar d := by
  have hiff (hc : c.toNat ≤ 102) :
      ∀ d < 16, (digitValue? c = some d ↔ c.toLower = Nat.digitChar d) :=
    forall_char_le (P := fun c => ∀ d < 16, (digitValue? c = some d ↔ c.toLower = Nat.digitChar d))
      (by decide +kernel) hc
  refine ⟨fun h => ?_, fun ⟨hd, h⟩ => (hiff (toNat_le_of_toLower hd h) d hd).mpr h⟩
  obtain ⟨hc, hd⟩ := bounds_of_digitValue? h
  exact ⟨hd, (hiff hc d hd).mp h⟩

/-! ### A run of digits -/

theorem not_writes_nil (n : Nat) : ¬Writes [] n := by
  rintro ⟨zeros, h⟩
  simp [Nat.toDigits_ne_nil] at h

/-- The empty run counts as zero until a digit comes. -/
theorem writes_concat_iff {cs : List Char} {c : Char} {n : Nat} : Writes (cs ++ [c]) n ↔
    ∃ m d, (cs = [] ∧ m = 0 ∨ Writes cs m) ∧ digitValue? c = some d ∧ n = 16 * m + d := by
  simp only [digitValue?_eq_some_iff]
  constructor
  · rintro ⟨zeros, h⟩
    rw [List.map_append, List.map_singleton, Nat.toDigits_eq_if (by decide)] at h
    split_ifs at h with hn
    · obtain ⟨hcs, hc⟩ := List.append_inj' h rfl
      refine ⟨0, n, ?_, ⟨hn, List.singleton_inj.mp hc⟩, by omega⟩
      cases zeros with
      | zero => exact .inl ⟨List.map_eq_nil_iff.mp hcs, rfl⟩
      | succ zeros => exact .inr ⟨zeros, by rw [hcs, List.replicate_succ', Nat.toDigits_zero]⟩
    · rw [← List.append_assoc] at h
      obtain ⟨hcs, hc⟩ := List.append_inj' h rfl
      exact ⟨n / 16, n % 16, .inr ⟨zeros, hcs⟩,
        ⟨Nat.mod_lt _ (by decide), List.singleton_inj.mp hc⟩, (Nat.div_add_mod n 16).symm⟩
  · rintro ⟨m, d, hcs, ⟨hd, hc⟩, rfl⟩
    rcases Nat.eq_zero_or_pos m with rfl | hm
    · rw [Nat.mul_zero, Nat.zero_add]
      obtain ⟨rfl, -⟩ | ⟨zeros, hzeros⟩ := hcs
      · exact ⟨0, by simp [hc, Nat.toDigits_of_lt_base hd]⟩
      · refine ⟨zeros + 1, ?_⟩
        rw [List.map_append, hzeros, List.map_singleton, hc, Nat.toDigits_zero,
          Nat.toDigits_of_lt_base hd, List.replicate_succ']
    · obtain ⟨-, rfl⟩ | ⟨zeros, hzeros⟩ := hcs
      · exact absurd hm (Nat.lt_irrefl 0)
      · refine ⟨zeros, ?_⟩
        rw [List.map_append, hzeros, List.map_singleton, hc, List.append_assoc,
          ← Nat.toDigits_append_toDigits (by decide) hm hd, Nat.toDigits_of_lt_base hd]

theorem digit_of_writes {cs : List Char} {n : Nat} (h : Writes cs n) {c : Char} (hc : c ∈ cs) :
    (digitValue? c).isSome := by
  induction cs using List.reverseRecOn generalizing n with
  | nil => exact absurd hc List.not_mem_nil
  | append_singleton cs d ih =>
      obtain ⟨m, v, hcs, hd, -⟩ := writes_concat_iff.mp h
      rcases List.mem_append.mp hc with hc | hc
      · obtain ⟨rfl, -⟩ | hcs := hcs
        · exact absurd hc List.not_mem_nil
        · exact ih hcs hc
      · rw [List.mem_singleton.mp hc, hd]
        rfl

/-- The digits that are read as a number are those that write it. -/
theorem toNat?_eq_some_iff {cs : List Char} {n : Nat} : toNat? cs = some n ↔ Writes cs n := by
  induction cs using List.reverseRecOn generalizing n with
  | nil => exact iff_of_false nofun (not_writes_nil n)
  | append_singleton cs c ih =>
      have hrun (m : Nat) :
          cs.foldl (fun acc c => acc.bind fun n => (digitValue? c).map (16 * n + ·)) (some 0) =
            some m ↔ cs = [] ∧ m = 0 ∨ Writes cs m := by
        rcases eq_or_ne cs [] with rfl | hne
        · simp [not_writes_nil, eq_comm]
        · rw [← ih, toNat?, if_neg (by simpa using hne)]
          simp [hne]
      rw [writes_concat_iff, toNat?, if_neg (by simp), List.foldl_append]
      simp only [List.foldl_cons, List.foldl_nil, Option.bind_eq_some_iff, Option.map_eq_some_iff,
        hrun]
      grind

end Hex

end Culprit.Text
