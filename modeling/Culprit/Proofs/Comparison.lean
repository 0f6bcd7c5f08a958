import Culprit.Comparison
import Culprit.Proofs.Report.Scores

/-!
When the numeric comparison is silent. Every pair of words adds an amount to one of the two sums,
and the result is zero only if no pair adds anything. A pair that does not agree adds something,
unless its difference is so small that the square is rounded to zero. With a tolerance that is not
below the root of the least positive number there is no such pair.
-/

namespace Culprit.Comparison

open Decimal

/-- Two words that stand for the same output as far as the tolerance goes. -/
inductive Agree (tolerance : Float) (a b : String) : Prop
  | nan {x y : Float} (ha : parse? a = some x) (hb : parse? b = some y)
      (hx : x.isNaN = true) (hy : y.isNaN = true)
  | infinite {x : Float} (ha : parse? a = some x) (hb : parse? b = some x) (hx : x.isInf = true)
  | close {x y : Float} (ha : parse? a = some x) (hb : parse? b = some y)
      (hx : Finite x) (hy : Finite y) (h : (x - y).abs ≤ tolerance)
  | equal (hword : parse? a = none ∨ parse? b = none) (h : a = b)

/-- Two finite numbers that differ by more than the tolerance, but by so little that the square of
the difference is rounded to zero. -/
def Vanishes (tolerance : Float) (a b : String) : Prop :=
  ∃ x y, parse? a = some x ∧ parse? b = some y ∧ Finite x ∧ Finite y ∧
    ¬(x - y).abs ≤ tolerance ∧ ((x - y).abs * (x - y).abs == 0) = true

/-- Both sums are amounts, and `silent` tells when they are both zero. -/
def Counts (s : Sum) (silent : Prop) : Prop :=
  ∃ b c, Amount s.squared b ∧ Amount s.mismatches c ∧ ((b || c) = false ↔ silent)

variable {tolerance : Float} {s : Sum} {silent : Prop}

/-! ### What agrees -/

section Agree

variable {a b : String} {x y : Float}

theorem agree_iff (ha : parse? a = some x) (hb : parse? b = some y) : Agree tolerance a b ↔
    (x.isNaN = true ∧ y.isNaN = true) ∨ (x = y ∧ x.isInf = true) ∨
      Finite x ∧ Finite y ∧ (x - y).abs ≤ tolerance := by
  constructor
  · intro h
    cases h with
    | nan ha' hb' hx hy =>
        obtain rfl := Option.some.inj (ha.symm.trans ha')
        obtain rfl := Option.some.inj (hb.symm.trans hb')
        exact .inl ⟨hx, hy⟩
    | infinite ha' hb' hx =>
        obtain rfl := Option.some.inj (ha.symm.trans ha')
        obtain rfl := Option.some.inj (hb.symm.trans hb')
        exact .inr (.inl ⟨rfl, hx⟩)
    | close ha' hb' hx hy h =>
        obtain rfl := Option.some.inj (ha.symm.trans ha')
        obtain rfl := Option.some.inj (hb.symm.trans hb')
        exact .inr (.inr ⟨hx, hy, h⟩)
    | equal hword h => simp [ha, hb] at hword
  · rintro (⟨hx, hy⟩ | ⟨rfl, hx⟩ | ⟨hx, hy, h⟩)
    · exact .nan ha hb hx hy
    · exact .infinite ha hb hx
    · exact .close ha hb hx hy h

theorem vanishes_iff (ha : parse? a = some x) (hb : parse? b = some y) :
    Vanishes tolerance a b ↔ Finite x ∧ Finite y ∧ ¬(x - y).abs ≤ tolerance ∧
      ((x - y).abs * (x - y).abs == 0) = true := by
  simp [Vanishes, ha, hb]

theorem agree_or_vanishes_of_nan (ha : parse? a = some x) (hb : parse? b = some y)
    (h : x.isNaN = true ∨ y.isNaN = true) :
    Agree tolerance a b ∨ Vanishes tolerance a b ↔ x.isNaN = y.isNaN := by
  rw [agree_iff ha hb, vanishes_iff ha hb]
  constructor
  · rintro ((⟨hx, hy⟩ | ⟨rfl, -⟩ | ⟨hx, hy, -⟩) | ⟨hx, hy, -⟩)
    · rw [hx, hy]
    · rfl
    · rw [hx.2, hy.2]
    · rw [hx.2, hy.2]
  · intro heq
    rw [heq, or_self_iff] at h
    exact .inl (.inl ⟨heq.trans h, h⟩)

theorem agree_or_vanishes_of_isInf (ha : parse? a = some x) (hb : parse? b = some y)
    (hx : x.isNaN = false) (h : x.isInf = true ∨ y.isInf = true) :
    Agree tolerance a b ∨ Vanishes tolerance a b ↔ x = y ∧ x.isInf = true := by
  have hinfinite : ¬(Finite x ∧ Finite y) := by
    rintro ⟨⟨hxf, -⟩, hyf, -⟩
    simp [hxf, hyf] at h
  rw [agree_iff ha hb, vanishes_iff ha hb]
  constructor
  · rintro ((⟨hnan, -⟩ | hsame | ⟨hfx, hfy, -⟩) | ⟨hfx, hfy, -⟩)
    · exact Bool.noConfusion (hx.symm.trans hnan)
    · exact hsame
    · exact absurd ⟨hfx, hfy⟩ hinfinite
    · exact absurd ⟨hfx, hfy⟩ hinfinite
  · exact fun hsame => .inl (.inr (.inl hsame))

theorem agree_or_vanishes_of_finite (ha : parse? a = some x) (hb : parse? b = some y)
    (hx : Finite x) (hy : Finite y) : Agree tolerance a b ∨ Vanishes tolerance a b ↔
      (x - y).abs ≤ tolerance ∨ ((x - y).abs * (x - y).abs == 0) = true := by
  rw [agree_iff ha hb, vanishes_iff ha hb]
  constructor
  · rintro ((⟨hnan, -⟩ | ⟨-, hinf⟩ | ⟨-, -, hclose⟩) | ⟨-, -, -, hlost⟩)
    · exact Bool.noConfusion (hx.2.symm.trans hnan)
    · exact Bool.noConfusion (hx.1.symm.trans hinf)
    · exact .inl hclose
    · exact .inr hlost
  · intro h
    by_cases hclose : (x - y).abs ≤ tolerance
    · exact .inl (.inr (.inr ⟨hx, hy, hclose⟩))
    · exact .inr ⟨hx, hy, hclose, h.resolve_left hclose⟩

/-- Words agree only when they are equal. -/
theorem agree_or_vanishes_of_word (h : parse? a = none ∨ parse? b = none) :
    Agree tolerance a b ∨ Vanishes tolerance a b ↔ a = b := by
  constructor
  · rintro (hagree | ⟨x, y, ha, hb, -⟩)
    · cases hagree with
      | equal hword heq => exact heq
      | nan ha hb => simp [ha, hb] at h
      | infinite ha hb => simp [ha, hb] at h
      | close ha hb => simp [ha, hb] at h
    · simp [ha, hb] at h
  · exact fun heq => .inl (.equal h heq)

end Agree

/-! ### One pair -/

theorem Counts.congr {silent' : Prop} (hs : Counts s silent) (h : silent ↔ silent') :
    Counts s silent' := by
  obtain ⟨b, c, hsquared, hmismatches, hsilent⟩ := hs
  exact ⟨b, c, hsquared, hmismatches, hsilent.trans h⟩

theorem counts_mismatch (hs : Counts s silent) (differ : Bool) :
    Counts (s.mismatch differ) (silent ∧ differ = false) := by
  cases differ with
  | false => simpa [Sum.mismatch] using hs
  | true =>
      obtain ⟨b, c, hsquared, hmismatches, -⟩ := hs
      exact ⟨b, c || true, hsquared, hmismatches.add (amount_ofNat 1), by simp⟩

/-- Infinities are equal when they are the same. -/
theorem beq_iff_of_isInf {x y : Float} (hx : x.isNaN = false) (hy : y.isNaN = false)
    (hinf : x.isInf = true ∨ y.isInf = true) : (x == y) = true ↔ x = y ∧ x.isInf = true := by
  rw [Float.isNaN_eq_decide_eq_nan, decide_eq_false_iff_not] at hx hy
  rw [Float.beq_iff_ne_nan_and_eq]
  constructor
  · rintro ⟨-, -, rfl | ⟨rfl, rfl⟩ | ⟨rfl, rfl⟩⟩
    · exact ⟨rfl, or_self_iff.mp hinf⟩
    · obtain h | h := hinf <;> cases h
    · obtain h | h := hinf <;> cases h
  · rintro ⟨rfl, -⟩
    exact ⟨hx, hy, .inl rfl⟩

/-- Finite numbers count by the square of their difference, if that exceeds the tolerance. -/
theorem counts_difference {x y : Float} (htolerance : 0 ≤ tolerance) (hs : Counts s silent)
    (hx : Finite x) (hy : Finite y) :
    Counts (if (x - y).abs > tolerance.abs then
        { s with squared := s.squared + (x - y).abs * (x - y).abs } else s)
      (silent ∧ ((x - y).abs ≤ tolerance ∨ ((x - y).abs * (x - y).abs == 0) = true)) := by
  obtain ⟨c, ht⟩ := amount_of_zero_le htolerance
  have hd := amount_abs (Finite.isNaN_sub hx hy)
  have hexceeds : (x - y).abs > tolerance.abs ↔ ¬(x - y).abs ≤ tolerance := by
    rw [gt_iff_lt, ht.abs.lt_iff hd, hd.le_abs_iff ht]
  split
  · next hgt =>
      obtain ⟨c', hsquare⟩ := hd.square
      obtain ⟨b, m, hsquared, hmismatches, hsilent⟩ := hs
      refine ⟨b || c', m, hsquared.add hsquare, hmismatches, ?_⟩
      rw [or_iff_right (hexceeds.mp hgt), hsquare.beq_zero, ← hsilent]
      cases b <;> cases c' <;> cases m <;> decide
  · next hle =>
      rw [hexceeds, not_not] at hle
      exact hs.congr (by simp [hle])

/-- Numbers are compared when both are finite, and told apart by kind otherwise. -/
theorem counts_addNumbers (htolerance : 0 ≤ tolerance) (hs : Counts s silent) {a b : String}
    {x y : Float} (ha : parse? a = some x) (hb : parse? b = some y) :
    Counts (addNumbers tolerance.abs s x y)
      (silent ∧ (Agree tolerance a b ∨ Vanishes tolerance a b)) := by
  rw [addNumbers]
  split
  · next hnan =>
      rw [Bool.or_eq_true] at hnan
      refine (counts_mismatch hs _).congr (and_congr_right' ?_)
      rw [agree_or_vanishes_of_nan ha hb hnan, bne_eq_false_iff_eq]
  · next hnumbers =>
      rw [Bool.or_eq_true, not_or, Bool.not_eq_true, Bool.not_eq_true] at hnumbers
      obtain ⟨hx, hy⟩ := hnumbers
      split
      · next hinf =>
          rw [Bool.or_eq_true] at hinf
          refine (counts_mismatch hs _).congr (and_congr_right' ?_)
          rw [agree_or_vanishes_of_isInf ha hb hx hinf, bne, Bool.not_eq_false',
            beq_iff_of_isInf hx hy hinf]
      · next hfinite =>
          rw [Bool.or_eq_true, not_or, Bool.not_eq_true, Bool.not_eq_true] at hfinite
          obtain ⟨hfx, hfy⟩ := hfinite
          rw [agree_or_vanishes_of_finite ha hb ⟨hfx, hx⟩ ⟨hfy, hy⟩]
          exact counts_difference htolerance hs ⟨hfx, hx⟩ ⟨hfy, hy⟩

theorem counts_addPair (htolerance : 0 ≤ tolerance) (hs : Counts s silent) (p : String × String) :
    Counts (addPair tolerance.abs s p)
      (silent ∧ (Agree tolerance p.1 p.2 ∨ Vanishes tolerance p.1 p.2)) := by
  rw [addPair]
  split
  · next x y ha hb => exact counts_addNumbers htolerance hs ha hb
  · next hword =>
      have hnone : parse? p.1 = none ∨ parse? p.2 = none := by
        cases ha : parse? p.1 with
        | none => exact .inl rfl
        | some x =>
            cases hb : parse? p.2 with
            | none => exact .inr rfl
            | some y => exact absurd hb (hword x y ha)
      refine (counts_mismatch hs _).congr (and_congr_right' ?_)
      rw [agree_or_vanishes_of_word hnone, bne_eq_false_iff_eq]

/-! ### All pairs -/

theorem counts_foldl (htolerance : 0 ≤ tolerance) (ps : List (String × String))
    (hs : Counts s silent) :
    Counts (ps.foldl (addPair tolerance.abs) s)
      (silent ∧ ∀ p ∈ ps, Agree tolerance p.1 p.2 ∨ Vanishes tolerance p.1 p.2) := by
  induction ps generalizing s silent with
  | nil => simpa using hs
  | cons p ps ih =>
      rw [List.foldl_cons, List.forall_mem_cons, ← and_assoc]
      exact ih (counts_addPair htolerance hs p)

theorem distance_eq_zero {m n : Nat} : distance m n = 0 ↔ m = n := by
  rw [distance]
  omega

theorem counts_start (n : Nat) : Counts ⟨0, Float.ofNat n⟩ (n = 0) := by
  refine ⟨false, n != 0, amount_ofNat 0, amount_ofNat n, ?_⟩
  rw [Bool.false_or, bne_eq_false_iff_eq]

theorem beq_zero_of_counts (hs : Counts s silent) :
    (s.squared.sqrt + s.mismatches == 0) = true ↔ silent := by
  obtain ⟨b, c, hsquared, hmismatches, hsilent⟩ := hs
  rw [(hsquared.sqrt.add hmismatches).beq_zero, ← hsilent, Bool.not_eq_true']

/-- The numeric comparison is silent exactly when there are equally many words and every pair
agrees, or has a difference that is lost in its square. No difference is lost beyond a tolerance
that is not too small. -/
theorem numeric_silent_iff {tolerance : Float} (htolerance : 0 ≤ tolerance)
    (baseline candidate : String) :
    (∃ value, (Comparator.numeric tolerance).compare baseline candidate = .ok value ∧
      ((Score.ofComparison value).isDivergent = false ↔
        (Text.words baseline).length = (Text.words candidate).length ∧
        ∀ p ∈ (Text.words baseline).zip (Text.words candidate),
          Agree tolerance p.1 p.2 ∨ Vanishes tolerance p.1 p.2)) ∧
    (rootOfLeast ≤ tolerance → ∀ a b, ¬Vanishes tolerance a b) := by
  constructor
  · refine ⟨numeric tolerance.abs baseline candidate, rfl, ?_⟩
    rw [Score.isDivergent_ofComparison, Bool.not_eq_false', ← distance_eq_zero]
    exact beq_zero_of_counts (counts_foldl htolerance _ (counts_start _))
  · rintro hroot a b ⟨x, y, -, -, hx, hy, hexceeds, hlost⟩
    obtain ⟨c, ht⟩ := amount_of_zero_le htolerance
    have hd := amount_abs (Finite.isNaN_sub hx hy)
    have hsquare := hd.square_of_lt ht hroot ((ht.lt_iff hd).mpr hexceeds)
    rw [hsquare.beq_zero] at hlost
    cases hlost

/-- The difference of zero and `1e-200` exceeds a tolerance of zero, but it is lost. -/
theorem numeric_silent_tiny :
    (0 : Float) ≤ 0 ∧ Vanishes 0 "0" "1e-200" ∧ ¬Agree 0 "0" "1e-200" ∧
    (Comparator.numeric 0).compare "0" "1e-200" = .ok 0 ∧
    (∃ value, (Comparator.numeric 0).compare "0" "1e-200" = .ok value ∧
      ((Score.ofComparison value).isDivergent = false ↔
        (Text.words "0").length = (Text.words "1e-200").length ∧
        ∀ p ∈ (Text.words "0").zip (Text.words "1e-200"),
          Agree 0 p.1 p.2 ∨ Vanishes 0 p.1 p.2)) ∧
    (rootOfLeast ≤ 0 → ∀ a b, ¬Vanishes 0 a b) := by
  have hzero : (0 : Float) ≤ 0 := by decide +kernel
  have ha : parse? "0" = some 0 := by decide +kernel
  have hb : parse? "1e-200" = some (Float.ofBits 0x16687E92154EF7AC) := by decide +kernel
  refine ⟨hzero, ?_, ?_, by decide +kernel, numeric_silent_iff hzero "0" "1e-200"⟩
  · rw [vanishes_iff ha hb]
    decide +kernel
  · rw [agree_iff ha hb]
    decide +kernel

end Culprit.Comparison
