import Culprit.Proofs.Decimal.Kinds

/-!
Doubles that are not negative, and whether they are zero. Sums and square roots of such amounts are
zero exactly when their operands are. A square is an amount too, but that of a small number can be
rounded to zero.
-/

namespace Culprit.Decimal

open Float.Model
open UnpackedFloat hiding pack unpack

/-- A zero, or a positive number that is infinite or has at most 53 digits, none of them below the
last place of the format. -/
inductive Magnitude : UnpackedFloat → Bool → Prop
  | zero (s : Sign) : Magnitude (.zero s) false
  | infinity : Magnitude (.infinity .positive) true
  | finite {m : Nat} {e : Int} (hm : 0 < m) (hdigits : m < 2 ^ 53) (hlast : -1074 ≤ e) :
      Magnitude (.finite .positive m e hm) true

/-! ### Rounding -/

/-- The digits that rounding takes away. -/
def cut (m : Nat) (e : Int) : Nat :=
  (Format.binary64.targetExponent (totalExponent m e) - e).toNat

theorem shiftToTargetExponent_eq (m : Nat) (e : Int) (acc : Accuracy) :
    shiftToTargetExponent .binary64 m e acc =
      (ExtendedMantissa.ofMantissaAndAccuracy m acc >>> cut m e, e + cut m e) :=
  rfl

theorem cut_eq (m : Nat) (e : Int) : cut m e = (max ((m.log2 : Int) - 52) (-1074 - e)).toNat := by
  have htarget : Format.binary64.targetExponent (totalExponent m e) =
      max (m.log2 + 1 + e - 53) (-1074) := rfl
  rw [cut, htarget]
  omega

theorem le_add_cut (m : Nat) (e : Int) : -1074 ≤ e + cut m e := by
  rw [cut_eq]
  omega

theorem div_cut_lt (m : Nat) (e : Int) : m / 2 ^ cut m e < 2 ^ 53 := by
  have hcut : m.log2 + 1 ≤ 53 + cut m e := by
    rw [cut_eq]
    omega
  rw [Nat.div_lt_iff_lt_mul (Nat.two_pow_pos _), ← Nat.pow_add]
  exact Nat.lt_log2_self.trans_le (Nat.pow_le_pow_right Nat.two_pos hcut)

/-- Something is left of a number that reaches the last place. -/
theorem div_cut_pos {m : Nat} {e : Int} (hm : 0 < m) (hreach : -1074 ≤ m.log2 + e) :
    0 < m / 2 ^ cut m e := by
  have hcut : cut m e ≤ m.log2 := by
    rw [cut_eq]
    omega
  refine Nat.div_pos ?_ (Nat.two_pow_pos _)
  exact (Nat.pow_le_pow_right Nat.two_pos hcut).trans (Nat.log2_self_le hm.ne')

theorem mantissa_shiftRight (em : ExtendedMantissa) (k : Nat) :
    (em >>> k).mantissa = em.mantissa / 2 ^ k := by
  induction k with
  | zero => exact (Nat.div_one _).symm
  | succ k ih =>
      show (em >>> k).mantissa / 2 = _
      rw [ih, Nat.div_div_eq_div_mul, Nat.pow_succ]

theorem mantissa_ofMantissaAndAccuracy (m : Nat) (acc : Accuracy) :
    (ExtendedMantissa.ofMantissaAndAccuracy m acc).mantissa = m := by
  rcases acc with _ | (_ | _ | _) <;> rfl

theorem mantissa_le_rounded (em : ExtendedMantissa) : em.mantissa ≤ em.roundedMantissa := by
  obtain ⟨m, round, sticky⟩ := em
  cases round <;> cases sticky <;>
    simp [ExtendedMantissa.roundedMantissa, ExtendedMantissa.accuracy, Accuracy.roundToNearestEven]

/-- A positive number is rounded to an amount, and to zero only when it is below the last place. -/
theorem magnitude_round {m : Nat} (hm : 0 < m) (e : Int) (acc : Accuracy) :
    ∃ b, Magnitude (roundWithAccuracy .binary64 .positive m e acc) b ∧
      (-1074 ≤ m.log2 + e → b = true) := by
  have hkept := mantissa_le_rounded (ExtendedMantissa.ofMantissaAndAccuracy m acc >>> cut m e)
  rw [mantissa_shiftRight, mantissa_ofMantissaAndAccuracy] at hkept
  simp only [roundWithAccuracy, shiftToTargetExponent_eq, mantissa_shiftRight,
    mantissa_ofMantissaAndAccuracy]
  split
  · next hzero =>
      refine ⟨false, .zero _, fun hreach => ?_⟩
      have hrest := (div_cut_pos hm hreach).trans_le hkept
      have hplace := le_add_cut m e
      have hpos := div_cut_pos hrest (e := e + cut m e) (by omega)
      exact absurd hzero hpos.ne'
  · exact ⟨true, .finite _ (div_cut_lt _ _) (le_add_cut _ _), fun _ => rfl⟩

theorem magnitude_round_last {m : Nat} {e : Int} (hm : 0 < m) (hlast : -1074 ≤ e)
    (acc : Accuracy) : Magnitude (roundWithAccuracy .binary64 .positive m e acc) true := by
  obtain ⟨b, hmagnitude, hb⟩ := magnitude_round hm e acc
  rwa [hb (by omega)] at hmagnitude

/-- A positive number of units at or above the last place is an amount that is not zero. -/
theorem magnitude_normalize {n : Nat} {e : Int} (hn : 0 < n) (hlast : -1074 ≤ e) (zero : Sign) :
    Magnitude (UnpackedFloat.normalize .binary64 n e zero) true := by
  have horder : compare (n : Int) 0 = .gt := Int.compare_eq_gt.mpr (Int.ofNat_lt.mpr hn)
  have htarget : -1074 ≤ Format.binary64.targetExponent (totalExponent n e) := le_max_right _ _
  rw [UnpackedFloat.normalize, horder]
  simp only [UnpackedFloat.round, decreaseExponent, Int.toNat_natCast]
  refine magnitude_round_last ?_ (by omega) .exact
  rw [Nat.shiftLeft_eq]
  exact Nat.mul_pos hn (Nat.two_pow_pos _)

/-! ### Packing -/

theorem toNat_leading (fraction : BitVec 52) :
    (1#1 ++ fraction).toNat = 2 ^ 52 + fraction.toNat := by
  rw [BitVec.toNat_append]
  exact (Nat.two_pow_add_eq_or_of_lt fraction.isLt 1).symm

/-- What a finite double looks like. Only in the last place its first digit can be missing. -/
theorem unpack_finite {b : BitVec Format.binary64.numBits} {s : Sign} {m : Nat} {e : Int}
    {hm : 0 < m} (h : UnpackedFloat.unpack .binary64 b = .finite s m e hm) :
    m < 2 ^ 53 ∧ -1074 ≤ e ∧ (2 ^ 52 ≤ m ∨ e = -1074) := by
  have hbias : (Format.binary64.exponentBias : Int) = 1023 := rfl
  have hplaces : (Format.binary64.mantissaBitsWithoutImplicit : Int) = 52 := rfl
  have hfraction : (unpackMantissa b).toNat < 2 ^ 52 := (unpackMantissa b).isLt
  rw [UnpackedFloat.unpack] at h
  simp only at h
  split at h
  · split at h <;> cases h
  · split at h
    · next hfield =>
        split at h
        · cases h
        · obtain ⟨-, rfl, rfl⟩ := UnpackedFloat.finite.inj h
          rw [hfield, hbias, hplaces]
          exact ⟨hfraction.trans (by decide), by decide, .inr (by decide)⟩
    · next hfield =>
        obtain ⟨-, rfl, rfl⟩ := UnpackedFloat.finite.inj h
        have hpositive : 0 < (unpackExponent b).toNat := by
          rw [Nat.pos_iff_ne_zero]
          exact fun hzero => hfield (BitVec.eq_of_toNat_eq hzero)
        have hleading : (1#1 ++ unpackMantissa b).toNat = 2 ^ 52 + (unpackMantissa b).toNat :=
          toNat_leading (unpackMantissa b)
        rw [hleading, hbias, hplaces]
        omega

theorem unpack_packComponents (s : Sign) {field : BitVec 11} {fraction : BitVec 52}
    (hones : field ≠ -1#11) (hzero : field ≠ 0#11 ∨ fraction ≠ 0#52) :
    ∃ m e hm, UnpackedFloat.unpack .binary64 (packComponents .binary64 s field fraction) =
      .finite s m e hm := by
  rw [UnpackedFloat.unpack]
  simp only [unpackExponent_packComponents, unpackMantissa_packComponents,
    unpackSign_packComponents, Sign.ofBitVec_toBitVec]
  rw [if_neg hones]
  split
  · next hfield =>
      have hne : fraction ≠ 0#52 := hzero.resolve_left fun h => h hfield
      rw [dif_neg hne]
      exact ⟨_, _, Nat.pos_of_ne_zero fun h => hne (BitVec.eq_of_toNat_eq h), rfl⟩
  · have hpositive : 0 < (1#1 ++ fraction).toNat := by
      rw [toNat_leading]
      exact Nat.add_pos_left (Nat.two_pow_pos 52) _
    exact ⟨_, _, hpositive, rfl⟩

/-- What the format keeps of a number. -/
def repacked (u : UnpackedFloat) : UnpackedFloat :=
  UnpackedFloat.unpack .binary64 (UnpackedFloat.pack .binary64 u)

theorem repacked_zero (s : Sign) : repacked (.zero s) = .zero s :=
  unpack_packedZero

/-- A number that is not too small is kept as a number of its sign. -/
theorem repacked_finite {s : Sign} {m : Nat} {e : Int} (hm : 0 < m) (hdigits : m < 2 ^ 53)
    (hlast : -1074 ≤ e) : repacked (.finite s m e hm) = .infinity s ∨
      ∃ m' e' hm', repacked (.finite s m e hm) = .finite s m' e' hm' := by
  rw [repacked, UnpackedFloat.pack]
  simp only
  have hfield : (e + Format.binary64.exponentBias +
      Format.binary64.mantissaBitsWithoutImplicit).toNat = (e + 1075).toNat := by
    congr 1
    show e + 1023 + 52 = e + 1075
    omega
  rw [hfield]
  split
  · left
    cases s <;> rfl
  · next hfits =>
      right
      replace hfits : (e + 1075).toNat + 1 < 2048 := Nat.not_le.mp hfits
      split
      · -- The leading digit is in its place, and the exponent field says so.
        refine unpack_packComponents s (fun h => ?_) (.inl fun h => ?_)
        · have h : (e + 1075).toNat % 2048 = 2047 := congrArg BitVec.toNat h
          omega
        · have h : (e + 1075).toNat % 2048 = 0 := congrArg BitVec.toNat h
          omega
      · next hshort =>
          refine unpack_packComponents s (by decide) (.inr fun h => ?_)
          have h : m % 2 ^ 52 = 0 := congrArg BitVec.toNat h
          have hlog : m.log2 < 53 := (Nat.log2_lt hm.ne').mpr hdigits
          have hless : m < 2 ^ 52 := (Nat.log2_lt hm.ne').mp (by
            replace hshort : m.log2 + 1 ≠ 53 := hshort
            omega)
          rw [Nat.mod_eq_of_lt hless] at h
          omega

/-- An amount that is packed stays an amount, and does not become zero. -/
theorem Magnitude.repack {u : UnpackedFloat} {b : Bool} (h : Magnitude u b) :
    Magnitude (repacked u) b := by
  cases h with
  | zero s =>
      rw [repacked_zero]
      exact .zero s
  | infinity => exact .infinity
  | finite hm hdigits hlast =>
      obtain h | ⟨m, e, hm', h⟩ := repacked_finite hm hdigits hlast
      · rw [h]
        exact .infinity
      · obtain ⟨hdigits', hlast', -⟩ := unpack_finite h
        rw [h]
        exact .finite hm' hdigits' hlast'

/-! ### Operations -/

section Operations

variable {u v : UnpackedFloat} {b c : Bool}

theorem Magnitude.add (hu : Magnitude u b) (hv : Magnitude v c) :
    Magnitude (UnpackedFloat.add .binary64 u v) (b || c) := by
  cases hu with
  | zero s =>
      cases hv with
      | zero s' => cases s <;> cases s' <;> exact .zero _
      | infinity => exact .infinity
      | finite hm hdigits hlast => exact .finite hm hdigits hlast
  | infinity => cases hv <;> exact .infinity
  | @finite m e hm hdigits hlast =>
      cases hv with
      | zero s => exact .finite hm hdigits hlast
      | infinity => exact .infinity
      | @finite m' e' hm' hdigits' hlast' =>
          -- The sum is a positive number of units in the lower of the two last places.
          have hsum : UnpackedFloat.add .binary64 (.finite .positive m e hm)
              (.finite .positive m' e' hm') = UnpackedFloat.normalize .binary64
                (m <<< (e - min e e').toNat + m' <<< (e' - min e e').toNat : Nat) (min e e')
                .positive := rfl
          have hpositive : 0 < m <<< (e - min e e').toNat + m' <<< (e' - min e e').toNat := by
            have hleft : 0 < m <<< (e - min e e').toNat := by
              rw [Nat.shiftLeft_eq]
              exact Nat.mul_pos hm (Nat.two_pow_pos _)
            exact Nat.add_pos_left hleft _
          rw [hsum]
          exact magnitude_normalize hpositive (by omega) _

theorem Magnitude.sqrt (hu : Magnitude u b) : Magnitude (UnpackedFloat.sqrt .binary64 u) b := by
  cases hu with
  | zero s => exact .zero s
  | infinity => exact .infinity
  | @finite m e hm hdigits hlast =>
      -- The root of enough digits is positive, and its last place is not too low.
      have hhalf : -1074 ≤ e.ediv 2 := by
        show -1074 ≤ e / 2
        omega
      have htarget (t : Int) : -1074 ≤ min (e.ediv 2) (Format.binary64.targetExponent t) :=
        le_min hhalf (le_max_right _ _)
      have hroot (k : Nat) : 0 < Nat.sqrt (m <<< k) := by
        rw [Nat.sqrt_pos, Nat.shiftLeft_eq]
        exact Nat.mul_pos hm (Nat.two_pow_pos k)
      rw [UnpackedFloat.sqrt]
      simp only [sqrtCore]
      exact magnitude_round_last (hroot _) (htarget _) _

theorem Magnitude.square (hu : Magnitude u b) :
    ∃ c, Magnitude (UnpackedFloat.mul .binary64 u u) c := by
  cases hu with
  | zero s => exact ⟨false, .zero _⟩
  | infinity => exact ⟨true, .infinity⟩
  | finite hm hdigits hlast =>
      obtain ⟨c, hmagnitude, -⟩ := magnitude_round (Nat.mul_pos hm hm) _ .exact
      exact ⟨c, hmagnitude⟩

/-- The square of a number is not lost when its last place is not too low. -/
theorem magnitude_square {m : Nat} {e : Int} (hm : 0 < m) (hdigits : 2 ^ 52 ≤ m)
    (hlast : -589 ≤ e) : Magnitude (UnpackedFloat.mul .binary64 (.finite .positive m e hm)
      (.finite .positive m e hm)) true := by
  have hlog : 104 ≤ (m * m).log2 := by
    rw [Nat.le_log2 (Nat.mul_pos hm hm).ne']
    exact (Nat.mul_le_mul hdigits hdigits).trans' (by decide)
  obtain ⟨c, hmagnitude, hc⟩ := magnitude_round (Nat.mul_pos hm hm) (e + e) .exact
  rwa [hc (by omega)] at hmagnitude

/-- One has all its digits, so a product with it is not lost. -/
theorem Magnitude.mul_one (hu : Magnitude u b) :
    Magnitude (UnpackedFloat.mul .binary64 u
      (.finite .positive (2 ^ 52) (-52) (Nat.two_pow_pos 52))) b := by
  cases hu with
  | zero s => exact .zero _
  | infinity => exact .infinity
  | @finite m e hm hdigits hlast =>
      have hpositive : 0 < m * 2 ^ 52 := Nat.mul_pos hm (Nat.two_pow_pos 52)
      have hlog : 52 ≤ (m * 2 ^ 52).log2 := by
        rw [Nat.le_log2 hpositive.ne']
        exact Nat.le_mul_of_pos_left _ hm
      obtain ⟨c, hmagnitude, hc⟩ := magnitude_round hpositive (e + -52) .exact
      rwa [hc (by omega)] at hmagnitude

end Operations

/-! ### Doubles -/

/-- The double is a number and not negative; the flag tells that it is not zero either. -/
def Amount (x : Float) (positive : Bool) : Prop :=
  Magnitude x.toModel.unpack positive

namespace Amount

variable {x y : Float} {b c : Bool}

theorem add (hx : Amount x b) (hy : Amount y c) : Amount (x + y) (b || c) :=
  (Magnitude.add hx hy).repack

theorem sqrt (hx : Amount x b) : Amount x.sqrt b :=
  (Magnitude.sqrt hx).repack

theorem square (hx : Amount x b) : ∃ c, Amount (x * x) c := by
  obtain ⟨c, hsquare⟩ := Magnitude.square hx
  exact ⟨c, hsquare.repack⟩

theorem unpack_zero : (0 : Float).toModel.unpack = .zero .positive := rfl

theorem beq_zero (hx : Amount x b) : (x == 0) = !b := by
  show x.toModel.unpack.beq (0 : Float).toModel.unpack = !b
  rw [Amount] at hx
  generalize x.toModel.unpack = u at hx ⊢
  rw [unpack_zero]
  cases hx <;> rfl

theorem isNaN (hx : Amount x b) : x.isNaN = false := by
  show x.toModel.unpack.isNaN = false
  rw [Amount] at hx
  generalize x.toModel.unpack = u at hx ⊢
  cases hx <;> rfl

theorem zero_le (hx : Amount x b) : 0 ≤ x := by
  refine decide_eq_true (?_ : (0 : Float).toModel.unpack.le x.toModel.unpack = true)
  rw [Amount] at hx
  generalize x.toModel.unpack = u at hx ⊢
  rw [unpack_zero]
  cases hx <;> rfl

end Amount

/-- Without its sign a number is an amount, and zero if it was. -/
theorem amount_abs {x : Float} (h : x.isNaN = false) : Amount x.abs (!(x == 0)) := by
  have hbits := @unpack_finite x.toModel.toBits.toBitVec
  have hnumber : x.toModel.unpack.isNaN = false := h
  refine Magnitude.repack ?_
  show Magnitude x.toModel.unpack.abs (!x.toModel.unpack.beq (0 : Float).toModel.unpack)
  rw [Amount.unpack_zero]
  replace hbits {s m e hm} (h : x.toModel.unpack = .finite s m e hm) := hbits h
  generalize x.toModel.unpack = u at hnumber hbits ⊢
  cases u with
  | notANumber => cases hnumber
  | zero s => exact .zero _
  | infinity s => cases s <;> exact .infinity
  | finite s m e hm =>
      obtain ⟨hdigits, hlast, -⟩ := hbits rfl
      cases s <;> exact .finite hm hdigits hlast

theorem Amount.abs {x : Float} {b : Bool} (hx : Amount x b) : Amount x.abs b := by
  have habs := amount_abs hx.isNaN
  rwa [hx.beq_zero, Bool.not_not] at habs

theorem not_beq_zero_of_not_finite {x : Float} (h : x.isNaN = true ∨ x.isInf = true) :
    (x == 0) = false := by
  show x.toModel.unpack.beq (0 : Float).toModel.unpack = false
  replace h : x.toModel.unpack.isNaN = true ∨ x.toModel.unpack.isInf = true := h
  rw [Amount.unpack_zero]
  generalize x.toModel.unpack = u at h ⊢
  cases u with
  | notANumber => rfl
  | zero s => obtain h | h := h <;> cases h
  | infinity s => cases s <;> rfl
  | finite s m e hm => cases s <;> rfl

/-! ### Whole numbers -/

theorem magnitude_ofNat (n : Nat) : Magnitude (UnpackedFloat.ofNat .binary64 n) (n != 0) := by
  cases n with
  | zero => exact .zero _
  | succ n => exact magnitude_normalize n.succ_pos (by decide) .positive

theorem magnitude_ofScientific {n : Nat} (hn : 0 < n) :
    Magnitude (UnpackedFloat.ofScientific .binary64 n 0) true := by
  rw [UnpackedFloat.ofScientific, dif_neg hn.ne']
  split
  · next hhigh => exact absurd hhigh (by decide)
  · split
    · next hlow =>
        replace hlow : (0 : Int) < -(2048 + n.log2) := hlow
        omega
    · rw [if_pos le_rfl, UnpackedFloat.mul]
      refine magnitude_round_last ?_ (by decide) .exact
      rw [Nat.shiftLeft_eq]
      exact Nat.mul_pos (Nat.mul_pos hn (Nat.two_pow_pos _)) (Nat.pow_pos (by decide))

/-- A whole number is an amount, and zero only if it is none. -/
theorem amount_ofNat (n : Nat) : Amount (Float.ofNat n) (n != 0) := by
  show Amount (Float.ofScientific n false 0) (n != 0)
  rw [Float.ofScientific]
  split
  · next hsmall =>
      have hword : n.toUInt64.toNat = n := by
        rw [Nat.toUInt64, UInt64.toNat_ofNat']
        exact Nat.mod_eq_of_lt (hsmall.1.trans (by decide))
      have hone : Float.exactlyRepresentablePowersOfTen[0].toModel.unpack =
          .finite .positive (2 ^ 52) (-52) (Nat.two_pow_pos 52) := rfl
      have hnumber : Magnitude n.toUInt64.toFloat.toModel.unpack (n != 0) := by
        have hmagnitude := (magnitude_ofNat n.toUInt64.toNat).repack
        rw [hword] at hmagnitude
        show Magnitude (repacked (UnpackedFloat.ofNat .binary64 n.toUInt64.toNat)) _
        rwa [hword]
      have hproduct := hnumber.mul_one.repack
      rw [← hone] at hproduct
      exact hproduct
  · next hlarge =>
      have hn : 0 < n := by
        by_contra hzero
        exact hlarge ⟨by omega, by decide⟩
      have hne : (n != 0) = true := bne_iff_ne.mpr hn.ne'
      rw [hne]
      exact (magnitude_ofScientific hn).repack

/-! ### Order -/

section Order

variable {u v : UnpackedFloat} {x y t : Float} {b c : Bool}

theorem Magnitude.lt_eq (hu : Magnitude u b) (hv : Magnitude v c) : u.lt v = !v.le u := by
  cases hu with
  | zero s => cases hv <;> rfl
  | infinity => cases hv <;> rfl
  | @finite m e hm hdigits hlast =>
      cases hv with
      | zero s => rfl
      | infinity => rfl
      | @finite m' e' hm' hdigits' hlast' =>
          show (some ((compare e e').then (compare m m')) == some .lt) =
            !((compare e' e).then (compare m' m)).isLE
          rw [Std.OrientedOrd.eq_swap (a := e), Std.OrientedOrd.eq_swap (a := m),
            ← Ordering.swap_then]
          cases (compare e' e).then (compare m' m) <;> rfl

theorem Amount.lt_iff (hx : Amount x b) (hy : Amount y c) : x < y ↔ ¬y ≤ x := by
  have hlt : x < y ↔ x.toModel.unpack.lt y.toModel.unpack = true := decide_eq_true_iff
  have hle : y ≤ x ↔ y.toModel.unpack.le x.toModel.unpack = true := decide_eq_true_iff
  rw [hlt, hle, Magnitude.lt_eq hx hy]
  simp

/-- What is not below zero is an amount. -/
theorem amount_of_zero_le (h : 0 ≤ x) : ∃ b, Amount x b := by
  replace h : (0 : Float).toModel.unpack.le x.toModel.unpack = true := of_decide_eq_true h
  have hbits := @unpack_finite x.toModel.toBits.toBitVec
  replace hbits {s m e hm} (h : x.toModel.unpack = .finite s m e hm) := hbits h
  rw [Amount.unpack_zero] at h
  simp only [Amount]
  generalize x.toModel.unpack = u at h hbits ⊢
  cases u with
  | notANumber => cases h
  | zero s => exact ⟨false, .zero s⟩
  | infinity s =>
      cases s with
      | negative => cases h
      | positive => exact ⟨true, .infinity⟩
  | finite s m e hm =>
      cases s with
      | negative => cases h
      | positive =>
          obtain ⟨hdigits, hlast, -⟩ := hbits rfl
          exact ⟨true, .finite hm hdigits hlast⟩

/-- An amount can lose at most the sign of its zero. -/
theorem Amount.le_abs_iff (hx : Amount x b) (ht : Amount t c) : x ≤ t.abs ↔ x ≤ t := by
  have hle (y : Float) : x ≤ y ↔ x.toModel.unpack.le y.toModel.unpack = true := decide_eq_true_iff
  have habs : t.abs.toModel.unpack = repacked t.toModel.unpack.abs := rfl
  have hround : repacked t.toModel.unpack = t.toModel.unpack :=
    congrArg (UnpackedFloat.unpack .binary64) (pack_unpack_of_valid t.toModel.valid)
  rw [hle, hle, habs]
  rw [Amount] at hx ht
  generalize x.toModel.unpack = u at hx ⊢
  generalize t.toModel.unpack = v at ht hround ⊢
  cases ht with
  | zero s =>
      rw [UnpackedFloat.abs, repacked_zero]
      cases hx <;> rfl
  | infinity => rw [UnpackedFloat.abs, hround]
  | finite hm hdigits hlast => rw [UnpackedFloat.abs, hround]


/-- The least number whose square is not rounded to zero by want of places, `2 ^ -537`. -/
def rootOfLeast : Float :=
  Float.ofBits 0x1E60000000000000

theorem unpack_rootOfLeast : rootOfLeast.toModel.unpack =
    .finite .positive (2 ^ 52) (-589) (Nat.two_pow_pos 52) := rfl

theorem exponent_le_of_isLE {e e' : Int} {o : Ordering} (h : ((compare e e').then o).isLE = true) :
    e ≤ e' := by
  by_contra hlt
  rw [Int.compare_eq_gt.mpr (Int.not_le.mp hlt)] at h
  cases h

/-- Beyond such a tolerance no square is lost. -/
theorem Amount.square_of_lt (hx : Amount x b) (ht : Amount t c) (hroot : rootOfLeast ≤ t)
    (hlt : t < x) : Amount (x * x) true := by
  replace hroot : rootOfLeast.toModel.unpack.le t.toModel.unpack = true := of_decide_eq_true hroot
  replace hlt : t.toModel.unpack.lt x.toModel.unpack = true := of_decide_eq_true hlt
  have hbits := @unpack_finite x.toModel.toBits.toBitVec
  replace hbits {s m e hm} (h : x.toModel.unpack = .finite s m e hm) := hbits h
  refine Magnitude.repack (?_ : Magnitude (UnpackedFloat.mul .binary64 x.toModel.unpack
    x.toModel.unpack) true)
  rw [unpack_rootOfLeast] at hroot
  rw [Amount] at hx ht
  generalize x.toModel.unpack = u at hx hlt hbits ⊢
  generalize t.toModel.unpack = v at ht hroot hlt
  cases ht with
  | zero s => cases hroot
  | infinity => cases hx <;> cases hlt
  | @finite m e hm hdigits hlast =>
      cases hx with
      | zero s => cases hlt
      | infinity => exact .infinity
      | @finite m' e' hm' hdigits' hlast' =>
          have hlow : -589 ≤ e := exponent_le_of_isLE hroot
          have hhigh : e ≤ e' := by
            refine exponent_le_of_isLE (o := compare m m') ?_
            have heq : some ((compare e e').then (compare m m')) = some .lt := eq_of_beq hlt
            rw [Option.some.inj heq]
            rfl
          obtain ⟨-, -, hfull⟩ := hbits rfl
          exact magnitude_square hm' (hfull.resolve_right (by omega)) (by omega)

theorem isNaN_repacked (u : UnpackedFloat) : (repacked u).isNaN = u.isNaN := by
  cases u with
  | notANumber => rfl
  | zero s => rw [repacked_zero]
  | infinity s => cases s <;> rfl
  | finite s m e hm =>
      by_cases hsmall : (e + 1023 + 52).toNat + 1 < 2048
      · have hfield : unpackExponent (UnpackedFloat.pack .binary64 (.finite s m e hm)) ≠
          -1#(Format.binary64.exponentBits) := exponentField_pack hsmall
        rw [repacked, UnpackedFloat.unpack]
        simp only
        rw [if_neg hfield]
        split
        · split <;> rfl
        · rfl
      · have hlarge : 2 ^ Format.binary64.exponentBits ≤ (e + Format.binary64.exponentBias +
          Format.binary64.mantissaBitsWithoutImplicit).toNat + 1 := Nat.not_lt.mp hsmall
        rw [repacked, UnpackedFloat.pack]
        simp only
        rw [if_pos hlarge]
        cases s <;> rfl

theorem isNaN_roundWithAccuracy (s : Sign) (m : Nat) (e : Int) (acc : Accuracy) :
    (roundWithAccuracy .binary64 s m e acc).isNaN = false := by
  simp only [roundWithAccuracy]
  split <;> rfl

theorem isNaN_normalize (n e : Int) (zero : Sign) :
    (UnpackedFloat.normalize .binary64 n e zero).isNaN = false := by
  rw [UnpackedFloat.normalize]
  split
  · exact isNaN_roundWithAccuracy ..
  · rfl
  · exact isNaN_roundWithAccuracy ..

/-- The difference of finite numbers is a number, if perhaps an infinite one. -/
theorem Finite.isNaN_sub (hx : Finite x) (hy : Finite y) : (x - y).isNaN = false := by
  have hkind (z : Float) (hz : Finite z) : z.toModel.unpack.isInf = false ∧
      z.toModel.unpack.isNaN = false := hz
  replace hx := hkind x hx
  replace hy := hkind y hy
  refine (isNaN_repacked (.sub .binary64 x.toModel.unpack y.toModel.unpack)).trans ?_
  generalize x.toModel.unpack = u at hx ⊢
  generalize y.toModel.unpack = v at hy ⊢
  cases u with
  | notANumber => exact Bool.noConfusion hx.2
  | infinity s => exact Bool.noConfusion hx.1
  | zero s =>
      cases v with
      | notANumber => exact Bool.noConfusion hy.2
      | infinity s => exact Bool.noConfusion hy.1
      | zero s' => cases s <;> cases s' <;> rfl
      | finite => rfl
  | finite s m e hm =>
      cases v with
      | notANumber => exact Bool.noConfusion hy.2
      | infinity s => exact Bool.noConfusion hy.1
      | zero s' => rfl
      | finite s' m' e' hm' => exact isNaN_normalize ..


end Order

end Culprit.Decimal
