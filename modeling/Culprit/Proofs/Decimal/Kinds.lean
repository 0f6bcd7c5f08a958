import Culprit.Decimal.Notation
import Mathlib

/-!
What the bits of a double tell of its kind. An exponent field of ones makes an infinity or no
number; every other double is finite.
-/

namespace Culprit.Decimal

open Float.Model

/-- The exponent field of a double. -/
def exponentField (b : BitVec 64) : BitVec 11 :=
  @UnpackedFloat.unpackExponent Format.binary64 b

/-- The fraction field of a double. -/
def fractionField (b : BitVec 64) : BitVec 52 :=
  @UnpackedFloat.unpackMantissa Format.binary64 b

theorem exponentField_toNat (b : UInt64) :
    (exponentField b.toBitVec).toNat = b.toNat / Nat.pow 2 52 % Nat.pow 2 11 := by
  change b.toNat >>> 52 % 2 ^ 11 = _
  rw [Nat.shiftRight_eq_div_pow]

theorem fractionField_toNat (b : UInt64) :
    (fractionField b.toBitVec).toNat = b.toNat % Nat.pow 2 52 := by
  change b.toNat >>> 0 % 2 ^ 52 = _
  rw [Nat.shiftRight_zero]

theorem exponentField_ones (x : Float) : exponentField x.toModel.toBits.toBitVec = -1#11 ↔
    x.toBits.toNat / Nat.pow 2 52 % Nat.pow 2 11 = 2047 := by
  rw [← BitVec.toNat_inj, exponentField_toNat]
  rfl

theorem fractionField_zero (x : Float) : fractionField x.toModel.toBits.toBitVec = 0#52 ↔
    x.toBits.toNat % Nat.pow 2 52 = 0 := by
  rw [← BitVec.toNat_inj, fractionField_toNat]
  rfl

/-- A double is an infinity, no number or finite, by its bits as by its model. -/
theorem kind_cases (x : Float) :
    (kind x = .infinite ∧ x.isInf = true ∧ x.isNaN = false) ∨
      (kind x = .nan ∧ x.isInf = false ∧ x.isNaN = true) ∨
      ((∃ d, kind x = .finite d) ∧ x.isInf = false ∧ x.isNaN = false) := by
  have hones := exponentField_ones x
  have hzero := fractionField_zero x
  rw [exponentField] at hones
  rw [fractionField] at hzero
  simp only [Float.isInf, Float.isNaN, Float.Model.isInf, Float.Model.isNaN, Float.Model.unpack,
    UnpackedFloat.unpack]
  rw [kind]
  by_cases hmax : x.toBits.toNat / Nat.pow 2 52 % Nat.pow 2 11 = 2047
  · rw [if_pos hmax, if_pos (hones.mpr hmax)]
    by_cases hfraction : x.toBits.toNat % Nat.pow 2 52 = 0
    · rw [if_pos hfraction, if_pos (hzero.mpr hfraction)]
      exact .inl ⟨rfl, rfl, rfl⟩
    · rw [if_neg hfraction, if_neg (mt hzero.mp hfraction)]
      exact .inr (.inl ⟨rfl, rfl, rfl⟩)
  · rw [if_neg hmax, if_neg (mt hones.mp hmax)]
    refine .inr (.inr ⟨?_, ?_⟩)
    · split <;> exact ⟨_, rfl⟩
    · split
      · split <;> exact ⟨rfl, rfl⟩
      · exact ⟨rfl, rfl⟩

/-- Neither an infinity nor no number. -/
def Finite (x : Float) : Prop :=
  x.isInf = false ∧ x.isNaN = false

instance (x : Float) : Decidable (Finite x) :=
  inferInstanceAs (Decidable (_ ∧ _))

theorem exists_finite_iff (x : Float) : (∃ d, kind x = .finite d) ↔ Finite x := by
  rcases kind_cases x with ⟨hkind, hinf, hnan⟩ | ⟨hkind, hinf, hnan⟩ | ⟨hfinite, hinf, hnan⟩
  · exact ⟨fun ⟨_, h⟩ => Kind.noConfusion (hkind.symm.trans h),
      fun h => Bool.noConfusion (hinf.symm.trans h.1)⟩
  · exact ⟨fun ⟨_, h⟩ => Kind.noConfusion (hkind.symm.trans h),
      fun h => Bool.noConfusion (hnan.symm.trans h.2)⟩
  · exact ⟨fun _ => ⟨hinf, hnan⟩, fun _ => hfinite⟩

theorem finite_iff (x : Float) : Finite x ↔ exponentField x.toModel.toBits.toBitVec ≠ -1#11 := by
  rw [← exists_finite_iff, Ne, exponentField_ones, kind]
  split
  · split <;> simp [*]
  · split <;> simp [*]

/-! ### The sign -/

theorem exponentField_packComponents (s : UnpackedFloat.Sign) (e : BitVec 11) (m : BitVec 52) :
    exponentField (UnpackedFloat.packComponents Format.binary64 s e m) = e :=
  UnpackedFloat.unpackExponent_packComponents

/-- A number whose exponent is small enough is packed as a finite one. -/
theorem exponentField_pack {s : UnpackedFloat.Sign} {m : Nat} {e : Int} {hm : 0 < m}
    (hsmall : (e + 1023 + 52).toNat + 1 < 2048) :
    exponentField (UnpackedFloat.pack Format.binary64 (.finite s m e hm)) ≠ -1#11 := by
  have hfits : ¬2 ^ Format.binary64.exponentBits ≤ (e + Format.binary64.exponentBias +
      Format.binary64.mantissaBitsWithoutImplicit).toNat + 1 := Nat.not_le.mpr hsmall
  rw [UnpackedFloat.pack]
  simp only
  rw [if_neg hfits]
  split
  · rw [exponentField_packComponents]
    intro hones
    have hfield : (e + 1023 + 52).toNat % 2 ^ 11 = 2047 := congrArg BitVec.toNat hones
    omega
  · rw [exponentField_packComponents]
    decide

/-- Without its sign a finite double is finite. -/
theorem Finite.abs {x : Float} (h : Finite x) : Finite x.abs := by
  rw [finite_iff] at h ⊢
  have hones : ¬@UnpackedFloat.unpackExponent Format.binary64 x.toModel.toBits.toBitVec =
      -1#(Format.binary64.exponentBits) := h
  have hless : (exponentField x.toModel.toBits.toBitVec).toNat < 2047 := by
    have hbound := (exponentField x.toModel.toBits.toBitVec).isLt
    have hne : (exponentField x.toModel.toBits.toBitVec).toNat ≠ 2047 :=
      fun heq => h (BitVec.eq_of_toNat_eq heq)
    omega
  show exponentField (UnpackedFloat.pack Format.binary64
    (UnpackedFloat.unpack Format.binary64 x.toModel.toBits.toBitVec).abs) ≠ _
  rw [UnpackedFloat.unpack]
  simp only
  rw [if_neg hones]
  have hbias : (Format.binary64.exponentBias : Int) = 1023 := rfl
  split
  · next hzero =>
      split
      · intro hones
        exact absurd ((exponentField_packComponents .positive 0 0).symm.trans hones) (by decide)
      · refine exponentField_pack ?_
        rw [hzero, hbias]
        decide
  · refine exponentField_pack ?_
    rw [hbias]
    show ((exponentField x.toModel.toBits.toBitVec).toNat - (1023 + 52 : Int) + 1023 + 52).toNat + 1
      < 2048
    omega

end Culprit.Decimal
