import Culprit.Proofs.Decimal.Kinds
import Culprit.Proofs.Json.Lexing
import Mathlib.Data.List.TakeWhile
import Mathlib.Tactic.Common

/-!
Numbers in JSON text. An integer is read back from its digits. Of a real it can only be said that it
is exact when its digits are read as itself; that holds of many, but not of all.
-/

namespace Culprit.Json

open Decimal (Literal)

theorem isDigit_of_mem_toDigits {n : Nat} {c : Char} (h : c ∈ Nat.toDigits 10 n) :
    Literal.isDigit c = true :=
  Nat.isDigit_of_mem_toDigits (by decide) (by decide) h

theorem isNumberChar_of_isDigit {c : Char} (h : Literal.isDigit c = true) :
    isNumberChar c = true := by
  simp [isNumberChar, h]

/-- A digit between tokens begins a number. -/
theorem start?_of_isDigit {c : Char} (h : Literal.isDigit c = true) :
    start? c = some ([], .number [c]) := by
  have hdigits : ∀ n ≤ 57, 48 ≤ n → start? (Char.ofNat n) = some ([], .number [Char.ofNat n]) := by
    decide
  obtain ⟨hlo, hhi⟩ : '0' ≤ c ∧ c ≤ '9' := by simpa [Literal.isDigit] using h
  have hc := hdigits c.toNat hhi hlo
  rwa [Char.ofNat_toNat] at hc

theorem valueOf_toDigits (n : Nat) : Literal.valueOf 0 (Nat.toDigits 10 n) = n := by
  have hvalue := Nat.ofDigitChars_ten_toDigits (n := n)
  rwa [Nat.ofDigitChars_eq_foldl] at hvalue

/-- Only the digits of zero begin with a zero. -/
theorem head?_toDigits {n : Nat} (hn : n ≠ 0) : (Nat.toDigits 10 n).head? ≠ some '0' := by
  induction n using Nat.strongRecOn with
  | ind n ih =>
      rw [Nat.toDigits_eq_if (by decide)]
      split
      · next hsmall =>
          have hdigit : ∀ k < 10, k ≠ 0 → Nat.digitChar k ≠ '0' := by decide
          simpa using hdigit n hsmall hn
      · next hlarge =>
          rw [List.head?_append_of_ne_nil _ Nat.toDigits_ne_nil]
          exact ih (n / 10) (by omega) (by omega)

theorem isStrictNumber_toDigits (n : Nat) : isStrictNumber (Nat.toDigits 10 n) = true := by
  have hdigits : ∀ c ∈ Nat.toDigits 10 n, Literal.isDigit c = true :=
    fun c hc => isDigit_of_mem_toDigits hc
  rw [isStrictNumber, List.takeWhile_eq_self_iff.mpr hdigits, List.dropWhile_eq_nil_iff.mpr hdigits]
  by_cases hn : n = 0
  · subst hn
    rfl
  · simp [head?_toDigits hn, Nat.toDigits_ne_nil]

/-- The digits of a number are read as that number, with a sign in front as its negation. -/
theorem numberToken?_toDigits (n : Nat) :
    numberToken? (Nat.toDigits 10 n).reverse = some (.integer n) ∧
      (n ≠ 0 → numberToken? ('-' :: Nat.toDigits 10 n).reverse = some (.integer (-n))) := by
  have hdigits : ∀ c ∈ Nat.toDigits 10 n, Literal.isDigit c = true :=
    fun c hc => isDigit_of_mem_toDigits hc
  have hsign : ∀ r, Nat.toDigits 10 n ≠ '-' :: r := by
    intro r heq
    have hminus := hdigits '-' (heq ▸ List.mem_cons_self)
    exact absurd hminus (by decide)
  have hall : (Nat.toDigits 10 n).all Literal.isDigit = true := List.all_eq_true.mpr hdigits
  refine ⟨?_, fun hn => ?_⟩
  · rw [numberToken?, List.reverse_reverse]
    split
    next negative digits heq =>
      split at heq
      · next r hr => exact absurd hr (hsign r)
      · obtain ⟨rfl, rfl⟩ := Prod.mk.inj heq
        simp [isStrictNumber_toDigits, List.dropWhile_eq_nil_iff.mpr hdigits, Literal.fraction,
          Literal.exponent?, hall, List.takeWhile_eq_self_iff.mpr hdigits, valueOf_toDigits]
  · rw [numberToken?, List.reverse_reverse]
    simp [isStrictNumber_toDigits, List.dropWhile_eq_nil_iff.mpr hdigits, Literal.fraction,
      Literal.exponent?, hall, List.takeWhile_eq_self_iff.mpr hdigits, valueOf_toDigits, hn]

theorem reads_toDigits (n : Nat) : Reads (Nat.toDigits 10 n) [.integer n] := by
  have hdigits : ∀ c ∈ Nat.toDigits 10 n, Literal.isDigit c = true :=
    fun c hc => isDigit_of_mem_toDigits hc
  have hread := (numberToken?_toDigits n).1
  rcases heq : Nat.toDigits 10 n with _ | ⟨c, cs⟩
  · exact absurd heq Nat.toDigits_ne_nil
  · rw [heq] at hdigits hread
    obtain ⟨hc, hcs⟩ := List.forall_mem_cons.mp hdigits
    exact reads_number (start?_of_isDigit hc) (fun d hd => isNumberChar_of_isDigit (hcs d hd)) hread

/-- An integer is written by its digits, after a sign when it is negative. -/
theorem toList_toString (n : Int) : (toString n).toList =
    if n < 0 then '-' :: Nat.toDigits 10 n.natAbs else Nat.toDigits 10 n.natAbs := by
  cases n with
  | ofNat n =>
      show n.repr.toList = _
      rw [Nat.repr_eq_ofList_toDigits, String.toList_ofList]
      rfl
  | negSucc n =>
      show ("-" ++ (n + 1).repr).toList = _
      rw [Nat.repr_eq_ofList_toDigits, String.toList_append, if_pos (Int.negSucc_lt_zero n)]
      simp

theorem reads_integer (n : Int) : Reads (toString n).toList [.integer n] := by
  rw [toList_toString]
  split
  · next hnegative =>
      have hread := (numberToken?_toDigits n.natAbs).2 (by omega)
      rw [show -(n.natAbs : Int) = n by omega] at hread
      exact reads_number rfl
        (fun c hc => isNumberChar_of_isDigit (isDigit_of_mem_toDigits hc)) hread
  · next hnatural =>
      have hread := reads_toDigits n.natAbs
      rwa [show (n.natAbs : Int) = n by omega] at hread

/-! ### Reals -/

/-- The number can be read back from its text. -/
def Exact (x : Float) : Prop :=
  tokens? (Decimal.json x).toList = some [.real x]

instance (x : Float) : Decidable (Exact x) :=
  inferInstanceAs (Decidable (_ = _))

example : Exact 0.5 := by
  decide +kernel

/-- A double without a text of its own is written as null. -/
theorem json_of_not_finite {x : Float} (h : ¬Decimal.Finite x) : Decimal.json x = "null" := by
  rw [Decimal.json]
  split
  · next d hkind => exact absurd ((Decimal.exists_finite_iff x).mp ⟨d, hkind⟩) h
  · rfl

theorem Exact.finite {x : Float} (h : Exact x) : Decimal.Finite x := by
  by_contra hfinite
  rw [Exact, json_of_not_finite hfinite,
    show tokens? "null".toList = some [.null] from rfl] at h
  simp at h

end Culprit.Json
