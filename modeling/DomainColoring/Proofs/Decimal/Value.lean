import DomainColoring.Decimal.Shortest
import DomainColoring.Proofs.Binary64.Rounding

/-!
# The number that a decimal reads as

The two bounds in `Decimal.toFloat` are shortcuts only: a decimal reads as the number nearest
to it, whatever its exponent. So decimals that are equal read as the same number, and the
shortest decimal of a number reads back as its magnitude.
-/

namespace DomainColoring

namespace Decimal

open Binary64

/-- A power of ten is greater than the power of two with three times the exponent. -/
theorem two_pow_le_ten_pow (e : Nat) : 2 ^ (3 * e) ≤ 10 ^ e := by
  rw [Nat.pow_mul]
  exact Nat.pow_le_pow_left (by decide) e

/-- Reading a decimal is rounding it, without exception. -/
theorem toFloat_eq (d : Decimal) :
    d.toFloat = nearest (d.coefficient * 10 ^ d.exponent.toNat) (10 ^ (-d.exponent).toNat) := by
  obtain ⟨c, e⟩ := d
  by_cases zero : c = 0
  · have small : 2 * (0 * 10 ^ e.toNat * one) < 10 ^ (-e).toNat := by
      rw [Nat.zero_mul, Nat.zero_mul]
      exact Nat.pow_pos (by decide)
    rw [toFloat, if_pos zero, zero, nearest, ofUnits_eq_zero small]
  · by_cases whole : 0 ≤ e
    · have noDenominator : 10 ^ (-e).toNat = 1 := by
        rw [show (-e).toNat = 0 by omega, Nat.pow_zero]
      by_cases large : 400 < e
      · have great : 2 ^ (3 * e.toNat + unitPlaces) ≤ c * 10 ^ e.toNat * one := by
          rw [one_eq, Nat.pow_add]
          apply Nat.mul_le_mul_right
          exact Nat.le_trans (two_pow_le_ten_pow e.toNat)
            (Nat.le_mul_of_pos_left _ (Nat.pos_of_ne_zero zero))
        have many : 2099 ≤ 3 * e.toNat + unitPlaces := by
          rw [unitPlaces]
          omega
        rw [toFloat, if_neg zero, if_pos whole, if_pos large, nearest, ofUnits, noDenominator,
          nearestPattern_eq_infinity many great]
        rfl
      · rw [toFloat, if_neg zero, if_pos whole, if_neg large, noDenominator]
        rfl
    · have noFactor : c * 10 ^ e.toNat = c := by
        rw [show e.toNat = 0 by omega, Nat.pow_zero, Nat.mul_one]
      by_cases tiny : (c.log2 : Int) + 1 + 3 * e < -1075
      · have small : 2 * (c * 10 ^ e.toNat * one) < 10 ^ (-e).toNat := by
          have coefficient : c < 2 ^ (c.log2 + 1) := Nat.lt_log2_self
          have power : 2 ^ (c.log2 + 1 + (unitPlaces + 1)) ≤ 10 ^ (-e).toNat :=
            Nat.le_trans (Nat.pow_le_pow_right (by decide) (by rw [unitPlaces]; omega))
              (two_pow_le_ten_pow (-e).toNat)
          rw [noFactor, one_eq]
          calc
            2 * (c * 2 ^ unitPlaces) = c * 2 ^ (unitPlaces + 1) := by rw [Nat.pow_succ]; ring
            _ < 2 ^ (c.log2 + 1) * 2 ^ (unitPlaces + 1) :=
              Nat.mul_lt_mul_of_pos_right coefficient (Nat.two_pow_pos _)
            _ = 2 ^ (c.log2 + 1 + (unitPlaces + 1)) := (Nat.pow_add _ _ _).symm
            _ ≤ 10 ^ (-e).toNat := power
        rw [toFloat, if_neg zero, if_neg whole, if_pos tiny, nearest, ofUnits_eq_zero small]
      · rw [toFloat, if_neg zero, if_neg whole, if_neg tiny, noFactor]
        rfl

/-- A decimal reads as a number without sign. -/
theorem isNegative_toFloat (d : Decimal) : isNegative d.toFloat = false := by
  rw [toFloat_eq]
  exact isNegative_ofUnits _ _

/-- A zero at the end of the coefficient may be moved into the exponent. -/
theorem toFloat_tenfold (c : Nat) (e : Int) :
    toFloat ⟨10 * c, e⟩ = toFloat ⟨c, e + 1⟩ := by
  rw [toFloat_eq, toFloat_eq]
  by_cases whole : 0 ≤ e
  · have power : (e + 1).toNat = e.toNat + 1 := by omega
    have noDenominator : (-e).toNat = 0 := by omega
    have noDenominator' : (-(e + 1)).toNat = 0 := by omega
    rw [power, noDenominator, noDenominator', Nat.pow_succ]
    congr 1
    ring
  · have noFactor : e.toNat = 0 := by omega
    have noFactor' : (e + 1).toNat = 0 := by omega
    have power : (-e).toNat = (-(e + 1)).toNat + 1 := by omega
    have factor : 10 * c * 10 ^ 0 * one = c * 10 ^ 0 * one * 10 := by ring
    rw [noFactor, noFactor', power, Nat.pow_succ, nearest, nearest, ofUnits, ofUnits, factor,
      nearestPattern_mul_right (by decide)]

/-- The zeros of a decimal with a whole value may be written out. -/
theorem toFloat_whole (c e : Nat) : toFloat ⟨c * 10 ^ e, 0⟩ = toFloat ⟨c, e⟩ := by
  rw [toFloat_eq, toFloat_eq]
  simp

theorem toFloat_trimmed (d : Decimal) : d.trimmed.toFloat = d.toFloat := by
  fun_induction trimmed d with
  | case1 d zeros inductionHypothesis =>
    have tenfold : 10 * (d.coefficient / 10) = d.coefficient :=
      Nat.mul_div_cancel' (Nat.dvd_of_mod_eq_zero zeros.2)
    rw [inductionHypothesis, ← toFloat_tenfold, tenfold]
  | case2 d => rfl

theorem Shortest.exact_eq (n : Nat) :
    exact n = ⟨n * Nat.pow 5 unitPlaces, -(unitPlaces : Int)⟩ := by
  have same : (1074 : Nat) = unitPlaces := rfl
  rw [exact, same]
  rfl

/-- All digits of a count of units read as the number nearest to it. -/
theorem toFloat_exact (n : Nat) : (Shortest.exact n).toFloat = ofUnits n 1 := by
  have read : ∀ places : Nat, one = 2 ^ places →
      toFloat ⟨n * Nat.pow 5 places, -(places : Int)⟩ = ofUnits n 1 := by
    intro places unit
    have ten : (10 : Nat) ^ places = 5 ^ places * 2 ^ places := Nat.mul_pow 5 2 places
    have noFactor : (-(places : Int)).toNat = 0 := by omega
    have power : (- -(places : Int)).toNat = places := by omega
    have positive : 0 < (10 : Nat) ^ places := Nat.pow_pos (by decide)
    have scaled : n * 5 ^ places * 10 ^ 0 * 2 ^ places = n * 10 ^ places := by
      rw [ten]
      ring
    have units : nearestPattern (n * 10 ^ places) (10 ^ places) = nearestPattern n 1 := by
      have cancelled : nearestPattern (n * 10 ^ places) (1 * 10 ^ places) = _ :=
        nearestPattern_mul_right positive
      rwa [Nat.one_mul] at cancelled
    rw [toFloat_eq, nearest, ofUnits, ofUnits, unit]
    simp only [noFactor, power, Nat.pow_eq]
    rw [scaled, units]
  rw [Shortest.exact_eq]
  exact read unitPlaces one_eq

namespace Shortest

/-- The shortest decimal of a finite number reads as its magnitude, whatever the search for it
comes to. -/
theorem toFloat_of (tie : Tie) {x : Float} (finite : x.isFinite = true) :
    (Shortest.of tie x).toFloat = absolute x := by
  obtain ⟨absoluteFinite, absoluteUnits⟩ := units_ofUnits finite
  -- What is found was tested, and what stands in for it is exact.
  have readsBack : (Shortest.of tie x).toFloat.isFinite = true ∧
      units (Shortest.of tie x).toFloat = units x := by
    by_cases none : units x = 0
    · rw [Shortest.of]
      simp only [none, if_true]
      exact ⟨by decide, by decide⟩
    · rw [Shortest.of]
      simp only [none, if_false, toFloat_trimmed]
      cases found : (List.range 17).findSome? fun (more : Nat) =>
          (neighbours tie (units x) (leadingExponent (units x) - more)).find? fun d =>
            units d.toFloat == units x && d.toFloat.isFinite with
      | none =>
        rw [Option.getD_none, toFloat_exact]
        exact units_ofUnits finite
      | some d =>
        obtain ⟨more, -, hit⟩ := List.exists_of_findSome?_eq_some found
        have tested := List.find?_some hit
        simp only [Bool.and_eq_true, beq_iff_eq] at tested
        exact ⟨tested.2, tested.1⟩
  obtain ⟨exponent, fraction⟩ :=
    fields_of_units readsBack.1 absoluteFinite (readsBack.2.trans absoluteUnits.symm)
  apply eq_of_fields _ exponent fraction
  rw [isNegative_toFloat]
  exact (isNegative_ofUnits _ _).symm

end Shortest

end Decimal
end DomainColoring
