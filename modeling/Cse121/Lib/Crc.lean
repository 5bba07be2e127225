import Mathlib.Algebra.Field.ZMod
import Mathlib.Algebra.Polynomial.FieldDivision
import Mathlib.Tactic.LinearCombination

/-! # Cyclic redundancy checks

A vector of bits is a polynomial over the field of two elements. The shift register of a
check multiplies by `X` modulo the generator, and a change of the bits goes unnoticed exactly
if the generator divides its polynomial.
-/

namespace Crc

open Polynomial

variable {w n m : Nat}

/-- The positions of the bits that are set. -/
def bits (v : BitVec n) : Finset Nat := {i ∈ Finset.range n | v.getLsbD i}

/-- The polynomial whose coefficients are the bits. -/
noncomputable def toPoly (v : BitVec n) : (ZMod 2)[X] := ∑ i ∈ bits v, X ^ i

/-- The generator without its leading term is `p`. -/
noncomputable def generator (p : BitVec w) : (ZMod 2)[X] := X ^ w + toPoly p

/-- A turn of the shift register. -/
def step (p c : BitVec w) : BitVec w := if c.msb then (c <<< 1) ^^^ p else c <<< 1

/-! ## Bits as coefficients -/

theorem mem_bits {v : BitVec n} {i : Nat} : i ∈ bits v ↔ v.getLsbD i := by
  unfold bits
  rw [Finset.mem_filter, Finset.mem_range]
  exact ⟨fun h => h.2, fun h => ⟨BitVec.lt_of_getLsbD h, h⟩⟩

theorem coeff_toPoly (v : BitVec n) (i : Nat) :
    (toPoly v).coeff i = if v.getLsbD i then 1 else 0 := by
  unfold toPoly
  simp [coeff_X_pow, mem_bits]

theorem coeff_toPoly_eq_one {v : BitVec n} {i : Nat} : (toPoly v).coeff i = 1 ↔ v.getLsbD i := by
  rw [coeff_toPoly]
  split <;> simp_all

theorem toPoly_injective : Function.Injective (toPoly (n := n)) := by
  intro a b h
  refine BitVec.eq_of_getLsbD_eq fun i _ => Bool.eq_iff_iff.2 ?_
  rw [← coeff_toPoly_eq_one, h, coeff_toPoly_eq_one]

theorem degree_toPoly_lt (v : BitVec n) : (toPoly v).degree < n := by
  rw [degree_lt_iff_coeff_zero]
  intro i hi
  rw [coeff_toPoly, BitVec.getLsbD_of_ge v i hi]
  simp

theorem toPoly_xor (a b : BitVec n) : toPoly (a ^^^ b) = toPoly a + toPoly b := by
  ext i
  rw [coeff_add, coeff_toPoly, coeff_toPoly, coeff_toPoly, BitVec.getLsbD_xor]
  cases a.getLsbD i <;> cases b.getLsbD i <;> decide

theorem toPoly_append (a : BitVec m) (b : BitVec n) :
    toPoly (a ++ b) = toPoly a * X ^ n + toPoly b := by
  ext i
  rw [coeff_add, coeff_mul_X_pow', coeff_toPoly, coeff_toPoly, coeff_toPoly, BitVec.getLsbD_append]
  by_cases hi : i < n
  · simp [hi, not_le.2 hi]
  · simp [hi, not_lt.1 hi]

/-! ## The register -/

theorem generator_monic (p : BitVec w) : (generator p).Monic := monic_X_pow_add (degree_toPoly_lt p)

theorem generator_degree (p : BitVec w) : (generator p).degree = w := by
  have hlt : (toPoly p).degree < (X ^ w : (ZMod 2)[X]).degree := by
    rw [degree_X_pow]
    exact degree_toPoly_lt p
  unfold generator
  rw [degree_add_eq_left_of_degree_lt hlt, degree_X_pow]

/-- A remainder is its own. -/
theorem toPoly_modByMonic (p c : BitVec w) : toPoly c %ₘ generator p = toPoly c := by
  rw [modByMonic_eq_self_iff (generator_monic p), generator_degree]
  exact degree_toPoly_lt c

/-- What a shift drops is the highest bit. -/
theorem toPoly_shiftLeft (c : BitVec w) :
    toPoly (c <<< 1) + (if c.msb then X ^ w else 0) = toPoly c * X := by
  have hmsb : c.msb = c.getLsbD (w - 1) := BitVec.msb_eq_getLsbD_last c
  ext i
  rw [coeff_add, coeff_toPoly, apply_ite (coeff · i), coeff_X_pow, coeff_zero,
    BitVec.getLsbD_shiftLeft, hmsb]
  rcases i with _ | i
  · rw [coeff_mul_X_zero]
    rcases w with _ | w
    · simp
    · simp
  · rw [coeff_mul_X, coeff_toPoly]
    by_cases hlt : i + 1 < w
    · have hne : i + 1 ≠ w := by omega
      simp [hlt, hne]
    · by_cases heq : i + 1 = w
      · subst heq
        simp
      · have hge : w ≤ i := by omega
        simp [hlt, heq, hge]

/-- A turn of the register multiplies by `X`. -/
theorem toPoly_step (p c : BitVec w) :
    toPoly (step p c) = (toPoly c * X) %ₘ generator p := by
  refine ((div_modByMonic_unique (if c.msb then 1 else 0) _ (generator_monic p) ⟨?_, ?_⟩).2).symm
  · have htwo : toPoly p + toPoly p = 0 := CharTwo.add_self_eq_zero _
    rw [← toPoly_shiftLeft]
    unfold step generator
    split
    · rw [toPoly_xor]
      linear_combination htwo
    · ring
  · rw [generator_degree]
    exact degree_toPoly_lt _

/-- Factors may be reduced first. -/
theorem modByMonic_mul {g : (ZMod 2)[X]} (hg : g.Monic) (a b : (ZMod 2)[X]) :
    (a %ₘ g * b) %ₘ g = (a * b) %ₘ g := by
  rw [mul_modByMonic, (modByMonic_eq_self_iff hg).2 (degree_modByMonic_lt a hg), ← mul_modByMonic]

/-- And so do several turns. -/
theorem toPoly_repeat_step (p c : BitVec w) (k : Nat) :
    toPoly (Nat.repeat (step p) k c) = (toPoly c * X ^ k) %ₘ generator p := by
  induction k with
  | zero => rw [pow_zero, mul_one, toPoly_modByMonic, Nat.repeat]
  | succ k ih =>
      rw [Nat.repeat, toPoly_step, ih, modByMonic_mul (generator_monic p), pow_succ, mul_assoc]

/-! ## Changes that are noticed -/

/-- A generator that ends with 1 has no factor `X`. -/
theorem coprime_X_pow {p : BitVec w} (hp : p.getLsbD 0) (k : Nat) :
    IsCoprime (generator p) (X ^ k) := by
  have hw : w ≠ 0 := (BitVec.lt_of_getLsbD hp).ne'
  have hnot : ¬ X ∣ generator p := by
    unfold generator
    rw [X_dvd_iff, coeff_add, coeff_X_pow, if_neg hw.symm, coeff_toPoly, if_pos hp]
    decide
  have hX : Irreducible (X : (ZMod 2)[X]) := irreducible_X
  exact (hX.coprime_iff_not_dvd.2 hnot).symm.pow_right

/-- Bits within the width of the register are noticed. -/
theorem not_dvd_of_burst {p : BitVec w} (hp : p.getLsbD 0) {e : BitVec n}
    (hne : (bits e).Nonempty) {k : Nat} (hk : ∀ i ∈ bits e, k ≤ i ∧ i < k + w) :
    ¬ generator p ∣ toPoly e := by
  -- a power of `X`, which the generator has no factor of, and a polynomial below its degree
  obtain ⟨q, hq⟩ : ∃ q : (ZMod 2)[X], q = ∑ i ∈ bits e, X ^ (i - k) := ⟨_, rfl⟩
  have hshift : toPoly e = X ^ k * q := by
    unfold toPoly
    rw [hq, Finset.mul_sum]
    refine Finset.sum_congr rfl fun i hi => ?_
    rw [← pow_add, Nat.add_sub_cancel' (hk i hi).1]
  have hdegree : q.degree < (generator p).degree := by
    rw [generator_degree, degree_lt_iff_coeff_zero, hq]
    intro j hj
    rw [finsetSum_coeff]
    refine Finset.sum_eq_zero fun i hi => ?_
    rcases hk i hi with ⟨hle, hlt⟩
    rw [coeff_X_pow, if_neg (by omega)]
  have hzero : q ≠ 0 := by
    rintro rfl
    rcases hne with ⟨i, hi⟩
    have hone := coeff_toPoly_eq_one.2 (mem_bits.1 hi)
    rw [hshift, mul_zero, coeff_zero] at hone
    exact absurd hone (by decide)
  intro hdvd
  rw [hshift] at hdvd
  exact (generator_monic p).not_dvd_of_degree_lt hzero hdegree
    ((coprime_X_pow hp k).dvd_of_dvd_mul_left hdvd)

theorem toPoly_one (hw : 0 < w) : toPoly 1#w = 1 := by
  ext i
  rw [coeff_toPoly, coeff_one]
  simp [BitVec.getLsbD_one, hw, eq_comm]

/-- The register comes back to 1 where the generator divides two terms. -/
theorem repeat_step_of_dvd {p : BitVec w} (hw : 0 < w) {k : Nat}
    (hdvd : generator p ∣ 1 + X ^ k) : Nat.repeat (step p) k 1#w = 1#w := by
  apply toPoly_injective
  have hk : (X ^ k : (ZMod 2)[X]) = 1 + (1 + X ^ k) := by
    have htwo : (1 : (ZMod 2)[X]) + 1 = 0 := CharTwo.add_self_eq_zero _
    linear_combination -htwo
  rw [toPoly_repeat_step, toPoly_one hw, one_mul, hk, add_modByMonic,
    (modByMonic_eq_zero_iff_dvd (generator_monic p)).2 hdvd, add_zero, ← toPoly_one hw,
    toPoly_modByMonic]

/-- Two bits are noticed, if the register does not come back to 1 between them. -/
theorem not_dvd_of_two {p : BitVec w} (hp : p.getLsbD 0) {e : BitVec n}
    (htwo : (bits e).card = 2)
    (horder : ∀ k, 0 < k → k < n → Nat.repeat (step p) k 1#w ≠ 1#w) :
    ¬ generator p ∣ toPoly e := by
  obtain ⟨i, j, hij, hbits⟩ : ∃ i j, i < j ∧ bits e = {i, j} := by
    rcases Finset.card_eq_two.1 htwo with ⟨i, j, hne, hbits⟩
    rcases Nat.lt_or_gt_of_ne hne with hlt | hgt
    · exact ⟨i, j, hlt, hbits⟩
    · exact ⟨j, i, hgt, hbits.trans (Finset.pair_comm i j)⟩
  have hj : j < n := BitVec.lt_of_getLsbD (mem_bits.1 (hbits ▸ by simp : j ∈ bits e))
  -- only the distance of the two matters
  have hpoly : toPoly e = X ^ i * (1 + X ^ (j - i)) := by
    unfold toPoly
    rw [hbits, Finset.sum_pair hij.ne, mul_add, mul_one, ← pow_add, Nat.add_sub_cancel' hij.le]
  intro hdvd
  rw [hpoly] at hdvd
  exact horder (j - i) (by omega) (by omega)
    (repeat_step_of_dvd (BitVec.lt_of_getLsbD hp) ((coprime_X_pow hp i).dvd_of_dvd_mul_left hdvd))

/-- An odd number of bits is noticed, if the generator has an even number of terms. -/
theorem not_dvd_of_odd {p : BitVec w} (heven : (generator p).eval 1 = 0) {e : BitVec n}
    (hodd : Odd (bits e).card) : ¬ generator p ∣ toPoly e := by
  intro hdvd
  -- at 1 the generator is zero, and a change is the number of its bits
  have heval := eval_dvd (x := 1) hdvd
  rw [heven, zero_dvd_iff] at heval
  unfold toPoly at heval
  simp only [eval_finsetSum, eval_pow, eval_X, one_pow, Finset.sum_const, nsmul_eq_mul,
    mul_one] at heval
  rw [(ZMod.natCast_eq_one_iff_odd).2 hodd] at heval
  exact absurd heval (by decide)

end Crc
