import Cse121.Lib.Crc
import Cse121.Sensors.Crc

/-! # What the checksum of the Sensirion sensors notices

The register computes the remainder modulo `x^8 + x^5 + x^4 + 1`. Up to three changed bits
of a group, and any within eight consecutive ones, are noticed.
-/

namespace Cse121

open Polynomial

/-- A group of two data bytes and their check byte, in the order in which it is sent. -/
def group (d0 d1 check : UInt8) : BitVec 24 := d0.toBitVec ++ d1.toBitVec ++ check.toBitVec

/-- The remainder of the data, sent behind the initial value 0xFF. -/
noncomputable def remainder (d0 d1 : UInt8) : (ZMod 2)[X] :=
  ((Crc.toPoly 0xFF#8 * X ^ 8 + Crc.toPoly (d0.toBitVec ++ d1.toBitVec)) * X ^ 8) %ₘ
    (X ^ 8 + X ^ 5 + X ^ 4 + 1)

/-- The bits to be changed: one, two or three, or some within eight consecutive positions. -/
def SmallChange (e : BitVec 24) : Prop :=
  (1 ≤ (Crc.bits e).card ∧ (Crc.bits e).card ≤ 3) ∨
    ((Crc.bits e).Nonempty ∧ ∃ k, ∀ i ∈ Crc.bits e, k ≤ i ∧ i < k + 8)

/-- A check accepts the groups that end with the remainder of their data, and none of them
after a small change. -/
structure Notices (ok : UInt8 → UInt8 → UInt8 → Bool) : Prop where
  accepts : ∀ d0 d1 check, ok d0 d1 check = true ↔
    Crc.toPoly check.toBitVec = remainder d0 d1
  rejects : ∀ d0 d1 check e0 e1 e2, ok d0 d1 check = true → SmallChange (group e0 e1 e2) →
    ok (d0 ^^^ e0) (d1 ^^^ e1) (check ^^^ e2) = false

/-! ## The register -/

theorem generator_eq : Crc.generator 0x31#8 = X ^ 8 + X ^ 5 + X ^ 4 + 1 := by
  have hbits : Crc.bits 0x31#8 = {5, 4, 0} := by decide
  unfold Crc.generator Crc.toPoly
  rw [hbits, Finset.sum_insert (by decide), Finset.sum_insert (by decide), Finset.sum_singleton]
  ring

theorem crcStep_toBitVec (c : UInt8) : (crcStep c).toBitVec = Crc.step 0x31#8 c.toBitVec := by
  have hbit : ∀ v : BitVec 8, v &&& 0x80#8 ≠ 0#8 ↔ v.msb = true := by decide +kernel
  have htest : c &&& 0x80 ≠ 0 ↔ c.toBitVec.msb = true := by
    rw [← hbit, ne_eq, ← UInt8.toBitVec_inj]
    rfl
  unfold crcStep Crc.step
  simp only [htest]
  split <;> rfl

theorem toPoly_crcStep (c : UInt8) (k : Nat) :
    Crc.toPoly (Nat.repeat crcStep k c).toBitVec =
      (Crc.toPoly c.toBitVec * X ^ k) %ₘ Crc.generator 0x31#8 := by
  have hturns : (Nat.repeat crcStep k c).toBitVec =
      Nat.repeat (Crc.step 0x31#8) k c.toBitVec := by
    induction k with
    | zero => rfl
    | succ k ih => rw [Nat.repeat, crcStep_toBitVec, ih, Nat.repeat]
  rw [hturns, Crc.toPoly_repeat_step]

/-- The register holds the remainder. -/
theorem toPoly_crcRegister (d0 d1 : UInt8) :
    Crc.toPoly (crcRegister d0 d1).toBitVec = remainder d0 d1 := by
  have hg := Crc.generator_monic 0x31#8
  have hturns : crcRegister d0 d1 =
      Nat.repeat crcStep 8 (Nat.repeat crcStep 8 (0xFF ^^^ d0) ^^^ d1) := rfl
  unfold remainder
  rw [hturns, toPoly_crcStep, UInt8.toBitVec_xor, Crc.toPoly_xor, toPoly_crcStep,
    UInt8.toBitVec_xor, Crc.toPoly_xor, Crc.toPoly_append, ← generator_eq, add_mul,
    add_modByMonic, Crc.modByMonic_mul hg, ← add_modByMonic]
  congr 1
  change _ = (Crc.toPoly (0xFF : UInt8).toBitVec * X ^ 8 + _) * X ^ 8
  ring

theorem crcRegister_eq_iff (d0 d1 check : UInt8) :
    (crcRegister d0 d1 == check) = true ↔ Crc.toPoly check.toBitVec = remainder d0 d1 := by
  rw [beq_iff_eq, ← toPoly_crcRegister, Crc.toPoly_injective.eq_iff, UInt8.toBitVec_inj, eq_comm]

/-! ## Changes -/

/-- The remainder of changed data is changed by the remainder of the change. -/
theorem remainder_xor (d0 d1 e0 e1 : UInt8) :
    remainder (d0 ^^^ e0) (d1 ^^^ e1) = remainder d0 d1 +
      (Crc.toPoly (e0.toBitVec ++ e1.toBitVec) * X ^ 8) %ₘ Crc.generator 0x31#8 := by
  unfold remainder
  rw [UInt8.toBitVec_xor, UInt8.toBitVec_xor, ← BitVec.xor_append, Crc.toPoly_xor,
    ← add_assoc, add_mul, ← generator_eq, add_modByMonic]

/-- After a change a group is accepted exactly if the generator divides the change. -/
theorem accepted_change_iff {d0 d1 check : UInt8}
    (h : Crc.toPoly check.toBitVec = remainder d0 d1) (e0 e1 e2 : UInt8) :
    Crc.toPoly (check ^^^ e2).toBitVec = remainder (d0 ^^^ e0) (d1 ^^^ e1) ↔
      Crc.generator 0x31#8 ∣ Crc.toPoly (group e0 e1 e2) := by
  have hg := Crc.generator_monic 0x31#8
  have hsum : Crc.toPoly (group e0 e1 e2) %ₘ Crc.generator 0x31#8 =
      (Crc.toPoly (e0.toBitVec ++ e1.toBitVec) * X ^ 8) %ₘ Crc.generator 0x31#8 +
        Crc.toPoly e2.toBitVec := by
    unfold group
    rw [Crc.toPoly_append, add_modByMonic, Crc.toPoly_modByMonic]
  -- what the data contribute is the same on both sides, and only the change is left
  rw [UInt8.toBitVec_xor, Crc.toPoly_xor, remainder_xor, h, add_right_inj,
    ← modByMonic_eq_zero_iff_dvd hg, hsum, CharTwo.add_eq_zero, eq_comm]

/-- The generator divides no small change. -/
theorem SmallChange.not_dvd {e : BitVec 24} (h : SmallChange e) :
    ¬ Crc.generator 0x31#8 ∣ Crc.toPoly e := by
  have hlast : (0x31#8).getLsbD 0 := by decide
  rcases h with ⟨hpos, hle⟩ | ⟨hne, k, hk⟩
  · obtain hone | htwo | hthree : (Crc.bits e).card = 1 ∨ (Crc.bits e).card = 2 ∨
        (Crc.bits e).card = 3 := by omega
    · rcases Finset.card_eq_one.1 hone with ⟨i, hi⟩
      refine Crc.not_dvd_of_burst hlast (k := i) (by simp [hi]) ?_
      intro j hj
      rw [hi, Finset.mem_singleton] at hj
      omega
    · -- the register takes 127 turns to come back to 1
      have horder : ∀ k < 24, 0 < k → Nat.repeat (Crc.step 0x31#8) k 1#8 ≠ 1#8 := by
        decide +kernel
      exact Crc.not_dvd_of_two hlast htwo fun k hpos hlt => horder k hlt hpos
    · refine Crc.not_dvd_of_odd ?_ (hthree ▸ by decide)
      rw [generator_eq]
      simp only [eval_add, eval_pow, eval_X, one_pow, eval_one]
      decide
  · exact Crc.not_dvd_of_burst hlast hne hk

/-- Both copies of the check accept what ends with the remainder, and notice small
changes. -/
theorem crc_notices_small_changes : Notices Lab22.crcOk ∧ Notices Lab33.crcSensirion2b := by
  have hnotices : Notices fun d0 d1 check => crcRegister d0 d1 == check := by
    refine ⟨crcRegister_eq_iff, ?_⟩
    intro d0 d1 check e0 e1 e2 hok hsmall
    rw [← Bool.not_eq_true, crcRegister_eq_iff]
    intro hchanged
    exact hsmall.not_dvd
      ((accepted_change_iff ((crcRegister_eq_iff d0 d1 check).1 hok) e0 e1 e2).1 hchanged)
  exact ⟨hnotices, hnotices⟩

end Cse121
