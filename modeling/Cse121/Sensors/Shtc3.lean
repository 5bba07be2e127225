import Cse121.Lib.Dialog
import Cse121.Lib.Truncate
import Cse121.Sensors.Crc
import Mathlib.Tactic.NormNum

/-! # The sensor of lab 2.2

`lab2_2/main/main.c`: `read_once` measures and converts, `app_main` rounds what it prints.
The conversions are in exact arithmetic.
-/

namespace Cse121.Lab22

def shtc3Addr : UInt8 := 0x70
def cmdWake : UInt16 := 0x3517
def cmdSleep : UInt16 := 0xB098
def cmdMeasT : UInt16 := 0x7866

/-- What `read_once` stores. -/
structure Sample where
  rawT : Nat
  rawH : Nat
  tC : ℚ
  tF : ℚ
  rh : ℚ
deriving DecidableEq, Repr

/-- The two bytes of a raw value. -/
def rawOf (hi lo : UInt8) : Nat := hi.toNat * 256 + lo.toNat

/-- The conversion of the raw values. -/
def convert (rT rH : Nat) : Sample :=
  let tc : ℚ := -45 + 175 * (rT / 65535)
  let rh : ℚ := 100 * (rH / 65535)
  ⟨rT, rH, tc, tc * (9 / 5) + 32, rh⟩

/-- `tx16`, and what follows. -/
def tx16 {α : Type} (cmd : UInt16) (next : Bool → Dialog α) : Dialog α :=
  .write shtc3Addr [(cmd >>> 8).toUInt8, cmd.toUInt8] next

/-- The ends of `read_once`: the sensor is sent to sleep unless it is kept awake. -/
def sleepAndReturn (keepSensorAwake : Bool) (r : Option Sample) : Dialog (Option Sample) :=
  if keepSensorAwake then .done r else tx16 cmdSleep fun _ => .done r

/-- `read_once` once the sensor is awake. -/
def measure (keepSensorAwake : Bool) : Dialog (Option Sample) :=
  tx16 cmdMeasT fun ok =>
    if ok = false then sleepAndReturn keepSensorAwake none
    else .read shtc3Addr 6 fun
      | none => sleepAndReturn keepSensorAwake none
      | some rx =>
        if crcOk (rx.get 0) (rx.get 1) (rx.get 2) = false ∨
            crcOk (rx.get 3) (rx.get 4) (rx.get 5) = false then
          sleepAndReturn keepSensorAwake none
        else
          sleepAndReturn keepSensorAwake
            (some (convert (rawOf (rx.get 0) (rx.get 1)) (rawOf (rx.get 3) (rx.get 4))))

/-- `read_once`, with `KEEP_SENSOR_AWAKE`. -/
def readOnce (keepSensorAwake : Bool) : Dialog (Option Sample) :=
  if keepSensorAwake then measure keepSensorAwake
  else tx16 cmdWake fun ok => if ok = false then .done none else measure keepSensorAwake

/-- The integers that `app_main` prints. -/
structure Printed where
  c : Int
  f : Int
  rh : Int
deriving DecidableEq, Repr

/-- `app_main`: the rounding of a sample. -/
def rounded (x : Sample) : Printed where
  c := truncate (x.tC + 1 / 2)
  f := truncate (x.tF + 1 / 2)
  rh := truncate (x.rh + 1 / 2)

/-! ## Asleep again -/

section Sleep

variable {σ : Type} (b : Bus σ) (s : σ)

theorem sent_sleepAndReturn (r : Option Sample) : ∃ ok,
    (sleepAndReturn false r).sent b s = [⟨shtc3Addr, [0xB0, 0x98], ok⟩] := by
  have hbytes : [(cmdSleep >>> 8).toUInt8, cmdSleep.toUInt8] = [0xB0, 0x98] := by decide
  refine ⟨(b.write s shtc3Addr [0xB0, 0x98]).1, ?_⟩
  unfold sleepAndReturn tx16
  rw [hbytes]
  simp

/-- However a measurement ends, the sleep command is the last one that is sent. -/
theorem measure_sleeps : ∃ sent ok,
    (measure false).sent b s = sent ++ [⟨shtc3Addr, [0xB0, 0x98], ok⟩] := by
  obtain ⟨first, r, s', hends⟩ : ∃ first r s',
      (measure false).sent b s = first :: (sleepAndReturn false r).sent b s' := by
    unfold measure tx16
    rw [Dialog.sent_write]
    split
    · exact ⟨_, _, _, rfl⟩
    · rw [Dialog.sent_read]
      split
      · exact ⟨_, _, _, rfl⟩
      · split
        · exact ⟨_, _, _, rfl⟩
        · exact ⟨_, _, _, rfl⟩
  rcases sent_sleepAndReturn b s' r with ⟨ok, hok⟩
  refine ⟨[first], ok, ?_⟩
  rw [hends, hok, List.singleton_append]

/-- Unless it is kept awake, a sensor that has been woken up is sent to sleep in the end. -/
theorem readOnce_sleeps (hwake : ⟨shtc3Addr, [0x35, 0x17], true⟩ ∈ (readOnce false).sent b s) :
    ∃ sent ok, (readOnce false).sent b s = sent ++ [⟨shtc3Addr, [0xB0, 0x98], ok⟩] := by
  simp only [readOnce, tx16, Bool.false_eq_true, if_false, Dialog.sent_write] at hwake ⊢
  split at hwake
  · rename_i hfailed
    simp [hfailed] at hwake
  · rename_i hok
    rw [if_neg hok]
    rcases measure_sleeps b (b.write s shtc3Addr [0x35, 0x17]).2 with ⟨sent, ok, hsent⟩
    exact ⟨_ :: sent, ok, congrArg _ hsent⟩

end Sleep

/-! ## Nearest integers -/

/-- What is printed differs by at most a half from the values that the raw ones stand
for. -/
structure Nearest (p : Printed) (rT rH : Nat) : Prop where
  c : |(p.c : ℚ) - (-45 + 175 * rT / 65535)| ≤ 1 / 2
  f : |(p.f : ℚ) - ((-45 + 175 * rT / 65535) * (9 / 5) + 32)| ≤ 1 / 2
  rh : |(p.rh : ℚ) - 100 * rH / 65535| ≤ 1 / 2

theorem ends_sleepAndReturn {P : Option Sample → Prop} (awake : Bool) {r : Option Sample}
    (hr : P r) : (sleepAndReturn awake r).Ends P := by
  cases awake with
  | true => exact hr
  | false => exact fun _ => hr

/-- A sample is the conversion of the raw values that it tells. -/
theorem ends_measure (awake : Bool) :
    (measure awake).Ends fun r => ∀ x ∈ r, x = convert x.rawT x.rawH := by
  have hnone : ∀ x ∈ (none : Option Sample), x = convert x.rawT x.rawH := by
    intro x hx
    cases hx
  refine fun ok => ?_
  dsimp only
  split
  · exact ends_sleepAndReturn awake hnone
  · intro rx
    dsimp only
    split
    · exact ends_sleepAndReturn awake hnone
    · split
      · exact ends_sleepAndReturn awake hnone
      · refine ends_sleepAndReturn awake ?_
        intro x hx
        obtain rfl := Option.some.inj hx
        rfl

theorem readOnce_sample {σ : Type} (b : Bus σ) (s : σ) (awake : Bool) {x : Sample}
    (hx : ((readOnce awake).run b s).1 = some x) : x = convert x.rawT x.rawH := by
  have hends : (readOnce awake).Ends fun r => ∀ x ∈ r, x = convert x.rawT x.rawH := by
    cases awake with
    | true => exact ends_measure true
    | false =>
        refine fun ok => ?_
        dsimp only
        split
        · intro x hx
          cases hx
        · exact ends_measure false
  exact hends.run b s x hx

/-- No temperature lies half way between two integers. -/
theorem celsius_not_half (rT : Nat) (n : Int) : (n : ℚ) ≠ -45 + 175 * (rT / 65535) + 1 / 2 := by
  intro h
  have hscaled : (131070 * n : ℚ) = 350 * rT - 5832615 := by
    rw [h]
    ring
  have hint : 131070 * n = 350 * rT - 5832615 := by exact_mod_cast hscaled
  omega

/-- The rounded temperature is a nearest integer from -1/2 on, and not below. -/
theorem celsius_nearest_iff (rT rH : Nat) :
    |((rounded (convert rT rH)).c : ℚ) - (convert rT rH).tC| ≤ 1 / 2 ↔
      -(1 / 2) ≤ (convert rT rH).tC := by
  constructor
  · intro h
    by_contra hlt
    obtain ⟨n, hn⟩ := (Truncate.add_half_of_lt (not_le.1 hlt)).1 h
    exact celsius_not_half rT n hn
  · exact Truncate.add_half_of_le

/-- The temperature is at least -1/2 exactly from the raw value 16665 on. -/
theorem celsius_le_iff (rT rH : Nat) : -(1 / 2) ≤ (convert rT rH).tC ↔ 16665 ≤ rT := by
  simp only [convert]
  constructor
  · intro h
    by_contra hlt
    have hle : (rT : ℚ) ≤ 16664 := by exact_mod_cast Nat.lt_succ_iff.1 (not_le.1 hlt)
    linarith
  · intro h
    have hle : (16665 : ℚ) ≤ rT := by exact_mod_cast h
    linarith

/-- For every sample, all three integers are nearest integers exactly if the temperature is
at least -1/2, that is if its raw value is at least 16665. -/
theorem printed_nearest_iff {σ : Type} (b : Bus σ) (s : σ) (awake : Bool) {x : Sample}
    (hx : ((readOnce awake).run b s).1 = some x) :
    Nearest (rounded x) x.rawT x.rawH ↔ 16665 ≤ x.rawT := by
  have hsample := readOnce_sample b s awake hx
  obtain ⟨rT, hrT⟩ : ∃ rT, rT = x.rawT := ⟨_, rfl⟩
  obtain ⟨rH, hrH⟩ : ∃ rH, rH = x.rawH := ⟨_, rfl⟩
  rw [← hrT, ← hrH] at hsample ⊢
  subst hsample
  have htC : (convert rT rH).tC = -45 + 175 * rT / 65535 := by
    simp only [convert]
    ring
  have htF : (convert rT rH).tF = (-45 + 175 * rT / 65535) * (9 / 5) + 32 := by
    simp only [convert]
    ring
  have hrh : (convert rT rH).rh = 100 * rH / 65535 := by
    simp only [convert]
    ring
  rw [← celsius_le_iff rT rH]
  constructor
  · intro h
    have hc := h.c
    rw [← htC] at hc
    exact (celsius_nearest_iff rT rH).1 hc
  · intro h
    refine ⟨?_, ?_, ?_⟩
    · rw [← htC]
      exact (celsius_nearest_iff rT rH).2 h
    · -- at least -1/2 in Celsius is more than 31 in Fahrenheit
      rw [← htF]
      apply Truncate.add_half_of_le
      rw [htF, ← htC]
      linarith
    · rw [← hrh]
      apply Truncate.add_half_of_le
      have hpos : (0 : ℚ) ≤ rH := Nat.cast_nonneg rH
      rw [hrh]
      linarith

/-- A sensor that answers with one frame. -/
def answering (rx : List UInt8) : Bus Nat := .script fun _ => some fun j => rx.getD j 0

/-- A frame of 25 degrees. -/
theorem printed_nearest_iff_warm : Nearest (rounded (convert 26214 32768)) 26214 32768 := by
  have hx : ((readOnce true).run (answering [0x66, 0x66, 0x93, 0x80, 0x00, 0xA2]) 0).1 =
      some (convert 26214 32768) := by
    decide +kernel
  exact (printed_nearest_iff _ 0 true hx).2 (by decide)

/-- In a frame of -10 degrees -9 is printed. -/
theorem below_zero_off_by_one :
    ¬ ∀ (b : Bus Nat) (x : Sample), ((readOnce true).run b 0).1 = some x →
      Nearest (rounded x) x.rawT x.rawH := by
  intro h
  have hx : ((readOnce true).run (answering [0x33, 0x33, 0x88, 0x33, 0x33, 0x88]) 0).1 =
      some (convert 13107 13107) := by
    decide +kernel
  have hc := (h _ _ hx).c
  have hprinted : (rounded (convert 13107 13107)).c = -9 := by decide +kernel
  have hraw : (convert 13107 13107).rawT = 13107 := rfl
  rw [hprinted, hraw, abs_le] at hc
  norm_num at hc

end Cse121.Lab22
