import Cse121.Lib.Truncate
import Cse121.Morse.Sender

/-! # The speeds of the sender of lab 5.3

`calculate_timing` of `lab5_3/sender/send.c` turns a speed into the lengths of the symbols
and gaps, in the `int`s of the file. `main` accepts every positive speed. The speed is in
exact arithmetic; an `int` that overflows has no value.
-/

namespace Cse121.Lab53.Sender

/-- The value of an `int` computation. -/
def inInt (x : Int) : Option Int := if -2147483648 ≤ x ∧ x ≤ 2147483647 then some x else none

/-- The lengths that `calculate_timing` derives from the dot. -/
def dotTiming (dotDurationUs : Int) : Option Timing := do
  let dashDurationUs ← inInt (dotDurationUs * 3)
  let letterGapUs ← inInt (dotDurationUs * 3)
  let wordGapUs ← inInt (dotDurationUs * 7)
  return {
    dotDurationUs
    dashDurationUs
    symbolGapUs := dotDurationUs
    letterGapUs
    wordGapUs }

/-- `calculate_timing` -/
def calculateTiming (speed : ℚ) : Option Timing := do
  let dotDurationSec := 1 / (speed * 10)
  let dotDurationUs ← inInt (truncate (dotDurationSec * 1000000))
  let dashDurationUs ← inInt (dotDurationUs * 3)
  let letterGapUs ← inInt (dotDurationUs * 3)
  let wordGapUs ← inInt (dotDurationUs * 7)
  return {
    dotDurationUs
    dashDurationUs
    symbolGapUs := dotDurationUs
    letterGapUs
    wordGapUs }

/-- The thing that is done is a call of `precise_sleep_us` for a time that is not negative,
and the `timespec` is that time. -/
def GoodSleep (a : Act) : Prop :=
  ∃ us sec nsec, a = .nanosleep sec nsec ∧ preciseSleepUs us = [a] ∧ 0 ≤ us ∧
    us ≤ 2147483647 ∧ 0 ≤ sec ∧ 0 ≤ nsec ∧ nsec < 1000000000 ∧
    sec * 1000000000 + nsec = 1000 * us

/-- The timing of a speed is safe: no `int` overflows, the lengths are in their ratios, and
every sleep of every run is what it should be. -/
def SafeSpeed (speed : ℚ) : Prop :=
  ∃ t, calculateTiming speed = some t ∧ 1 ≤ t.dotDurationUs ∧
    (inInt (t.wordGapUs * 2)).isSome = true ∧ t = timingOfDot t.dotDurationUs ∧
    ∀ repetitions message, ∀ a ∈ main t repetitions message,
      (∃ value, a = .gpioWrite value) ∨ GoodSleep a

/-! ## The ints -/

theorem inInt_of_range {x : Int} (hlo : -2147483648 ≤ x) (hhi : x ≤ 2147483647) :
    inInt x = some x :=
  if_pos ⟨hlo, hhi⟩

/-- The dot of a positive speed. -/
theorem dot_eq {speed : ℚ} (hspeed : 0 < speed) :
    truncate (1 / (speed * 10) * 1000000) = ⌊100000 / speed⌋ := by
  have hscale : 1 / (speed * 10) * 1000000 = 100000 / speed := by
    field_simp
    norm_num
  rw [hscale, Truncate.of_nonneg (by positivity)]

theorem eq_of_inInt {x y : Int} (h : inInt x = some y) : y = x := by
  unfold inInt at h
  split at h
  · exact (Option.some.inj h).symm
  · cases h

/-- A timing is made of its dot. -/
theorem calculateTiming_dot {speed : ℚ} {t : Timing} (h : calculateTiming speed = some t) :
    t = timingOfDot (truncate (1 / (speed * 10) * 1000000)) := by
  unfold calculateTiming at h
  simp only [Option.bind_eq_bind, Option.bind_eq_some_iff] at h
  rcases h with ⟨dot, hdot, dash, hdash, letter, hletter, word, hword, h⟩
  obtain rfl := Option.some.inj h
  rw [eq_of_inInt hdash, eq_of_inInt hletter, eq_of_inInt hword, eq_of_inInt hdot]
  rfl

/-- The lengths that a dot leaves fit exactly when the largest does. -/
theorem dotTiming_of_nonneg {d : Int} (hlo : 0 ≤ d) :
    dotTiming d = if d * 7 ≤ 2147483647 then some (timingOfDot d) else none := by
  by_cases hhi : d * 7 ≤ 2147483647
  · have hthree : inInt (d * 3) = some (d * 3) := inInt_of_range (by omega) (by omega)
    have hseven : inInt (d * 7) = some (d * 7) := inInt_of_range (by omega) (by omega)
    rw [if_pos hhi]
    unfold dotTiming
    simp only [Option.bind_eq_bind, Option.bind_some, hthree, hseven]
    rfl
  · have hseven : inInt (d * 7) = none := if_neg fun h => hhi h.2
    rw [if_neg hhi]
    unfold dotTiming
    rw [hseven]
    cases inInt (d * 3) <;> rfl

theorem calculateTiming_eq (speed : ℚ) :
    calculateTiming speed =
      (inInt (truncate (1 / (speed * 10) * 1000000))).bind dotTiming :=
  rfl

/-- There is a timing if the largest length fits. -/
theorem calculateTiming_of_dot {speed : ℚ} {d : Int}
    (hd : truncate (1 / (speed * 10) * 1000000) = d) (hlo : 0 ≤ d) (hhi : d * 7 ≤ 2147483647) :
    calculateTiming speed = some (timingOfDot d) := by
  have hdot : inInt d = some d := inInt_of_range (by omega) (by omega)
  rw [calculateTiming_eq, hd, hdot, Option.bind_some, dotTiming_of_nonneg hlo, if_pos hhi]

/-! ## The sleeps -/

theorem mem_sendCode {sendDot sendDash letterGap wordGap : List Act} {morse : CString} {a : Act}
    (h : a ∈ sendCode sendDot sendDash letterGap wordGap morse) :
    a ∈ sendDot ∨ a ∈ sendDash ∨ a ∈ letterGap ∨ a ∈ wordGap := by
  unfold sendCode at h
  split at h
  · exact Or.inr (Or.inr (Or.inr h))
  · rcases List.mem_append.1 h with h | h
    · rcases List.mem_flatMap.1 h with ⟨s, -, h⟩
      split at h
      · exact Or.inl h
      · split at h
        · exact Or.inr (Or.inl h)
        · simp at h
    · exact Or.inr (Or.inr (Or.inl h))

theorem mem_sendChars {getMorseCode : UInt8 → Option CString} {sendMorseChar : CString → List Act}
    {message : CString} {a : Act} (h : a ∈ sendChars getMorseCode sendMorseChar message) :
    ∃ morse, a ∈ sendMorseChar morse := by
  rcases List.mem_flatMap.1 h with ⟨c, -, h⟩
  split at h
  · exact ⟨_, h⟩
  · simp at h

theorem mem_sendRepeated {sendMessage pause : List Act} {n : Nat} {a : Act}
    (h : a ∈ sendRepeated sendMessage pause n) : a ∈ sendMessage ∨ a ∈ pause := by
  rcases List.mem_flatMap.1 h with ⟨i, -, h⟩
  rcases List.mem_append.1 h with h | h
  · exact Or.inl h
  · split at h
    · exact Or.inr h
    · simp at h

/-- A sleep for a time that fits. -/
theorem goodSleep {us : Int} (hlo : 0 ≤ us) (hhi : us ≤ 2147483647) {a : Act}
    (ha : a ∈ preciseSleepUs us) : GoodSleep a := by
  obtain rfl := List.mem_singleton.1 ha
  have hdiv : us.tdiv 1000000 = us / 1000000 := Int.tdiv_eq_ediv_of_nonneg hlo
  have hmod : us.tmod 1000000 = us % 1000000 := Int.tmod_eq_emod_of_nonneg hlo
  refine ⟨us, _, _, rfl, rfl, hlo, hhi, ?_⟩
  rw [hdiv, hmod]
  omega

/-- All that a sender with a dot that fits does is to write the line and to sleep well. -/
theorem main_good {d : Int} (hlo : 0 ≤ d) (hhi : d * 14 ≤ 2147483647) (repetitions : Nat)
    (message : CString) {a : Act} (ha : a ∈ main (timingOfDot d) repetitions message) :
    (∃ value, a = .gpioWrite value) ∨ GoodSleep a := by
  have hwrite : ∀ value, ∀ a ∈ gpioWrite value, ∃ value, a = .gpioWrite value := by
    intro value a ha
    exact ⟨value, List.mem_singleton.1 ha⟩
  have hsymbol : ∀ us, 0 ≤ us → us ≤ 2147483647 →
      ∀ a ∈ gpioWrite 1 ++ preciseSleepUs us ++ gpioWrite 0 ++ preciseSleepUs d,
        (∃ value, a = .gpioWrite value) ∨ GoodSleep a := by
    intro us husLo husHi a ha
    simp only [List.mem_append] at ha
    rcases ha with ((ha | ha) | ha) | ha
    · exact Or.inl (hwrite 1 a ha)
    · exact Or.inr (goodSleep husLo husHi ha)
    · exact Or.inl (hwrite 0 a ha)
    · exact Or.inr (goodSleep hlo (by omega) ha)
  unfold main at ha
  simp only [List.mem_append] at ha
  rcases ha with ((ha | ha) | ha) | ha
  · exact Or.inl (hwrite 0 a ha)
  · exact Or.inl (hwrite 0 a ha)
  · rcases mem_sendRepeated ha with ha | ha
    · rcases mem_sendChars ha with ⟨morse, ha⟩
      rcases mem_sendCode ha with ha | ha | ha | ha
      · exact hsymbol d hlo (by omega) a ha
      · exact hsymbol (d * 3) (by omega) (by omega) a ha
      · exact Or.inr (goodSleep (by simp only [timingOfDot]; omega)
          (by simp only [timingOfDot]; omega) ha)
      · exact Or.inr (goodSleep (by simp only [timingOfDot]; omega)
          (by simp only [timingOfDot]; omega) ha)
    · exact Or.inr (goodSleep (by simp only [timingOfDot]; omega)
        (by simp only [timingOfDot]; omega) ha)
  · exact Or.inl (hwrite 0 a ha)

/-- The timing is safe exactly for speeds that leave a dot of at least one microsecond and
a pause between repetitions that fits an `int`. -/
theorem safeSpeed_iff {speed : ℚ} (hspeed : 0 < speed) :
    SafeSpeed speed ↔ speed ≤ 100000 ∧ 100000 < 153391690 * speed := by
  have hdot := dot_eq hspeed
  have hone : (1 : Int) ≤ ⌊100000 / speed⌋ ↔ speed ≤ 100000 := by
    rw [Int.le_floor, Int.cast_one, le_div_iff₀ hspeed, one_mul]
  -- the largest product is the pause of two word gaps, 14 dots
  have hbig : ⌊100000 / speed⌋ * 14 ≤ 2147483647 ↔ 100000 < 153391690 * speed := by
    have hfloor : ⌊100000 / speed⌋ < 153391690 ↔ 100000 < 153391690 * speed := by
      rw [Int.floor_lt, div_lt_iff₀ hspeed]
      norm_num
    rw [← hfloor]
    omega
  rw [← hone, ← hbig, ← hdot]
  constructor
  · rintro ⟨t, ht, hpos, hpause, -, -⟩
    obtain rfl := calculateTiming_dot ht
    refine ⟨hpos, ?_⟩
    unfold inInt timingOfDot at hpause
    simp only [Option.isSome_ite] at hpause
    omega
  · rintro ⟨hpos, hfits⟩
    refine ⟨_, calculateTiming_of_dot rfl (by omega) (by omega), hpos, ?_, rfl, ?_⟩
    · rw [inInt_of_range (by simp only [timingOfDot]; omega) (by simp only [timingOfDot]; omega)]
      rfl
    · intro repetitions message a ha
      exact main_good (by omega) hfits repetitions message ha

theorem safeSpeed_iff_ten : SafeSpeed 10 := by
  refine (safeSpeed_iff (by norm_num)).2 ?_
  norm_num

/-- At 200000 characters a second the dot has no length. -/
theorem too_fast : ¬ ∀ speed : ℚ, 0 < speed → SafeSpeed speed := by
  intro h
  rcases h 200000 (by norm_num) with ⟨t, ht, hpos, -⟩
  rw [calculateTiming_dot ht] at hpos
  have hdot : truncate (1 / (200000 * 10) * 1000000) = 0 :=
    Truncate.eq_zero (by norm_num) (by norm_num)
  rw [hdot] at hpos
  exact absurd hpos (by decide)

end Cse121.Lab53.Sender
