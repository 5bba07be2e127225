import Cse121.Lib.Stretch
import Cse121.Lib.Transducer
import Mathlib.Algebra.Order.Ring.Rat
import Mathlib.Tactic.NormNum

/-! # The acceleration of the air mouse

`lab4_3/main/lab4_3.c`: `calculate_mouse_delta` turns the tilt of one axis into a
movement of the pointer that gets faster while the tilt is held. The state stores one
start time, that of the stretch of samples with the same tilt level; the direction of
the tilt has no part in it.
-/

namespace Cse121.Lab43

/-- `tilt_level_t`. -/
inductive TiltLevel where
  | none
  | aBit
  | aLot
deriving DecidableEq, Repr

/-- `direction_state_t`. -/
structure DirectionState where
  startTimeMs : Int
  level : TiltLevel
  active : Bool
deriving DecidableEq, Repr

/-- What a call of `calculate_mouse_delta` reads: its argument and
`esp_timer_get_time`. -/
structure Reading where
  gValue : ℚ
  timerUs : Int
deriving DecidableEq, Repr

/-- The `float` nearest to 0.12. -/
def deadband : ℚ := 16106127 / 134217728

/-- The `float` nearest to 0.35. -/
def largeTilt : ℚ := 11744051 / 33554432

/-- `get_tilt_level`. -/
def getTiltLevel (gValue : ℚ) : TiltLevel :=
  let absG := |gValue|
  if absG < deadband then .none
  else if absG < largeTilt then .aBit
  else .aLot

def baseSpeed (level : TiltLevel) : Int := if level = .aBit then 3 else 8

def accelMult (durationMs : Int) : Int :=
  if durationMs > 500 then 3 else if durationMs > 200 then 2 else 1

/-- `esp_timer_get_time() / 1000`. -/
def Reading.nowMs (x : Reading) : Int := x.timerUs.tdiv 1000

/-- `calculate_mouse_delta`: the new state of the direction and the movement. -/
def calculateMouseDelta (dir : DirectionState) (x : Reading) : DirectionState × Int :=
  let newLevel := getTiltLevel x.gValue
  if newLevel = .none ∨ dir.active = false then
    ({ active := newLevel ≠ .none, level := newLevel, startTimeMs := x.nowMs }, 0)
  else
    let dir := if newLevel ≠ dir.level then
        { dir with level := newLevel, startTimeMs := x.nowMs }
      else dir
    let durationMs := x.nowMs - dir.startTimeMs
    let delta := baseSpeed dir.level * accelMult durationMs
    (dir, if x.gValue > 0 then delta else -delta)

/-- The calls for one axis. -/
def mouseAxis : Transducer DirectionState Reading Int where
  step dir x := ((calculateMouseDelta dir x).1, [(calculateMouseDelta dir x).2])

def Reading.level (x : Reading) : TiltLevel := getTiltLevel x.gValue

/-- A call at rest, or in the deadband, starts over. -/
theorem calculate_rest {dir : DirectionState} {x : Reading}
    (h : x.level = .none ∨ dir.active = false) :
    calculateMouseDelta dir x = (⟨x.nowMs, x.level, x.level ≠ .none⟩, 0) :=
  if_pos h

/-- A call that goes on after a tilt restarts the time if the level is another one. -/
theorem calculate_held {start : Int} {level : TiltLevel} {x : Reading} (hx : x.level ≠ .none) :
    calculateMouseDelta ⟨start, level, true⟩ x =
      let start' := if level = x.level then start else x.nowMs
      let delta := baseSpeed x.level * accelMult (x.nowMs - start')
      (⟨start', x.level, true⟩, if x.gValue > 0 then delta else -delta) := by
  have hgo : ¬ (getTiltLevel x.gValue = .none ∨
      (⟨start, level, true⟩ : DirectionState).active = false) := by
    rintro (h | h)
    · exact hx h
    · simp at h
  unfold calculateMouseDelta
  rw [if_neg hgo]
  by_cases hlevel : level = x.level
  · subst hlevel
    simp [Reading.level]
  · have hlevel' : getTiltLevel x.gValue ≠ level := fun h => hlevel h.symm
    simp [Reading.level, hlevel', Ne.symm hlevel']

/-- The movement fits the `int8_t` that is returned. -/
theorem calculate_range (dir : DirectionState) (x : Reading) :
    -24 ≤ (calculateMouseDelta dir x).2 ∧ (calculateMouseDelta dir x).2 ≤ 24 := by
  have hmult : ∀ d, accelMult d = 1 ∨ accelMult d = 2 ∨ accelMult d = 3 := by
    intro d
    unfold accelMult
    split
    · simp
    · split <;> simp
  have hbase : ∀ l, baseSpeed l = 3 ∨ baseSpeed l = 8 := by
    intro l
    unfold baseSpeed
    split <;> simp
  have hdelta : ∀ l d, -24 ≤ (if x.gValue > 0 then baseSpeed l * accelMult d
      else -(baseSpeed l * accelMult d)) ∧ (if x.gValue > 0 then baseSpeed l * accelMult d
      else -(baseSpeed l * accelMult d)) ≤ 24 := by
    intro l d
    rcases hbase l with hb | hb <;> rcases hmult d with hm | hm | hm <;> rw [hb, hm] <;>
      split <;> decide
  unfold calculateMouseDelta
  simp only
  split
  · exact ⟨by simp, by simp⟩
  · exact hdelta _ _

/-! ## What the state summarises -/

/-- No tilt before a reading: there is none before it, or it is in the deadband. -/
def AtRest (hist : List Reading) : Prop := ∀ y ∈ hist.getLast?, y.level = .none

instance (hist : List Reading) : Decidable (AtRest hist) :=
  inferInstanceAs (Decidable (∀ y ∈ hist.getLast?, y.level = .none))

/-- The movement for a tilt that has been held for as long as `key` stayed the same. -/
def heldDelta {κ : Type*} [DecidableEq κ] (key : Reading → κ) (hist : List Reading)
    (x : Reading) : Int :=
  if x.level = .none ∨ AtRest hist then 0
  else
    let delta := baseSpeed x.level * accelMult (x.nowMs - Stretch.since key Reading.nowMs hist x)
    if x.gValue > 0 then delta else -delta

/-- The state after some readings: inactive at rest, and else the level of the last one
and the start of its stretch. -/
structure Summarises (hist : List Reading) (dir : DirectionState) : Prop where
  rest : AtRest hist → dir.active = false
  held : ∀ pre y, hist = pre ++ [y] → y.level ≠ .none →
    dir = ⟨Stretch.since Reading.level Reading.nowMs pre y, y.level, true⟩

/-- A tilt after rest starts a stretch. -/
theorem since_rest {κ : Type*} [DecidableEq κ] {key : Reading → κ}
    (hkey : ∀ x y, key x = key y → x.level = y.level) {hist : List Reading} (hrest : AtRest hist)
    {x : Reading} (hx : x.level ≠ .none) :
    Stretch.since key Reading.nowMs hist x = x.nowMs := by
  induction hist using List.reverseRecOn with
  | nil => exact Stretch.since_nil key Reading.nowMs x
  | append_singleton pre y _ =>
      have hy : y.level = .none := hrest y (by simp)
      have hne : key y ≠ key x := by
        intro heq
        exact hx ((hkey y x heq).symm.trans hy)
      rw [Stretch.since_concat, if_neg hne]

/-- Readings with a tilt have one before them that the state remembers, or are the first
of their stretch. -/
theorem not_rest {hist : List Reading} (h : ¬ AtRest hist) :
    ∃ pre y, hist = pre ++ [y] ∧ y.level ≠ .none := by
  induction hist using List.reverseRecOn with
  | nil => exact absurd (by simp [AtRest]) h
  | append_singleton pre y _ =>
      refine ⟨pre, y, rfl, ?_⟩
      intro hy
      exact h (by simpa [AtRest] using hy)

theorem summarises_start (startTimeMs : Int) (level : TiltLevel) :
    Summarises [] ⟨startTimeMs, level, false⟩ := by
  constructor
  · intro _
    rfl
  · intro pre y h
    simp at h

/-- The state after a reading is determined by the level of the reading and its
stretch. -/
theorem summarises_last {hist : List Reading} {x : Reading} {dir : DirectionState}
    (hrest : x.level = .none → dir.active = false)
    (hheld : x.level ≠ .none →
      dir = ⟨Stretch.since Reading.level Reading.nowMs hist x, x.level, true⟩) :
    Summarises (hist ++ [x]) dir := by
  constructor
  · intro h
    exact hrest (h x (by simp))
  · intro pre y hy hlevel
    obtain ⟨rfl, hxy⟩ := List.append_inj' hy rfl
    obtain rfl : x = y := List.singleton_inj.1 hxy
    exact hheld hlevel

/-- One call moves the pointer for as long as the level was held, and keeps the
summary. -/
theorem summarises_step {hist : List Reading} {dir : DirectionState} (h : Summarises hist dir)
    (x : Reading) :
    Summarises (hist ++ [x]) (calculateMouseDelta dir x).1 ∧
      (calculateMouseDelta dir x).2 = heldDelta Reading.level hist x := by
  unfold heldDelta
  by_cases hx : x.level = .none
  · -- the deadband
    rw [calculate_rest (Or.inl hx), if_pos (Or.inl hx)]
    refine ⟨summarises_last ?_ ?_, rfl⟩
    · intro _
      simp [hx]
    · intro hne
      exact absurd hx hne
  · by_cases hrest : AtRest hist
    · -- the first reading of a tilt
      rw [calculate_rest (Or.inr (h.rest hrest)), if_pos (Or.inr hrest)]
      refine ⟨summarises_last (fun hne => absurd hne hx) ?_, rfl⟩
      intro _
      rw [since_rest (fun _ _ heq => heq) hrest hx]
      simp [hx]
    · -- a tilt after a tilt
      rcases not_rest hrest with ⟨pre, y, rfl, hy⟩
      have hno : ¬ (x.level = .none ∨ AtRest (pre ++ [y])) := by
        rintro (h | h)
        · exact hx h
        · exact hrest h
      rw [h.held pre y rfl hy, calculate_held hx, if_neg hno, Stretch.since_concat]
      refine ⟨summarises_last (fun hne => absurd hne hx) ?_, rfl⟩
      intro _
      rw [Stretch.since_concat]

/-- After any readings of an axis that was inactive. -/
theorem summarises_run (startTimeMs : Int) (level : TiltLevel) (hist : List Reading) :
    Summarises hist (mouseAxis.state ⟨startTimeMs, level, false⟩ hist) :=
  Transducer.history_invariant mouseAxis _ Summarises (summarises_start startTimeMs level)
    (fun _ x _ h => (summarises_step h x).1) hist

/-! ## Reversals -/

/-- The tilt level and the direction of a reading. -/
def Reading.heading (x : Reading) : TiltLevel × Bool := (x.level, decide (x.gValue > 0))

theorem baseSpeed_pos (level : TiltLevel) : 0 < baseSpeed level := by
  unfold baseSpeed
  split <;> decide

/-- The pointer moves as it should for a tilt held in one direction exactly when the time
since the level changed is in the same band as the time since the level or the direction
changed, or when there is no movement. -/
theorem delta_iff (startTimeMs : Int) (level : TiltLevel) (hist : List Reading) (x : Reading) :
    (calculateMouseDelta (mouseAxis.state ⟨startTimeMs, level, false⟩ hist) x).2 =
        heldDelta Reading.heading hist x ↔
      (x.level = .none ∨ AtRest hist) ∨
        accelMult (x.nowMs - Stretch.since Reading.level Reading.nowMs hist x) =
          accelMult (x.nowMs - Stretch.since Reading.heading Reading.nowMs hist x) := by
  rw [(summarises_step (summarises_run startTimeMs level hist) x).2]
  unfold heldDelta
  by_cases hno : x.level = .none ∨ AtRest hist
  · simp [hno]
  · have hpos := baseSpeed_pos x.level
    rw [if_neg hno, if_neg hno]
    simp only [hno, false_or]
    split
    · rw [Int.mul_eq_mul_left_iff (by omega)]
    · rw [neg_inj, Int.mul_eq_mul_left_iff (by omega)]

/-- A tilt to the right for 600 ms, and then one to the left. -/
theorem reversal_keeps_speed :
    (calculateMouseDelta (mouseAxis.state ⟨0, .none, false⟩
        [⟨1 / 5, 0⟩, ⟨1 / 5, 300000⟩, ⟨1 / 5, 600000⟩]) ⟨-1 / 5, 610000⟩).2 = -9 ∧
      heldDelta Reading.heading [⟨1 / 5, 0⟩, ⟨1 / 5, 300000⟩, ⟨1 / 5, 600000⟩]
        ⟨-1 / 5, 610000⟩ = -3 := by
  decide +kernel

end Cse121.Lab43
