import Cse121.AirMouse.Sections

/-! # Every call returns once

The calls of `i2cdev.c` come back, however the driver of the bus answers and whatever the
other tasks do in between: an operation is tried four times at most, and no try has more than
three sections. A call returns once.
-/

namespace Cse121.I2cdev

section Calls

variable {ι : Type} [DecidableEq ι]

/-- A call on the device returns. -/
def Out.returns (d : ι) : Out ι → Bool
  | .bus _ => false
  | .transfer _ _ => false
  | .returned d' _ => d' = d

/-- How often calls on a device return. -/
def returns (d : ι) (outs : List (Out ι)) : Nat := outs.countP (Out.returns d)

/-- How many calls on a device have not returned. -/
def Dev.busy (x : Dev) : Nat := if x.phase = .idle then 0 else 1

@[simp] theorem returns_nil (d : ι) : returns d [] = 0 := rfl

@[simp] theorem returns_bus (d : ι) (e : Ledger.Event Nat) (outs : List (Out ι)) :
    returns d (.bus e :: outs) = returns d outs := by
  simp [returns, Out.returns]

@[simp] theorem returns_transfer (d d' : ι) (addr : Nat) (outs : List (Out ι)) :
    returns d (.transfer d' addr :: outs) = returns d outs := by
  simp [returns, Out.returns]

@[simp] theorem returns_returned (d d' : ι) (err : EspErr) (outs : List (Out ι)) :
    returns d (.returned d' err :: outs) = returns d outs + if d' = d then 1 else 0 := by
  simp [returns, Out.returns, List.countP_cons]

theorem returns_append (d : ι) (xs ys : List (Out ι)) :
    returns d (xs ++ ys) = returns d xs + returns d ys := List.countP_append

theorem returns_buses (d : ι) (bs : List Nat) (f : Nat → Ledger.Event Nat) :
    returns d (bs.map fun b => .bus (f b)) = 0 := by
  induction bs with
  | nil => rfl
  | cons b bs ih => rw [List.map_cons, returns_bus, ih]

/-! ## A step -/

section Steps

variable {cfg : Config ι} {s : State ι} {d : ι} {res : EspErr} {x : Dev} {outs : List (Out ι)}

/-- No call returns but the one that goes on. -/
theorem Section.returns {ps : PortState} {next : Nat} (h : Section cfg s d res x ps next outs)
    (d' : ι) : returns d' outs = 0 := by
  cases h with
  | deleted hphase hinstalled href => exact returns_buses d' _ _
  | _ => simp

/-- A call that is under way comes nearer to its end, by which it returns. -/
theorem Does.once {m : Nat} {r : State ι × List (Out ι)} (h : Does cfg s d res m r) :
    (∀ d', d' ≠ d → r.1.devs d' = s.devs d' ∧ returns d' r.2 = 0) ∧
      (r.1.devs d).phase.rank < m ∧ returns d r.2 + (r.1.devs d).busy = 1 := by
  rcases h with ⟨x, ps, next, outs, hsection, phase, err, -, hrank, -, rfl⟩
  have hdevs : ((s.after cfg d x ps next s.slots).goTo d phase) =
      s.after cfg d { x with phase := phase } ps next s.slots := after_goTo cfg phase
  refine ⟨fun d' hd => ⟨?_, ?_⟩, ?_, ?_⟩
  · rw [hdevs, after_devs_of_ne cfg hd]
  · rw [returns_append, hsection.returns d']
    split
    · simp [hd.symm]
    · rfl
  · rw [hdevs, after_devs]
    exact hrank
  · rw [hdevs, after_devs, returns_append, hsection.returns d, Dev.busy]
    split
    · simp
    · rfl

/-- A call that begins returns, or is under way. -/
theorem Begins.once {c : Call} (h : Begins s d c x outs) :
    (∀ d', d' ≠ d → returns d' outs = 0) ∧ returns d outs + x.busy = 1 := by
  cases h with
  | create => exact ⟨fun d' hd => by simp [hd.symm], by simp [Dev.busy]⟩
  | delete => exact ⟨fun d' _ => returns_buses d' _ _, by rw [returns_buses]; simp [Dev.busy]⟩
  | operate => exact ⟨fun _ _ => rfl, by simp [Dev.busy]⟩
  | checkPresent => exact ⟨fun _ _ => rfl, by simp [Dev.busy]⟩

end Steps

/-! ## Runs -/

section Runs

variable (cfg : Config ι) (d : ι)

/-- The call on the device that begins with an input. -/
def callOf (s : State ι) : Input ι → Option Call
  | .call d' c _ _ => if d' = d ∧ (s.devs d').phase = .idle then some c else none
  | .goOn .. => none

/-- The calls on the device that begin in a run. -/
def calls : State ι → List (Input ι) → List Call
  | _, [] => []
  | s, i :: is => (callOf d s i).toList ++ calls (step cfg s i).1 is

/-- Whether an input lets the task of the device go on. -/
def Input.goesOn : Input ι → Bool
  | .call .. => false
  | .goOn d' _ _ => d' = d

/-- A call begins, or one goes on or returns, or nothing happens to the device. -/
theorem returns_step (s : State ι) (i : Input ι) :
    returns d (step cfg s i).2 + ((step cfg s i).1.devs d).busy =
      (callOf d s i).toList.length + (s.devs d).busy := by
  have h := step_cases cfg s i
  generalize step cfg s i = r at h
  cases h with
  | busy hbusy => simp [callOf, hbusy]
  | idle hidle => simp [callOf]
  | @call d' c mutexOk lock x slots outs hidle hbegins hslots =>
      by_cases hd : d = d'
      · subst hd
        rw [after_devs, hbegins.once.2]
        simp [callOf, hidle, Dev.busy]
      · rw [after_devs_of_ne cfg hd, hbegins.once.1 d hd]
        simp [callOf, Ne.symm hd]
  | @goOn d' lock res r hbusy hdoes =>
      rcases hdoes.once with ⟨hothers, -, honce⟩
      by_cases hd : d = d'
      · subst hd
        rw [honce]
        simp [callOf, hbusy, Dev.busy]
      · rw [(hothers d hd).1, (hothers d hd).2]
        simp [callOf]

theorem returns_run (s : State ι) (is : List (Input ι)) :
    returns d ((system cfg).out s is) + (((system cfg).state s is).devs d).busy =
      (calls cfg d s is).length + (s.devs d).busy := by
  induction is generalizing s with
  | nil => simp [calls]
  | cons i is ih =>
      have hstep := returns_step cfg d s i
      have hrest := ih (step cfg s i).1
      rw [Transducer.out_cons, Transducer.state_cons, returns_append, calls, List.length_append]
      show returns d (step cfg s i).2 + returns d ((system cfg).out (step cfg s i).1 is) +
        (((system cfg).state (step cfg s i).1 is).devs d).busy = _
      omega

/-- The task of a call that is under way is not interrupted. -/
theorem rank_step {s : State ι} (hbusy : (s.devs d).phase ≠ .idle) (i : Input ι) :
    ((step cfg s i).1.devs d).phase.rank + (if i.goesOn d then 1 else 0) ≤
      (s.devs d).phase.rank := by
  have h := step_cases cfg s i
  generalize step cfg s i = r at h
  cases h with
  | busy _ => simp [Input.goesOn]
  | @idle d' lock res hidle =>
      have hd : d' ≠ d := by
        rintro rfl
        exact hbusy hidle
      simp [Input.goesOn, hd]
  | @call d' c mutexOk lock x slots outs hidle hbegins hslots =>
      have hd : d ≠ d' := by
        rintro rfl
        exact hbusy hidle
      rw [after_devs_of_ne cfg hd]
      simp [Input.goesOn]
  | @goOn d' lock res r hbusy hdoes =>
      rcases hdoes.once with ⟨hothers, hnearer, -⟩
      by_cases hd : d = d'
      · subst hd
        simpa [Input.goesOn] using Nat.succ_le_of_lt hnearer
      · rw [(hothers d hd).1]
        simp [Input.goesOn, Ne.symm hd]

theorem idle_of_rank {phase : Phase} (h : phase.rank = 0) : phase = .idle := by
  unfold Phase.rank at h
  split at h
  · rfl
  all_goals simp at h

/-- Once its task has gone on often enough, a call is over, whatever the other tasks do. -/
theorem idle_within {s : State ι} {is : List (Input ι)}
    (hsections : (s.devs d).phase.rank ≤ is.countP (Input.goesOn d)) :
    ∃ pre post, is = pre ++ post ∧ (((system cfg).state s pre).devs d).phase = .idle := by
  induction is generalizing s with
  | nil => exact ⟨[], [], rfl, idle_of_rank (Nat.le_zero.1 hsections)⟩
  | cons i is ih =>
      by_cases hidle : (s.devs d).phase = .idle
      · exact ⟨[], i :: is, rfl, hidle⟩
      · have hrank := rank_step cfg d hidle i
        rw [List.countP_cons] at hsections
        rcases ih (s := (step cfg s i).1) (by omega) with ⟨pre, post, rfl, hpre⟩
        exact ⟨i :: pre, post, rfl, hpre⟩

/-- A call returns once, and it does when its task has had twelve more sections at the
latest. -/
theorem calls_return (is : List (Input ι)) :
    returns d ((system cfg).out (init ι) is) +
        (((system cfg).state (init ι) is).devs d).busy = (calls cfg d (init ι) is).length ∧
      ∀ more, 12 ≤ more.countP (Input.goesOn d) → ∃ pre post, more = pre ++ post ∧
        returns d ((system cfg).out (init ι) (is ++ pre)) =
          (calls cfg d (init ι) (is ++ pre)).length := by
  have hidle : ((init ι).devs d).busy = 0 := rfl
  constructor
  · rw [returns_run, hidle, Nat.add_zero]
  · intro more hmore
    rcases idle_within cfg d ((rank_le _).trans hmore) with ⟨pre, post, rfl, hpre⟩
    refine ⟨pre, post, rfl, ?_⟩
    have hreturns := returns_run cfg d (init ι) (is ++ pre)
    have hbusy : (((system cfg).state (init ι) (is ++ pre)).devs d).busy = 0 := by
      rw [Transducer.state_append]
      exact if_pos hpre
    rwa [hbusy, hidle] at hreturns

end Runs

end Calls

end Cse121.I2cdev
