import Cse121.Lib.Register
import Cse121.Lib.Transducer

/-! # The sensor of the air mouse

`lab4_3/main/lab4_3.c`: `imu_mouse_task` looks for the sensor at two addresses, configures
it without looking at the results, and reads it. After five failed readings in a row it
initialises the sensor again, which resets it, and configures it again. What a sensor is
set to is hidden from the task; it is told here by the operations that reached it.
-/

namespace Cse121.Lab43

/-- `ADDR_GND` and `ADDR_VCC`. -/
inductive Addr where
  | gnd
  | vcc
deriving DecidableEq, Repr

def Addr.other : Addr → Addr
  | .gnd => .vcc
  | .vcc => .gnd

/-- `icm42670_accel_fsr_t`. -/
inductive AccelFsr where
  | range16G
  | range8G
  | range4G
  | range2G
deriving DecidableEq, Repr

/-- `icm42670_accel_pwr_mode_t`. -/
inductive AccelPwrMode where
  | disable
  | enableLpMode
  | enableLnMode
deriving DecidableEq, Repr

/-- `RANGE`, which the conversion to g is made for. -/
def range : AccelFsr := .range4G

/-- An operation that took effect: on the sensor at an address, or, for `push`, on the
filter. -/
inductive Op where
  /-- the soft reset of `icm42670_init` -/
  | reset (a : Addr)
  | setAccelFsr (a : Addr) (r : AccelFsr)
  | setAccelAvg (a : Addr)
  | setAccelOdr (a : Addr)
  | setAccelPwrMode (a : Addr) (m : AccelPwrMode)
  /-- a sample read from the sensor goes into the filter and into the reports -/
  | push (a : Addr) (rx ry rz : Int)
deriving DecidableEq, Repr

/-! ## The task -/

/-- How `imu_try_init` ends. A failed one may come as far as the reset. -/
inductive InitOutcome where
  | ok
  | failed (afterReset : Bool)
deriving DecidableEq, Repr

/-- `imu_try_init`. -/
def imuTryInit (a : Addr) : InitOutcome → Bool × List Op
  | .ok => (true, [.reset a])
  | .failed afterReset => (false, if afterReset then [.reset a] else [])

/-- Which of the four calls return `ESP_OK`. -/
structure ConfigOutcome where
  fsr : Bool
  avg : Bool
  odr : Bool
  pwrMode : Bool
deriving DecidableEq, Repr

/-- The four configuration calls. Their results are not looked at. -/
def configure (a : Addr) (o : ConfigOutcome) : List Op :=
  (if o.fsr then [.setAccelFsr a range] else []) ++
  (if o.avg then [.setAccelAvg a] else []) ++
  (if o.odr then [.setAccelOdr a] else []) ++
  (if o.pwrMode then [.setAccelPwrMode a .enableLnMode] else [])

/-- The variables of the task; `imu` is the address in the descriptor. -/
structure ImuTask where
  imu : Addr
  addr : Addr
  consecutiveFail : Nat
deriving DecidableEq, Repr

structure StartOutcome where
  gnd : InitOutcome
  vcc : InitOutcome
  config : ConfigOutcome
deriving DecidableEq, Repr

/-- `imu_mouse_task` up to its loop; without a sensor the task deletes itself. -/
def startUp (o : StartOutcome) : Option ImuTask × List Op :=
  let gnd := imuTryInit .gnd o.gnd
  if gnd.1 then (some ⟨.gnd, .gnd, 0⟩, gnd.2 ++ configure .gnd o.config)
  else
    let vcc := imuTryInit .vcc o.vcc
    if vcc.1 then (some ⟨.vcc, .vcc, 0⟩, gnd.2 ++ vcc.2 ++ configure .vcc o.config)
    else (none, gnd.2 ++ vcc.2)

/-- What the calls of one turn of the loop return, had they been made: the three reads,
the two initialisations and the configuration. -/
structure Turn where
  readX : Option Int
  readY : Option Int
  readZ : Option Int
  own : InitOutcome
  other : InitOutcome
  config : ConfigOutcome
deriving DecidableEq, Repr

/-- The three reads, up to the first that fails. -/
def Turn.readRawData (t : Turn) : Option (Int × Int × Int) := do
  let rx ← t.readX
  let ry ← t.readY
  let rz ← t.readZ
  return (rx, ry, rz)

/-- The recovery after five failures in a row. -/
def reinit (s : ImuTask) (t : Turn) : ImuTask × List Op :=
  let own := imuTryInit s.addr t.own
  if own.1 then
    ({ s with imu := s.addr, consecutiveFail := 0 }, own.2 ++ configure s.addr t.config)
  else
    let other := imuTryInit s.addr.other t.other
    ({ imu := s.addr.other
       addr := if other.1 then s.addr.other else s.addr
       consecutiveFail := 0 }, own.2 ++ other.2 ++ configure s.addr.other t.config)

/-- The loop of `imu_mouse_task`, a turn at a time. -/
def imuLoop : Transducer ImuTask Turn Op where
  step s t :=
    match t.readRawData with
    | none =>
        if s.consecutiveFail + 1 ≥ 5 then reinit s t
        else ({ s with consecutiveFail := s.consecutiveFail + 1 }, [])
    | some (rx, ry, rz) => ({ s with consecutiveFail := 0 }, [.push s.imu rx ry rz])

/-- All operations of a run of the task. -/
def imuMouseTask (o : StartOutcome) (ts : List Turn) : List Op :=
  let start := startUp o
  start.2 ++ match start.1 with
    | none => []
    | some s => imuLoop.out s ts

/-! ## The sensors -/

/-- What a sensor is set to. -/
structure Device where
  fsr : AccelFsr
  pwrMode : AccelPwrMode
deriving DecidableEq, Repr

/-- The state after a soft reset. -/
def Device.defaults : Device := ⟨.range16G, .disable⟩

/-- What an operation does to the sensor at an address. -/
def Device.apply (a : Addr) (d : Device) : Op → Device
  | .reset b => if b = a then .defaults else d
  | .setAccelFsr b r => if b = a then { d with fsr := r } else d
  | .setAccelPwrMode b m => if b = a then { d with pwrMode := m } else d
  | _ => d

/-- The sensor at an address after some operations. -/
def Device.after (a : Addr) (d : Device) (log : List Op) : Device :=
  log.foldl (Device.apply a) d

/-- Powered in low-noise mode, with the range that the conversion is made for. -/
def Device.Configured (d : Device) : Prop := d.pwrMode = .enableLnMode ∧ d.fsr = range

/-- Every sample that is used was read from a configured sensor. -/
def ConfiguredReads (init : Addr → Device) (log : List Op) : Prop :=
  ∀ pre a rx ry rz post, log = pre ++ .push a rx ry rz :: post →
    ((init a).after a pre).Configured

/-- What an operation writes into the range of the sensor at an address. -/
def fsrWrite (a : Addr) : Op → Option AccelFsr
  | .reset b => if b = a then some Device.defaults.fsr else none
  | .setAccelFsr b r => if b = a then some r else none
  | _ => none

/-- What an operation writes into the power mode of the sensor at an address. -/
def pwrWrite (a : Addr) : Op → Option AccelPwrMode
  | .reset b => if b = a then some Device.defaults.pwrMode else none
  | .setAccelPwrMode b m => if b = a then some m else none
  | _ => none

theorem Device.apply_eq (a : Addr) (d : Device) (o : Op) :
    d.apply a o = ⟨(fsrWrite a o).getD d.fsr, (pwrWrite a o).getD d.pwrMode⟩ := by
  cases o with
  | reset b | setAccelFsr b r | setAccelPwrMode b m =>
      by_cases h : b = a <;> simp [Device.apply, fsrWrite, pwrWrite, h]
  | _ => rfl

/-- A sensor is two registers. -/
theorem Device.after_eq (a : Addr) (d : Device) (log : List Op) :
    d.after a log =
      ⟨Register.after (fsrWrite a) d.fsr log, Register.after (pwrWrite a) d.pwrMode log⟩ := by
  induction log generalizing d with
  | nil => rfl
  | cons o log ih =>
      have hstep : d.after a (o :: log) = (d.apply a o).after a log := rfl
      rw [hstep, ih, Device.apply_eq]
      rfl

/-! ## What is written -/

/-- An operation that sets nothing but `RANGE` and the low-noise mode. -/
def Op.Wanted : Op → Prop
  | .setAccelFsr _ r => r = range
  | .setAccelPwrMode _ m => m = .enableLnMode
  | _ => True

theorem imuTryInit_wanted (a : Addr) (o : InitOutcome) : ∀ x ∈ (imuTryInit a o).2, x.Wanted := by
  intro x hx
  rcases o with _ | _ | _ <;> simp [imuTryInit] at hx <;> subst hx <;> trivial

theorem configure_wanted (a : Addr) (o : ConfigOutcome) : ∀ x ∈ configure a o, x.Wanted := by
  intro x hx
  simp only [configure, List.mem_append, List.mem_ite_nil_right, List.mem_singleton] at hx
  rcases hx with ((⟨-, rfl⟩ | ⟨-, rfl⟩) | ⟨-, rfl⟩) | ⟨-, rfl⟩ <;> simp [Op.Wanted]

theorem reinit_wanted (s : ImuTask) (t : Turn) : ∀ x ∈ (reinit s t).2, x.Wanted := by
  unfold reinit
  simp only
  split
  · rw [List.forall_mem_append]
    exact ⟨imuTryInit_wanted _ _, configure_wanted _ _⟩
  · rw [List.forall_mem_append, List.forall_mem_append]
    exact ⟨⟨imuTryInit_wanted _ _, imuTryInit_wanted _ _⟩, configure_wanted _ _⟩

theorem startUp_wanted (o : StartOutcome) : ∀ x ∈ (startUp o).2, x.Wanted := by
  unfold startUp
  simp only
  split
  · rw [List.forall_mem_append]
    exact ⟨imuTryInit_wanted _ _, configure_wanted _ _⟩
  · split
    · rw [List.forall_mem_append, List.forall_mem_append]
      exact ⟨⟨imuTryInit_wanted _ _, imuTryInit_wanted _ _⟩, configure_wanted _ _⟩
    · rw [List.forall_mem_append]
      exact ⟨imuTryInit_wanted _ _, imuTryInit_wanted _ _⟩

/-- A run of the task sets nothing else. -/
theorem imuMouseTask_wanted (o : StartOutcome) (ts : List Turn) :
    ∀ x ∈ imuMouseTask o ts, x.Wanted := by
  have hloop : ∀ s, ∀ x ∈ imuLoop.out s ts, x.Wanted := by
    intro s
    refine Transducer.out_invariant imuLoop (fun _ => True) (fun _ => True) Op.Wanted
      (fun _ _ _ _ => trivial) ?_ (fun _ _ => trivial) trivial
    intro s t _ _ x hx
    simp only [imuLoop] at hx
    split at hx
    · split at hx
      · exact reinit_wanted s t x hx
      · simp at hx
    · rw [List.mem_singleton.1 hx]
      trivial
  intro x hx
  rcases List.mem_append.1 hx with hx | hx
  · exact startUp_wanted o x hx
  · split at hx
    · simp at hx
    · exact hloop _ x hx

/-! ## When the samples are right -/

/-- Since its last soft reset the sensor at `a` has accepted the range and the low-noise
mode, or was never reset and had them from the start. -/
def Accepted (init : Addr → Device) (a : Addr) (log : List Op) : Prop :=
  Register.Since (· = .setAccelFsr a range) (· = .reset a) ((init a).fsr = range) log ∧
  Register.Since (· = .setAccelPwrMode a .enableLnMode) (· = .reset a)
    ((init a).pwrMode = .enableLnMode) log

/-- After wanted operations a sensor is configured exactly when it has accepted it. -/
theorem configured_iff {init : Addr → Device} {a : Addr} {log : List Op}
    (hlog : ∀ x ∈ log, x.Wanted) :
    ((init a).after a log).Configured ↔ Accepted init a log := by
  rw [Device.after_eq]
  unfold Device.Configured Accepted
  rw [and_comm]
  refine and_congr ?_ ?_
  · refine Register.after_eq_iff (show Device.defaults.fsr ≠ range by decide) ?_ ?_ ?_
    · rintro o - rfl
      simp [fsrWrite]
    · rintro o - rfl
      simp [fsrWrite]
    · intro o ho hset hreset
      have hwanted := hlog o ho
      cases o <;> simp_all [fsrWrite, Op.Wanted]
  · refine Register.after_eq_iff (show Device.defaults.pwrMode ≠ .enableLnMode by decide) ?_ ?_ ?_
    · rintro o - rfl
      simp [pwrWrite]
    · rintro o - rfl
      simp [pwrWrite]
    · intro o ho hset hreset
      have hwanted := hlog o ho
      cases o <;> simp_all [pwrWrite, Op.Wanted]

/-- Every sample that is used was read from a sensor that has accepted both settings since
its last soft reset. -/
def AcceptedReads (init : Addr → Device) (log : List Op) : Prop :=
  ∀ pre a rx ry rz post, log = pre ++ .push a rx ry rz :: post → Accepted init a pre

/-- In a log of wanted operations the samples come from configured sensors exactly when
they come from sensors that have accepted the settings. -/
theorem configuredReads_of_wanted {init : Addr → Device} {log : List Op}
    (hlog : ∀ x ∈ log, x.Wanted) : ConfiguredReads init log ↔ AcceptedReads init log := by
  unfold ConfiguredReads AcceptedReads
  refine forall_congr' fun pre => forall_congr' fun a => forall_congr' fun rx =>
    forall_congr' fun ry => forall_congr' fun rz => forall_congr' fun post =>
      forall_congr' fun heq => ?_
  refine configured_iff ?_
  intro x hx
  exact hlog x (heq ▸ List.mem_append_left _ hx)

/-! ## The initialisations of a run -/

/-- An initialisation, at start-up or after five failed readings in a row: the sensor that
is read from then on, the sensors that it has soft-reset, what its configuration calls
returned, and whether a sample is read before the next one. -/
structure Round where
  imu : Addr
  resets : Addr → Bool
  config : ConfigOutcome
  used : Bool

def InitOutcome.resets : InitOutcome → Bool
  | .ok => true
  | .failed afterReset => afterReset

/-- The initialisation at start-up, if a sensor is found. -/
def StartOutcome.round (o : StartOutcome) : Option Round :=
  if o.gnd = .ok then some ⟨.gnd, fun a => a = .gnd, o.config, false⟩
  else if o.vcc = .ok then
    some ⟨.vcc, fun a => a = .vcc ∨ o.gnd.resets = true, o.config, false⟩
  else none

/-- The initialisation of a turn, where `addr` is the sensor that was found last. -/
def Turn.round (t : Turn) (addr : Addr) : Round :=
  if t.own = .ok then ⟨addr, fun a => a = addr, t.config, false⟩
  else
    ⟨addr.other, fun a => if a = addr then t.own.resets else t.other.resets, t.config, false⟩

/-- The sensor that was found last, after it. -/
def Turn.found (t : Turn) (addr : Addr) : Addr :=
  if t.own ≠ .ok ∧ t.other = .ok then addr.other else addr

/-- The initialisations from one on, after so many failed readings in a row. -/
def roundsFrom (addr : Addr) (r : Round) (fails : Nat) : List Turn → List Round
  | [] => [r]
  | t :: ts =>
    match t.readRawData with
    | some _ => roundsFrom addr { r with used := true } 0 ts
    | none =>
      if fails + 1 ≥ 5 then r :: roundsFrom (t.found addr) (t.round addr) 0 ts
      else roundsFrom addr r (fails + 1) ts

/-- The initialisations of a run, told by what the calls return. -/
def rounds (o : StartOutcome) (ts : List Turn) : List Round :=
  match o.round with
  | none => []
  | some r => roundsFrom r.imu r 0 ts

/-- In the last of some initialisations of a sensor a configuration call was accepted, or
else the sensor was not reset in it and had accepted the call before. -/
def AcceptedIn (call : ConfigOutcome → Bool) (a : Addr) (start : Prop) (rs : List Round) : Prop :=
  Register.Since (fun r => r.imu = a ∧ call r.config = true) (fun r => r.resets a = true) start rs

/-- The range and the power mode were. -/
def Accepting (init : Addr → Device) (a : Addr) (rs : List Round) : Prop :=
  AcceptedIn ConfigOutcome.fsr a ((init a).fsr = range) rs ∧
  AcceptedIn ConfigOutcome.pwrMode a ((init a).pwrMode = .enableLnMode) rs

/-- They were up to every initialisation after which a sample is read. -/
def AcceptingRounds (init : Addr → Device) (rs : List Round) : Prop :=
  ∀ pre r post, rs = pre ++ r :: post → r.used = true → Accepting init r.imu (pre ++ [r])

/-! ## What an initialisation does -/

theorem imuTryInit_eq (a : Addr) (o : InitOutcome) :
    imuTryInit a o = (decide (o = .ok), if o.resets then [.reset a] else []) := by
  rcases o with _ | _ | _ <;> rfl

/-- The operations of an initialisation: some resets, and then the configuration. -/
def Round.Does (r : Round) (ops : List Op) : Prop :=
  ∃ resets, ops = resets ++ configure r.imu r.config ∧ (∀ x ∈ resets, ∃ a, x = .reset a) ∧
    ∀ a, .reset a ∈ resets ↔ r.resets a = true

theorem resets_mem {p : Prop} [Decidable p] {a : Addr} {x : Op}
    (h : x ∈ if p then [Op.reset a] else []) : ∃ a, x = .reset a := by
  split at h
  · exact ⟨a, List.mem_singleton.1 h⟩
  · simp at h

theorem startUp_round (o : StartOutcome) :
    (startUp o).1 = o.round.map (fun r => ⟨r.imu, r.imu, 0⟩) ∧
      ∀ r ∈ o.round, r.Does (startUp o).2 := by
  simp only [startUp, StartOutcome.round, imuTryInit_eq, decide_eq_true_eq]
  by_cases hgnd : o.gnd = .ok
  · refine ⟨by simp [hgnd], ?_⟩
    rintro r hr
    simp only [if_pos hgnd, Option.mem_some_iff] at hr
    subst hr
    refine ⟨[.reset .gnd], by simp [hgnd, InitOutcome.resets], by simp, by simp⟩
  · by_cases hvcc : o.vcc = .ok
    · refine ⟨by simp [hgnd, hvcc], ?_⟩
      rintro r hr
      simp only [if_neg hgnd, if_pos hvcc, Option.mem_some_iff] at hr
      subst hr
      refine ⟨(if o.gnd.resets then [.reset .gnd] else []) ++ [.reset .vcc], ?_, ?_, ?_⟩
      · simp [hgnd, hvcc, InitOutcome.resets]
      · intro x hx
        rcases List.mem_append.1 hx with hx | hx
        · exact resets_mem hx
        · exact ⟨.vcc, List.mem_singleton.1 hx⟩
      · intro a
        by_cases hreset : o.gnd.resets = true <;> cases a <;> simp [hreset]
    · simp [hgnd, hvcc]

theorem reinit_round (s : ImuTask) (t : Turn) :
    (reinit s t).1 = ⟨(t.round s.addr).imu, t.found s.addr, 0⟩ ∧
      (t.round s.addr).Does (reinit s t).2 := by
  have hother : ∀ a : Addr, a.other ≠ a := by
    intro a
    cases a <;> decide
  simp only [reinit, Turn.round, Turn.found, imuTryInit_eq, decide_eq_true_eq]
  by_cases hown : t.own = .ok
  · refine ⟨by simp [hown], [.reset s.addr], ?_, by simp, ?_⟩
    · simp [hown, InitOutcome.resets]
    · simp [hown]
  · refine ⟨by simp [hown], (if t.own.resets then [.reset s.addr] else []) ++
      (if t.other.resets then [.reset s.addr.other] else []), ?_, ?_, ?_⟩
    · simp [hown]
    · intro x hx
      rcases List.mem_append.1 hx with hx | hx
      · exact resets_mem hx
      · exact resets_mem hx
    · intro a
      by_cases h1 : t.own.resets = true <;> by_cases h2 : t.other.resets = true <;>
        cases a <;> cases s.addr <;> simp [h1, h2, hown, Addr.other]

theorem push_notMem_imuTryInit (a b : Addr) (o : InitOutcome) (rx ry rz : Int) :
    Op.push a rx ry rz ∉ (imuTryInit b o).2 := by
  rcases o with _ | _ | _ <;> simp [imuTryInit]

theorem push_notMem_configure (a b : Addr) (o : ConfigOutcome) (rx ry rz : Int) :
    Op.push a rx ry rz ∉ configure b o := by
  simp [configure]

theorem push_notMem_reinit (s : ImuTask) (t : Turn) (a : Addr) (rx ry rz : Int) :
    Op.push a rx ry rz ∉ (reinit s t).2 := by
  unfold reinit
  simp only
  split <;> simp [push_notMem_imuTryInit, push_notMem_configure]

theorem push_notMem_startUp (o : StartOutcome) (a : Addr) (rx ry rz : Int) :
    Op.push a rx ry rz ∉ (startUp o).2 := by
  unfold startUp
  simp only
  split
  · simp [push_notMem_imuTryInit, push_notMem_configure]
  · split <;> simp [push_notMem_imuTryInit, push_notMem_configure]


/-! ## Runs -/

/-- A call is accepted in an initialisation as it is among its operations. -/
theorem acceptedIn_does (call : ConfigOutcome → Bool) (write : Addr → Op)
    (hcall : ∀ a b o, write a ∈ configure b o ↔ b = a ∧ call o = true)
    (hwrite : ∀ a b, write a ≠ .reset b) {a : Addr} {start : Prop} {r : Round} {ops log : List Op}
    {done : List Round} (hr : r.Does ops)
    (h : Register.Since (· = write a) (· = .reset a) start log ↔ AcceptedIn call a start done) :
    Register.Since (· = write a) (· = .reset a) start (log ++ ops) ↔
      AcceptedIn call a start (done ++ [r]) := by
  rcases hr with ⟨resets, rfl, hresets, hreset⟩
  have hset : ∀ x ∈ resets, ¬ x = write a := by
    rintro x hx rfl
    rcases hresets _ hx with ⟨b, hb⟩
    exact hwrite a b hb
  have hconfigure : ∀ x ∈ configure r.imu r.config, ¬ x = .reset a := by
    rintro x hx rfl
    simp [configure] at hx
  have hnone : (∀ x ∈ resets, ¬ x = .reset a) ↔ ¬ r.resets a = true := by
    rw [← hreset a]
    constructor
    · intro h hmem
      exact h _ hmem rfl
    · rintro h x hx rfl
      exact h hx
  rw [← List.append_assoc, Register.since_append_of_no_reset hconfigure,
    Register.since_append_of_no_set hset, AcceptedIn, Register.since_concat, hnone, h]
  simp only [exists_eq_right, hcall]
  rfl

/-- The operations and the initialisations tell the same. -/
def Agree (init : Addr → Device) (log : List Op) (done : List Round) : Prop :=
  ∀ a, (Register.Since (· = .setAccelFsr a range) (· = .reset a) ((init a).fsr = range) log ↔
      AcceptedIn ConfigOutcome.fsr a ((init a).fsr = range) done) ∧
    (Register.Since (· = .setAccelPwrMode a .enableLnMode) (· = .reset a)
        ((init a).pwrMode = .enableLnMode) log ↔
      AcceptedIn ConfigOutcome.pwrMode a ((init a).pwrMode = .enableLnMode) done)

theorem Agree.accepted {init : Addr → Device} {log : List Op} {done : List Round}
    (h : Agree init log done) (a : Addr) : Accepted init a log ↔ Accepting init a done :=
  and_congr (h a).1 (h a).2

theorem Agree.does {init : Addr → Device} {log ops : List Op} {done : List Round} {r : Round}
    (h : Agree init log done) (hr : r.Does ops) : Agree init (log ++ ops) (done ++ [r]) := by
  intro a
  constructor
  · refine acceptedIn_does _ (fun a => .setAccelFsr a range) ?_ ?_ hr (h a).1
    · intro a b o
      rcases o with ⟨_ | _, _ | _, _ | _, _ | _⟩ <;> simp [configure, eq_comm]
    · simp
  · refine acceptedIn_does _ (fun a => .setAccelPwrMode a .enableLnMode) ?_ ?_ hr (h a).2
    · intro a b o
      rcases o with ⟨_ | _, _ | _, _ | _, _ | _⟩ <;> simp [configure, eq_comm]
    · simp

theorem accepting_used {init : Addr → Device} {a : Addr} {done : List Round} {r : Round} :
    Accepting init a (done ++ [{ r with used := true }]) ↔ Accepting init a (done ++ [r]) := by
  simp only [Accepting, AcceptedIn, Register.since_concat]

/-- A sample is not a setting, and that it is read does not change its initialisation. -/
theorem Agree.push {init : Addr → Device} {log : List Op} {done : List Round} {r : Round}
    (h : Agree init log (done ++ [r])) (b : Addr) (rx ry rz : Int) :
    Agree init (log ++ [.push b rx ry rz]) (done ++ [{ r with used := true }]) := by
  intro a
  have ha := h a
  simp only [AcceptedIn, Register.since_concat] at ha ⊢
  simpa using ha

/-- What is asked of every operation, and of every initialisation. -/
def OpAccepted (init : Addr → Device) (pre : List Op) (x : Op) : Prop :=
  ∀ a rx ry rz, x = .push a rx ry rz → Accepted init a pre

def RoundAccepted (init : Addr → Device) (pre : List Round) (r : Round) : Prop :=
  r.used = true → Accepting init r.imu (pre ++ [r])

theorem acceptedReads_iff_each (init : Addr → Device) (log : List Op) :
    AcceptedReads init log ↔ Register.Each (OpAccepted init) log := by
  constructor
  · rintro h pre x post hlog a rx ry rz rfl
    exact h pre a rx ry rz post hlog
  · intro h pre a rx ry rz post hlog
    exact h pre _ post hlog a rx ry rz rfl

/-- Operations without a sample ask nothing. -/
theorem each_of_notMem {init : Addr → Device} (log : List Op) {ops : List Op}
    (h : ∀ a rx ry rz, Op.push a rx ry rz ∉ ops) :
    Register.Each (fun pre => OpAccepted init (log ++ pre)) ops := by
  rintro pre x post rfl a rx ry rz rfl
  exact absurd (by simp) (h a rx ry rz)

/-- A sample asks for what its sensor has accepted. -/
theorem each_push {init : Addr → Device} (log : List Op) (a : Addr) (rx ry rz : Int) :
    Register.Each (fun pre => OpAccepted init (log ++ pre)) [.push a rx ry rz] ↔
      Accepted init a log := by
  rw [Register.each_cons, and_iff_left (Register.each_nil _), List.append_nil]
  constructor
  · intro hread
    exact hread a rx ry rz rfl
  · rintro hread b rx ry rz ⟨⟩
    exact hread

/-- So does the initialisation before it. -/
theorem Agree.roundAccepted_used {init : Addr → Device} {log : List Op} {done : List Round}
    {r : Round} (h : Agree init log (done ++ [r])) :
    RoundAccepted init done { r with used := true } ↔ Accepted init r.imu log := by
  rw [h.accepted r.imu, ← accepting_used]
  exact ⟨fun hr => hr rfl, fun hr _ => hr⟩

/-- From an initialisation on: the samples are accepted exactly when the initialisations
are. -/
theorem loop_accepted (init : Addr → Device) {s : ImuTask} {r : Round} {log : List Op}
    {done : List Round} (himu : s.imu = r.imu) (h : Agree init log (done ++ [r]))
    (ts : List Turn) :
    (RoundAccepted init done r ∧
        Register.Each (fun pre => OpAccepted init (log ++ pre)) (imuLoop.out s ts)) ↔
      Register.Each (fun pre => RoundAccepted init (done ++ pre))
        (roundsFrom s.addr r s.consecutiveFail ts) := by
  induction ts generalizing s r log done with
  | nil =>
      simp only [Transducer.out_nil, Register.each_nil, and_true, roundsFrom, Register.each_cons,
        List.append_nil]
  | cons t ts ih =>
      rw [Transducer.out_cons, Register.each_append]
      rcases hread : t.readRawData with _ | ⟨rx, ry, rz⟩
      · by_cases hfive : s.consecutiveFail + 1 ≥ 5
        · -- an initialisation, and the one before it is over
          have hstep : imuLoop.step s t = reinit s t := by
            simp only [imuLoop, hread, if_pos hfive]
          have hrounds : roundsFrom s.addr r s.consecutiveFail (t :: ts) =
              r :: roundsFrom (t.found s.addr) (t.round s.addr) 0 ts := by
            simp only [roundsFrom, hread, if_pos hfive]
          rcases reinit_round s t with ⟨hstate, hdoes⟩
          have hrest := ih (s := (reinit s t).1) (by rw [hstate]) (h.does hdoes)
          have hnone : Register.Each (fun pre => OpAccepted init (log ++ pre)) (reinit s t).2 :=
            each_of_notMem _ (push_notMem_reinit s t)
          have hused : RoundAccepted init (done ++ [r]) (t.round s.addr) := by
            intro hused
            unfold Turn.round at hused
            split at hused <;> cases hused
          rw [hstate] at hrest
          rw [hstep, hrounds, Register.each_cons, List.append_nil]
          simp only [and_iff_right hnone, ← List.append_assoc] at hrest ⊢
          rw [and_iff_right hused] at hrest
          rw [hstate]
          refine and_congr Iff.rfl (hrest.trans ?_)
          simp
        · have hstep : imuLoop.step s t =
              ({ s with consecutiveFail := s.consecutiveFail + 1 }, []) := by
            simp only [imuLoop, hread, if_neg hfive]
          have hrounds : roundsFrom s.addr r s.consecutiveFail (t :: ts) =
              roundsFrom s.addr r (s.consecutiveFail + 1) ts := by
            simp only [roundsFrom, hread, if_neg hfive]
          rw [hstep, hrounds, and_iff_right (Register.each_nil _)]
          exact ih (s := { s with consecutiveFail := s.consecutiveFail + 1 }) himu h
      · -- a sample is read
        have hstep : imuLoop.step s t =
            ({ s with consecutiveFail := 0 }, [.push s.imu rx ry rz]) := by
          simp only [imuLoop, hread]
        have hrounds : roundsFrom s.addr r s.consecutiveFail (t :: ts) =
            roundsFrom s.addr { r with used := true } 0 ts := by
          simp only [roundsFrom, hread]
        have hrest := ih (s := { s with consecutiveFail := 0 }) (r := { r with used := true })
          himu (h.push s.imu rx ry rz)
        have hold : Accepted init r.imu log → RoundAccepted init done r := by
          intro hread _
          exact (h.accepted r.imu).1 hread
        have hpush : Register.Each (fun pre => OpAccepted init (log ++ pre))
            [.push s.imu rx ry rz] ↔ Accepted init r.imu log := himu ▸ each_push log s.imu rx ry rz
        rw [hstep, hrounds, hpush]
        rw [h.roundAccepted_used] at hrest
        simp only [← List.append_assoc] at hrest ⊢
        rw [← hrest]
        tauto

/-- The samples of a run are all read from a configured sensor exactly when, in every
initialisation after which a sample is read, the range and the power mode were accepted, or
the sensor was not reset and had accepted them before. So it is if they are accepted in every
initialisation after which a sample is read. -/
theorem configuredReads_iff (init : Addr → Device) (o : StartOutcome) (ts : List Turn) :
    (ConfiguredReads init (imuMouseTask o ts) ↔ AcceptingRounds init (rounds o ts)) ∧
    ((∀ r ∈ rounds o ts, r.used = true → r.config.fsr = true ∧ r.config.pwrMode = true) →
      ConfiguredReads init (imuMouseTask o ts)) := by
  have hiff : ConfiguredReads init (imuMouseTask o ts) ↔ AcceptingRounds init (rounds o ts) := by
    rw [configuredReads_of_wanted (imuMouseTask_wanted o ts), acceptedReads_iff_each]
    rcases startUp_round o with ⟨hstate, hdoes⟩
    have hnone : Register.Each (OpAccepted init) (startUp o).2 :=
      each_of_notMem [] (push_notMem_startUp o)
    rw [imuMouseTask, Register.each_append, and_iff_right hnone, hstate, rounds]
    cases hround : o.round with
    | none => simp [AcceptingRounds]
    | some r =>
        have hfirst : Agree init [] [] := fun a => ⟨by simp [AcceptedIn, Register.Since],
          by simp [AcceptedIn, Register.Since]⟩
        have hagree := hfirst.does (hdoes r hround)
        have hunused : RoundAccepted init [] r := by
          intro hused
          unfold StartOutcome.round at hround
          split at hround
          · cases hround
            cases hused
          · split at hround <;> cases hround
            cases hused
        have hloop := loop_accepted init (s := ⟨r.imu, r.imu, 0⟩) rfl hagree ts
        rw [and_iff_right hunused] at hloop
        exact hloop
  refine ⟨hiff, ?_⟩
  intro h
  rw [hiff]
  rintro pre r post hrs hused
  have hr := h r (hrs ▸ by simp) hused
  simp only [Accepting, AcceptedIn, Register.since_concat]
  exact ⟨Or.inl ⟨trivial, hr.1⟩, Or.inl ⟨trivial, hr.2⟩⟩


/-- The range is refused once at start-up, and the next reading goes through. -/
theorem range_refused_at_start :
    ¬ ∀ o ts, ConfiguredReads (fun _ => .defaults) (imuMouseTask o ts) := by
  intro h
  have hread := h ⟨.ok, .ok, ⟨false, true, true, true⟩⟩
    [⟨some 0, some 0, some 4096, .ok, .ok, ⟨true, true, true, true⟩⟩]
    [.reset .gnd, .setAccelAvg .gnd, .setAccelOdr .gnd, .setAccelPwrMode .gnd .enableLnMode]
    .gnd 0 0 4096 [] rfl
  exact absurd hread.2 (by decide)

end Cse121.Lab43
