import Cse121.AirMouse.Icm42670

/-! # The task of the air mouse on its driver

`imu_mouse_task` on the registers of its sensors. Whatever fails, a run on registers is a run
of the task as it is told by the operations that reach the sensors.
-/

namespace Cse121.Icm42670

open RegisterFile Cse121.Lab43

/-! ## The task -/

/-- `imu_try_init`: the descriptor is freed and made anew. -/
def imuTryInit (addr : Addr) : Driver Unit :=
  .call fun _ => .call fun ok => if ok then init addr else .done (.error .mutex)

/-- The four configuration calls. -/
def configure (imu : Addr) : Prog Addr Unit :=
  (setAccelFsr imu range).bind fun _ => (setAccelAvg imu ACCEL_AVG_8X).bind fun _ =>
    (setAccelOdr imu ACCEL_ODR_200HZ).bind fun _ =>
      (setAccelPwrMode imu .enableLnMode).bind fun _ => .done ()

/-- `imu_mouse_task` up to its loop. -/
def startUp : Prog Addr (Option ImuTask) :=
  (imuTryInit .gnd).bind fun
    | .ok _ => (configure .gnd).bind fun _ => .done (some ⟨.gnd, .gnd, 0⟩)
    | .error _ => (imuTryInit .vcc).bind fun
      | .ok _ => (configure .vcc).bind fun _ => .done (some ⟨.vcc, .vcc, 0⟩)
      | .error _ => .done none

/-- A sample that is used, and where it is read from. -/
structure Sample where
  imu : Addr
  rx : Int
  ry : Int
  rz : Int
deriving DecidableEq, Repr

/-- The three reads. -/
def readSample (imu : Addr) : Driver (Int × Int × Int) :=
  check (readRawData imu REG_ACCEL_DATA_X1) fun rx =>
    check (readRawData imu REG_ACCEL_DATA_Y1) fun ry =>
      check (readRawData imu REG_ACCEL_DATA_Z1) fun rz => .done (.ok (rx, ry, rz))

/-- The recovery after five failures in a row. -/
def recover (s : ImuTask) : Prog Addr ImuTask :=
  .call fun _ => (imuTryInit s.addr).bind fun
    | .ok _ => (configure s.addr).bind fun _ =>
        .done { s with imu := s.addr, consecutiveFail := 0 }
    | .error _ => (imuTryInit s.addr.other).bind fun other =>
        (configure s.addr.other).bind fun _ => .done
          { imu := s.addr.other
            addr := match other with
              | .ok _ => s.addr.other
              | .error _ => s.addr
            consecutiveFail := 0 }

/-- One turn of the loop, and the sample it uses. -/
def turn (s : ImuTask) : Prog Addr (ImuTask × Option Sample) :=
  (readSample s.imu).bind fun
    | .ok (rx, ry, rz) => .done ({ s with consecutiveFail := 0 }, some ⟨s.imu, rx, ry, rz⟩)
    | .error _ =>
        if s.consecutiveFail + 1 ≥ 5 then (recover s).bind fun s' => .done (s', none)
        else .done ({ s with consecutiveFail := s.consecutiveFail + 1 }, none)

/-- `imu_mouse_task` for a number of turns. -/
def imuMouseTask : Nat → Prog Addr (Option ImuTask × List Sample)
  | 0 => startUp.bind fun s => .done (s, [])
  | n + 1 => (imuMouseTask n).bind fun
    | (none, samples) => .done (none, samples)
    | (some s, samples) => (turn s).bind fun (s', x) => .done (some s', samples ++ x.toList)

/-! ## What the operations are on registers -/

/-- A sample that is used, as an operation. -/
def Sample.op (x : Sample) : Op := .push x.imu x.rx x.ry x.rz

/-- The sample that an operation uses. -/
def Sample.ofOp : Op → Option Sample
  | .push imu rx ry rz => some ⟨imu, rx, ry, rz⟩
  | _ => none

/-- Operations that use no sample. -/
theorem ofOp_eq_nil {log : List Op} (h : ∀ a rx ry rz, Op.push a rx ry rz ∉ log) :
    log.filterMap Sample.ofOp = [] := by
  rw [List.filterMap_eq_nil_iff]
  intro x hx
  cases x with
  | push a rx ry rz => exact absurd hx (h a rx ry rz)
  | _ => rfl

/-- The registers without the idle bit, which the initialisation sets after the reset. -/
def settings (regs : Addr → Regs) : Addr → Regs := fun a r =>
  if r = REG_PWR_MGMT0 then regs a r &&& ~~~Setting.idle.field.mask else regs a r

/-- What an operation does to the registers of the sensors. -/
def Sensors.perform (c : Sensors) (regs : Addr → Regs) : Op → Addr → Regs
  | .reset a => Function.update regs a (settings (fun _ => c.defaults) a)
  | .setAccelFsr a r => setField regs a Setting.accelFsr.reg Setting.accelFsr.field (fsrCode r)
  | .setAccelAvg a =>
      setField regs a Setting.accelAvg.reg Setting.accelAvg.field ACCEL_AVG_8X
  | .setAccelOdr a =>
      setField regs a Setting.accelOdr.reg Setting.accelOdr.field ACCEL_ODR_200HZ
  | .setAccelPwrMode a m =>
      setField regs a Setting.accelMode.reg Setting.accelMode.field (pwrModeCode m)
  | .push _ _ _ _ => regs

/-- The idle bit is not in the way of another setting. -/
theorem settings_setField {x : Setting} (hx : x ≠ .idle) {v : UInt8} (hv : x.field.Fits v)
    (regs : Addr → Regs) (dev : Addr) :
    settings (setField regs dev x.reg x.field v) =
      setField (settings regs) dev x.reg x.field v := by
  funext a r
  unfold settings setField
  by_cases ha : a = dev
  · subst ha
    simp only [Function.update_self]
    by_cases hr : r = x.reg
    · subst hr
      simp only [Function.update_self]
      split
      · rename_i hreg
        exact Field.set_and_not (Setting.disjoint (Ne.symm hx) hreg.symm) hv _
      · rfl
    · simp only [Function.update_of_ne hr]
  · simp only [Function.update_of_ne ha]

/-- Setting the idle bit is not seen. -/
theorem settings_idle (v : UInt8) (hv : Setting.idle.field.Fits v) (regs : Addr → Regs)
    (dev : Addr) :
    settings (setField regs dev Setting.idle.reg Setting.idle.field v) = settings regs := by
  funext a r
  unfold settings setField
  by_cases ha : a = dev
  · subst ha
    simp only [Function.update_self]
    by_cases hr : r = REG_PWR_MGMT0
    · subst hr
      simp only [if_true, Setting.reg, Function.update_self]
      exact Field.set_outside (by decide) hv _
    · simp only [if_neg hr, Setting.reg, Function.update_of_ne hr]
  · simp only [Function.update_of_ne ha]

/-! ## What the calls do -/

section Calls

variable (c : Sensors)

/-- What a program does to the settings. -/
abbrev Performs {α : Type} (p : Prog Addr α) (Q : α → List Op → Prop) : Prop :=
  p.Does c.chip settings c.perform Q

/-- A setting of the right size is an operation. -/
theorem performs_set {x : Setting} {dev : Addr} {v : UInt8} {op : Op} (hx : x ≠ .idle)
    (hv : x.field.Fits v)
    (hop : ∀ regs, c.perform regs op = setField regs dev x.reg x.field v) :
    Performs c (x.set dev v) (Tells [op]) := by
  refine Setting.does_set fun regs => ?_
  rw [settings_setField hx hv, ← hop]
  rfl

theorem performs_setAccelFsr (dev : Addr) (r : AccelFsr) :
    Performs c (setAccelFsr dev r) (Tells [.setAccelFsr dev r]) :=
  performs_set c (by decide) (by cases r <;> decide) fun _ => rfl

theorem performs_setAccelAvg (dev : Addr) :
    Performs c (setAccelAvg dev ACCEL_AVG_8X) (Tells [.setAccelAvg dev]) :=
  performs_set c (by decide) (by decide) fun _ => rfl

theorem performs_setAccelOdr (dev : Addr) :
    Performs c (setAccelOdr dev ACCEL_ODR_200HZ) (Tells [.setAccelOdr dev]) :=
  performs_set c (by decide) (by decide) fun _ => rfl

theorem performs_setAccelPwrMode (dev : Addr) (m : AccelPwrMode) :
    Performs c (setAccelPwrMode dev m) (Tells [.setAccelPwrMode dev m]) := by
  refine does_check (does_getField _ _ _) fun odr => does_check (does_getField _ _ _) fun avg => ?_
  split
  · exact does_error _
  · exact performs_set c (by decide) (by cases m <;> decide) fun _ => rfl

theorem performs_flushFifo (dev : Addr) : Performs c (flushFifo dev) (Tells []) := by
  refine does_locked <| does_writeRegister fun regs => ?_
  have hstore : c.store (regs dev) REG_SIGNAL_PATH_RESET 0x04 = regs dev := rfl
  rw [hstore, Function.update_eq_self]
  rfl

theorem performs_reset (dev : Addr) : Performs c (reset dev) (Tells [.reset dev]) := by
  refine does_locked <| does_writeRegister fun regs => ?_
  have hstore : c.store (regs dev) REG_SIGNAL_PATH_RESET 0x10 = c.defaults := rfl
  rw [hstore]
  funext a r
  by_cases ha : a = dev
  · subst ha
    simp [Sensors.perform, settings]
  · simp [Sensors.perform, settings, Function.update_of_ne ha]

/-- `icm42670_init` does nothing but the reset. -/
theorem performs_init (dev : Addr) : Performs c (init dev) (Tells [.reset dev]) := by
  refine does_check (does_locked (does_readRegister _ _)) fun reg => ?_
  split
  · exact does_error _
  · refine does_check (performs_flushFifo c dev) fun _ => ?_
    refine does_check_last (performs_reset c dev) fun _ => ?_
    refine does_check ?_ fun _ => does_check (does_getField _ _ _) fun _ => does_nothing _
    exact Setting.does_set fun regs => settings_idle _ (by decide) regs dev

theorem performs_imuTryInit (addr : Addr) :
    Performs c (imuTryInit addr) (Tells [.reset addr]) := by
  refine Prog.Does.call fun _ => Prog.Does.call fun ok => ?_
  cases ok with
  | false => exact does_error _
  | true => exact performs_init c addr

theorem imuTryInit_of_ok {a : Addr} {done : List Op}
    (h : Tells [.reset a] (.ok () : Except EspErr Unit) done) :
    ∃ o, Lab43.imuTryInit a o = (true, done) := by
  rcases h with ⟨took, htook, rfl⟩
  rcases htook () rfl with rfl
  exact ⟨.ok, rfl⟩

/-- A failed initialisation may come as far as the reset. -/
theorem imuTryInit_of_error {a : Addr} {e : EspErr} {done : List Op}
    (h : Tells [.reset a] (.error e : Except EspErr Unit) done) :
    ∃ o, Lab43.imuTryInit a o = (false, done) := by
  rcases h with ⟨took, -, rfl⟩
  exact ⟨.failed took, rfl⟩

theorem performs_configure (imu : Addr) :
    Performs c (configure imu) fun _ done => ∃ o, done = Lab43.configure imu o := by
  refine (performs_setAccelFsr c imu range).bind ?_
  rintro - - ⟨fsr, -, rfl⟩
  refine (performs_setAccelAvg c imu).bind ?_
  rintro - - ⟨avg, -, rfl⟩
  refine (performs_setAccelOdr c imu).bind ?_
  rintro - - ⟨odr, -, rfl⟩
  refine (performs_setAccelPwrMode c imu .enableLnMode).bind ?_
  rintro - - ⟨pwrMode, -, rfl⟩
  refine Prog.Does.done ⟨⟨fsr, avg, odr, pwrMode⟩, ?_⟩
  simp [Lab43.configure]

theorem performs_startUp :
    Performs c startUp fun s done => ∃ o, Lab43.startUp o = (s, done) := by
  refine (performs_imuTryInit c .gnd).bind ?_
  intro r done hdone
  cases r with
  | ok u =>
      rcases imuTryInit_of_ok hdone with ⟨gnd, hgnd⟩
      refine (performs_configure c .gnd).bind ?_
      rintro - - ⟨config, rfl⟩
      refine Prog.Does.done ⟨⟨gnd, .ok, config⟩, ?_⟩
      simp [Lab43.startUp, hgnd]
  | error e =>
      rcases imuTryInit_of_error hdone with ⟨gnd, hgnd⟩
      refine (performs_imuTryInit c .vcc).bind ?_
      intro r' done' hdone'
      cases r' with
      | ok u =>
          rcases imuTryInit_of_ok hdone' with ⟨vcc, hvcc⟩
          refine (performs_configure c .vcc).bind ?_
          rintro - - ⟨config, rfl⟩
          refine Prog.Does.done ⟨⟨gnd, vcc, config⟩, ?_⟩
          simp [Lab43.startUp, hgnd, hvcc]
      | error e' =>
          rcases imuTryInit_of_error hdone' with ⟨vcc, hvcc⟩
          refine Prog.Does.done ⟨⟨gnd, vcc, ⟨true, true, true, true⟩⟩, ?_⟩
          simp [Lab43.startUp, hgnd, hvcc]

theorem performs_recover (s : ImuTask) :
    Performs c (recover s) fun s' done =>
      ∃ own other config, reinit s ⟨none, none, none, own, other, config⟩ = (s', done) := by
  refine Prog.Does.call fun _ => (performs_imuTryInit c s.addr).bind ?_
  intro r done hdone
  cases r with
  | ok u =>
      rcases imuTryInit_of_ok hdone with ⟨own, hown⟩
      refine (performs_configure c s.addr).bind ?_
      rintro - - ⟨config, rfl⟩
      refine Prog.Does.done ⟨own, .ok, config, ?_⟩
      simp [reinit, hown]
  | error e =>
      rcases imuTryInit_of_error hdone with ⟨own, hown⟩
      refine (performs_imuTryInit c s.addr.other).bind ?_
      intro r' done' hdone'
      cases r' with
      | ok u =>
          rcases imuTryInit_of_ok hdone' with ⟨other, hother⟩
          refine (performs_configure c s.addr.other).bind ?_
          rintro - - ⟨config, rfl⟩
          refine Prog.Does.done ⟨own, other, config, ?_⟩
          simp [reinit, hown, hother]
      | error e' =>
          rcases imuTryInit_of_error hdone' with ⟨other, hother⟩
          refine (performs_configure c s.addr.other).bind ?_
          rintro - - ⟨config, rfl⟩
          refine Prog.Does.done ⟨own, other, config, ?_⟩
          simp [reinit, hown, hother]

theorem performs_readSample (imu : Addr) : Performs c (readSample imu) (Tells []) :=
  does_check (does_readRawData imu _) fun _ => does_check (does_readRawData imu _) fun _ =>
    does_check (does_readRawData imu _) fun _ => does_nothing _

theorem step_failed (s : ImuTask) (own other : InitOutcome) (config : ConfigOutcome) :
    imuLoop.step s ⟨none, none, none, own, other, config⟩ =
      if s.consecutiveFail + 1 ≥ 5 then reinit s ⟨none, none, none, own, other, config⟩
      else ({ s with consecutiveFail := s.consecutiveFail + 1 }, []) :=
  rfl

/-- A turn on registers is a turn of the loop. -/
theorem performs_turn (s : ImuTask) :
    Performs c (turn s) fun r done =>
      ∃ t, imuLoop.step s t = (r.1, done ++ (r.2.map Sample.op).toList) ∧
        done.filterMap Sample.ofOp = [] := by
  refine (performs_readSample c s.imu).bind ?_
  intro r done hdone
  rw [tells_nil.1 hdone]
  cases r with
  | ok sample =>
      rcases sample with ⟨rx, ry, rz⟩
      exact Prog.Does.done
        ⟨⟨some rx, some ry, some rz, .ok, .ok, ⟨true, true, true, true⟩⟩, rfl, rfl⟩
  | error e =>
      simp only
      split
      · rename_i hfive
        refine (performs_recover c s).bind ?_
        rintro s' done' ⟨own, other, config, hreinit⟩
        refine Prog.Does.done ⟨⟨none, none, none, own, other, config⟩, ?_, ?_⟩
        · rw [step_failed, if_pos hfive, hreinit]
          simp
        · have hnone := ofOp_eq_nil (push_notMem_reinit s ⟨none, none, none, own, other, config⟩)
          simpa [hreinit] using hnone
      · rename_i hfive
        refine Prog.Does.done ⟨⟨none, none, none, .ok, .ok, ⟨true, true, true, true⟩⟩, ?_, rfl⟩
        rw [step_failed, if_neg hfive]
        rfl

end Calls

/-! ## Runs -/

/-- Inputs can be chosen one after another. -/
theorem exists_inputs {α : Type} {P : Nat → List α → Prop} (hzero : P 0 [])
    (hsucc : ∀ n l, ∃ a, P n l → P (n + 1) (l ++ [a])) :
    ∃ f : Nat → α, ∀ n, P n ((List.range n).map f) := by
  choose next hnext using hsucc
  let inputs : Nat → List α := fun n => n.rec [] fun n l => l ++ [next n l]
  have hinputs : ∀ n, (List.range n).map (fun n => next n (inputs n)) = inputs n := by
    intro n
    induction n with
    | zero => rfl
    | succ n ih =>
        rw [List.range_succ, List.map_append, ih]
        rfl
  refine ⟨fun n => next n (inputs n), fun n => ?_⟩
  rw [hinputs]
  induction n with
  | zero => exact hzero
  | succ n ih => exact hnext n (inputs n) ih

/-- A sample that is used, as an operation, is not seen on registers. -/
theorem perform_samples (c : Sensors) (regs : Addr → Regs) (x : Option Sample) :
    (x.map Sample.op).toList.foldl c.perform regs = regs := by
  cases x <;> rfl

/-- A run of the task on registers. -/
def taskRun (c : Sensors) (regs : Addr → Regs) (n : Nat) :
    (Option ImuTask × List Sample) × State Addr :=
  (imuMouseTask n).run c.chip ⟨0, regs⟩

/-- What a run of the task by its operations and a run on registers have in common. -/
structure Matches (c : Sensors) (regs : Addr → Regs) (o : StartOutcome) (ts : List Turn)
    (r : (Option ImuTask × List Sample) × State Addr) : Prop where
  task : r.1.1 = (Lab43.startUp o).1.map fun s => imuLoop.state s ts
  samples : r.1.2 = (Lab43.imuMouseTask o ts).filterMap Sample.ofOp
  settings : settings r.2.regs = (Lab43.imuMouseTask o ts).foldl c.perform (settings regs)

theorem taskRun_zero (c : Sensors) (regs : Addr → Regs) :
    ∃ o, Matches c regs o [] (taskRun c regs 0) := by
  rcases performs_startUp c ⟨0, regs⟩ with ⟨done, ⟨o, ho⟩, hregs⟩
  have hlog : Lab43.imuMouseTask o [] = (Lab43.startUp o).2 := by
    unfold Lab43.imuMouseTask
    cases h : (Lab43.startUp o).1 <;> simp [h]
  refine ⟨o, ?_, ?_, ?_⟩
  · rw [ho]
    simp [taskRun, imuMouseTask, Prog.run]
  · rw [hlog, ofOp_eq_nil (push_notMem_startUp o)]
    simp [taskRun, imuMouseTask, Prog.run]
  · rw [hlog, ho, ← hregs]
    simp [taskRun, imuMouseTask, Prog.run]

theorem taskRun_none {c : Sensors} {regs : Addr → Regs} {n : Nat}
    (h : (taskRun c regs n).1.1 = none) : taskRun c regs (n + 1) = taskRun c regs n := by
  unfold taskRun at h ⊢
  rw [imuMouseTask, Prog.run_bind]
  generalize (imuMouseTask n).run c.chip ⟨0, regs⟩ = r at h ⊢
  rcases r with ⟨⟨s, samples⟩, state⟩
  subst h
  rfl

theorem taskRun_some {c : Sensors} {regs : Addr → Regs} {n : Nat} {s : ImuTask}
    (h : (taskRun c regs n).1.1 = some s) :
    taskRun c regs (n + 1) =
      let r := (turn s).run c.chip (taskRun c regs n).2
      ((some r.1.1, (taskRun c regs n).1.2 ++ r.1.2.toList), r.2) := by
  unfold taskRun at h ⊢
  rw [imuMouseTask, Prog.run_bind]
  generalize (imuMouseTask n).run c.chip ⟨0, regs⟩ = r at h ⊢
  rcases r with ⟨⟨s', samples⟩, state⟩
  subst h
  simp [Prog.run]

/-- The log of a task with a sensor, one turn later. -/
theorem imuMouseTask_concat {o : StartOutcome} {s : ImuTask} (h : (Lab43.startUp o).1 = some s)
    (ts : List Turn) (t : Turn) :
    Lab43.imuMouseTask o (ts ++ [t]) =
      Lab43.imuMouseTask o ts ++ (imuLoop.step (imuLoop.state s ts) t).2 := by
  simp [Lab43.imuMouseTask, h, Transducer.out_append]

/-- One more turn. -/
theorem taskRun_succ (c : Sensors) (regs : Addr → Regs) (o : StartOutcome) (n : Nat)
    (ts : List Turn) :
    ∃ t, Matches c regs o ts (taskRun c regs n) →
      Matches c regs o (ts ++ [t]) (taskRun c regs (n + 1)) := by
  cases htask : (taskRun c regs n).1.1 with
  | none =>
      refine ⟨⟨none, none, none, .ok, .ok, ⟨true, true, true, true⟩⟩, fun h => ?_⟩
      have hstart : (Lab43.startUp o).1 = none := by
        simpa [htask] using h.task.symm
      have hlog : ∀ us, Lab43.imuMouseTask o us = (Lab43.startUp o).2 := by
        intro us
        simp [Lab43.imuMouseTask, hstart]
      rw [taskRun_none htask]
      refine ⟨?_, ?_, ?_⟩
      · rw [htask, hstart]
        rfl
      · rw [h.samples, hlog, hlog]
      · rw [h.settings, hlog, hlog]
  | some s =>
      rcases performs_turn c s (taskRun c regs n).2 with ⟨done, ⟨t, ht, hdone⟩, hregs⟩
      refine ⟨t, fun h => ?_⟩
      have htask' := h.task
      rw [htask] at htask'
      rcases Option.map_eq_some_iff.1 htask'.symm with ⟨s₀, hstart, hs⟩
      have hlog := imuMouseTask_concat hstart ts t
      rw [hs, ht] at hlog
      rw [taskRun_some htask]
      refine ⟨?_, ?_, ?_⟩
      · simp [hstart, Transducer.state_append, hs, ht]
      · rw [hlog, List.filterMap_append, List.filterMap_append, hdone, ← h.samples]
        simp only [List.nil_append]
        refine congrArg _ ?_
        cases ((turn s).run c.chip (taskRun c regs n).2).1.2 <;> rfl
      · rw [hlog, List.foldl_append, List.foldl_append, ← h.settings, ← hregs, perform_samples]

/-! ## What the sensors are set to -/

/-- `icm42670_accel_fsr_t` from its code. -/
def fsrOf (code : UInt8) : AccelFsr :=
  if code = 0 then .range16G else if code = 1 then .range8G
  else if code = 2 then .range4G else .range2G

/-- `icm42670_accel_pwr_mode_t` from its code. -/
def pwrModeOf (code : UInt8) : AccelPwrMode :=
  if code = 3 then .enableLnMode else if code = 2 then .enableLpMode else .disable

/-- What its registers make a sensor. -/
def device (regs : Regs) : Device :=
  ⟨fsrOf (Setting.accelFsr.get regs), pwrModeOf (Setting.accelMode.get regs)⟩

theorem get_settings {y : Setting} (hy : y ≠ .idle) (regs : Addr → Regs) (a : Addr) :
    y.get (settings regs a) = y.get (regs a) := by
  unfold Setting.get settings
  split
  · rename_i hreg
    have hmask : y.field.mask &&& Setting.idle.field.mask = 0 := Setting.disjoint hy hreg
    have hkept : ~~~Setting.idle.field.mask &&& y.field.mask = y.field.mask := by
      refine not_and_of_disjoint ?_
      rw [UInt8.and_comm, hmask]
    rw [Field.get, UInt8.and_assoc, hkept]
    rfl
  · rfl

theorem device_settings (regs : Addr → Regs) (a : Addr) :
    device (settings regs a) = device (regs a) := by
  unfold device
  rw [get_settings (by decide), get_settings (by decide)]

/-- An operation is for the registers what it is for the sensor. -/
theorem device_perform (c : Sensors) (regs : Addr → Regs) (op : Op) (a : Addr) :
    device (c.perform regs op a) = (device (regs a)).apply a op := by
  cases op with
  | reset b =>
      by_cases h : b = a
      · subst h
        simp only [Sensors.perform, Function.update_self, device_settings]
        rw [device, c.defaults_fsr, c.defaults_mode]
        simp [Device.apply, Device.defaults, fsrOf, pwrModeOf]
      · simp [Sensors.perform, Device.apply, h, Function.update_of_ne (Ne.symm h)]
  | setAccelFsr b r =>
      have hfits : Setting.accelFsr.field.Fits (fsrCode r) := by cases r <;> decide
      simp only [Sensors.perform, device, Setting.get_setField hfits, Device.apply]
      by_cases h : a = b
      · subst h
        cases r <;> simp [fsrOf, fsrCode]
      · simp [h, Ne.symm h]
  | setAccelAvg b =>
      have hfits : Setting.accelAvg.field.Fits ACCEL_AVG_8X := by decide
      simp [Sensors.perform, device, Setting.get_setField hfits, Device.apply]
  | setAccelOdr b =>
      have hfits : Setting.accelOdr.field.Fits ACCEL_ODR_200HZ := by decide
      simp [Sensors.perform, device, Setting.get_setField hfits, Device.apply]
  | setAccelPwrMode b m =>
      have hfits : Setting.accelMode.field.Fits (pwrModeCode m) := by cases m <;> decide
      simp only [Sensors.perform, device, Setting.get_setField hfits, Device.apply]
      by_cases h : a = b
      · subst h
        cases m <;> simp [pwrModeOf, pwrModeCode]
      · simp [h, Ne.symm h]
  | push b rx ry rz => rfl

theorem device_foldl (c : Sensors) (log : List Op) (regs : Addr → Regs) (a : Addr) :
    device (log.foldl c.perform regs a) = (device (regs a)).after a log := by
  induction log generalizing regs with
  | nil => rfl
  | cons op log ih =>
      rw [List.foldl_cons, ih, device_perform]
      rfl

/-- Whatever fails, a run of the task on registers is a run of it by its operations, with the
same variables, the same samples and the same settings after every turn. After every turn the
registers of a sensor have it in low-noise mode and with the range of the conversion exactly
if it has accepted both since its last soft reset. -/
theorem task_refines (c : Sensors) (regs : Addr → Regs) :
    ∃ (o : StartOutcome) (ts : Nat → Turn), ∀ n,
      Matches c regs o ((List.range n).map ts) (taskRun c regs n) ∧
      ∀ a, (device ((taskRun c regs n).2.regs a)).Configured ↔
        Accepted (fun a => device (regs a)) a
          (Lab43.imuMouseTask o ((List.range n).map ts)) := by
  rcases taskRun_zero c regs with ⟨o, ho⟩
  rcases exists_inputs ho (fun n ts => taskRun_succ c regs o n ts) with ⟨ts, hts⟩
  refine ⟨o, ts, fun n => ⟨hts n, fun a => ?_⟩⟩
  rw [← configured_iff (imuMouseTask_wanted o _), ← device_settings, (hts n).settings,
    device_foldl, device_settings]

/-! ## What the task leaves alone -/

/-- The value that the task gives a setting. -/
def wantedValue : Setting → Option UInt8
  | .accelFsr => some (fsrCode range)
  | .accelAvg => some ACCEL_AVG_8X
  | .accelOdr => some ACCEL_ODR_200HZ
  | .accelMode => some (pwrModeCode .enableLnMode)
  | _ => none

/-- A setting has the value that it had, that a soft reset leaves, or that the task gives. -/
def Explained (c : Sensors) (regs : Addr → Regs) (a : Addr) (y : Setting) (v : UInt8) : Prop :=
  v = y.get (regs a) ∨ v = y.get c.defaults ∨ wantedValue y = some v

theorem explained_perform {c : Sensors} {init regs : Addr → Regs} {op : Op} (hop : op.Wanted)
    {a : Addr} {y : Setting} (hy : y ≠ .idle) (h : Explained c init a y (y.get (regs a))) :
    Explained c init a y (y.get (c.perform regs op a)) := by
  have hset : ∀ {x : Setting} {v : UInt8} (b : Addr), x.field.Fits v →
      wantedValue x = some v →
      Explained c init a y (y.get (setField regs b x.reg x.field v a)) := by
    intro x v b hv hx
    rw [Setting.get_setField hv]
    split
    · rename_i heq
      rw [heq.2]
      exact Or.inr (Or.inr hx)
    · exact h
  cases op with
  | reset b =>
      by_cases hb : a = b
      · subst hb
        simp only [Sensors.perform, Function.update_self, get_settings hy]
        exact Or.inr (Or.inl rfl)
      · simpa only [Sensors.perform, Function.update_of_ne hb] using h
  | setAccelFsr b r =>
      rcases (show r = range from hop) with rfl
      exact hset b (by decide) rfl
  | setAccelAvg b => exact hset b (by decide) rfl
  | setAccelOdr b => exact hset b (by decide) rfl
  | setAccelPwrMode b m =>
      rcases (show m = .enableLnMode from hop) with rfl
      exact hset b (by decide) rfl
  | push b rx ry rz => exact h

theorem explained_foldl {c : Sensors} {init : Addr → Regs} {a : Addr} {y : Setting}
    (hy : y ≠ .idle) {log : List Op} (hlog : ∀ x ∈ log, x.Wanted) {regs : Addr → Regs}
    (h : Explained c init a y (y.get (regs a))) :
    Explained c init a y (y.get (log.foldl c.perform regs a)) := by
  induction log generalizing regs with
  | nil => exact h
  | cons op log ih =>
      rw [List.forall_mem_cons] at hlog
      exact ih hlog.2 (explained_perform hlog.1 hy h)

/-- Whatever fails and however long the task runs, every setting of both sensors but the idle
bit has the value it had before, the one that a soft reset leaves, or, for the four settings
of the accelerometer that the task configures, the one it configures. -/
theorem settings_explained (c : Sensors) (regs : Addr → Regs) (n : Nat) (a : Addr)
    {y : Setting} (hy : y ≠ .idle) :
    Explained c regs a y (y.get ((taskRun c regs n).2.regs a)) := by
  rcases taskRun_zero c regs with ⟨o, ho⟩
  rcases exists_inputs ho (fun n ts => taskRun_succ c regs o n ts) with ⟨ts, hts⟩
  rw [← get_settings hy, (hts n).settings]
  refine explained_foldl hy (imuMouseTask_wanted o _) ?_
  rw [get_settings hy]
  exact Or.inl rfl

/-- A task that has found its sensor and configured it, and then used three samples. -/
theorem settings_explained_still :
    let r := taskRun .still (fun _ _ => 0xFF) 3
    r.1 = (some ⟨.gnd, .gnd, 0⟩, List.replicate 3 ⟨.gnd, 0, 0, 0⟩) ∧
      Setting.accelFsr.get (r.2.regs .gnd) = fsrCode range ∧
      Explained .still (fun _ _ => 0xFF) .gnd .accelFsr (Setting.accelFsr.get (r.2.regs .gnd)) ∧
      Explained .still (fun _ _ => 0xFF) .gnd .gyroMode (Setting.gyroMode.get (r.2.regs .gnd)) :=
  ⟨by decide +kernel, by decide +kernel,
    settings_explained .still (fun _ _ => 0xFF) 3 .gnd (by decide),
    settings_explained .still (fun _ _ => 0xFF) 3 .gnd (by decide)⟩

end Cse121.Icm42670
