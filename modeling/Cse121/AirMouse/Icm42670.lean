import Cse121.AirMouse.Imu
import Cse121.Lib.RegisterFile

/-! # The driver of the motion sensor

`icm42670.c`, which the air mouse configures and reads its sensor with: registers are read
and written a byte at a time, settings are changed by `manipulate_register`, and every
transaction may fail.
-/

namespace Cse121.Icm42670

open RegisterFile Cse121.Lab43

/-! ## Registers -/

def REG_MCLK_RDY : UInt8 := 0x00
def REG_SIGNAL_PATH_RESET : UInt8 := 0x02
def REG_INT_CONFIG : UInt8 := 0x06
def REG_ACCEL_DATA_X1 : UInt8 := 0x0B
def REG_ACCEL_DATA_Y1 : UInt8 := 0x0D
def REG_ACCEL_DATA_Z1 : UInt8 := 0x0F
def REG_PWR_MGMT0 : UInt8 := 0x1F
def REG_GYRO_CONFIG0 : UInt8 := 0x20
def REG_ACCEL_CONFIG0 : UInt8 := 0x21
def REG_TEMP_CONFIG0 : UInt8 := 0x22
def REG_GYRO_CONFIG1 : UInt8 := 0x23
def REG_ACCEL_CONFIG1 : UInt8 := 0x24
def REG_WHO_AM_I : UInt8 := 0x75

def MCLK_RDY : Field := ⟨0x08, 3⟩

/-- What `manipulate_register` is called for. -/
inductive Setting where
  | int1
  | int2
  | lpClk
  | idle
  | gyroMode
  | accelMode
  | gyroFsr
  | gyroOdr
  | accelFsr
  | accelOdr
  | tempLpf
  | gyroLpf
  | accelLpf
  | accelAvg
deriving DecidableEq, Repr

def Setting.reg : Setting → UInt8
  | .int1 | .int2 => REG_INT_CONFIG
  | .lpClk | .idle | .gyroMode | .accelMode => REG_PWR_MGMT0
  | .gyroFsr | .gyroOdr => REG_GYRO_CONFIG0
  | .accelFsr | .accelOdr => REG_ACCEL_CONFIG0
  | .tempLpf => REG_TEMP_CONFIG0
  | .gyroLpf => REG_GYRO_CONFIG1
  | .accelLpf | .accelAvg => REG_ACCEL_CONFIG1

/-- `ICM42670_*_BITS` and `ICM42670_*_SHIFT`. -/
def Setting.field : Setting → Field
  | .int1 => ⟨0b00000111, 0⟩
  | .int2 => ⟨0b00111000, 3⟩
  | .lpClk => ⟨0x80, 7⟩
  | .idle => ⟨0x10, 4⟩
  | .gyroMode => ⟨0x0C, 2⟩
  | .accelMode => ⟨0x03, 0⟩
  | .gyroFsr => ⟨0x60, 5⟩
  | .gyroOdr => ⟨0x0F, 0⟩
  | .accelFsr => ⟨0x60, 5⟩
  | .accelOdr => ⟨0x0F, 0⟩
  | .tempLpf => ⟨0x70, 4⟩
  | .gyroLpf => ⟨0x07, 0⟩
  | .accelLpf => ⟨0x07, 0⟩
  | .accelAvg => ⟨0x70, 4⟩

/-- What a setting is in some registers. -/
def Setting.get (x : Setting) (regs : Regs) : UInt8 := x.field.get (regs x.reg)

/-- `icm42670_accel_odr_t`, the rates that matter to the power modes. -/
def ACCEL_ODR_1_5625HZ : UInt8 := 0b1111
def ACCEL_ODR_3_125HZ : UInt8 := 0b1110
def ACCEL_ODR_6_25HZ : UInt8 := 0b1101
def ACCEL_ODR_200HZ : UInt8 := 0b1000
def ACCEL_ODR_800HZ : UInt8 := 0b0110
def ACCEL_ODR_1_6KHZ : UInt8 := 0b0101

/-- `icm42670_accel_avg_t`, as far as it is used. -/
def ACCEL_AVG_8X : UInt8 := 0b010
def ACCEL_AVG_64X : UInt8 := 0b101

/-- `icm42670_accel_fsr_t`. -/
def fsrCode : AccelFsr → UInt8
  | .range16G => 0b00
  | .range8G => 0b01
  | .range4G => 0b10
  | .range2G => 0b11

/-- `icm42670_accel_pwr_mode_t`. -/
def pwrModeCode : AccelPwrMode → UInt8
  | .disable => 0b00
  | .enableLpMode => 0b10
  | .enableLnMode => 0b11

/-! ## The driver -/

/-- `esp_err_t`, without `ESP_OK`. -/
inductive EspErr where
  /-- of a transaction -/
  | bus
  /-- of taking, giving or creating the mutex -/
  | mutex
  | invalidResponse
  | invalidArg
deriving DecidableEq, Repr

/-- A function of the driver, which ends with an error or with what it is called for. -/
abbrev Driver (α : Type) := Prog Addr (Except EspErr α)

/-- `CHECK`: go on if the call returned `ESP_OK`. -/
def check {α β : Type} (p : Driver α) (next : α → Driver β) : Driver β :=
  p.bind fun
    | .error e => .done (.error e)
    | .ok a => next a

/-- The code between `I2C_DEV_TAKE_MUTEX` and `I2C_DEV_GIVE_MUTEX`; for an error
`I2C_DEV_CHECK` gives the mutex too, whatever comes of it. -/
def locked {α : Type} (body : Driver α) : Driver α :=
  .call fun taken =>
    if taken then body.bind fun
      | .error e => .call fun _ => .done (.error e)
      | .ok a => .call fun given => .done (if given then .ok a else .error .mutex)
    else .done (.error .mutex)

/-- `write_register`. -/
def writeRegister (dev : Addr) (reg value : UInt8) : Driver Unit :=
  .write dev reg value fun ok => .done (if ok then .ok () else .error .bus)

/-- `read_register`. -/
def readRegister (dev : Addr) (reg : UInt8) : Driver UInt8 :=
  .read dev reg fun ok b => .done (if ok then .ok b else .error .bus)

/-- Two bytes as an `int16_t`. -/
def int16 (reg1 reg0 : UInt8) : Int := (reg1.toBitVec ++ reg0.toBitVec).toInt

/-- `read_register_16`. The error of the first read is overwritten by that of the second. -/
def readRegister16 (dev : Addr) (upperByteReg : UInt8) : Driver Int :=
  .read dev upperByteReg fun _ reg1 =>
    .read dev (upperByteReg + 1) fun ok reg0 =>
      .done (if ok then .ok (int16 reg1 reg0) else .error .bus)

/-- `manipulate_register`, for the mask and the shift of a field. -/
def manipulateRegister (dev : Addr) (regAddr : UInt8) (f : Field) (value : UInt8) :
    Driver Unit :=
  locked <| .read dev regAddr fun ok reg =>
    if ok then writeRegister dev regAddr (f.set reg value) else .done (.error .bus)

def Setting.set (x : Setting) (dev : Addr) (value : UInt8) : Driver Unit :=
  manipulateRegister dev x.reg x.field value

/-- `icm42670_set_idle_pwr_mode`. -/
def setIdlePwrMode (dev : Addr) (enableIdle : Bool) : Driver Unit :=
  Setting.idle.set dev (if enableIdle then 1 else 0)

/-- `icm42670_set_gyro_pwr_mode`. -/
def setGyroPwrMode (dev : Addr) (pwrMode : UInt8) : Driver Unit :=
  Setting.gyroMode.set dev pwrMode

/-- `icm42670_set_low_power_clock`. -/
def setLowPowerClock (dev : Addr) (clockSource : UInt8) : Driver Unit :=
  Setting.lpClk.set dev clockSource

/-- `icm42670_set_gyro_fsr`. -/
def setGyroFsr (dev : Addr) (range : UInt8) : Driver Unit := Setting.gyroFsr.set dev range

/-- `icm42670_set_gyro_odr`. -/
def setGyroOdr (dev : Addr) (odr : UInt8) : Driver Unit := Setting.gyroOdr.set dev odr

/-- `icm42670_set_accel_fsr`. -/
def setAccelFsr (dev : Addr) (range : AccelFsr) : Driver Unit :=
  Setting.accelFsr.set dev (fsrCode range)

/-- `icm42670_set_accel_odr`. -/
def setAccelOdr (dev : Addr) (odr : UInt8) : Driver Unit := Setting.accelOdr.set dev odr

/-- `icm42670_set_temp_lpf`. -/
def setTempLpf (dev : Addr) (lpfBw : UInt8) : Driver Unit := Setting.tempLpf.set dev lpfBw

/-- `icm42670_set_gyro_lpf`. -/
def setGyroLpf (dev : Addr) (lpfBw : UInt8) : Driver Unit := Setting.gyroLpf.set dev lpfBw

/-- `icm42670_set_accel_lpf`. -/
def setAccelLpf (dev : Addr) (lpfBw : UInt8) : Driver Unit := Setting.accelLpf.set dev lpfBw

/-- `icm42670_set_accel_avg`. -/
def setAccelAvg (dev : Addr) (avg : UInt8) : Driver Unit := Setting.accelAvg.set dev avg

/-- `icm42670_config_int_pin`. -/
def configIntPin (dev : Addr) (intPin mode drive polarity : UInt8) : Driver Unit :=
  if intPin < 3 ∧ 0 < intPin then
    let reg := mode <<< 2 ||| drive <<< 1 ||| polarity
    if intPin = 2 then Setting.int2.set dev reg else Setting.int1.set dev reg
  else .done (.error .invalidArg)

/-- A field of a register is read. -/
def getField (dev : Addr) (reg : UInt8) (f : Field) : Driver UInt8 :=
  check (locked (readRegister dev reg)) fun b => .done (.ok (f.get b))

/-- `icm42670_get_mclk_rdy`. -/
def getMclkRdy (dev : Addr) : Driver UInt8 := getField dev REG_MCLK_RDY MCLK_RDY

/-- `icm42670_get_accel_odr`. -/
def getAccelOdr (dev : Addr) : Driver UInt8 :=
  getField dev Setting.accelOdr.reg Setting.accelOdr.field

/-- `icm42670_get_accel_avg`. -/
def getAccelAvg (dev : Addr) : Driver UInt8 :=
  getField dev Setting.accelAvg.reg Setting.accelAvg.field

/-- The rates and averages that `icm42670_set_accel_pwr_mode` refuses. -/
def refused (pwrMode : AccelPwrMode) (odr avg : UInt8) : Bool :=
  match pwrMode with
  | .enableLpMode => odr = ACCEL_ODR_800HZ ∨ odr = ACCEL_ODR_1_6KHZ ∨
      (odr = ACCEL_ODR_200HZ ∧ avg = ACCEL_AVG_64X)
  | .enableLnMode => odr = ACCEL_ODR_6_25HZ ∨ odr = ACCEL_ODR_3_125HZ ∨
      odr = ACCEL_ODR_1_5625HZ
  | .disable => false

/-- `icm42670_set_accel_pwr_mode`. -/
def setAccelPwrMode (dev : Addr) (pwrMode : AccelPwrMode) : Driver Unit :=
  check (getAccelOdr dev) fun odr => check (getAccelAvg dev) fun avg =>
    if refused pwrMode odr avg then .done (.error .invalidArg)
    else Setting.accelMode.set dev (pwrModeCode pwrMode)

/-- `icm42670_flush_fifo`. -/
def flushFifo (dev : Addr) : Driver Unit :=
  locked (writeRegister dev REG_SIGNAL_PATH_RESET 0x04)

/-- `icm42670_reset`. -/
def reset (dev : Addr) : Driver Unit :=
  locked (writeRegister dev REG_SIGNAL_PATH_RESET 0x10)

/-- `icm42670_init`. -/
def init (dev : Addr) : Driver Unit :=
  check (locked (readRegister dev REG_WHO_AM_I)) fun reg =>
    if reg ≠ 0x67 then .done (.error .invalidResponse)
    else check (flushFifo dev) fun _ => check (reset dev) fun _ =>
      check (setIdlePwrMode dev true) fun _ => check (getMclkRdy dev) fun mclkRdy =>
        .done (if mclkRdy = 0 then .error .invalidResponse else .ok ())

/-- `icm42670_read_raw_data`. -/
def readRawData (dev : Addr) (dataRegister : UInt8) : Driver Int :=
  locked (readRegister16 dev dataRegister)

/-! ## The sensor -/

/-- Sensors on a bus: how the calls go, what the registers read that a sensor sets, and what
a soft reset leaves in the others. -/
structure Sensors where
  ok : Nat → Bool
  late : Nat → Bool
  junk : Nat → UInt8
  reads : Nat → Addr → UInt8 → UInt8
  defaults : Regs
  /-- a soft reset turns the accelerometer off -/
  defaults_mode : Setting.accelMode.get defaults = 0
  /-- and sets its range to 16 g -/
  defaults_fsr : Setting.accelFsr.get defaults = 0

/-- The registers with settings. -/
def configRegs : List UInt8 :=
  [REG_INT_CONFIG, REG_PWR_MGMT0, REG_GYRO_CONFIG0, REG_ACCEL_CONFIG0, REG_TEMP_CONFIG0,
    REG_GYRO_CONFIG1, REG_ACCEL_CONFIG1]

/-- A write to `SIGNAL_PATH_RESET` is a command, and any other is kept. -/
def Sensors.store (c : Sensors) (regs : Regs) (reg value : UInt8) : Regs :=
  if reg = REG_SIGNAL_PATH_RESET then
    if value &&& 0x10 = 0 then regs else c.defaults
  else Function.update regs reg value

def Sensors.chip (c : Sensors) : Chip Addr where
  ok := c.ok
  late := c.late
  junk := c.junk
  load t dev regs reg := if reg ∈ configRegs then regs reg else c.reads t dev reg
  store := c.store

/-- Sensors that answer every call, and lie still. -/
def Sensors.still : Sensors where
  ok _ := true
  late _ := false
  junk _ := 0
  reads _ _ r := if r = REG_WHO_AM_I then 0x67 else if r = REG_MCLK_RDY then 0x08 else 0
  defaults r := if r = REG_GYRO_CONFIG0 ∨ r = REG_ACCEL_CONFIG0 then 0x06 else 0
  defaults_mode := rfl
  defaults_fsr := rfl

/-! ## What the functions do -/

/-- The call did some operations if it returned `ESP_OK`, and perhaps if it failed. -/
def Tells {α ω : Type} (ops : List ω) (r : Except EspErr α) (done : List ω) : Prop :=
  ∃ took : Bool, (∀ a, r = .ok a → took = true) ∧ done = if took then ops else []

theorem tells_nil {α ω : Type} {r : Except EspErr α} {done : List ω} :
    Tells [] r done ↔ done = [] := by
  constructor
  · rintro ⟨took, -, rfl⟩
    exact ite_self _
  · rintro rfl
    exact ⟨true, fun _ _ => rfl, rfl⟩

section Rules

variable {α β δ ω : Type} {c : Sensors} {abs : (Addr → Regs) → δ} {apply : δ → ω → δ}
  {ops : List ω}

/-- An error with nothing done. -/
theorem does_error (e : EspErr) :
    (Prog.done (.error e) : Driver α).Does c.chip abs apply (Tells ops) :=
  Prog.Does.done ⟨false, nofun, rfl⟩

theorem does_nothing (r : Except EspErr α) :
    (Prog.done r : Driver α).Does c.chip abs apply (Tells []) :=
  Prog.Does.done (tells_nil.2 rfl)

theorem does_locked {body : Driver α} (h : body.Does c.chip abs apply (Tells ops)) :
    (locked body).Does c.chip abs apply (Tells ops) := by
  refine Prog.Does.call fun taken => ?_
  cases taken with
  | false => exact does_error _
  | true =>
      refine Prog.Does.bind h ?_
      rintro r done ⟨took, htook, rfl⟩
      cases r with
      | error e =>
          exact Prog.Does.call fun _ => Prog.Does.done ⟨took, nofun, List.append_nil _⟩
      | ok a =>
          refine Prog.Does.call fun given => Prog.Does.done ⟨took, ?_, List.append_nil _⟩
          intro _ _
          exact htook a rfl

/-- A call that does nothing comes first. -/
theorem does_check {p : Driver α} {next : α → Driver β}
    (hp : p.Does c.chip abs apply (Tells []))
    (hnext : ∀ a, (next a).Does c.chip abs apply (Tells ops)) :
    (check p next).Does c.chip abs apply (Tells ops) := by
  refine Prog.Does.bind hp ?_
  intro r done hdone
  rw [tells_nil.1 hdone]
  cases r with
  | error e => exact does_error e
  | ok a => exact hnext a

/-- A call that does nothing comes last. -/
theorem does_check_last {p : Driver α} {next : α → Driver β}
    (hp : p.Does c.chip abs apply (Tells ops))
    (hnext : ∀ a, (next a).Does c.chip abs apply (Tells [])) :
    (check p next).Does c.chip abs apply (Tells ops) := by
  refine Prog.Does.bind hp ?_
  rintro r done ⟨took, htook, rfl⟩
  cases r with
  | error e => exact Prog.Does.done ⟨took, nofun, List.append_nil _⟩
  | ok a =>
      refine (hnext a).mono ?_
      intro r' done' hdone'
      rw [tells_nil.1 hdone', List.append_nil]
      exact ⟨took, fun _ _ => htook a rfl, rfl⟩

theorem does_readRegister (dev : Addr) (reg : UInt8) :
    (readRegister dev reg).Does c.chip abs apply (Tells []) :=
  Prog.Does.read fun _ _ => does_nothing _

theorem does_getField (dev : Addr) (reg : UInt8) (f : Field) :
    (getField dev reg f).Does c.chip abs apply (Tells []) :=
  does_check (does_locked (does_readRegister dev reg)) fun _ => does_nothing _

theorem does_readRawData (dev : Addr) (reg : UInt8) :
    (readRawData dev reg).Does c.chip abs apply (Tells []) :=
  does_locked <| Prog.Does.read fun _ _ => Prog.Does.read fun _ _ => does_nothing _

/-- The end of a function that writes. -/
theorem does_ended {ok took : Bool} (htook : ok = true → took = true) :
    (Prog.done (if ok then .ok () else .error .bus) : Driver Unit).Does c.chip abs apply
      fun r done => Tells ops r ((if took then ops else []) ++ done) := by
  refine Prog.Does.done ⟨took, ?_, List.append_nil _⟩
  intro _ hr
  cases ok with
  | false => cases hr
  | true => exact htook rfl

theorem does_writeRegister {dev : Addr} {reg value : UInt8}
    (heff : ∀ regs, abs (Function.update regs dev (c.store (regs dev) reg value)) =
      ops.foldl apply (abs regs)) :
    (writeRegister dev reg value).Does c.chip abs apply (Tells ops) :=
  Prog.Does.write heff fun _ _ htook => does_ended htook

theorem Setting.store_reg (x : Setting) (regs : Regs) (value : UInt8) :
    c.store regs x.reg value = Function.update regs x.reg value := by
  refine if_neg ?_
  cases x <;> decide

theorem Setting.load_reg (x : Setting) (t : Nat) (dev : Addr) (regs : Regs) :
    c.chip.load t dev regs x.reg = regs x.reg := by
  refine if_pos ?_
  cases x <;> decide

theorem Setting.does_set {x : Setting} {dev : Addr} {value : UInt8}
    (heff : ∀ regs, abs (setField regs dev x.reg x.field value) = ops.foldl apply (abs regs)) :
    (x.set dev value).Does c.chip abs apply (Tells ops) := by
  refine does_locked <| Prog.Does.modify (x.load_reg · dev) ?_ (does_error _)
    fun _ _ htook => does_ended htook
  intro regs
  rw [← heff, setField]
  exact congrArg (fun r => abs (Function.update regs dev r)) (x.store_reg _ _)

end Rules

/-! ## The settings -/

/-- Two settings share no bits. -/
theorem Setting.disjoint {x y : Setting} (h : x ≠ y) (hreg : x.reg = y.reg) :
    x.field.mask &&& y.field.mask = 0 := by
  revert h hreg
  cases x <;> cases y <;> decide

theorem Setting.get_setField {x : Setting} {v : UInt8} (hv : x.field.Fits v)
    (regs : Addr → Regs) (dev a : Addr) (y : Setting) :
    y.get (setField regs dev x.reg x.field v a) =
      if a = dev ∧ y = x then v else y.get (regs a) := by
  unfold setField Setting.get
  by_cases ha : a = dev
  · subst ha
    rw [Function.update_self]
    by_cases hyx : y = x
    · subst hyx
      rw [Function.update_self, if_pos ⟨rfl, rfl⟩, Field.get_set hv]
    · rw [if_neg (fun h => hyx h.2)]
      by_cases hreg : y.reg = x.reg
      · rw [hreg, Function.update_self]
        exact Field.get_set_of_disjoint (Setting.disjoint (Ne.symm hyx) hreg.symm) hv _
      · rw [Function.update_of_ne hreg]
  · rw [Function.update_of_ne ha, if_neg (fun h => ha h.1)]

/-- Whatever fails, a function that sets a setting leaves every other one of every sensor as
it is, and its own with the old or the new value; with the new one if it returned
`ESP_OK`. -/
theorem set_leaves_others (c : Sensors) (x : Setting) (dev : Addr) {v : UInt8}
    (hv : x.field.Fits v) (s : State Addr) :
    ∃ took : Bool, (((x.set dev v).run c.chip s).1 = .ok () → took = true) ∧
      ∀ a (y : Setting), y.get (((x.set dev v).run c.chip s).2.regs a) =
        if took = true ∧ a = dev ∧ y = x then v else y.get (s.regs a) := by
  have hdoes : (x.set dev v).Does c.chip id
      (fun regs (_ : Unit) => setField regs dev x.reg x.field v) (Tells [()]) :=
    Setting.does_set fun _ => rfl
  rcases hdoes s with ⟨done, ⟨took, htook, rfl⟩, hregs⟩
  refine ⟨took, htook (), ?_⟩
  intro a y
  rw [show (((x.set dev v).run c.chip s).2.regs) = _ from hregs]
  cases took with
  | false => simp
  | true => simpa using Setting.get_setField hv s.regs dev a y

theorem set_leaves_others_range :
    ∃ took : Bool,
      (((Setting.accelFsr.set .gnd 2).run Sensors.still.chip ⟨0, fun _ _ => 0⟩).1 = .ok () →
        took = true) ∧
      ∀ a (y : Setting),
        y.get (((Setting.accelFsr.set .gnd 2).run Sensors.still.chip ⟨0, fun _ _ => 0⟩).2.regs
          a) = if took = true ∧ a = .gnd ∧ y = .accelFsr then 2 else y.get fun _ => 0 :=
  set_leaves_others Sensors.still .accelFsr .gnd (by decide) ⟨0, fun _ _ => 0⟩

end Cse121.Icm42670
