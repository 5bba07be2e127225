import Cse121.Lib.Ledger

/-! # The devices of a bus

`i2cdev.c`, on which the driver of the motion sensor rests. Devices share the bus of their
port: the first operation on a port creates the bus, a device is added to it at its own first
operation, and when the last device is deleted the bus is. Tasks go through their calls one
critical section after another, in any order between them; the calls on one device do not
overlap.
-/

namespace Cse121.I2cdev

/-! ## Ports and devices -/

/-- `ESP_OK`, the errors that the code tells apart, and the others. -/
inductive EspErr where
  | ok
  | invalidArg
  | invalidState
  | noMem
  | timeout
  | fail
deriving DecidableEq, Repr

/-- The ports that there are, the port and the pins of each device, and the default pins. -/
structure Config (ι : Type) where
  numMax : Nat
  port : ι → Nat
  sdaIoNum : ι → Int
  sclIoNum : ι → Int
  defaultSdaPin : Int
  defaultSclPin : Int

/-- `i2c_port_state_t`. A bus is told by its number. -/
structure PortState where
  busHandle : Option Nat
  installed : Bool
  refCount : UInt32
  sdaPinCurrent : Int
  sclPinCurrent : Int

/-- Where the task of a device is in its call. -/
inductive Phase where
  | idle
  /-- before `i2c_setup_port`, in a try of an operation or for a probe -/
  | setup (retry : Option Nat)
  /-- before the device is added to the bus -/
  | add (retry : Nat)
  | transfer (retry : Nat)
  | probe
  /-- before the reference count is lowered, with or without a handle that was removed -/
  | drop (had : Bool)
deriving DecidableEq, Repr

/-- `i2c_dev_t`, as far as it changes. A handle belongs to the bus and to the address that it
was made for. -/
structure Dev where
  addr : Nat
  mutex : Bool
  devHandle : Option Nat
  handleAddr : Nat
  sdaPin : Int
  sclPin : Int
  phase : Phase

/-- `i2c_ports`, `active_devices`, the devices, and the number of the next bus. -/
structure State (ι : Type) where
  ports : Nat → PortState
  slots : Nat → List (Option ι)
  devs : ι → Dev
  next : Nat

/-- A bus is created, used or handed to `i2c_del_master_bus`, a transfer goes to an address, or
a call returns. -/
inductive Out (ι : Type) where
  | bus (e : Ledger.Event Nat)
  | transfer (dev : ι) (addr : Nat)
  | returned (dev : ι) (err : EspErr)
deriving DecidableEq, Repr

def maxRetries : Nat := 3
def maxDevicesPerPort : Nat := 8

def PortState.free : PortState := ⟨none, false, 0, -1, -1⟩

/-- After `i2cdev_init`, with devices that are not made yet. -/
def init (ι : Type) : State ι where
  ports _ := .free
  slots _ := List.replicate maxDevicesPerPort none
  devs _ := ⟨0, false, none, 0, -1, -1, .idle⟩
  next := 0

/-! ## The functions -/

section Functions

variable {ι : Type} [DecidableEq ι] (cfg : Config ι)

def State.setDev (s : State ι) (d : ι) (x : Dev) : State ι :=
  { s with devs := Function.update s.devs d x }

def State.setPort (s : State ι) (p : Nat) (x : PortState) : State ι :=
  { s with ports := Function.update s.ports p x }

/-- The task of a device goes on in another phase. -/
def State.goTo (s : State ι) (d : ι) (phase : Phase) : State ι :=
  s.setDev d { s.devs d with phase := phase }

/-- `register_device`: the first free slot, if there is one. -/
def registerDevice (slots : List (Option ι)) (d : ι) : List (Option ι) :=
  slots.set (slots.idxOf none) (some d)

/-- `deregister_device` -/
def deregisterDevice (slots : List (Option ι)) (d : ι) : List (Option ι) :=
  slots.set (slots.idxOf (some d)) none

/-- A call ends. -/
def State.finish (s : State ι) (d : ι) (err : EspErr) : State ι × List (Out ι) :=
  (s.goTo d .idle, [.returned d err])

/-- A try has failed: the next one, or the end of `i2c_do_operation_with_retry`. -/
def State.retry (s : State ι) (d : ι) (retry : Nat) (err : EspErr) : State ι × List (Out ι) :=
  if retry + 1 ≤ maxRetries then (s.goTo d (.setup (some (retry + 1))), [])
  else s.finish d err

/-- The set-up of a port has failed. -/
def State.setupFailed (s : State ι) (d : ι) (retry : Option Nat) (err : EspErr) :
    State ι × List (Out ι) :=
  match retry with
  | some k => s.retry d k err
  | none => s.finish d err

/-- What comes after the set-up of a port. -/
def State.setupDone (s : State ι) (d : ι) (retry : Option Nat) : State ι :=
  match retry with
  | some k => s.goTo d (if (s.devs d).devHandle = none then .add k else .transfer k)
  | none => s.goTo d .probe

/-- A pin, or the default. -/
def pin (ioNum default : Int) : Int := if ioNum = -1 then default else ioNum

/-- `i2c_setup_port` -/
def i2cSetupPort (s : State ι) (d : ι) (retry : Option Nat) (lock : Bool) (res : EspErr) :
    State ι × List (Out ι) :=
  let p := cfg.port d
  let ps := s.ports p
  if p ≥ cfg.numMax then s.setupFailed d retry .invalidArg
  else if lock = false then s.setupFailed d retry .timeout
  else if ps.installed = false then
    let sdaPin := pin (cfg.sdaIoNum d) cfg.defaultSdaPin
    let sclPin := pin (cfg.sclIoNum d) cfg.defaultSclPin
    if sdaPin < 0 ∨ sclPin < 0 then s.setupFailed d retry .invalidArg
    else if res = .ok then
      let s' := { s with next := s.next + 1 }.setPort p ⟨some s.next, true, 0, sdaPin, sclPin⟩
      let s' := s'.setDev d { s.devs d with sdaPin, sclPin }
      (s'.setupDone d retry, [.bus (.acquire s.next)])
    else
      (s.setPort p { ps with
        installed := false, busHandle := none, sdaPinCurrent := -1, sclPinCurrent := -1
      }).setupFailed d retry res
  else
    if pin (cfg.sdaIoNum d) ps.sdaPinCurrent ≠ ps.sdaPinCurrent ∨
        pin (cfg.sclIoNum d) ps.sclPinCurrent ≠ ps.sclPinCurrent then
      s.setupFailed d retry .invalidState
    else
      let s' := s.setDev d { s.devs d with
        sdaPin := ps.sdaPinCurrent, sclPin := ps.sclPinCurrent }
      (s'.setupDone d retry, [])

/-- The rest of `i2c_setup_device`: the device is added to the bus. -/
def i2cSetupDevice (s : State ι) (d : ι) (retry : Nat) (lock : Bool) (res : EspErr) :
    State ι × List (Out ι) :=
  let p := cfg.port d
  let ps := s.ports p
  if lock = false then s.retry d retry .timeout
  else match ps.installed, ps.busHandle with
    | true, some b =>
      if res = .ok then
        let s' := s.setPort p { ps with refCount := ps.refCount + 1 }
        (s'.setDev d { s.devs d with
          devHandle := some b, handleAddr := (s.devs d).addr, phase := .transfer retry },
          [.bus (.use b)])
      else
        let r := (s.setDev d { s.devs d with devHandle := none }).retry d retry res
        (r.1, .bus (.use b) :: r.2)
    | _, _ => s.retry d retry .invalidState

/-- One transfer of `i2c_do_operation_with_retry`. -/
def i2cTransfer (s : State ι) (d : ι) (retry : Nat) (res : EspErr) : State ι × List (Out ι) :=
  match (s.devs d).devHandle with
  | none => s.retry d retry .invalidState
  | some b =>
    let r :=
      if res = .ok then s.finish d .ok
      else if res = .invalidArg ∨ res = .invalidState then
        -- the handle is removed, and the reference count is left as it was
        let r := (s.setDev d { s.devs d with devHandle := none }).retry d retry res
        (r.1, .bus (.use b) :: r.2)
      else s.retry d retry res
    (r.1, .bus (.use b) :: .transfer d (s.devs d).handleAddr :: r.2)

/-- The probe of `i2c_dev_check_present`. -/
def i2cProbe (s : State ι) (d : ι) (lock : Bool) (res : EspErr) : State ι × List (Out ι) :=
  let ps := s.ports (cfg.port d)
  if lock = false then s.finish d .timeout
  else match ps.installed, ps.busHandle with
    | true, some b =>
      let r := s.finish d res
      (r.1, .bus (.use b) :: r.2)
    | _, _ => s.finish d .invalidState

/-- `i2c_dev_create_mutex`, for which the caller sets the address. Without a slot the device
is not tracked. -/
def i2cDevCreateMutex (s : State ι) (d : ι) (addr : Nat) (mutexOk lock : Bool) :
    State ι × List (Out ι) :=
  let p := cfg.port d
  let x := { s.devs d with addr := addr }
  if x.mutex then (s.setDev d x).finish d .ok
  else if mutexOk = false then (s.setDev d x).finish d .noMem
  else
    let s' := s.setDev d { x with mutex := true }
    let s' := if p < cfg.numMax ∧ lock = true then
      { s' with slots := Function.update s'.slots p (registerDevice (s'.slots p) d) } else s'
    s'.finish d .ok

/-- `i2c_dev_delete_mutex` up to the port: the handle is removed, the slot is freed. -/
def i2cDevDeleteMutex (s : State ι) (d : ι) : State ι × List (Out ι) :=
  let p := cfg.port d
  let had := (s.devs d).devHandle
  let s' := s.setDev d { s.devs d with devHandle := none, phase := .drop had.isSome }
  let s' := if p < cfg.numMax then
    { s' with slots := Function.update s'.slots p (deregisterDevice (s'.slots p) d) } else s'
  (s', had.toList.map fun b => .bus (.use b))

/-- The rest: one reference less, and no bus without one. The answer of `i2c_del_master_bus`
is only logged. -/
def dropReference (s : State ι) (d : ι) (lock : Bool) : State ι × List (Out ι) :=
  let p := cfg.port d
  let ps := s.ports p
  let s' := s.setDev d { s.devs d with mutex := false }
  if p < cfg.numMax ∧ lock = true ∧ ps.installed = true ∧ ps.refCount > 0 then
    if ps.refCount - 1 = 0 then
      let r := (s'.setPort p .free).finish d .ok
      (r.1, (ps.busHandle.toList.map fun b => .bus (.release b)) ++ r.2)
    else (s'.setPort p { ps with refCount := ps.refCount - 1 }).finish d .ok
  else s'.finish d .ok

/-! ## Runs -/

inductive Call where
  | create (addr : Nat)
  | delete
  | operate
  | checkPresent
deriving DecidableEq, Repr

/-- A task calls a function, or goes on to its next critical section; what it does there
tells whether a mutex could be created or taken and how the bus driver answers. -/
inductive Input (ι : Type) where
  | call (dev : ι) (c : Call) (mutexOk lock : Bool)
  | goOn (dev : ι) (lock : Bool) (res : EspErr)

def Input.dev : Input ι → ι
  | .call d _ _ _ => d
  | .goOn d _ _ => d

/-- A call begins once the one before it on the same device has returned. -/
def step (s : State ι) : Input ι → State ι × List (Out ι)
  | .call d c mutexOk lock =>
    if (s.devs d).phase ≠ .idle then (s, [])
    else match c with
      | .create addr => i2cDevCreateMutex cfg s d addr mutexOk lock
      | .delete => i2cDevDeleteMutex cfg s d
      | .operate => (s.goTo d (.setup (some 0)), [])
      | .checkPresent => (s.goTo d (.setup none), [])
  | .goOn d lock res =>
    match (s.devs d).phase with
    | .idle => (s, [])
    | .setup retry => i2cSetupPort cfg s d retry lock res
    | .add retry => i2cSetupDevice cfg s d retry lock res
    | .transfer retry => i2cTransfer s d retry res
    | .probe => i2cProbe cfg s d lock res
    | .drop _ => dropReference cfg s d lock

def system : Transducer (State ι) (Input ι) (Out ι) := ⟨step cfg⟩

/-- What happens to the buses. -/
def Out.event : Out ι → Option (Ledger.Event Nat)
  | .bus e => some e
  | .transfer _ _ => none
  | .returned _ _ => none

def events (outs : List (Out ι)) : List (Ledger.Event Nat) := outs.filterMap Out.event

/-! ## The clean-up -/

/-- What `i2cdev_done` gets to hear: whether a port could be locked, and what the removal of a
device and the deletion of the bus of a port give. -/
structure Answers (ι : Type) where
  lock : Nat → Bool
  rm : ι → EspErr
  del : Nat → EspErr

/-- `i2cdev_done` up to some point, with the error that it would return. -/
structure Cleaning (ι : Type) where
  state : State ι
  outs : List (Out ι)
  result : EspErr

/-- The first error is reported. -/
def firstError (result err : EspErr) : EspErr := if result = .ok then err else result

variable (ans : Answers ι)

/-- The loop over the slots of a port: the devices that are tracked lose their handles. -/
def removeTracked (s : State ι) (result : EspErr) : List (Option ι) → Cleaning ι
  | [] => ⟨s, [], result⟩
  | none :: slots => removeTracked s result slots
  | some d :: slots =>
    match (s.devs d).devHandle with
    | none => removeTracked s result slots
    | some b =>
      let r := removeTracked (s.setDev d { s.devs d with devHandle := none })
        (firstError result (ans.rm d)) slots
      { r with outs := .bus (.use b) :: r.outs }

/-- One round of the loop over the ports. A port that could not be locked keeps its bus, and
the error is `ESP_FAIL` then, but its slots are cleared too. A bus is given up whether or not
it could be deleted. -/
def donePort (s : State ι) (result : EspErr) (p : Nat) : Cleaning ι :=
  let r : Cleaning ι :=
    if ans.lock p = false then ⟨s, [], .fail⟩
    else if (s.ports p).installed = false then ⟨s, [], result⟩
    else
      let r := removeTracked ans s result (s.slots p)
      ⟨r.state.setPort p { s.ports p with installed := false, busHandle := none, refCount := 0 },
        r.outs ++ (s.ports p).busHandle.toList.map fun b => .bus (.release b),
        firstError r.result (ans.del p)⟩
  { r with
    state := { r.state with
      slots := Function.update r.state.slots p (List.replicate maxDevicesPerPort none) } }

/-- The rounds of `i2cdev_done` for the first ports. -/
def donePorts (s : State ι) : Nat → Cleaning ι
  | 0 => ⟨s, [], .ok⟩
  | p + 1 =>
    let r := donePorts s p
    let r' := donePort ans r.state r.result p
    { r' with outs := r.outs ++ r'.outs }

/-- `i2cdev_done` -/
def i2cdevDone (s : State ι) : Cleaning ι := donePorts ans s cfg.numMax

end Functions

/-- The motion sensor, alone on its port. -/
def sensor : Config Unit where
  numMax := 1
  port _ := 0
  sdaIoNum _ := 10
  sclIoNum _ := 8
  defaultSdaPin := 21
  defaultSclPin := 22

end Cse121.I2cdev
