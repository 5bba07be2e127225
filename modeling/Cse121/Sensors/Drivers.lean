import Cse121.Lib.Dialog
import Cse121.Sensors.Crc
import Mathlib.Algebra.Order.Ring.Rat

/-! # The sensor drivers of lab 3.3

`lab3_3/main/main.cpp`: the drivers of the four sensors, the channels of the mux and
`read_sensor`. The conversions are in exact arithmetic. The outputs of a driver are passed
to it with what they held before.
-/

namespace Cse121.Lab33

def addrShtc3 : UInt8 := 0x70
def addrSht3x1 : UInt8 := 0x44
def addrSht3x2 : UInt8 := 0x45
def addrAht20 : UInt8 := 0x38
def addrSi7021 : UInt8 := 0x40
def addrTca9548 : UInt8 := 0x70

/-- `*tC` and `*RH`. -/
structure Reading where
  tC : ℚ
  rh : ℚ
deriving DecidableEq, Repr

/-! ## Conversions -/

def raw16 (hi lo : UInt8) : Nat := hi.toNat * 256 + lo.toNat

/-- The conversion of a frame of the Sensirion sensors. -/
def sensirion (rx : Vector UInt8 6) : Reading where
  tC := -45 + 175 * (raw16 rx[0] rx[1] / 65535)
  rh := 100 * (raw16 rx[3] rx[4] / 65535)

/-- Both groups of a frame pass the check. -/
def sensirionOk (rx : Vector UInt8 6) : Bool :=
  crcSensirion2b rx[0] rx[1] rx[2] && crcSensirion2b rx[3] rx[4] rx[5]

/-- The 20-bit values of a frame of the AHT20. -/
def aht20RawH (rx : Vector UInt8 6) : Nat :=
  rx[1].toNat * 4096 + rx[2].toNat * 16 + rx[3].toNat / 16

def aht20RawT (rx : Vector UInt8 6) : Nat :=
  rx[3].toNat % 16 * 65536 + rx[4].toNat * 256 + rx[5].toNat

def aht20 (rx : Vector UInt8 6) : Reading where
  tC := aht20RawT rx * 200 / 1048576 - 50
  rh := aht20RawH rx * 100 / 1048576

def si7021RH (rh2 : Vector UInt8 2) : ℚ := 125 * raw16 rh2[0] rh2[1] / 65536 - 6

def si7021T (t2 : Vector UInt8 2) : ℚ := (175.72 : ℚ) * raw16 t2[0] t2[1] / 65536 - (46.85 : ℚ)

/-! ## Drivers -/

def cmdWake : List UInt8 := [0x35, 0x17]
def cmdMeas : List UInt8 := [0x78, 0x66]
def cmdSleep : List UInt8 := [0xB0, 0x98]

/-- `shtc3_measure` -/
def shtc3Measure (out : Reading) : Dialog (Bool × Reading) :=
  .write addrShtc3 cmdWake fun ok =>
    if ok = false then .done (false, out)
    else .write addrShtc3 cmdMeas fun ok =>
      if ok = false then .done (false, out)
      else .read addrShtc3 6 fun
        | none => .done (false, out)
        | some rx =>
          if sensirionOk rx = false then .done (false, out)
          -- only here, after everything has succeeded, is the sensor sent to sleep
          else .write addrShtc3 cmdSleep fun _ => .done (true, sensirion rx)

/-- `sht3x_measure` -/
def sht3xMeasure (addr : UInt8) (out : Reading) : Dialog (Bool × Reading) :=
  .write addr [0x24, 0x00] fun ok =>
    if ok = false then .done (false, out)
    else .read addr 6 fun
      | none => .done (false, out)
      | some rx =>
        if sensirionOk rx = false then .done (false, out) else .done (true, sensirion rx)

/-- `aht20_init` -/
def aht20Init (addr : UInt8) : Dialog Bool :=
  -- the reset may fail, the result is that of the second command
  .write addr [0xBA] fun _ => .write addr [0xBE, 0x08, 0x00] .done

/-- `aht20_measure` -/
def aht20Measure (addr : UInt8) (out : Reading) : Dialog (Bool × Reading) :=
  .write addr [0xAC, 0x33, 0x00] fun ok =>
    if ok = false then .done (false, out)
    else .read addr 6 fun
      | none => .done (false, out)
      | some rx => .done (true, aht20 rx)

/-- `si7021_measure`: `*RH` is stored before the temperature is asked for. -/
def si7021Measure (out : Reading) : Dialog (Bool × Reading) :=
  .write addrSi7021 [0xE5] fun ok =>
    if ok = false then .done (false, out)
    else .read addrSi7021 2 fun
      | none => .done (false, out)
      | some rh2 =>
        -- from here on a failure returns with the new humidity
        let out := { out with rh := si7021RH rh2 }
        .write addrSi7021 [0xE3] fun ok =>
          if ok = false then .done (false, out)
          else .read addrSi7021 2 fun
            | none => .done (false, out)
            | some t2 => .done (true, { out with tC := si7021T t2 })

/-! ## The sensor that is read -/

inductive SensorKind where
  | none
  | shtc3Direct
  | sht3x
  | aht20
  | si7021
deriving DecidableEq, Repr

/-- `g_kind`, `g_addr` and `g_mux_channel`, which is -1 or a channel. -/
structure Globals where
  kind : SensorKind
  addr : UInt8
  muxChannel : Option (Fin 8)
deriving DecidableEq, Repr

/-- The byte that selects a channel. -/
def mask (channel : Fin 8) : UInt8 := 1 <<< channel.val.toUInt8

/-- `tca_select`, and what follows. -/
def tcaSelect {α : Type} (channel : Fin 8) (next : Bool → Dialog α) : Dialog α :=
  .write addrTca9548 [mask channel] next

/-- The `switch` of `read_sensor`. -/
def measure (g : Globals) (out : Reading) : Dialog (Bool × Reading) :=
  match g.kind with
  | .shtc3Direct => shtc3Measure out
  | .sht3x => sht3xMeasure g.addr out
  | .aht20 => aht20Measure g.addr out
  | .si7021 => si7021Measure out
  | .none => .done (false, out)

/-- `read_sensor` -/
def readSensor (g : Globals) (out : Reading) : Dialog (Bool × Reading) :=
  match g.muxChannel with
  | some channel => tcaSelect channel fun ok =>
      if ok = false then .done (false, out) else measure g out
  | none => measure g out

/-! ## Failed reads -/

/-- The last command that was sent to an address. -/
def lastTo (addr : UInt8) (sent : List Sent) : Option (List UInt8) :=
  ((sent.filter fun x => x.addr = addr).getLast?).map Sent.data

/-- If the SHTC3 has been woken up, the last command sent to it is the sleep command. -/
def Asleep (sent : List Sent) : Prop :=
  ⟨addrShtc3, cmdWake, true⟩ ∈ sent → lastTo addrShtc3 sent = some cmdSleep

/-- A read that fails has stored nothing. -/
def Keeps {σ : Type} (b : Bus σ) (s : σ) (out : Reading)
    (p : Reading → Dialog (Bool × Reading)) : Prop :=
  ((p out).run b s).1.1 = false → ((p out).run b s).1.2 = out

/-- A read that fails leaves the outputs, and no read leaves the SHTC3 awake. -/
structure LeavesAsWas {σ : Type} (b : Bus σ) (s : σ) (g : Globals) (out : Reading) : Prop where
  outputs : Keeps b s out (readSensor g)
  asleep : Asleep ((readSensor g out).sent b s)

section Failures

variable (o : Nat → Option (Nat → UInt8)) (k : Nat)

/-- The bytes that the `k`-th transaction receives. -/
def received (n : Nat) : Option (Vector UInt8 n) :=
  (o k).map fun rx => Vector.ofFn fun j : Fin n => rx j

/-- From the `k`-th transaction on the SHTC3 wakes up, and then something fails. -/
def StopsAwake : Prop :=
  (o k).isSome ∧ ((o (k + 1)).isSome → ∀ rx ∈ received o (k + 2) 6, sensirionOk rx = false)

/-- From the `k`-th transaction on the SI7021 gives another humidity, and then no
temperature. -/
def StopsBetween (rh : ℚ) : Prop :=
  (o k).isSome ∧ (∃ rh2 ∈ received o (k + 1) 2, si7021RH rh2 ≠ rh) ∧
    ((o (k + 2)).isSome → o (k + 3) = none)

/-- The read of an SHTC3 stops while it is awake, or one of an SI7021 between its two
values. -/
def Stops (g : Globals) (out : Reading) : Prop :=
  let first := if g.muxChannel.isSome then 1 else 0
  (g.muxChannel.isSome → (o 0).isSome) ∧
    (g.kind = .shtc3Direct ∧ StopsAwake o first ∨
      g.kind = .si7021 ∧ StopsBetween o first out.rh)

@[simp] theorem script_write (addr : UInt8) (data : List UInt8) :
    (Bus.script o).write k addr data = ((o k).isSome, k + 1) := rfl

@[simp] theorem script_read (addr : UInt8) (n : Nat) :
    (Bus.script o).read k addr n = (received o k n, k + 1) := rfl

end Failures

/-! ## What the drivers end with -/

/-- A driver ends with what the outputs held, or with the conversion of a frame. -/
def Converts (f : Vector UInt8 6 → Reading) (out : Reading) (p : Dialog (Bool × Reading)) : Prop :=
  p.Ends fun r => r = (false, out) ∨ ∃ rx, r = (true, f rx)

section Outputs

variable (out : Reading)

theorem converts_shtc3 : Converts sensirion out (shtc3Measure out) := by
  refine fun ok => ?_
  dsimp only
  split
  · exact Or.inl rfl
  · refine fun ok => ?_
    dsimp only
    split
    · exact Or.inl rfl
    · intro rx
      dsimp only
      split
      · exact Or.inl rfl
      · split
        · exact Or.inl rfl
        · intro ok
          exact Or.inr ⟨_, rfl⟩

theorem converts_sht3x (addr : UInt8) : Converts sensirion out (sht3xMeasure addr out) := by
  refine fun ok => ?_
  dsimp only
  split
  · exact Or.inl rfl
  · intro rx
    dsimp only
    split
    · exact Or.inl rfl
    · split
      · exact Or.inl rfl
      · exact Or.inr ⟨_, rfl⟩

theorem converts_aht20 (addr : UInt8) : Converts aht20 out (aht20Measure addr out) := by
  refine fun ok => ?_
  dsimp only
  split
  · exact Or.inl rfl
  · intro rx
    dsimp only
    split
    · exact Or.inl rfl
    · exact Or.inr ⟨_, rfl⟩

/-- The SI7021 driver does not always keep the outputs, but what it gives are conversions. -/
theorem ends_si7021 : (si7021Measure out).Ends fun r =>
    r.1 = true → ∃ rh2 t2, r.2 = ⟨si7021T t2, si7021RH rh2⟩ := by
  have hfails : ∀ x : Reading, (false, x).1 = true →
      ∃ rh2 t2, (false, x).2 = ⟨si7021T t2, si7021RH rh2⟩ := by
    intro x h
    cases h
  refine fun ok => ?_
  dsimp only
  split
  · exact hfails _
  · intro rh2
    dsimp only
    split
    · exact hfails _
    · refine fun ok => ?_
      dsimp only
      split
      · exact hfails _
      · intro t2
        dsimp only
        split
        · exact hfails _
        · intro _
          exact ⟨_, _, rfl⟩

variable {out} {f : Vector UInt8 6 → Reading}

theorem Converts.value {p : Dialog (Bool × Reading)} (hp : Converts f out p) {σ : Type}
    {b : Bus σ} {s : σ} {x : Reading} (h : (p.run b s).1 = (true, x)) : ∃ rx, x = f rx := by
  rcases hp.run b s with hfails | ⟨rx, hrx⟩
  · rw [h] at hfails
    cases hfails
  · rw [h] at hrx
    exact ⟨rx, (Prod.mk.inj hrx).2⟩

theorem Converts.keeps {p : Reading → Dialog (Bool × Reading)} (hp : Converts f out (p out))
    {σ : Type} (b : Bus σ) (s : σ) : Keeps b s out p := by
  intro h
  rcases hp.run b s with hfails | ⟨rx, hrx⟩
  · rw [hfails]
  · rw [hrx] at h
    cases h

end Outputs

/-! ## What the drivers send -/

/-- A driver sends to one address, and never the wake command. -/
def SpeaksTo {α : Type} (addr : UInt8) (p : Dialog α) : Prop :=
  p.Sends fun a data => a = addr ∧ data ≠ cmdWake

theorem SpeaksTo.avoids {α : Type} {addr addr' : UInt8} {p : Dialog α} (hp : SpeaksTo addr p)
    (haddr : addr ≠ addr') : p.Sends fun a _ => a ≠ addr' :=
  hp.mono fun _ _ h => h.1 ▸ haddr

section Drivers

variable (addr : UInt8) (out : Reading)

theorem speaksTo_sht3x : SpeaksTo addr (sht3xMeasure addr out) := by
  refine ⟨⟨rfl, by simp [cmdWake]⟩, fun ok => ?_⟩
  dsimp only
  split
  · trivial
  · intro rx
    dsimp only
    split
    · trivial
    · split <;> trivial

theorem speaksTo_aht20Init : SpeaksTo addr (aht20Init addr) :=
  ⟨⟨rfl, by simp [cmdWake]⟩, fun _ => ⟨⟨rfl, by simp [cmdWake]⟩, fun _ => trivial⟩⟩

theorem speaksTo_aht20 : SpeaksTo addr (aht20Measure addr out) := by
  refine ⟨⟨rfl, by simp [cmdWake]⟩, fun ok => ?_⟩
  dsimp only
  split
  · trivial
  · intro rx
    dsimp only
    split <;> trivial

theorem speaksTo_si7021 : SpeaksTo addrSi7021 (si7021Measure out) := by
  refine ⟨⟨rfl, by simp [cmdWake]⟩, fun ok => ?_⟩
  dsimp only
  split
  · trivial
  · intro rx
    dsimp only
    split
    · trivial
    · refine ⟨⟨rfl, by simp [cmdWake]⟩, fun ok => ?_⟩
      dsimp only
      split
      · trivial
      · intro rx
        dsimp only
        split <;> trivial

end Drivers

section Failures

variable (o : Nat → Option (Nat → UInt8)) (k : Nat) (out : Reading)

/-- The SI7021 driver leaves the outputs unless it stops between its two values. -/
theorem keeps_si7021_iff : Keeps (.script o) k out si7021Measure ↔ ¬ StopsBetween o k out.rh := by
  unfold Keeps si7021Measure StopsBetween
  rw [Dialog.run_write, script_write]
  rcases hk : o k with _ | rx
  · simp
  · simp only [Option.isSome_some, Bool.true_eq_false, if_false, Dialog.run_read, script_read]
    rcases hrh : received o (k + 1) 2 with _ | rh2
    · simp
    · simp only [Dialog.run_write, script_write]
      -- a humidity that is the old one leaves the outputs even so
      have hsame : { out with rh := si7021RH rh2 } = out ↔ si7021RH rh2 = out.rh := by
        rw [Reading.mk.injEq]
        simp
      simp only [Nat.add_assoc, Nat.reduceAdd]
      rcases ht : o (k + 2) with _ | rx'
      · simp [hsame]
      · simp only [Option.isSome_some, Bool.true_eq_false, if_false, Dialog.run_read, script_read]
        unfold received
        rcases ht2 : o (k + 3) with _ | rx''
        · simp [hsame]
        · simp

/-! ## The SHTC3 asleep -/

/-- What is sent before the wake command is not what is sent last. -/
theorem lastTo_cons {x : Sent} {sent : List Sent} (hwake : ⟨addrShtc3, cmdWake, true⟩ ∈ sent) :
    lastTo addrShtc3 (x :: sent) = lastTo addrShtc3 sent := by
  have hmem : ⟨addrShtc3, cmdWake, true⟩ ∈ sent.filter fun x => x.addr = addrShtc3 :=
    List.mem_filter.2 ⟨hwake, by simp⟩
  unfold lastTo
  rw [List.filter_cons]
  split
  · rw [List.getLast?_cons_of_ne_nil (List.ne_nil_of_mem hmem)]
  · rfl

/-- A channel that is selected first makes no difference. -/
theorem asleep_cons_iff {x : Sent} (hx : x.data ≠ cmdWake) (sent : List Sent) :
    Asleep (x :: sent) ↔ Asleep sent := by
  have hmem : ⟨addrShtc3, cmdWake, true⟩ ∈ x :: sent ↔ ⟨addrShtc3, cmdWake, true⟩ ∈ sent := by
    rw [List.mem_cons]
    refine ⟨fun h => h.resolve_left ?_, Or.inr⟩
    rintro rfl
    exact hx rfl
  unfold Asleep
  rw [hmem]
  constructor
  · intro h hwake
    exact (lastTo_cons hwake).symm.trans (h hwake)
  · intro h hwake
    exact (lastTo_cons hwake).trans (h hwake)

/-- The other drivers do not wake it up. -/
theorem SpeaksTo.asleep {α σ : Type} {addr : UInt8} {p : Dialog α} (hp : SpeaksTo addr p)
    (b : Bus σ) (s : σ) : Asleep (p.sent b s) := by
  intro hwake
  exact absurd rfl (Dialog.Sends.sent hp b s _ hwake).2

/-- The SHTC3 driver leaves the sensor asleep unless it stops while it is awake. -/
theorem asleep_shtc3_iff :
    Asleep ((shtc3Measure out).sent (.script o) k) ↔ ¬ StopsAwake o k := by
  unfold shtc3Measure StopsAwake
  rw [Dialog.sent_write, script_write]
  rcases hk : o k with _ | rx
  · simp [Asleep]
  · -- awake: now each of the three steps that follow may stop the read
    simp only [Option.isSome_some, Bool.true_eq_false, if_false, Dialog.sent_write, script_write]
    rcases Option.eq_none_or_eq_some (o (k + 1)) with hmeas | ⟨rx', hmeas⟩
    · simp [Asleep, lastTo, cmdSleep, cmdMeas, hmeas]
    · simp only [hmeas, Option.isSome_some, Bool.true_eq_false, if_false, Dialog.sent_read,
        script_read, Nat.add_assoc, Nat.reduceAdd]
      rcases hread : received o (k + 2) 6 with _ | rx''
      · simp [Asleep, lastTo, cmdSleep, cmdMeas]
      · rcases hok : sensirionOk rx'' with _ | _
        · simp [Asleep, lastTo, cmdSleep, cmdMeas, hok]
        · simp [Asleep, lastTo, cmdSleep, hok]

/-! ## Exactly the reads that stop -/

/-- Beside the mux there are two ways to fail. -/
theorem measure_leaves_iff (g : Globals) :
    Keeps (.script o) k out (measure g) ∧ Asleep ((measure g out).sent (.script o) k) ↔
      ¬ (g.kind = .shtc3Direct ∧ StopsAwake o k ∨
        g.kind = .si7021 ∧ StopsBetween o k out.rh) := by
  rcases g with ⟨kind, addr, muxChannel⟩
  cases kind with
  | none => simp [Keeps, measure, Asleep]
  | shtc3Direct =>
      have hkeeps : Keeps (.script o) k out (measure ⟨.shtc3Direct, addr, muxChannel⟩) :=
        (converts_shtc3 out).keeps _ k
      refine (and_iff_right hkeeps).trans ((asleep_shtc3_iff o k out).trans ?_)
      simp
  | sht3x =>
      have hkeeps : Keeps (.script o) k out (measure ⟨.sht3x, addr, muxChannel⟩) :=
        (converts_sht3x out addr).keeps _ k
      have hasleep : Asleep ((measure ⟨.sht3x, addr, muxChannel⟩ out).sent (.script o) k) :=
        (speaksTo_sht3x addr out).asleep _ k
      exact ⟨fun _ => by simp, fun _ => ⟨hkeeps, hasleep⟩⟩
  | aht20 =>
      have hkeeps : Keeps (.script o) k out (measure ⟨.aht20, addr, muxChannel⟩) :=
        (converts_aht20 out addr).keeps _ k
      have hasleep : Asleep ((measure ⟨.aht20, addr, muxChannel⟩ out).sent (.script o) k) :=
        (speaksTo_aht20 addr out).asleep _ k
      exact ⟨fun _ => by simp, fun _ => ⟨hkeeps, hasleep⟩⟩
  | si7021 =>
      have hasleep : Asleep ((measure ⟨.si7021, addr, muxChannel⟩ out).sent (.script o) k) :=
        (speaksTo_si7021 out).asleep _ k
      refine (and_iff_left hasleep).trans ((keeps_si7021_iff o k out).trans ?_)
      simp

/-- A read leaves the outputs if it fails, and the SHTC3 asleep, exactly if it is none that
stops between its transactions. -/
theorem failed_read_leaves_iff (g : Globals) :
    LeavesAsWas (.script o) 0 g out ↔ ¬ Stops o g out := by
  have hsplit : LeavesAsWas (.script o) 0 g out ↔
      Keeps (.script o) 0 out (readSensor g) ∧ Asleep ((readSensor g out).sent (.script o) 0) :=
    ⟨fun h => ⟨h.outputs, h.asleep⟩, fun h => ⟨h.1, h.2⟩⟩
  rw [hsplit]
  rcases hchannel : g.muxChannel with _ | channel
  · have hread : readSensor g = measure g := by
      funext out
      unfold readSensor
      rw [hchannel]
    have hstops := measure_leaves_iff o 0 out g
    rw [hread, hstops]
    simp [Stops, hchannel]
  · have hcons : ∀ ok sent, Asleep (⟨addrTca9548, [mask channel], ok⟩ :: sent) ↔ Asleep sent :=
      fun ok sent => asleep_cons_iff (by simp [cmdWake]) sent
    have hread : ∀ out, readSensor g out = tcaSelect channel fun ok =>
        if ok = false then .done (false, out) else measure g out := by
      intro out
      unfold readSensor
      rw [hchannel]
    unfold Keeps
    simp only [hread, tcaSelect, Dialog.run_write, Dialog.sent_write, script_write, hcons]
    -- the channel takes the first transaction, so the driver begins with the second
    rcases Option.eq_none_or_eq_some (o 0) with hselect | ⟨rx, hselect⟩
    · simp [hselect, Stops, hchannel, Asleep]
    · have hstops := measure_leaves_iff o 1 out g
      unfold Keeps at hstops
      simpa [hselect, Stops, hchannel] using hstops

end Failures

/-- An SHTC3 that wakes up and then does not answer is left awake. -/
theorem left_awake : ¬ ∀ (o : Nat → Option (Nat → UInt8)) (g : Globals) (out : Reading),
    LeavesAsWas (.script o) 0 g out := by
  intro h
  have hasleep := (h (fun k => if k = 0 then some fun _ => 0 else none)
    ⟨.shtc3Direct, addrShtc3, none⟩ ⟨0, 0⟩).asleep
  exact absurd hasleep (by
    unfold Asleep
    decide +kernel)

end Cse121.Lab33
