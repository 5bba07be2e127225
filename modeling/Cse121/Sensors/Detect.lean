import Cse121.Sensors.Drivers
import Mathlib.Data.Fintype.Basic

/-! # Which sensor is found

`lab3_3/main/main.cpp`: `detect_sensor` looks for a sensor once, and `read_sensor` reads it
from then on. What acknowledges and answers on a bus depends on the channel that its mux has
selected, and does not change otherwise.
-/

namespace Cse121.Lab33

/-! ## Detection -/

/-- `i2c_probe`, and what follows. -/
def probe {α : Type} (addr : UInt8) (next : Bool → Dialog α) : Dialog α := .write addr [] next

/-- Locals that are not initialised: what they hold is not used. -/
def uninitialised : Reading := ⟨0, 0⟩

/-- The SI7021 part of a search, on the bus of a channel or on the root bus. -/
def trySi7021 (channel : Option (Fin 8)) : Dialog (Option Globals) :=
  probe addrSi7021 fun ok =>
    if ok = false then .done none
    else (si7021Measure uninitialised).bind fun r =>
      .done (if r.1 then some ⟨.si7021, addrSi7021, channel⟩ else none)

/-- The AHT20 part, and what is tried after it. -/
def tryAht20 (channel : Option (Fin 8)) : Dialog (Option Globals) :=
  probe addrAht20 fun ok =>
    if ok = false then trySi7021 channel
    else (aht20Init addrAht20).bind fun ok =>
      if ok = false then trySi7021 channel
      else (aht20Measure addrAht20 uninitialised).bind fun r =>
        if r.1 then .done (some ⟨.aht20, addrAht20, channel⟩) else trySi7021 channel

/-- The SHT3x part, once one of its addresses has answered. -/
def trySht3xAt (channel : Option (Fin 8)) : Dialog (Option Globals) :=
  probe addrSht3x1 fun ok =>
    -- one of the two is tried, never the second after the first
    let addr := if ok then addrSht3x1 else addrSht3x2
    (sht3xMeasure addr uninitialised).bind fun r =>
      if r.1 then .done (some ⟨.sht3x, addr, channel⟩) else tryAht20 channel

/-- The search on one bus. -/
def search (channel : Option (Fin 8)) : Dialog (Option Globals) :=
  probe addrSht3x1 fun ok =>
    if ok then trySht3xAt channel
    else probe addrSht3x2 fun ok => if ok then trySht3xAt channel else tryAht20 channel

/-- The loop over the channels. -/
def searchChannels : List (Fin 8) → Dialog (Option Globals)
  | [] => .done none
  | channel :: channels => tcaSelect channel fun ok =>
      if ok = false then searchChannels channels
      else (search (some channel)).bind fun
        | some g => .done (some g)
        | none => searchChannels channels

/-- `detect_sensor`: the globals that it sets, if it returns true. -/
def detectSensor : Dialog (Option Globals) :=
  probe addrShtc3 fun ok =>
    if ok then (shtc3Measure uninitialised).bind fun r =>
      if r.1 then .done (some ⟨.shtc3Direct, addrShtc3, none⟩)
      -- 0x70 is taken for a mux, and the root bus is not searched any more
      else searchChannels (List.finRange 8)
    else search none

/-- `read_sensor`, again and again. -/
def reads (g : Globals) : List Reading → Dialog (List (Bool × Reading))
  | [] => .done []
  | out :: outs => (readSensor g out).bind fun r => (reads g outs).bind fun rs => .done (r :: rs)

/-! ## Buses -/

/-- What acknowledges and what answers: for the byte in the register of the mux, the address,
and the bytes that are sent or were sent last. A mux acknowledges whatever is sent to it. -/
structure Wiring where
  mux : Bool
  ack : UInt8 → UInt8 → List UInt8 → Bool
  reply : UInt8 → UInt8 → List UInt8 → (n : Nat) → Option (Vector UInt8 n)
  ack_mux : mux = true → ∀ selected data, ack selected addrTca9548 data = true

/-- The register of the mux, and the last command to each address. -/
structure Line where
  selected : UInt8
  command : UInt8 → List UInt8

namespace Wiring

variable (W : Wiring)

/-- The register of the mux keeps the last byte that it is sent. -/
def accept (s : Line) (addr : UInt8) (data : List UInt8) : Line where
  selected := if W.mux ∧ addr = addrTca9548 then data.getLast?.getD s.selected else s.selected
  command := if data = [] then s.command else Function.update s.command addr data

def bus : Bus Line where
  write s addr data :=
    (W.ack s.selected addr data, if W.ack s.selected addr data then W.accept s addr data else s)
  read s addr n := (W.reply s.selected addr (s.command addr) n, s)

/-- The register of the mux while a channel is in use. -/
def place (channel : Option (Fin 8)) : UInt8 :=
  match channel with
  | some channel => if W.mux then mask channel else 0
  | none => 0

/-! ## What the sensors of a wiring give -/

def sht3x (selected addr : UInt8) : Option Reading :=
  if W.ack selected addr [0x24, 0x00] then
    (W.reply selected addr [0x24, 0x00] 6).bind fun rx =>
      if sensirionOk rx then some (sensirion rx) else none
  else none

def aht20 (selected addr : UInt8) : Option Reading :=
  if W.ack selected addr [0xAC, 0x33, 0x00] then
    (W.reply selected addr [0xAC, 0x33, 0x00] 6).map Lab33.aht20
  else none

def si7021 (selected : UInt8) : Option Reading :=
  if W.ack selected addrSi7021 [0xE5] ∧ W.ack selected addrSi7021 [0xE3] then
    (W.reply selected addrSi7021 [0xE5] 2).bind fun rh2 =>
      (W.reply selected addrSi7021 [0xE3] 2).map fun t2 => ⟨si7021T t2, si7021RH rh2⟩
  else none

/-- A mux that is taken for an SHTC3 has the last byte of the command in its register. -/
def shtc3 : Option Reading :=
  if W.ack 0 addrShtc3 cmdWake ∧ W.ack 0 addrShtc3 cmdMeas then
    (W.reply (if W.mux then 0x66 else 0) addrShtc3 cmdMeas 6).bind fun rx =>
      if sensirionOk rx then some (sensirion rx) else none
  else none

/-- What the sensor that is found gives. -/
def reading (g : Globals) : Option Reading :=
  match g.kind with
  | .shtc3Direct => W.shtc3
  | .sht3x => W.sht3x (W.place g.muxChannel) g.addr
  | .aht20 => W.aht20 (W.place g.muxChannel) g.addr
  | .si7021 => W.si7021 (W.place g.muxChannel)
  | .none => none

/-- A sensor other than the SHTC3 answers its probe, and its sequence succeeds. -/
def AnswersAt (selected : UInt8) (kind : SensorKind) (addr : UInt8) : Prop :=
  W.ack selected addr [] = true ∧
    match kind with
    | .sht3x => (addr = addrSht3x1 ∨ addr = addrSht3x2) ∧ (W.sht3x selected addr).isSome
    | .aht20 => addr = addrAht20 ∧ W.ack selected addr [0xBE, 0x08, 0x00] = true ∧
        (W.aht20 selected addr).isSome
    | .si7021 => addr = addrSi7021 ∧ (W.si7021 selected).isSome
    | _ => False

/-- A supported sensor answers, on the root bus or behind a channel of the mux. -/
def Answers (g : Globals) : Prop :=
  match g.kind with
  | .shtc3Direct => g.muxChannel = none ∧ W.ack 0 addrShtc3 [] = true ∧ W.shtc3.isSome
  | _ => (g.muxChannel.isSome → W.mux = true) ∧ W.AnswersAt (W.place g.muxChannel) g.kind g.addr

/-! ## Completeness -/

/-- Without a mux there is nothing to select. -/
def Sound (s : Line) : Prop := W.mux = false → s.selected = 0

/-- A sensor is found, and every later read selects its channel and gives its reading. -/
def Detects : Prop :=
  ∃ g r, W.reading g = some r ∧ ∀ s, W.Sound s →
    (detectSensor.run W.bus s).1 = some g ∧
    ∀ outs, let read := (reads g outs).run W.bus (detectSensor.run W.bus s).2
      read.1 = outs.map (fun _ => (true, r)) ∧
      ∀ channel, g.muxChannel = some channel → outs ≠ [] → read.2.selected = W.place (some channel)

/-- A sensor other than the SHTC3 answers, and is not an SHT3x at its second address while
something acknowledges at the first. -/
def ReachableAt (selected : UInt8) : Prop :=
  ∃ kind addr, W.AnswersAt selected kind addr ∧
    (addr = addrSht3x2 → W.ack selected addrSht3x1 [] = false)

/-- Where the search comes by: the SHTC3; without anything at its address the root bus; with
something there that is no SHTC3, the channels that it acknowledges. -/
def Reachable : Prop :=
  if W.ack 0 addrShtc3 [] then
    W.shtc3.isSome ∨
      ∃ channel, W.ack 0 addrTca9548 [mask channel] = true ∧ W.ReachableAt (W.place (some channel))
  else W.ReachableAt 0

/-! ## Transactions -/

@[simp] theorem bus_write (s : Line) (addr : UInt8) (data : List UInt8) : W.bus.write s addr data =
    (W.ack s.selected addr data,
      if W.ack s.selected addr data then W.accept s addr data else s) := rfl

@[simp] theorem bus_read (s : Line) (addr : UInt8) (n : Nat) : W.bus.read s addr n =
    (W.reply s.selected addr (s.command addr) n, s) := rfl

@[simp] theorem accept_command (s : Line) (addr : UInt8) {data : List UInt8} (h : data ≠ []) :
    (W.accept s addr data).command addr = data := by
  unfold accept
  simp [h]

@[simp] theorem accept_selected (s : Line) {addr : UInt8} (data : List UInt8)
    (h : addr ≠ addrTca9548) : (W.accept s addr data).selected = s.selected := by
  unfold accept
  simp [h]

/-- A probe changes nothing. -/
@[simp] theorem run_probe {α : Type} (s : Line) (addr : UInt8) (next : Bool → Dialog α) :
    (probe addr next).run W.bus s = (next (W.ack s.selected addr [])).run W.bus s := by
  have hnil : W.accept s addr [] = s := by
    unfold accept
    simp
  unfold probe
  rw [Dialog.run_write, bus_write, hnil, ite_self]

theorem sound_accept {s : Line} (hs : W.Sound s) (addr : UInt8) (data : List UInt8) :
    W.Sound (W.accept s addr data) := by
  intro hmux
  unfold accept
  simp only [hmux, Bool.false_eq_true, false_and, if_false]
  exact hs hmux

theorem sound_run {α : Type} {p : Dialog α} {s : Line} (hs : W.Sound s) :
    W.Sound (p.run W.bus s).2 := by
  refine Dialog.run_invariant ?_ ?_ p hs
  · intro s addr data hs
    rw [bus_write]
    simp only
    split
    · exact W.sound_accept hs addr data
    · exact hs
  · intro s addr n hs
    exact hs

/-- Only what is sent to the mux selects another channel. -/
theorem selected_run {α : Type} {addr : UInt8} {p : Dialog α} (hp : SpeaksTo addr p)
    (haddr : addr ≠ addrTca9548) (s : Line) : (p.run W.bus s).2.selected = s.selected := by
  refine (hp.avoids haddr).run_eq Line.selected ?_ ?_ s
  · intro s addr data haddr
    rw [bus_write]
    simp only
    split
    · exact W.accept_selected s data haddr
    · rfl
  · intro s addr n
    rfl

/-- On a sound line it makes no difference for the mux what is selected. -/
theorem ack_sound {s : Line} (hs : W.Sound s) (data : List UInt8) :
    W.ack s.selected addrTca9548 data = W.ack 0 addrTca9548 data := by
  rcases hmux : W.mux with _ | _
  · rw [hs hmux]
  · rw [W.ack_mux hmux, W.ack_mux hmux]

/-! ## Measurements -/

/-- A driver succeeds exactly if there is a reading, and gives it. -/
structure Measures (p : Dialog (Bool × Reading)) (s : Line) (o : Option Reading) : Prop where
  ok : (p.run W.bus s).1.1 = o.isSome
  value : ∀ r ∈ o, (p.run W.bus s).1 = (true, r)

theorem measures_sht3x (s : Line) {addr : UInt8} (haddr : addr ≠ addrTca9548) (out : Reading) :
    W.Measures (sht3xMeasure addr out) s (W.sht3x s.selected addr) := by
  unfold sht3xMeasure sht3x
  rcases hack : W.ack s.selected addr [0x24, 0x00] with _ | _
  · exact ⟨by simp [hack], by simp⟩
  · rcases hreply : W.reply s.selected addr [0x24, 0x00] 6 with _ | rx
    · exact ⟨by simp [hack, haddr, hreply], by simp⟩
    · rcases hok : sensirionOk rx with _ | _
      · exact ⟨by simp [hack, haddr, hreply, hok], by simp [hok]⟩
      · exact ⟨by simp [hack, haddr, hreply, hok], by simp [hack, haddr, hreply, hok]⟩

theorem measures_aht20 (s : Line) {addr : UInt8} (haddr : addr ≠ addrTca9548) (out : Reading) :
    W.Measures (aht20Measure addr out) s (W.aht20 s.selected addr) := by
  unfold aht20Measure aht20
  rcases hack : W.ack s.selected addr [0xAC, 0x33, 0x00] with _ | _
  · exact ⟨by simp [hack], by simp⟩
  · rcases hreply : W.reply s.selected addr [0xAC, 0x33, 0x00] 6 with _ | rx
    · exact ⟨by simp [hack, haddr, hreply], by simp⟩
    · exact ⟨by simp [hack, haddr, hreply], by simp [hack, haddr, hreply]⟩

theorem measures_si7021 (s : Line) (out : Reading) :
    W.Measures (si7021Measure out) s (W.si7021 s.selected) := by
  have haddr : addrSi7021 ≠ addrTca9548 := by decide
  unfold si7021Measure si7021
  rcases hrh : W.ack s.selected addrSi7021 [0xE5] with _ | _
  · exact ⟨by simp [hrh], by simp⟩
  · rcases hreply : W.reply s.selected addrSi7021 [0xE5] 2 with _ | rh2
    · exact ⟨by simp [hrh, haddr, hreply], by simp⟩
    · rcases ht : W.ack s.selected addrSi7021 [0xE3] with _ | _
      · exact ⟨by simp [hrh, haddr, hreply, ht], by simp⟩
      · rcases hreply' : W.reply s.selected addrSi7021 [0xE3] 2 with _ | t2
        · exact ⟨by simp [hrh, haddr, hreply, ht, hreply'], by simp⟩
        · exact ⟨by simp [hrh, haddr, hreply, ht, hreply'],
            by simp [hrh, haddr, hreply, ht, hreply']⟩

theorem measures_shtc3 {s : Line} (hs : W.Sound s) (out : Reading) :
    W.Measures (shtc3Measure out) s W.shtc3 := by
  obtain ⟨s₁, hs₁⟩ : ∃ s₁, s₁ = W.accept s addrShtc3 cmdWake := ⟨_, rfl⟩
  obtain ⟨s₂, hs₂⟩ : ∃ s₂, s₂ = W.accept s₁ addrShtc3 cmdMeas := ⟨_, rfl⟩
  have hsound₁ : W.Sound s₁ := hs₁ ▸ W.sound_accept hs _ _
  -- a mux takes the second byte of the measure command for a selection
  have hselected : s₂.selected = if W.mux then 0x66 else 0 := by
    rw [hs₂]
    rcases hmux : W.mux with _ | _
    · simp [accept, hmux, hsound₁ hmux]
    · simp [accept, hmux, addrShtc3, addrTca9548, cmdMeas]
  have hcommand : s₂.command addrShtc3 = cmdMeas := by
    rw [hs₂]
    exact W.accept_command s₁ addrShtc3 (by simp [cmdMeas])
  have hwake : W.ack s.selected addrShtc3 cmdWake = W.ack 0 addrShtc3 cmdWake := W.ack_sound hs _
  have hmeas : W.ack s₁.selected addrShtc3 cmdMeas = W.ack 0 addrShtc3 cmdMeas :=
    W.ack_sound hsound₁ _
  unfold shtc3Measure shtc3
  rcases hack : W.ack 0 addrShtc3 cmdWake with _ | _
  · exact ⟨by simp [hwake, hack], by simp⟩
  · rcases hack' : W.ack 0 addrShtc3 cmdMeas with _ | _
    · exact ⟨by simp [hwake, hack, ← hs₁, hmeas, hack'], by simp⟩
    · rcases hreply : W.reply (if W.mux then 0x66 else 0) addrShtc3 cmdMeas 6 with _ | rx
      · exact ⟨by simp [hwake, hack, ← hs₁, hmeas, hack', ← hs₂, hselected, hcommand, hreply],
          by simp⟩
      · rcases hok : sensirionOk rx with _ | _
        · exact ⟨by simp [hwake, hack, ← hs₁, hmeas, hack', ← hs₂, hselected, hcommand, hreply,
            hok], by simp [hok]⟩
        · refine ⟨?_, ?_⟩
          · simp [hwake, hack, ← hs₁, hmeas, hack', ← hs₂, hselected, hcommand, hreply, hok]
          · simp [hwake, hack, ← hs₁, hmeas, hack', ← hs₂, hselected, hcommand, hreply, hok]

/-! ## What the search finds -/

def foundSi7021 (selected : UInt8) (channel : Option (Fin 8)) : Option Globals :=
  if W.ack selected addrSi7021 [] ∧ (W.si7021 selected).isSome then
    some ⟨.si7021, addrSi7021, channel⟩
  else none

def foundAht20 (selected : UInt8) (channel : Option (Fin 8)) : Option Globals :=
  if W.ack selected addrAht20 [] ∧ W.ack selected addrAht20 [0xBE, 0x08, 0x00] ∧
      (W.aht20 selected addrAht20).isSome then
    some ⟨.aht20, addrAht20, channel⟩
  else W.foundSi7021 selected channel

/-- The address at which an SHT3x is looked for. -/
def sht3xAddr (selected : UInt8) : UInt8 :=
  if W.ack selected addrSht3x1 [] then addrSht3x1 else addrSht3x2

def found (selected : UInt8) (channel : Option (Fin 8)) : Option Globals :=
  if W.ack selected (W.sht3xAddr selected) [] ∧
      (W.sht3x selected (W.sht3xAddr selected)).isSome then
    some ⟨.sht3x, W.sht3xAddr selected, channel⟩
  else W.foundAht20 selected channel

theorem sht3xAddr_ne (selected : UInt8) : W.sht3xAddr selected ≠ addrTca9548 := by
  unfold sht3xAddr
  split <;> decide

theorem run_trySi7021 (s : Line) (channel : Option (Fin 8)) :
    ((trySi7021 channel).run W.bus s).1 = W.foundSi7021 s.selected channel := by
  have hmeasures := W.measures_si7021 s uninitialised
  unfold trySi7021 foundSi7021
  rw [run_probe]
  rcases hack : W.ack s.selected addrSi7021 [] with _ | _
  · simp
  · simp [hmeasures.ok]

theorem run_aht20Init (s : Line) :
    ((aht20Init addrAht20).run W.bus s).1 = W.ack s.selected addrAht20 [0xBE, 0x08, 0x00] := by
  have haddr : addrAht20 ≠ addrTca9548 := by decide
  unfold aht20Init
  rcases hack : W.ack s.selected addrAht20 [0xBA] with _ | _
  · simp [hack]
  · simp [hack, haddr]

theorem run_tryAht20 (s : Line) (channel : Option (Fin 8)) :
    ((tryAht20 channel).run W.bus s).1 = W.foundAht20 s.selected channel := by
  unfold tryAht20 foundAht20
  rw [run_probe]
  rcases hack : W.ack s.selected addrAht20 [] with _ | _
  · simp [run_trySi7021]
  · obtain ⟨s₁, hs₁⟩ : ∃ s₁, s₁ = ((aht20Init addrAht20).run W.bus s).2 := ⟨_, rfl⟩
    have hselected₁ : s₁.selected = s.selected := hs₁ ▸
      W.selected_run (speaksTo_aht20Init addrAht20) (by decide) s
    simp only [Bool.true_eq_false, if_false, Dialog.run_bind, run_aht20Init, ← hs₁]
    rcases hinit : W.ack s.selected addrAht20 [0xBE, 0x08, 0x00] with _ | _
    · simp [run_trySi7021, hselected₁]
    · -- the search goes on with the same channel selected
      have hmeasures := W.measures_aht20 s₁ (by decide : addrAht20 ≠ addrTca9548) uninitialised
      have hselected₂ := W.selected_run (speaksTo_aht20 addrAht20 uninitialised) (by decide) s₁
      have hok := hmeasures.ok
      rw [hselected₁] at hok hselected₂
      rcases hreading : W.aht20 s.selected addrAht20 with _ | r
      · simp [hok, hreading, run_trySi7021, hselected₂]
      · simp [hok, hreading]

theorem run_trySht3xAt (s : Line) (channel : Option (Fin 8))
    (hack : W.ack s.selected (W.sht3xAddr s.selected) [] = true) :
    ((trySht3xAt channel).run W.bus s).1 = W.found s.selected channel := by
  have haddr := W.sht3xAddr_ne s.selected
  have hmeasures := W.measures_sht3x s haddr uninitialised
  have hselected := W.selected_run (speaksTo_sht3x _ uninitialised) haddr s
  have hok := hmeasures.ok
  have hchoice : (if W.ack s.selected addrSht3x1 [] = true then addrSht3x1 else addrSht3x2) =
      W.sht3xAddr s.selected := rfl
  unfold trySht3xAt found
  rw [run_probe]
  simp only [hchoice, Dialog.run_bind]
  rcases hreading : W.sht3x s.selected (W.sht3xAddr s.selected) with _ | r
  · simp [hok, hreading, run_tryAht20, hselected]
  · simp [hok, hreading, hack]

/-- The search finds the sensor that the wiring tells. -/
theorem run_search (s : Line) (channel : Option (Fin 8)) :
    ((search channel).run W.bus s).1 = W.found s.selected channel := by
  unfold search
  rw [run_probe]
  rcases hfirst : W.ack s.selected addrSht3x1 [] with _ | _
  · have haddr : W.sht3xAddr s.selected = addrSht3x2 := by
      unfold sht3xAddr
      simp [hfirst]
    simp only [Bool.false_eq_true, if_false, run_probe]
    rcases hsecond : W.ack s.selected addrSht3x2 [] with _ | _
    · unfold found
      simp [haddr, hsecond, run_tryAht20]
    · simp only [if_true]
      exact W.run_trySht3xAt s channel (haddr ▸ hsecond)
  · have haddr : W.sht3xAddr s.selected = addrSht3x1 := by
      unfold sht3xAddr
      simp [hfirst]
    simp only [if_true]
    exact W.run_trySht3xAt s channel (haddr ▸ hfirst)

/-- It finds one exactly if one can be reached. -/
theorem isSome_found_iff (selected : UInt8) (channel : Option (Fin 8)) :
    (W.found selected channel).isSome ↔ W.ReachableAt selected := by
  constructor
  · intro h
    unfold found at h
    split at h
    · rename_i hsht3x
      refine ⟨.sht3x, W.sht3xAddr selected, ⟨hsht3x.1, ?_, hsht3x.2⟩, ?_⟩
      · unfold sht3xAddr
        split <;> simp
      · unfold sht3xAddr
        split
        · intro hsame
          exact absurd hsame (by decide)
        · rename_i hfirst
          intro _
          simpa using hfirst
    · unfold foundAht20 at h
      split at h
      · rename_i haht20
        exact ⟨.aht20, addrAht20, ⟨haht20.1, rfl, haht20.2.1, haht20.2.2⟩,
          fun hsame => absurd hsame (by decide)⟩
      · unfold foundSi7021 at h
        split at h
        · rename_i hsi7021
          exact ⟨.si7021, addrSi7021, ⟨hsi7021.1, rfl, hsi7021.2⟩,
            fun hsame => absurd hsame (by decide)⟩
        · cases h
  · -- an earlier sensor may be found in place of the one that answers
    rintro ⟨kind, addr, ⟨hack, hanswers⟩, hfirst⟩
    cases kind with
    | none => exact hanswers.elim
    | shtc3Direct => exact hanswers.elim
    | sht3x =>
        rcases hanswers with ⟨haddr, hreading⟩
        have hchosen : W.sht3xAddr selected = addr := by
          unfold sht3xAddr
          rcases haddr with rfl | rfl
          · rw [if_pos hack]
          · rw [if_neg (by simp [hfirst rfl])]
        unfold found
        rw [hchosen, if_pos ⟨hack, hreading⟩]
        rfl
    | aht20 =>
        rcases hanswers with ⟨rfl, hinit, hreading⟩
        unfold found
        split
        · rfl
        · unfold foundAht20
          rw [if_pos ⟨hack, hinit, hreading⟩]
          rfl
    | si7021 =>
        rcases hanswers with ⟨rfl, hreading⟩
        unfold found
        split
        · rfl
        · unfold foundAht20
          split
          · rfl
          · unfold foundSi7021
            rw [if_pos ⟨hack, hreading⟩]
            rfl

/-! ## Channels -/

/-- What the loop over the channels finds. -/
def foundBehind (channels : List (Fin 8)) : Option Globals :=
  channels.findSome? fun channel =>
    if W.ack 0 addrTca9548 [mask channel] then
      W.found (W.place (some channel)) (some channel)
    else none

/-- What is found at all. -/
def detected : Option Globals :=
  if W.ack 0 addrShtc3 [] then
    if W.shtc3.isSome then some ⟨.shtc3Direct, addrShtc3, none⟩
    else W.foundBehind (List.finRange 8)
  else W.found 0 none

/-- A channel that is acknowledged is selected, as far as there is a mux. -/
theorem selected_accept {s : Line} (hs : W.Sound s) (channel : Fin 8) :
    (W.accept s addrTca9548 [mask channel]).selected = W.place (some channel) := by
  rcases hmux : W.mux with _ | _
  · simp [accept, place, hmux, hs hmux]
  · simp [accept, place, hmux]

theorem run_searchChannels (channels : List (Fin 8)) {s : Line} (hs : W.Sound s) :
    ((searchChannels channels).run W.bus s).1 = W.foundBehind channels := by
  induction channels generalizing s with
  | nil => rfl
  | cons channel channels ih =>
      have hack := W.ack_sound hs [mask channel]
      obtain ⟨s₁, hs₁⟩ : ∃ s₁, s₁ = W.accept s addrTca9548 [mask channel] := ⟨_, rfl⟩
      have hsound₁ : W.Sound s₁ := hs₁ ▸ W.sound_accept hs _ _
      have hselected : s₁.selected = W.place (some channel) := hs₁ ▸ W.selected_accept hs channel
      have hfound := W.run_search s₁ (some channel)
      have hrest := @ih ((search (some channel)).run W.bus s₁).2 (W.sound_run hsound₁)
      unfold foundBehind at ih hrest ⊢
      unfold searchChannels tcaSelect
      rw [Dialog.run_write, bus_write, List.findSome?_cons, ← hack, ← hselected, ← hfound]
      rcases hselect : W.ack s.selected addrTca9548 [mask channel] with _ | _
      · -- the channel is skipped and the line is as it was
        simp [ih hs]
      · simp only [if_true, ← hs₁, Bool.true_eq_false, if_false, Dialog.run_bind]
        rcases hresult : ((search (some channel)).run W.bus s₁).1 with _ | g
        · simpa [hresult] using hrest
        · simp

/-- Detection finds what the wiring tells. -/
theorem run_detectSensor {s : Line} (hs : W.Sound s) :
    (detectSensor.run W.bus s).1 = W.detected := by
  have hack : W.ack s.selected addrShtc3 [] = W.ack 0 addrShtc3 [] := W.ack_sound hs []
  unfold detectSensor detected
  rw [run_probe, hack]
  rcases hshtc3 : W.ack 0 addrShtc3 [] with _ | _
  · -- a mux would have acknowledged its probe
    have hmux : W.mux = false := by
      rcases hmux : W.mux with _ | _
      · rfl
      · exact absurd (W.ack_mux hmux 0 []) (by simpa [addrTca9548, addrShtc3] using hshtc3)
    simp [run_search, hs hmux]
  · have hmeasures := W.measures_shtc3 hs uninitialised
    simp only [if_true, Dialog.run_bind, hmeasures.ok]
    rcases hreading : W.shtc3 with _ | r
    · simpa using W.run_searchChannels (List.finRange 8) (W.sound_run hs)
    · simp

/-- Something is detected exactly if it is where the search comes by. -/
theorem isSome_detected_iff : W.detected.isSome ↔ W.Reachable := by
  unfold detected Reachable
  split
  · rcases hreading : W.shtc3 with _ | r
    · simp only [Option.isSome_none, Bool.false_eq_true, if_false, false_or]
      unfold foundBehind
      rw [List.findSome?_isSome_iff]
      refine exists_congr fun channel => ?_
      rw [and_iff_right (List.mem_finRange channel), ← W.isSome_found_iff _ (some channel)]
      split
      · rename_i hack
        simp [hack]
      · rename_i hack
        simp [hack]
    · simp
  · exact W.isSome_found_iff 0 none

/-! ## Reading -/

/-- A sensor that has been detected, and what it gives. -/
structure Usable (g : Globals) (r : Reading) : Prop where
  reading : W.reading g = some r
  acked : ∀ channel, g.muxChannel = some channel → W.ack 0 addrTca9548 [mask channel] = true
  direct : g.kind = .shtc3Direct → g.muxChannel = none
  root : g.muxChannel = none → g.kind = .shtc3Direct ∨ W.mux = false
  addr : g.kind = .shtc3Direct ∨ g.addr ≠ addrTca9548

/-- The sensor that a search finds gives a reading there. -/
theorem found_eq {selected : UInt8} {channel : Option (Fin 8)} {g : Globals}
    (h : W.found selected channel = some g) :
    g.muxChannel = channel ∧ g.addr ≠ addrTca9548 ∧ g.kind ≠ .shtc3Direct ∧
      (selected = W.place channel → (W.reading g).isSome) := by
  unfold found at h
  split at h
  · rename_i hsht3x
    obtain rfl := Option.some.inj h
    refine ⟨rfl, W.sht3xAddr_ne selected, by simp, ?_⟩
    rintro rfl
    exact hsht3x.2
  · unfold foundAht20 at h
    split at h
    · rename_i haht20
      obtain rfl := Option.some.inj h
      refine ⟨rfl, (by decide : addrAht20 ≠ addrTca9548), by simp, ?_⟩
      rintro rfl
      exact haht20.2.2
    · unfold foundSi7021 at h
      split at h
      · rename_i hsi7021
        obtain rfl := Option.some.inj h
        refine ⟨rfl, (by decide : addrSi7021 ≠ addrTca9548), by simp, ?_⟩
        rintro rfl
        exact hsi7021.2
      · cases h

theorem usable_of_found {channel : Option (Fin 8)} {g : Globals}
    (h : W.found (W.place channel) channel = some g)
    (hack : ∀ c, channel = some c → W.ack 0 addrTca9548 [mask c] = true)
    (hroot : channel = none → W.mux = false) : ∃ r, W.Usable g r := by
  rcases W.found_eq h with ⟨rfl, haddr, hkind, hreading⟩
  rcases Option.isSome_iff_exists.1 (hreading rfl) with ⟨r, hr⟩
  exact ⟨r, hr, hack, fun hdirect => absurd hdirect hkind, fun hnone => Or.inr (hroot hnone),
    Or.inr haddr⟩

/-- What is detected can be read. -/
theorem usable_of_detected {g : Globals} (h : W.detected = some g) : ∃ r, W.Usable g r := by
  unfold detected at h
  split at h
  · split at h
    · rename_i hack hshtc3
      obtain rfl := Option.some.inj h
      rcases Option.isSome_iff_exists.1 hshtc3 with ⟨r, hr⟩
      exact ⟨r, hr, by simp, by simp, by simp, Or.inl rfl⟩
    · unfold foundBehind at h
      rcases List.exists_of_findSome?_eq_some h with ⟨channel, -, hfound⟩
      split at hfound
      · rename_i hack
        refine W.usable_of_found hfound ?_ (by simp)
        rintro c hc
        obtain rfl := Option.some.inj hc
        exact hack
      · cases hfound
  · rename_i hack
    have hroot : W.found (W.place none) none = some g := h
    refine W.usable_of_found hroot (by simp) ?_
    intro _
    rcases hmux : W.mux with _ | _
    · rfl
    · exact absurd (W.ack_mux hmux 0 []) hack

variable {W} {g : Globals} {r : Reading}

/-- The driver of the sensor gives its reading, once its channel is selected. -/
theorem Usable.measures (hg : W.Usable g r) {s : Line} (hs : W.Sound s)
    (hselected : g.kind = .shtc3Direct ∨ s.selected = W.place g.muxChannel) (out : Reading) :
    W.Measures (measure g out) s (some r) := by
  have hreading := hg.reading
  rw [← hreading]
  unfold Wiring.reading measure
  rcases hkind : g.kind with _ | _ | _ | _ | _
  · exact ⟨rfl, by simp⟩
  · exact W.measures_shtc3 hs out
  · have haddr := hg.addr.resolve_left (by simp [hkind])
    rw [← hselected.resolve_left (by simp [hkind])]
    exact W.measures_sht3x s haddr out
  · have haddr := hg.addr.resolve_left (by simp [hkind])
    rw [← hselected.resolve_left (by simp [hkind])]
    exact W.measures_aht20 s haddr out
  · rw [← hselected.resolve_left (by simp [hkind])]
    exact W.measures_si7021 s out

/-- A driver behind a channel leaves the channel selected. -/
theorem Usable.selected_measure (hg : W.Usable g r) {channel : Fin 8}
    (hchannel : g.muxChannel = some channel) (s : Line) (out : Reading) :
    ((measure g out).run W.bus s).2.selected = s.selected := by
  have hkind : g.kind ≠ .shtc3Direct := fun h => by simp [hg.direct h] at hchannel
  have haddr := hg.addr.resolve_left hkind
  unfold measure
  rcases hkind' : g.kind with _ | _ | _ | _ | _
  · rfl
  · exact absurd hkind' hkind
  · exact W.selected_run (speaksTo_sht3x g.addr out) haddr s
  · exact W.selected_run (speaksTo_aht20 g.addr out) haddr s
  · exact W.selected_run (speaksTo_si7021 out) (by decide) s

/-- A read gives the reading, and leaves the channel selected. -/
theorem Usable.run_readSensor (hg : W.Usable g r) {s : Line} (hs : W.Sound s) (out : Reading) :
    ((readSensor g out).run W.bus s).1 = (true, r) ∧ ∀ channel, g.muxChannel = some channel →
      ((readSensor g out).run W.bus s).2.selected = W.place (some channel) := by
  unfold readSensor
  rcases hchannel : g.muxChannel with _ | channel
  · refine ⟨?_, by simp⟩
    have hselected : g.kind = .shtc3Direct ∨ s.selected = W.place g.muxChannel := by
      rcases hg.root hchannel with hdirect | hmux
      · exact Or.inl hdirect
      · refine Or.inr ?_
        rw [hs hmux, hchannel]
        rfl
    exact (hg.measures hs hselected out).value r rfl
  · -- the channel was acknowledged when it was found, and still is
    have hack : W.ack s.selected addrTca9548 [mask channel] = true :=
      (W.ack_sound hs _).trans (hg.acked channel hchannel)
    have hselected := W.selected_accept hs channel
    have hmeasures := hg.measures (W.sound_accept hs addrTca9548 [mask channel])
      (Or.inr (hchannel ▸ hselected)) out
    unfold tcaSelect
    rw [Dialog.run_write, bus_write, hack]
    simp only [if_true, Bool.true_eq_false, if_false]
    refine ⟨hmeasures.value r rfl, ?_⟩
    intro channel' hchannel'
    obtain rfl := Option.some.inj hchannel'
    rw [hg.selected_measure hchannel, hselected]

/-- And so does every read after it. -/
theorem Usable.run_reads (hg : W.Usable g r) (outs : List Reading) {s : Line} (hs : W.Sound s) :
    ((reads g outs).run W.bus s).1 = outs.map (fun _ => (true, r)) ∧
      ∀ channel, g.muxChannel = some channel → outs ≠ [] →
        ((reads g outs).run W.bus s).2.selected = W.place (some channel) := by
  induction outs generalizing s with
  | nil => exact ⟨rfl, fun _ _ h => absurd rfl h⟩
  | cons out outs ih =>
      have hread := hg.run_readSensor hs out
      have hrest := ih (W.sound_run (p := readSensor g out) hs)
      unfold reads
      simp only [Dialog.run_bind, Dialog.run_done, hread.1, hrest.1, List.map_cons, true_and]
      intro channel hchannel _
      rcases outs with _ | ⟨out', outs⟩
      · exact hread.2 channel hchannel
      · exact hrest.2 channel hchannel (by simp)

variable (W)

/-- A sensor is found, and read from then on, exactly if one is where the search comes by. -/
theorem detects_iff : W.Detects ↔ W.Reachable := by
  rw [← isSome_detected_iff]
  constructor
  · rintro ⟨g, r, -, hdetects⟩
    have hs : W.Sound ⟨0, fun _ => []⟩ := fun _ => rfl
    rw [← W.run_detectSensor hs, (hdetects _ hs).1]
    rfl
  · intro h
    rcases Option.isSome_iff_exists.1 h with ⟨g, hg⟩
    rcases W.usable_of_detected hg with ⟨r, hr⟩
    refine ⟨g, r, hr.reading, fun s hs => ⟨?_, fun outs => ?_⟩⟩
    · rw [W.run_detectSensor hs, hg]
    · exact hr.run_reads outs (W.sound_run hs)

/-- A device at 0x44 that gives no frame, and an SHT3x at 0x45. -/
def shadowed : Wiring where
  mux := false
  ack _ addr _ := addr == addrSht3x1 || addr == addrSht3x2
  reply _ addr _ n :=
    if addr = addrSht3x2 then
      some (Vector.ofFn fun i : Fin n => [0x66, 0x66, 0x93, 0x80, 0x00, 0xA2].getD i 0)
    else none
  ack_mux := by simp

/-- The SHT3x is not looked for at 0x45, because something acknowledges at 0x44. -/
theorem second_address_missed : ¬ ∀ W : Wiring, (∃ g, W.Answers g) → W.Detects := by
  intro h
  have hanswers : shadowed.Answers ⟨.sht3x, addrSht3x2, none⟩ :=
    ⟨by simp, by decide, Or.inr rfl, by decide +kernel⟩
  rcases h shadowed ⟨_, hanswers⟩ with ⟨g, r, -, hdetects⟩
  have hnone : (detectSensor.run shadowed.bus ⟨0, fun _ => []⟩).1 = none := by decide +kernel
  have hsome := (hdetects ⟨0, fun _ => []⟩ fun _ => rfl).1
  rw [hnone] at hsome
  cases hsome

end Wiring

end Cse121.Lab33
