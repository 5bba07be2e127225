import Cse121.Lib.HidReport

/-! # The reports of the air mouse

`lab4_2/main` and `lab4_3/main` share the files of the HID profile. Its reports are built
by `esp_hidd_prf_api.c` and `hid_dev.c`, and read by a host that knows no more about them
than the descriptor `hidReportMap` of `hid_device_le_prf.c`.
-/

namespace Cse121.Hidd

open Hid

/-- `hidReportMap`. -/
def hidReportMap : List UInt8 :=
  [ 0x05, 0x01,  -- Usage Page (Generic Desktop)
    0x09, 0x02,  -- Usage (Mouse)
    0xA1, 0x01, 0x85, 0x01, 0x09, 0x01, 0xA1, 0x00, 0x05, 0x09, 0x19, 0x01, 0x29, 0x03,
    0x15, 0x00, 0x25, 0x01, 0x75, 0x01, 0x95, 0x03, 0x81, 0x02, 0x75, 0x05, 0x95, 0x01,
    0x81, 0x01, 0x05, 0x01, 0x09, 0x30, 0x09, 0x31, 0x09, 0x38, 0x15, 0x81, 0x25, 0x7F,
    0x75, 0x08, 0x95, 0x03, 0x81, 0x06, 0xC0, 0xC0,
    0x05, 0x01,  -- Usage Pg (Generic Desktop)
    0x09, 0x06,  -- Usage (Keyboard)
    0xA1, 0x01, 0x85, 0x02, 0x05, 0x07, 0x19, 0xE0, 0x29, 0xE7, 0x15, 0x00, 0x25, 0x01,
    0x75, 0x01, 0x95, 0x08, 0x81, 0x02, 0x95, 0x01, 0x75, 0x08, 0x81, 0x01, 0x05, 0x08,
    0x19, 0x01, 0x29, 0x05, 0x95, 0x05, 0x75, 0x01, 0x91, 0x02, 0x95, 0x01, 0x75, 0x03,
    0x91, 0x01, 0x95, 0x06, 0x75, 0x08, 0x15, 0x00, 0x25, 0x65, 0x05, 0x07, 0x19, 0x00,
    0x29, 0x65, 0x81, 0x00, 0xC0,
    0x05, 0x0C,  -- Usage Pg (Consumer Devices)
    0x09, 0x01,  -- Usage (Consumer Control)
    0xA1, 0x01, 0x85, 0x03, 0x09, 0x02, 0xA1, 0x02, 0x05, 0x09, 0x19, 0x01, 0x29, 0x0A,
    0x15, 0x01, 0x25, 0x0A, 0x75, 0x04, 0x95, 0x01, 0x81, 0x00, 0xC0, 0x05, 0x0C, 0x09, 0x86,
    0x15, 0xFF, 0x25, 0x01, 0x75, 0x02, 0x95, 0x01, 0x81, 0x46, 0x09, 0xE9, 0x09, 0xEA,
    0x15, 0x00, 0x75, 0x01, 0x95, 0x02, 0x81, 0x02, 0x09, 0xE2, 0x09, 0x30, 0x09, 0x83,
    0x09, 0x81, 0x09, 0xB0, 0x09, 0xB1, 0x09, 0xB2, 0x09, 0xB3, 0x09, 0xB4, 0x09, 0xB5,
    0x09, 0xB6, 0x09, 0xB7, 0x15, 0x01, 0x25, 0x0C, 0x75, 0x04, 0x95, 0x01, 0x81, 0x00,
    0x09, 0x80, 0xA1, 0x02, 0x05, 0x09, 0x19, 0x01, 0x29, 0x03, 0x15, 0x01, 0x25, 0x03,
    0x75, 0x02, 0x81, 0x00, 0xC0, 0x81, 0x03, 0xC0 ]

/-- Report ids of the profile. -/
def HID_RPT_ID_MOUSE_IN : UInt8 := 1
def HID_RPT_ID_KEY_IN : UInt8 := 2
def HID_RPT_ID_CC_IN : UInt8 := 3
def HID_RPT_ID_LED_OUT : UInt8 := 2
def HID_RPT_ID_FEATURE : UInt8 := 0

/-! ## Building reports -/

/-- The report of `esp_hidd_send_mouse_value`: buttons, X, Y, wheel, AC pan. -/
def mouseReport (mouseButton : UInt8) (mickeysX mickeysY : Int8) : List UInt8 :=
  [mouseButton, mickeysX.toUInt8, mickeysY.toUInt8, 0, 0]

/-- The report of `esp_hidd_send_keyboard_value`, if there are not too many keys. -/
def keyboardReport (specialKeyMask : UInt8) (keyboardCmd : List UInt8) : Option (List UInt8) :=
  if keyboardCmd.length > 8 - 2 then none
  else some (specialKeyMask :: 0 :: keyboardCmd ++ List.replicate (6 - keyboardCmd.length) 0)

/-- The two bytes of a consumer control report. -/
structure CcReport where
  b0 : UInt8 := 0
  b1 : UInt8 := 0
deriving DecidableEq, Repr

def CcReport.toList (s : CcReport) : List UInt8 := [s.b0, s.b1]

/-- `HID_CC_RPT_SET_CHANNEL`. -/
def CcReport.setChannel (s : CcReport) (x : UInt8) : CcReport :=
  { s with b0 := (s.b0 &&& 0xCF) ||| ((x &&& 0x03) <<< (4 : UInt8)) }

/-- `HID_CC_RPT_SET_VOLUME_UP`. -/
def CcReport.setVolumeUp (s : CcReport) : CcReport := { s with b0 := (s.b0 &&& 0x3F) ||| 0x40 }

/-- `HID_CC_RPT_SET_VOLUME_DOWN`. -/
def CcReport.setVolumeDown (s : CcReport) : CcReport := { s with b0 := (s.b0 &&& 0x3F) ||| 0x80 }

/-- `HID_CC_RPT_SET_BUTTON`. -/
def CcReport.setButton (s : CcReport) (x : UInt8) : CcReport :=
  { s with b1 := (s.b1 &&& 0xF0) ||| x }

/-- `hid_consumer_build_report`; the cases are the `HID_CONSUMER_*` it knows. -/
def hidConsumerBuildReport (s : CcReport) (cmd : UInt8) : CcReport :=
  match cmd.toNat with
  | 156 => s.setChannel 0x01
  | 157 => s.setChannel 0x03
  | 233 => s.setVolumeUp
  | 234 => s.setVolumeDown
  | 226 => s.setButton 1
  | 48 => s.setButton 2
  | 131 => s.setButton 3
  | 129 => s.setButton 4
  | 176 => s.setButton 5
  | 177 => s.setButton 6
  | 178 => s.setButton 7
  | 179 => s.setButton 8
  | 180 => s.setButton 9
  | 181 => s.setButton 10
  | 182 => s.setButton 11
  | 183 => s.setButton 12
  | _ => s

/-- The report of `esp_hidd_send_consumer_value`. -/
def consumerReport (keyCmd : UInt8) (keyPressed : Bool) : List UInt8 :=
  (if keyPressed then hidConsumerBuildReport {} keyCmd else {}).toList

/-! ## What the descriptor declares -/

/-- The input fields that the descriptor declares for a report. -/
def inputFields (reportId : UInt8) : List Field :=
  ((fields hidReportMap).map (inputs · reportId.toNat)).getD []

/-- The buttons of the mouse. -/
def buttons : Field :=
  ⟨.input, 1, false, true, false, [⟨9, 1⟩, ⟨9, 2⟩, ⟨9, 3⟩], 0, 1, 1, 3⟩

/-- X, Y and the wheel. -/
def axes : Field :=
  ⟨.input, 1, false, true, true, [⟨1, 0x30⟩, ⟨1, 0x31⟩, ⟨1, 0x38⟩], -127, 127, 8, 3⟩

/-- The modifier keys. -/
def modifiers : Field :=
  ⟨.input, 2, false, true, false, (List.range 8).map fun k => ⟨7, 0xE0 + k⟩, 0, 1, 1, 8⟩

/-- The keys that are down. -/
def keys : Field :=
  ⟨.input, 2, false, false, false, (List.range 102).map fun k => ⟨7, k⟩, 0, 101, 8, 6⟩

/-- The numeric key pad. -/
def numeric : Field :=
  ⟨.input, 3, false, false, false, (List.range 10).map fun k => ⟨9, 1 + k⟩, 1, 10, 4, 1⟩

/-- The channel, up and down. -/
def channel : Field := ⟨.input, 3, false, true, true, [⟨0x0C, 0x86⟩], -1, 1, 2, 1⟩

/-- The volume, up and down. -/
def volume : Field := ⟨.input, 3, false, true, false, [⟨0x0C, 0xE9⟩, ⟨0x0C, 0xEA⟩], 0, 1, 1, 2⟩

/-- Mute, power and the keys of a player. -/
def button : Field :=
  ⟨.input, 3, false, false, false, [⟨0x0C, 0xE2⟩, ⟨0x0C, 0x30⟩, ⟨0x0C, 0x83⟩, ⟨0x0C, 0x81⟩,
    ⟨0x0C, 0xB0⟩, ⟨0x0C, 0xB1⟩, ⟨0x0C, 0xB2⟩, ⟨0x0C, 0xB3⟩, ⟨0x0C, 0xB4⟩, ⟨0x0C, 0xB5⟩,
    ⟨0x0C, 0xB6⟩, ⟨0x0C, 0xB7⟩], 1, 12, 4, 1⟩

/-- The three selection buttons. -/
def selection : Field :=
  ⟨.input, 3, false, false, false, [⟨9, 1⟩, ⟨9, 2⟩, ⟨9, 3⟩], 1, 3, 2, 1⟩

/-- The lights of the keyboard. -/
def leds : Field :=
  ⟨.output, 2, false, true, false, (List.range 5).map fun k => ⟨8, 1 + k⟩, 0, 1, 1, 5⟩

/-- A constant field. -/
def padding (direction : Direction) (reportId : Nat) (isVariable : Bool) (logicalMin : Int)
    (logicalMax : Int) (size : Nat) : Field :=
  ⟨direction, reportId, true, isVariable, false, [], logicalMin, logicalMax, size, 1⟩

theorem fields_hidReportMap : fields hidReportMap = some
    [buttons, padding .input 1 false 0 1 5, axes,
      modifiers, padding .input 2 false 0 1 8, leds, padding .output 2 false 0 1 3, keys,
      numeric, channel, volume, button, selection, padding .input 3 true 1 3 2] := by
  decide +kernel

theorem inputFields_mouse : inputFields HID_RPT_ID_MOUSE_IN =
    [buttons, padding .input 1 false 0 1 5, axes] := by
  rw [inputFields, fields_hidReportMap]
  rfl

theorem inputFields_keyboard : inputFields HID_RPT_ID_KEY_IN =
    [modifiers, padding .input 2 false 0 1 8, keys] := by
  rw [inputFields, fields_hidReportMap]
  rfl

theorem inputFields_consumer : inputFields HID_RPT_ID_CC_IN =
    [numeric, channel, volume, button, selection, padding .input 3 true 1 3 2] := by
  rw [inputFields, fields_hidReportMap]
  rfl

/-! ## The mouse -/

/-- What a host reads of an axis; `-128` is out of range. -/
def axisReading (id : Nat) (mickeys : Int8) : Option (Usage × Int) :=
  if mickeys = -128 then none else some (⟨1, id⟩, mickeys.toInt)

theorem axis_element {k id : Nat} (hk : axes.usage k = some ⟨1, id⟩) (mickeys : Int8) :
    axes.element k (byteBits mickeys.toUInt8) = axisReading id mickeys := by
  have hvalue : axes.value (byteBits mickeys.toUInt8) = mickeys.toInt :=
    Field.value_int8 rfl (by decide) mickeys
  have hrange : axes.InRange mickeys.toInt ↔ ¬ mickeys = -128 := by
    have hle := mickeys.toInt_lt
    have hge := mickeys.le_toInt
    have hmin : mickeys = -128 ↔ mickeys.toInt = -128 := Int8.toInt_inj.symm
    rw [hmin]
    show -127 ≤ mickeys.toInt ∧ mickeys.toInt ≤ 127 ↔ _
    omega
  rw [Field.element_variable rfl hk hvalue, axisReading]
  simp only [hrange, ite_not]

/-- What a host reads of one flag after another. -/
def flagReading (page first : Nat) (flags : List Bool) : List (Usage × Int) :=
  flags.zipIdx.map fun p => (⟨page, first + p.2⟩, (p.1.toNat : Int))

/-- The host moves its pointer by what the firmware asked for, and sees its buttons. -/
theorem mouseReport_read (mouseButton : UInt8) (mickeysX mickeysY : Int8) :
    read (inputFields HID_RPT_ID_MOUSE_IN) (mouseReport mouseButton mickeysX mickeysY) =
      some [flagReading 9 1 ((byteBits mouseButton).take 3), [],
        [axisReading 0x30 mickeysX, axisReading 0x31 mickeysY,
          some (⟨1, 0x38⟩, 0)].reduceOption] := by
  have hbits : bits (mouseReport mouseButton mickeysX mickeysY) =
      (byteBits mouseButton).take 3 ++ ((byteBits mouseButton).drop 3 ++
        (bits [mickeysX.toUInt8, mickeysY.toUInt8, (0 : Int8).toUInt8] ++ bits [0])) := by
    rw [← List.append_assoc, List.take_append_drop]
    rfl
  have hbuttons : buttons.read ((byteBits mouseButton).take 3) =
      flagReading 9 1 ((byteBits mouseButton).take 3) := by
    rw [Field.read_flags rfl rfl rfl rfl rfl rfl (by simp; rfl)]
    rfl
  have haxes : axes.read (bits [mickeysX.toUInt8, mickeysY.toUInt8, (0 : Int8).toUInt8]) =
      [axisReading 0x30 mickeysX, axisReading 0x31 mickeysY,
        some (⟨1, 0x38⟩, 0)].reduceOption := by
    rw [Field.read_bits rfl rfl rfl]
    have hwheel := @axis_element 2 0x38 rfl 0
    have hx := @axis_element 0 0x30 rfl mickeysX
    have hy := @axis_element 1 0x31 rfl mickeysY
    simp only [List.zipIdx_cons, List.zipIdx_nil, List.filterMap_cons, List.filterMap_nil,
      Nat.zero_add, Nat.reduceAdd, hx, hy, hwheel]
    rfl
  rw [inputFields_mouse, Hid.read, if_neg (by rw [length_bits]; show ¬ 8 * 5 < 32; decide), hbits,
    readings_append _ _ (by simp; rfl), readings_append _ _ (by simp; rfl),
    readings_append _ _ (by rw [length_bits]; rfl), hbuttons, haxes]
  rfl

/-! ## The keyboard -/

/-- What a host reads of a key byte; a code above 101 is out of range. -/
def keyReading (cmd : UInt8) : Option (Usage × Int) :=
  if cmd ≤ 101 then some (⟨7, cmd.toNat⟩, 1) else none

theorem key_element (k : Nat) (cmd : UInt8) : keys.element k (byteBits cmd) = keyReading cmd := by
  have hvalue : keys.value (byteBits cmd) = cmd.toNat := by
    rw [Field.value, if_neg (by rw [show keys.logicalMin = 0 from rfl]; omega), ofBits_byteBits]
  rw [Field.element_array rfl k hvalue, keyReading]
  have hrange : keys.InRange cmd.toNat ↔ cmd ≤ 101 := by
    rw [UInt8.le_iff_toNat_le]
    show (0 : Int) ≤ cmd.toNat ∧ (cmd.toNat : Int) ≤ 101 ↔ cmd.toNat ≤ 101
    omega
  by_cases h : cmd ≤ 101
  · rw [if_pos (hrange.2 h), if_pos h]
    have hlt : cmd.toNat < 102 := by
      rw [UInt8.le_iff_toNat_le] at h
      exact Nat.lt_succ_of_le h
    have hindex : ((cmd.toNat : Int) - keys.logicalMin).toNat = cmd.toNat := by
      show ((cmd.toNat : Int) - 0).toNat = cmd.toNat
      omega
    rw [hindex]
    simp [keys, hlt]
  · rw [if_neg (mt hrange.1 h), if_neg h]

/-- The host sees the modifiers of the mask, and the keys that its descriptor has, in order;
a slot without a key is usage 0, which stands for none. More than six keys are not sent. -/
theorem keyboardReport_read (specialKeyMask : UInt8) (keyboardCmd : List UInt8) :
    (keyboardReport specialKeyMask keyboardCmd).bind (read (inputFields HID_RPT_ID_KEY_IN)) =
      if keyboardCmd.length ≤ 6 then
        some [flagReading 7 0xE0 (byteBits specialKeyMask), [],
          keyboardCmd.filterMap keyReading ++
            List.replicate (6 - keyboardCmd.length) (⟨7, 0⟩, 1)]
      else none := by
  unfold keyboardReport
  by_cases hlen : keyboardCmd.length ≤ 6
  · rw [if_neg (by omega), if_pos hlen, Option.bind_some]
    have hsix : (keyboardCmd ++ List.replicate (6 - keyboardCmd.length) 0).length = 6 := by
      simp
      omega
    have hmodifiers : modifiers.read (byteBits specialKeyMask) =
        flagReading 7 0xE0 (byteBits specialKeyMask) := by
      rw [Field.read_flags rfl rfl rfl rfl rfl rfl (by simp; rfl)]
      rfl
    have hkeys : keys.read (bits (keyboardCmd ++ List.replicate (6 - keyboardCmd.length) 0)) =
        keyboardCmd.filterMap keyReading ++
          List.replicate (6 - keyboardCmd.length) (⟨7, 0⟩, 1) := by
      rw [Field.read_array rfl rfl (by rw [hsix]; rfl) key_element, List.filterMap_append,
        List.filterMap_replicate_of_some (b := (⟨7, 0⟩, 1)) (by decide)]
    have hbits : bits (specialKeyMask :: 0 :: keyboardCmd ++
        List.replicate (6 - keyboardCmd.length) 0) = byteBits specialKeyMask ++ (byteBits 0 ++
          (bits (keyboardCmd ++ List.replicate (6 - keyboardCmd.length) 0) ++ [])) := by
      rw [List.append_nil]
      rfl
    rw [inputFields_keyboard, Hid.read, if_neg, hbits, readings_append _ _ (by simp; rfl),
      readings_append _ _ (by simp; rfl),
      readings_append _ _ (by rw [length_bits, hsix]; rfl), hmodifiers, hkeys]
    · rfl
    · rw [hbits]
      simp only [List.length_append, length_byteBits, length_bits, hsix]
      decide
  · rw [if_pos (by omega), if_neg hlen]
    rfl

/-! ## Consumer control -/

/-- What a command is to a host: the number of its field in the report and what that field
then tells. The usage of a key is its code. -/
def consumerControl (cmd : UInt8) : Option (Nat × List (Usage × Int)) :=
  match cmd.toNat with
  | 156 => some (1, [(⟨0x0C, 0x86⟩, 1)])
  | 157 => some (1, [(⟨0x0C, 0x86⟩, -1)])
  | 233 => some (2, [(⟨0x0C, 233⟩, 1), (⟨0x0C, 234⟩, 0)])
  | 234 => some (2, [(⟨0x0C, 233⟩, 0), (⟨0x0C, 234⟩, 1)])
  | code =>
      if code ∈ [226, 48, 131, 129, 176, 177, 178, 179, 180, 181, 182, 183] then
        some (3, [(⟨0x0C, code⟩, 1)])
      else none

/-- The fields of a report of two bytes. -/
theorem consumer_readings (s : CcReport) :
    readings (inputFields HID_RPT_ID_CC_IN) (bits s.toList) =
      [numeric.read ((byteBits s.b0).take 4), channel.read (((byteBits s.b0).drop 4).take 2),
        volume.read ((byteBits s.b0).drop 6), button.read ((byteBits s.b1).take 4),
        selection.read (((byteBits s.b1).drop 4).take 2), []] := by
  rw [inputFields_consumer]
  rfl

theorem setChannel_readings (s : CcReport) {x : UInt8} {v0 v1 : Bool}
    (hx : byteBits ((x &&& 0x03) <<< (4 : UInt8)) =
      [false, false, false, false, v0, v1, false, false]) :
    readings (inputFields HID_RPT_ID_CC_IN) (bits (s.setChannel x).toList) =
      (readings (inputFields HID_RPT_ID_CC_IN) (bits s.toList)).set 1 (channel.read [v0, v1]) := by
  have hbits := @byteBits_insert s.b0 0xCF _ 4 2 2 [v0, v1] rfl (by decide) hx
  rw [consumer_readings, consumer_readings, CcReport.setChannel]
  simp only [hbits]
  rfl

/-- Both directions of the volume, by the bit they set. -/
theorem setVolume_readings (s : CcReport) {x : UInt8} {v0 v1 : Bool}
    (hx : byteBits x = [false, false, false, false, false, false, v0, v1]) :
    readings (inputFields HID_RPT_ID_CC_IN)
        (bits ({ s with b0 := (s.b0 &&& 0x3F) ||| x } : CcReport).toList) =
      (readings (inputFields HID_RPT_ID_CC_IN) (bits s.toList)).set 2 (volume.read [v0, v1]) := by
  have hbits := @byteBits_insert s.b0 0x3F _ 6 2 0 [v0, v1] rfl (by decide) hx
  rw [consumer_readings, consumer_readings]
  simp only [hbits]
  rfl

theorem setButton_readings (s : CcReport) {x : UInt8} {v0 v1 v2 v3 : Bool}
    (hx : byteBits x = [v0, v1, v2, v3, false, false, false, false]) :
    readings (inputFields HID_RPT_ID_CC_IN) (bits (s.setButton x).toList) =
      (readings (inputFields HID_RPT_ID_CC_IN) (bits s.toList)).set 3
        (button.read [v0, v1, v2, v3]) := by
  have hbits := @byteBits_insert s.b1 0xF0 _ 0 4 4 [v0, v1, v2, v3] rfl (by decide) hx
  rw [consumer_readings, consumer_readings, CcReport.setButton]
  simp only [hbits]
  rfl

/-- A command changes what its own field tells, to what the command says, and nothing else,
whatever the report held before. A code without a command changes nothing. -/
theorem consumerReport_readings (s : CcReport) (cmd : UInt8) :
    readings (inputFields HID_RPT_ID_CC_IN) (bits (hidConsumerBuildReport s cmd).toList) =
      match consumerControl cmd with
      | none => readings (inputFields HID_RPT_ID_CC_IN) (bits s.toList)
      | some (field, tells) =>
          (readings (inputFields HID_RPT_ID_CC_IN) (bits s.toList)).set field tells := by
  unfold hidConsumerBuildReport
  split
  case h_1 h | h_2 h =>
    rw [consumerControl, h, setChannel_readings s rfl]
    rfl
  case h_3 h =>
    have hread := @setVolume_readings s 0x40 true false (by decide)
    rw [consumerControl, h, CcReport.setVolumeUp, hread]
    rfl
  case h_4 h =>
    have hread := @setVolume_readings s 0x80 false true (by decide)
    rw [consumerControl, h, CcReport.setVolumeDown, hread]
    rfl
  case h_17 =>
    have hnone : consumerControl cmd = none := by
      unfold consumerControl
      split
      · simp_all
      · simp_all
      · simp_all
      · simp_all
      · rw [if_neg]
        simp_all
    rw [hnone]
  all_goals
    rename_i h
    rw [consumerControl, h, setButton_readings s rfl]
    rfl

end Cse121.Hidd
