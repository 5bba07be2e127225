import Cse121.AirMouse.HidReports

/-! # The HID service

The attribute table of `hid_device_le_prf.c`, the report table that `hid_add_id_tbl` makes
of the handles the stack gave to its attributes, and the reports that `hid_dev.c` sends by
way of the report table. A host finds the report characteristics by itself, from their
report reference descriptors.
-/

namespace Cse121.Hidd

open Hid

/-- The attributes of the HID service, in order. -/
inductive HiddLeIdx where
  | svc
  | inclSvc
  | hidInfoChar
  | hidInfoVal
  | hidCtnlPtChar
  | hidCtnlPtVal
  | reportMapChar
  | reportMapVal
  | reportMapExtRepRef
  | protoModeChar
  | protoModeVal
  | reportMouseInChar
  | reportMouseInVal
  | reportMouseInCcc
  | reportMouseRepRef
  | reportKeyInChar
  | reportKeyInVal
  | reportKeyInCcc
  | reportKeyInRepRef
  | reportLedOutChar
  | reportLedOutVal
  | reportLedOutRepRef
  | reportCcInChar
  | reportCcInVal
  | reportCcInCcc
  | reportCcInRepRef
  | bootKbInReportChar
  | bootKbInReportVal
  | bootKbInReportNtfCfg
  | bootKbOutReportChar
  | bootKbOutReportVal
  | bootMouseInReportChar
  | bootMouseInReportVal
  | bootMouseInReportNtfCfg
  | reportChar
  | reportVal
  | reportRepRef
deriving DecidableEq, Repr

/-- All of them. -/
def hiddLeIdxs : List HiddLeIdx :=
  [.svc, .inclSvc, .hidInfoChar, .hidInfoVal, .hidCtnlPtChar, .hidCtnlPtVal, .reportMapChar,
    .reportMapVal, .reportMapExtRepRef, .protoModeChar, .protoModeVal, .reportMouseInChar,
    .reportMouseInVal, .reportMouseInCcc, .reportMouseRepRef, .reportKeyInChar,
    .reportKeyInVal, .reportKeyInCcc, .reportKeyInRepRef, .reportLedOutChar,
    .reportLedOutVal, .reportLedOutRepRef, .reportCcInChar, .reportCcInVal, .reportCcInCcc,
    .reportCcInRepRef, .bootKbInReportChar, .bootKbInReportVal, .bootKbInReportNtfCfg,
    .bootKbOutReportChar, .bootKbOutReportVal, .bootMouseInReportChar,
    .bootMouseInReportVal, .bootMouseInReportNtfCfg, .reportChar, .reportVal, .reportRepRef]

def HIDD_LE_IDX_NB : Nat := hiddLeIdxs.length

/-- The handles of the attributes, as the stack gave them. -/
abbrev AttTbl := List UInt16

def AttTbl.handle (attTbl : AttTbl) (i : HiddLeIdx) : UInt16 :=
  attTbl.getD (hiddLeIdxs.idxOf i) 0

/-! ## The attributes -/

/-- The types of attributes in the table. -/
inductive Uuid where
  | priService
  | includeService
  | charDeclare
  | charClientConfig
  | hidInformation
  | hidReportMap
  | hidControlPoint
  | hidReport
  | hidProtoMode
  | btKbInput
  | btKbOutput
  | btMouseInput
  | extRptRefDescr
  | rptRefDescr
deriving DecidableEq, Repr

/-- The properties of a characteristic. -/
structure CharProp where
  read : Bool := false
  write : Bool := false
  writeNr : Bool := false
  notify : Bool := false
deriving DecidableEq, Repr

/-- The initial value of an attribute. -/
inductive Value where
  | empty
  | bytes (value : List UInt8)
  | prop (p : CharProp)
  | inclSvc
  | batteryLevel
deriving DecidableEq, Repr

structure Attr where
  uuid : Uuid
  value : Value
deriving DecidableEq, Repr

def charPropRead : Attr := ⟨.charDeclare, .prop { read := true }⟩
def charPropWriteNr : Attr := ⟨.charDeclare, .prop { writeNr := true }⟩
def charPropReadWrite : Attr := ⟨.charDeclare, .prop { read := true, write := true }⟩
def charPropReadNotify : Attr := ⟨.charDeclare, .prop { read := true, notify := true }⟩
def charPropReadWriteWriteNr : Attr :=
  ⟨.charDeclare, .prop { read := true, write := true, writeNr := true }⟩

/-- `HID_REPORT_TYPE_*`. -/
def HID_REPORT_TYPE_INPUT : UInt8 := 1
def HID_REPORT_TYPE_OUTPUT : UInt8 := 2
def HID_REPORT_TYPE_FEATURE : UInt8 := 3

/-- `HID_PROTOCOL_MODE_*`. -/
def HID_PROTOCOL_MODE_BOOT : UInt8 := 0
def HID_PROTOCOL_MODE_REPORT : UInt8 := 1

/-- A report reference descriptor: id and type of a report. -/
structure ReportRef where
  id : UInt8
  type : UInt8
deriving DecidableEq, Repr

def hidReportRefMouseIn : ReportRef := ⟨HID_RPT_ID_MOUSE_IN, HID_REPORT_TYPE_INPUT⟩
def hidReportRefKeyIn : ReportRef := ⟨HID_RPT_ID_KEY_IN, HID_REPORT_TYPE_INPUT⟩
def hidReportRefLedOut : ReportRef := ⟨HID_RPT_ID_LED_OUT, HID_REPORT_TYPE_OUTPUT⟩
def hidReportRefFeature : ReportRef := ⟨HID_RPT_ID_FEATURE, HID_REPORT_TYPE_FEATURE⟩
def hidReportRefCcIn : ReportRef := ⟨HID_RPT_ID_CC_IN, HID_REPORT_TYPE_INPUT⟩

def ReportRef.attr (r : ReportRef) : Attr := ⟨.rptRefDescr, .bytes [r.id, r.type]⟩

/-- `hidd_le_gatt_db`: type and initial value of each attribute. -/
def hiddLeGattDb : HiddLeIdx → Attr
  | .svc => ⟨.priService, .bytes [0x12, 0x18]⟩
  | .inclSvc => ⟨.includeService, .inclSvc⟩
  | .hidInfoChar => charPropRead
  | .hidInfoVal => ⟨.hidInformation, .bytes [0x11, 0x01, 0x00, 0x01]⟩
  | .hidCtnlPtChar => charPropWriteNr
  | .hidCtnlPtVal => ⟨.hidControlPoint, .empty⟩
  | .reportMapChar => charPropRead
  | .reportMapVal => ⟨.hidReportMap, .bytes hidReportMap⟩
  | .reportMapExtRepRef => ⟨.extRptRefDescr, .batteryLevel⟩
  | .protoModeChar => charPropReadWrite
  | .protoModeVal => ⟨.hidProtoMode, .bytes [HID_PROTOCOL_MODE_REPORT]⟩
  | .reportMouseInChar => charPropReadNotify
  | .reportMouseInVal => ⟨.hidReport, .empty⟩
  | .reportMouseInCcc => ⟨.charClientConfig, .empty⟩
  | .reportMouseRepRef => hidReportRefMouseIn.attr
  | .reportKeyInChar => charPropReadNotify
  | .reportKeyInVal => ⟨.hidReport, .empty⟩
  | .reportKeyInCcc => ⟨.charClientConfig, .empty⟩
  | .reportKeyInRepRef => hidReportRefKeyIn.attr
  | .reportLedOutChar => charPropReadWriteWriteNr
  | .reportLedOutVal => ⟨.hidReport, .empty⟩
  | .reportLedOutRepRef => hidReportRefLedOut.attr
  | .reportCcInChar => charPropReadNotify
  | .reportCcInVal => ⟨.hidReport, .empty⟩
  | .reportCcInCcc => ⟨.charClientConfig, .empty⟩
  | .reportCcInRepRef => hidReportRefCcIn.attr
  | .bootKbInReportChar => charPropReadNotify
  | .bootKbInReportVal => ⟨.btKbInput, .empty⟩
  | .bootKbInReportNtfCfg => ⟨.charClientConfig, .empty⟩
  | .bootKbOutReportChar => charPropReadWrite
  | .bootKbOutReportVal => ⟨.btKbOutput, .empty⟩
  | .bootMouseInReportChar => charPropReadNotify
  | .bootMouseInReportVal => ⟨.btMouseInput, .empty⟩
  | .bootMouseInReportNtfCfg => ⟨.charClientConfig, .empty⟩
  | .reportChar => charPropReadWrite
  | .reportVal => ⟨.hidReport, .empty⟩
  | .reportRepRef => hidReportRefFeature.attr

/-! ## The report table -/

/-- `hid_report_map_t`. -/
structure HidReportMap where
  handle : UInt16 := 0
  cccdHandle : UInt16 := 0
  id : UInt8 := 0
  type : UInt8 := 0
  mode : UInt8 := 0
deriving DecidableEq, Repr

/-- A row of the table. -/
def ReportRef.row (r : ReportRef) (handle cccdHandle : UInt16) (mode : UInt8) : HidReportMap :=
  ⟨handle, cccdHandle, r.id, r.type, mode⟩

/-- The table that `hid_add_id_tbl` registers. Of its `HID_NUM_REPORTS` rows it leaves the
last one as it was. -/
def hidAddIdTbl (t : AttTbl) : List HidReportMap :=
  [ hidReportRefMouseIn.row (t.handle .reportMouseInVal) (t.handle .reportMouseInVal)
      HID_PROTOCOL_MODE_REPORT,
    hidReportRefKeyIn.row (t.handle .reportKeyInVal) (t.handle .reportKeyInCcc)
      HID_PROTOCOL_MODE_REPORT,
    hidReportRefCcIn.row (t.handle .reportCcInVal) (t.handle .reportCcInCcc)
      HID_PROTOCOL_MODE_REPORT,
    hidReportRefLedOut.row (t.handle .reportLedOutVal) 0 HID_PROTOCOL_MODE_REPORT,
    hidReportRefKeyIn.row (t.handle .bootKbInReportVal) 0 HID_PROTOCOL_MODE_BOOT,
    hidReportRefLedOut.row (t.handle .bootKbOutReportVal) 0 HID_PROTOCOL_MODE_BOOT,
    hidReportRefMouseIn.row (t.handle .bootMouseInReportVal) 0 HID_PROTOCOL_MODE_BOOT,
    hidReportRefFeature.row (t.handle .reportVal) 0 HID_PROTOCOL_MODE_REPORT,
    {} ]

/-- `hidProtocolMode`; nothing assigns it. -/
def hidProtocolMode : UInt8 := HID_PROTOCOL_MODE_REPORT

/-- `hid_dev_rpt_by_id`. -/
def hidDevRptById (tbl : List HidReportMap) (id type : UInt8) : Option HidReportMap :=
  tbl.find? fun rpt => rpt.id = id ∧ rpt.type = type ∧ rpt.mode = hidProtocolMode

/-! ## What a host finds -/

/-- The characteristics of a service: a declaration and what stands up to the next one. -/
def characteristics (is : List HiddLeIdx) : List (List HiddLeIdx) :=
  is.splitBy fun _ i => (hiddLeGattDb i).uuid ≠ .charDeclare

/-- The report that a characteristic says it is. -/
def reportReference (is : List HiddLeIdx) : Option (List UInt8) :=
  is.findSome? fun i =>
    match hiddLeGattDb i with
    | ⟨.rptRefDescr, .bytes ref⟩ => some ref
    | _ => none

/-- The characteristics that say so, with the attribute that holds their value, which comes
after the declaration. -/
def reportCharacteristics : List (List UInt8 × HiddLeIdx) :=
  (characteristics hiddLeIdxs).filterMap fun is => do
    let ref ← reportReference is
    let value ← is[1]?
    return (ref, value)

/-- The attribute that holds a report. -/
def hostReport (id type : UInt8) : Option HiddLeIdx :=
  (reportCharacteristics.find? fun p => p.1 = [id, type]).map Prod.snd

theorem reportCharacteristics_eq : reportCharacteristics =
    [([1, 1], .reportMouseInVal), ([2, 1], .reportKeyInVal), ([2, 2], .reportLedOutVal),
      ([3, 1], .reportCcInVal), ([0, 3], .reportVal)] := by
  decide +kernel

/-- The device sends a report from the attribute in which the host looks for it, and sends
none that the host does not know of, wherever the stack has put the attributes. -/
theorem hidDevRptById_host (t : AttTbl) (id type : UInt8) :
    (hidDevRptById (hidAddIdTbl t) id type).map HidReportMap.handle =
      (hostReport id type).map t.handle := by
  by_cases hmouse : id = 1 ∧ type = 1
  · rcases hmouse with ⟨rfl, rfl⟩
    rw [hostReport, reportCharacteristics_eq]
    rfl
  by_cases hkey : id = 2 ∧ type = 1
  · rcases hkey with ⟨rfl, rfl⟩
    rw [hostReport, reportCharacteristics_eq]
    rfl
  by_cases hcc : id = 3 ∧ type = 1
  · rcases hcc with ⟨rfl, rfl⟩
    rw [hostReport, reportCharacteristics_eq]
    rfl
  by_cases hled : id = 2 ∧ type = 2
  · rcases hled with ⟨rfl, rfl⟩
    rw [hostReport, reportCharacteristics_eq]
    rfl
  by_cases hfeature : id = 0 ∧ type = 3
  · rcases hfeature with ⟨rfl, rfl⟩
    rw [hostReport, reportCharacteristics_eq]
    rfl
  have hdevice : hidDevRptById (hidAddIdTbl t) id type = none := by
    rw [hidDevRptById, List.find?_eq_none]
    intro rpt hrpt hmatch
    simp only [decide_eq_true_eq] at hmatch
    rcases hmatch with ⟨rfl, rfl, hmode⟩
    simp only [hidAddIdTbl, List.mem_cons, List.not_mem_nil, or_false] at hrpt
    rcases hrpt with rfl | rfl | rfl | rfl | rfl | rfl | rfl | rfl | rfl
    · exact hmouse ⟨rfl, rfl⟩
    · exact hkey ⟨rfl, rfl⟩
    · exact hcc ⟨rfl, rfl⟩
    · exact hled ⟨rfl, rfl⟩
    -- the boot reports and the row that was left out are of the other mode
    · exact absurd hmode (by show (0 : UInt8) ≠ 1; decide)
    · exact absurd hmode (by show (0 : UInt8) ≠ 1; decide)
    · exact absurd hmode (by show (0 : UInt8) ≠ 1; decide)
    · exact hfeature ⟨rfl, rfl⟩
    · exact absurd hmode (by decide)
  have hhost : hostReport id type = none := by
    rw [hostReport, reportCharacteristics_eq, Option.map_eq_none_iff, List.find?_eq_none]
    intro p hp hmatch
    simp only [decide_eq_true_eq] at hmatch
    simp only [List.mem_cons, List.not_mem_nil, or_false] at hp
    rcases hp with rfl | rfl | rfl | rfl | rfl <;>
      simp only [List.cons.injEq, and_true] at hmatch
    · exact hmouse ⟨hmatch.1.symm, hmatch.2.symm⟩
    · exact hkey ⟨hmatch.1.symm, hmatch.2.symm⟩
    · exact hled ⟨hmatch.1.symm, hmatch.2.symm⟩
    · exact hcc ⟨hmatch.1.symm, hmatch.2.symm⟩
    · exact hfeature ⟨hmatch.1.symm, hmatch.2.symm⟩
  rw [hdevice, hhost]
  rfl

/-! ## Sending -/

/-- `esp_gatt_if_t`. -/
abbrev GattIf := UInt8

/-- A call of `esp_ble_gatts_send_indicate`. -/
structure Indicate where
  gattsIf : GattIf
  connId : UInt16
  handle : UInt16
  value : List UInt8
deriving DecidableEq, Repr

/-- `hid_dev_send_report`. -/
def hidDevSendReport (tbl : List HidReportMap) (gattsIf : GattIf) (connId : UInt16)
    (id type : UInt8) (data : List UInt8) : Option Indicate :=
  (hidDevRptById tbl id type).map fun rpt => ⟨gattsIf, connId, rpt.handle, data⟩

/-- A call of one of the functions that send a value. -/
inductive Send where
  /-- `esp_hidd_send_mouse_value` -/
  | mouse (connId : UInt16) (mouseButton : UInt8) (mickeysX mickeysY : Int8)
  /-- `esp_hidd_send_keyboard_value` -/
  | keyboard (connId : UInt16) (specialKeyMask : UInt8) (keyboardCmd : List UInt8)
  /-- `esp_hidd_send_consumer_value` -/
  | consumer (connId : UInt16) (keyCmd : UInt8) (keyPressed : Bool)
deriving DecidableEq, Repr

def Send.connId : Send → UInt16
  | .mouse connId _ _ _ => connId
  | .keyboard connId _ _ => connId
  | .consumer connId _ _ => connId

/-- The id of its report. -/
def Send.reportId : Send → UInt8
  | .mouse _ _ _ _ => HID_RPT_ID_MOUSE_IN
  | .keyboard _ _ _ => HID_RPT_ID_KEY_IN
  | .consumer _ _ _ => HID_RPT_ID_CC_IN

/-- Its report, if it makes one. -/
def Send.report : Send → Option (List UInt8)
  | .mouse _ mouseButton mickeysX mickeysY => some (mouseReport mouseButton mickeysX mickeysY)
  | .keyboard _ specialKeyMask keyboardCmd => keyboardReport specialKeyMask keyboardCmd
  | .consumer _ keyCmd keyPressed => some (consumerReport keyCmd keyPressed)

/-- What is sent for it. -/
def Send.run (tbl : List HidReportMap) (gattsIf : GattIf) (c : Send) : Option Indicate :=
  c.report.bind (hidDevSendReport tbl gattsIf c.connId c.reportId HID_REPORT_TYPE_INPUT)

/-- With a table made of handles, every report goes out, on the attribute where the host
looks for it. -/
theorem Send.run_hidAddIdTbl (t : AttTbl) (gattsIf : GattIf) (c : Send) :
    ∃ i, hostReport c.reportId HID_REPORT_TYPE_INPUT = some i ∧
      c.run (hidAddIdTbl t) gattsIf =
        c.report.map fun report => ⟨gattsIf, c.connId, t.handle i, report⟩ := by
  have hhost : ∃ i, hostReport c.reportId HID_REPORT_TYPE_INPUT = some i := by
    rw [← Option.isSome_iff_exists, hostReport, reportCharacteristics_eq]
    cases c <;> rfl
  rcases hhost with ⟨i, hi⟩
  refine ⟨i, hi, ?_⟩
  have hrow := hidDevRptById_host t c.reportId HID_REPORT_TYPE_INPUT
  rw [hi, Option.map_some, Option.map_eq_some_iff] at hrow
  rcases hrow with ⟨rpt, hrpt, hhandle⟩
  have hsend : ∀ report, hidDevSendReport (hidAddIdTbl t) gattsIf c.connId c.reportId
      HID_REPORT_TYPE_INPUT report = some ⟨gattsIf, c.connId, t.handle i, report⟩ := by
    intro report
    rw [hidDevSendReport, hrpt, Option.map_some, hhandle]
  unfold Send.run
  cases c.report with
  | none => rfl
  | some report => exact hsend report

/-- Nothing goes out without a table. -/
theorem Send.run_nil (gattsIf : GattIf) (c : Send) : c.run [] gattsIf = none := by
  unfold Send.run
  cases c.report with
  | none => rfl
  | some report => rfl

end Cse121.Hidd
