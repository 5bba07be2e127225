import Cse121.AirMouse.Gatt
import Cse121.Lib.Register
import Cse121.Lib.Transducer

/-! # The HID profile

`hid_device_le_prf.c` and `esp_hidd_prf_api.c`: the profile registers two applications with
the Bluetooth stack, creates the battery service and then the HID service, keeps a table of
connections, and tells the program what happens by a callback. `gatts_event_handler` lets
through only the events of the interface that was registered last.
-/

namespace Cse121.Hidd

/-! ## State -/

/-- The constants of the stack that the profile compares with. -/
def ESP_GATT_OK : UInt8 := 0
def ESP_GATT_IF_NONE : GattIf := 0xFF
def ESP_GATT_UUID_BATTERY_SERVICE_SVC : UInt16 := 0x180F

def HIDD_APP_ID : UInt16 := 0x1812
def BATTRAY_APP_ID : UInt16 := 0x180f
def HID_MAX_APPS : Nat := 1

/-- The number of attributes of the battery service. -/
def BAS_IDX_NB : Nat := 5

/-- `hidd_clcb_t`: a connection. -/
structure HiddClcb where
  inUse : Bool := false
  connId : UInt16 := 0
  connected : Bool := false
  remoteBda : List UInt8 := List.replicate 6 0
deriving DecidableEq, Repr

/-- `esp_gatts_incl_svc_desc_t`: the handles of the included service. -/
structure InclSvc where
  startHdl : UInt16 := 0
  endHdl : UInt16 := 0
deriving DecidableEq, Repr

/-- `hidd_le_env` and the other variables of the file. -/
structure HiddLeEnv where
  hiddClcb : List HiddClcb := List.replicate HID_MAX_APPS {}
  gattIf : GattIf := 0
  enabled : Bool := false
  attTbl : AttTbl := List.replicate HIDD_LE_IDX_NB 0
  /-- `hidd_cb` is not null -/
  hiddCb : Bool := false
  inclSvc : InclSvc := {}
  /-- what `hid_dev_rpt_tbl` points to -/
  hidDevRptTbl : List HidReportMap := []
deriving DecidableEq, Repr

/-! ## Events and calls -/

/-- `esp_gatts_cb_event_t`, with the parameters that are read. -/
inductive GattsEvent where
  | reg (status : UInt8) (appId : UInt16)
  | connect (connId : UInt16) (remoteBda : List UInt8)
  | disconnect (connId : UInt16)
  | write (connId handle : UInt16) (value : List UInt8)
  | creatAttrTab (status : UInt8) (svcUuid : UInt16) (handles : List UInt16)
  /-- an event that is not handled -/
  | other
deriving DecidableEq, Repr

/-- `esp_hidd_cb_event_t`, with its parameters. -/
inductive HiddEvent where
  | regFinish (state : UInt8)
  | batReg (gattsIf : GattIf)
  | bleConnect (connId : UInt16) (remoteBda : List UInt8)
  | bleDisconnect
  | bleLedReportWrite (connId : UInt16) (reportId : UInt8) (data : List UInt8)
deriving DecidableEq, Repr

/-- What the profile calls. -/
inductive Call where
  | configLocalIcon
  /-- the callback of the program -/
  | hiddCb (e : HiddEvent)
  /-- a call through a null pointer -/
  | null
  | appRegister (appId : UInt16)
  | createBasTab (gattsIf : GattIf)
  | createHiddTab (inclSvc : InclSvc) (gattsIf : GattIf)
  | startService (handle : UInt16)
  | setEncryption (remoteBda : List UInt8)
  | sendIndicate (i : Indicate)
deriving DecidableEq, Repr

/-! ## The profile -/

/-- `hidd_clcb_alloc`, over the array of connections. -/
def hiddClcbAlloc (connId : UInt16) (bda : List UInt8) : List HiddClcb → List HiddClcb
  | [] => []
  | p :: ps =>
      if p.inUse then p :: hiddClcbAlloc connId bda ps
      else { inUse := true, connId := connId, connected := true, remoteBda := bda } :: ps

/-- `hidd_clcb_dealloc`, over the array of connections. It looks at no connection id. -/
def hiddClcbDealloc (_connId : UInt16) : List HiddClcb → List HiddClcb × Bool
  | [] => ([], false)
  | _ :: ps => ({} :: ps, true)

/-- A call of the callback that is made only if there is one. -/
def HiddLeEnv.callback (s : HiddLeEnv) (e : HiddEvent) : List Call :=
  if s.hiddCb then [.hiddCb e] else []

/-- `ESP_GATTS_CREAT_ATTR_TAB_EVT` in `esp_hidd_prf_cb_hdl`. -/
def creatAttrTabEvt (s : HiddLeEnv) (status : UInt8) (svcUuid : UInt16)
    (handles : List UInt16) (gattsIf : GattIf) : HiddLeEnv × List Call :=
  let battery := handles.length = BAS_IDX_NB ∧ svcUuid = ESP_GATT_UUID_BATTERY_SERVICE_SVC ∧
    status = ESP_GATT_OK
  let start := handles.getD 0 0
  let incl : InclSvc := ⟨start, start + 4⟩
  let s := if battery then { s with inclSvc := incl } else s
  let calls := if battery then [Call.createHiddTab incl gattsIf] else []
  if handles.length = HIDD_LE_IDX_NB ∧ status = ESP_GATT_OK then
    ({ s with attTbl := handles, hidDevRptTbl := hidAddIdTbl handles },
      calls ++ [.startService (AttTbl.handle handles .svc)])
  else (s, calls ++ [.startService start])

/-- `esp_hidd_prf_cb_hdl`. -/
def espHiddPrfCbHdl (s : HiddLeEnv) (e : GattsEvent) (gattsIf : GattIf) :
    HiddLeEnv × List Call :=
  match e with
  | .reg status appId =>
      let hidd := appId = HIDD_APP_ID
      let s := if hidd then { s with gattIf := gattsIf } else s
      (s, .configLocalIcon ::
        (if hidd ∧ s.hiddCb then [.hiddCb (.regFinish status), .createBasTab s.gattIf] else []) ++
        if appId = BATTRAY_APP_ID then s.callback (.batReg gattsIf) else [])
  | .connect connId remoteBda =>
      ({ s with hiddClcb := hiddClcbAlloc connId remoteBda s.hiddClcb },
        .setEncryption remoteBda :: s.callback (.bleConnect connId remoteBda))
  | .disconnect connId =>
      ({ s with hiddClcb := (hiddClcbDealloc connId s.hiddClcb).1 },
        s.callback .bleDisconnect)
  | .write connId handle value =>
      (s, if handle = s.attTbl.handle .reportLedOutVal then
          [if s.hiddCb then .hiddCb (.bleLedReportWrite connId HID_RPT_ID_LED_OUT value)
            else .null]
        else [])
  | .creatAttrTab status svcUuid handles => creatAttrTabEvt s status svcUuid handles gattsIf
  | .other => (s, [])

/-- `gatts_event_handler`: the interface it stores, and whether the profile is called. -/
def gattsEventHandler (tabIf : GattIf) (e : GattsEvent) (gattsIf : GattIf) : GattIf × Bool :=
  match e with
  | .reg status _ =>
      if status = ESP_GATT_OK then (gattsIf, true) else (tabIf, false)
  | _ => (tabIf, gattsIf = ESP_GATT_IF_NONE ∨ gattsIf = tabIf)

/-- What the profile reacts to. -/
inductive Input where
  | gatts (e : GattsEvent) (gattsIf : GattIf)
  | send (c : Send)
deriving DecidableEq, Repr

/-- The inputs that `gatts_event_handler` lets through. -/
def gate : Transducer GattIf Input Input where
  step tabIf
    | .gatts e gattsIf =>
        let r := gattsEventHandler tabIf e gattsIf
        (r.1, if r.2 then [.gatts e gattsIf] else [])
    | .send c => (tabIf, [.send c])

/-- The profile behind it. -/
def profile : Transducer HiddLeEnv Input Call where
  step s
    | .gatts e gattsIf => espHiddPrfCbHdl s e gattsIf
    | .send c => (s, (c.run s.hidDevRptTbl s.gattIf).toList.map .sendIndicate)

/-- Both together. -/
def hidd : Transducer (GattIf × HiddLeEnv) Input Call := gate.cascade profile

/-! ## Starting -/

/-- `esp_hidd_profile_init`. -/
def espHiddProfileInit (s : HiddLeEnv) : HiddLeEnv × Bool :=
  if s.enabled then (s, false)
  else ({ inclSvc := s.inclSvc, hidDevRptTbl := s.hidDevRptTbl, enabled := true }, true)

/-- `esp_hidd_register_callbacks`, with what the stack answers to the registration of the
handler and of the HID application. -/
def espHiddRegisterCallbacks (callbacks registerCb appRegister : Bool) (s : HiddLeEnv) :
    HiddLeEnv × List Call × Bool :=
  if callbacks then
    let s := { s with hiddCb := true }
    if registerCb then
      (s, [.appRegister BATTRAY_APP_ID, .appRegister HIDD_APP_ID], appRegister)
    else (s, [], false)
  else (s, [], false)

/-- The profile as `app_main` starts it: the stack knows the handler from here on. -/
def started : GattIf × HiddLeEnv :=
  (ESP_GATT_IF_NONE, (espHiddRegisterCallbacks true true true (espHiddProfileInit {}).1).1)

/-! ## What the state says about the past -/

/-- The handles of a HID table that the stack has created. -/
def tableWrite : Input → Option (Option AttTbl)
  | .gatts (.creatAttrTab status _ handles) _ =>
      if handles.length = HIDD_LE_IDX_NB ∧ status = ESP_GATT_OK then some (some handles)
      else none
  | _ => none

/-- The interface of the HID application. -/
def ifWrite : Input → Option GattIf
  | .gatts (.reg _ appId) gattsIf => if appId = HIDD_APP_ID then some gattsIf else none
  | _ => none

/-- The HID table that was created last. -/
def lastTable (is : List Input) : Option AttTbl := Register.after tableWrite none is

/-- The interface that was registered last for the HID application. -/
def lastIf (is : List Input) : GattIf := Register.after ifWrite 0 is

/-- What an input does to the connections. -/
def clcbStep (clcb : List HiddClcb) : Input → List HiddClcb
  | .gatts (.connect connId remoteBda) _ => hiddClcbAlloc connId remoteBda clcb
  | .gatts (.disconnect connId) _ => (hiddClcbDealloc connId clcb).1
  | _ => clcb

/-- What a step does to the state. -/
theorem profile_step (s : HiddLeEnv) (i : Input) :
    ∃ incl, (profile.step s i).1 = { s with
      hiddClcb := clcbStep s.hiddClcb i
      gattIf := (ifWrite i).getD s.gattIf
      inclSvc := incl
      attTbl := ((tableWrite i).map fun t => t.getD []).getD s.attTbl
      hidDevRptTbl := ((tableWrite i).map fun t => t.elim [] hidAddIdTbl).getD
        s.hidDevRptTbl } := by
  cases i with
  | send c => exact ⟨s.inclSvc, rfl⟩
  | gatts e gattsIf =>
      cases e with
      | reg status appId =>
          refine ⟨s.inclSvc, ?_⟩
          show (espHiddPrfCbHdl s (.reg status appId) gattsIf).1 = _
          simp only [espHiddPrfCbHdl, ifWrite]
          split <;> rfl
      | creatAttrTab status svcUuid handles =>
          refine ⟨(creatAttrTabEvt s status svcUuid handles gattsIf).1.inclSvc, ?_⟩
          show (creatAttrTabEvt s status svcUuid handles gattsIf).1 = _
          simp only [creatAttrTabEvt, tableWrite]
          split <;> split <;> rfl
      | _ => exact ⟨s.inclSvc, rfl⟩

/-- The report table is that of the handles that came last. -/
theorem profile_rptTbl (s : HiddLeEnv) (hs : s.hidDevRptTbl = []) (is : List Input) :
    (profile.state s is).hidDevRptTbl = (lastTable is).elim [] hidAddIdTbl := by
  rw [Register.after_state profile HiddLeEnv.hidDevRptTbl
    (fun i => (tableWrite i).map fun t => t.elim [] hidAddIdTbl) ?_ s is, hs]
  · exact Register.after_map (fun t => t.elim [] hidAddIdTbl) (fun _ => rfl) none is
  · intro s i
    rcases profile_step s i with ⟨incl, hstep⟩
    rw [hstep]

theorem profile_gattIf (s : HiddLeEnv) (hs : s.gattIf = 0) (is : List Input) :
    (profile.state s is).gattIf = lastIf is := by
  rw [Register.after_state profile HiddLeEnv.gattIf ifWrite ?_ s is, hs]
  · rfl
  · intro s i
    rcases profile_step s i with ⟨incl, hstep⟩
    rw [hstep]

theorem profile_hiddCb (s : HiddLeEnv) (is : List Input) :
    (profile.state s is).hiddCb = s.hiddCb := by
  induction is generalizing s with
  | nil => rfl
  | cons i is ih =>
      rcases profile_step s i with ⟨incl, hstep⟩
      rw [Transducer.state_cons, ih, hstep]

/-! ## What is sent -/

/-- The inputs that have come through `gatts_event_handler`. -/
def handled (is : List Input) : List Input := gate.out ESP_GATT_IF_NONE is

theorem hidd_state (is : List Input) : hidd.state started is =
    (gate.state ESP_GATT_IF_NONE is, profile.state started.2 (handled is)) :=
  (Transducer.cascade_run gate profile ESP_GATT_IF_NONE started.2 is).1

/-- Whatever the stack has reported before, in whatever order: a value is sent to the
attribute where the host looks for its report, in the HID table that was created last, on
the interface that was registered last; and nothing is sent before there is a table. -/
theorem hidd_send (is : List Input) (c : Send) :
    ∃ i, hostReport c.reportId HID_REPORT_TYPE_INPUT = some i ∧
      (hidd.step (hidd.state started is) (.send c)).2 =
        match lastTable (handled is), c.report with
        | some t, some report =>
            [.sendIndicate ⟨lastIf (handled is), c.connId, t.handle i, report⟩]
        | _, _ => [] := by
  rw [hidd_state]
  have htbl := profile_rptTbl started.2 rfl (handled is)
  have hif := profile_gattIf started.2 rfl (handled is)
  generalize profile.state started.2 (handled is) = s at htbl hif
  have hsend : ∀ tabIf, (hidd.step (tabIf, s) (.send c)).2 =
      (c.run s.hidDevRptTbl s.gattIf).toList.map .sendIndicate := by
    intro tabIf
    show _ ++ [] = _
    rw [List.append_nil]
    rfl
  rw [hsend, htbl, hif]
  rcases (Send.run_hidAddIdTbl [] 0 c) with ⟨i, hi, -⟩
  refine ⟨i, hi, ?_⟩
  cases lastTable (handled is) with
  | none =>
      rw [Option.elim_none, Send.run_nil]
      rfl
  | some t =>
      rcases Send.run_hidAddIdTbl t (lastIf (handled is)) c with ⟨j, hj, hrun⟩
      obtain rfl : i = j := Option.some.inj (hi.symm.trans hj)
      rw [Option.elim_some, hrun]
      cases c.report <;> rfl

/-- What an event that comes through makes the profile call. -/
theorem hidd_gatts (tabIf : GattIf) (s : HiddLeEnv) (e : GattsEvent) (gattsIf : GattIf) :
    hidd.step (tabIf, s) (.gatts e gattsIf) =
      if (gattsEventHandler tabIf e gattsIf).2 then
        (((gattsEventHandler tabIf e gattsIf).1, (espHiddPrfCbHdl s e gattsIf).1),
          (espHiddPrfCbHdl s e gattsIf).2)
      else (((gattsEventHandler tabIf e gattsIf).1, s), []) := by
  by_cases h : (gattsEventHandler tabIf e gattsIf).2
  · rw [if_pos h]
    simp only [hidd, Transducer.cascade, gate, h, if_true, Transducer.state_cons,
      Transducer.state_nil, Transducer.out_cons, Transducer.out_nil, List.append_nil, profile]
  · rw [if_neg h]
    simp [hidd, Transducer.cascade, gate, h]

/-- No event sends a value, and with a callback none calls through a null pointer. -/
theorem prf_calls (s : HiddLeEnv) (e : GattsEvent) (gattsIf : GattIf) :
    ∀ c ∈ (espHiddPrfCbHdl s e gattsIf).2,
      (s.hiddCb = true → c ≠ .null) ∧ ∀ x, c ≠ .sendIndicate x := by
  cases e with
  | reg status appId =>
      intro c hc
      simp only [espHiddPrfCbHdl, HiddLeEnv.callback, List.cons_append, List.mem_cons,
        List.mem_append, List.mem_ite_nil_right, List.not_mem_nil, or_false] at hc
      rcases hc with rfl | ⟨-, rfl | rfl⟩ | ⟨-, -, rfl⟩ <;> simp
  | connect connId remoteBda => simp [espHiddPrfCbHdl, HiddLeEnv.callback]
  | disconnect connId => simp [espHiddPrfCbHdl, HiddLeEnv.callback]
  | write connId handle value =>
      by_cases hcb : s.hiddCb = true <;> simp [espHiddPrfCbHdl, hcb]
  | creatAttrTab status svcUuid handles =>
      simp only [espHiddPrfCbHdl, creatAttrTabEvt]
      split <;> split <;> simp
  | other => simp [espHiddPrfCbHdl]

/-- An event never calls a callback that is not there, and sends no value. -/
theorem hidd_gatts_calls (is : List Input) (e : GattsEvent) (gattsIf : GattIf) :
    ∀ c ∈ (hidd.step (hidd.state started is) (.gatts e gattsIf)).2,
      c ≠ .null ∧ ∀ x, c ≠ .sendIndicate x := by
  rw [hidd_state, hidd_gatts]
  have hcb := profile_hiddCb started.2 (handled is)
  generalize profile.state started.2 (handled is) = s at hcb
  intro c hc
  split at hc
  · have hcall := prf_calls s e gattsIf c hc
    exact ⟨hcall.1 hcb, hcall.2⟩
  · simp at hc

end Cse121.Hidd
