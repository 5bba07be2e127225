import Cse121.AirMouse.Pointer
import Cse121.AirMouse.Setup

/-! # How hosts come and go

`lab4_2.c` and `lab4_3.c` are found by a host while they advertise. They start to advertise
when their data is set and whenever a host has gone; that they stop is up to the controller,
which does so when a host connects. The stack reports a connection on the interface of every
application that is registered, and the profile hears of it on one of them.
-/

namespace Cse121.Hidd

open Cse121.Lab43

/-! ## The GAP functions -/

def ESP_HIDD_INIT_OK : UInt8 := 0

/-- `esp_gap_ble_cb_event_t`, with the parameters that are read. -/
inductive GapEvent where
  | advDataSetComplete
  | secReq (bdAddr : List UInt8)
  | authCmpl
  /-- an event that is not handled -/
  | other
deriving DecidableEq, Repr

/-- What the programs call of the GAP. -/
inductive GapCall where
  | setDeviceName
  | configAdvData
  | startAdvertising
  | securityRsp (bdAddr : List UInt8) (accept : Bool)
deriving DecidableEq, Repr

/-- `gap_event_handler`, the same in both programs. -/
def gapEventHandler : GapEvent → List GapCall
  | .advDataSetComplete => [.startAdvertising]
  | .secReq bdAddr => [.securityRsp bdAddr true]
  | .authCmpl => []
  | .other => []

/-- The calls of `hidd_event_callback`, the same in both programs. -/
def callbackCalls : HiddEvent → List GapCall
  | .regFinish state => if state = ESP_HIDD_INIT_OK then [.setDeviceName, .configAdvData] else []
  | .bleDisconnect => [.startAdvertising]
  | .batReg _ | .bleConnect _ _ | .bleLedReportWrite _ _ _ => []

/-! ## Programs on top of the profile -/

/-- A program with a callback and a task. It keeps the connection, and what its task sends
goes by `send_mouse_move`. -/
structure Program (σ τ : Type) where
  start : σ
  connected : σ → Bool
  hidConnId : σ → UInt16
  callback : Int → HiddEvent → σ → σ
  task : τ → σ → σ × List Report
  connected_start : connected start = false
  callback_connect : ∀ t connId bda s,
    connected (callback t (.bleConnect connId bda) s) = true ∧
      hidConnId (callback t (.bleConnect connId bda) s) = connId
  callback_disconnect : ∀ t s, connected (callback t .bleDisconnect s) = false
  callback_other : ∀ t e s, (∀ connId bda, e ≠ .bleConnect connId bda) → e ≠ .bleDisconnect →
    callback t e s = s
  task_link : ∀ i s, connected (task i s).1 = connected s ∧ hidConnId (task i s).1 = hidConnId s
  task_sends : ∀ i s, ∀ r ∈ (task i s).2, connected s = true ∧ r.connId = hidConnId s

/-- What `hidd_event_callback` of `lab4_3.c` sees. -/
def callbackEvent (timerUs : Int) : HiddEvent → Event
  | .bleConnect connId _ => .connect timerUs connId
  | .bleDisconnect => .disconnect timerUs
  | _ => .other timerUs

/-- `lab4_3.c`. A turn of its task has filtered tilts and two readings of the clock, or could
not read the sensor. -/
def lab43 : Program AirMouse (Option (ℚ × ℚ × Int × Int)) where
  start := {}
  connected s := s.connected
  hidConnId s := s.hidConnId
  callback t e s := (airMouse.step s (callbackEvent t e)).1
  task
    | some (fx, fy, tx, ty), s => moveMouse s fx fy tx ty
    | none, s => (s, [])
  connected_start := rfl
  callback_connect _ _ _ _ := ⟨rfl, rfl⟩
  callback_disconnect _ _ := rfl
  callback_other := by
    intro t e s hconn hdis
    cases e with
    | bleConnect connId bda => exact absurd rfl (hconn connId bda)
    | bleDisconnect => exact absurd rfl hdis
    | _ => rfl
  task_link := by
    intro i s
    cases i <;> exact ⟨rfl, rfl⟩
  task_sends := by
    intro i s r hr
    cases i with
    | none => simp at hr
    | some i =>
        simp only [moveMouse, sendMouseMove] at hr
        split at hr
        · rename_i hmove
          rw [if_pos hmove.1, List.mem_singleton] at hr
          exact ⟨hmove.1, hr ▸ rfl⟩
        · simp at hr

/-! ## The whole -/

/-- The device, its stack and its controller. -/
structure Ble (σ : Type) where
  dev : GattIf × HiddLeEnv
  app : σ
  /-- the requests of the profile that are not answered -/
  pending : List Call
  /-- the interfaces of the applications that are registered -/
  ifs : List GattIf
  /-- how often the data was set and that is not answered -/
  advData : Nat
  advertising : Bool
  /-- the hosts that are connected -/
  hosts : List UInt16

/-- What happens. Where advertising may be started, `ok` tells whether it then starts. -/
inductive BleInput (τ : Type) where
  /-- the stack answers the oldest request -/
  | answer (a : Answer) (timerUs : Int)
  /-- the stack calls `gap_event_handler` -/
  | gap (e : GapEvent) (ok : Bool)
  | connect (connId : UInt16) (bda : List UInt8) (timerUs : Int)
  | disconnect (connId : UInt16) (timerUs : Int) (ok : Bool)
  /-- a host does something else -/
  | host (e : GattsEvent) (gattsIf : GattIf) (timerUs : Int)
  /-- a turn of the task -/
  | task (i : τ)

/-- Advertising is not refused. -/
def BleInput.ok {τ : Type} : BleInput τ → Bool
  | .gap _ ok => ok
  | .disconnect _ _ ok => ok
  | _ => true

inductive BleCall where
  | gatts (c : Call)
  | gap (c : GapCall)
deriving DecidableEq, Repr

/-- A call of the callback. -/
def Call.hiddEvent : Call → Option HiddEvent
  | .hiddCb e => some e
  | _ => none

/-- An event of a host that is no connection and no disconnection. -/
def GattsEvent.isOther : GattsEvent → Bool
  | .write _ _ _ => true
  | .other => true
  | _ => false

section Whole

variable {σ τ : Type} (P : Program σ τ)

/-- Calls of the GAP. -/
def Ble.gapCalls (s : Ble σ) (ok : Bool) (cs : List GapCall) : Ble σ :=
  { s with
    advData := s.advData + cs.count .configAdvData
    advertising := if .startAdvertising ∈ cs then ok else s.advertising }

/-- The stack calls `gatts_event_handler`. -/
def Program.gatts (ok : Bool) (timerUs : Int) (s : Ble σ) (e : GattsEvent) (gattsIf : GattIf) :
    Ble σ × List BleCall :=
  let r := hidd.step s.dev (.gatts e gattsIf)
  let told := r.2.filterMap Call.hiddEvent
  let calls := told.flatMap callbackCalls
  let s := { s with
    dev := r.1
    app := told.foldl (fun app e => P.callback timerUs e app) s.app
    pending := s.pending ++ r.2.filter Call.isRequest }
  (s.gapCalls ok calls, r.2.map .gatts ++ calls.map .gap)

/-- An event is reported on one interface after another. -/
def Program.report (ok : Bool) (timerUs : Int) (e : GattsEvent) :
    List GattIf → Ble σ → Ble σ × List BleCall
  | [], s => (s, [])
  | gattsIf :: ifs, s =>
    let r := P.gatts ok timerUs s e gattsIf
    let r' := report ok timerUs e ifs r.1
    (r'.1, r.2 ++ r'.2)

/-- An answer of the stack. An application gets an interface of its own. -/
def Program.answer (timerUs : Int) (s : Ble σ) (a : Answer) : Ble σ × List BleCall :=
  match s.pending with
  | [] => (s, [])
  | request :: pending =>
    let s' := { s with pending := pending }
    let e := a.event request
    match request with
    | .appRegister _ =>
      if a.gattsIf = ESP_GATT_IF_NONE ∨ a.gattsIf ∈ s.ifs then (s, [])
      else P.gatts true timerUs { s' with ifs := s.ifs ++ [a.gattsIf] } e.1 e.2
    | _ => P.gatts true timerUs s' e.1 e.2

/-- A host can connect while the device advertises, which then ends. -/
def Program.ble : Transducer (Ble σ) (BleInput τ) BleCall where
  step s
    | .answer a timerUs => P.answer timerUs s a
    | .gap e ok =>
        let calls := gapEventHandler e
        match e, s.advData with
        | .advDataSetComplete, 0 => (s, [])
        | .advDataSetComplete, n + 1 =>
          (({ s with advData := n } : Ble σ).gapCalls ok calls, calls.map .gap)
        | _, _ => (s.gapCalls ok calls, calls.map .gap)
    | .connect connId bda timerUs =>
        if s.advertising ∧ connId ∉ s.hosts then
          P.report true timerUs (.connect connId bda) s.ifs
            { s with advertising := false, hosts := connId :: s.hosts }
        else (s, [])
    | .disconnect connId timerUs ok =>
        if connId ∈ s.hosts then
          P.report ok timerUs (.disconnect connId) s.ifs { s with hosts := s.hosts.erase connId }
        else (s, [])
    | .host e gattsIf timerUs =>
        if e.isOther then P.gatts true timerUs s e gattsIf else (s, [])
    | .task i =>
        let r := P.task i s.app
        let sends := r.2.map fun report => Input.send (sendOf report)
        ({ s with dev := hidd.state s.dev sends, app := r.1 },
          (hidd.out s.dev sends).map .gatts)

/-- The program starts. -/
def Program.boot : Ble σ where
  dev := started
  app := P.start
  pending := registration
  ifs := []
  advData := 0
  advertising := false
  hosts := []

/-! ## Events on the interfaces -/

@[simp] theorem gapCalls_nil (s : Ble σ) (ok : Bool) : s.gapCalls ok [] = s := by
  simp [Ble.gapCalls]

/-- The gate lets an event of a host through on the interface of the profile. -/
theorem gate_link (tabIf : GattIf) {e : GattsEvent} (he : e.isLink = true) (gattsIf : GattIf) :
    gattsEventHandler tabIf e gattsIf =
      (tabIf, decide (gattsIf = ESP_GATT_IF_NONE ∨ gattsIf = tabIf)) := by
  cases e with
  | reg status appId => simp [GattsEvent.isLink] at he
  | _ => rfl

/-- On another interface nothing happens. -/
theorem gatts_elsewhere (ok : Bool) (t : Int) (s : Ble σ) {e : GattsEvent} (he : e.isLink = true)
    {gattsIf : GattIf} (hnone : gattsIf ≠ ESP_GATT_IF_NONE) (hother : gattsIf ≠ s.dev.1) :
    P.gatts ok t s e gattsIf = (s, []) := by
  rcases s with ⟨⟨tabIf, env⟩, app, pending, ifs, advData, advertising, hosts⟩
  have hclosed : gattsEventHandler tabIf e gattsIf = (tabIf, false) := by
    rw [gate_link tabIf he, decide_eq_false (not_or.2 ⟨hnone, hother⟩)]
  simp [Program.gatts, hidd_gatts, hclosed]

theorem report_elsewhere (ok : Bool) (t : Int) (s : Ble σ) {e : GattsEvent}
    (he : e.isLink = true) {ifs : List GattIf} (hnone : ESP_GATT_IF_NONE ∉ ifs)
    (hother : s.dev.1 ∉ ifs) : P.report ok t e ifs s = (s, []) := by
  induction ifs with
  | nil => rfl
  | cons gattsIf ifs ih =>
      rw [List.mem_cons, not_or] at hnone hother
      have hfirst := gatts_elsewhere P ok t s he (Ne.symm hnone.1) (Ne.symm hother.1)
      simp only [Program.report, hfirst, ih hnone.2 hother.2, List.append_nil]

/-- What an event of a host does to the gate. -/
theorem gatts_gate (ok : Bool) (t : Int) (s : Ble σ) {e : GattsEvent} (he : e.isLink = true)
    (gattsIf : GattIf) : (P.gatts ok t s e gattsIf).1.dev.1 = s.dev.1 := by
  rcases s with ⟨⟨tabIf, env⟩, app, pending, ifs, advData, advertising, hosts⟩
  simp only [Program.gatts, Ble.gapCalls, hidd_gatts, gate_link tabIf he]
  split <;> rfl

/-- The profile hears of an event of a host once. -/
theorem report_once (ok : Bool) (t : Int) (s : Ble σ) {e : GattsEvent} (he : e.isLink = true)
    {ifs : List GattIf} (hnodup : ifs.Nodup) (hnone : ESP_GATT_IF_NONE ∉ ifs)
    (hown : s.dev.1 ∈ ifs) : P.report ok t e ifs s = P.gatts ok t s e s.dev.1 := by
  induction ifs with
  | nil => simp at hown
  | cons gattsIf ifs ih =>
      rw [List.mem_cons, not_or] at hnone
      rw [List.nodup_cons] at hnodup
      by_cases hif : gattsIf = s.dev.1
      · subst hif
        have hgate := gatts_gate P ok t s he s.dev.1
        have hrest := report_elsewhere P ok t (P.gatts ok t s e s.dev.1).1 he hnone.2
          (hgate.symm ▸ hnodup.1)
        simp only [Program.report, hrest, List.append_nil]
      · have hfirst := gatts_elsewhere P ok t s he (Ne.symm hnone.1) hif
        have hrest : s.dev.1 ∈ ifs := (List.mem_cons.1 hown).resolve_left (Ne.symm hif)
        simp only [Program.report, hfirst, ih hnodup.2 hnone.2 hrest, List.nil_append]

/-! ## What an event does -/

/-- The callbacks of an event that comes through. -/
def told (s : HiddLeEnv) (e : GattsEvent) (gattsIf : GattIf) : List HiddEvent :=
  (espHiddPrfCbHdl s e gattsIf).2.filterMap Call.hiddEvent

theorem gatts_through (ok : Bool) (t : Int) (s : Ble σ) (e : GattsEvent) (gattsIf : GattIf) :
    P.gatts ok t s e gattsIf =
      if (gattsEventHandler s.dev.1 e gattsIf).2 then
        (({ s with
            dev := ((gattsEventHandler s.dev.1 e gattsIf).1, (espHiddPrfCbHdl s.dev.2 e gattsIf).1)
            app := (told s.dev.2 e gattsIf).foldl (fun app e => P.callback t e app) s.app
            pending := s.pending ++ (espHiddPrfCbHdl s.dev.2 e gattsIf).2.filter Call.isRequest
          } : Ble σ).gapCalls ok ((told s.dev.2 e gattsIf).flatMap callbackCalls),
          (espHiddPrfCbHdl s.dev.2 e gattsIf).2.map .gatts ++
            ((told s.dev.2 e gattsIf).flatMap callbackCalls).map .gap)
      else ({ s with dev := ((gattsEventHandler s.dev.1 e gattsIf).1, s.dev.2) }, []) := by
  rcases s with ⟨⟨tabIf, env⟩, app, pending, ifs, advData, advertising, hosts⟩
  simp only [Program.gatts, hidd_gatts, told]
  split <;> simp

/-- Other events than of the connection tell the program nothing of it. -/
theorem told_quiet (s : HiddLeEnv) {e : GattsEvent} (hconn : ∀ connId bda, e ≠ .connect connId bda)
    (hdis : ∀ connId, e ≠ .disconnect connId) (gattsIf : GattIf) :
    ∀ ev ∈ told s e gattsIf,
      (∀ connId bda, ev ≠ .bleConnect connId bda) ∧ ev ≠ .bleDisconnect := by
  intro ev hev
  rcases List.mem_filterMap.1 hev with ⟨c, hc, hev⟩
  cases e with
  | connect connId bda => exact absurd rfl (hconn connId bda)
  | disconnect connId => exact absurd rfl (hdis connId)
  | reg status appId =>
      simp only [espHiddPrfCbHdl, HiddLeEnv.callback, List.cons_append, List.mem_cons,
        List.mem_append, List.mem_ite_nil_right, List.not_mem_nil, or_false] at hc
      rcases hc with rfl | ⟨-, rfl | rfl⟩ | ⟨-, -, rfl⟩ <;>
        simp only [Call.hiddEvent, Option.some.injEq, reduceCtorEq] at hev <;> subst hev <;> simp
  | write connId handle value =>
      simp only [espHiddPrfCbHdl, List.mem_ite_nil_right, List.mem_singleton] at hc
      rcases hc with ⟨-, rfl⟩
      split at hev <;> simp only [Call.hiddEvent, Option.some.injEq, reduceCtorEq] at hev
      subst hev
      simp
  | creatAttrTab status svcUuid handles =>
      simp only [espHiddPrfCbHdl, creatAttrTabEvt] at hc
      split at hc <;> split at hc <;>
        simp only [List.nil_append, List.cons_append, List.mem_cons, List.not_mem_nil,
          or_false] at hc <;>
        rcases hc with rfl | rfl <;> simp [Call.hiddEvent] at hev
  | other => simp [espHiddPrfCbHdl] at hc

/-- Then the program stays as it is. -/
theorem foldl_quiet (t : Int) {evs : List HiddEvent}
    (h : ∀ ev ∈ evs, (∀ connId bda, ev ≠ .bleConnect connId bda) ∧ ev ≠ .bleDisconnect) (app : σ) :
    evs.foldl (fun app e => P.callback t e app) app = app := by
  induction evs generalizing app with
  | nil => rfl
  | cons ev evs ih =>
      have hev := h ev List.mem_cons_self
      rw [List.foldl_cons, P.callback_other t ev app hev.1 hev.2]
      exact ih (fun x hx => h x (List.mem_cons_of_mem ev hx)) app

/-- Only a disconnection makes the callback start the advertising. -/
theorem start_mem {evs : List HiddEvent}
    (h : GapCall.startAdvertising ∈ evs.flatMap callbackCalls) : .bleDisconnect ∈ evs := by
  rcases List.mem_flatMap.1 h with ⟨ev, hev, hcall⟩
  cases ev with
  | bleDisconnect => exact hev
  | regFinish state =>
      simp only [callbackCalls] at hcall
      split at hcall <;> simp at hcall
  | _ => simp [callbackCalls] at hcall

/-- What an event that is no connection and no disconnection leaves. -/
theorem gatts_quiet (ok : Bool) (t : Int) (s : Ble σ) {e : GattsEvent}
    (hconn : ∀ connId bda, e ≠ .connect connId bda) (hdis : ∀ connId, e ≠ .disconnect connId)
    (gattsIf : GattIf) :
    let r := P.gatts ok t s e gattsIf
    r.1.app = s.app ∧ r.1.advertising = s.advertising ∧
      r.1.dev.2.hiddClcb = s.dev.2.hiddClcb ∧ .gap .startAdvertising ∉ r.2 := by
  have hquiet := told_quiet s.dev.2 hconn hdis gattsIf
  have hstart : .startAdvertising ∉ (told s.dev.2 e gattsIf).flatMap callbackCalls := by
    intro h
    exact (hquiet _ (start_mem h)).2 rfl
  have hclcb : (espHiddPrfCbHdl s.dev.2 e gattsIf).1.hiddClcb = s.dev.2.hiddClcb := by
    rcases profile_step s.dev.2 (.gatts e gattsIf) with ⟨incl, hstep⟩
    refine (congrArg HiddLeEnv.hiddClcb hstep).trans ?_
    cases e with
    | connect connId bda => exact absurd rfl (hconn connId bda)
    | disconnect connId => exact absurd rfl (hdis connId)
    | _ => rfl
  rw [gatts_through]
  split
  · refine ⟨foldl_quiet P t hquiet s.app, if_neg hstart, hclcb, ?_⟩
    simp only [List.mem_append, List.mem_map, BleCall.gap.injEq, exists_eq_right,
      reduceCtorEq, and_false, exists_false, false_or]
    exact hstart
  · exact ⟨rfl, rfl, rfl, List.not_mem_nil⟩

/-- No event sends a value. -/
theorem gatts_sends (ok : Bool) (t : Int) (s : Ble σ) (e : GattsEvent) (gattsIf : GattIf)
    (x : Indicate) : .gatts (.sendIndicate x) ∉ (P.gatts ok t s e gattsIf).2 := by
  rw [gatts_through]
  split
  · intro h
    simp only [List.mem_append, List.mem_map, BleCall.gatts.injEq, exists_eq_right,
      reduceCtorEq, and_false, exists_false, or_false] at h
    exact (prf_calls s.dev.2 e gattsIf _ h).2 x rfl
  · simp

/-- A host connects. -/
theorem gatts_connect (ok : Bool) (t : Int) (s : Ble σ) (hcb : s.dev.2.hiddCb = true)
    (connId : UInt16) (bda : List UInt8) :
    P.gatts ok t s (.connect connId bda) s.dev.1 =
      ({ s with
          dev := (s.dev.1, { s.dev.2 with
            hiddClcb := hiddClcbAlloc connId bda s.dev.2.hiddClcb })
          app := P.callback t (.bleConnect connId bda) s.app },
        [.gatts (.setEncryption bda), .gatts (.hiddCb (.bleConnect connId bda))]) := by
  have hcalls : ∀ ev, s.dev.2.callback ev = [.hiddCb ev] := fun ev => if_pos hcb
  simp [gatts_through, gattsEventHandler, told, espHiddPrfCbHdl, hcalls, List.filterMap_cons,
    Call.hiddEvent, callbackCalls, Call.isRequest]

/-- A host has gone. -/
theorem gatts_disconnect (ok : Bool) (t : Int) (s : Ble σ) (hcb : s.dev.2.hiddCb = true)
    (connId : UInt16) :
    P.gatts ok t s (.disconnect connId) s.dev.1 =
      ({ s with
          dev := (s.dev.1, { s.dev.2 with
            hiddClcb := (hiddClcbDealloc connId s.dev.2.hiddClcb).1 })
          app := P.callback t .bleDisconnect s.app
          advertising := ok },
        [.gatts (.hiddCb .bleDisconnect), .gap .startAdvertising]) := by
  have hcalls : ∀ ev, s.dev.2.callback ev = [.hiddCb ev] := fun ev => if_pos hcb
  simp [gatts_through, gattsEventHandler, told, espHiddPrfCbHdl, hcalls, Call.hiddEvent,
    callbackCalls, Call.isRequest, Ble.gapCalls]

/-- The callbacks of an event set the data once if it registers the profile. -/
theorem told_advData (s : HiddLeEnv) (hcb : s.hiddCb = true) {e : GattsEvent}
    (hconn : ∀ connId bda, e ≠ .connect connId bda) (hdis : ∀ connId, e ≠ .disconnect connId)
    (gattsIf : GattIf) : ((told s e gattsIf).flatMap callbackCalls).count .configAdvData =
      if e = .reg ESP_GATT_OK HIDD_APP_ID then 1 else 0 := by
  cases e with
  | connect connId bda => exact absurd rfl (hconn connId bda)
  | disconnect connId => exact absurd rfl (hdis connId)
  | reg status appId =>
      have hne : ¬ HIDD_APP_ID = BATTRAY_APP_ID := by decide
      have hok : ESP_GATT_OK = ESP_HIDD_INIT_OK := rfl
      simp only [told, espHiddPrfCbHdl, HiddLeEnv.callback, hcb, hok]
      by_cases happ : appId = HIDD_APP_ID
      · subst happ
        by_cases hstatus : status = ESP_HIDD_INIT_OK <;>
          simp [List.filterMap_cons, Call.hiddEvent, callbackCalls, hne, hstatus]
      · by_cases hbat : appId = BATTRAY_APP_ID <;>
          simp [List.filterMap_cons, Call.hiddEvent, callbackCalls, happ, hbat, hcb,
            Ne.symm hne]
  | write connId handle value =>
      simp only [told, espHiddPrfCbHdl, hcb, if_true]
      split <;> simp [Call.hiddEvent, callbackCalls]
  | creatAttrTab status svcUuid handles =>
      simp only [told, espHiddPrfCbHdl, creatAttrTabEvt]
      split <;> split <;> simp [List.filterMap_cons, Call.hiddEvent]
  | other => rfl

/-- An answer of the stack sets the data if it is that to the registration of the HID
application, and not otherwise. -/
theorem gatts_advData (t : Int) (s : Ble σ) (hcb : s.dev.2.hiddCb = true) (e : GattsEvent)
    (hconn : ∀ connId bda, e ≠ .connect connId bda) (hdis : ∀ connId, e ≠ .disconnect connId)
    (gattsIf : GattIf) :
    (P.gatts true t s e gattsIf).1.advData =
      s.advData + if e = .reg ESP_GATT_OK HIDD_APP_ID then 1 else 0 := by
  rw [gatts_through]
  split
  · exact congrArg (s.advData + ·) (told_advData s.dev.2 hcb hconn hdis gattsIf)
  · rename_i hgate
    have hne : e ≠ .reg ESP_GATT_OK HIDD_APP_ID := by
      rintro rfl
      exact hgate (by simp [gattsEventHandler])
    rw [if_neg hne]
    rfl

/-! ## Where the device stands -/

/-- No host is connected, and the program and the profile have it so. -/
def Alone (s : Ble σ) : Prop :=
  s.hosts = [] ∧ P.connected s.app = false ∧ s.dev.2.hiddClcb = [{}]

/-- After `n` answers the device has not been shown yet, or it is to be found unless its
advertising was refused, or one host is connected. -/
inductive Place (refused : Prop) (n : Nat) (s : Ble σ) : Prop where
  | hidden (hdata : s.advData = if 2 ≤ n then 1 else 0) (hadv : s.advertising = false)
      (halone : Alone P s)
  | free (hn : 2 ≤ n) (hdata : s.advData = 0) (hadv : s.advertising = true ∨ refused)
      (halone : Alone P s)
  | linked (connId : UInt16) (bda : List UInt8) (hn : 2 ≤ n) (hdata : s.advData = 0)
      (hadv : s.advertising = false) (hhosts : s.hosts = [connId])
      (hconn : P.connected s.app = true) (hid : P.hidConnId s.app = connId)
      (hclcb : s.dev.2.hiddClcb = [⟨true, connId, true, bda⟩])

/-- What holds in every run. -/
structure Ble.Inv (refused : Prop) (as : List Answer) (s : Ble σ) : Prop where
  stage : Stage as ⟨s.dev, s.pending⟩
  given : s.ifs.length = min as.length 2
  nodup : s.ifs.Nodup
  real : ESP_GATT_IF_NONE ∉ s.ifs
  own : 2 ≤ as.length → s.dev.1 ∈ s.ifs
  place : Place P refused as.length s

theorem Stage.hiddCb {as : List Answer} {s : Setup} (h : Stage as s) :
    s.dev.2.hiddCb = true := by
  cases h <;> rfl

/-- A stage does not depend on the connections. -/
theorem Stage.clcb {as : List Answer} {dev : GattIf × HiddLeEnv} {pending : List Call}
    (h : Stage as ⟨dev, pending⟩) (clcb : List HiddClcb) :
    Stage as ⟨(dev.1, { dev.2 with hiddClcb := clcb }), pending⟩ := by
  cases h with
  | start => exact .start
  | battery => exact .battery
  | hidd => exact .hidd
  | basTab => exact .basTab
  | hiddTab => exact .hiddTab

/-- The applications are registered first. -/
theorem Stage.head {as : List Answer} {dev : GattIf × HiddLeEnv} {request : Call}
    {pending : List Call} (h : Stage as ⟨dev, request :: pending⟩) :
    as.length = 0 ∧ request = .appRegister BATTRAY_APP_ID ∨
      as.length = 1 ∧ request = .appRegister HIDD_APP_ID ∨
      2 ≤ as.length ∧ ∀ appId, request ≠ .appRegister appId := by
  generalize hs : (⟨dev, request :: pending⟩ : Setup) = s at h
  cases h with
  | start => exact Or.inl ⟨rfl, by injection hs with _ hp; injection hp⟩
  | battery => exact Or.inr (Or.inl ⟨rfl, by injection hs with _ hp; injection hp⟩)
  | hidd =>
      refine Or.inr (Or.inr ⟨by simp, ?_⟩)
      injection hs with _ hp
      injection hp with hp
      simp [hp]
  | basTab =>
      refine Or.inr (Or.inr ⟨by simp, ?_⟩)
      injection hs with _ hp
      injection hp with hp
      simp [hp]
  | @hiddTab a b c d rest clcb =>
      refine Or.inr (Or.inr ⟨by simp, ?_⟩)
      injection hs with _ hp
      match rest with
      | [] => injection hp with hp; simp [hp]
      | [_] => injection hp with hp; simp [hp]
      | _ :: _ :: rest =>
          rw [List.drop_eq_nil_of_le (by simp [requests]; omega)] at hp
          exact absurd hp (List.cons_ne_nil _ _)

variable {P}

theorem Place.mono {refused refused' : Prop} (h : refused → refused') {n : Nat} {s : Ble σ}
    (hp : Place P refused n s) : Place P refused' n s := by
  cases hp with
  | hidden hdata hadv halone => exact .hidden hdata hadv halone
  | free hn hdata hadv halone => exact .free hn hdata (hadv.imp_right h) halone
  | linked connId bda hn hdata hadv hhosts hconn hid hclcb =>
      exact .linked connId bda hn hdata hadv hhosts hconn hid hclcb

/-- A place does not depend on more than this. -/
theorem Place.of_eq {refused : Prop} {n n' : Nat} {s s' : Ble σ} (h : Place P refused n s)
    (hn : 2 ≤ n ↔ 2 ≤ n') (hdata : s'.advData = s.advData) (hadv : s'.advertising = s.advertising)
    (hhosts : s'.hosts = s.hosts) (hconn : P.connected s'.app = P.connected s.app)
    (hid : P.hidConnId s'.app = P.hidConnId s.app)
    (hclcb : s'.dev.2.hiddClcb = s.dev.2.hiddClcb) : Place P refused n' s' := by
  have halone : Alone P s → Alone P s' := by
    rintro ⟨h1, h2, h3⟩
    exact ⟨hhosts.trans h1, hconn.trans h2, hclcb.trans h3⟩
  cases h with
  | hidden hd ha hal =>
      refine .hidden ?_ (hadv.trans ha) (halone hal)
      rw [hdata, hd, if_congr hn rfl rfl]
  | free h2 hd ha hal => exact .free (hn.1 h2) (hdata.trans hd) (hadv.symm ▸ ha) (halone hal)
  | linked connId bda h2 hd ha hh hc hi hcl =>
      exact .linked connId bda (hn.1 h2) (hdata.trans hd) (hadv.trans ha) (hhosts.trans hh)
        (hconn.trans hc) (hid.trans hi) (hclcb.trans hcl)

/-- An event that is no connection, no disconnection and no registration keeps all but the
requests. -/
theorem Ble.Inv.quiet {refused : Prop} {as as' : List Answer} {s : Ble σ}
    (h : s.Inv P refused as)
    (t : Int) {e : GattsEvent} (hconn : ∀ connId bda, e ≠ .connect connId bda)
    (hdis : ∀ connId, e ≠ .disconnect connId) (hreg : ∀ status appId, e ≠ .reg status appId)
    (gattsIf : GattIf) (pending : List Call) (hn : 2 ≤ as.length ↔ 2 ≤ as'.length)
    (hstage : Stage as'
      ⟨(P.gatts true t { s with pending := pending } e gattsIf).1.dev,
        (P.gatts true t { s with pending := pending } e gattsIf).1.pending⟩)
    (hmin : min as.length 2 = min as'.length 2) :
    (P.gatts true t { s with pending := pending } e gattsIf).1.Inv P refused as' := by
  have hquiet := gatts_quiet P true t { s with pending := pending } hconn hdis gattsIf
  have hdata := gatts_advData P t { s with pending := pending } h.stage.hiddCb e hconn hdis gattsIf
  rw [if_neg (hreg _ _), Nat.add_zero] at hdata
  have hgate : (P.gatts true t { s with pending := pending } e gattsIf).1.dev.1 = s.dev.1 := by
    rw [gatts_through]
    cases e with
    | reg status appId => exact absurd rfl (hreg status appId)
    | _ => split <;> rfl
  exact {
    stage := hstage
    given := h.given.trans hmin
    nodup := h.nodup
    real := h.real
    own := fun h2 => hgate.symm ▸ h.own (hn.2 h2)
    place := h.place.of_eq hn hdata hquiet.2.1 rfl (congrArg P.connected hquiet.1)
      (congrArg P.hidConnId hquiet.1) hquiet.2.2.1 }

/-- An application is registered. -/
theorem Ble.Inv.registered {refused : Prop} {as : List Answer} {s : Ble σ}
    (h : s.Inv P refused as) (hn : as.length < 2) {a : Answer} {appId : UInt16}
    (happ : appId = HIDD_APP_ID ↔ 2 ≤ as.length + 1) (t : Int)
    {gattsIf : GattIf} (hreal : gattsIf ≠ ESP_GATT_IF_NONE) (hfresh : gattsIf ∉ s.ifs)
    (pending : List Call) {s' : Ble σ}
    (hs : s' = { s with pending := pending, ifs := s.ifs ++ [gattsIf] })
    (hstage : Stage (as ++ [a])
      ⟨(P.gatts true t s' (.reg ESP_GATT_OK appId) gattsIf).1.dev,
        (P.gatts true t s' (.reg ESP_GATT_OK appId) gattsIf).1.pending⟩) :
    (P.gatts true t s' (.reg ESP_GATT_OK appId) gattsIf).1.Inv P refused (as ++ [a]) := by
  have hlength : (as ++ [a]).length = as.length + 1 := by simp
  have hdev : s'.dev = s.dev := by rw [hs]
  have happs : s'.app = s.app := by rw [hs]
  have hifs : s'.ifs = s.ifs ++ [gattsIf] := congrArg Ble.ifs hs
  have hquiet := gatts_quiet P true t s' (e := .reg ESP_GATT_OK appId) (by simp) (by simp) gattsIf
  have hdata := gatts_advData P t s' (hdev ▸ h.stage.hiddCb) (.reg ESP_GATT_OK appId) (by simp)
    (by simp) gattsIf
  have hgate : (P.gatts true t s' (.reg ESP_GATT_OK appId) gattsIf).1.dev.1 = gattsIf := by
    rw [gatts_through]
    split <;> simp [gattsEventHandler, Ble.gapCalls]
  have hrest : (P.gatts true t s' (.reg ESP_GATT_OK appId) gattsIf).1.ifs = s.ifs ++ [gattsIf] :=
    hifs
  exact {
    stage := hstage
    given := by
      rw [hrest, List.length_append, h.given, List.length_singleton, hlength]
      omega
    nodup := by
      rw [hrest, List.nodup_append]
      refine ⟨h.nodup, by simp, ?_⟩
      rintro x hx y hy rfl
      exact hfresh (List.mem_singleton.1 hy ▸ hx)
    real := by
      rw [hrest, List.mem_append, List.mem_singleton, not_or]
      exact ⟨h.real, Ne.symm hreal⟩
    own := by
      intro _
      rw [hgate, hrest]
      simp
    place := by
      rw [hlength]
      cases h.place with
      | hidden hd ha hal =>
          refine .hidden ?_ (hquiet.2.1.trans ((congrArg Ble.advertising hs).trans ha)) ⟨?_, ?_, ?_⟩
          · rw [hdata, congrArg Ble.advData hs, hd, if_neg (by omega), Nat.zero_add]
            exact if_congr (by simpa using happ) rfl rfl
          · exact (congrArg Ble.hosts hs).trans hal.1
          · exact (congrArg P.connected (hquiet.1.trans happs)).trans hal.2.1
          · exact hquiet.2.2.1.trans ((congrArg (fun d => d.2.hiddClcb) hdev).trans hal.2.2)
      | free h2 _ _ _ => omega
      | linked _ _ h2 _ _ _ _ _ _ => omega }

/-- The stack answers a request. -/
theorem Ble.Inv.answer {refused : Prop} {as : List Answer} {s : Ble σ} (h : s.Inv P refused as)
    (t : Int) (a : Answer) : ∃ as', (P.answer t s a).1.Inv P refused as' := by
  rcases s with ⟨dev, app, pending, ifs, advData, advertising, hosts⟩
  cases pending with
  | nil => exact ⟨as, h⟩
  | cons request pending =>
      have hnext := (h.stage.answer a).1
      rcases h.stage.head with ⟨hn, rfl⟩ | ⟨hn, rfl⟩ | ⟨h2, hreq⟩
      · by_cases hif : a.gattsIf = ESP_GATT_IF_NONE ∨ a.gattsIf ∈ ifs
        · simp only [Program.answer, if_pos hif]
          exact ⟨as, h⟩
        · simp only [Program.answer, if_neg hif]
          rw [not_or] at hif
          exact ⟨as ++ [a], h.registered (by omega) (by rw [hn]; decide) t hif.1 hif.2 pending rfl
            hnext⟩
      · by_cases hif : a.gattsIf = ESP_GATT_IF_NONE ∨ a.gattsIf ∈ ifs
        · simp only [Program.answer, if_pos hif]
          exact ⟨as, h⟩
        · simp only [Program.answer, if_neg hif]
          rw [not_or] at hif
          exact ⟨as ++ [a], h.registered (by omega) (by rw [hn]; decide) t hif.1 hif.2 pending rfl
            hnext⟩
      · have hanswer : P.answer t
            ⟨dev, app, request :: pending, ifs, advData, advertising, hosts⟩ a =
            P.gatts true t ⟨dev, app, pending, ifs, advData, advertising, hosts⟩
              (a.event request).1 (a.event request).2 := by
          cases request with
          | appRegister appId => exact absurd rfl (hreq appId)
          | _ => rfl
        have hevent : (∀ connId bda, (a.event request).1 ≠ .connect connId bda) ∧
            (∀ connId, (a.event request).1 ≠ .disconnect connId) ∧
            ∀ status appId, (a.event request).1 ≠ .reg status appId := by
          cases request with
          | appRegister appId => exact absurd rfl (hreq appId)
          | _ => simp [Answer.event]
        have hlength : (as ++ [a]).length = as.length + 1 := by simp
        rw [hanswer]
        exact ⟨as ++ [a], h.quiet t hevent.1 hevent.2.1 hevent.2.2 _ pending (by omega) hnext
          (by omega)⟩

/-- A host does something that is no connection and no disconnection. -/
theorem Ble.Inv.host {refused : Prop} {as : List Answer} {s : Ble σ} (h : s.Inv P refused as)
    (t : Int) {e : GattsEvent} (he : e.isOther = true) (gattsIf : GattIf) :
    (P.gatts true t s e gattsIf).1.Inv P refused as := by
  have hlink : e.isLink = true := by
    cases e <;> simp_all [GattsEvent.isOther, GattsEvent.isLink]
  exact h.quiet t (by rintro _ _ rfl; simp [GattsEvent.isOther] at he)
    (by rintro _ rfl; simp [GattsEvent.isOther] at he)
    (by rintro _ _ rfl; simp [GattsEvent.isOther] at he) gattsIf s.pending Iff.rfl
    (h.stage.link hlink gattsIf).1 rfl

/-- A turn of the task leaves the connection. -/
theorem Ble.Inv.task {refused : Prop} {as : List Answer} {s : Ble σ} (h : s.Inv P refused as)
    (i : τ) : (P.ble.step s (.task i)).1.Inv P refused as := by
  have hdev : (P.ble.step s (.task i)).1.dev = s.dev := by
    have hsends := (hidd_sends s.dev ((P.task i s.app).2.map sendOf)).1
    rwa [List.map_map] at hsends
  exact {
    stage := hdev.symm ▸ h.stage
    given := h.given
    nodup := h.nodup
    real := h.real
    own := hdev.symm ▸ h.own
    place := h.place.of_eq Iff.rfl rfl rfl rfl (P.task_link i s.app).1 (P.task_link i s.app).2
      (congrArg (fun d => d.2.hiddClcb) hdev) }

/-- The stack calls `gap_event_handler`. -/
theorem Ble.Inv.gap {refused : Prop} {as : List Answer} {s : Ble σ} (h : s.Inv P refused as)
    (e : GapEvent) (ok : Bool) :
    (P.ble.step s (.gap e ok)).1.Inv P (refused ∨ ok = false) as := by
  have hmono := h.place.mono (Or.inl (b := ok = false))
  cases e with
  | advDataSetComplete =>
      rcases s with ⟨dev, app, pending, ifs, advData, advertising, hosts⟩
      cases advData with
      | zero => exact { h with place := hmono }
      | succ m =>
          refine { h with place := ?_ }
          cases h.place with
          | hidden hdata hadv halone =>
              have h2 : 2 ≤ as.length := by
                by_contra hn
                rw [if_neg hn] at hdata
                exact absurd hdata (Nat.succ_ne_zero m)
              have hm : m = 0 := by
                rw [if_pos h2] at hdata
                exact Nat.succ.inj hdata
              refine .free h2 hm ?_ halone
              cases ok with
              | false => exact Or.inr (Or.inr rfl)
              | true => exact Or.inl rfl
          | free _ hdata _ _ => exact absurd hdata (Nat.succ_ne_zero m)
          | linked _ _ _ hdata _ _ _ _ _ => exact absurd hdata (Nat.succ_ne_zero m)
  | _ => exact { h with place := hmono.of_eq Iff.rfl rfl rfl rfl rfl rfl rfl }

/-- A host that connects is the only one. -/
theorem Ble.Inv.connect_cases {refused : Prop} {as : List Answer} {s : Ble σ}
    (h : s.Inv P refused as) (connId : UInt16) (bda : List UInt8) (t : Int) :
    P.ble.step s (.connect connId bda t) = (s, []) ∨
      2 ≤ as.length ∧ s.advData = 0 ∧
        P.ble.step s (.connect connId bda t) =
          ({ s with
              dev := (s.dev.1, { s.dev.2 with hiddClcb := [⟨true, connId, true, bda⟩] })
              app := P.callback t (.bleConnect connId bda) s.app
              advertising := false
              hosts := [connId] },
            [.gatts (.setEncryption bda), .gatts (.hiddCb (.bleConnect connId bda))]) := by
  by_cases hadv : s.advertising ∧ connId ∉ s.hosts
  · have hstep : P.ble.step s (.connect connId bda t) = P.report true t (.connect connId bda) s.ifs
        { s with advertising := false, hosts := connId :: s.hosts } := if_pos hadv
    cases h.place with
    | hidden _ hno _ => exact absurd (hno.symm.trans hadv.1) Bool.false_ne_true
    | linked _ _ _ _ hno _ _ _ _ => exact absurd (hno.symm.trans hadv.1) Bool.false_ne_true
    | free h2 hdata _ halone =>
        have honce := report_once P true t
          { s with advertising := false, hosts := connId :: s.hosts }
          (e := .connect connId bda) rfl h.nodup h.real (h.own h2)
        have hevent := gatts_connect P true t
          { s with advertising := false, hosts := connId :: s.hosts } h.stage.hiddCb connId bda
        refine Or.inr ⟨h2, hdata, ?_⟩
        rw [hstep, honce, hevent]
        simp only [halone.1, halone.2.2]
        rfl
  · exact Or.inl (if_neg hadv)

theorem Ble.Inv.connect {refused : Prop} {as : List Answer} {s : Ble σ} (h : s.Inv P refused as)
    (connId : UInt16) (bda : List UInt8) (t : Int) :
    (P.ble.step s (.connect connId bda t)).1.Inv P refused as := by
  rcases h.connect_cases connId bda t with hstep | ⟨h2, hdata, hstep⟩
  · rw [hstep]
    exact h
  · have hnew := P.callback_connect t connId bda s.app
    rw [hstep]
    exact {
      stage := h.stage.clcb _
      given := h.given
      nodup := h.nodup
      real := h.real
      own := h.own
      place := .linked connId bda h2 hdata rfl rfl hnew.1 hnew.2 rfl }

/-- The host has gone: the device is to be found again, unless its advertising was refused. -/
theorem Ble.Inv.disconnect_cases {refused : Prop} {as : List Answer} {s : Ble σ}
    (h : s.Inv P refused as) (connId : UInt16) (t : Int) (ok : Bool) :
    P.ble.step s (.disconnect connId t ok) = (s, []) ∨
      2 ≤ as.length ∧ s.advData = 0 ∧ s.advertising = false ∧
        P.ble.step s (.disconnect connId t ok) =
          ({ s with
              dev := (s.dev.1, { s.dev.2 with hiddClcb := [{}] })
              app := P.callback t .bleDisconnect s.app
              advertising := ok
              hosts := [] },
            [.gatts (.hiddCb .bleDisconnect), .gap .startAdvertising]) := by
  by_cases hhost : connId ∈ s.hosts
  · have hstep : P.ble.step s (.disconnect connId t ok) =
        P.report ok t (.disconnect connId) s.ifs { s with hosts := s.hosts.erase connId } :=
      if_pos hhost
    cases h.place with
    | hidden _ _ halone => exact absurd (halone.1 ▸ hhost) List.not_mem_nil
    | free _ _ _ halone => exact absurd (halone.1 ▸ hhost) List.not_mem_nil
    | linked connId' bda h2 hdata hadv hhosts _ _ hclcb =>
        have honce := report_once P ok t { s with hosts := s.hosts.erase connId }
          (e := .disconnect connId) rfl h.nodup h.real (h.own h2)
        have hevent := gatts_disconnect P ok t { s with hosts := s.hosts.erase connId }
          h.stage.hiddCb connId
        obtain rfl : connId = connId' := by
          rw [hhosts] at hhost
          exact List.mem_singleton.1 hhost
        refine Or.inr ⟨h2, hdata, hadv, ?_⟩
        rw [hstep, honce, hevent]
        simp only [hhosts, hclcb, List.erase_cons_head]
        rfl
  · exact Or.inl (if_neg hhost)

theorem Ble.Inv.disconnect {refused : Prop} {as : List Answer} {s : Ble σ}
    (h : s.Inv P refused as) (connId : UInt16) (t : Int) (ok : Bool) :
    (P.ble.step s (.disconnect connId t ok)).1.Inv P (refused ∨ ok = false) as := by
  rcases h.disconnect_cases connId t ok with hstep | ⟨h2, hdata, -, hstep⟩
  · rw [hstep]
    exact { h with place := h.place.mono Or.inl }
  · rw [hstep]
    exact {
      stage := h.stage.clcb _
      given := h.given
      nodup := h.nodup
      real := h.real
      own := h.own
      place := by
        refine .free h2 hdata ?_ ⟨rfl, P.callback_disconnect t s.app, rfl⟩
        cases ok with
        | false => exact Or.inr (Or.inr rfl)
        | true => exact Or.inl rfl }

/-- A step keeps the invariant. -/
theorem Ble.Inv.step {refused : Prop} {as : List Answer} {s : Ble σ} (h : s.Inv P refused as)
    (i : BleInput τ) : ∃ as', (P.ble.step s i).1.Inv P (refused ∨ i.ok = false) as' := by
  have hkept : ∀ {as' : List Answer} {s' : Ble σ}, s'.Inv P refused as' →
      s'.Inv P (refused ∨ i.ok = false) as' := fun h' => { h' with place := h'.place.mono Or.inl }
  cases i with
  | answer a t =>
      rcases h.answer t a with ⟨as', h'⟩
      exact ⟨as', hkept h'⟩
  | gap e ok => exact ⟨as, h.gap e ok⟩
  | connect connId bda t => exact ⟨as, hkept (h.connect connId bda t)⟩
  | disconnect connId t ok => exact ⟨as, h.disconnect connId t ok⟩
  | host e gattsIf t =>
      refine ⟨as, hkept ?_⟩
      show (if e.isOther = true then P.gatts true t s e gattsIf else (s, [])).1.Inv P refused as
      by_cases he : e.isOther = true
      · rw [if_pos he]
        exact h.host t he gattsIf
      · rw [if_neg he]
        exact h
  | task i => exact ⟨as, hkept (h.task i)⟩

/-- It holds in every run. -/
theorem ble_inv (P : Program σ τ) (is : List (BleInput τ)) :
    ∃ as, (P.ble.state P.boot is).Inv P (∃ i ∈ is, i.ok = false) as := by
  refine Transducer.history_invariant P.ble P.boot
    (fun is s => ∃ as, s.Inv P (∃ i ∈ is, i.ok = false) as) ?_ ?_ is
  · exact ⟨[], Stage.start, rfl, List.nodup_nil, List.not_mem_nil, by simp,
      .hidden rfl rfl ⟨rfl, P.connected_start, rfl⟩⟩
  · rintro pre i s ⟨as, h⟩
    rcases h.step i with ⟨as', h'⟩
    refine ⟨as', { h' with place := h'.place.mono ?_ }⟩
    rintro (⟨k, hk, hok⟩ | hok)
    · exact ⟨k, List.mem_append_left _ hk, hok⟩
    · exact ⟨i, by simp, hok⟩

/-! ## What is called -/

end Whole

end Cse121.Hidd
