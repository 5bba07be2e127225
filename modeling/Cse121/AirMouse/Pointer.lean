import Cse121.AirMouse.Connection
import Cse121.AirMouse.Profile

/-! # The pointer of the host

The air mouse as a whole: `hidd_event_callback` of `lab4_3.c` hears of the connection by way
of the HID profile, and what `imu_mouse_task` wants to move goes out by way of the profile.
The host at the other end reads the notifications by the descriptor and moves its pointer.
-/

namespace Cse121.Hidd

open Hid Cse121.Lab43

/-! ## The program on top of the profile -/

/-- What a call of the callback is to `lab4_3.c`. -/
def appEvent (timerUs : Int) : Call → Option Event
  | .hiddCb (.bleConnect connId _) => some (.connect timerUs connId)
  | .hiddCb .bleDisconnect => some (.disconnect timerUs)
  | .hiddCb _ => some (.other timerUs)
  | _ => none

/-- The call of `esp_hidd_send_mouse_value` for a report. -/
def sendOf (r : Report) : Send :=
  .mouse r.connId (UInt8.ofInt r.mouseButton) (Int8.ofInt r.mickeysX) (Int8.ofInt r.mickeysY)

/-- What happens to the whole. -/
inductive SysInput where
  /-- the stack calls `gatts_event_handler` -/
  | gatts (e : GattsEvent) (gattsIf : GattIf) (timerUs : Int)
  /-- a turn of `imu_mouse_task` -/
  | turn (fx fy : ℚ) (timerXUs timerYUs : Int)
  | readFailed (timerUs : Int)
deriving DecidableEq, Repr

/-- The profile and the program. -/
def airSystem : Transducer ((GattIf × HiddLeEnv) × AirMouse) SysInput Call where
  step s
    | .gatts e gattsIf timerUs =>
        let r := hidd.step s.1 (.gatts e gattsIf)
        ((r.1, airMouse.state s.2 (r.2.filterMap (appEvent timerUs))), r.2)
    | .turn fx fy timerXUs timerYUs =>
        let r := airMouse.step s.2 (.turn fx fy timerXUs timerYUs)
        let sends := r.2.map fun report => Input.send (sendOf report)
        ((hidd.state s.1 sends, r.1), hidd.out s.1 sends)
    | .readFailed timerUs => ((s.1, (airMouse.step s.2 (.readFailed timerUs)).1), [])

/-- What the program sees. -/
def seen : Transducer (GattIf × HiddLeEnv) SysInput Event where
  step dev
    | .gatts e gattsIf timerUs =>
        let r := hidd.step dev (.gatts e gattsIf)
        (r.1, r.2.filterMap (appEvent timerUs))
    | .turn fx fy timerXUs timerYUs => (dev, [.turn fx fy timerXUs timerYUs])
    | .readFailed timerUs => (dev, [.readFailed timerUs])

/-- Sending leaves the profile as it is. -/
theorem hidd_sends (dev : GattIf × HiddLeEnv) (cs : List Send) :
    hidd.state dev (cs.map .send) = dev ∧ hidd.out dev (cs.map .send) =
      cs.flatMap fun c => (c.run dev.2.hidDevRptTbl dev.2.gattIf).toList.map .sendIndicate := by
  have hstep : ∀ c, hidd.step dev (.send c) =
      (dev, (c.run dev.2.hidDevRptTbl dev.2.gattIf).toList.map .sendIndicate) := by
    intro c
    simp [hidd, Transducer.cascade, gate, profile]
  induction cs with
  | nil => exact ⟨rfl, rfl⟩
  | cons c cs ih =>
      rw [List.map_cons, Transducer.state_cons, Transducer.out_cons, hstep, ih.1, ih.2]
      exact ⟨rfl, rfl⟩

/-- The program runs on what it sees. -/
theorem airSystem_state (dev : GattIf × HiddLeEnv) (app : AirMouse) (is : List SysInput) :
    airSystem.state (dev, app) is = (seen.state dev is, airMouse.state app (seen.out dev is)) := by
  induction is generalizing dev app with
  | nil => rfl
  | cons i is ih =>
      have hstep : (airSystem.step (dev, app) i).1 =
          ((seen.step dev i).1, airMouse.state app (seen.step dev i).2) := by
        cases i with
        | turn fx fy tx ty =>
            have hsend := (hidd_sends dev ((airMouse.step app (.turn fx fy tx ty)).2.map sendOf)).1
            rw [List.map_map] at hsend
            exact Prod.ext hsend rfl
        | _ => rfl
      rw [Transducer.state_cons, hstep, ih, Transducer.state_cons, Transducer.out_cons,
        Transducer.state_append]

/-! ## The host -/

/-- How far a notification moves the pointer of a host that found the handles `t`. -/
def hostMove (t : AttTbl) (x : Indicate) : Option (Int × Int) := do
  let i ← hostReport HID_RPT_ID_MOUSE_IN HID_REPORT_TYPE_INPUT
  if x.handle ≠ t.handle i then none
  else
    let told ← Hid.read (inputFields HID_RPT_ID_MOUSE_IN) x.value
    let axis := fun id => (told.flatten.lookup ⟨1, id⟩).getD 0
    return (axis 0x30, axis 0x31)

/-- The moves among the calls of the device. -/
def hostMoves (t : AttTbl) (calls : List Call) : List (Int × Int) :=
  calls.filterMap fun c =>
    match c with
    | .sendIndicate x => hostMove t x
    | _ => none

/-- A mouse report moves the pointer by its mickeys. -/
theorem hostMove_mouse (t : AttTbl) (gattsIf : GattIf) (connId : UInt16) (b : UInt8)
    {x y : Int8} (hx : x ≠ -128) (hy : y ≠ -128) {i : HiddLeIdx}
    (hi : hostReport HID_RPT_ID_MOUSE_IN HID_REPORT_TYPE_INPUT = some i) :
    hostMove t ⟨gattsIf, connId, t.handle i, mouseReport b x y⟩ = some (x.toInt, y.toInt) := by
  have hread := mouseReport_read b x y
  rw [axisReading, if_neg hx, axisReading, if_neg hy] at hread
  simp only [hostMove, hi, hread, Option.bind_eq_bind, Option.bind_some, ne_eq,
    not_true_eq_false, if_false]
  rfl

/-- The stack creates no HID table but one with the handles `t`. -/
def SysInput.KeepsTable (t : AttTbl) : SysInput → Prop
  | .gatts (.creatAttrTab status _ handles) _ _ =>
      handles.length = HIDD_LE_IDX_NB → status = ESP_GATT_OK → handles = t
  | _ => True

/-- A report fits the bytes of its message. -/
theorem report_range {s : AirMouse} {e : Event} {r : Report} (hr : r ∈ (airMouse.step s e).2) :
    (-24 ≤ r.mickeysX ∧ r.mickeysX ≤ 24) ∧ -24 ≤ r.mickeysY ∧ r.mickeysY ≤ 24 := by
  cases e with
  | turn fx fy tx ty =>
      simp only [airMouse, moveMouse, sendMouseMove] at hr
      split at hr
      · split at hr
        · rw [List.mem_singleton] at hr
          subst hr
          exact ⟨calculate_range _ _, calculate_range _ _⟩
        · simp at hr
      · simp at hr
  | _ => simp [airMouse] at hr

/-- What the profile sends for a report moves the pointer by its mickeys. -/
theorem hostMoves_report (t : AttTbl) (gattsIf : GattIf) {r : Report}
    (hx : -24 ≤ r.mickeysX ∧ r.mickeysX ≤ 24) (hy : -24 ≤ r.mickeysY ∧ r.mickeysY ≤ 24) :
    hostMoves t (((sendOf r).run (hidAddIdTbl t) gattsIf).toList.map .sendIndicate) =
      [(r.mickeysX, r.mickeysY)] := by
  have hint : ∀ m : Int, -24 ≤ m ∧ m ≤ 24 → Int8.ofInt m ≠ -128 ∧ (Int8.ofInt m).toInt = m := by
    intro m hm
    have hm' : (Int8.ofInt m).toInt = m := Int8.toInt_ofInt_of_le (by omega) (by omega)
    refine ⟨?_, hm'⟩
    intro h
    rw [h] at hm'
    have : (-128 : Int8).toInt = -128 := by decide
    omega
  rcases Send.run_hidAddIdTbl t gattsIf (sendOf r) with ⟨i, hi, hrun⟩
  have hmove := hostMove_mouse t gattsIf r.connId (UInt8.ofInt r.mouseButton)
    (hint r.mickeysX hx).1 (hint r.mickeysY hy).1 hi
  rw [(hint r.mickeysX hx).2, (hint r.mickeysY hy).2] at hmove
  rw [hrun]
  simp only [sendOf, Send.report, Send.connId, Option.map_some, Option.toList_some, List.map_cons,
    List.map_nil, hostMoves, List.filterMap_cons, hmove, List.filterMap_nil]

/-- Every report of a turn moves the pointer. -/
theorem hostMoves_turn {t : AttTbl} {dev : GattIf × HiddLeEnv}
    (htable : dev.2.hidDevRptTbl = hidAddIdTbl t) (app : AirMouse) (e : Event) :
    hostMoves t (hidd.out dev ((airMouse.step app e).2.map fun r => Input.send (sendOf r))) =
      (airMouse.step app e).2.map fun r => (r.mickeysX, r.mickeysY) := by
  have hrange : ∀ r ∈ (airMouse.step app e).2, (-24 ≤ r.mickeysX ∧ r.mickeysX ≤ 24) ∧
      -24 ≤ r.mickeysY ∧ r.mickeysY ≤ 24 := fun r hr => report_range hr
  have hsends := (hidd_sends dev ((airMouse.step app e).2.map sendOf)).2
  rw [List.map_map] at hsends
  show hostMoves t (hidd.out dev ((airMouse.step app e).2.map (Input.send ∘ sendOf))) = _
  rw [hsends, htable]
  generalize (airMouse.step app e).2 = rs at hrange
  induction rs with
  | nil => rfl
  | cons r rs ih =>
      have hr := hrange r List.mem_cons_self
      have hfirst := hostMoves_report t dev.2.gattIf hr.1 hr.2
      rw [List.map_cons, List.flatMap_cons, hostMoves, List.filterMap_append, List.map_cons]
      exact congrArg₂ (· ++ ·) hfirst (ih fun x hx => hrange x (List.mem_cons_of_mem r hx))

/-- No event of the stack moves the pointer. -/
theorem hostMoves_gatts (t : AttTbl) (dev : GattIf × HiddLeEnv) (e : GattsEvent)
    (gattsIf : GattIf) : hostMoves t (hidd.step dev (.gatts e gattsIf)).2 = [] := by
  rcases dev with ⟨tabIf, s⟩
  rw [hidd_gatts, hostMoves, List.filterMap_eq_nil_iff]
  intro c hc
  split at hc
  · cases c with
    | sendIndicate x => exact absurd rfl ((prf_calls s e gattsIf _ hc).2 x)
    | _ => rfl
  · simp at hc

/-- Nor is it a turn of the program. -/
theorem seen_gatts (dev : GattIf × HiddLeEnv) (e : GattsEvent) (gattsIf : GattIf)
    (timerUs : Int) : ∀ ev ∈ (seen.step dev (.gatts e gattsIf timerUs)).2, ev.isTurn = false := by
  intro ev hev
  rcases List.mem_filterMap.1 hev with ⟨c, -, hc⟩
  cases c with
  | hiddCb ev' => cases ev' <;> simp only [appEvent, Option.some.injEq] at hc <;> subst hc <;> rfl
  | _ => simp [appEvent] at hc

/-- Only turns make reports. -/
theorem airMouse_silent {es : List Event} (h : ∀ ev ∈ es, ev.isTurn = false) (s : AirMouse) :
    airMouse.out s es = [] := by
  induction es generalizing s with
  | nil => rfl
  | cons ev es ih =>
      have hrest := ih (fun x hx => h x (List.mem_cons_of_mem _ hx)) (airMouse.step s ev).1
      have hev := h ev List.mem_cons_self
      cases ev with
      | turn fx fy tx ty => simp [Event.isTurn] at hev
      | _ => exact hrest

/-- The table stays while the stack creates no other. -/
theorem table_kept {t : AttTbl} {dev : GattIf × HiddLeEnv}
    (h : dev.2.hidDevRptTbl = hidAddIdTbl t) {i : SysInput} (hi : i.KeepsTable t) :
    (seen.step dev i).1.2.hidDevRptTbl = hidAddIdTbl t := by
  cases i with
  | gatts e gattsIf timerUs =>
      rcases dev with ⟨tabIf, s⟩
      show (hidd.step (tabIf, s) (.gatts e gattsIf)).1.2.hidDevRptTbl = _
      rw [hidd_gatts]
      split
      · rcases profile_step s (.gatts e gattsIf) with ⟨incl, hstep⟩
        show (profile.step s (.gatts e gattsIf)).1.hidDevRptTbl = _
        rw [hstep]
        cases e with
        | creatAttrTab status svcUuid handles =>
            simp only [tableWrite]
            split
            · rename_i hnew
              rw [hi hnew.1 hnew.2]
              rfl
            · exact h
        | _ => exact h
      · exact h
  | _ => exact h

/-- End to end: once there is a table, the pointer of the host makes exactly the moves that
`lab4_3.c` asked for, in order, whatever else the stack reports in between. -/
theorem pointer_follows {t : AttTbl} {dev : GattIf × HiddLeEnv}
    (htable : dev.2.hidDevRptTbl = hidAddIdTbl t) (app : AirMouse) {is : List SysInput}
    (his : ∀ i ∈ is, i.KeepsTable t) :
    hostMoves t (airSystem.out (dev, app) is) =
      (airMouse.out app (seen.out dev is)).map fun r => (r.mickeysX, r.mickeysY) := by
  induction is generalizing dev app with
  | nil => rfl
  | cons i is ih =>
      have hkept := table_kept htable (his i List.mem_cons_self)
      have hstate := airSystem_state dev app [i]
      have hrest := ih hkept (airMouse.state app (seen.step dev i).2)
        fun k hk => his k (List.mem_cons_of_mem i hk)
      simp only [Transducer.state_cons, Transducer.state_nil, Transducer.out_cons,
        Transducer.out_nil, List.append_nil] at hstate
      rw [Transducer.out_cons, Transducer.out_cons, Transducer.out_append, List.map_append, hstate,
        hostMoves, List.filterMap_append]
      refine congrArg₂ (· ++ ·) ?_ hrest
      cases i with
      | gatts e gattsIf timerUs =>
          rw [airMouse_silent (seen_gatts dev e gattsIf timerUs)]
          exact hostMoves_gatts t dev e gattsIf
      | turn fx fy tx ty =>
          have hout : airMouse.out app (seen.step dev (.turn fx fy tx ty)).2 =
              (airMouse.step app (.turn fx fy tx ty)).2 := List.append_nil _
          rw [hout]
          exact hostMoves_turn htable app (.turn fx fy tx ty)
      | readFailed timerUs => rfl

theorem pointer_follows_turn :
    let t : AttTbl := (List.range 37).map fun k => UInt16.ofNat (40 + k)
    let dev : GattIf × HiddLeEnv :=
      (4, { started.2 with gattIf := 4, attTbl := t, hidDevRptTbl := hidAddIdTbl t })
    hostMoves t (airSystem.out (dev, {}) [.gatts (.connect 0 []) 4 0,
      .turn (1 / 5) 0 10000 10000, .turn (1 / 5) 0 30000 30000]) = [(3, 0)] := by
  intro t dev
  rw [@pointer_follows t dev rfl {} _ (by simp [SysInput.KeepsTable])]
  decide +kernel

/-! ## The connection -/

/-- What a step does to the connections, and what the program sees of it. -/
theorem seen_cases {dev : GattIf × HiddLeEnv} (hcb : dev.2.hiddCb = true) (i : SysInput) :
    (∃ connId bda timerUs, (seen.step dev i).2 = [.connect timerUs connId] ∧
      (seen.step dev i).1.2.hiddClcb = hiddClcbAlloc connId bda dev.2.hiddClcb) ∨
    (∃ connId timerUs, (seen.step dev i).2 = [.disconnect timerUs] ∧
      (seen.step dev i).1.2.hiddClcb = (hiddClcbDealloc connId dev.2.hiddClcb).1) ∨
    ((∀ ev ∈ (seen.step dev i).2, ev.isLink = false) ∧
      (seen.step dev i).1.2.hiddClcb = dev.2.hiddClcb) := by
  cases i with
  | turn fx fy tx ty => exact Or.inr (Or.inr ⟨by simp [seen, Event.isLink], rfl⟩)
  | readFailed t => exact Or.inr (Or.inr ⟨by simp [seen, Event.isLink], rfl⟩)
  | gatts e gattsIf timerUs =>
      rcases dev with ⟨tabIf, s⟩
      have hcb : s.hiddCb = true := hcb
      simp only [seen, hidd_gatts]
      by_cases hgate : (gattsEventHandler tabIf e gattsIf).2
      · simp only [if_pos hgate]
        rcases profile_step s (.gatts e gattsIf) with ⟨incl, hstep⟩
        have hclcb : (espHiddPrfCbHdl s e gattsIf).1.hiddClcb =
            clcbStep s.hiddClcb (.gatts e gattsIf) := congrArg HiddLeEnv.hiddClcb hstep
        rw [hclcb]
        cases e with
        | connect connId bda =>
            refine Or.inl ⟨connId, bda, timerUs, ?_, rfl⟩
            simp only [espHiddPrfCbHdl, HiddLeEnv.callback, hcb, if_true]
            rfl
        | disconnect connId =>
            refine Or.inr (Or.inl ⟨connId, timerUs, ?_, rfl⟩)
            simp only [espHiddPrfCbHdl, HiddLeEnv.callback, hcb, if_true]
            rfl
        | reg status appId =>
            refine Or.inr (Or.inr ⟨?_, rfl⟩)
            intro ev hev
            rcases List.mem_filterMap.1 hev with ⟨c, hc, hev⟩
            simp only [espHiddPrfCbHdl, HiddLeEnv.callback, List.cons_append, List.mem_cons,
              List.mem_append, List.mem_ite_nil_right, List.not_mem_nil, or_false] at hc
            rcases hc with rfl | ⟨-, rfl | rfl⟩ | ⟨-, -, rfl⟩ <;> simp [appEvent] at hev <;>
              subst hev <;> rfl
        | write connId handle value =>
            refine Or.inr (Or.inr ⟨?_, rfl⟩)
            simp only [espHiddPrfCbHdl, hcb, if_true]
            split <;> simp [appEvent, Event.isLink]
        | creatAttrTab status svcUuid handles =>
            refine Or.inr (Or.inr ⟨?_, rfl⟩)
            simp only [espHiddPrfCbHdl, creatAttrTabEvt]
            split <;> split <;> simp [appEvent]
        | other => exact Or.inr (Or.inr ⟨by simp [espHiddPrfCbHdl], rfl⟩)
      · simp only [if_neg hgate]
        exact Or.inr (Or.inr ⟨by simp, trivial⟩)

/-- The only entry of the table of connections, beside the events of the program. -/
structure OneLink (es : List Event) (p : HiddClcb) (app : AirMouse) : Prop where
  inUse : p.inUse = app.connected
  connected : p.connected = app.connected
  /-- it holds the connection that ended a time without one -/
  first : app.connected = true → ∃ a t b, es = a ++ .connect t p.connId :: b ∧
    (airMouse.state {} a).connected = false ∧ ∀ t', Event.disconnect t' ∉ b

theorem seen_hiddCb (dev : GattIf × HiddLeEnv) (i : SysInput) :
    (seen.step dev i).1.2.hiddCb = dev.2.hiddCb := by
  cases i with
  | gatts e gattsIf timerUs =>
      rcases dev with ⟨tabIf, s⟩
      show (hidd.step (tabIf, s) (.gatts e gattsIf)).1.2.hiddCb = s.hiddCb
      rw [hidd_gatts]
      split
      · rcases profile_step s (.gatts e gattsIf) with ⟨incl, hstep⟩
        show (profile.step s (.gatts e gattsIf)).1.hiddCb = s.hiddCb
        rw [hstep]
      · rfl
  | _ => rfl

/-- Events that are no connection changes leave it. -/
theorem connected_kept {es : List Event} (h : ∀ ev ∈ es, ev.isLink = false) (app : AirMouse) :
    (airMouse.state app es).connected = app.connected := by
  induction es generalizing app with
  | nil => rfl
  | cons ev es ih =>
      rw [Transducer.state_cons, ih fun x hx => h x (List.mem_cons_of_mem ev hx)]
      have hev := h ev List.mem_cons_self
      cases ev with
      | connect t connId => simp [Event.isLink] at hev
      | disconnect t => simp [Event.isLink] at hev
      | _ => rfl

/-- Events that are no disconnection come after the connection that is held. -/
theorem OneLink.append {es es' : List Event} {p : HiddClcb} (h : OneLink es p
    (airMouse.state {} es)) (hkept : (airMouse.state {} (es ++ es')).connected =
      (airMouse.state {} es).connected) (hes : ∀ t, Event.disconnect t ∉ es') :
    OneLink (es ++ es') p (airMouse.state {} (es ++ es')) := by
  refine ⟨h.inUse.trans hkept.symm, h.connected.trans hkept.symm, ?_⟩
  intro hconn
  rcases h.first (hkept ▸ hconn) with ⟨a, t, b, heq, ha, hb⟩
  refine ⟨a, t, b ++ es', by simp [heq], ha, ?_⟩
  intro t' hmem
  rcases List.mem_append.1 hmem with hmem | hmem
  · exact hb t' hmem
  · exact hes t' hmem

/-- The program keeps the connection that came last. -/
theorem last_connect (es : List Event) (h : (airMouse.state {} es).connected = true) :
    ∃ a t b, es = a ++ .connect t (airMouse.state {} es).hidConnId :: b ∧
      ∀ ev ∈ b, ev.isLink = false := by
  induction es using List.reverseRecOn with
  | nil => exact absurd h (by decide)
  | append_singleton es ev ih =>
      rw [Transducer.state_append] at h ⊢
      have hother : ev.isLink = false → (airMouse.state {} es).connected = true →
          ∃ a t b, es ++ [ev] = a ++ .connect t (airMouse.state {} es).hidConnId :: b ∧
            ∀ ev ∈ b, ev.isLink = false := by
        intro hev hconn
        rcases ih hconn with ⟨a, t, b, heq, hb⟩
        refine ⟨a, t, b ++ [ev], (congrArg (· ++ [ev]) heq).trans (by simp), ?_⟩
        intro x hx
        rcases List.mem_append.1 hx with hx | hx
        · exact hb x hx
        · rw [List.mem_singleton.1 hx]
          exact hev
      cases ev with
      | connect t connId => exact ⟨es, t, [], rfl, by simp⟩
      | disconnect t => exact absurd h (by simp [airMouse])
      | other t => exact hother rfl h
      | readFailed t => exact hother rfl h
      | turn fx fy tx ty => exact hother rfl h

/-- In every run from the start the profile has its one entry in use exactly while the
program takes itself to be connected; the entry tells the first connection since there was
none, while the program keeps the last. -/
theorem link_table (is : List SysInput) :
    let s := airSystem.state (started, {}) is
    (∃ p, s.1.2.hiddClcb = [p] ∧ OneLink (seen.out started is) p s.2) ∧
      (s.2.connected = true → ∃ a t b, seen.out started is = a ++ .connect t s.2.hidConnId :: b ∧
        ∀ ev ∈ b, ev.isLink = false) := by
  intro s
  have hs : s = (seen.state started is, airMouse.state {} (seen.out started is)) :=
    airSystem_state started {} is
  rw [hs]
  clear_value s
  clear hs
  refine ⟨?_, last_connect _⟩
  suffices h : (seen.state started is).2.hiddCb = true ∧
      ∃ p, (seen.state started is).2.hiddClcb = [p] ∧
        OneLink (seen.out started is) p (airMouse.state {} (seen.out started is)) from h.2
  induction is using List.reverseRecOn with
  | nil =>
      refine ⟨rfl, {}, rfl, rfl, rfl, ?_⟩
      intro hconn
      exact absurd hconn (by decide)
  | append_singleton is i ih =>
      rcases ih with ⟨hcb, p, hp, hlink⟩
      rw [Transducer.state_append, Transducer.out_append]
      simp only [Transducer.state_cons, Transducer.state_nil, Transducer.out_cons,
        Transducer.out_nil, List.append_nil]
      refine ⟨(seen_hiddCb _ i).trans hcb, ?_⟩
      rcases seen_cases hcb i with ⟨connId, bda, t, hes, hclcb⟩ | ⟨connId, t, hes, hclcb⟩ |
        ⟨hes, hclcb⟩
      · rw [hp, hiddClcbAlloc] at hclcb
        rw [hes]
        have hconn : (airMouse.state {} (seen.out started is ++ [.connect t connId])).connected =
            true := by
          rw [Transducer.state_append]
          rfl
        by_cases huse : p.inUse = true
        · -- the entry is taken, and stays
          rw [if_pos huse] at hclcb
          refine ⟨p, hclcb, hlink.append ?_ (by simp)⟩
          rw [hconn, ← hlink.inUse, huse]
        · rw [if_neg huse] at hclcb
          refine ⟨_, hclcb, hconn.symm, hconn.symm, ?_⟩
          intro _
          refine ⟨seen.out started is, t, [], rfl, ?_, by simp⟩
          rw [← hlink.inUse]
          simpa using huse
      · rw [hp] at hclcb
        rw [hes]
        have hconn : (airMouse.state {} (seen.out started is ++ [.disconnect t])).connected =
            false := by
          rw [Transducer.state_append]
          rfl
        refine ⟨{}, hclcb, hconn.symm, hconn.symm, ?_⟩
        intro habs
        rw [hconn] at habs
        exact absurd habs Bool.false_ne_true
      · refine ⟨p, hclcb.trans hp, hlink.append ?_ ?_⟩
        · rw [Transducer.state_append]
          exact connected_kept hes _
        · intro t hmem
          exact absurd (hes _ hmem) (by simp [Event.isLink])

end Cse121.Hidd
