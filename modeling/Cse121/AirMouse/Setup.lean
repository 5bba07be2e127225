import Cse121.AirMouse.Profile

/-! # Setting the services up

The profile and the Bluetooth stack talk to each other until both services run: the stack
answers each request by an event, and the profile makes its next requests when it handles
one. Meanwhile hosts come and go. The stack here answers in order, and successfully; which
interfaces and handles it gives is up to it.
-/

namespace Cse121.Hidd

/-- The calls that the stack answers. -/
def Call.isRequest : Call → Bool
  | .appRegister _ => true
  | .createBasTab _ => true
  | .createHiddTab _ _ => true
  | .startService _ => true
  | _ => false

/-- What an answer gives, to whatever the request was. -/
structure Answer where
  gattsIf : GattIf
  bas : {handles : List UInt16 // handles.length = BAS_IDX_NB}
  hidd : {handles : List UInt16 // handles.length = HIDD_LE_IDX_NB}

/-- The event that answers a request. -/
def Answer.event (a : Answer) : Call → GattsEvent × GattIf
  | .appRegister appId => (.reg ESP_GATT_OK appId, a.gattsIf)
  | .createBasTab gattsIf =>
      (.creatAttrTab ESP_GATT_OK ESP_GATT_UUID_BATTERY_SERVICE_SVC a.bas.1, gattsIf)
  | .createHiddTab _ gattsIf => (.creatAttrTab ESP_GATT_OK HIDD_APP_ID a.hidd.1, gattsIf)
  | _ => (.other, a.gattsIf)

/-- An event that answers nothing. -/
def GattsEvent.isLink : GattsEvent → Bool
  | .reg _ _ => false
  | .creatAttrTab _ _ _ => false
  | _ => true

/-- What the stack does next. -/
inductive StackStep where
  /-- it answers the oldest request -/
  | answer (a : Answer)
  /-- it reports what a host does -/
  | link (e : {e : GattsEvent // e.isLink = true}) (gattsIf : GattIf)

/-- The profile, and the requests that are not answered yet. -/
structure Setup where
  dev : GattIf × HiddLeEnv
  pending : List Call

/-- The requests with which the program starts. -/
def registration : List Call := [.appRegister BATTRAY_APP_ID, .appRegister HIDD_APP_ID]

/-- The profile handles an event, and makes requests. -/
def Setup.handle (s : Setup) (e : GattsEvent × GattIf) : Setup × List Call :=
  let r := hidd.step s.dev (.gatts e.1 e.2)
  (⟨r.1, s.pending ++ r.2.filter Call.isRequest⟩, r.2.filter Call.isRequest)

/-- The two together; what is emitted are the requests. -/
def setup : Transducer Setup StackStep Call where
  step s
    | .answer a => match s.pending with
      | [] => (s, [])
      | request :: pending => ({ s with pending := pending } : Setup).handle (a.event request)
    | .link e gattsIf => s.handle (e.1, gattsIf)

/-- The answers among them, in order. -/
def answers : List StackStep → List Answer
  | [] => []
  | .answer a :: is => a :: answers is
  | .link _ _ :: is => answers is

/-! ## The stages -/

/-- The service that the HID service includes. -/
def inclOf (bas : List UInt16) : InclSvc := ⟨bas.getD 0 0, bas.getD 0 0 + 4⟩

/-- The requests of a whole setup, in order, for an interface and two lists of handles. -/
def requests (gattsIf : GattIf) (bas hidd : List UInt16) : List Call :=
  [.createBasTab gattsIf, .createHiddTab (inclOf bas) gattsIf,
    .startService (bas.getD 0 0), .startService (AttTbl.handle hidd .svc)]

/-- What is requested by the answers so far: the second one gives the interface, the third
and the fourth the handles of the tables. -/
def requestsOf : List Answer → List Call
  | _ :: b :: c :: d :: _ => requests b.gattsIf c.bas.1 d.hidd.1
  | [_, b, c] => (requests b.gattsIf c.bas.1 []).take 3
  | [_, b] => (requests b.gattsIf [] []).take 1
  | _ => []

/-- What has been set up by the answers so far. -/
inductive Stage : List Answer → Setup → Prop
  | start {clcb} :
      Stage [] ⟨(ESP_GATT_IF_NONE, { started.2 with hiddClcb := clcb }), registration⟩
  | battery {a clcb} :
      Stage [a] ⟨(a.gattsIf, { started.2 with hiddClcb := clcb }), [.appRegister HIDD_APP_ID]⟩
  | hidd {a b clcb} :
      Stage [a, b] ⟨(b.gattsIf, { started.2 with hiddClcb := clcb, gattIf := b.gattsIf }),
        [.createBasTab b.gattsIf]⟩
  | basTab {a b c clcb} :
      Stage [a, b, c] ⟨(b.gattsIf, { started.2 with
          hiddClcb := clcb, gattIf := b.gattsIf, inclSvc := inclOf c.bas.1 }),
        ((requests b.gattsIf c.bas.1 []).take 3).drop 1⟩
  | hiddTab {a b c d rest clcb} :
      Stage (a :: b :: c :: d :: rest) ⟨(b.gattsIf, { started.2 with
          hiddClcb := clcb, gattIf := b.gattsIf, inclSvc := inclOf c.bas.1, attTbl := d.hidd.1,
          hidDevRptTbl := hidAddIdTbl d.hidd.1 }),
        (requests b.gattsIf c.bas.1 d.hidd.1).drop (2 + rest.length)⟩

theorem prf_link (s : HiddLeEnv) {e : GattsEvent} (he : e.isLink = true) (gattsIf : GattIf) :
    ∃ clcb, (espHiddPrfCbHdl s e gattsIf).1 = { s with hiddClcb := clcb } ∧
      (espHiddPrfCbHdl s e gattsIf).2.filter Call.isRequest = [] := by
  have hcall : ∀ ev, (s.callback ev).filter Call.isRequest = [] := by
    intro ev
    unfold HiddLeEnv.callback
    split <;> rfl
  cases e with
  | reg status appId => simp [GattsEvent.isLink] at he
  | creatAttrTab status svcUuid handles => simp [GattsEvent.isLink] at he
  | connect connId remoteBda => exact ⟨_, rfl, hcall _⟩
  | disconnect connId => exact ⟨_, rfl, hcall _⟩
  | write connId handle value =>
      refine ⟨s.hiddClcb, rfl, ?_⟩
      simp only [espHiddPrfCbHdl]
      split
      · split <;> rfl
      · rfl
  | other => exact ⟨s.hiddClcb, rfl, rfl⟩

/-- An event of a host changes no more than the connections, and requests nothing. -/
theorem handle_link (s : Setup) {e : GattsEvent} (he : e.isLink = true) (gattsIf : GattIf) :
    ∃ clcb, s.handle (e, gattsIf) =
      (⟨(s.dev.1, { s.dev.2 with hiddClcb := clcb }), s.pending⟩, []) := by
  rcases s with ⟨⟨tabIf, env⟩, pending⟩
  have hgate : (gattsEventHandler tabIf e gattsIf).1 = tabIf := by
    cases e with
    | reg status appId => simp [GattsEvent.isLink] at he
    | _ => rfl
  simp only [Setup.handle, hidd_gatts, hgate]
  split
  · rcases prf_link env he gattsIf with ⟨clcb, hstate, hcalls⟩
    refine ⟨clcb, ?_⟩
    rw [hstate, hcalls, List.append_nil]
  · exact ⟨env.hiddClcb, by simp⟩

/-- An answer on the interface of the profile comes through. -/
theorem handle_own (tabIf : GattIf) (env : HiddLeEnv) (pending : List Call) {e : GattsEvent}
    (he : ∀ status appId, e ≠ .reg status appId) :
    Setup.handle ⟨(tabIf, env), pending⟩ (e, tabIf) =
      (⟨(tabIf, (espHiddPrfCbHdl env e tabIf).1),
        pending ++ (espHiddPrfCbHdl env e tabIf).2.filter Call.isRequest⟩,
        (espHiddPrfCbHdl env e tabIf).2.filter Call.isRequest) := by
  have hgate : gattsEventHandler tabIf e tabIf = (tabIf, true) := by
    cases e with
    | reg status appId => exact absurd rfl (he status appId)
    | _ => simp [gattsEventHandler]
  simp only [Setup.handle, hidd_gatts, hgate, if_true]

/-- The battery table is answered by the request of the HID table. -/
theorem creatAttrTab_bas (s : HiddLeEnv) {bas : List UInt16} (h : bas.length = BAS_IDX_NB)
    (gattsIf : GattIf) :
    espHiddPrfCbHdl s (.creatAttrTab ESP_GATT_OK ESP_GATT_UUID_BATTERY_SERVICE_SVC bas) gattsIf =
      ({ s with inclSvc := inclOf bas },
        [.createHiddTab (inclOf bas) gattsIf, .startService (bas.getD 0 0)]) := by
  have hne : ¬ BAS_IDX_NB = HIDD_LE_IDX_NB := by decide
  simp [espHiddPrfCbHdl, creatAttrTabEvt, h, hne, inclOf]

/-- The HID table is put into place. -/
theorem creatAttrTab_hidd (s : HiddLeEnv) {handles : List UInt16}
    (h : handles.length = HIDD_LE_IDX_NB) (gattsIf : GattIf) :
    espHiddPrfCbHdl s (.creatAttrTab ESP_GATT_OK HIDD_APP_ID handles) gattsIf =
      ({ s with attTbl := handles, hidDevRptTbl := hidAddIdTbl handles },
        [.startService (AttTbl.handle handles .svc)]) := by
  have hne : ¬ HIDD_LE_IDX_NB = BAS_IDX_NB := by decide
  simp [espHiddPrfCbHdl, creatAttrTabEvt, h, hne]

/-- A host that comes or goes leaves the stage. -/
theorem Stage.link {as : List Answer} {s : Setup} (h : Stage as s) {e : GattsEvent}
    (he : e.isLink = true) (gattsIf : GattIf) :
    Stage as (s.handle (e, gattsIf)).1 ∧ (s.handle (e, gattsIf)).2 = [] := by
  rcases handle_link s he gattsIf with ⟨clcb, hstep⟩
  rw [hstep]
  refine ⟨?_, rfl⟩
  cases h with
  | start => exact .start
  | battery => exact .battery
  | hidd => exact .hidd
  | basTab => exact .basTab
  | hiddTab => exact .hiddTab

/-- An answer takes the setup to the next stage. -/
theorem Stage.answer {as : List Answer} {s : Setup} (h : Stage as s) (x : Answer) :
    Stage (as ++ [x]) (setup.step s (.answer x)).1 ∧
      requestsOf as ++ (setup.step s (.answer x)).2 = requestsOf (as ++ [x]) := by
  cases h with
  | start => exact ⟨.battery, rfl⟩
  | battery => exact ⟨.hidd, rfl⟩
  | @hidd a b clcb =>
      have hstep := handle_own b.gattsIf
        { started.2 with hiddClcb := clcb, gattIf := b.gattsIf } []
        (e := .creatAttrTab ESP_GATT_OK ESP_GATT_UUID_BATTERY_SERVICE_SVC x.bas.1) (by simp)
      rw [creatAttrTab_bas _ x.bas.2] at hstep
      simp only [setup, Answer.event, hstep]
      exact ⟨.basTab, rfl⟩
  | @basTab a b c clcb =>
      have hstep := handle_own b.gattsIf
        { started.2 with hiddClcb := clcb, gattIf := b.gattsIf, inclSvc := inclOf c.bas.1 }
        [.startService (c.bas.1.getD 0 0)]
        (e := .creatAttrTab ESP_GATT_OK HIDD_APP_ID x.hidd.1) (by simp)
      rw [creatAttrTab_hidd _ x.hidd.2] at hstep
      simp only [setup, requests, List.take, List.drop, Answer.event, hstep]
      exact ⟨.hiddTab, rfl⟩
  | @hiddTab a b c d rest clcb =>
      -- a service that has started is an event like any other
      match rest with
      | [] =>
          have hnext := (@Stage.hiddTab a b c d [x] clcb).link (e := .other) rfl x.gattsIf
          exact ⟨hnext.1, (congrArg (requests b.gattsIf c.bas.1 d.hidd.1 ++ ·) hnext.2).trans
            (List.append_nil _)⟩
      | [y] =>
          have hnext := (@Stage.hiddTab a b c d [y, x] clcb).link (e := .other) rfl x.gattsIf
          exact ⟨hnext.1, (congrArg (requests b.gattsIf c.bas.1 d.hidd.1 ++ ·) hnext.2).trans
            (List.append_nil _)⟩
      | y :: z :: rest =>
          have hnone : ∀ more : List Answer,
              (requests b.gattsIf c.bas.1 d.hidd.1).drop (2 + (y :: z :: more).length) = [] := by
            intro more
            exact List.drop_eq_nil_of_le (by simp [requests]; omega)
          rw [hnone rest]
          refine ⟨?_, List.append_nil _⟩
          have hlast := @Stage.hiddTab a b c d (y :: z :: (rest ++ [x])) clcb
          rwa [hnone (rest ++ [x])] at hlast

/-- The stage, and what was requested, are told by the answers. -/
theorem setup_stage (is : List StackStep) :
    Stage (answers is) (setup.state ⟨started, registration⟩ is) ∧
      setup.out ⟨started, registration⟩ is = requestsOf (answers is) := by
  suffices h : ∀ (as : List Answer) (s : Setup), Stage as s →
      Stage (as ++ answers is) (setup.state s is) ∧
        requestsOf as ++ setup.out s is = requestsOf (as ++ answers is) from h [] _ .start
  induction is with
  | nil =>
      intro as s h
      rw [answers, List.append_nil, Transducer.out_nil, List.append_nil]
      exact ⟨h, rfl⟩
  | cons i is ih =>
      intro as s h
      rw [Transducer.state_cons, Transducer.out_cons, ← List.append_assoc]
      cases i with
      | answer a =>
          have hnext := h.answer a
          have hrest := ih _ _ hnext.1
          rwa [List.append_assoc, List.singleton_append, ← hnext.2] at hrest
      | link e gattsIf =>
          have hnext := h.link e.2 gattsIf
          have hrest := ih _ _ hnext.1
          have hout : (setup.step s (.link e gattsIf)).2 = [] := hnext.2
          rwa [hout, List.append_nil]

/-- With hosts coming and going at any time, what the profile requests is told by the answers,
so that nothing is requested twice. After six answers the services are set up: nothing is
pending, the profile listens on the interface it sends on, which is that of the second answer,
reports go by the handles of the fourth, and the HID service includes the battery service of
the third. -/
theorem setup_run (is : List StackStep) :
    setup.out ⟨started, registration⟩ is = requestsOf (answers is) ∧
      ∀ a b c d e f rest, answers is = a :: b :: c :: d :: e :: f :: rest →
        setup.out ⟨started, registration⟩ is = requests b.gattsIf c.bas.1 d.hidd.1 ∧
        (setup.state ⟨started, registration⟩ is).pending = [] ∧
        (setup.state ⟨started, registration⟩ is).dev.1 = b.gattsIf ∧
        (setup.state ⟨started, registration⟩ is).dev.2.gattIf = b.gattsIf ∧
        (setup.state ⟨started, registration⟩ is).dev.2.inclSvc = inclOf c.bas.1 ∧
        (setup.state ⟨started, registration⟩ is).dev.2.hidDevRptTbl = hidAddIdTbl d.hidd.1 := by
  rcases setup_stage is with ⟨hstage, hout⟩
  refine ⟨hout, ?_⟩
  intro a b c d e f rest has
  rw [has] at hstage hout
  refine ⟨hout, ?_⟩
  generalize setup.state ⟨started, registration⟩ is = s at hstage
  cases hstage with
  | hiddTab =>
      refine ⟨List.drop_eq_nil_of_le ?_, rfl, rfl, rfl, rfl⟩
      simp only [requests, List.length_cons, List.length_nil]
      omega

end Cse121.Hidd
