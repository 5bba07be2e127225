import Cse121.AirMouse.Advertising

/-! # The pointer that goes to and fro

`lab4_2.c` moves the pointer without a sensor: twenty steps to the right and twenty back, again
and again, once it has seen a connection.
-/

namespace Cse121.Hidd

open Cse121.Lab43

/-! ## The program -/

/-- The variables of `lab4_2.c`, and where its task stands. -/
structure Sweep where
  hidConnId : UInt16 := 0
  connected : Bool := false
  /-- the step of the cycle that comes next, once the task has seen a connection -/
  i : Option (Fin 40) := none
deriving DecidableEq, Repr

/-- `send_mouse_move`. -/
def Sweep.sendMouseMove (s : Sweep) (x y : Int) : List Report :=
  if s.connected then [⟨s.hidConnId, 0, x, y⟩] else []

/-- What `mouse_move_task` does between two delays. -/
def mouseMoveTask (s : Sweep) : Sweep × List Report :=
  match s.i with
  | none => if s.connected then ({ s with i := some 0 }, []) else (s, [])
  | some i => ({ s with i := some (i + 1) }, s.sendMouseMove (if i < 20 then 10 else -10) 0)

/-- `lab4_2.c`. -/
def lab42 : Program Sweep Unit where
  start := {}
  connected s := s.connected
  hidConnId s := s.hidConnId
  callback _ e s :=
    match e with
    | .bleConnect connId _ => { s with hidConnId := connId, connected := true }
    | .bleDisconnect => { s with connected := false }
    | _ => s
  task _ s := mouseMoveTask s
  connected_start := rfl
  callback_connect _ _ _ _ := ⟨rfl, rfl⟩
  callback_disconnect _ _ := rfl
  callback_other := by
    intro t e s hconn hdis
    cases e with
    | bleConnect connId bda => exact absurd rfl (hconn connId bda)
    | bleDisconnect => exact absurd rfl hdis
    | _ => rfl
  task_link := by
    intro _ s
    simp only [mouseMoveTask]
    split
    · split <;> exact ⟨rfl, rfl⟩
    · exact ⟨rfl, rfl⟩
  task_sends := by
    intro _ s r hr
    simp only [mouseMoveTask] at hr
    split at hr
    · split at hr <;> simp at hr
    · simp only [Sweep.sendMouseMove, List.mem_ite_nil_right, List.mem_singleton] at hr
      exact ⟨hr.1, hr.2 ▸ rfl⟩

/-! ## The pointer -/

/-- The step of the cycle that comes next. -/
def Sweep.next (s : Sweep) : Fin 40 := s.i.getD 0

/-- How far the pointer is then from where the cycle begins. -/
def place (i : Fin 40) : Int := if i ≤ 20 then 10 * i.val else 10 * (40 - i.val)

theorem place_range : ∀ i, 0 ≤ place i ∧ place i ≤ 200 := by decide

theorem place_succ : ∀ i : Fin 40, place i + (if i < 20 then 10 else -10) = place (i + 1) := by
  decide

/-- The moves of a host, among all calls. -/
def bleMoves (t : AttTbl) (calls : List BleCall) : List (Int × Int) :=
  hostMoves t (calls.filterMap fun c =>
    match c with
    | .gatts c => some c
    | .gap _ => none)

theorem bleMoves_append (t : AttTbl) (xs ys : List BleCall) :
    bleMoves t (xs ++ ys) = bleMoves t xs ++ bleMoves t ys := by
  simp only [bleMoves, hostMoves, List.filterMap_append]

theorem bleMoves_silent (t : AttTbl) {calls : List BleCall}
    (h : ∀ x, .gatts (.sendIndicate x) ∉ calls) : bleMoves t calls = [] := by
  rw [bleMoves, hostMoves, List.filterMap_eq_nil_iff]
  intro c hc
  rcases List.mem_filterMap.1 hc with ⟨c', hc', hcc⟩
  cases c' with
  | gap g => simp at hcc
  | gatts g =>
      obtain rfl : g = c := Option.some.inj hcc
      cases g with
      | sendIndicate x => exact absurd hc' (h x)
      | _ => rfl

/-- Moves of the pointer that go through the cycle, from one state to another. -/
structure Swings (s s' : Sweep) (moves : List (Int × Int)) : Prop where
  level : ∀ m ∈ moves, m.2 = 0
  next : s'.next = s.next + Fin.ofNat 40 moves.length
  place : ∀ k ≤ moves.length,
    place s.next + ((moves.take k).map Prod.fst).sum = place (s.next + Fin.ofNat 40 k)

theorem Swings.refl (s : Sweep) : Swings s s [] := by
  refine ⟨by simp, by simp, ?_⟩
  intro k hk
  obtain rfl : k = 0 := Nat.le_zero.1 hk
  simp

theorem Swings.sum {s s' : Sweep} {moves : List (Int × Int)} (h : Swings s s' moves) :
    Hidd.place s.next + (moves.map Prod.fst).sum = Hidd.place s'.next := by
  have hall := h.place moves.length le_rfl
  rwa [List.take_length, ← h.next] at hall

/-- The pointer stays within the cycle. -/
theorem Swings.range {s s' : Sweep} {moves : List (Int × Int)} (h : Swings s s' moves) (k : Nat) :
    let x := Hidd.place s.next + ((moves.take k).map Prod.fst).sum
    0 ≤ x ∧ x ≤ 200 := by
  intro x
  have hx : ∃ i, x = Hidd.place i := by
    by_cases hk : k ≤ moves.length
    · exact ⟨_, h.place k hk⟩
    · refine ⟨_, Eq.trans ?_ h.sum⟩
      show Hidd.place s.next + _ = _
      rw [List.take_of_length_le (by omega)]
  rcases hx with ⟨i, hi⟩
  rw [hi]
  exact place_range i

theorem Swings.append {s s' s'' : Sweep} {moves moves' : List (Int × Int)}
    (h : Swings s s' moves) (h' : Swings s' s'' moves') : Swings s s'' (moves ++ moves') := by
  have hadd : ∀ (i : Fin 40) (m n : Nat),
      i + Fin.ofNat 40 m + Fin.ofNat 40 n = i + Fin.ofNat 40 (m + n) := by
    intro i m n
    rw [Fin.ext_iff]
    simp only [Fin.val_add, Fin.val_ofNat]
    omega
  refine ⟨?_, ?_, ?_⟩
  · intro m hm
    exact (List.mem_append.1 hm).elim (h.level m) (h'.level m)
  · rw [h'.next, h.next, List.length_append, hadd]
  · intro k hk
    rw [List.length_append] at hk
    by_cases hfirst : k ≤ moves.length
    · rw [List.take_append_of_le_length hfirst]
      exact h.place k hfirst
    · -- the first moves are all made
      have hrest := h'.place (k - moves.length) (by omega)
      rw [h.next, hadd, Nat.add_sub_cancel' (by omega), ← h.next] at hrest
      rw [List.take_append, List.take_of_length_le (by omega), List.map_append, List.sum_append,
        ← add_assoc, h.sum, hrest]

/-- A turn of the task moves the pointer of a host that is connected to the next place. -/
theorem task_swings {t : AttTbl} {s : Ble Sweep} (hconn : s.app.connected = true)
    (htable : s.dev.2.hidDevRptTbl = hidAddIdTbl t) :
    Swings s.app (lab42.ble.step s (.task ())).1.app
      (bleMoves t (lab42.ble.step s (.task ())).2) := by
  rcases s with ⟨dev, ⟨hidConnId, connected, i⟩, pending, ifs, advData, advertising, hosts⟩
  obtain rfl : connected = true := hconn
  have hsends := (hidd_sends dev ((mouseMoveTask ⟨hidConnId, true, i⟩).2.map sendOf)).2
  rw [List.map_map] at hsends
  have hout : bleMoves t (lab42.ble.step ⟨dev, ⟨hidConnId, true, i⟩, pending, ifs, advData,
      advertising, hosts⟩ (.task ())).2 = hostMoves t (hidd.out dev
        ((mouseMoveTask ⟨hidConnId, true, i⟩).2.map (Input.send ∘ sendOf))) := by
    simp only [bleMoves, Program.ble, List.filterMap_map]
    exact congrArg (hostMoves t) (List.filterMap_some)
  rw [hout, hsends, htable]
  cases i with
  | none =>
      have hstart := Swings.refl ⟨hidConnId, true, none⟩
      exact ⟨hstart.level, hstart.next, hstart.place⟩
  | some i =>
      have hmove : ∀ x : Int, -24 ≤ x ∧ x ≤ 24 →
          hostMoves t ((((sendOf ⟨hidConnId, 0, x, 0⟩).run (hidAddIdTbl t) dev.2.gattIf).toList.map
            .sendIndicate)) = [(x, 0)] := fun x hx => hostMoves_report t dev.2.gattIf hx (by simp)
      have hstep := hmove (if i < 20 then 10 else -10) (by split <;> decide)
      simp only [mouseMoveTask, Sweep.sendMouseMove, if_true, List.map_cons, List.map_nil,
        List.flatMap_cons, List.flatMap_nil, List.append_nil, hstep]
      show Swings _ ⟨hidConnId, true, some (i + 1)⟩ _
      refine ⟨by simp, rfl, ?_⟩
      intro k hk
      have hone : k ≤ 1 := hk
      rcases Nat.le_one_iff_eq_zero_or_eq_one.1 hone with rfl | rfl
      · simp
      · show place i + ([if i < 20 then 10 else -10] : List Int).sum = place (i + 1)
        rw [List.sum_singleton]
        exact place_succ i

/-! ## While a host stays -/

def BleInput.isDisconnect {τ : Type} : BleInput τ → Bool
  | .disconnect _ _ _ => true
  | _ => false

/-- Once all requests are answered, nothing but a disconnection and the task itself has an
effect on the program and on where it sends. -/
theorem Ble.Inv.stays {σ τ : Type} {P : Program σ τ} {refused : Prop} {as : List Answer}
    {s : Ble σ} (h : s.Inv P refused as) (hconn : P.connected s.app = true)
    (hpending : s.pending = []) {i : BleInput τ} (hi : i.isDisconnect = false)
    (htask : ∀ k, i ≠ .task k) :
    (P.ble.step s i).1.dev.2.hidDevRptTbl = s.dev.2.hidDevRptTbl ∧
      (P.ble.step s i).1.pending = s.pending ∧ (P.ble.step s i).1.app = s.app ∧
      ∀ x, .gatts (.sendIndicate x) ∉ (P.ble.step s i).2 := by
  have hstill : ∀ r, r = (s, []) → r.1.dev.2.hidDevRptTbl = s.dev.2.hidDevRptTbl ∧
      r.1.pending = s.pending ∧ r.1.app = s.app ∧ ∀ x, BleCall.gatts (.sendIndicate x) ∉ r.2 := by
    rintro r rfl
    exact ⟨rfl, rfl, rfl, fun _ => List.not_mem_nil⟩
  cases i with
  | answer a t =>
      refine hstill _ ?_
      simp only [Program.ble, Program.answer, hpending]
  | gap e ok =>
      simp only [Program.ble]
      split <;> simp [Ble.gapCalls]
  | connect connId bda t =>
      refine hstill _ ?_
      cases h.place with
      | hidden _ _ halone => exact absurd (halone.2.1.symm.trans hconn) Bool.false_ne_true
      | free _ _ _ halone => exact absurd (halone.2.1.symm.trans hconn) Bool.false_ne_true
      | linked _ _ _ _ hadv _ _ _ _ =>
          exact if_neg fun hfree => Bool.false_ne_true (hadv.symm.trans hfree.1)
  | disconnect connId t ok => simp [BleInput.isDisconnect] at hi
  | host e gattsIf t =>
      by_cases he : e.isOther = true
      · have hstep : P.ble.step s (.host e gattsIf t) = P.gatts true t s e gattsIf := if_pos he
        have hlink : e.isLink = true := by
          cases e <;> simp_all [GattsEvent.isOther, GattsEvent.isLink]
        have hquiet := gatts_quiet P true t s (e := e)
          (by rintro _ _ rfl; simp [GattsEvent.isOther] at he)
          (by rintro _ rfl; simp [GattsEvent.isOther] at he) gattsIf
        rcases prf_link s.dev.2 hlink gattsIf with ⟨clcb, henv, hcalls⟩
        rw [hstep]
        refine ⟨?_, ?_, hquiet.1, gatts_sends P true t s e gattsIf⟩
        · rw [gatts_through]
          split
          · show (espHiddPrfCbHdl s.dev.2 e gattsIf).1.hidDevRptTbl = _
            rw [henv]
          · rfl
        · rw [gatts_through]
          split
          · exact (congrArg (s.pending ++ ·) hcalls).trans (List.append_nil _)
          · rfl
      · exact hstill _ (if_neg he)
  | task k => exact absurd rfl (htask k)

/-- The table that the requests lead to. -/
theorem Stage.table {as : List Answer} {dev : GattIf × HiddLeEnv} (h : Stage as ⟨dev, []⟩) :
    ∃ t, dev.2.hidDevRptTbl = hidAddIdTbl t := by
  generalize hs : (⟨dev, []⟩ : Setup) = s at h
  cases h with
  | @hiddTab a b c d rest clcb =>
      injection hs with hdev _
      exact ⟨d.hidd.1, by rw [hdev]⟩
  | _ => injection hs with _ hp; cases hp

/-- One input of such a time. -/
theorem stays_swings {refused : Prop} {as : List Answer} {s : Ble Sweep}
    (h : s.Inv lab42 refused as) {t : AttTbl} (hconn : s.app.connected = true)
    (hpending : s.pending = []) (htable : s.dev.2.hidDevRptTbl = hidAddIdTbl t)
    {i : BleInput Unit} (hi : i.isDisconnect = false) :
    (lab42.ble.step s i).1.app.connected = true ∧ (lab42.ble.step s i).1.pending = [] ∧
      (lab42.ble.step s i).1.dev.2.hidDevRptTbl = hidAddIdTbl t ∧
      Swings s.app (lab42.ble.step s i).1.app (bleMoves t (lab42.ble.step s i).2) := by
  by_cases htask : ∃ k, i = .task k
  · rcases htask with ⟨k, rfl⟩
    have hsends := (hidd_sends s.dev ((lab42.task k s.app).2.map sendOf)).1
    rw [List.map_map] at hsends
    have hdev : (lab42.ble.step s (.task k)).1.dev = s.dev := hsends
    refine ⟨(lab42.task_link k s.app).1.trans hconn, hpending, ?_, task_swings hconn htable⟩
    rw [hdev, htable]
  · rcases h.stays hconn hpending hi (not_exists.1 htask) with ⟨htab, hpend, happ, hsend⟩
    rw [happ, htab, hpend, bleMoves_silent t hsend]
    exact ⟨hconn, hpending, htable, Swings.refl _⟩

/-- As long as nobody disconnects, a program that is connected stays so, and the host sees it go
through its cycle. -/
theorem swings_run (is : List (BleInput Unit)) {t : AttTbl}
    (hconn : (lab42.ble.state lab42.boot is).app.connected = true)
    (hset : (lab42.ble.state lab42.boot is).pending = [])
    (htable : (lab42.ble.state lab42.boot is).dev.2.hidDevRptTbl = hidAddIdTbl t)
    {js : List (BleInput Unit)} (hjs : ∀ i ∈ js, i.isDisconnect = false) :
    let s := lab42.ble.state lab42.boot is
    (lab42.ble.state s js).app.connected = true ∧ (lab42.ble.state s js).pending = [] ∧
      (lab42.ble.state s js).dev.2.hidDevRptTbl = hidAddIdTbl t ∧
      Swings s.app (lab42.ble.state s js).app (bleMoves t (lab42.ble.out s js)) := by
  intro s
  induction js using List.reverseRecOn with
  | nil => exact ⟨hconn, hset, htable, Swings.refl _⟩
  | append_singleton js i ih =>
      rcases ih (fun k hk => hjs k (List.mem_append_left _ hk)) with ⟨hc, hp, ht, hswing⟩
      rcases ble_inv lab42 (is ++ js) with ⟨as, h⟩
      rw [Transducer.state_append] at h
      rcases stays_swings h hc hp ht (hjs i (by simp)) with ⟨hc', hp', ht', hswing'⟩
      rw [Transducer.state_append, Transducer.out_append, bleMoves_append]
      simp only [Transducer.state_cons, Transducer.state_nil, Transducer.out_cons,
        Transducer.out_nil, List.append_nil]
      exact ⟨hc', hp', ht', hswing.append hswing'⟩

/-- While a host stays connected, its pointer goes to and fro over two hundred units, and after
every fortieth move it is back. -/
theorem pointer_returns (is js : List (BleInput Unit))
    (hset : (lab42.ble.state lab42.boot is).pending = [])
    (hhost : (lab42.ble.state lab42.boot is).hosts ≠ [])
    (hjs : ∀ i ∈ js, i.isDisconnect = false) :
    let s := lab42.ble.state lab42.boot is
    (∃ t, s.dev.2.hidDevRptTbl = hidAddIdTbl t) ∧
      ∀ t, s.dev.2.hidDevRptTbl = hidAddIdTbl t →
        let moves := bleMoves t (lab42.ble.out s js)
        (∀ m ∈ moves, m.2 = 0) ∧
        (∀ k, let x := place s.app.next + ((moves.take k).map Prod.fst).sum; 0 ≤ x ∧ x ≤ 200) ∧
        (40 ∣ moves.length → (moves.map Prod.fst).sum = 0) := by
  intro s
  rcases ble_inv lab42 is with ⟨as, h⟩
  have hstage : Stage as ⟨s.dev, s.pending⟩ := h.stage
  rw [hset] at hstage
  refine ⟨hstage.table, ?_⟩
  intro t htable
  have hconn : s.app.connected = true := by
    cases h.place with
    | hidden _ _ halone => exact absurd halone.1 hhost
    | free _ _ _ halone => exact absurd halone.1 hhost
    | linked _ _ _ _ _ _ hconn _ _ => exact hconn
  have hswing : Swings s.app (lab42.ble.state s js).app (bleMoves t (lab42.ble.out s js)) :=
    (swings_run is hconn hset htable hjs).2.2.2
  refine ⟨hswing.level, hswing.range, ?_⟩
  -- after whole cycles the task stands where it stood
  rintro ⟨n, hn⟩
  have hnext : (lab42.ble.state s js).app.next = s.app.next := by
    rw [hswing.next, hn, Fin.ext_iff]
    simp only [Fin.val_add, Fin.val_ofNat]
    omega
  have hsum := hswing.sum
  rw [hnext] at hsum
  omega

/-- A host that connects when the services are set up, and forty-one turns later. -/
theorem pointer_returns_once :
    let t := (List.range 37).map fun k => UInt16.ofNat (60 + k)
    let answer := fun gattsIf : GattIf =>
      (BleInput.answer ⟨gattsIf, ⟨[50, 51, 52, 53, 54], rfl⟩, ⟨t, rfl⟩⟩ 0 : BleInput Unit)
    let is := [answer 3, answer 4, answer 4, answer 4, answer 4, answer 4,
      .gap .advDataSetComplete true, .connect 0 [1, 2, 3, 4, 5, 6] 0]
    let moves := bleMoves t (lab42.ble.out (lab42.ble.state lab42.boot is)
      (List.replicate 41 (.task ())))
    moves.length = 40 ∧ moves.head? = some (10, 0) ∧ (moves.map Prod.fst).sum = 0 := by
  intro t answer is moves
  have h := pointer_returns is (List.replicate 41 (.task ())) (by decide +kernel)
    (by decide +kernel) (by decide +kernel)
  have hlength : moves.length = 40 := by decide +kernel
  exact ⟨hlength, by decide +kernel,
    (h.2 t (by decide +kernel)).2.2 ⟨1, hlength⟩⟩

end Cse121.Hidd
