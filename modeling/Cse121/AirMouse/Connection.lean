import Cse121.AirMouse.Accel

/-! # The connection of the air mouse

`lab4_3/main/lab4_3.c`: `hidd_event_callback` follows the BLE connection, and every turn
of `imu_mouse_task` moves the pointer, if there is one to move. The two run
interleaved; the task goes on measuring the tilt while nobody is connected.
-/

namespace Cse121.Lab43

/-- What happens to the file's variables. Times are those of `esp_timer_get_time`. -/
inductive Event where
  /-- `ESP_HIDD_EVENT_BLE_CONNECT` -/
  | connect (timerUs : Int) (connId : UInt16)
  /-- `ESP_HIDD_EVENT_BLE_DISCONNECT` -/
  | disconnect (timerUs : Int)
  /-- an event of the callback that leaves the variables alone -/
  | other (timerUs : Int)
  /-- a turn of `imu_mouse_task` with filtered tilts; the clock is read once for each axis -/
  | turn (fx fy : ℚ) (timerXUs timerYUs : Int)
  /-- a turn of `imu_mouse_task` that could not read the sensor -/
  | readFailed (timerUs : Int)
deriving DecidableEq, Repr

/-- The times of an event, in order. -/
def Event.times : Event → List Int
  | .connect t _ => [t]
  | .disconnect t => [t]
  | .other t => [t]
  | .turn _ _ tx ty => [tx, ty]
  | .readFailed t => [t]

/-- The connection changes. -/
def Event.isLink : Event → Bool
  | .connect _ _ => true
  | .disconnect _ => true
  | _ => false

/-- A turn of the task that has a tilt. -/
def Event.isTurn : Event → Bool
  | .turn _ _ _ _ => true
  | _ => false

/-- A call of `esp_hidd_send_mouse_value`. -/
structure Report where
  connId : UInt16
  mouseButton : Int
  mickeysX : Int
  mickeysY : Int
deriving DecidableEq, Repr

/-- The variables of the file. -/
structure AirMouse where
  hidConnId : UInt16 := 0
  connected : Bool := false
  dirX : DirectionState := ⟨0, .none, false⟩
  dirY : DirectionState := ⟨0, .none, false⟩
deriving DecidableEq, Repr

/-- `send_mouse_move`. -/
def sendMouseMove (s : AirMouse) (x y : Int) : List Report :=
  if s.connected then [⟨s.hidConnId, 0, x, y⟩] else []

/-- The end of a turn of `imu_mouse_task`, from the filtered tilts on. -/
def moveMouse (s : AirMouse) (fx fy : ℚ) (timerXUs timerYUs : Int) : AirMouse × List Report :=
  let mouseX := calculateMouseDelta s.dirX ⟨fx, timerXUs⟩
  let mouseY := calculateMouseDelta s.dirY ⟨-fy, timerYUs⟩
  let s := { s with dirX := mouseX.1, dirY := mouseY.1 }
  (s, if s.connected ∧ (mouseX.2 ≠ 0 ∨ mouseY.2 ≠ 0) then
      sendMouseMove s mouseX.2 mouseY.2
    else [])

/-- The callback and the task, an event at a time. -/
def airMouse : Transducer AirMouse Event Report where
  step s
    | .connect _ connId =>
        ({ hidConnId := connId
           connected := true
           dirX := { s.dirX with active := false }
           dirY := { s.dirY with active := false } }, [])
    | .disconnect _ => ({ s with connected := false }, [])
    | .other _ => (s, [])
    | .turn fx fy timerXUs timerYUs => moveMouse s fx fy timerXUs timerYUs
    | .readFailed _ => (s, [])

/-- Events at times that do not decrease. -/
def InOrder (es : List Event) : Prop := (es.flatMap Event.times).Pairwise (· ≤ ·)

theorem InOrder.left {es es' : List Event} (h : InOrder (es ++ es')) : InOrder es := by
  unfold InOrder at h
  rw [List.flatMap_append, List.pairwise_append] at h
  exact h.1

/-- An event comes no earlier than those before it. -/
theorem InOrder.le {pre b : List Event} {c e : Event} (h : InOrder (pre ++ c :: b ++ [e])) :
    ∀ t ∈ c.times, ∀ t' ∈ e.times, t ≤ t' := by
  intro t ht t' ht'
  unfold InOrder at h
  rw [List.flatMap_append, List.pairwise_append] at h
  refine h.2.2 t ?_ t' (by simpa using ht')
  rw [List.flatMap_append, List.flatMap_cons]
  exact List.mem_append_right _ (List.mem_append_left _ ht)

/-! ## One axis -/

/-- A call restarts the time of a direction, or leaves that of an active one. -/
theorem calculate_start (dir : DirectionState) (x : Reading) :
    (calculateMouseDelta dir x).1.startTimeMs = x.nowMs ∨
      dir.active = true ∧ (calculateMouseDelta dir x).1.startTimeMs = dir.startTimeMs := by
  by_cases hrest : x.level = .none ∨ dir.active = false
  · left
    rw [calculate_rest hrest]
  · push Not at hrest
    rcases dir with ⟨start, level, active⟩
    obtain rfl : active = true := by simpa using hrest.2
    rw [calculate_held hrest.1]
    by_cases hlevel : level = x.level <;> simp [hlevel]

/-- Only an active direction moves the pointer. -/
theorem calculate_active {dir : DirectionState} {x : Reading}
    (h : (calculateMouseDelta dir x).2 ≠ 0) : dir.active = true := by
  by_contra hdir
  rw [calculate_rest (Or.inr (by simpa using hdir))] at h
  exact h rfl

/-- A direction that became active after `t` moves the pointer at the base speed for
200 ms after `t`. -/
theorem calculate_slow {dir : DirectionState} {x : Reading} {t : Int}
    (hstart : dir.active = true → t ≤ dir.startTimeMs) (hx : x.nowMs - t ≤ 200) :
    |(calculateMouseDelta dir x).2| ≤ baseSpeed x.level := by
  have hbase := baseSpeed_pos x.level
  by_cases hrest : x.level = .none ∨ dir.active = false
  · rw [calculate_rest hrest]
    exact hbase.le
  · push Not at hrest
    rcases dir with ⟨start, level, active⟩
    obtain rfl : active = true := by simpa using hrest.2
    have hle : t ≤ start := hstart rfl
    have hmult : accelMult (x.nowMs - if level = x.level then start else x.nowMs) = 1 := by
      unfold accelMult
      split <;> rw [if_neg (by omega), if_neg (by omega)]
    rw [calculate_held hrest.1]
    simp only [hmult, Int.mul_one]
    split
    · exact (abs_of_pos hbase).le
    · rw [abs_neg]
      exact (abs_of_pos hbase).le

/-! ## The connection -/

/-- While connected, the variables tell the most recent connect, and a direction is
active only through a turn after it. -/
def Linked (pre : List Event) (s : AirMouse) : Prop :=
  s.connected = true → ∃ a t connId b, pre = a ++ .connect t connId :: b ∧
    (∀ x ∈ b, x.isLink = false) ∧ s.hidConnId = connId ∧
    ((s.dirX.active = true ∨ s.dirY.active = true) → ∃ x ∈ b, x.isTurn = true) ∧
    (s.dirX.active = true → t.tdiv 1000 ≤ s.dirX.startTimeMs) ∧
    (s.dirY.active = true → t.tdiv 1000 ≤ s.dirY.startTimeMs)

/-- An event that leaves the variables alone is one more after the connect. -/
theorem Linked.skip {pre : List Event} {s : AirMouse} (h : Linked pre s) {e : Event}
    (he : e.isLink = false) : Linked (pre ++ [e]) s := by
  intro hconn
  rcases h hconn with ⟨a, t, connId, b, rfl, hb, hid, hturn, hx, hy⟩
  refine ⟨a, t, connId, b ++ [e], by simp, ?_, hid, ?_, hx, hy⟩
  · intro x hxb
    rcases List.mem_append.1 hxb with hxb | hxb
    · exact hb x hxb
    · rw [List.mem_singleton.1 hxb]
      exact he
  · intro hactive
    rcases hturn hactive with ⟨x, hxb, hxt⟩
    exact ⟨x, List.mem_append_left _ hxb, hxt⟩

/-- At most 200 ms on the clock are at most 200 in the milliseconds of the code. -/
theorem tdiv_within {a b : Int} (h : b - a ≤ 200000) : b.tdiv 1000 - a.tdiv 1000 ≤ 200 := by
  have hle : b.tdiv 1000 ≤ (a + 200000).tdiv 1000 :=
    Int.tdiv_le_tdiv (by decide) (by omega)
  have hadd : (a + 200000).tdiv 1000 ≤ a.tdiv 1000 + 200 := by
    rw [Int.tdiv_eq_ediv, Int.tdiv_eq_ediv]
    simp only [Int.sign_eq_one_of_pos (by decide : (0 : Int) < 1000)]
    split <;> split <;> omega
  omega

/-- A turn of the task keeps the link. -/
theorem Linked.turn {pre : List Event} {s : AirMouse} (h : Linked pre s) {fx fy : ℚ}
    {tx ty : Int} (hord : InOrder (pre ++ [.turn fx fy tx ty])) :
    Linked (pre ++ [.turn fx fy tx ty]) (moveMouse s fx fy tx ty).1 := by
  intro hconn
  rcases h hconn with ⟨a, t, connId, b, rfl, hb, hid, hturn, hx, hy⟩
  have hle := hord.le t (by simp [Event.times])
  -- the axes keep milliseconds
  have htx : t.tdiv 1000 ≤ tx.tdiv 1000 := by
    apply Int.tdiv_le_tdiv (by decide)
    exact hle tx (by simp [Event.times])
  have hty : t.tdiv 1000 ≤ ty.tdiv 1000 := by
    apply Int.tdiv_le_tdiv (by decide)
    exact hle ty (by simp [Event.times])
  refine ⟨a, t, connId, b ++ [.turn fx fy tx ty], by simp, ?_, hid, ?_, ?_, ?_⟩
  · intro x hxb
    rcases List.mem_append.1 hxb with hxb | hxb
    · exact hb x hxb
    · rw [List.mem_singleton.1 hxb]
      rfl
  · intro _
    exact ⟨.turn fx fy tx ty, by simp, rfl⟩
  · intro _
    rcases calculate_start s.dirX ⟨fx, tx⟩ with hstart | ⟨hactive, hstart⟩
    · exact hstart.symm ▸ htx
    · exact hstart.symm ▸ hx hactive
  · intro _
    rcases calculate_start s.dirY ⟨-fy, ty⟩ with hstart | ⟨hactive, hstart⟩
    · exact hstart.symm ▸ hty
    · exact hstart.symm ▸ hy hactive

/-- The link holds after any events in order. -/
theorem linked_run {pre : List Event} (hord : InOrder pre) :
    Linked pre (airMouse.state {} pre) := by
  refine Transducer.history_invariant airMouse {} (fun pre s => InOrder pre → Linked pre s)
    ?_ ?_ pre hord
  · intro _ hconn
    simp at hconn
  · intro pre e s ih hord
    have hpre := ih hord.left
    cases e with
    | connect t connId =>
        intro _
        exact ⟨pre, t, connId, [], rfl, by simp, rfl, by simp [airMouse], by simp [airMouse],
          by simp [airMouse]⟩
    | disconnect t =>
        intro hconn
        simp [airMouse] at hconn
    | other t => exact hpre.skip rfl
    | turn fx fy tx ty => exact hpre.turn hord
    | readFailed t => exact hpre.skip rfl

/-- A report is sent by a turn of the task, while connected, to the most recent connect;
a turn came before it since then, and for 200 ms since then it moves the pointer at the
base speed at most. -/
theorem report_safe {es : List Event} (hord : InOrder es) {pre post : List Event} {e : Event}
    (hes : es = pre ++ e :: post) {r : Report}
    (hr : r ∈ (airMouse.step (airMouse.state {} pre) e).2) :
    ∃ fx fy tx ty, e = .turn fx fy tx ty ∧
      ∃ a t connId b, pre = a ++ .connect t connId :: b ∧ (∀ x ∈ b, x.isLink = false) ∧
        r.connId = connId ∧ (∃ x ∈ b, x.isTurn = true) ∧
        (ty - t ≤ 200000 → |r.mickeysX| ≤ baseSpeed (getTiltLevel fx) ∧
          |r.mickeysY| ≤ baseSpeed (getTiltLevel (-fy))) := by
  have hsplit : pre ++ e :: post = (pre ++ [e]) ++ post := by simp
  rw [hes, hsplit] at hord
  have hpre := linked_run hord.left.left
  generalize airMouse.state {} pre = s at hpre hr
  cases e with
  | connect t connId => simp [airMouse] at hr
  | disconnect t => simp [airMouse] at hr
  | other t => simp [airMouse] at hr
  | readFailed t => simp [airMouse] at hr
  | turn fx fy tx ty =>
      refine ⟨fx, fy, tx, ty, rfl, ?_⟩
      simp only [airMouse, moveMouse, sendMouseMove] at hr
      split at hr
      · rename_i hsend
        rw [if_pos hsend.1] at hr
        obtain rfl := List.mem_singleton.1 hr
        rcases hpre hsend.1 with ⟨a, t, connId, b, rfl, hb, hid, hturn, hx, hy⟩
        refine ⟨a, t, connId, b, rfl, hb, hid, ?_, ?_⟩
        · -- a direction that moves the pointer was active before
          apply hturn
          rcases hsend.2 with hmove | hmove
          · exact Or.inl (calculate_active hmove)
          · exact Or.inr (calculate_active hmove)
        · intro hsoon
          -- the clock is read once for each axis, for the second one not earlier
          have hxy : tx ≤ ty := by
            have hturns := hord.left
            unfold InOrder at hturns
            rw [List.flatMap_append, List.pairwise_append] at hturns
            simpa [Event.times] using hturns.2.1
          have hlevel : ∀ (g : ℚ) (u : Int), (⟨g, u⟩ : Reading).level = getTiltLevel g :=
            fun _ _ => rfl
          constructor
          · rw [← hlevel fx tx]
            exact calculate_slow hx (tdiv_within (by dsimp only; omega))
          · rw [← hlevel (-fy) ty]
            exact calculate_slow hy (tdiv_within hsoon)
      · simp at hr

theorem report_safe_connect :
    let es : List Event := [.connect 0 7, .turn (1 / 5) 0 10000 10000,
      .turn (1 / 5) 0 30000 30000]
    InOrder es ∧ (airMouse.step (airMouse.state {} (es.take 2)) (.turn (1 / 5) 0 30000 30000)).2
        = [⟨7, 0, 3, 0⟩] ∧
      ∃ fx fy tx ty, (Event.turn (1 / 5) 0 30000 30000) = .turn fx fy tx ty ∧
        ∃ a t connId b, es.take 2 = a ++ .connect t connId :: b ∧ (∀ x ∈ b, x.isLink = false) ∧
          (7 : UInt16) = connId ∧ (∃ x ∈ b, x.isTurn = true) ∧
          (ty - t ≤ 200000 → |(3 : Int)| ≤ baseSpeed (getTiltLevel fx) ∧
            |(0 : Int)| ≤ baseSpeed (getTiltLevel (-fy))) := by
  have hord : InOrder [.connect 0 7, .turn (1 / 5) 0 10000 10000,
      .turn (1 / 5) 0 30000 30000] := by
    unfold InOrder
    decide
  have hsent : (airMouse.step (airMouse.state {} [.connect 0 7,
      .turn (1 / 5) 0 10000 10000]) (.turn (1 / 5) 0 30000 30000)).2 = [⟨7, 0, 3, 0⟩] := by
    decide +kernel
  refine ⟨hord, hsent, ?_⟩
  exact @report_safe _ hord [.connect 0 7, .turn (1 / 5) 0 10000 10000] []
    (.turn (1 / 5) 0 30000 30000) rfl ⟨7, 0, 3, 0⟩ (by rw [hsent]; exact List.mem_singleton_self _)

end Cse121.Lab43
