import Cse121.AirMouse.Buses

/-! # Every bus is given up once

`i2cdev_done` gives up the buses that are left, but for those of ports that it cannot lock.
After it every other bus that the tasks have created was handed to `i2c_del_master_bus`, once,
and not touched after that.
-/

namespace Cse121.I2cdev

/-! ## The devices that are tracked -/

section Tracked

variable {ι : Type} [DecidableEq ι] {cfg : Config ι} {s : State ι}

/-- A slot of a port is for a device of the port. -/
def Tracked (cfg : Config ι) (s : State ι) : Prop := ∀ p d, some d ∈ s.slots p → cfg.port d = p

omit [DecidableEq ι] in
theorem tracked_init : Tracked cfg (init ι) := fun p d h => by
  simp [init, List.mem_replicate] at h

/-- Only a call touches the slots. -/
theorem Tracked.step (h : Tracked cfg s) (i : Input ι) : Tracked cfg (step cfg s i).1 := by
  have hstep := step_cases cfg s i
  generalize I2cdev.step cfg s i = r at hstep
  cases hstep with
  | busy hbusy => exact h
  | idle hidle => exact h
  | call hidle hbegins hslots =>
      intro p d hmem
      rcases hslots p d hmem with hmem | ⟨rfl, hport⟩
      · exact h p d hmem
      · exact hport
  | goOn hbusy hdoes =>
      rcases hdoes with ⟨x, ps, next, outs, -, phase, err, -, -, -, rfl⟩
      intro p d hmem
      rw [after_goTo] at hmem
      exact h p d hmem

theorem Tracked.state (h : Tracked cfg s) (is : List (Input ι)) :
    Tracked cfg ((system cfg).state s is) := by
  induction is generalizing s with
  | nil => exact h
  | cons i is ih => exact ih (h.step i)

end Tracked

/-! ## The clean-up -/

section Done

variable {ι : Type} [DecidableEq ι] {s : State ι} {ans : Answers ι}

/-- A handle after a removal was there before it. -/
theorem handle_removed (s : State ι) (d d' : ι) :
    ((s.setDev d { s.devs d with devHandle := none }).devs d').devHandle =
        (s.devs d').devHandle ∨
      ((s.setDev d { s.devs d with devHandle := none }).devs d').devHandle = none := by
  unfold State.setDev
  by_cases hd : d' = d
  · subst hd
    right
    simp
  · left
    simp [Function.update_of_ne hd]

/-- Only handles change, and the buses of those that do are used. -/
theorem removeTracked_does (ans : Answers ι) (slots : List (Option ι)) (s : State ι)
    (result : EspErr) :
    (removeTracked ans s result slots).state.ports = s.ports ∧
      (removeTracked ans s result slots).state.slots = s.slots ∧
      (∀ d, ((removeTracked ans s result slots).state.devs d).devHandle = (s.devs d).devHandle ∨
        ((removeTracked ans s result slots).state.devs d).devHandle = none) ∧
      ∀ e ∈ events (removeTracked ans s result slots).outs, ∃ d b, some d ∈ slots ∧
        (s.devs d).devHandle = some b ∧ e = .use b := by
  induction slots generalizing s result with
  | nil => exact ⟨rfl, rfl, fun _ => Or.inl rfl, by simp [removeTracked]⟩
  | cons slot slots ih =>
      have hskip : ∀ {e}, (∃ d b, some d ∈ slots ∧ (s.devs d).devHandle = some b ∧ e = .use b) →
          ∃ d b, some d ∈ slot :: slots ∧ (s.devs d).devHandle = some b ∧
            e = Ledger.Event.use b := by
        rintro e ⟨d, b, hmem, hb, rfl⟩
        exact ⟨d, b, List.mem_cons_of_mem _ hmem, hb, rfl⟩
      rcases slot with _ | d
      · rcases ih s result with ⟨hports, hslots, hhandles, hevents⟩
        exact ⟨hports, hslots, hhandles, fun e he => hskip (hevents e he)⟩
      · unfold removeTracked
        rcases hhandle : (s.devs d).devHandle with _ | b
        · rcases ih s result with ⟨hports, hslots, hhandles, hevents⟩
          exact ⟨hports, hslots, hhandles, fun e he => hskip (hevents e he)⟩
        · rcases ih (s.setDev d { s.devs d with devHandle := none })
            (firstError result (ans.rm d)) with ⟨hports, hslots, hhandles, hevents⟩
          refine ⟨hports, hslots, ?_, ?_⟩
          · intro d'
            rcases hhandles d' with hsame | hnone
            · rcases handle_removed s d d' with hb | hb
              · exact Or.inl (hsame.trans hb)
              · exact Or.inr (hsame.trans hb)
            · exact Or.inr hnone
          · intro e he
            rcases List.mem_cons.1 he with rfl | he
            · exact ⟨d, b, List.mem_cons_self, hhandle, rfl⟩
            · rcases hevents e he with ⟨d', b', hmem, hb', rfl⟩
              rcases handle_removed s d d' with hb | hb
              · exact ⟨d', b', List.mem_cons_of_mem _ hmem, hb.symm.trans hb', rfl⟩
              · rw [hb] at hb'
                simp at hb'

variable [Fintype ι] {cfg : Config ι} {n k : Nat}

/-- After the rounds for the ports below `k`. -/
structure Cleaned (ans : Answers ι) (s : State ι) (k : Nat) (s' : State ι) : Prop where
  below : ∀ p < k, (s'.ports p).busHandle =
    if ans.lock p = true then none else (s.ports p).busHandle
  above : ∀ p, k ≤ p → s'.ports p = s.ports p ∧ s'.slots p = s.slots p
  handles : ∀ d, (s'.devs d).devHandle = (s.devs d).devHandle ∨ (s'.devs d).devHandle = none

omit [Fintype ι] [DecidableEq ι] in
theorem cleaned_zero (s : State ι) : Cleaned ans s 0 s :=
  ⟨fun _ h => absurd h (Nat.not_lt_zero _), fun _ _ => ⟨rfl, rfl⟩, fun _ => Or.inl rfl⟩

omit [Fintype ι] [DecidableEq ι] in
/-- A round for one more port. -/
theorem Cleaned.succ {s' s'' : State ι} (h : Cleaned ans s k s')
    (hport : (s''.ports k).busHandle =
      if ans.lock k = true then none else (s.ports k).busHandle)
    (hothers : ∀ p ≠ k, s''.ports p = s'.ports p ∧ s''.slots p = s'.slots p)
    (hhandles : ∀ d, (s''.devs d).devHandle = (s'.devs d).devHandle ∨
      (s''.devs d).devHandle = none) : Cleaned ans s (k + 1) s'' where
  below p hp := by
    rcases Nat.lt_succ_iff_lt_or_eq.1 hp with hp | rfl
    · rw [(hothers p hp.ne).1]
      exact h.below p hp
    · exact hport
  above p hp := by
    have hne : p ≠ k := (Nat.lt_of_succ_le hp).ne'
    rw [(hothers p hne).1, (hothers p hne).2]
    exact h.above p (Nat.le_of_succ_le hp)
  handles d := by
    rcases hhandles d with hsame | hnone
    · rw [hsame]
      exact h.handles d
    · exact Or.inr hnone

omit [Fintype ι] [DecidableEq ι] in
/-- A bus that is there during the rounds was there before them. -/
theorem Cleaned.bus {s' : State ι} (h : Cleaned ans s k s') {p b : Nat}
    (hb : (s'.ports p).busHandle = some b) : (s.ports p).busHandle = some b := by
  rcases Nat.lt_or_ge p k with hp | hp
  · rw [h.below p hp, Option.ite_none_left_eq_some] at hb
    exact hb.2
  · rwa [(h.above p hp).1] at hb

omit [Fintype ι] in
/-- A port that could not be locked or has no bus: only its slots are cleared. -/
theorem donePort_skip (result : EspErr) {p : Nat}
    (h : ans.lock p = false ∨ (s.ports p).installed = false) :
    (donePort ans s result p).state =
        { s with slots := Function.update s.slots p (List.replicate maxDevicesPerPort none) } ∧
      (donePort ans s result p).outs = [] := by
  unfold donePort
  by_cases hlock : ans.lock p = false
  · rw [if_pos hlock]
    exact ⟨rfl, rfl⟩
  · rw [if_neg hlock, if_pos (h.resolve_left hlock)]
    exact ⟨rfl, rfl⟩

/-- The round for a port: what it does to the buses. -/
theorem Cleaned.donePort {s' : State ι} (h : Cleaned ans s k s') (hinv : Inv cfg n s)
    (htracked : Tracked cfg s) (hk : k < cfg.numMax) (result : EspErr) :
    Cleaned ans s (k + 1) (donePort ans s' result k).state ∧
      Ledger.run (held cfg s') (events (I2cdev.donePort ans s' result k).outs) =
        some (held cfg (I2cdev.donePort ans s' result k).state) := by
  rcases h.above k le_rfl with ⟨hport, hslots⟩
  have hinstalled := hinv.installed k
  by_cases hskip : ans.lock k = false ∨ (s.ports k).busHandle = none
  · -- only the slots are cleared
    have hnothing : ans.lock k = false ∨ (s'.ports k).installed = false := by
      rw [hport, hinstalled, Option.isSome_eq_false_iff, Option.isNone_iff_eq_none]
      exact hskip
    rcases donePort_skip result hnothing with ⟨hstate, houts⟩
    rw [hstate, houts]
    refine ⟨h.succ ?_ (fun p hp => ⟨rfl, Function.update_of_ne hp _ _⟩) fun d => Or.inl rfl, rfl⟩
    rcases hskip with hlock | hbus
    · rw [if_neg (by simp [hlock]), hport]
    · rw [hport, hbus, ite_self]
  · -- the devices lose their handles, and then the bus goes
    rcases not_or.1 hskip with ⟨hlock, hsome⟩
    obtain ⟨b, hbus⟩ := Option.ne_none_iff_exists'.1 hsome
    rw [hbus] at hinstalled
    unfold I2cdev.donePort
    rw [if_neg hlock, if_neg (by rw [hport, hinstalled]; simp)]
    dsimp only
    rcases removeTracked_does ans (s'.slots k) s' result with
      ⟨hports, hslots', hhandles, hevents⟩
    constructor
    · refine h.succ ?_ (fun p hp => ⟨?_, ?_⟩) hhandles
      · rw [if_pos (by simpa using hlock)]
        unfold State.setPort
        simp
      · unfold State.setPort
        dsimp only
        rw [Function.update_of_ne hp, hports]
      · exact (Function.update_of_ne hp _ _).trans (congrFun hslots' p)
    · have huses : Ledger.run (held cfg s')
          (events (removeTracked ans s' result (s'.slots k)).outs) = some (held cfg s') := by
        refine Ledger.run_uses fun e he => ?_
        rcases hevents e he with ⟨d, b', hmem, hb', rfl⟩
        -- the device is one of the port, and its handle was there before the clean-up
        rw [hslots] at hmem
        rcases h.handles d with hsame | hnone
        · have hlive := hinv.live d b' (hsame.symm.trans hb')
          rw [htracked k d hmem] at hlive
          exact ⟨b', (mem_held cfg).2 ⟨k, hk, by rw [hport, hlive]⟩, rfl⟩
        · rw [hb'] at hnone
          simp at hnone
      rw [events_append]
      refine Ledger.run_trans huses ?_
      rw [hport, hbus]
      refine run_release hk (by rw [hport, hbus]) (by simp [State.setPort]) ?_ ?_
      · intro p hp
        unfold State.setPort
        dsimp only
        rw [Function.update_of_ne hp, hports]
      · intro p hp hb
        exact hp (hinv.apart p k _ (h.bus hb) hbus)

theorem cleaned_donePorts (ans : Answers ι) (hinv : Inv cfg n s) (htracked : Tracked cfg s)
    (hk : k ≤ cfg.numMax) :
    Cleaned ans s k (donePorts ans s k).state ∧
      Ledger.run (held cfg s) (events (donePorts ans s k).outs) =
        some (held cfg (donePorts ans s k).state) := by
  induction k with
  | zero => exact ⟨cleaned_zero s, rfl⟩
  | succ k ih =>
      rcases ih (Nat.le_of_succ_le hk) with ⟨hcleaned, hrun⟩
      rcases hcleaned.donePort hinv htracked (Nat.lt_of_succ_le hk) (donePorts ans s k).result with
        ⟨hcleaned', hrun'⟩
      refine ⟨hcleaned', ?_⟩
      unfold donePorts
      rw [events_append]
      exact Ledger.run_trans hrun hrun'

/-- The buses of the ports that `i2cdev_done` cannot lock. -/
def lockedOut (cfg : Config ι) (s : State ι) (ans : Answers ι) : Set Nat :=
  { b | ∃ p < cfg.numMax, ans.lock p = false ∧ (s.ports p).busHandle = some b }

/-- Nothing is left but the buses of those ports. -/
theorem held_i2cdevDone (hinv : Inv cfg n s) (htracked : Tracked cfg s) :
    (held cfg (i2cdevDone cfg ans s).state : Set Nat) = lockedOut cfg s ans := by
  have hcleaned := (cleaned_donePorts ans hinv htracked le_rfl).1
  ext b
  rw [Finset.mem_coe, mem_held]
  refine exists_congr fun p => and_congr_right fun hp => ?_
  rw [i2cdevDone, hcleaned.below p hp, Option.ite_none_left_eq_some, Bool.not_eq_true]

/-! ## What it returns -/

theorem firstError_ok {result err : EspErr} :
    firstError result err = .ok ↔ result = .ok ∧ err = .ok := by
  unfold firstError
  by_cases hresult : result = .ok
  · rw [if_pos hresult]
    exact (and_iff_right hresult).symm
  · rw [if_neg hresult]
    exact iff_of_false hresult fun h => hresult h.1

omit [Fintype ι] in
theorem removeTracked_ok {slots : List (Option ι)} {result : EspErr}
    (h : (removeTracked ans s result slots).result = .ok) : result = .ok := by
  induction slots generalizing s result with
  | nil => exact h
  | cons slot slots ih =>
      rcases slot with _ | d
      · exact ih h
      · unfold removeTracked at h
        rcases hhandle : (s.devs d).devHandle with _ | b
        · rw [hhandle] at h
          exact ih h
        · rw [hhandle] at h
          exact (firstError_ok.1 (ih h)).1

omit [Fintype ι] in
theorem donePort_ok {result : EspErr} {p : Nat} (h : (donePort ans s result p).result = .ok) :
    result = .ok ∧ ans.lock p = true ∧ ((s.ports p).installed = true → ans.del p = .ok) := by
  unfold donePort at h
  by_cases hlock : ans.lock p = false
  · rw [if_pos hlock] at h
    simp at h
  · rw [if_neg hlock] at h
    by_cases hinstalled : (s.ports p).installed = false
    · rw [if_pos hinstalled] at h
      exact ⟨h, by simpa using hlock, fun htrue => by simp [hinstalled] at htrue⟩
    · rw [if_neg hinstalled] at h
      rcases firstError_ok.1 h with ⟨htracked, hdel⟩
      exact ⟨removeTracked_ok htracked, by simpa using hlock, fun _ => hdel⟩

/-- Where it returns `ESP_OK`, it has locked every port and deleted every bus that was left. -/
theorem i2cdevDone_ok (hinv : Inv cfg n s) (htracked : Tracked cfg s)
    (h : (i2cdevDone cfg ans s).result = .ok) {p : Nat} (hp : p < cfg.numMax) :
    ans.lock p = true ∧ ((s.ports p).busHandle ≠ none → ans.del p = .ok) := by
  -- the rounds up to some number of ports
  have hrounds : ∀ k ≤ cfg.numMax, (donePorts ans s k).result = .ok → ∀ p < k,
      ans.lock p = true ∧ ((s.ports p).busHandle ≠ none → ans.del p = .ok) := by
    intro k hk
    induction k with
    | zero => simp
    | succ k ih =>
        intro hresult p hp
        rcases donePort_ok hresult with ⟨hbefore, hlock, hdel⟩
        rcases Nat.lt_succ_iff_lt_or_eq.1 hp with hp | rfl
        · exact ih (Nat.le_of_succ_le hk) hbefore p hp
        · have hcleaned := (cleaned_donePorts ans hinv htracked (Nat.le_of_succ_le hk)).1
          refine ⟨hlock, fun hbus => hdel ?_⟩
          rw [(hcleaned.above p le_rfl).1, hinv.installed p, Option.isSome_iff_ne_none]
          exact hbus
  exact hrounds _ le_rfl h p hp

end Done

/-! ## All of it -/

section All

variable {ι : Type} [DecidableEq ι] [Fintype ι] {cfg : Config ι}

/-- What the tasks and then the clean-up do to the buses. -/
def lifetime (cfg : Config ι) (is : List (Input ι)) (ans : Answers ι) :
    List (Ledger.Event Nat) :=
  events ((system cfg).out (init ι) is ++
    (i2cdevDone cfg ans ((system cfg).state (init ι) is)).outs)

/-- The life of the buses: all but those of the ports that the clean-up cannot lock are handed
to `i2c_del_master_bus`, once, and none is touched after that. There are no such ports if it
returns `ESP_OK`, and what it deleted is deleted. -/
structure Outlived (cfg : Config ι) (is : List (Input ι)) (ans : Answers ι) : Prop where
  settledBut : Ledger.SettledBut (lockedOut cfg ((system cfg).state (init ι) is) ans)
    (lifetime cfg is ans)
  settled : (i2cdevDone cfg ans ((system cfg).state (init ι) is)).result = .ok →
    Ledger.Settled (lifetime cfg is ans)
  deleted : (i2cdevDone cfg ans ((system cfg).state (init ι) is)).result = .ok →
    ∀ p < cfg.numMax, (((system cfg).state (init ι) is).ports p).busHandle ≠ none →
      ans.del p = .ok

omit [DecidableEq ι] [Fintype ι] in
theorem held_init : held cfg (init ι) = ∅ :=
  Finset.eq_empty_of_forall_notMem fun b hb => by
    rcases (mem_held cfg).1 hb with ⟨p, -, hbus⟩
    simp [init, PortState.free] at hbus

/-- Fewer than `2 ^ 32` steps, in any order, each of which finds the references it takes. -/
theorem lifetime_settled {is : List (Input ι)} (ans : Answers ι) (hlength : is.length < 2 ^ 32)
    (hspare : SpareAll cfg (init ι) is) : Outlived cfg is ans := by
  rcases (inv_init cfg).runs (by rwa [Nat.zero_add]) hspare with ⟨hinv, hrun⟩
  have htracked : Tracked cfg ((system cfg).state (init ι) is) := tracked_init.state is
  rw [held_init] at hrun
  have hbut : Ledger.SettledBut (lockedOut cfg ((system cfg).state (init ι) is) ans)
      (lifetime cfg is ans) := by
    rw [← held_i2cdevDone hinv htracked]
    refine Ledger.settledBut_of_run ?_
    unfold lifetime
    rw [events_append]
    exact Ledger.run_trans hrun (cleaned_donePorts ans hinv htracked le_rfl).2
  refine ⟨hbut, fun hok => ?_, fun hok p hp => (i2cdevDone_ok hinv htracked hok hp).2⟩
  -- a port that could not be locked would have been reported
  have hnone : lockedOut cfg ((system cfg).state (init ι) is) ans = ∅ := by
    refine Set.eq_empty_of_forall_notMem fun b hb => ?_
    rcases hb with ⟨p, hp, hlock, -⟩
    rw [(i2cdevDone_ok hinv htracked hok hp).1] at hlock
    simp at hlock
  rw [hnone] at hbut
  exact hbut.settled

/-- Two devices that share a port. -/
def shared : Config Bool where
  numMax := 2
  port _ := 0
  sdaIoNum _ := -1
  sclIoNum _ := -1
  defaultSdaPin := 21
  defaultSclPin := 22

/-- The second device is deleted while the first is about to be, and both had a handle. Then
the first is made again, and the clean-up deletes its bus. -/
def sharing : List (Input Bool) :=
  [.call false (.create 0x48) true true, .call true (.create 0x49) true true,
    .call false .operate true true, .call true .operate true true,
    .goOn true true .ok, .goOn false true .ok, .goOn true true .ok, .goOn false true .ok,
    .goOn false true .ok, .goOn true true .timeout,
    .call false .delete true true, .goOn true true .ok, .goOn true true .ok,
    .call true .delete true true, .goOn true true .ok, .goOn false true .ok,
    .call false (.create 0x48) true true, .call false .operate true true,
    .goOn false true .ok, .goOn false true .ok]

/-- Every port can be locked in the clean-up, or only the other one. -/
theorem lifetime_settled_shared :
    Ledger.Settled (lifetime shared sharing ⟨fun _ => true, fun _ => .ok, fun _ => .ok⟩) ∧
      Ledger.Held (lifetime shared sharing ⟨fun p => p == 1, fun _ => .ok, fun _ => .ok⟩) 1 :=
  ⟨(lifetime_settled _ (by decide) (by decide +kernel)).settled (by decide +kernel),
    ((lifetime_settled _ (by decide) (by decide +kernel)).settledBut.held 1).2
      ⟨0, by decide, rfl, by decide +kernel⟩⟩

omit [DecidableEq ι] in
/-- A device with a port of its own takes only its own references. -/
theorem Inv.spare {n : Nat} {s : State ι} (h : Inv cfg n s) (hown : Function.Injective cfg.port)
    (d : ι) : Spare cfg s d := by
  intro hphase
  left
  refine Finset.sum_eq_zero fun d' hd' => ?_
  have hport : cfg.port d' = cfg.port d := by simpa using hd'
  obtain rfl := hown hport
  exact if_neg (by simp [h.dropped d' _ hphase, hphase])

theorem Inv.spareAll {n : Nat} {s : State ι} {is : List (Input ι)} (h : Inv cfg n s)
    (hown : Function.Injective cfg.port) (hlength : n + is.length < 2 ^ 32) :
    SpareAll cfg s is := by
  induction is generalizing n s with
  | nil => trivial
  | cons i is ih =>
      rw [List.length_cons] at hlength
      have hspare := h.spare hown i.dev
      exact ⟨hspare, ih (h.after_step (by omega) i hspare).1 (by omega)⟩

/-- With a port for each device, the tasks may go on in any order. -/
theorem own_ports_settled {is : List (Input ι)} (ans : Answers ι)
    (hown : Function.Injective cfg.port) (hlength : is.length < 2 ^ 32) : Outlived cfg is ans :=
  lifetime_settled ans hlength ((inv_init cfg).spareAll hown (by rwa [Nat.zero_add]))

/-- The motion sensor is deleted although no operation has gone through. -/
theorem own_ports_settled_sensor : Ledger.Settled (lifetime sensor
    [.call () (.create 0x68) true true, .call () .checkPresent true true, .goOn () true .ok,
      .goOn () true .timeout, .call () .delete true true, .goOn () true .ok]
    ⟨fun _ => true, fun _ => .fail, fun _ => .ok⟩) :=
  (own_ports_settled _ (fun _ _ _ => rfl) (by decide)).settled (by decide +kernel)

/-- Without a reference to spare, a device that never had a handle takes the bus away under
the one that has it. -/
theorem drop_strands {n b : Nat} {s : State ι} {d d' : ι} (h : Inv cfg n s)
    (hphase : (s.devs d).phase = .drop false) (hport : cfg.port d' = cfg.port d)
    (hhandle : (s.devs d').devHandle = some b)
    (hlast : (s.ports (cfg.port d)).refCount = 1) :
    events (dropReference cfg s d true).2 = [.release b] ∧
      ((dropReference cfg s d true).1.devs d').devHandle = some b := by
  have hbus := h.live d' b hhandle
  rw [hport] at hbus
  have hinstalled := h.installed (cfg.port d)
  rw [hbus] at hinstalled
  have hvalid := (h.valid _ b hbus).1
  have hne : d' ≠ d := by
    rintro rfl
    rw [h.dropped d' _ hphase] at hhandle
    simp at hhandle
  unfold dropReference
  rw [if_pos ⟨hvalid, rfl, hinstalled, by rw [hlast]; decide⟩, if_pos (by rw [hlast]; rfl)]
  constructor
  · rw [hbus]
    rfl
  · simp [State.finish, State.goTo, State.setDev, State.setPort, Function.update_of_ne hne, hhandle]

end All

end Cse121.I2cdev
