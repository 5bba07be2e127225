import Cse121.AirMouse.Calls

/-! # Where a transfer goes

A handle keeps the address that it was made for. The transfers of a device go to the address
of its descriptor if the descriptor is freed before it gets another one, as `imu_try_init` of
the tilt display and of the air mouse does. It has to: `i2cdev.c` by itself goes on with the
handle that a failed try has left, whatever address the descriptor is given next.
-/

namespace Cse121.I2cdev

section Addresses

variable {ι : Type} [DecidableEq ι]

variable {cfg : Config ι} {s : State ι} {d : ι} {res : EspErr} {x : Dev} {ps : PortState}
  {next : Nat} {outs : List (Out ι)}

/-! ## A step -/

omit [DecidableEq ι] in
/-- A transfer goes to the address that the handle was made for. -/
theorem Section.transfer (h : Section cfg s d res x ps next outs) {d' : ι} {a : Nat}
    (ha : .transfer d' a ∈ outs) :
    d' = d ∧ (s.devs d).devHandle ≠ none ∧ a = (s.devs d).handleAddr := by
  cases h with
  | transferred hhandle =>
      have ha' : d' = d ∧ a = (s.devs d).handleAddr := by simpa using ha
      exact ⟨ha'.1, by simp [hhandle], ha'.2⟩
  | removed hhandle hinvalid =>
      have ha' : d' = d ∧ a = (s.devs d).handleAddr := by simpa using ha
      exact ⟨ha'.1, by simp [hhandle], ha'.2⟩
  | _ => simp at ha

omit [DecidableEq ι] in
/-- The address stays; a handle is kept, made for the address, or removed. -/
theorem Section.handle (h : Section cfg s d res x ps next outs) : x.addr = (s.devs d).addr ∧
    (x.devHandle = (s.devs d).devHandle ∧ x.handleAddr = (s.devs d).handleAddr ∨
      (∃ k, (s.devs d).phase = .add k) ∧ x.handleAddr = (s.devs d).addr ∧ x.devHandle ≠ none ∨
      x.devHandle = none ∧ ((∃ k, (s.devs d).phase = .add k) ∨ res.Invalid)) := by
  cases h with
  | added hphase hbus => exact ⟨rfl, Or.inr (Or.inl ⟨⟨_, hphase⟩, rfl, by simp⟩)⟩
  | notAdded hphase hbus => exact ⟨rfl, Or.inr (Or.inr ⟨rfl, Or.inl ⟨_, hphase⟩⟩)⟩
  | removed hhandle hinvalid => exact ⟨rfl, Or.inr (Or.inr ⟨rfl, Or.inr hinvalid⟩)⟩
  | _ => exact ⟨rfl, Or.inl ⟨rfl, rfl⟩⟩

/-- What a section leaves of the device and puts out, whatever phase comes next. -/
theorem Does.cases {m : Nat} {r : State ι × List (Out ι)} (h : Does cfg s d res m r) :
    ∃ x ps next outs phase, Section cfg s d res x ps next outs ∧ phase.rank < m ∧
      (∀ k, phase = .add k → x.devHandle = none) ∧ r.1.devs d = { x with phase := phase } ∧
      (∀ d', d' ≠ d → r.1.devs d' = s.devs d') ∧
      ∀ d' a, .transfer d' a ∈ r.2 → .transfer d' a ∈ outs := by
  rcases h with ⟨x, ps, next, outs, hsection, phase, err, -, hrank, hadd, rfl⟩
  rw [after_devs] at hadd
  rw [after_goTo]
  refine ⟨x, ps, next, outs, phase, hsection, hrank, hadd, after_devs cfg,
    fun d' hd => after_devs_of_ne cfg hd, ?_⟩
  intro d' a ha
  rcases List.mem_append.1 ha with ha | ha
  · exact ha
  · split at ha <;> simp at ha

omit [DecidableEq ι] in
/-- No call begins with a transfer. -/
theorem Begins.silent {c : Call} (h : Begins s d c x outs) (d' : ι) (a : Nat) :
    .transfer d' a ∉ outs := by
  cases h <;> simp

/-- A device that is about to be added has no handle. -/
def Sane (s : State ι) : Prop := ∀ d k, (s.devs d).phase = .add k → (s.devs d).devHandle = none

omit [DecidableEq ι] in
theorem sane_init : Sane (init ι) := fun d k h => by simp [init] at h

theorem Sane.step (h : Sane s) (i : Input ι) : Sane (step cfg s i).1 := by
  intro d k hphase
  have hstep := step_cases cfg s i
  generalize I2cdev.step cfg s i = r at hstep hphase
  cases hstep with
  | busy hbusy => exact h d k hphase
  | idle hidle => exact h d k hphase
  | @call d' c mutexOk lock x slots outs hidle hbegins hslots =>
      by_cases hd : d = d'
      · subst hd
        rw [after_devs] at hphase
        cases hbegins <;> simp at hphase
      · rw [after_devs_of_ne cfg hd] at hphase ⊢
        exact h d k hphase
  | @goOn d' lock res r hbusy hdoes =>
      rcases hdoes.cases with ⟨x, ps, next, outs, phase, -, -, hadd, hdev, hothers, -⟩
      by_cases hd : d = d'
      · subst hd
        rw [hdev] at hphase ⊢
        exact hadd k hphase
      · rw [hothers d hd] at hphase ⊢
        exact h d k hphase

theorem Sane.state (h : Sane s) (is : List (Input ι)) : Sane ((system cfg).state s is) := by
  induction is generalizing s with
  | nil => exact h
  | cons i is ih => exact ih (h.step i)

/-! ## Freed before it is made anew -/

section Freed

variable {cs : List Call}

/-- The address that the last creation gave. -/
def lastAddr (cs : List Call) : Nat :=
  cs.foldl (fun addr c => match c with | .create addr => addr | _ => addr) 0

/-- The last call was the deletion. -/
def Freed (cs : List Call) : Prop := cs.getLast? = some .delete

/-- A device after these calls on it. -/
structure Addressed (cs : List Call) (x : Dev) : Prop where
  addr : x.addr = lastAddr cs
  made : x.devHandle ≠ none → x.handleAddr = x.addr
  freed : Freed cs → x.devHandle = none ∧ (x.phase = .idle ∨ ∃ had, x.phase = .drop had)

omit [DecidableEq ι] in
theorem addressed_init : Addressed [] ((init ι).devs d) :=
  ⟨rfl, fun h => absurd rfl h, fun h => by simp [Freed] at h⟩

omit [DecidableEq ι] in
theorem Addressed.begins (h : Addressed cs (s.devs d)) {c : Call} {x : Dev}
    {outs : List (Out ι)} (hbegins : Begins s d c x outs)
    (hfreed : ∀ addr, c = .create addr → Freed cs) : Addressed (cs ++ [c]) x := by
  cases hbegins with
  | create =>
      refine ⟨by simp [lastAddr], ?_, by simp [Freed]⟩
      intro hsome
      exact absurd (h.freed (hfreed _ rfl)).1 hsome
  | delete => exact ⟨by simpa [lastAddr] using h.addr, fun hsome => absurd rfl hsome,
      fun _ => ⟨rfl, Or.inr ⟨_, rfl⟩⟩⟩
  | operate => exact ⟨by simpa [lastAddr] using h.addr, h.made, by simp [Freed]⟩
  | checkPresent => exact ⟨by simpa [lastAddr] using h.addr, h.made, by simp [Freed]⟩

theorem Addressed.does {res : EspErr} {r : State ι × List (Out ι)} (h : Addressed cs (s.devs d))
    (hbusy : (s.devs d).phase ≠ .idle)
    (hdoes : Does cfg s d res (s.devs d).phase.rank r) : Addressed cs (r.1.devs d) := by
  rcases hdoes.cases with ⟨x, ps, next, outs, phase, hsection, hrank, -, hdev, -, -⟩
  rcases hsection.handle with ⟨haddr, hhandle⟩
  rw [hdev]
  refine ⟨haddr.trans h.addr, ?_, ?_⟩
  · intro hsome
    rcases hhandle with ⟨hsame, hmade⟩ | ⟨-, hmade, -⟩ | ⟨hnone, -⟩
    · have hbefore := h.made fun hnone => hsome (hsame.trans hnone)
      exact hmade.trans (hbefore.trans haddr.symm)
    · exact hmade.trans haddr.symm
    · exact absurd hnone hsome
  · intro hfreed
    rcases h.freed hfreed with ⟨hnone, hidle | ⟨had, hdrop⟩⟩
    · exact absurd hidle hbusy
    · rw [hdrop] at hrank
      refine ⟨?_, Or.inl (idle_of_rank (Nat.lt_one_iff.1 hrank))⟩
      rcases hhandle with ⟨hsame, -⟩ | ⟨⟨k, hadd⟩, -, -⟩ | ⟨hnone', -⟩
      · exact hsame.trans hnone
      · rw [hdrop] at hadd
        simp at hadd
      · exact hnone'

/-- A step, whoever takes it, and where the device's transfer goes in it. -/
theorem Addressed.step (h : Addressed cs (s.devs d)) (i : Input ι)
    (hfreed : ∀ addr, callOf d s i = some (.create addr) → Freed cs) :
    Addressed (cs ++ (callOf d s i).toList) ((step cfg s i).1.devs d) ∧
      ∀ a, .transfer d a ∈ (I2cdev.step cfg s i).2 → a = lastAddr cs := by
  have hstep := step_cases cfg s i
  generalize I2cdev.step cfg s i = r at hstep
  cases hstep with
  | busy hbusy => simpa [callOf, hbusy] using h
  | idle hidle => simpa [callOf] using h
  | @call d' c mutexOk lock x slots outs hidle hbegins hslots =>
      refine ⟨?_, fun a ha => absurd ha (hbegins.silent d a)⟩
      by_cases hd : d = d'
      · subst hd
        have hcall : callOf d s (.call d c mutexOk lock) = some c := if_pos ⟨rfl, hidle⟩
        rw [hcall, after_devs]
        exact h.begins hbegins fun addr hc => hfreed addr (by rw [hcall, hc])
      · rw [after_devs_of_ne cfg hd]
        simpa [callOf, Ne.symm hd] using h
  | @goOn d' lock res r hbusy hdoes =>
      rcases hdoes.cases with ⟨x, ps, next, outs, phase, hsection, -, -, -, hothers, hout⟩
      have hnone : callOf d s (.goOn d' lock res) = none := rfl
      rw [hnone, Option.toList_none, List.append_nil]
      constructor
      · by_cases hd : d = d'
        · subst hd
          exact h.does hbusy hdoes
        · rw [hothers d hd]
          exact h
      · intro a ha
        rcases hsection.transfer (hout d a ha) with ⟨rfl, hsome, rfl⟩
        exact (h.made hsome).trans h.addr

/-- A creation comes right after a deletion. -/
def FreedFirst (cs : List Call) : Prop :=
  ∀ pre addr post, cs = pre ++ .create addr :: post → Freed pre

theorem FreedFirst.mono {cs cs' : List Call} (h : FreedFirst cs) (hfront : cs' <+: cs) :
    FreedFirst cs' := by
  intro pre addr post heq
  rcases hfront with ⟨rest, rfl⟩
  exact h pre addr (post ++ rest) (by rw [heq, List.append_assoc, List.cons_append])

theorem calls_append (d : ι) (s : State ι) (xs ys : List (Input ι)) :
    calls cfg d s (xs ++ ys) = calls cfg d s xs ++ calls cfg d ((system cfg).state s xs) ys := by
  induction xs generalizing s with
  | nil => rfl
  | cons i xs ih =>
      rw [List.cons_append, calls, calls, ih, List.append_assoc]
      rfl

theorem addressed_run {is : List (Input ι)} (hfreed : FreedFirst (calls cfg d (init ι) is)) :
    Addressed (calls cfg d (init ι) is) (((system cfg).state (init ι) is).devs d) := by
  induction is using List.reverseRecOn with
  | nil => exact addressed_init
  | append_singleton is i ih =>
      rw [calls_append] at hfreed ⊢
      have haddressed := ih (hfreed.mono (List.prefix_append _ _))
      rw [Transducer.state_append]
      rw [calls, calls, List.append_nil]
      refine (haddressed.step i fun addr hcall => ?_).1
      refine hfreed _ addr [] ?_
      rw [calls, hcall]
      rfl

/-- Where the descriptor is freed before it gets an address, every transfer goes to the
address that it has. -/
theorem transfers_addressed {is : List (Input ι)}
    (hfreed : FreedFirst (calls cfg d (init ι) is)) {pre post : List (Input ι)} {i : Input ι}
    (his : is = pre ++ i :: post) {a : Nat}
    (ha : .transfer d a ∈ (step cfg ((system cfg).state (init ι) pre) i).2) :
    a = lastAddr (calls cfg d (init ι) pre) := by
  subst his
  rw [calls_append, calls, ← List.append_assoc] at hfreed
  have haddressed := addressed_run ((hfreed.mono (List.prefix_append _ _)).mono
    (List.prefix_append _ _))
  refine (haddressed.step i fun addr hcall => ?_).2 a ha
  rw [hcall] at hfreed
  exact hfreed _ addr _ (List.append_assoc _ _ _)

end Freed

/-! ## The motion sensor -/

section Sensor

/-- What a task does with the descriptor of a sensor: a try has some operations, and so has
what comes between the tries. -/
inductive Use where
  | free
  | tryInit (addr : Nat) (operations : Nat)
  | operate (operations : Nat)

/-- The calls of the tilt display and of the air mouse: `imu_try_init` frees the descriptor
first. -/
def Use.calls : Use → List Call
  | .free => [.delete]
  | .tryInit addr n => .delete :: .create addr :: List.replicate n .operate
  | .operate n => List.replicate n .operate

theorem FreedFirst.append {xs ys : List Call} (hx : FreedFirst xs) (hy : FreedFirst ys) :
    FreedFirst (xs ++ ys) := by
  intro pre addr post heq
  rcases List.append_eq_append_iff.1 heq with ⟨mid, rfl, hys⟩ | ⟨mid, rfl, hmid⟩
  · have hmid := hy mid addr post hys
    unfold Freed at hmid ⊢
    rw [List.getLast?_append, hmid, Option.some_or]
  · cases mid with
    | nil =>
        have hnil := hy [] addr post (by simpa using hmid.symm)
        simp [Freed] at hnil
    | cons c mid =>
        rcases List.cons.inj hmid with ⟨rfl, -⟩
        exact hx pre addr mid rfl

theorem freedFirst_operate (n : Nat) : FreedFirst (List.replicate n .operate) := by
  intro pre addr post heq
  have hmem : Call.create addr ∈ List.replicate n .operate := by
    rw [heq]
    simp
  exact absurd (List.eq_of_mem_replicate hmem) (by simp)

theorem freedFirst_calls (u : Use) : FreedFirst u.calls := by
  cases u with
  | free =>
      intro pre addr post heq
      have hmem : Call.create addr ∈ [Call.delete] := by
        rw [← show Use.free.calls = [Call.delete] from rfl, heq]
        simp
      simp at hmem
  | tryInit addr n =>
      change FreedFirst ([.delete, .create addr] ++ List.replicate n .operate)
      refine FreedFirst.append ?_ (freedFirst_operate n)
      intro pre addr' post heq
      rcases pre with _ | ⟨c, pre⟩
      · simp at heq
      · rcases List.cons.inj heq with ⟨rfl, heq⟩
        rcases pre with _ | ⟨c, pre⟩
        · rfl
        · simp at heq
  | operate n => exact freedFirst_operate n

theorem freedFirst_uses (us : List Use) : FreedFirst (us.flatMap Use.calls) := by
  induction us with
  | nil => exact freedFirst_operate 0
  | cons u us ih => exact (freedFirst_calls u).append ih

variable (cfg : Config ι) {d : ι}

/-- Whatever fails and whatever other tasks do on the bus, a transfer goes to the address that
the last try has given. -/
theorem air_mouse_addressed (us : List Use) {is : List (Input ι)}
    (hcalls : calls cfg d (init ι) is <+: us.flatMap Use.calls) {pre post : List (Input ι)}
    {i : Input ι} (his : is = pre ++ i :: post) {a : Nat}
    (ha : .transfer d a ∈ (step cfg ((system cfg).state (init ι) pre) i).2) :
    a = lastAddr (calls cfg d (init ι) pre) :=
  transfers_addressed ((freedFirst_uses us).mono hcalls) his ha

/-- The handle of the device is kept over a step. -/
theorem handle_step {s : State ι} {i : Input ι} (hsane : Sane s)
    (hsome : (s.devs d).devHandle ≠ none) (hdelete : callOf d s i ≠ some .delete)
    (hvalid : ∀ d' lock res, i = .goOn d' lock res → ¬ res.Invalid) :
    (((step cfg s i).1.devs d).devHandle ≠ none ∧
        ((step cfg s i).1.devs d).handleAddr = (s.devs d).handleAddr) ∧
      ∀ a, .transfer d a ∈ (step cfg s i).2 → a = (s.devs d).handleAddr := by
  have hstep := step_cases cfg s i
  generalize step cfg s i = r at hstep
  cases hstep with
  | busy hbusy => exact ⟨⟨hsome, rfl⟩, by simp⟩
  | idle hidle => exact ⟨⟨hsome, rfl⟩, by simp⟩
  | @call d' c mutexOk lock x slots outs hidle hbegins hslots =>
      refine ⟨?_, fun a ha => absurd ha (hbegins.silent d a)⟩
      by_cases hd : d = d'
      · subst hd
        rw [after_devs]
        cases hbegins with
        | delete => exact absurd (if_pos ⟨rfl, hidle⟩) hdelete
        | _ => exact ⟨hsome, rfl⟩
      · rw [after_devs_of_ne cfg hd]
        exact ⟨hsome, rfl⟩
  | @goOn d' lock res r hbusy hdoes =>
      rcases hdoes.cases with ⟨x, ps, next, outs, phase, hsection, -, -, hdev, hothers, hout⟩
      constructor
      · by_cases hd : d = d'
        · subst hd
          rw [hdev]
          rcases hsection.handle.2 with
            ⟨hsame, hmade⟩ | ⟨⟨k, hadd⟩, -, -⟩ | ⟨-, ⟨k, hadd⟩ | hinvalid⟩
          · exact ⟨fun hnone => hsome (hsame.symm.trans hnone), hmade⟩
          · exact absurd (hsane d k hadd) hsome
          · exact absurd (hsane d k hadd) hsome
          · exact absurd hinvalid (hvalid d lock res rfl)
        · rw [hothers d hd]
          exact ⟨hsome, rfl⟩
      · intro a ha
        rcases hsection.transfer (hout d a ha) with ⟨rfl, -, haddr⟩
        exact haddr

theorem handle_stays {s : State ι} {is : List (Input ι)} (hsane : Sane s)
    (hsome : (s.devs d).devHandle ≠ none) (hdelete : .delete ∉ calls cfg d s is)
    (hvalid : ∀ d' lock res, .goOn d' lock res ∈ is → ¬ res.Invalid) {a : Nat}
    (ha : .transfer d a ∈ (system cfg).out s is) : a = (s.devs d).handleAddr := by
  induction is generalizing s with
  | nil => simp at ha
  | cons i is ih =>
      rw [calls, List.mem_append, not_or, Option.mem_toList] at hdelete
      rcases handle_step cfg hsane hsome hdelete.1 (fun d' lock res h =>
        hvalid d' lock res (by rw [h]; exact List.mem_cons_self)) with ⟨⟨hsome', hmade⟩, hout⟩
      rw [Transducer.out_cons, List.mem_append] at ha
      rcases ha with ha | ha
      · exact hout a ha
      · rw [← hmade]
        exact ih (hsane.step i) hsome' hdelete.2
          (fun d' lock res h => hvalid d' lock res (List.mem_cons_of_mem _ h)) ha

/-- An operation whose transfers all time out. -/
def timedOut : List (Input Unit) :=
  .call () .operate true true :: .goOn () true .ok :: .goOn () true .ok :: .goOn () true .timeout ::
    (List.replicate 3 [.goOn () true .ok, .goOn () true .timeout]).flatten

/-- The second address is tried. -/
def secondTry : List (Input Unit) :=
  [.call () .delete true true, .goOn () true .ok, .call () (.create 0x68) true true] ++ timedOut ++
    [.call () .delete true true, .goOn () true .ok, .call () (.create 0x69) true true,
      .call () .operate true true, .goOn () true .ok, .goOn () true .ok]

theorem air_mouse_addressed_second :
    0x69 = lastAddr (calls sensor () (init Unit) secondTry) :=
  have hcalls : calls sensor () (init Unit) (secondTry ++ [.goOn () true .ok]) <+:
      [Use.tryInit 0x68 1, .tryInit 0x69 1].flatMap Use.calls := by decide +kernel
  air_mouse_addressed sensor [.tryInit 0x68 1, .tryInit 0x69 1] hcalls rfl (by decide +kernel)

/-- Without the deletion: as long as no answer removes its handle, every transfer of a device
goes to the address that the handle was made for, whatever address the descriptor is given. -/
theorem stale_handle {before is : List (Input ι)}
    (hsome : (((system cfg).state (init ι) before).devs d).devHandle ≠ none)
    (hdelete : .delete ∉ calls cfg d ((system cfg).state (init ι) before) is)
    (hvalid : ∀ d' lock res, .goOn d' lock res ∈ is → ¬ res.Invalid) {a : Nat}
    (ha : .transfer d a ∈ (system cfg).out ((system cfg).state (init ι) before) is) :
    a = (((system cfg).state (init ι) before).devs d).handleAddr :=
  handle_stays cfg (sane_init.state before) hsome hdelete hvalid ha

/-- After an operation that has timed out, a descriptor that is not freed and gets the other
address still asks the first one. -/
theorem stale_handle_second :
    .transfer () 0x68 ∈ (system sensor).out ((system sensor).state (init Unit)
        (.call () (.create 0x68) true true :: timedOut))
      [.call () (.create 0x69) true true, .call () .operate true true, .goOn () true .ok,
        .goOn () true .ok] ∧
    ∀ a, .transfer () a ∈ (system sensor).out ((system sensor).state (init Unit)
        (.call () (.create 0x68) true true :: timedOut))
      [.call () (.create 0x69) true true, .call () .operate true true, .goOn () true .ok,
        .goOn () true .ok] → a = 0x68 :=
  ⟨by decide +kernel, fun _ ha => stale_handle sensor (by decide +kernel) (by decide +kernel)
    (by simp [EspErr.Invalid]) ha⟩

end Sensor

end Addresses

end Cse121.I2cdev
