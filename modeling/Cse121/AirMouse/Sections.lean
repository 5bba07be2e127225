import Cse121.AirMouse.I2cdev
import Mathlib.Algebra.Group.Nat.Defs

/-! # What a step does

A step of `i2cdev.c` begins a call on a device or takes it through its next section. What
there is to know about each of its functions is said once here: what becomes of the device
and of its port, what is put out, and that the call comes nearer to its end.
-/

namespace Cse121.I2cdev

/-- The sections that a call has left at most. -/
def Phase.rank : Phase → Nat
  | .idle => 0
  | .setup none => 2
  | .setup (some retry) => 3 * (maxRetries - retry) + 3
  | .add retry => 3 * (maxRetries - retry) + 2
  | .transfer retry => 3 * (maxRetries - retry) + 1
  | .probe => 1
  | .drop _ => 1

theorem rank_le (phase : Phase) : phase.rank ≤ 12 := by
  unfold Phase.rank maxRetries
  split <;> omega

/-- The answers by which a handle is removed. -/
def EspErr.Invalid (res : EspErr) : Prop := res = .invalidArg ∨ res = .invalidState

/-! ## The reference count -/

theorem toNat_pred {n : UInt32} (h : n > 0) : (n - 1).toNat = n.toNat - 1 :=
  UInt32.toNat_sub_of_le n 1 (by
    rw [gt_iff_lt, UInt32.lt_iff_toNat_lt, UInt32.toNat_zero] at h
    rw [UInt32.le_iff_toNat_le]
    exact h)

theorem toNat_succ {n : UInt32} (h : n.toNat + 1 < 2 ^ 32) : (n + 1).toNat = n.toNat + 1 := by
  rw [UInt32.toNat_add]
  exact Nat.mod_eq_of_lt h

theorem one_lt_of_sub_ne_zero {n : UInt32} (hpos : n > 0) (hmore : n - 1 ≠ 0) : n > 1 := by
  have hpred := toNat_pred hpos
  have hne : (n - 1).toNat ≠ 0 := fun h => hmore (UInt32.toNat_inj.1 h)
  rw [gt_iff_lt, UInt32.lt_iff_toNat_lt, UInt32.toNat_one]
  omega

theorem eq_one_of_sub_eq_zero {n : UInt32} (h : n - 1 = 0) : n = 1 := by
  rw [← UInt32.sub_add_cancel n 1, h]
  rfl

section Sections

variable {ι : Type} [DecidableEq ι] (cfg : Config ι)

/-! ## The state after a step -/

/-- Another device, another port, other slots, and what is next. -/
def State.after (s : State ι) (d : ι) (x : Dev) (ps : PortState) (next : Nat)
    (slots : Nat → List (Option ι)) : State ι where
  ports := Function.update s.ports (cfg.port d) ps
  slots := slots
  devs := Function.update s.devs d x
  next := next

section After

variable {s : State ι} {d : ι} {x : Dev} {ps : PortState} {next : Nat}
  {slots : Nat → List (Option ι)}

@[simp] theorem after_devs : (s.after cfg d x ps next slots).devs d = x :=
  Function.update_self _ _ _

theorem after_devs_of_ne {d' : ι} (hd : d' ≠ d) :
    (s.after cfg d x ps next slots).devs d' = s.devs d' := Function.update_of_ne hd _ _

@[simp] theorem after_ports : (s.after cfg d x ps next slots).ports (cfg.port d) = ps :=
  Function.update_self _ _ _

theorem after_ports_of_ne {q : Nat} (hq : q ≠ cfg.port d) :
    (s.after cfg d x ps next slots).ports q = s.ports q := Function.update_of_ne hq _ _

theorem after_setDev (y : Dev) : (s.after cfg d x ps next slots).setDev d y =
    s.after cfg d y ps next slots := by
  unfold State.after State.setDev
  rw [Function.update_idem]

theorem after_goTo (phase : Phase) : (s.after cfg d x ps next slots).goTo d phase =
    s.after cfg d { x with phase := phase } ps next slots := by
  rw [State.goTo, after_devs, after_setDev]

theorem after_self (s : State ι) (d : ι) :
    s = s.after cfg d (s.devs d) (s.ports (cfg.port d)) s.next s.slots := by
  unfold State.after
  rw [Function.update_eq_self, Function.update_eq_self]

theorem setDev_eq_after (s : State ι) (d : ι) (x : Dev) :
    s.setDev d x = s.after cfg d x (s.ports (cfg.port d)) s.next s.slots := by
  unfold State.after
  rw [Function.update_eq_self]
  rfl

theorem setPort_eq_after (s : State ι) (d : ι) (ps : PortState) :
    s.setPort (cfg.port d) ps = s.after cfg d (s.devs d) ps s.next s.slots := by
  unfold State.after
  rw [Function.update_eq_self]
  rfl

/-- The device and the slots may have changed, the ports not. -/
theorem eq_after {s' : State ι} (hports : s'.ports = s.ports)
    (hdevs : s'.devs = Function.update s.devs d x) (hnext : s'.next = s.next) :
    s' = s.after cfg d x (s.ports (cfg.port d)) s.next s'.slots := by
  unfold State.after
  rw [Function.update_eq_self, ← hports, ← hdevs, ← hnext]

end After

/-! ## How a call goes on -/

/-- A call with `m` sections left goes on in a phase that has fewer, or returns. -/
def Goes (s : State ι) (d : ι) (m : Nat) (outs : List (Out ι)) (r : State ι × List (Out ι)) :
    Prop :=
  ∃ phase err, (∀ had, phase ≠ .drop had) ∧ phase.rank < m ∧
    (∀ k, phase = .add k → (s.devs d).devHandle = none) ∧
    r = (s.goTo d phase, outs ++ if phase = .idle then [.returned d err] else [])

section Goes

variable {s s' : State ι} {d : ι} {m : Nat} {outs outs' : List (Out ι)}

theorem Goes.out (h : Goes s d m outs (s', outs')) (o : Out ι) :
    Goes s d m (o :: outs) (s', o :: outs') := by
  rcases h with ⟨phase, err, hdrop, hrank, hadd, heq⟩
  rcases Prod.mk.inj heq with ⟨rfl, rfl⟩
  exact ⟨phase, err, hdrop, hrank, hadd, rfl⟩

theorem Goes.append (h : Goes s d m outs (s', outs')) (front : List (Out ι)) :
    Goes s d m (front ++ outs) (s', front ++ outs') := by
  induction front with
  | nil => exact h
  | cons o front ih => exact ih.out o

theorem goes_finish (s : State ι) (d : ι) (err : EspErr) (hm : 0 < m) :
    Goes s d m [] (s.finish d err) :=
  ⟨.idle, err, by simp, hm, by simp, rfl⟩

/-- The next try has fewer sections left than the one that has failed, wherever it was. -/
theorem goes_retry (s : State ι) (d : ι) (k : Nat) (err : EspErr)
    (hm : 3 * (maxRetries - k) < m) : Goes s d m [] (s.retry d k err) := by
  unfold State.retry
  split
  · refine ⟨.setup (some (k + 1)), err, by simp, ?_, by simp, rfl⟩
    simp only [Phase.rank]
    omega
  · exact goes_finish s d err (Nat.zero_lt_of_lt hm)

theorem goes_setupFailed (s : State ι) (d : ι) (retry : Option Nat) (err : EspErr) :
    Goes s d (Phase.setup retry).rank [] (s.setupFailed d retry err) := by
  cases retry with
  | none => exact goes_finish s d err Nat.two_pos
  | some k => exact goes_retry s d k err (by simp [Phase.rank])

theorem goes_setupDone (s : State ι) (d : ι) (retry : Option Nat) :
    Goes s d (Phase.setup retry).rank [] (s.setupDone d retry, []) := by
  cases retry with
  | none => exact ⟨.probe, .ok, by simp, by simp [Phase.rank], by simp, rfl⟩
  | some k =>
      unfold State.setupDone
      dsimp only
      split
      · rename_i hnone
        exact ⟨.add k, .ok, by simp, by simp [Phase.rank], fun _ _ => hnone, rfl⟩
      · exact ⟨.transfer k, .ok, by simp, by simp [Phase.rank], by simp, rfl⟩

end Goes

/-! ## The sections -/

/-- What a section does: the device but for its phase, its port, the number of the next bus,
and what is put out. -/
inductive Section (s : State ι) (d : ι) (res : EspErr) :
    Dev → PortState → Nat → List (Out ι) → Prop
  /-- nothing, but perhaps for the mutex and the pins of the device -/
  | quiet {mutex sda scl} : Section s d res
      { s.devs d with mutex := mutex, sdaPin := sda, sclPin := scl } (s.ports (cfg.port d))
      s.next []
  | probed {b} (hbus : (s.ports (cfg.port d)).busHandle = some b) :
      Section s d res (s.devs d) (s.ports (cfg.port d)) s.next [.bus (.use b)]
  | created {sda scl} (hport : cfg.port d < cfg.numMax)
      (hinstalled : (s.ports (cfg.port d)).installed = false) :
      Section s d res { s.devs d with sdaPin := sda, sclPin := scl }
        ⟨some s.next, true, 0, sda, scl⟩ (s.next + 1) [.bus (.acquire s.next)]
  | notCreated (hinstalled : (s.ports (cfg.port d)).installed = false) :
      Section s d res (s.devs d)
        ⟨none, false, (s.ports (cfg.port d)).refCount, -1, -1⟩ s.next []
  | added {b k} (hphase : (s.devs d).phase = .add k)
      (hbus : (s.ports (cfg.port d)).busHandle = some b) :
      Section s d res { s.devs d with devHandle := some b, handleAddr := (s.devs d).addr }
        { s.ports (cfg.port d) with refCount := (s.ports (cfg.port d)).refCount + 1 } s.next
        [.bus (.use b)]
  | notAdded {b k} (hphase : (s.devs d).phase = .add k)
      (hbus : (s.ports (cfg.port d)).busHandle = some b) :
      Section s d res { s.devs d with devHandle := none } (s.ports (cfg.port d)) s.next
        [.bus (.use b)]
  | transferred {b} (hhandle : (s.devs d).devHandle = some b) :
      Section s d res (s.devs d) (s.ports (cfg.port d)) s.next
        [.bus (.use b), .transfer d (s.devs d).handleAddr]
  /-- the answer says that the handle is of no use any more -/
  | removed {b} (hhandle : (s.devs d).devHandle = some b) (hinvalid : res.Invalid) :
      Section s d res { s.devs d with devHandle := none } (s.ports (cfg.port d)) s.next
        [.bus (.use b), .transfer d (s.devs d).handleAddr, .bus (.use b)]
  /-- one reference less -/
  | lowered {had} (hphase : (s.devs d).phase = .drop had)
      (href : (s.ports (cfg.port d)).refCount > 1) :
      Section s d res { s.devs d with mutex := false }
        { s.ports (cfg.port d) with refCount := (s.ports (cfg.port d)).refCount - 1 } s.next []
  /-- the last reference -/
  | deleted {had} (hphase : (s.devs d).phase = .drop had)
      (hinstalled : (s.ports (cfg.port d)).installed = true)
      (href : (s.ports (cfg.port d)).refCount = 1) :
      Section s d res { s.devs d with mutex := false } .free s.next
        ((s.ports (cfg.port d)).busHandle.toList.map fun b => .bus (.release b))

/-- A section, and how the call goes on. -/
def Does (s : State ι) (d : ι) (res : EspErr) (m : Nat) (r : State ι × List (Out ι)) : Prop :=
  ∃ x ps next outs, Section cfg s d res x ps next outs ∧
    Goes (s.after cfg d x ps next s.slots) d m outs r

variable {cfg} {s s' : State ι} {d : ι} {res : EspErr} {m : Nat} {x : Dev} {ps : PortState}
  {next : Nat} {outs : List (Out ι)} {r : State ι × List (Out ι)}

theorem Goes.does (h : Goes s' d m outs r) (hs' : s' = s.after cfg d x ps next s.slots)
    (hsection : Section cfg s d res x ps next outs) : Does cfg s d res m r :=
  ⟨x, ps, next, outs, hsection, by rwa [← hs']⟩

/-- A section that fails before it does anything. -/
theorem Goes.does_quiet (h : Goes s d m [] r) : Does cfg s d res m r :=
  h.does (after_self cfg s d) .quiet

theorem does_setupPort (s : State ι) (d : ι) (retry : Option Nat) (lock : Bool) (res : EspErr) :
    Does cfg s d res (Phase.setup retry).rank (i2cSetupPort cfg s d retry lock res) := by
  unfold i2cSetupPort
  dsimp only
  split_ifs with hport hlock hfree hpins hres hmatch
  · exact (goes_setupFailed s d retry _).does_quiet
  · exact (goes_setupFailed s d retry _).does_quiet
  · exact (goes_setupFailed s d retry _).does_quiet
  · exact ((goes_setupDone _ d retry).out _).does rfl (.created (not_le.1 hport) hfree)
  · refine (goes_setupFailed _ d retry res).does (setPort_eq_after cfg s d _) ?_
    exact .notCreated hfree
  · exact (goes_setupFailed s d retry _).does_quiet
  · exact (goes_setupDone _ d retry).does (setDev_eq_after cfg s d _) .quiet

theorem does_setupDevice (s : State ι) (d : ι) {retry : Nat}
    (hphase : (s.devs d).phase = .add retry) (lock : Bool) (res : EspErr) :
    Does cfg s d res (Phase.add retry).rank (i2cSetupDevice cfg s d retry lock res) := by
  have hrank : 3 * (maxRetries - retry) < (Phase.add retry).rank := by simp [Phase.rank]
  unfold i2cSetupDevice
  dsimp only
  split
  · exact (goes_retry s d retry _ hrank).does_quiet
  · split
    · rename_i b _ hbus
      split
      · refine ⟨_, _, _, _, .added hphase hbus, .transfer retry, .ok, by simp,
          by simp [Phase.rank], by simp, ?_⟩
        rw [after_goTo]
        rfl
      · refine ((goes_retry _ d retry res hrank).out _).does (setDev_eq_after cfg s d _) ?_
        exact .notAdded hphase hbus
    · exact (goes_retry s d retry _ hrank).does_quiet

theorem does_transfer (s : State ι) (d : ι) (retry : Nat) (res : EspErr) :
    Does cfg s d res (Phase.transfer retry).rank (i2cTransfer s d retry res) := by
  have hrank : 3 * (maxRetries - retry) < (Phase.transfer retry).rank := by simp [Phase.rank]
  unfold i2cTransfer
  split
  · exact (goes_retry s d retry _ hrank).does_quiet
  · rename_i b hhandle
    dsimp only
    split_ifs with hok hinvalid
    · exact (((goes_finish s d _ (Nat.succ_pos _)).out _).out _).does (after_self cfg s d)
        (.transferred hhandle)
    · refine ((((goes_retry _ d retry res hrank).out _).out _).out _).does
        (setDev_eq_after cfg s d _) ?_
      exact .removed hhandle hinvalid
    · exact (((goes_retry s d retry res hrank).out _).out _).does (after_self cfg s d)
        (.transferred hhandle)

theorem does_probe (s : State ι) (d : ι) (lock : Bool) (res : EspErr) :
    Does cfg s d res Phase.probe.rank (i2cProbe cfg s d lock res) := by
  unfold i2cProbe
  dsimp only
  split
  · exact (goes_finish s d _ Nat.one_pos).does_quiet
  · split
    · rename_i b _ hbus
      exact ((goes_finish s d res Nat.one_pos).out _).does (after_self cfg s d) (.probed hbus)
    · exact (goes_finish s d _ Nat.one_pos).does_quiet

theorem does_dropReference (s : State ι) (d : ι) {had : Bool}
    (hphase : (s.devs d).phase = .drop had) (lock : Bool) (res : EspErr) :
    Does cfg s d res (Phase.drop had).rank (dropReference cfg s d lock) := by
  unfold dropReference
  dsimp only
  split_ifs with hdrop hzero
  · refine Goes.does ((goes_finish _ d _ Nat.one_pos).append _) rfl ?_
    rw [List.append_nil]
    exact .deleted hphase hdrop.2.2.1 (eq_one_of_sub_eq_zero hzero)
  · refine (goes_finish _ d _ Nat.one_pos).does rfl ?_
    exact .lowered hphase (one_lt_of_sub_ne_zero hdrop.2.2.2 hzero)
  · exact (goes_finish _ d _ Nat.one_pos).does (setDev_eq_after cfg s d _) .quiet

/-- A task that goes on in its call. -/
theorem does_goOn (s : State ι) (d : ι) (hbusy : (s.devs d).phase ≠ .idle) (lock : Bool)
    (res : EspErr) :
    Does cfg s d res (s.devs d).phase.rank (step cfg s (.goOn d lock res)) := by
  unfold step
  dsimp only
  split
  · rename_i hphase
    exact absurd hphase hbusy
  · rename_i hphase
    rw [hphase]
    exact does_setupPort s d _ lock res
  · rename_i hphase
    rw [hphase]
    exact does_setupDevice s d hphase lock res
  · rename_i hphase
    rw [hphase]
    exact does_transfer s d _ res
  · rename_i hphase
    rw [hphase]
    exact does_probe s d lock res
  · rename_i hphase
    rw [hphase]
    exact does_dropReference s d hphase lock res

/-! ## The calls -/

/-- What a call does as it begins: the device, and what is put out. -/
inductive Begins (s : State ι) (d : ι) : Call → Dev → List (Out ι) → Prop
  /-- it returns at once -/
  | create {addr mutex err} : Begins s d (.create addr)
      { s.devs d with addr := addr, mutex := mutex, phase := .idle } [.returned d err]
  | delete : Begins s d .delete
      { s.devs d with devHandle := none, phase := .drop (s.devs d).devHandle.isSome }
      ((s.devs d).devHandle.toList.map fun b => .bus (.use b))
  | operate : Begins s d .operate { s.devs d with phase := .setup (some 0) } []
  | checkPresent : Begins s d .checkPresent { s.devs d with phase := .setup none } []

/-- The slots have no new device but this one, and it is in those of its port. -/
def Registers (cfg : Config ι) (s : State ι) (d : ι) (slots : Nat → List (Option ι)) : Prop :=
  ∀ p d', some d' ∈ slots p → some d' ∈ s.slots p ∨ d' = d ∧ cfg.port d = p

omit [DecidableEq ι] in
theorem registers_self (s : State ι) (d : ι) : Registers cfg s d s.slots := fun _ _ => Or.inl

theorem registers_registerDevice (s : State ι) (d : ι) : Registers cfg s d
    (Function.update s.slots (cfg.port d) (registerDevice (s.slots (cfg.port d)) d)) := by
  intro p d' hmem
  by_cases hp : p = cfg.port d
  · subst hp
    rw [Function.update_self] at hmem
    rcases List.mem_or_eq_of_mem_set hmem with hmem | heq
    · exact Or.inl hmem
    · exact Or.inr ⟨Option.some_injective _ heq, rfl⟩
  · rw [Function.update_of_ne hp] at hmem
    exact Or.inl hmem

theorem registers_deregisterDevice (s : State ι) (d : ι) : Registers cfg s d
    (Function.update s.slots (cfg.port d) (deregisterDevice (s.slots (cfg.port d)) d)) := by
  intro p d' hmem
  left
  by_cases hp : p = cfg.port d
  · subst hp
    rw [Function.update_self] at hmem
    rcases List.mem_or_eq_of_mem_set hmem with hmem | heq
    · exact hmem
    · simp at heq
  · rwa [Function.update_of_ne hp] at hmem

variable (cfg)

/-- A step, with all that it may be. -/
inductive Step (s : State ι) : Input ι → State ι × List (Out ι) → Prop
  | busy {d c mutexOk lock} (hbusy : (s.devs d).phase ≠ .idle) :
      Step s (.call d c mutexOk lock) (s, [])
  | call {d c mutexOk lock x slots outs} (hidle : (s.devs d).phase = .idle)
      (hbegins : Begins s d c x outs) (hslots : Registers cfg s d slots) :
      Step s (.call d c mutexOk lock)
        (s.after cfg d x (s.ports (cfg.port d)) s.next slots, outs)
  | idle {d lock res} (hidle : (s.devs d).phase = .idle) : Step s (.goOn d lock res) (s, [])
  | goOn {d lock res r} (hbusy : (s.devs d).phase ≠ .idle)
      (hdoes : Does cfg s d res (s.devs d).phase.rank r) : Step s (.goOn d lock res) r

theorem step_create (s : State ι) (d : ι) (hidle : (s.devs d).phase = .idle) (addr : Nat)
    (mutexOk lock : Bool) :
    Step cfg s (.call d (.create addr) mutexOk lock)
      (i2cDevCreateMutex cfg s d addr mutexOk lock) := by
  -- the end of the call, after the device and perhaps its slot are set
  have hends : ∀ {mutex err} {s' : State ι}, s'.ports = s.ports →
      s'.devs = Function.update s.devs d { s.devs d with addr := addr, mutex := mutex } →
      s'.next = s.next → Registers cfg s d s'.slots →
      Step cfg s (.call d (.create addr) mutexOk lock) (s'.finish d err) := by
    intro mutex err s' hports hdevs hnext hslots
    rw [State.finish, eq_after cfg hports hdevs hnext, after_goTo]
    exact .call hidle .create hslots
  unfold i2cDevCreateMutex
  dsimp only
  split_ifs
  · exact hends rfl rfl rfl (registers_self s d)
  · exact hends rfl rfl rfl (registers_self s d)
  · exact hends rfl rfl rfl (registers_registerDevice s d)
  · exact hends rfl rfl rfl (registers_self s d)

theorem step_delete (s : State ι) (d : ι) (hidle : (s.devs d).phase = .idle)
    (mutexOk lock : Bool) :
    Step cfg s (.call d .delete mutexOk lock) (i2cDevDeleteMutex cfg s d) := by
  unfold i2cDevDeleteMutex
  dsimp only
  split_ifs
  · rw [setDev_eq_after cfg]
    exact .call hidle .delete (registers_deregisterDevice s d)
  · rw [setDev_eq_after cfg]
    exact .call hidle .delete (registers_self s d)

theorem step_cases (s : State ι) (i : Input ι) : Step cfg s i (step cfg s i) := by
  cases i with
  | call d c mutexOk lock =>
      by_cases hidle : (s.devs d).phase = .idle
      · unfold step
        dsimp only
        rw [if_neg (not_not.2 hidle)]
        cases c with
        | create addr => exact step_create cfg s d hidle addr mutexOk lock
        | delete => exact step_delete cfg s d hidle mutexOk lock
        | operate =>
            dsimp only
            rw [State.goTo, setDev_eq_after cfg]
            exact .call hidle .operate (registers_self s d)
        | checkPresent =>
            dsimp only
            rw [State.goTo, setDev_eq_after cfg]
            exact .call hidle .checkPresent (registers_self s d)
      · rw [show step cfg s (.call d c mutexOk lock) = (s, []) from if_pos hidle]
        exact .busy hidle
  | goOn d lock res =>
      by_cases hidle : (s.devs d).phase = .idle
      · have hstep : step cfg s (.goOn d lock res) = (s, []) := by
          unfold step
          dsimp only
          rw [hidle]
        rw [hstep]
        exact .idle hidle
      · exact .goOn hidle (does_goOn s d hidle lock res)

end Sections

end Cse121.I2cdev
