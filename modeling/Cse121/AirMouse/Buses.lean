import Cse121.AirMouse.Sections
import Mathlib.Algebra.Order.BigOperators.Group.Finset
import Mathlib.Data.Finset.Option
import Mathlib.Data.Fintype.Basic

/-! # Who has a bus

No bus of `i2cdev.c` is used or deleted that is not there. What one section of a device does
is one of five effects on its port and on the bus of the port; from them it follows that a
handle is always on the bus that its port has now, as long as a deletion does not take the
reference of another device.
-/

namespace Cse121.I2cdev

/-! ## What a step does to a bus -/

/-- A device counts for its port while it has a handle, and until the reference of a handle
that was removed is given back. -/
def Dev.counts (x : Dev) : Nat := if x.devHandle.isSome ∨ x.phase = .drop true then 1 else 0

/-- What a device counts for if it keeps its handle or gives it up, and its task does not wait
to lower the count. -/
theorem counts_le {x y : Dev} (hhandle : x.devHandle = y.devHandle ∨ x.devHandle = none)
    (hphase : ∀ had, x.phase ≠ .drop had) : x.counts ≤ y.counts := by
  unfold Dev.counts
  rcases hhandle with hhandle | hhandle
  · by_cases hy : y.devHandle.isSome
    · rw [if_pos (Or.inl hy)]
      split <;> simp
    · rw [if_neg (by simp [hhandle, hy, hphase])]
      exact Nat.zero_le _
  · rw [if_neg (by simp [hhandle, hphase])]
    exact Nat.zero_le _

theorem counts_eq_zero {x : Dev} (hhandle : x.devHandle = none)
    (hphase : ∀ had, x.phase ≠ .drop had) : x.counts = 0 :=
  if_neg (by simp [hhandle, hphase])

section Events

variable {ι : Type}

@[simp] theorem events_nil : events ([] : List (Out ι)) = [] := rfl

@[simp] theorem events_bus (e : Ledger.Event Nat) (outs : List (Out ι)) :
    events (.bus e :: outs) = e :: events outs := rfl

@[simp] theorem events_transfer (d : ι) (addr : Nat) (outs : List (Out ι)) :
    events (.transfer d addr :: outs) = events outs := rfl

@[simp] theorem events_returned (d : ι) (err : EspErr) (outs : List (Out ι)) :
    events (.returned d err :: outs) = events outs := rfl

theorem events_append (xs ys : List (Out ι)) : events (xs ++ ys) = events xs ++ events ys :=
  List.filterMap_append

end Events

section Effects

variable {ι : Type} [DecidableEq ι] (cfg : Config ι)

/-- What a step of a device does to its port, and to the bus of the port. -/
inductive Effect (s : State ι) (d : ι) (x : Dev) : PortState → Nat → List (Ledger.Event Nat) → Prop
  /-- nothing, or the bus is used, or the handle is removed from it -/
  | keep {ps es} (hbus : ps.busHandle = (s.ports (cfg.port d)).busHandle)
      (hinstalled : ps.installed = (s.ports (cfg.port d)).installed)
      (href : ps.refCount = (s.ports (cfg.port d)).refCount)
      (hhandle : x.devHandle = (s.devs d).devHandle ∨ x.devHandle = none)
      (hcounts : x.counts ≤ (s.devs d).counts)
      (hes : ∀ e ∈ es, ∃ b, e = .use b ∧ (s.ports (cfg.port d)).busHandle = some b) :
      Effect s d x ps s.next es
  | create {sda scl} (hport : cfg.port d < cfg.numMax)
      (hbus : (s.ports (cfg.port d)).busHandle = none)
      (hhandle : x.devHandle = (s.devs d).devHandle) (hcounts : x.counts ≤ (s.devs d).counts) :
      Effect s d x ⟨some s.next, true, 0, sda, scl⟩ (s.next + 1) [.acquire s.next]
  | add {b} (hbus : (s.ports (cfg.port d)).busHandle = some b) (hhandle : x.devHandle = some b) :
      Effect s d x
        { s.ports (cfg.port d) with refCount := (s.ports (cfg.port d)).refCount + 1 } s.next
        [.use b]
  /-- one reference less -/
  | lower {had} (hphase : (s.devs d).phase = .drop had) (hcounts : x.counts = 0)
      (hhandle : x.devHandle = none) (href : (s.ports (cfg.port d)).refCount > 1) :
      Effect s d x
        { s.ports (cfg.port d) with refCount := (s.ports (cfg.port d)).refCount - 1 } s.next []
  /-- the last reference -/
  | delete {had b} (hphase : (s.devs d).phase = .drop had) (hcounts : x.counts = 0)
      (hhandle : x.devHandle = none) (href : (s.ports (cfg.port d)).refCount = 1)
      (hbus : (s.ports (cfg.port d)).busHandle = some b) :
      Effect s d x .free s.next [.release b]

/-- A step, by its effect. -/
def Affects (s : State ι) (d : ι) (r : State ι × List (Out ι)) : Prop :=
  ∃ x ps next slots, r.1 = s.after cfg d x ps next slots ∧
    (∀ had, x.phase = .drop had → x.devHandle = none) ∧ Effect cfg s d x ps next (events r.2)

variable {cfg} {s : State ι} {d : ι} {res : EspErr} {x : Dev} {ps : PortState} {next : Nat}
  {outs : List (Out ι)}

omit [DecidableEq ι] in
/-- The effect of a section, whatever phase comes next. -/
theorem Section.effect (h : Section cfg s d res x ps next outs)
    (hinstalled : (s.ports (cfg.port d)).installed = (s.ports (cfg.port d)).busHandle.isSome)
    (hlive : ∀ b, (s.devs d).devHandle = some b → (s.ports (cfg.port d)).busHandle = some b)
    (hdropped : ∀ had, (s.devs d).phase = .drop had → (s.devs d).devHandle = none)
    {phase : Phase} (hphase : ∀ had, phase ≠ .drop had) :
    Effect cfg s d { x with phase := phase } ps next (events outs) := by
  have hnone : (s.ports (cfg.port d)).installed = false →
      (s.ports (cfg.port d)).busHandle = none := fun h => by
    rw [h] at hinstalled
    simpa using hinstalled.symm
  cases h with
  | quiet => exact .keep rfl rfl rfl (Or.inl rfl) (counts_le (Or.inl rfl) hphase) (by simp)
  | probed hbus =>
      refine .keep rfl rfl rfl (Or.inl rfl) (counts_le (Or.inl rfl) hphase) ?_
      simpa using hbus
  | created hport hfree => exact .create hport (hnone hfree) rfl (counts_le (Or.inl rfl) hphase)
  | notCreated hfree =>
      exact .keep (hnone hfree).symm hfree.symm rfl (Or.inl rfl)
        (counts_le (Or.inl rfl) hphase) (by simp)
  | added hadd hbus => exact .add hbus rfl
  | notAdded hadd hbus =>
      refine .keep rfl rfl rfl (Or.inr rfl) (counts_le (Or.inr rfl) hphase) ?_
      simpa using hbus
  | transferred hhandle =>
      refine .keep rfl rfl rfl (Or.inl rfl) (counts_le (Or.inl rfl) hphase) ?_
      simpa using hlive _ hhandle
  | removed hhandle hinvalid =>
      refine .keep rfl rfl rfl (Or.inr rfl) (counts_le (Or.inr rfl) hphase) ?_
      simpa using hlive _ hhandle
  | lowered hdrop href =>
      have hhandle := hdropped _ hdrop
      exact .lower hdrop (counts_eq_zero hhandle hphase) hhandle href
  | deleted hdrop hinst href =>
      have hhandle := hdropped _ hdrop
      rw [hinst] at hinstalled
      rcases Option.isSome_iff_exists.1 hinstalled.symm with ⟨b, hbus⟩
      rw [hbus]
      exact .delete hdrop (counts_eq_zero hhandle hphase) hhandle href hbus

omit [DecidableEq ι] in
/-- A deletion that begins removes the handle, which still counts. -/
theorem Begins.effect {c : Call} (h : Begins s d c x outs)
    (hlive : ∀ b, (s.devs d).devHandle = some b → (s.ports (cfg.port d)).busHandle = some b) :
    (∀ had, x.phase = .drop had → x.devHandle = none) ∧
      Effect cfg s d x (s.ports (cfg.port d)) s.next (events outs) := by
  cases h with
  | create =>
      exact ⟨by simp, .keep rfl rfl rfl (Or.inl rfl) (counts_le (Or.inl rfl) (by simp)) (by simp)⟩
  | delete =>
      refine ⟨fun _ _ => rfl, .keep rfl rfl rfl (Or.inr rfl) ?_ ?_⟩
      · unfold Dev.counts
        rcases hhandle : (s.devs d).devHandle with _ | b
        · simp
        · simp
      · rcases hhandle : (s.devs d).devHandle with _ | b
        · simp
        · simpa using hlive b hhandle
  | operate =>
      exact ⟨by simp, .keep rfl rfl rfl (Or.inl rfl) (counts_le (Or.inl rfl) (by simp)) (by simp)⟩
  | checkPresent =>
      exact ⟨by simp, .keep rfl rfl rfl (Or.inl rfl) (counts_le (Or.inl rfl) (by simp)) (by simp)⟩

end Effects

/-! ## What holds in every state -/

section Invariant

variable {ι : Type} [Fintype ι] (cfg : Config ι)

/-- The devices that count for a port. -/
def counted (s : State ι) (p : Nat) : Nat :=
  ∑ d with cfg.port d = p, (s.devs d).counts

/-- After at most `n` steps. -/
structure Inv (n : Nat) (s : State ι) : Prop where
  installed : ∀ p, (s.ports p).installed = (s.ports p).busHandle.isSome
  valid : ∀ p b, (s.ports p).busHandle = some b → p < cfg.numMax ∧ b < s.next
  apart : ∀ p q b, (s.ports p).busHandle = some b → (s.ports q).busHandle = some b → p = q
  /-- a handle is on the bus that the port has now -/
  live : ∀ d b, (s.devs d).devHandle = some b → (s.ports (cfg.port d)).busHandle = some b
  dropped : ∀ d had, (s.devs d).phase = .drop had → (s.devs d).devHandle = none
  counted_le : ∀ p, counted cfg s p ≤ (s.ports p).refCount.toNat
  unused : ∀ p, (s.ports p).busHandle = none → counted cfg s p = 0
  bounded : ∀ p, (s.ports p).refCount.toNat ≤ n

theorem counted_init (p : Nat) : counted cfg (init ι) p = 0 :=
  Finset.sum_eq_zero fun _ _ => by simp [init, Dev.counts]

theorem inv_init : Inv cfg 0 (init ι) where
  installed _ := rfl
  valid _ _ h := by simp [init, PortState.free] at h
  apart _ _ _ h := by simp [init, PortState.free] at h
  live _ _ h := by simp [init] at h
  dropped _ _ h := by simp [init] at h
  counted_le p := by simp [counted_init]
  unused p _ := counted_init cfg p
  bounded _ := le_rfl

theorem counts_le_counted (s : State ι) (d : ι) : (s.devs d).counts ≤ counted cfg s (cfg.port d) :=
  Finset.single_le_sum (f := fun d => (s.devs d).counts) (fun _ _ => Nat.zero_le _) (by simp)

/-- A device that has a handle counts. -/
theorem counts_of_handle {x : Dev} {b : Nat} (h : x.devHandle = some b) : x.counts = 1 :=
  if_pos (Or.inl (by simp [h]))

theorem counts_of_drop {x : Dev} (h : x.phase = .drop true) : x.counts = 1 :=
  if_pos (Or.inr h)

theorem counts_le_one (x : Dev) : x.counts ≤ 1 := by
  unfold Dev.counts
  split <;> simp

/-- The buses that there are. -/
def held (s : State ι) : Finset Nat :=
  (Finset.range cfg.numMax).biUnion fun p => (s.ports p).busHandle.toFinset

omit [Fintype ι] in
theorem mem_held {s : State ι} {b : Nat} :
    b ∈ held cfg s ↔ ∃ p < cfg.numMax, (s.ports p).busHandle = some b := by
  unfold held
  simp only [Finset.mem_biUnion, Finset.mem_range, Option.mem_toFinset, Option.mem_def]

theorem Inv.mem_held {cfg : Config ι} {s : State ι} {n : Nat} (h : Inv cfg n s) {b : Nat} :
    b ∈ held cfg s ↔ ∃ p, (s.ports p).busHandle = some b := by
  rw [I2cdev.mem_held]
  constructor
  · rintro ⟨p, -, hb⟩
    exact ⟨p, hb⟩
  · rintro ⟨p, hb⟩
    exact ⟨p, (h.valid p b hb).1, hb⟩

omit [Fintype ι] in
/-- One port loses its bus. -/
theorem run_release {cfg : Config ι} {s s' : State ι} {p b : Nat} (hp : p < cfg.numMax)
    (hbus : (s.ports p).busHandle = some b) (hnone : (s'.ports p).busHandle = none)
    (hothers : ∀ q, q ≠ p → (s'.ports q).busHandle = (s.ports q).busHandle)
    (hapart : ∀ q, q ≠ p → (s.ports q).busHandle ≠ some b) :
    Ledger.run (held cfg s) [.release b] = some (held cfg s') := by
  have hheld : b ∈ held cfg s := (I2cdev.mem_held cfg).2 ⟨p, hp, hbus⟩
  rw [Ledger.run_cons, Ledger.step_release hheld, Option.bind_some, Ledger.run_nil]
  refine congrArg some (Finset.ext fun b' => ?_)
  rw [Finset.mem_erase, I2cdev.mem_held, I2cdev.mem_held]
  constructor
  · rintro ⟨hne, q, hq, hb'⟩
    refine ⟨q, hq, ?_⟩
    by_cases hqp : q = p
    · subst hqp
      rw [hbus] at hb'
      exact absurd (Option.some_injective _ hb').symm hne
    · rw [hothers q hqp]
      exact hb'
  · rintro ⟨q, hq, hb'⟩
    by_cases hqp : q = p
    · subst hqp
      rw [hnone] at hb'
      simp at hb'
    · rw [hothers q hqp] at hb'
      refine ⟨?_, q, hq, hb'⟩
      rintro rfl
      exact hapart q hqp hb'

omit [Fintype ι] in
theorem held_congr {s s' : State ι}
    (h : ∀ p, (s'.ports p).busHandle = (s.ports p).busHandle) : held cfg s' = held cfg s := by
  unfold held
  simp only [h]

section After

variable {cfg} [DecidableEq ι] {s : State ι} {d : ι} {x : Dev} {ps : PortState} {next n : Nat}
  {slots : Nat → List (Option ι)}

/-- One device changes what it counts for. -/
theorem counted_after (cfg : Config ι) (s : State ι) (d : ι) (x : Dev) (ps : PortState) (next : Nat)
    (slots : Nat → List (Option ι)) :
    counted cfg (s.after cfg d x ps next slots) (cfg.port d) + (s.devs d).counts =
      counted cfg s (cfg.port d) + x.counts := by
  have hmem : d ∈ Finset.univ.filter fun d' => cfg.port d' = cfg.port d := by simp
  have hothers : ∑ d' ∈ (Finset.univ.filter fun d' => cfg.port d' = cfg.port d).erase d,
      ((s.after cfg d x ps next slots).devs d').counts =
      ∑ d' ∈ (Finset.univ.filter fun d' => cfg.port d' = cfg.port d).erase d,
        (s.devs d').counts := by
    refine Finset.sum_congr rfl fun d' hd' => ?_
    rw [after_devs_of_ne cfg (Finset.ne_of_mem_erase hd')]
  unfold counted
  rw [← Finset.add_sum_erase _ _ hmem, ← Finset.add_sum_erase _ _ hmem, hothers, after_devs]
  omega

theorem counted_after_of_ne {q : Nat} (hq : q ≠ cfg.port d) :
    counted cfg (s.after cfg d x ps next slots) q = counted cfg s q := by
  refine Finset.sum_congr rfl fun d' hd' => ?_
  have hport : cfg.port d' = q := by simpa using hd'
  have hne : d' ≠ d := by
    rintro rfl
    exact hq hport.symm
  rw [after_devs_of_ne cfg hne]

/-- What a section has to see to, for its own port and its own device. -/
theorem Inv.after (h : Inv cfg n s)
    (hinstalled : ps.installed = ps.busHandle.isSome) (hnext : s.next ≤ next)
    (hvalid : ∀ b, ps.busHandle = some b → cfg.port d < cfg.numMax ∧ b < next)
    (hapart : ∀ b q, ps.busHandle = some b → q ≠ cfg.port d → (s.ports q).busHandle ≠ some b)
    (hothers : ps.busHandle = (s.ports (cfg.port d)).busHandle ∨
      counted cfg (s.after cfg d x ps next slots) (cfg.port d) = 0)
    (hlive : ∀ b, x.devHandle = some b → ps.busHandle = some b)
    (hdropped : ∀ had, x.phase = .drop had → x.devHandle = none)
    (hcounted : counted cfg (s.after cfg d x ps next slots) (cfg.port d) ≤ ps.refCount.toNat)
    (hunused : ps.busHandle = none →
      counted cfg (s.after cfg d x ps next slots) (cfg.port d) = 0)
    (hbounded : ps.refCount.toNat ≤ n + 1) :
    Inv cfg (n + 1) (s.after cfg d x ps next slots) where
  installed p := by
    by_cases hp : p = cfg.port d
    · subst hp
      simpa using hinstalled
    · rw [after_ports_of_ne cfg hp]
      exact h.installed p
  valid p b hb := by
    by_cases hp : p = cfg.port d
    · subst hp
      exact hvalid b (by simpa using hb)
    · rw [after_ports_of_ne cfg hp] at hb
      exact ⟨(h.valid p b hb).1, (h.valid p b hb).2.trans_le hnext⟩
  apart p q b hp hq := by
    by_cases hpd : p = cfg.port d
    · by_cases hqd : q = cfg.port d
      · exact hpd.trans hqd.symm
      · subst hpd
        rw [after_ports_of_ne cfg hqd] at hq
        exact absurd hq (hapart b q (by simpa using hp) hqd)
    · rw [after_ports_of_ne cfg hpd] at hp
      by_cases hqd : q = cfg.port d
      · subst hqd
        exact absurd hp (hapart b p (by simpa using hq) hpd)
      · rw [after_ports_of_ne cfg hqd] at hq
        exact h.apart p q b hp hq
  live d' b hb := by
    by_cases hd : d' = d
    · subst hd
      rw [after_ports]
      exact hlive b (by simpa using hb)
    · by_cases hport : cfg.port d' = cfg.port d
      · rw [hport, after_ports]
        rcases hothers with hsame | hzero
        · rw [after_devs_of_ne cfg hd] at hb
          rw [hsame, ← hport]
          exact h.live d' b hb
        · have hle := counts_le_counted cfg (s.after cfg d x ps next slots) d'
          rw [hport, hzero, counts_of_handle hb] at hle
          omega
      · rw [after_devs_of_ne cfg hd] at hb
        rw [after_ports_of_ne cfg hport]
        exact h.live d' b hb
  dropped d' had hd' := by
    by_cases hd : d' = d
    · subst hd
      rw [after_devs] at hd' ⊢
      exact hdropped had hd'
    · rw [after_devs_of_ne cfg hd] at hd' ⊢
      exact h.dropped d' had hd'
  counted_le p := by
    by_cases hp : p = cfg.port d
    · subst hp
      simpa using hcounted
    · rw [after_ports_of_ne cfg hp, counted_after_of_ne hp]
      exact h.counted_le p
  unused p hb := by
    by_cases hp : p = cfg.port d
    · subst hp
      exact hunused (by simpa using hb)
    · rw [after_ports_of_ne cfg hp] at hb
      rw [counted_after_of_ne hp]
      exact h.unused p hb
  bounded p := by
    by_cases hp : p = cfg.port d
    · subst hp
      simpa using hbounded
    · rw [after_ports_of_ne cfg hp]
      exact (h.bounded p).trans (Nat.le_succ n)

/-- The references of a port suffice for a deletion: there is one for the device, or one to
spare, or none is needed. -/
def Spare (cfg : Config ι) (s : State ι) (d : ι) : Prop :=
  (s.devs d).phase = .drop false → counted cfg s (cfg.port d) = 0 ∨
    counted cfg s (cfg.port d) < (s.ports (cfg.port d)).refCount.toNat

instance (cfg : Config ι) (s : State ι) (d : ι) : Decidable (Spare cfg s d) :=
  inferInstanceAs (Decidable (_ → _))

/-- What is left to count for after a reference is given back. -/
theorem counted_drop (ps : PortState) (next : Nat) (slots : Nat → List (Option ι))
    (h : Inv cfg n s) (hspare : Spare cfg s d) {had : Bool}
    (hphase : (s.devs d).phase = .drop had) (hcounts : x.counts = 0) :
    counted cfg (s.after cfg d x ps next slots) (cfg.port d) ≤
      (s.ports (cfg.port d)).refCount.toNat - 1 := by
  have hsum := counted_after cfg s d x ps next slots
  have hle := h.counted_le (cfg.port d)
  rw [hcounts] at hsum
  cases had with
  | true =>
      rw [counts_of_drop hphase] at hsum
      omega
  | false =>
      rcases hspare hphase with hzero | hlt
      · omega
      · omega

theorem Effect.inv {es : List (Ledger.Event Nat)} (h : Inv cfg n s) (hn : n + 1 < 2 ^ 32)
    (hspare : Spare cfg s d) (hdropped : ∀ had, x.phase = .drop had → x.devHandle = none)
    (heffect : Effect cfg s d x ps next es) : Inv cfg (n + 1) (s.after cfg d x ps next slots) := by
  have hsum := counted_after cfg s d x ps next slots
  have hle := h.counted_le (cfg.port d)
  have hbounded := h.bounded (cfg.port d)
  have hapart : ∀ b q, (s.ports (cfg.port d)).busHandle = some b → q ≠ cfg.port d →
      (s.ports q).busHandle ≠ some b := fun b q hb hq hb' => hq (h.apart q _ b hb' hb)
  cases heffect with
  | keep hbus hinstalled href hhandle hcounts hes =>
      refine h.after ?_ le_rfl ?_ ?_ (Or.inl hbus) ?_ hdropped ?_ ?_ ?_
      · rw [hinstalled, hbus]
        exact h.installed _
      · rw [hbus]
        exact h.valid _
      · rw [hbus]
        exact hapart
      · intro b hb
        rw [hbus]
        rcases hhandle with hhandle | hhandle
        · exact h.live d b (hhandle.symm.trans hb)
        · simp [hhandle] at hb
      · rw [href]
        omega
      · intro hnone
        rw [hbus] at hnone
        have hunused := h.unused _ hnone
        omega
      · rw [href]
        omega
  | create hport hbus hhandle hcounts =>
      have hunused := h.unused _ hbus
      have hnone := hcounts.trans ((counts_le_counted cfg s d).trans_eq hunused)
      rw [hunused, zero_add] at hsum
      have hzero := Nat.le_zero.1 ((Nat.le.intro hsum).trans hnone)
      refine h.after rfl (Nat.le_succ _) ?_ ?_ (Or.inr hzero) ?_ hdropped hzero.le ?_ ?_
      · rintro b ⟨⟩
        exact ⟨hport, Nat.lt_succ_self _⟩
      · rintro b q ⟨⟩ - hb
        exact lt_irrefl _ (h.valid q _ hb).2
      · intro b hb
        rw [hhandle] at hb
        rw [h.live d b hb] at hbus
        simp at hbus
      · simp
      · simp
  | add hbus hhandle =>
      have hcounts := counts_le_one x
      have hsucc := toNat_succ (n := (s.ports (cfg.port d)).refCount) (by omega)
      refine h.after (h.installed _) le_rfl (h.valid _) hapart (Or.inl rfl) ?_ hdropped ?_ ?_ ?_
      · intro b hb
        rw [hhandle] at hb
        exact hbus.trans hb
      · rw [hsucc]
        omega
      · intro hnone
        rw [hbus] at hnone
        simp at hnone
      · rw [hsucc]
        omega
  | lower hphase hcounts hhandle href =>
      have hdrop := counted_drop { s.ports (cfg.port d) with
        refCount := (s.ports (cfg.port d)).refCount - 1 } s.next slots h hspare hphase hcounts
      have hone : (0 : UInt32) < 1 := by decide
      have hpred := toNat_pred (UInt32.lt_trans hone href)
      refine h.after (h.installed _) le_rfl (h.valid _) hapart (Or.inl rfl) ?_ hdropped ?_ ?_ ?_
      · intro b hb
        simp [hhandle] at hb
      · rwa [hpred]
      · intro hnone
        have hunused := h.unused _ hnone
        omega
      · rw [hpred]
        omega
  | delete hphase hcounts hhandle href hbus =>
      have hdrop := counted_drop .free s.next slots h hspare hphase hcounts
      rw [href, UInt32.toNat_one, Nat.sub_self] at hdrop
      have hzero := Nat.le_zero.1 hdrop
      refine h.after rfl le_rfl ?_ ?_ (Or.inr hzero) ?_ hdropped hzero.le (fun _ => hzero) ?_
      · intro b hb
        simp [PortState.free] at hb
      · intro b q hb
        simp [PortState.free] at hb
      · intro b hb
        simp [hhandle] at hb
      · simp [PortState.free]

omit [Fintype ι] in
theorem held_after (ps : PortState) (x : Dev) (next : Nat) (slots : Nat → List (Option ι))
    (hbus : ps.busHandle = (s.ports (cfg.port d)).busHandle) :
    held cfg (s.after cfg d x ps next slots) = held cfg s := by
  refine held_congr cfg fun p => ?_
  by_cases hp : p = cfg.port d
  · subst hp
    rw [after_ports, hbus]
  · rw [after_ports_of_ne cfg hp]

/-- No bus is touched that there is not. -/
theorem Effect.run {es : List (Ledger.Event Nat)} (h : Inv cfg n s)
    (h' : Inv cfg (n + 1) (s.after cfg d x ps next slots))
    (heffect : Effect cfg s d x ps next es) :
    Ledger.run (held cfg s) es = some (held cfg (s.after cfg d x ps next slots)) := by
  cases heffect with
  | keep hbus hinstalled href hhandle hcounts hes =>
      rw [held_after _ x s.next slots hbus]
      refine Ledger.run_uses fun e he => ?_
      rcases hes e he with ⟨b, rfl, hb⟩
      exact ⟨b, h.mem_held.2 ⟨_, hb⟩, rfl⟩
  | create hport hbus hhandle hcounts =>
      have hfresh : s.next ∉ held cfg s := fun hmem => by
        rcases h.mem_held.1 hmem with ⟨p, hp⟩
        exact lt_irrefl _ (h.valid p _ hp).2
      rw [Ledger.run_cons, Ledger.step_acquire hfresh, Option.bind_some, Ledger.run_nil]
      congr 1
      ext b
      rw [Finset.mem_insert, h.mem_held, h'.mem_held]
      constructor
      · rintro (rfl | ⟨p, hp⟩)
        · exact ⟨_, by rw [after_ports]⟩
        · refine ⟨p, ?_⟩
          rw [after_ports_of_ne cfg]
          · exact hp
          · rintro rfl
            simp [hp] at hbus
      · rintro ⟨p, hp⟩
        by_cases hpd : p = cfg.port d
        · subst hpd
          exact Or.inl (by simpa using hp.symm)
        · rw [after_ports_of_ne cfg hpd] at hp
          exact Or.inr ⟨p, hp⟩
  | add hbus hhandle =>
      have hheld := held_after { s.ports (cfg.port d) with
        refCount := (s.ports (cfg.port d)).refCount + 1 } x s.next slots rfl
      rw [Ledger.run_cons, Ledger.step_use (h.mem_held.2 ⟨_, hbus⟩), Option.bind_some,
        Ledger.run_nil]
      exact congrArg some hheld.symm
  | lower hphase hcounts hhandle href =>
      have hheld := held_after { s.ports (cfg.port d) with
        refCount := (s.ports (cfg.port d)).refCount - 1 } x s.next slots rfl
      exact congrArg some hheld.symm
  | delete hphase hcounts hhandle href hbus =>
      refine run_release (h.valid _ _ hbus).1 hbus ?_ ?_ ?_
      · rw [after_ports]
        rfl
      · intro q hq
        rw [after_ports_of_ne cfg hq]
      · intro q hq hb
        exact hq (h.apart q _ _ hb hbus)

theorem Inv.affects (h : Inv cfg n s) (i : Input ι) : Affects cfg s i.dev (step cfg s i) := by
  have hnothing : ∀ d, Affects cfg s d (s, []) := fun d =>
    ⟨_, _, _, _, after_self cfg s d, h.dropped d,
      .keep rfl rfl rfl (Or.inl rfl) le_rfl (by simp)⟩
  have hstep := step_cases cfg s i
  generalize step cfg s i = r at hstep
  cases hstep with
  | busy hbusy => exact hnothing _
  | idle hidle => exact hnothing _
  | call hidle hbegins hslots =>
      rcases hbegins.effect (h.live _) with ⟨hdropped, heffect⟩
      exact ⟨_, _, _, _, rfl, hdropped, heffect⟩
  | @goOn d lock res r hbusy hdoes =>
      rcases hdoes with ⟨x, ps, next, outs, hsection, phase, err, hdrop, -, -, rfl⟩
      have heffect := hsection.effect (h.installed _) (h.live d) (h.dropped d) hdrop
      refine ⟨_, _, _, _, after_goTo cfg phase, fun had hphase => absurd hphase (hdrop had), ?_⟩
      rw [events_append]
      split
      · rw [events_returned, events_nil, List.append_nil]
        exact heffect
      · rw [events_nil, List.append_nil]
        exact heffect

theorem Inv.after_step (h : Inv cfg n s) (hn : n + 1 < 2 ^ 32) (i : Input ι)
    (hspare : Spare cfg s i.dev) :
    Inv cfg (n + 1) (step cfg s i).1 ∧
      Ledger.run (held cfg s) (events (step cfg s i).2) =
        some (held cfg (step cfg s i).1) := by
  rcases h.affects i with ⟨x, ps, next, slots, hstate, hdropped, heffect⟩
  have h' : Inv cfg (n + 1) (s.after cfg i.dev x ps next slots) :=
    heffect.inv h hn hspare hdropped
  rw [hstate]
  exact ⟨h', heffect.run h h'⟩

/-- Every step of a run finds the references it takes. -/
def SpareAll (cfg : Config ι) : State ι → List (Input ι) → Prop
  | _, [] => True
  | s, i :: is => Spare cfg s i.dev ∧ SpareAll cfg (step cfg s i).1 is

instance decidableSpareAll (cfg : Config ι) : (s : State ι) → (is : List (Input ι)) →
    Decidable (SpareAll cfg s is)
  | _, [] => isTrue trivial
  | s, i :: is =>
    have := decidableSpareAll cfg (step cfg s i).1 is
    inferInstanceAs (Decidable (_ ∧ _))

theorem Inv.runs {is : List (Input ι)} (h : Inv cfg n s) (hlength : n + is.length < 2 ^ 32)
    (hspare : SpareAll cfg s is) :
    Inv cfg (n + is.length) ((system cfg).state s is) ∧
      Ledger.run (held cfg s) (events ((system cfg).out s is)) =
        some (held cfg ((system cfg).state s is)) := by
  induction is generalizing n s with
  | nil => exact ⟨h, rfl⟩
  | cons i is ih =>
      rw [List.length_cons] at hlength ⊢
      rcases h.after_step (by omega) i hspare.1 with ⟨h', hrun⟩
      rcases ih h' (by omega) hspare.2 with ⟨hinv, hruns⟩
      constructor
      · rw [Transducer.state_cons, show n + (is.length + 1) = n + 1 + is.length by omega]
        exact hinv
      · rw [Transducer.out_cons, events_append]
        exact Ledger.run_trans hrun hruns

end After

end Invariant

end Cse121.I2cdev
