import Mathlib.Data.List.Basic

/-! # Devices with registers

A driver of a device with byte registers reads and writes them one transaction at a time,
and any transaction may fail. Settings are fields of registers, changed by reading a
register, replacing the bits of the field and writing it back. What a driver program does to
a device is told here by the operations of a more abstract device.
-/

namespace RegisterFile

/-! ## Fields of registers -/

/-- The bits of a field, and how far up they start. -/
structure Field where
  mask : UInt8
  shift : UInt8
deriving DecidableEq, Repr

def Field.get (f : Field) (b : UInt8) : UInt8 := (b &&& f.mask) >>> f.shift

def Field.set (f : Field) (b v : UInt8) : UInt8 := (b &&& ~~~f.mask) ||| (v <<< f.shift)

/-- There is room in the field for a value. -/
def Field.Fits (f : Field) (v : UInt8) : Prop :=
  (v <<< f.shift) &&& f.mask = v <<< f.shift ∧ (v <<< f.shift) >>> f.shift = v

instance (f : Field) (v : UInt8) : Decidable (f.Fits v) := inferInstanceAs (Decidable (_ ∧ _))

theorem or_and (a b c : UInt8) : (a ||| b) &&& c = (a &&& c) ||| (b &&& c) := by
  apply UInt8.toBitVec_inj.1
  ext i
  simp [Bool.and_or_distrib_right]

/-- Bits that a byte does not have stay when the byte's are cleared. -/
theorem not_and_of_disjoint {a b : UInt8} (h : a &&& b = 0) : ~~~a &&& b = b := by
  apply UInt8.toBitVec_inj.1
  ext i hi
  have hbit := congrArg (fun x : UInt8 => x.toBitVec[i]) h
  simp only [UInt8.toBitVec_and, UInt8.toBitVec_not, BitVec.getElem_and,
    BitVec.getElem_not] at hbit ⊢
  cases ha : a.toBitVec[i] with
  | false => simp
  | true => simpa [ha] using hbit.symm

theorem Field.get_set {f : Field} {v : UInt8} (h : f.Fits v) (b : UInt8) :
    f.get (f.set b v) = v := by
  have hkept : b &&& ~~~f.mask &&& f.mask = 0 := by
    rw [UInt8.and_assoc, UInt8.not_and_self, UInt8.and_zero]
  rw [Field.get, Field.set, or_and, hkept, h.1, UInt8.zero_or, h.2]

theorem Field.get_set_of_disjoint {f g : Field} (hfg : f.mask &&& g.mask = 0) {v : UInt8}
    (h : f.Fits v) (b : UInt8) : g.get (f.set b v) = g.get b := by
  have hkept : b &&& ~~~f.mask &&& g.mask = b &&& g.mask := by
    rw [UInt8.and_assoc, not_and_of_disjoint hfg]
  have hnew : (v <<< f.shift) &&& g.mask = 0 := by
    rw [← h.1, UInt8.and_assoc, hfg, UInt8.and_zero]
  rw [Field.get, Field.set, or_and, hkept, hnew, UInt8.or_zero]
  rfl

/-- Bits outside a field can be cleared before or after it is set. -/
theorem Field.set_and_not {f : Field} {v m : UInt8} (hm : m &&& f.mask = 0) (h : f.Fits v)
    (b : UInt8) : f.set b v &&& ~~~m = f.set (b &&& ~~~m) v := by
  have hkept : b &&& ~~~f.mask &&& ~~~m = b &&& ~~~m &&& ~~~f.mask := by
    rw [UInt8.and_assoc, UInt8.and_comm _ (~~~m), ← UInt8.and_assoc]
  have hnew : (v <<< f.shift) &&& ~~~m = v <<< f.shift := by
    rw [← h.1, UInt8.and_assoc, UInt8.and_comm f.mask, not_and_of_disjoint hm]
  rw [Field.set, Field.set, or_and, hnew, hkept]

/-- The bits outside a field stay when it is set. -/
theorem Field.set_outside {f : Field} {v m : UInt8} (hm : f.mask &&& m = 0) (h : f.Fits v)
    (b : UInt8) : f.set b v &&& m = b &&& m := by
  exact Field.get_set_of_disjoint (g := ⟨m, 0⟩) hm h b

/-! ## Driver programs -/

/-- The registers of a device. -/
abbrev Regs := UInt8 → UInt8

/-- A field of a register of one of some devices gets a value. -/
def setField {ι : Type} [DecidableEq ι] (regs : ι → Regs) (dev : ι) (reg : UInt8) (f : Field)
    (v : UInt8) : ι → Regs :=
  Function.update regs dev (Function.update (regs dev) reg (f.set (regs dev reg) v))

/-- A program over the devices `ι` of a bus. A read is told whether it succeeded and what
its variable then holds. -/
inductive Prog (ι : Type) (α : Type) where
  | done (a : α)
  | write (dev : ι) (reg value : UInt8) (next : Bool → Prog ι α)
  | read (dev : ι) (reg : UInt8) (next : Bool → UInt8 → Prog ι α)
  /-- a call that reaches no device, and may fail -/
  | call (next : Bool → Prog ι α)

/-- How the calls of a run go, by their number. A read that fails leaves its variable with
anything, and a write that fails may still have reached its device. -/
structure Chip (ι : Type) where
  ok : Nat → Bool
  late : Nat → Bool
  junk : Nat → UInt8
  load : Nat → ι → Regs → UInt8 → UInt8
  store : Regs → UInt8 → UInt8 → Regs

/-- The number of calls so far, and the registers. -/
structure State (ι : Type) where
  time : Nat
  regs : ι → Regs

/-- The call of this number is over. -/
def State.tick {ι : Type} (s : State ι) : State ι := { s with time := s.time + 1 }

@[simp] theorem State.tick_regs {ι : Type} (s : State ι) : s.tick.regs = s.regs := rfl

namespace Chip

variable {ι : Type} [DecidableEq ι]

/-- What a write leaves. -/
def wrote (c : Chip ι) (s : State ι) (dev : ι) (reg value : UInt8) : State ι :=
  if c.ok s.time || c.late s.time then
    { s with regs := Function.update s.regs dev (c.store (s.regs dev) reg value) }.tick
  else s.tick

/-- What the variable of a read holds. -/
def loaded (c : Chip ι) (s : State ι) (dev : ι) (reg : UInt8) : UInt8 :=
  if c.ok s.time then c.load s.time dev (s.regs dev) reg else c.junk s.time

end Chip

namespace Prog

variable {ι α β : Type} [DecidableEq ι]

def bind : Prog ι α → (α → Prog ι β) → Prog ι β
  | .done a, f => f a
  | .write dev reg value next, f => .write dev reg value fun ok => (next ok).bind f
  | .read dev reg next, f => .read dev reg fun ok b => (next ok b).bind f
  | .call next, f => .call fun ok => (next ok).bind f

def run (c : Chip ι) : Prog ι α → State ι → α × State ι
  | .done a, s => (a, s)
  | .write dev reg value next, s => (next (c.ok s.time)).run c (c.wrote s dev reg value)
  | .read dev reg next, s => (next (c.ok s.time) (c.loaded s dev reg)).run c s.tick
  | .call next, s => (next (c.ok s.time)).run c s.tick

@[simp] theorem run_bind (c : Chip ι) (p : Prog ι α) (f : α → Prog ι β) (s : State ι) :
    (p.bind f).run c s = (f (p.run c s).1).run c (p.run c s).2 := by
  induction p generalizing s with
  | done a => rfl
  | write dev reg value next ih => exact ih _ _
  | read dev reg next ih => exact ih _ _ _
  | call next ih => exact ih _ _

/-! ## What programs do -/

section Does

variable {δ ω : Type} (c : Chip ι) (abs : (ι → Regs) → δ) (apply : δ → ω → δ)

/-- From every state the program ends with a value for which its effect is, for the abstract
device, that of some operations that `Q` tells. -/
def Does (p : Prog ι α) (Q : α → List ω → Prop) : Prop :=
  ∀ s, ∃ ops, Q (p.run c s).1 ops ∧ abs (p.run c s).2.regs = ops.foldl apply (abs s.regs)

variable {c abs apply} {p : Prog ι α} {Q Q' : α → List ω → Prop}

theorem Does.done {a : α} (h : Q a []) : (Prog.done a : Prog ι α).Does c abs apply Q :=
  fun _ => ⟨[], h, rfl⟩

theorem Does.mono (hp : p.Does c abs apply Q) (h : ∀ a ops, Q a ops → Q' a ops) :
    p.Does c abs apply Q' := by
  intro s
  rcases hp s with ⟨ops, hQ, habs⟩
  exact ⟨ops, h _ _ hQ, habs⟩

/-- One program after another does what the two do. -/
theorem Does.bind {f : α → Prog ι β} {R : β → List ω → Prop} (hp : p.Does c abs apply Q)
    (hf : ∀ a ops, Q a ops → (f a).Does c abs apply fun b ops' => R b (ops ++ ops')) :
    (p.bind f).Does c abs apply R := by
  intro s
  rcases hp s with ⟨ops, hQ, habs⟩
  rcases hf _ ops hQ (p.run c s).2 with ⟨ops', hR, habs'⟩
  refine ⟨ops ++ ops', ?_, ?_⟩
  · rw [run_bind]
    exact hR
  · rw [run_bind, habs', habs, List.foldl_append]

/-- A read does nothing. -/
theorem Does.read {dev : ι} {reg : UInt8} {next : Bool → UInt8 → Prog ι α}
    (h : ∀ ok b, (next ok b).Does c abs apply Q) :
    (Prog.read dev reg next).Does c abs apply Q := by
  intro s
  exact h _ _ s.tick

theorem Does.call {next : Bool → Prog ι α} (h : ∀ ok, (next ok).Does c abs apply Q) :
    (Prog.call next).Does c abs apply Q := by
  intro s
  exact h _ s.tick

/-- A write that the abstract device sees as some operations, from the states in which it
does. It may have done them even if it fails. -/
theorem wrote_does {s : State ι} {dev : ι} {reg value : UInt8} {ops : List ω}
    (heff : abs (Function.update s.regs dev (c.store (s.regs dev) reg value)) =
      ops.foldl apply (abs s.regs)) :
    ∃ took : Bool, (c.ok s.time = true → took = true) ∧
      abs (c.wrote s dev reg value).regs =
        (if took then ops else []).foldl apply (abs s.regs) := by
  refine ⟨c.ok s.time || c.late s.time, ?_, ?_⟩
  · intro hok
    rw [hok, Bool.true_or]
  · unfold Chip.wrote
    split
    · exact heff
    · rfl

theorem Does.write {dev : ι} {reg value : UInt8} {next : Bool → Prog ι α} {ops : List ω}
    (heff : ∀ regs, abs (Function.update regs dev (c.store (regs dev) reg value)) =
      ops.foldl apply (abs regs))
    (h : ∀ ok took : Bool, (ok = true → took = true) → (next ok).Does c abs apply
      fun a ops' => Q a ((if took then ops else []) ++ ops')) :
    (Prog.write dev reg value next).Does c abs apply Q := by
  intro s
  rcases wrote_does (s := s) (heff s.regs) with ⟨took, htook, habs⟩
  rcases h _ took htook (c.wrote s dev reg value) with ⟨ops', hQ, habs'⟩
  refine ⟨_, hQ, ?_⟩
  rw [List.foldl_append, ← habs]
  exact habs'

/-- A register that reads back what was stored is read and rewritten. -/
theorem Does.modify {dev : ι} {reg : UInt8} {g : UInt8 → UInt8} {fail : Prog ι α}
    {next : Bool → Prog ι α} {ops : List ω}
    (hload : ∀ t regs, c.load t dev regs reg = regs reg)
    (heff : ∀ regs, abs (Function.update regs dev
      (c.store (regs dev) reg (g (regs dev reg)))) = ops.foldl apply (abs regs))
    (hfail : fail.Does c abs apply Q)
    (h : ∀ ok took : Bool, (ok = true → took = true) → (next ok).Does c abs apply
      fun a ops' => Q a ((if took then ops else []) ++ ops')) :
    (Prog.read dev reg fun ok b => if ok then .write dev reg (g b) next else fail).Does
      c abs apply Q := by
  intro s
  by_cases hok : c.ok s.time = true
  · have hb : c.loaded s dev reg = s.regs dev reg := by
      rw [Chip.loaded, if_pos hok, hload]
    have hrun : (Prog.read dev reg fun ok b => if ok then .write dev reg (g b) next
        else fail).run c s = (next (c.ok s.tick.time)).run c
          (c.wrote s.tick dev reg (g (s.regs dev reg))) := by
      simp [run, hok, hb]
    rcases wrote_does (s := s.tick) (heff s.tick.regs) with ⟨took, htook, habs⟩
    rcases h _ took htook (c.wrote s.tick dev reg (g (s.regs dev reg))) with ⟨ops', hQ, habs'⟩
    rw [hrun]
    refine ⟨_, hQ, ?_⟩
    rw [List.foldl_append, habs']
    exact congrArg (List.foldl apply · ops') habs
  · rcases hfail s.tick with ⟨ops', hQ, habs⟩
    refine ⟨ops', ?_, ?_⟩
    · simpa [run, hok] using hQ
    · simpa [run, hok] using habs

end Does

end Prog

end RegisterFile
