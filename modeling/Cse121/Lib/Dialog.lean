/-! # Programs on a bus

A program that talks to the devices on a bus: it sends bytes to an address, or asks an
address for some, and what it does next depends on how that ends. A bus tells how each
transaction ends, and may change with each.
-/

/-- A program that ends with a value. -/
inductive Dialog (α : Type) where
  | done (a : α)
  | write (addr : UInt8) (data : List UInt8) (next : Bool → Dialog α)
  | read (addr : UInt8) (n : Nat) (next : Option (Vector UInt8 n) → Dialog α)

/-- The devices on a bus, in a state that the transactions may change. -/
structure Bus (σ : Type) where
  write : σ → UInt8 → List UInt8 → Bool × σ
  read : σ → UInt8 → (n : Nat) → Option (Vector UInt8 n) × σ

/-- Any course of events: how each transaction ends, and the bytes that are received. -/
def Bus.script (o : Nat → Option (Nat → UInt8)) : Bus Nat where
  write i _ _ := ((o i).isSome, i + 1)
  read i _ n := ((o i).map fun rx => Vector.ofFn fun j : Fin n => rx j, i + 1)

/-- A bus with a device that only listens: what is sent and acknowledged changes its state. -/
def Bus.tap {σ δ : Type} (b : Bus σ) (take : δ → UInt8 → List UInt8 → δ) : Bus (δ × σ) where
  write s addr data :=
    ((b.write s.2 addr data).1,
      (if (b.write s.2 addr data).1 then take s.1 addr data else s.1, (b.write s.2 addr data).2))
  read s addr n := ((b.read s.2 addr n).1, (s.1, (b.read s.2 addr n).2))

/-- Bytes that were sent, and whether they were acknowledged. -/
structure Sent where
  addr : UInt8
  data : List UInt8
  ok : Bool
deriving DecidableEq, Repr

namespace Dialog

variable {α β σ : Type}

/-- One program after another. -/
def bind : Dialog α → (α → Dialog β) → Dialog β
  | .done a, f => f a
  | .write addr data next, f => .write addr data fun ok => (next ok).bind f
  | .read addr n next, f => .read addr n fun rx => (next rx).bind f

/-- The value that a program ends with, and the state that it leaves. -/
def run (b : Bus σ) : Dialog α → σ → α × σ
  | .done a, s => (a, s)
  | .write addr data next, s => (next (b.write s addr data).1).run b (b.write s addr data).2
  | .read addr n next, s => (next (b.read s addr n).1).run b (b.read s addr n).2

/-- What a program sends, in order. -/
def sent (b : Bus σ) : Dialog α → σ → List Sent
  | .done _, _ => []
  | .write addr data next, s =>
      ⟨addr, data, (b.write s addr data).1⟩ ::
        (next (b.write s addr data).1).sent b (b.write s addr data).2
  | .read addr n next, s => (next (b.read s addr n).1).sent b (b.read s addr n).2

section Rules

variable (b : Bus σ) (s : σ)

@[simp] theorem run_done (a : α) : (done a).run b s = (a, s) := rfl

@[simp] theorem run_write (addr : UInt8) (data : List UInt8) (next : Bool → Dialog α) :
    (write addr data next).run b s =
      (next (b.write s addr data).1).run b (b.write s addr data).2 := rfl

@[simp] theorem run_read (addr : UInt8) (n : Nat) (next : Option (Vector UInt8 n) → Dialog α) :
    (read addr n next).run b s =
      (next (b.read s addr n).1).run b (b.read s addr n).2 := rfl

@[simp] theorem sent_done (a : α) : (done a).sent b s = [] := rfl

@[simp] theorem sent_write (addr : UInt8) (data : List UInt8) (next : Bool → Dialog α) :
    (write addr data next).sent b s = ⟨addr, data, (b.write s addr data).1⟩ ::
      (next (b.write s addr data).1).sent b (b.write s addr data).2 := rfl

@[simp] theorem sent_read (addr : UInt8) (n : Nat) (next : Option (Vector UInt8 n) → Dialog α) :
    (read addr n next).sent b s =
      (next (b.read s addr n).1).sent b (b.read s addr n).2 := rfl

/-- The second program runs from where the first one ended. -/
@[simp] theorem run_bind (p : Dialog α) (f : α → Dialog β) :
    (p.bind f).run b s = (f (p.run b s).1).run b (p.run b s).2 := by
  induction p generalizing s with
  | done a => rfl
  | write addr data next ih => exact ih _ _
  | read addr n next ih => exact ih _ _

end Rules

/-! ## How programs end -/

/-- Whatever happens on the bus, what the program ends with has the property. -/
def Ends (P : α → Prop) : Dialog α → Prop
  | .done a => P a
  | .write _ _ next => ∀ ok, (next ok).Ends P
  | .read _ _ next => ∀ rx, (next rx).Ends P

theorem Ends.run {P : α → Prop} {p : Dialog α} (hp : p.Ends P) (b : Bus σ) (s : σ) :
    P (p.run b s).1 := by
  induction p generalizing s with
  | done a => exact hp
  | write addr data next ih => exact ih _ (hp _) _
  | read addr n next ih => exact ih _ (hp _) _

theorem ends_true (p : Dialog α) : p.Ends fun _ => True := by
  induction p with
  | done a => trivial
  | write addr data next ih => exact ih
  | read addr n next ih => exact ih

theorem Ends.bind {P : α → Prop} {Q : β → Prop} {p : Dialog α} {f : α → Dialog β}
    (hp : p.Ends P) (hf : ∀ a, P a → (f a).Ends Q) : (p.bind f).Ends Q := by
  induction p with
  | done a => exact hf a hp
  | write addr data next ih => exact fun ok => ih ok (hp ok)
  | read addr n next ih => exact fun rx => ih rx (hp rx)

/-! ## What programs send -/

/-- Whatever happens on the bus, all that the program sends has the property. -/
def Sends (P : UInt8 → List UInt8 → Prop) : Dialog α → Prop
  | .done _ => True
  | .write addr data next => P addr data ∧ ∀ ok, (next ok).Sends P
  | .read _ _ next => ∀ rx, (next rx).Sends P

section Sends

variable {P Q : UInt8 → List UInt8 → Prop} {p : Dialog α}

theorem Sends.mono (hp : p.Sends P) (h : ∀ addr data, P addr data → Q addr data) : p.Sends Q := by
  induction p with
  | done x => trivial
  | write addr data next ih => exact ⟨h addr data hp.1, fun ok => ih ok (hp.2 ok)⟩
  | read addr n next ih => exact fun rx => ih rx (hp rx)

theorem Sends.bind {f : α → Dialog β} (hp : p.Sends P) (hf : ∀ a, (f a).Sends P) :
    (p.bind f).Sends P := by
  induction p with
  | done a => exact hf a
  | write addr data next ih => exact ⟨hp.1, fun ok => ih ok (hp.2 ok)⟩
  | read addr n next ih => exact fun rx => ih rx (hp rx)

theorem Sends.sent (hp : p.Sends P) (b : Bus σ) (s : σ) : ∀ x ∈ p.sent b s, P x.addr x.data := by
  induction p generalizing s with
  | done x =>
      intro x hx
      cases hx
  | write addr data next ih =>
      intro x hx
      rcases List.mem_cons.1 hx with rfl | hx
      · exact hp.1
      · exact ih _ (hp.2 _) _ x hx
  | read addr n next ih => exact ih _ (hp _) _

/-- What none of it changes stays as it was. -/
theorem Sends.run_eq (hp : p.Sends P) {b : Bus σ} {γ : Type} (get : σ → γ)
    (hwrite : ∀ s addr data, P addr data → get (b.write s addr data).2 = get s)
    (hread : ∀ s addr n, get (b.read s addr n).2 = get s) (s : σ) :
    get (p.run b s).2 = get s := by
  induction p generalizing s with
  | done x => rfl
  | write addr data next ih =>
      exact (ih _ (hp.2 _) _).trans (hwrite s addr data hp.1)
  | read addr n next ih => exact (ih _ (hp _) _).trans (hread s addr n)

end Sends

/-- What every transaction keeps, a program keeps. -/
theorem run_invariant {b : Bus σ} {Inv : σ → Prop}
    (hwrite : ∀ s addr data, Inv s → Inv (b.write s addr data).2)
    (hread : ∀ s addr n, Inv s → Inv (b.read s addr n).2) (p : Dialog α) {s : σ} (hs : Inv s) :
    Inv (p.run b s).2 := by
  induction p generalizing s with
  | done x => exact hs
  | write addr data next ih => exact ih _ (hwrite s addr data hs)
  | read addr n next ih => exact ih _ (hread s addr n hs)

/-! ## Devices that listen -/

section Listening

variable {δ : Type} {can : UInt8 → Bool → Prop} {take : δ → UInt8 → List UInt8 → δ}

/-- What a program says to whoever listens, whatever happens on the bus: it ends with a value
and leaves the listener in a state with the property. Only some transactions can fail. -/
def Leaves (can : UInt8 → Bool → Prop) (take : δ → UInt8 → List UInt8 → δ) (P : α → δ → Prop) :
    Dialog α → δ → Prop
  | .done a, d => P a d
  | .write addr data next, d =>
      ∀ ok, can addr ok → (next ok).Leaves can take P (if ok then take d addr data else d)
  | .read _ _ next, d => ∀ rx, (next rx).Leaves can take P d

variable {p : Dialog α} {P Q : α → δ → Prop} {d : δ}

theorem Leaves.mono (hp : p.Leaves can take P d) (h : ∀ a d', P a d' → Q a d') :
    p.Leaves can take Q d := by
  induction p generalizing d with
  | done a => exact h a d hp
  | write addr data next ih => exact fun ok hok => ih ok (hp ok hok)
  | read addr n next ih => exact fun rx => ih rx (hp rx)

theorem leaves_true (p : Dialog α) (d : δ) : p.Leaves can take (fun _ _ => True) d := by
  induction p generalizing d with
  | done a => trivial
  | write addr data next ih => exact fun ok _ => ih ok _
  | read addr n next ih => exact fun rx => ih rx d

/-- The second program begins with what the first one left. -/
theorem Leaves.bind {f : α → Dialog β} {R : β → δ → Prop} (hp : p.Leaves can take P d)
    (hf : ∀ a d', P a d' → (f a).Leaves can take R d') : (p.bind f).Leaves can take R d := by
  induction p generalizing d with
  | done a => exact hf a d hp
  | write addr data next ih => exact fun ok hok => ih ok (hp ok hok)
  | read addr n next ih => exact fun rx => ih rx (hp rx)

/-- What a program says that a listener does not care for leaves it as it was. -/
theorem Sends.leaves {S : UInt8 → List UInt8 → Prop} {E : α → Prop} (hp : p.Sends S)
    (hends : p.Ends E) (htake : ∀ addr data, S addr data → take d addr data = d) :
    p.Leaves can take (fun a d' => E a ∧ d' = d) d := by
  induction p with
  | done a => exact ⟨hends, rfl⟩
  | write addr data next ih =>
      intro ok _
      rw [htake addr data hp.1, ite_self]
      exact ih ok (hp.2 ok) (hends ok)
  | read addr n next ih => exact fun rx => ih rx (hp rx) (hends rx)

/-- What listens hears the program as the bus does. -/
theorem run_tap (b : Bus σ) (p : Dialog α) (d : δ) (s : σ) :
    (p.run (b.tap take) (d, s)).1 = (p.run b s).1 ∧
      (p.run (b.tap take) (d, s)).2.2 = (p.run b s).2 := by
  induction p generalizing d s with
  | done a => exact ⟨rfl, rfl⟩
  | write addr data next ih => exact ih _ _ _
  | read addr n next ih => exact ih _ _ _

theorem Leaves.run (hp : p.Leaves can take P d) {b : Bus σ}
    (hb : ∀ s addr data, can addr (b.write s addr data).1) (s : σ) :
    P (p.run (b.tap take) (d, s)).1 (p.run (b.tap take) (d, s)).2.1 := by
  induction p generalizing d s with
  | done a => exact hp
  | write addr data next ih => exact ih _ (hp _ (hb s addr data)) _
  | read addr n next ih => exact ih _ (hp _) _

end Listening

end Dialog
