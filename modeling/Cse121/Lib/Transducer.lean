import Mathlib.Data.List.Forall2
import Mathlib.Data.List.Induction

/-! # Deterministic transducers

A transducer reads one input per step, moves its state and emits a list of
outputs. Loops that wait for an event, handle it and print something are
transducers; so are the small automata used to describe what such a loop does.
The rules below package the inductions over runs: invariants, simulation of
one transducer by another, and cascades.
-/

universe u v w

/-- A deterministic machine: every input moves the state and emits outputs. -/
structure Transducer (σ : Type u) (ι : Type v) (ο : Type w) where
  step : σ → ι → σ × List ο

namespace Transducer

variable {σ τ ι κ ο ρ α : Type*}

/-- The state after a list of inputs. -/
def state (M : Transducer σ ι ο) : σ → List ι → σ
  | s, [] => s
  | s, i :: is => M.state (M.step s i).1 is

/-- Everything emitted over a list of inputs, in order. -/
def out (M : Transducer σ ι ο) : σ → List ι → List ο
  | _, [] => []
  | s, i :: is => (M.step s i).2 ++ M.out (M.step s i).1 is

@[simp] theorem state_nil (M : Transducer σ ι ο) (s : σ) : M.state s [] = s := rfl

@[simp] theorem state_cons (M : Transducer σ ι ο) (s : σ) (i : ι) (is : List ι) :
    M.state s (i :: is) = M.state (M.step s i).1 is := rfl

@[simp] theorem out_nil (M : Transducer σ ι ο) (s : σ) : M.out s [] = [] := rfl

@[simp] theorem out_cons (M : Transducer σ ι ο) (s : σ) (i : ι) (is : List ι) :
    M.out s (i :: is) = (M.step s i).2 ++ M.out (M.step s i).1 is := rfl

/-- Running a concatenation is running the two parts in turn. -/
theorem state_append (M : Transducer σ ι ο) (s : σ) (xs ys : List ι) :
    M.state s (xs ++ ys) = M.state (M.state s xs) ys := by
  induction xs generalizing s with
  | nil => rfl
  | cons x xs ih => exact ih (M.step s x).1

theorem out_append (M : Transducer σ ι ο) (s : σ) (xs ys : List ι) :
    M.out s (xs ++ ys) = M.out s xs ++ M.out (M.state s xs) ys := by
  induction xs generalizing s with
  | nil => rfl
  | cons x xs ih =>
      have hrest := ih (M.step s x).1
      simp only [List.cons_append, out_cons, state_cons, hrest, List.append_assoc]

/-! ## Invariants -/

/-- What every step emits under an invariant, every run emits. -/
theorem out_invariant (M : Transducer σ ι ο) (Inv : σ → Prop) (P : ι → Prop) (Q : ο → Prop)
    (hstep : ∀ s i, P i → Inv s → Inv (M.step s i).1)
    (hout : ∀ s i, P i → Inv s → ∀ o ∈ (M.step s i).2, Q o) {s : σ} {is : List ι}
    (hP : ∀ i ∈ is, P i) (hs : Inv s) : ∀ o ∈ M.out s is, Q o := by
  induction is generalizing s with
  | nil => simp
  | cons i is ih =>
      intro o ho
      have hi : P i := hP i List.mem_cons_self
      have his : ∀ k ∈ is, P k := fun k hk => hP k (List.mem_cons_of_mem i hk)
      rcases List.mem_append.1 ho with ho | ho
      · exact hout s i hi hs o ho
      · exact ih his (hstep s i hi hs) o ho

/-- Invariance relative to the history: `Inv` may speak about the inputs read so far. -/
theorem history_invariant (M : Transducer σ ι ο) (s₀ : σ) (Inv : List ι → σ → Prop)
    (hinit : Inv [] s₀)
    (hstep : ∀ pre i s, Inv pre s → Inv (pre ++ [i]) (M.step s i).1) :
    ∀ is, Inv is (M.state s₀ is) := by
  intro is
  induction is using List.reverseRecOn with
  | nil => exact hinit
  | append_singleton pre i ih =>
      rw [state_append]
      exact hstep pre i _ ih

/-! ## Simulation and cascades -/

/-- If related states take related inputs to related states and the two steps
agree on what an observer sees of them, then so do whole runs. -/
theorem simulation {M : Transducer σ ι ο} {N : Transducer τ κ ρ} (R : σ → τ → Prop)
    (Q : ι → κ → Prop) (f : ο → List α) (g : ρ → List α)
    (hstep : ∀ s t i j, R s t → Q i j → R (M.step s i).1 (N.step t j).1 ∧
      (M.step s i).2.flatMap f = (N.step t j).2.flatMap g)
    {s : σ} {t : τ} {is : List ι} {js : List κ} (h : R s t) (hQ : List.Forall₂ Q is js) :
    R (M.state s is) (N.state t js) ∧
      (M.out s is).flatMap f = (N.out t js).flatMap g := by
  induction hQ generalizing s t with
  | nil => exact ⟨h, rfl⟩
  | cons hij _ ih =>
      have hs := hstep s t _ _ h hij
      have hrest := ih hs.1
      refine ⟨hrest.1, ?_⟩
      simp only [out_cons, List.flatMap_append, hs.2, hrest.2]

/-- The simulation rule for two machines on the same inputs, all satisfying `P`. -/
theorem lockstep {M : Transducer σ ι ο} {N : Transducer τ ι ρ} (R : σ → τ → Prop)
    (P : ι → Prop) (f : ο → List α) (g : ρ → List α)
    (hstep : ∀ s t i, R s t → P i → R (M.step s i).1 (N.step t i).1 ∧
      (M.step s i).2.flatMap f = (N.step t i).2.flatMap g)
    {s : σ} {t : τ} {is : List ι} (h : R s t) (hP : ∀ i ∈ is, P i) :
    R (M.state s is) (N.state t is) ∧
      (M.out s is).flatMap f = (N.out t is).flatMap g := by
  have hsame : List.Forall₂ (fun i j => i = j ∧ P i) is is :=
    List.forall₂_same.2 fun i hi => ⟨rfl, hP i hi⟩
  refine simulation R (fun i j => i = j ∧ P i) f g ?_ h hsame
  rintro s t i j hR ⟨rfl, hi⟩
  exact hstep s t i hR hi

/-- Feed everything the first machine emits to the second one. -/
def cascade (F : Transducer σ ι κ) (N : Transducer τ κ ρ) : Transducer (σ × τ) ι ρ where
  step s i := (((F.step s.1 i).1, N.state s.2 (F.step s.1 i).2), N.out s.2 (F.step s.1 i).2)

/-- A cascade runs the second machine on the whole output of the first. -/
theorem cascade_run (F : Transducer σ ι κ) (N : Transducer τ κ ρ) (a : σ) (b : τ)
    (is : List ι) :
    (cascade F N).state (a, b) is = (F.state a is, N.state b (F.out a is)) ∧
      (cascade F N).out (a, b) is = N.out b (F.out a is) := by
  induction is generalizing a b with
  | nil => exact ⟨rfl, rfl⟩
  | cons i is ih =>
      have hrest := ih (F.step a i).1 (N.state b (F.step a i).2)
      constructor
      · simpa only [state_cons, out_cons, cascade, state_append] using hrest.1
      · simp only [out_cons, out_append]
        simpa only [cascade] using congrArg (N.out b (F.step a i).2 ++ ·) hrest.2

/-- Refinement of a cascade: when every step of `M` does what `N` does with the
tokens that `F` emits for the same input, runs of `M` show what `N` shows on the
whole token stream of `F`. -/
theorem refines_cascade {φ ν : Type*} {M : Transducer σ ι ο} {F : Transducer φ ι κ}
    {N : Transducer ν κ ρ} (R : σ → φ → ν → Prop) (P : ι → Prop) (f : ο → List α)
    (g : ρ → List α)
    (hstep : ∀ s a b i, R s a b → P i →
      R (M.step s i).1 (F.step a i).1 (N.state b (F.step a i).2) ∧
      (M.step s i).2.flatMap f = (N.out b (F.step a i).2).flatMap g)
    {s : σ} {a : φ} {b : ν} {is : List ι} (h : R s a b) (hP : ∀ i ∈ is, P i) :
    R (M.state s is) (F.state a is) (N.state b (F.out a is)) ∧
      (M.out s is).flatMap f = (N.out b (F.out a is)).flatMap g := by
  have hsim := lockstep (N := cascade F N) (fun s t => R s t.1 t.2) P f g
    (fun s t i hR hi => hstep s t.1 t.2 i hR hi) (t := (a, b)) h hP
  have hrun := cascade_run F N a b is
  rw [hrun.1, hrun.2] at hsim
  exact hsim

end Transducer
