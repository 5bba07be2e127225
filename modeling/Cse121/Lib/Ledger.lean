import Cse121.Lib.Transducer
import Mathlib.Data.Finset.Basic

/-! # Resources that are given back

What a program does with resources, as a list of events: it acquires one, uses it,
releases it. A ledger runs through the events and knows what is held; it breaks off where
something is acquired that is held, or touched that is not. What the ledger accepts is
legal in terms of the events alone, and if it ends with nothing, all was given back.
-/

namespace Ledger

/-- A resource is acquired, used, or released. -/
inductive Event (α : Type*) where
  | acquire (a : α)
  | use (a : α)
  | release (a : α)
deriving DecidableEq, Repr

open Event

variable {α σ ι ο : Type*}

/-- Acquired, and not released since. -/
def Held (es : List (Event α)) (a : α) : Prop :=
  ∃ pre post, es = pre ++ acquire a :: post ∧ release a ∉ post

/-- Nothing is acquired while it is held, used or released unless it is held. -/
structure Legal (es : List (Event α)) : Prop where
  acquire : ∀ pre a post, es = pre ++ acquire a :: post → ¬ Held pre a
  use : ∀ pre a post, es = pre ++ use a :: post → Held pre a
  release : ∀ pre a post, es = pre ++ release a :: post → Held pre a

/-- All that is acquired is released, before it is acquired again, and so exactly once. -/
structure Settled (es : List (Event α)) : Prop extends Legal es where
  once : ∀ pre a post, es = pre ++ .acquire a :: post → ∃ mid rest,
    post = mid ++ .release a :: rest ∧ .acquire a ∉ mid ∧ .release a ∉ mid
  nothing : ∀ a, ¬ Held es a

/-- The same but for what is kept: it stays held from when it was last acquired. -/
structure SettledBut (kept : Set α) (es : List (Event α)) : Prop extends Legal es where
  once : ∀ pre a post, es = pre ++ .acquire a :: post →
    (∃ mid rest, post = mid ++ .release a :: rest ∧ .acquire a ∉ mid ∧ .release a ∉ mid) ∨
      (a ∈ kept ∧ .acquire a ∉ post ∧ .release a ∉ post)
  held : ∀ a, Held es a ↔ a ∈ kept

/-- Where nothing is kept, all is given back. -/
theorem SettledBut.settled {es : List (Event α)} (h : SettledBut ∅ es) : Settled es where
  toLegal := h.toLegal
  nothing a ha := (h.held a).1 ha
  once pre a post heq := (h.once pre a post heq).resolve_right fun hkept => hkept.1

theorem not_held_nil (a : α) : ¬ Held [] a := by
  rintro ⟨pre, post, heq, -⟩
  simp at heq

/-- Something is held if the last event acquired it, or it was held and is not released. -/
theorem held_concat {es : List (Event α)} {e : Event α} {a : α} :
    Held (es ++ [e]) a ↔ e = acquire a ∨ (Held es a ∧ e ≠ release a) := by
  constructor
  · rintro ⟨pre, post, heq, hpost⟩
    rcases List.eq_nil_or_concat post with rfl | ⟨post, e', rfl⟩
    · exact Or.inl (List.singleton_inj.1 (List.append_inj' heq rfl).2)
    · have heq' : es ++ [e] = (pre ++ acquire a :: post) ++ [e'] := by simpa using heq
      rcases List.append_inj' heq' rfl with ⟨hes, he⟩
      obtain rfl := List.singleton_inj.1 he
      have hpost' : release a ∉ post ∧ release a ≠ e := by simpa using hpost
      exact Or.inr ⟨⟨pre, post, hes, hpost'.1⟩, hpost'.2.symm⟩
  · rintro (rfl | ⟨⟨pre, post, rfl, hpost⟩, he⟩)
    · exact ⟨es, [], rfl, by simp⟩
    · exact ⟨pre, post ++ [e], by simp, by simp [hpost, he.symm]⟩

section Run

variable [DecidableEq α]

/-- One event, with what is held before it and after it. -/
def step (held : Finset α) : Event α → Option (Finset α)
  | .acquire a => if a ∈ held then none else some (insert a held)
  | .use a => if a ∈ held then some held else none
  | .release a => if a ∈ held then some (held.erase a) else none

section Step

variable {held : Finset α} {a : α}

@[simp] theorem step_acquire (h : a ∉ held) : step held (acquire a) = some (insert a held) :=
  if_neg h

@[simp] theorem step_use (h : a ∈ held) : step held (use a) = some held := if_pos h

@[simp] theorem step_release (h : a ∈ held) : step held (release a) = some (held.erase a) :=
  if_pos h

end Step

/-- The events from left to right. -/
def run : Finset α → List (Event α) → Option (Finset α)
  | held, [] => some held
  | held, e :: es => (step held e).bind fun held => run held es

@[simp] theorem run_nil (held : Finset α) : run held [] = some held := rfl

@[simp] theorem run_cons (held : Finset α) (e : Event α) (es : List (Event α)) :
    run held (e :: es) = (step held e).bind fun held => run held es := rfl

theorem run_append (held : Finset α) (xs ys : List (Event α)) :
    run held (xs ++ ys) = (run held xs).bind fun held => run held ys := by
  induction xs generalizing held with
  | nil => rfl
  | cons e xs ih =>
      rw [List.cons_append, run_cons, run_cons, Option.bind_assoc]
      exact Option.bind_congr fun held' _ => ih held'

/-- Two parts, the second from where the first has ended. -/
theorem run_trans {H K L : Finset α} {xs ys : List (Event α)} (hx : run H xs = some K)
    (hy : run K ys = some L) : run H (xs ++ ys) = some L := by
  rw [run_append, hx]
  exact hy

/-- Using what is held changes nothing. -/
theorem run_uses {H : Finset α} {es : List (Event α)} (h : ∀ e ∈ es, ∃ a ∈ H, e = use a) :
    run H es = some H := by
  induction es with
  | nil => rfl
  | cons e es ih =>
      rcases h e List.mem_cons_self with ⟨a, ha, rfl⟩
      rw [run_cons, step_use ha, Option.bind_some]
      exact ih fun e he => h e (List.mem_cons_of_mem _ he)

/-- Parts that each settle, settle together. -/
theorem run_flatten {parts : List (List (Event α))} {H : Finset α}
    (h : ∀ p ∈ parts, run H p = some H) : run H parts.flatten = some H := by
  induction parts with
  | nil => rfl
  | cons p parts ih =>
      exact run_trans (h p List.mem_cons_self) (ih fun q hq => h q (List.mem_cons_of_mem p hq))

/-- What every step of a machine does to the ledger, its runs do. -/
theorem run_out (M : Transducer σ ι ο) (events : ο → List (Event α)) (held : σ → Finset α)
    (hstep : ∀ s i, run (held s) ((M.step s i).2.flatMap events) = some (held (M.step s i).1))
    (s : σ) (is : List ι) :
    run (held s) ((M.out s is).flatMap events) = some (held (M.state s is)) := by
  induction is generalizing s with
  | nil => rfl
  | cons i is ih =>
      rw [Transducer.out_cons, List.flatMap_append]
      exact run_trans (hstep s i) (ih (M.step s i).1)

/-! ## What the ledger accepts -/

/-- One event takes what is held to what is held after it. -/
theorem mem_step {H K : Finset α} {e : Event α} (h : step H e = some K) (a : α) :
    a ∈ K ↔ e = acquire a ∨ (a ∈ H ∧ e ≠ release a) := by
  cases e with
  | acquire b =>
      simp only [step, Option.ite_none_left_eq_some, Option.some.injEq] at h
      rcases h with ⟨-, rfl⟩
      simp [eq_comm]
  | use b =>
      simp only [step, Option.ite_none_right_eq_some, Option.some.injEq] at h
      rcases h with ⟨-, rfl⟩
      simp
  | release b =>
      simp only [step, Option.ite_none_right_eq_some, Option.some.injEq] at h
      rcases h with ⟨-, rfl⟩
      simp [eq_comm, and_comm]

/-- The ledger knows what is held. -/
theorem mem_run {es : List (Event α)} {H : Finset α} (h : run ∅ es = some H) (a : α) :
    a ∈ H ↔ Held es a := by
  induction es using List.reverseRecOn generalizing H with
  | nil =>
      obtain rfl := Option.some.inj h
      exact iff_of_false (Finset.notMem_empty a) (not_held_nil a)
  | append_singleton es e ih =>
      rw [run_append] at h
      rcases Option.bind_eq_some_iff.1 h with ⟨K, hK, hlast⟩
      have hstep : step K e = some H := by simpa using hlast
      rw [mem_step hstep, ih hK, held_concat]

/-- Before each of its events a run has come to a state that takes it. -/
theorem run_split {pre post : List (Event α)} {e : Event α} {H : Finset α}
    (h : run ∅ (pre ++ e :: post) = some H) :
    ∃ K, (∀ a, a ∈ K ↔ Held pre a) ∧ (step K e).isSome := by
  rw [run_append] at h
  rcases Option.bind_eq_some_iff.1 h with ⟨K, hK, hrest⟩
  rcases Option.bind_eq_some_iff.1 hrest with ⟨L, hL, -⟩
  exact ⟨K, mem_run hK, Option.isSome_of_eq_some hL⟩

/-- What the ledger accepts is legal. -/
theorem legal_of_run {es : List (Event α)} {H : Finset α} (h : run ∅ es = some H) :
    Legal es where
  acquire := by
    rintro pre a post rfl
    rcases run_split h with ⟨K, hK, hstep⟩
    rw [← hK]
    simpa [step] using hstep
  use := by
    rintro pre a post rfl
    rcases run_split h with ⟨K, hK, hstep⟩
    rw [← hK]
    simpa [step] using hstep
  release := by
    rintro pre a post rfl
    rcases run_split h with ⟨K, hK, hstep⟩
    rw [← hK]
    simpa [step] using hstep

/-- What is not released is not acquired again. -/
theorem acquire_notMem {pre mid rest : List (Event α)} {a : α} {H : Finset α}
    (h : run ∅ (pre ++ acquire a :: (mid ++ rest)) = some H) (hmid : release a ∉ mid) :
    acquire a ∉ mid := by
  intro hacquire
  rcases List.append_of_mem hacquire with ⟨m, m', rfl⟩
  refine (legal_of_run h).acquire (pre ++ acquire a :: m) a (m' ++ rest) (by simp)
    ⟨pre, m, rfl, fun hm => hmid ?_⟩
  exact List.mem_append_left _ hm

/-- What is held in the end is kept, and all the rest was given back. -/
theorem settledBut_of_run {es : List (Event α)} {H : Finset α} (h : run ∅ es = some H) :
    SettledBut H es where
  toLegal := legal_of_run h
  held a := (mem_run h a).symm
  once := by
    rintro pre a post rfl
    by_cases hreleased : release a ∈ post
    · left
      rcases List.eq_append_cons_of_mem hreleased with ⟨mid, rest, rfl, hmid⟩
      exact ⟨mid, rest, rfl, acquire_notMem h hmid, hmid⟩
    · right
      have hheld : Held (pre ++ acquire a :: post) a := ⟨pre, post, rfl, hreleased⟩
      have hrun : run ∅ (pre ++ acquire a :: (post ++ [])) = some H := by
        rwa [List.append_nil]
      exact ⟨(mem_run h a).2 hheld, acquire_notMem hrun hreleased, hreleased⟩

/-- What ends with nothing held has given all back. -/
theorem settled_of_run {es : List (Event α)} (h : run ∅ es = some ∅) : Settled es := by
  have hbut := settledBut_of_run h
  rw [Finset.coe_empty] at hbut
  exact hbut.settled

end Run

end Ledger
