import Cse121.Lib.Transducer
import Mathlib.Data.List.Induction

/-! # A register and its log

A register keeps what was written to it last. Its value after a log of operations, some
of which write, is told by the last one that does.
-/

namespace Register

variable {ο α : Type*}

/-- The value after a log; `write` tells which operations write, and what. -/
def after (write : ο → Option α) : α → List ο → α
  | v, [] => v
  | v, o :: log => after write ((write o).getD v) log

@[simp] theorem after_nil (write : ο → Option α) (v : α) : after write v [] = v := rfl

theorem after_append (write : ο → Option α) (v : α) (xs ys : List ο) :
    after write v (xs ++ ys) = after write (after write v xs) ys := by
  induction xs generalizing v with
  | nil => rfl
  | cons x xs ih => exact ih _

theorem after_concat (write : ο → Option α) (v : α) (xs : List ο) (x : ο) :
    after write v (xs ++ [x]) = (write x).getD (after write v xs) := by
  rw [after_append]
  rfl

/-- A part of a machine's state that a step writes or leaves is a register of its inputs. -/
theorem after_state {σ ι κ : Type*} (M : Transducer σ ι κ) (part : σ → α) (write : ι → Option α)
    (hstep : ∀ s i, part (M.step s i).1 = (write i).getD (part s)) (s : σ) (is : List ι) :
    part (M.state s is) = after write (part s) is := by
  induction is generalizing s with
  | nil => rfl
  | cons i is ih =>
      rw [Transducer.state_cons, ih, hstep]
      rfl

/-- A register whose writes are read through a function. -/
theorem after_map {β : Type*} (f : α → β) {write : ο → Option α} {write' : ο → Option β}
    (h : ∀ o, write' o = (write o).map f) (v : α) (log : List ο) :
    after write' (f v) log = f (after write v log) := by
  induction log generalizing v with
  | nil => rfl
  | cons o log ih =>
      have hread : (write' o).getD (f v) = f ((write o).getD v) := by
        rw [h]
        cases write o <;> rfl
      rw [after, hread, ih]
      rfl

/-- There was a `set` and no `reset` since, or there was no `reset` and `start` holds. -/
def Since (set reset : ο → Prop) (start : Prop) (log : List ο) : Prop :=
  (∃ pre o post, log = pre ++ o :: post ∧ set o ∧ ∀ x ∈ post, ¬ reset x) ∨
  (∀ x ∈ log, ¬ reset x) ∧ start

/-- One more operation is a `set`, or is no `reset` and leaves the rest. -/
theorem since_concat {set reset : ο → Prop} {start : Prop} {log : List ο} {o : ο} :
    Since set reset start (log ++ [o]) ↔ set o ∨ ¬ reset o ∧ Since set reset start log := by
  constructor
  · rintro (⟨pre, o', post, heq, hset, hpost⟩ | ⟨hnone, hstart⟩)
    · rcases List.eq_nil_or_concat post with rfl | ⟨post, o'', rfl⟩
      · obtain ⟨-, hlast⟩ := List.append_inj' heq rfl
        exact Or.inl (List.singleton_inj.1 hlast ▸ hset)
      · have hsplit : log ++ [o] = (pre ++ o' :: post) ++ [o''] := by simpa using heq
        obtain ⟨rfl, hlast⟩ := List.append_inj' hsplit rfl
        obtain rfl : o = o'' := List.singleton_inj.1 hlast
        refine Or.inr ⟨hpost o (by simp), Or.inl ⟨pre, o', post, rfl, hset, ?_⟩⟩
        exact fun x hx => hpost x (by simp [hx])
    · exact Or.inr ⟨hnone o (by simp), Or.inr ⟨fun x hx => hnone x (by simp [hx]), hstart⟩⟩
  · rintro (hset | ⟨hreset, ⟨pre, o', post, rfl, hset, hpost⟩ | ⟨hnone, hstart⟩⟩)
    · exact Or.inl ⟨log, o, [], rfl, hset, by simp⟩
    · refine Or.inl ⟨pre, o', post ++ [o], by simp, hset, ?_⟩
      simpa [or_imp, forall_and, hreset] using hpost
    · exact Or.inr ⟨by simpa [or_imp, forall_and, hreset] using hnone, hstart⟩

/-- Operations that are no `set` leave it unless one of them is a `reset`. -/
theorem since_append_of_no_set {set reset : ο → Prop} {start : Prop} {log xs : List ο}
    (h : ∀ x ∈ xs, ¬ set x) :
    Since set reset start (log ++ xs) ↔ (∀ x ∈ xs, ¬ reset x) ∧ Since set reset start log := by
  induction xs using List.reverseRecOn with
  | nil => simp
  | append_singleton xs x ih =>
      rw [List.forall_mem_append] at h
      have hx : ¬ set x := h.2 x List.mem_cons_self
      rw [← List.append_assoc, since_concat, ih h.1, List.forall_mem_append,
        List.forall_mem_singleton, or_iff_right hx, and_left_comm, and_assoc]

/-- Operations that are no `reset` leave it, and any of them may be the `set`. -/
theorem since_append_of_no_reset {set reset : ο → Prop} {start : Prop} {log xs : List ο}
    (h : ∀ x ∈ xs, ¬ reset x) :
    Since set reset start (log ++ xs) ↔ (∃ x ∈ xs, set x) ∨ Since set reset start log := by
  induction xs using List.reverseRecOn with
  | nil => simp
  | append_singleton xs x ih =>
      rw [List.forall_mem_append] at h
      have hx : ¬ reset x := h.2 x List.mem_cons_self
      rw [← List.append_assoc, since_concat, ih h.1]
      simp only [hx, not_false_eq_true, true_and, List.mem_append, List.mem_singleton, or_and_right,
        exists_or, exists_eq_left]
      rw [or_left_comm, or_assoc]

/-- If a `set` writes `good`, a `reset` writes `bad` and nothing else writes, the register
holds `good` exactly when there was a `set` since the last `reset`. -/
theorem after_eq_iff {write : ο → Option α} {set reset : ο → Prop} {v good bad : α}
    (hne : bad ≠ good) {log : List ο} (hset : ∀ o ∈ log, set o → write o = some good)
    (hreset : ∀ o ∈ log, reset o → write o = some bad)
    (hnone : ∀ o ∈ log, ¬ set o → ¬ reset o → write o = none) :
    after write v log = good ↔ Since set reset (v = good) log := by
  induction log using List.reverseRecOn with
  | nil => simp [Since]
  | append_singleton log o ih =>
      have hprev := ih (fun o' ho' => hset o' (List.mem_append_left _ ho'))
        (fun o' ho' => hreset o' (List.mem_append_left _ ho'))
        (fun o' ho' => hnone o' (List.mem_append_left _ ho'))
      rw [after_concat, since_concat, ← hprev]
      by_cases ho : set o
      · simp [hset o (by simp) ho, ho]
      · by_cases ho' : reset o
        · simp [hreset o (by simp) ho', ho, ho', hne]
        · simp [hnone o (by simp) ho ho', ho, ho']

/-! ## Every operation and the log before it -/

/-- What holds of every operation and of the log before it. -/
def Each (P : List ο → ο → Prop) (log : List ο) : Prop :=
  ∀ pre o post, log = pre ++ o :: post → P pre o

@[simp] theorem each_nil (P : List ο → ο → Prop) : Each P [] := by
  intro pre o post h
  simp at h

theorem each_cons {P : List ο → ο → Prop} {o : ο} {log : List ο} :
    Each P (o :: log) ↔ P [] o ∧ Each (fun pre => P (o :: pre)) log := by
  constructor
  · intro h
    refine ⟨h [] o log rfl, ?_⟩
    rintro pre o' post rfl
    exact h (o :: pre) o' post rfl
  · rintro ⟨hfirst, hrest⟩ pre o' post heq
    rcases List.cons_eq_append_iff.1 heq with ⟨rfl, hcons⟩ | ⟨pre, rfl, hlog⟩
    · rw [(List.cons.inj hcons).1]
      exact hfirst
    · exact hrest pre o' post hlog

theorem each_append {P : List ο → ο → Prop} {xs ys : List ο} :
    Each P (xs ++ ys) ↔ Each P xs ∧ Each (fun pre => P (xs ++ pre)) ys := by
  induction xs generalizing P with
  | nil => simp
  | cons x xs ih => rw [List.cons_append, each_cons, each_cons, ih, and_assoc]; rfl

end Register
