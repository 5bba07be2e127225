import Mathlib.Data.List.DropRight
import Mathlib.Data.List.Rotate

/-! # Ring buffers

A ring of `N` slots is written in turn, and keeps the number of slots that are in use. It
holds the end of the history of what was written: as long as it fills, the history from
the first slot on, and then its last `N` values, the oldest at the next slot to be
written.
-/

namespace Ring

variable {α : Type*} {N : Nat} {slots hist : List α} {idx n : Nat}

/-- The slots hold the end of a history. -/
structure Holds (N : Nat) (slots : List α) (idx n : Nat) (hist : List α) : Prop where
  length_slots : slots.length = N
  idx_eq : idx = hist.length % N
  n_eq : n = min hist.length N
  filling : hist.length ≤ N → slots.take hist.length = hist
  wrapped : N ≤ hist.length → slots.rotate idx = hist.rtake N

theorem holds_nil (hslots : slots.length = N) : Holds N slots 0 0 [] := by
  refine ⟨hslots, by simp, by simp, by simp, ?_⟩
  intro hN
  have hempty : slots = [] := List.length_eq_zero_iff.1 (by simp at hN; omega)
  simp [hempty]

/-- The slots up to the one that is written. -/
theorem take_set_succ (hidx : idx < slots.length) (x : α) :
    (slots.set idx x).take (idx + 1) = slots.take idx ++ [x] := by
  rw [List.take_add_one, List.take_set_of_le le_rfl, List.getElem?_set_self hidx]
  rfl

/-- The last values of a history that goes on: the oldest makes room. -/
theorem rtake_concat (hN : 0 < N) (hist : List α) (x : α) :
    (hist ++ [x]).rtake N = hist.rtake (N - 1) ++ [x] := by
  obtain ⟨m, rfl⟩ : ∃ m, N = m + 1 := ⟨N - 1, by omega⟩
  exact List.rtake_concat_succ _ _ _

theorem tail_rtake (hN : 0 < N) (hist : List α) (hlen : N ≤ hist.length) :
    (hist.rtake N).tail = hist.rtake (N - 1) := by
  unfold List.rtake
  rw [List.tail_drop]
  congr 1
  omega

/-- A write that starts the next turn, or goes on in this one. -/
theorem rotate_set_succ (hslots : slots.length = N) (hidx : idx < N) (x : α) :
    (slots.set idx x).rotate ((idx + 1) % N) = (slots.rotate idx).tail ++ [x] := by
  have hlen : (slots.set idx x).length = N := by simp [hslots]
  have hrest : (slots.rotate idx).tail = slots.drop (idx + 1) ++ slots.take idx := by
    rw [List.rotate_eq_drop_append_take (by omega), List.tail_append_of_ne_nil, List.tail_drop]
    exact List.ne_nil_of_length_pos (by simp; omega)
  rw [hrest, List.append_assoc, ← take_set_succ (by omega) x]
  conv_lhs => rw [← hlen, List.rotate_mod]
  rw [List.rotate_eq_drop_append_take (by omega), List.drop_set_of_lt (by omega)]

/-- Writing a slot goes on with the history. -/
theorem Holds.push (hN : 0 < N) (h : Holds N slots idx n hist) (x : α) :
    Holds N (slots.set idx x) ((idx + 1) % N) (if n < N then n + 1 else n) (hist ++ [x]) := by
  have hidx : idx < N := h.idx_eq ▸ Nat.mod_lt _ hN
  have hslots := h.length_slots
  have hn := h.n_eq
  have hfill : hist.length + 1 ≤ N →
      (slots.set idx x).take (hist ++ [x]).length = hist ++ [x] := by
    intro hroom
    have hnext : idx = hist.length := h.idx_eq.trans (Nat.mod_eq_of_lt hroom)
    rw [List.length_append, List.length_singleton, ← hnext, take_set_succ (by omega), hnext,
      h.filling (by omega)]
  refine ⟨by simpa using hslots, ?_, ?_, by simpa using hfill, ?_⟩
  · rw [h.idx_eq, Nat.mod_add_mod, List.length_append, List.length_singleton]
  · rw [List.length_append, List.length_singleton]
    split <;> omega
  · intro hfull
    rw [List.length_append, List.length_singleton] at hfull
    rcases Nat.lt_or_ge hist.length N with hlt | hge
    · -- the last slot is filled: the slots are the history
      have hlast : hist.length + 1 = N := by omega
      have hnext : idx = hist.length := h.idx_eq.trans (Nat.mod_eq_of_lt hlt)
      have hall := hfill (by omega)
      have hlen : (hist ++ [x]).length = N := by simpa using hlast
      rw [hlen, List.take_of_length_le (by simp [hslots])] at hall
      have hturn : (idx + 1) % N = 0 := by rw [hnext, hlast, Nat.mod_self]
      rw [hturn, List.rotate_zero, hall]
      unfold List.rtake
      rw [hlen, Nat.sub_self, List.drop_zero]
    · rw [rotate_set_succ hslots hidx, h.wrapped hge, tail_rtake hN hist hge,
        rtake_concat hN]

/-- Whatever their order, the slots in use hold the last `N` values. -/
theorem Holds.perm (h : Holds N slots idx n hist) : (slots.take n).Perm (hist.rtake N) := by
  rcases Nat.le_total hist.length N with hle | hge
  · have hn : n = hist.length := by
      have := h.n_eq
      omega
    have hall : hist.rtake N = hist := by
      unfold List.rtake
      rw [Nat.sub_eq_zero_of_le hle, List.drop_zero]
    rw [hn, h.filling hle, hall]
  · have hn : n = slots.length := by
      have := h.n_eq
      have := h.length_slots
      omega
    rw [hn, List.take_length, ← h.wrapped hge]
    exact (List.rotate_perm slots idx).symm

end Ring
