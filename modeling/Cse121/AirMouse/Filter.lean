import Cse121.Lib.Ring
import Mathlib.Algebra.Order.Ring.Rat
import Mathlib.Data.List.Perm.Basic

/-! # The moving average

`sma8_t` of `lab4_1/main/lab4_1.c` and `lab4_3/main/lab4_3.c`, which are written alike: three
rings of eight slots that share an index and a count. The sums are in exact arithmetic.
-/

namespace Cse121

/-- `sma8_t` -/
structure Sma8 where
  bX : Vector ℚ 8
  bY : Vector ℚ 8
  bZ : Vector ℚ 8
  idx : Nat
  n : Nat
deriving DecidableEq

/-- `sma8_init` -/
def sma8Init : Sma8 := ⟨.replicate 8 0, .replicate 8 0, .replicate 8 0, 0, 0⟩

/-- `sma8_push` -/
def sma8Push (f : Sma8) (x y z : ℚ) : Sma8 where
  bX := f.bX.setIfInBounds f.idx x
  bY := f.bY.setIfInBounds f.idx y
  bZ := f.bZ.setIfInBounds f.idx z
  idx := (f.idx + 1) &&& 7
  n := if f.n < 8 then f.n + 1 else f.n

/-- One axis of the loop of `sma8_get`. -/
def sma8Sum (b : Vector ℚ 8) (n : Nat) : ℚ :=
  (List.range n).foldl (fun s i => s + b[i]?.getD 0) 0

/-- `sma8_get` -/
def sma8Get (f : Sma8) : ℚ × ℚ × ℚ :=
  let n := if f.n ≠ 0 then f.n else 1
  (sma8Sum f.bX n / n, sma8Sum f.bY n / n, sma8Sum f.bZ n / n)

/-- The filter after some values. -/
def sma8After (ps : List (ℚ × ℚ × ℚ)) : Sma8 :=
  ps.foldl (fun f p => sma8Push f p.1 p.2.1 p.2.2) sma8Init

/-- The mean of some values, and 0 of none. -/
def mean (xs : List ℚ) : ℚ := xs.foldl (· + ·) 0 / xs.length

/-! ## What the rings hold -/

/-- The three rings hold the end of the history of each axis. -/
structure Sma8.Holds (f : Sma8) (ps : List (ℚ × ℚ × ℚ)) : Prop where
  x : Ring.Holds 8 f.bX.toList f.idx f.n (ps.map fun p => p.1)
  y : Ring.Holds 8 f.bY.toList f.idx f.n (ps.map fun p => p.2.1)
  z : Ring.Holds 8 f.bZ.toList f.idx f.n (ps.map fun p => p.2.2)

theorem Sma8.Holds.push {f : Sma8} {ps : List (ℚ × ℚ × ℚ)} (h : f.Holds ps) (p : ℚ × ℚ × ℚ) :
    (sma8Push f p.1 p.2.1 p.2.2).Holds (ps ++ [p]) := by
  have hwrap : (f.idx + 1) &&& 7 = (f.idx + 1) % 8 := Nat.and_two_pow_sub_one_eq_mod _ 3
  constructor
  · simpa [sma8Push, hwrap] using h.x.push (by decide) p.1
  · simpa [sma8Push, hwrap] using h.y.push (by decide) p.2.1
  · simpa [sma8Push, hwrap] using h.z.push (by decide) p.2.2

theorem sma8_holds (ps : List (ℚ × ℚ × ℚ)) : (sma8After ps).Holds ps := by
  induction ps using List.reverseRecOn with
  | nil => exact ⟨Ring.holds_nil (by simp), Ring.holds_nil (by simp), Ring.holds_nil (by simp)⟩
  | append_singleton ps p ih =>
      have hstep : sma8After (ps ++ [p]) = sma8Push (sma8After ps) p.1 p.2.1 p.2.2 :=
        List.foldl_concat _ _ _ _
      rw [hstep]
      exact ih.push p

/-- The loop adds the first slots. -/
theorem sma8Sum_eq (b : Vector ℚ 8) {n : Nat} (hn : n ≤ 8) :
    sma8Sum b n = (b.toList.take n).foldl (· + ·) 0 := by
  induction n with
  | zero => rfl
  | succ n ih =>
      -- the slot is in the array, so the default is not used
      have hslot : b.toList[n]? = some (b[n]?.getD 0) := by
        rw [Vector.getElem?_toList, Vector.getElem?_eq_getElem (by omega), Option.getD_some]
      have hprev := ih (by omega)
      unfold sma8Sum at hprev ⊢
      rw [List.range_succ, List.foldl_concat, hprev, List.take_add_one, hslot,
        Option.toList_some, List.foldl_concat]

/-- One axis is the mean of the last eight values of its history. -/
theorem axis_mean {b : Vector ℚ 8} {idx n : Nat} {hist : List ℚ}
    (h : Ring.Holds 8 b.toList idx n hist) (hpos : n ≠ 0) :
    sma8Sum b (if n ≠ 0 then n else 1) / (if n ≠ 0 then n else 1 : Nat) =
      mean (hist.rtake 8) := by
  have hn := h.n_eq
  have hlen : (hist.rtake 8).length = n := by
    rw [← h.perm.length_eq, List.length_take, h.length_slots]
    omega
  unfold mean
  rw [if_pos hpos, sma8Sum_eq b (by omega), h.perm.foldl_eq, hlen]

theorem rtake_map {α β : Type} (f : α → β) (xs : List α) (n : Nat) :
    (xs.map f).rtake n = (xs.rtake n).map f := by
  unfold List.rtake
  rw [List.length_map, List.map_drop]

/-- After any values the filter gives the mean of the last eight, or of all if there are
fewer, and zero before the first; its index and its count stay in their range. -/
theorem sliding_mean (ps : List (ℚ × ℚ × ℚ)) :
    (sma8After ps).idx ≤ 7 ∧ (sma8After ps).n ≤ 8 ∧
      sma8Get (sma8After ps) =
        if ps = [] then (0, 0, 0)
        else (mean ((ps.rtake 8).map fun p => p.1), mean ((ps.rtake 8).map fun p => p.2.1),
          mean ((ps.rtake 8).map fun p => p.2.2)) := by
  have h := sma8_holds ps
  have hidx := h.x.idx_eq
  have hn := h.x.n_eq
  rw [List.length_map] at hidx hn
  refine ⟨by omega, by omega, ?_⟩
  split
  · rename_i hnone
    subst hnone
    decide +kernel
  · rename_i hsome
    have hlen := List.length_pos_of_ne_nil hsome
    have hpos : (sma8After ps).n ≠ 0 := by omega
    unfold sma8Get
    simp only
    rw [axis_mean h.x hpos, axis_mean h.y hpos, axis_mean h.z hpos, rtake_map, rtake_map,
      rtake_map]

end Cse121
