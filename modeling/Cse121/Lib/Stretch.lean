import Mathlib.Data.List.DropRight

/-! # Stretches

A stretch is a run of values in a row that have one key in common. What is done for as
long as something is held needs the time at which the stretch of the latest value began;
a single stored time is enough for that, restarted when the key changes.
-/

namespace Stretch

variable {α κ : Type*} [DecidableEq κ] (key : α → κ) (time : α → Int)

/-- The time of the first value of the longest stretch that ends with `x`, after the
values `hist`. -/
def since (hist : List α) (x : α) : Int :=
  (((hist ++ [x]).rtakeWhile fun y => key y = key x).head?.map time).getD (time x)

theorem since_eq (hist : List α) (x : α) :
    since key time hist x =
      ((hist.rtakeWhile fun y => key y = key x).head?.map time).getD (time x) := by
  rw [since, List.rtakeWhile_concat, if_pos (by simp), List.head?_append]
  cases (hist.rtakeWhile fun y => key y = key x).head? <;> rfl

@[simp] theorem since_nil (x : α) : since key time [] x = time x := by
  simp [since_eq]

/-- A value continues the stretch before it, or starts a new one. -/
theorem since_concat (hist : List α) (y x : α) :
    since key time (hist ++ [y]) x =
      if key y = key x then since key time hist y else time x := by
  rw [since_eq]
  by_cases h : key y = key x
  · have hstretch : (hist ++ [y]).rtakeWhile (fun z => key z = key x) =
        (hist ++ [y]).rtakeWhile fun z => key z = key y := by
      simp only [h]
    rw [if_pos h, hstretch, since]
    have hne : (hist ++ [y]).rtakeWhile (fun z => key z = key y) ≠ [] := by
      rw [List.rtakeWhile_concat, if_pos (by simp)]
      simp
    obtain ⟨z, zs, hz⟩ := List.exists_cons_of_ne_nil hne
    rw [hz]
    rfl
  · rw [if_neg h, List.rtakeWhile_concat, if_neg (by simpa using h)]
    rfl

end Stretch
