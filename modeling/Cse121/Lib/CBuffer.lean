import Mathlib.Data.List.Basic
import Mathlib.Data.List.TakeWhile
import Mathlib.Tactic.Common

/-! # Character arrays

A `char` array of a fixed size, as a program writes and reads it. An access outside the
array is a fault: it has no result. The string in an array ends at its first NUL.
-/

/-- `char a[n]`. -/
structure CBuffer (n : Nat) where
  bytes : List UInt8
  length_eq : bytes.length = n

namespace CBuffer

variable {n : Nat}

/-- `bzero`. -/
def zero (n : Nat) : CBuffer n := ⟨List.replicate n 0, List.length_replicate⟩

/-- Bytes written from an offset on. -/
def write (b : CBuffer n) (off : Nat) (s : List UInt8) : Option (CBuffer n) :=
  if h : off + s.length ≤ n then
    some ⟨b.bytes.take off ++ s ++ b.bytes.drop (off + s.length), by
      have hlen := b.length_eq
      simp only [List.length_append, List.length_take, List.length_drop]
      omega⟩
  else none

/-- The string that starts at the array. -/
def str (b : CBuffer n) : Option (List UInt8) :=
  if 0 ∈ b.bytes then some (b.bytes.takeWhile (· ≠ 0)) else none

/-- `snprintf` of a text, with the size of the array. -/
def snprintf (b : CBuffer n) (text : List UInt8) : Option (CBuffer n) :=
  b.write 0 (text.take (n - 1) ++ [0])

/-- A write inside the array. -/
theorem write_eq (b : CBuffer n) (off : Nat) (s : List UInt8) (h : off + s.length ≤ n) :
    ∃ b' : CBuffer n, b.write off s = some b' ∧
      b'.bytes = b.bytes.take off ++ s ++ b.bytes.drop (off + s.length) :=
  ⟨_, dif_pos h, rfl⟩

/-! ## The string in an array -/

/-- The array holds a string. -/
def Holds (b : CBuffer n) (s : List UInt8) : Prop :=
  0 ∉ s ∧ ∃ rest, b.bytes = s ++ 0 :: rest

/-- A string without NUL is all before its first one. -/
theorem takeWhile_self {s : List UInt8} (hs : 0 ∉ s) : s.takeWhile (· ≠ 0) = s := by
  refine List.takeWhile_eq_self_iff.2 ?_
  intro c hc
  have hne : c ≠ 0 := fun h => hs (h ▸ hc)
  simpa using hne

/-- What follows a NUL is no part of the string. -/
theorem takeWhile_filled (s rest : List UInt8) :
    (s ++ 0 :: rest).takeWhile (· ≠ 0) = s.takeWhile (· ≠ 0) := by
  induction s with
  | nil => simp
  | cons c s ih =>
      by_cases hc : c = 0
      · simp [hc]
      · simpa [List.takeWhile_cons, hc] using ih

theorem takeWhile_nul {s : List UInt8} (hs : 0 ∉ s) (rest : List UInt8) :
    (s ++ 0 :: rest).takeWhile (· ≠ 0) = s := by
  rw [takeWhile_filled, takeWhile_self hs]

theorem Holds.str_eq {b : CBuffer n} {s : List UInt8} (h : b.Holds s) : b.str = some s := by
  rcases h with ⟨hs, rest, hbytes⟩
  unfold str
  rw [if_pos (by rw [hbytes]; simp), hbytes, takeWhile_nul hs]

/-- An array with a NUL holds what is before the first one. -/
theorem holds_of_mem {b : CBuffer n} (h : 0 ∈ b.bytes) :
    b.Holds (b.bytes.takeWhile (· ≠ 0)) := by
  rcases List.eq_append_cons_of_mem h with ⟨s, rest, hbytes, hs⟩
  rw [hbytes, takeWhile_nul hs]
  exact ⟨hs, rest, hbytes⟩

/-- A text that fits is what the array holds once it is written with its NUL. -/
theorem write_holds (b : CBuffer n) {text : List UInt8} (htext : 0 ∉ text)
    (hlen : text.length < n) : ∃ b', b.write 0 (text ++ [0]) = some b' ∧ b'.Holds text := by
  rcases write_eq b 0 (text ++ [0]) (by simp; omega) with ⟨b', hb', hbytes⟩
  refine ⟨b', hb', htext, b.bytes.drop (text.length + 1), ?_⟩
  rw [hbytes]
  simp

/-- `snprintf` of a text that fits writes the text. -/
theorem snprintf_holds (b : CBuffer n) {text : List UInt8} (htext : 0 ∉ text)
    (hlen : text.length < n) : ∃ b', b.snprintf text = some b' ∧ b'.Holds text := by
  unfold snprintf
  rw [List.take_of_length_le (by omega)]
  exact write_holds b htext hlen

/-! ## Searching -/

/-- `strstr`: where a string first occurs in another. -/
def strstr (needle : List UInt8) : List UInt8 → Option Nat
  | [] => if needle = [] then some 0 else none
  | c :: s => if needle <+: c :: s then some 0 else (strstr needle s).map (· + 1)

/-- The first occurrence is an occurrence, and there is none before it. -/
theorem strstr_eq_some_iff {needle s : List UInt8} {i : Nat} :
    strstr needle s = some i ↔
      i ≤ s.length ∧ needle <+: s.drop i ∧ ∀ k < i, ¬ needle <+: s.drop k := by
  induction s generalizing i with
  | nil =>
      unfold strstr
      constructor
      · intro h
        split at h
        · rename_i hneedle
          obtain rfl := Option.some.inj h
          simp [hneedle]
        · simp at h
      · rintro ⟨hi, hprefix, -⟩
        obtain rfl : i = 0 := by simpa using hi
        rw [if_pos (by simpa using hprefix)]
  | cons c s ih =>
      unfold strstr
      by_cases hhead : needle <+: c :: s
      · rw [if_pos hhead]
        constructor
        · rintro h
          obtain rfl := Option.some.inj h
          exact ⟨by simp, hhead, by simp⟩
        · rintro ⟨-, -, hfirst⟩
          rcases i with _ | i
          · rfl
          · exact absurd hhead (hfirst 0 (by omega))
      · rw [if_neg hhead]
        -- not at the head: what is found lies one further than in the tail
        rcases i with _ | i
        · simp only [Option.map_eq_some_iff, Nat.add_one_ne_zero, and_false, exists_false,
            false_iff]
          rintro ⟨-, hprefix, -⟩
          exact hhead hprefix
        · simp only [Option.map_eq_some_iff, Nat.add_right_cancel_iff, exists_eq_right, ih,
            List.length_cons, Nat.add_le_add_iff_right, List.drop_succ_cons]
          refine and_congr_right fun _ => and_congr_right fun _ => ?_
          constructor
          · intro hfirst k hk
            rcases k with _ | k
            · exact hhead
            · exact hfirst k (by omega)
          · intro hfirst k hk
            exact hfirst (k + 1) (by omega)

/-- An occurrence is inside the string. -/
theorem strstr_fits {needle s : List UInt8} {i : Nat} (h : strstr needle s = some i) :
    i + needle.length ≤ s.length := by
  rcases strstr_eq_some_iff.1 h with ⟨hi, hprefix, -⟩
  have hle := hprefix.length_le
  rw [List.length_drop] at hle
  omega

/-- What follows a string has no part in the occurrences inside it. -/
theorem prefix_drop_append {needle s : List UInt8} (t : List UInt8) {k : Nat}
    (hk : k + needle.length ≤ s.length) : needle <+: (s ++ t).drop k ↔ needle <+: s.drop k := by
  rw [List.drop_append_of_le_length (by omega)]
  constructor
  · intro h
    exact List.prefix_of_prefix_length_le h (List.prefix_append _ _)
      (by rw [List.length_drop]; omega)
  · intro h
    exact h.trans (List.prefix_append _ _)

/-- A string first occurs in another where it does with more behind, if it fits. -/
theorem strstr_append_iff {needle s : List UInt8} (t : List UInt8) {i : Nat} :
    strstr needle s = some i ↔
      strstr needle (s ++ t) = some i ∧ i + needle.length ≤ s.length := by
  constructor
  · intro h
    have hfits := strstr_fits h
    rcases strstr_eq_some_iff.1 h with ⟨hi, hprefix, hfirst⟩
    refine ⟨strstr_eq_some_iff.2 ⟨?_, (prefix_drop_append t hfits).2 hprefix, ?_⟩, hfits⟩
    · rw [List.length_append]
      omega
    · intro k hk hprefix
      exact hfirst k hk ((prefix_drop_append t (by omega)).1 hprefix)
  · rintro ⟨h, hfits⟩
    rcases strstr_eq_some_iff.1 h with ⟨-, hprefix, hfirst⟩
    refine strstr_eq_some_iff.2 ⟨by omega, (prefix_drop_append t hfits).1 hprefix, ?_⟩
    intro k hk h
    exact hfirst k hk ((prefix_drop_append t (by omega)).2 h)

end CBuffer
