import Mathlib.Algebra.Order.Ring.Rat
import Mathlib.Data.Rat.Floor
import Mathlib.Tactic.IntervalCases
import Mathlib.Tactic.Positivity

/-! # Conversions of `printf`

The text of a number, as `%zu`, `%d` and `%.2f` write it: the digits of a natural number,
a sign, a fixed number of decimals, blanks up to a width. A number with decimals is given
by its sign and its magnitude, because a zero may be negative.
-/

namespace Printf

/-- `%zu`: the decimal digits of a natural number. -/
def decimal (n : Nat) : List UInt8 := (Nat.toDigits 10 n).map Char.toUInt8

/-- `%d`. -/
def signed (z : Int) : List UInt8 :=
  (if z < 0 then ['-'.toUInt8] else []) ++ decimal z.natAbs

/-- A natural number at a width, filled with zeros. -/
def zeros (width n : Nat) : List UInt8 :=
  List.replicate (width - (decimal n).length) '0'.toUInt8 ++ decimal n

/-- A text at a width, filled with blanks on the left. -/
def padLeft (width : Nat) (text : List UInt8) : List UInt8 :=
  List.replicate (width - text.length) ' '.toUInt8 ++ text

/-- The nearest natural number, the even one of two. -/
def roundHalfEven (x : ℚ) : Nat :=
  let below := ⌊x⌋.toNat
  let rest := x - below
  if rest < 1 / 2 then below
  else if 1 / 2 < rest then below + 1
  else if below % 2 = 0 then below else below + 1

/-- `%.nf` of a number of the given sign and magnitude. -/
def fixed (decimals : Nat) (negative : Bool) (magnitude : ℚ) : List UInt8 :=
  let scaled := roundHalfEven (magnitude * 10 ^ decimals)
  (if negative then ['-'.toUInt8] else []) ++ decimal (scaled / 10 ^ decimals) ++
    ['.'.toUInt8] ++ zeros decimals (scaled % 10 ^ decimals)

/-! ## Digits -/

/-- The byte of a decimal digit. -/
def IsDigit (c : UInt8) : Prop := '0'.toUInt8 ≤ c ∧ c ≤ '9'.toUInt8

instance (c : UInt8) : Decidable (IsDigit c) := inferInstanceAs (Decidable (_ ∧ _))

theorem isDigit_digitChar {d : Nat} (hd : d < 10) : IsDigit d.digitChar.toUInt8 := by
  interval_cases d <;> decide

theorem isDigit_decimal {n : Nat} {c : UInt8} (h : c ∈ decimal n) : IsDigit c := by
  induction n using Nat.strong_induction_on with
  | _ n ih =>
    unfold decimal at h
    rw [Nat.toDigits_eq_if (by decide)] at h
    split at h
    · rename_i hn
      obtain rfl : c = n.digitChar.toUInt8 := by simpa using h
      exact isDigit_digitChar hn
    · rw [List.map_append, List.mem_append] at h
      rcases h with h | h
      · exact ih (n / 10) (by omega) h
      · obtain rfl : c = (n % 10).digitChar.toUInt8 := by simpa using h
        exact isDigit_digitChar (by omega)

theorem decimal_length_le_iff {n k : Nat} (hk : 0 < k) : (decimal n).length ≤ k ↔ n < 10 ^ k := by
  unfold decimal
  rw [List.length_map]
  exact Nat.length_toDigits_le_iff (by decide) hk

theorem zeros_length {width n : Nat} (hwidth : 0 < width) (hn : n < 10 ^ width) :
    (zeros width n).length = width := by
  have hlen := (decimal_length_le_iff hwidth).2 hn
  unfold zeros
  rw [List.length_append, List.length_replicate]
  omega

theorem isDigit_zeros {width n : Nat} {c : UInt8} (h : c ∈ zeros width n) : IsDigit c := by
  unfold zeros at h
  rcases List.mem_append.1 h with h | h
  · rw [List.eq_of_mem_replicate h]
    decide
  · exact isDigit_decimal h

/-- The number that digits stand for. -/
def value (digits : List UInt8) : Nat :=
  digits.foldl (fun v c => 10 * v + (c.toNat - '0'.toNat)) 0

/-- The digits of a number stand for it. -/
theorem value_decimal (n : Nat) : value (decimal n) = n := by
  have hdigit : ∀ c ∈ Nat.toDigits 10 n, c.toUInt8.toNat = c.toNat := by
    intro c hc
    have hle : c.toNat ≤ 57 := by
      have h := Nat.isDigit_of_mem_toDigits (by decide) (by decide) hc
      simp only [Char.isDigit, Bool.and_eq_true, decide_eq_true_eq] at h
      exact UInt32.le_iff_toNat_le.1 h.2
    change c.toNat % 256 = c.toNat
    omega
  have hfold : ∀ (digits : List Char), (∀ c ∈ digits, c.toUInt8.toNat = c.toNat) → ∀ v,
      (digits.map Char.toUInt8).foldl (fun v c => 10 * v + (c.toNat - '0'.toNat)) v =
        Nat.ofDigitChars 10 digits v := by
    intro digits
    induction digits with
    | nil =>
        intro _ v
        rw [Nat.ofDigitChars_nil]
        rfl
    | cons c digits ih =>
        intro h v
        have hc := h c List.mem_cons_self
        rw [List.map_cons, List.foldl_cons, Nat.ofDigitChars_cons, hc]
        exact ih (fun c' hc' => h c' (List.mem_cons_of_mem c hc')) _
  unfold value decimal
  rw [hfold _ hdigit, Nat.ofDigitChars_ten_toDigits]

theorem signed_natCast (n : Nat) : signed n = decimal n := by
  unfold signed
  rw [if_neg (by omega), List.nil_append, Int.natAbs_natCast]

/-! ## Decimals -/

/-- Only digits, a sign and a point are written. -/
theorem mem_fixed {decimals : Nat} {negative : Bool} {magnitude : ℚ} {c : UInt8}
    (h : c ∈ fixed decimals negative magnitude) :
    IsDigit c ∨ c = '-'.toUInt8 ∨ c = '.'.toUInt8 := by
  unfold fixed at h
  simp only [List.mem_append] at h
  rcases h with ((h | h) | h) | h
  · cases negative <;> simp at h
    exact Or.inr (Or.inl h)
  · exact Or.inl (isDigit_decimal h)
  · exact Or.inr (Or.inr (List.mem_singleton.1 h))
  · exact Or.inl (isDigit_zeros h)

theorem roundHalfEven_le {x : ℚ} {n : Nat} (hx : x ≤ n) : roundHalfEven x ≤ n := by
  have hfloor : ⌊x⌋.toNat ≤ n := by
    have hle : ⌊x⌋ ≤ (n : Int) := by
      have h := Int.floor_le_floor hx
      simpa using h
    omega
  rcases Nat.lt_or_ge ⌊x⌋.toNat n with hlt | hge
  · unfold roundHalfEven
    simp only
    split
    · exact hfloor
    · split
      · exact hlt
      · split
        · exact hfloor
        · exact hlt
  · -- a number of at least `n` is `n`, and is not rounded
    have heq : ⌊x⌋.toNat = n := le_antisymm hfloor hge
    have hrest : x - ⌊x⌋.toNat < 1 / 2 := by
      rw [heq]
      have hzero : x - n ≤ 0 := sub_nonpos.2 hx
      exact lt_of_le_of_lt hzero (by norm_num)
    unfold roundHalfEven
    simp only
    rw [if_pos hrest]
    exact hfloor

/-- A number below `10 ^ k` takes its sign, at most `k` digits, the point and the
decimals. -/
theorem fixed_length_signed {decimals k : Nat} {negative : Bool} {magnitude : ℚ} (hk : 0 < k)
    (hdecimals : 0 < decimals) {bound : Nat} (hbound : bound < 10 ^ k)
    (hmagnitude : magnitude ≤ bound) :
    (fixed decimals negative magnitude).length ≤
      (if negative then 1 else 0) + k + 1 + decimals := by
  have hscaled : roundHalfEven (magnitude * 10 ^ decimals) ≤ bound * 10 ^ decimals := by
    apply roundHalfEven_le
    push_cast
    exact mul_le_mul_of_nonneg_right hmagnitude (by positivity)
  have hwhole : roundHalfEven (magnitude * 10 ^ decimals) / 10 ^ decimals < 10 ^ k := by
    have hdiv := Nat.div_le_div_right (c := 10 ^ decimals) hscaled
    rw [Nat.mul_div_cancel _ (by positivity)] at hdiv
    omega
  have hlen := (decimal_length_le_iff hk).2 hwhole
  have hzeros := zeros_length hdecimals
    (Nat.mod_lt (roundHalfEven (magnitude * 10 ^ decimals)) (by positivity : 0 < 10 ^ decimals))
  have hsign : (if negative = true then ['-'.toUInt8] else []).length =
      if negative then 1 else 0 := by
    cases negative <;> rfl
  unfold fixed
  simp only [List.length_append, List.length_singleton, hzeros, hsign]
  omega

/-- It takes at most a sign, `k` digits, the point and the decimals. -/
theorem fixed_length {decimals k : Nat} {negative : Bool} {magnitude : ℚ} (hk : 0 < k)
    (hdecimals : 0 < decimals) {bound : Nat} (hbound : bound < 10 ^ k)
    (hmagnitude : magnitude ≤ bound) :
    (fixed decimals negative magnitude).length ≤ k + decimals + 2 := by
  have hle : (fixed decimals negative magnitude).length ≤
      (if negative then 1 else 0) + k + 1 + decimals :=
    fixed_length_signed hk hdecimals hbound hmagnitude
  split at hle
  · omega
  · omega

/-- A text that fits a width takes exactly the width. -/
theorem padLeft_length {width : Nat} {text : List UInt8} (h : text.length ≤ width) :
    (padLeft width text).length = width := by
  unfold padLeft
  rw [List.length_append, List.length_replicate]
  omega

/-- A number of at most two digits takes at most a sign more than them. -/
theorem signed_length {z : Int} (hlo : -99 ≤ z) (hhi : z ≤ 999) : (signed z).length ≤ 3 := by
  unfold signed
  rw [List.length_append]
  by_cases hz : z < 0
  · have hlen := (decimal_length_le_iff (n := z.natAbs) (k := 2) (by decide)).2 (by omega)
    rw [if_pos hz, List.length_singleton]
    omega
  · have hlen := (decimal_length_le_iff (n := z.natAbs) (k := 3) (by decide)).2 (by omega)
    rw [if_neg hz, List.length_nil]
    omega

end Printf
