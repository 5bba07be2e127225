import Mathlib.Data.List.Basic
import Mathlib.Data.List.TakeWhile
import Mathlib.Tactic.Common

/-! # Request targets

The target of a request is a path and, from a question mark on, a query. A byte that no path
character stands for is written as a percent sign and two hexadecimal digits.
-/

namespace Uri

def percent : UInt8 := '%'.toUInt8

def questionMark : UInt8 := '?'.toUInt8

/-- A letter, a digit, or one of the marks that stand for themselves in a path. -/
def IsPathChar (c : UInt8) : Prop :=
  ('a'.toUInt8 ≤ c ∧ c ≤ 'z'.toUInt8) ∨ ('A'.toUInt8 ≤ c ∧ c ≤ 'Z'.toUInt8) ∨
    ('0'.toUInt8 ≤ c ∧ c ≤ '9'.toUInt8) ∨
    c ∈ "-._~!$&'()*+,;=:@/".toList.map Char.toUInt8

instance (c : UInt8) : Decidable (IsPathChar c) := inferInstanceAs (Decidable (_ ∨ _))

/-- A character of a path or of a query. -/
def IsTargetChar (c : UInt8) : Prop := IsPathChar c ∨ c = questionMark ∨ c = percent

instance (c : UInt8) : Decidable (IsTargetChar c) := inferInstanceAs (Decidable (_ ∨ _))

def path (target : List UInt8) : List UInt8 := target.takeWhile (· ≠ questionMark)

def query (target : List UInt8) : List UInt8 := target.dropWhile (· ≠ questionMark)

def hexValue (c : UInt8) : Option UInt8 :=
  if '0'.toUInt8 ≤ c ∧ c ≤ '9'.toUInt8 then some (c - '0'.toUInt8)
  else if 'a'.toUInt8 ≤ c ∧ c ≤ 'f'.toUInt8 then some (c - 'a'.toUInt8 + 10)
  else if 'A'.toUInt8 ≤ c ∧ c ≤ 'F'.toUInt8 then some (c - 'A'.toUInt8 + 10)
  else none

/-- The bytes that a text stands for. A percent sign without two digits is an error. -/
def percentDecode : List UInt8 → Option (List UInt8)
  | [] => some []
  | c :: s =>
    if c = percent then
      match s with
      | h :: l :: s => do
        let h ← hexValue h
        let l ← hexValue l
        let t ← percentDecode s
        return (16 * h + l) :: t
      | _ => none
    else (percentDecode s).map (c :: ·)

example : percentDecode ("a%20b".toList.map Char.toUInt8) =
    some ("a b".toList.map Char.toUInt8) := by decide

theorem percentDecode_cons {c : UInt8} (hc : c ≠ percent) (s : List UInt8) :
    percentDecode (c :: s) = (percentDecode s).map (c :: ·) := by
  conv_lhs => unfold percentDecode
  exact if_neg hc

/-- Where a percent sign is decoded, three bytes become one. -/
theorem percentDecode_percent {s t : List UInt8} (h : percentDecode (percent :: s) = some t) :
    ∃ hi lo s' c t', s = hi :: lo :: s' ∧ percentDecode s' = some t' ∧ t = c :: t' := by
  unfold percentDecode at h
  rw [if_pos rfl] at h
  rcases s with _ | ⟨hi, _ | ⟨lo, s'⟩⟩
  · cases h
  · cases h
  · simp only [Option.bind_eq_bind, Option.bind_eq_some_iff] at h
    rcases h with ⟨a, -, b, -, t', hs', ht⟩
    exact ⟨hi, lo, s', _, t', rfl, hs', (Option.some.inj ht).symm⟩

/-- A text stands for as many bytes as it has or fewer, and fewer with a percent sign. -/
theorem percentDecode_length {s t : List UInt8} (h : percentDecode s = some t) :
    t.length ≤ s.length ∧ (percent ∈ s → t.length < s.length) := by
  induction hn : s.length using Nat.strong_induction_on generalizing s t with
  | _ n ih =>
    subst hn
    rcases s with _ | ⟨c, s⟩
    · obtain rfl := Option.some.inj h
      exact ⟨le_rfl, fun hmem => by cases hmem⟩
    · by_cases hc : c = percent
      · subst hc
        rcases percentDecode_percent h with ⟨hi, lo, s', c', t', rfl, hs', rfl⟩
        have hle := (ih s'.length (by simp only [List.length_cons]; omega) hs' rfl).1
        simp only [List.length_cons]
        omega
      · rw [percentDecode_cons hc, Option.map_eq_some_iff] at h
        rcases h with ⟨t', ht', rfl⟩
        have hrest := ih s.length (by simp) ht' rfl
        simp only [List.length_cons, List.mem_cons]
        refine ⟨by omega, ?_⟩
        rintro (hpercent | hmem)
        · exact absurd hpercent.symm hc
        · have hlt := hrest.2 hmem
          omega

theorem percentDecode_of_notMem {s : List UInt8} (h : percent ∉ s) :
    percentDecode s = some s := by
  induction s with
  | nil => rfl
  | cons c s ih =>
      rw [List.mem_cons, not_or] at h
      rw [percentDecode_cons (Ne.symm h.1), ih h.2, Option.map_some]

/-- Exactly the texts without percent sign stand for themselves. -/
theorem percentDecode_eq_self_iff {s : List UInt8} : percentDecode s = some s ↔ percent ∉ s := by
  constructor
  · intro h hmem
    exact absurd ((percentDecode_length h).2 hmem) (lt_irrefl _)
  · exact percentDecode_of_notMem

section Query

variable {p q : List UInt8}

/-- The path is what is before the first question mark. -/
theorem path_append (hp : questionMark ∉ p) : path (p ++ questionMark :: q) = p := by
  have hall : ∀ c ∈ p, decide (c ≠ questionMark) = true := by
    intro c hc
    exact decide_eq_true fun h => hp (h ▸ hc)
  unfold path
  rw [List.takeWhile_append_of_pos hall, List.takeWhile_cons_of_neg (by simp), List.append_nil]

theorem query_append (hp : questionMark ∉ p) :
    query (p ++ questionMark :: q) = questionMark :: q := by
  have hall : ∀ c ∈ p, decide (c ≠ questionMark) = true := by
    intro c hc
    exact decide_eq_true fun h => hp (h ▸ hc)
  unfold query
  rw [List.dropWhile_append_of_pos hall, List.dropWhile_cons_of_neg (by simp)]

/-- A question mark that is meant for the path cuts it short. -/
theorem path_length_lt (hp : questionMark ∈ p) : (path (p ++ q)).length < p.length := by
  rcases List.eq_append_cons_of_mem hp with ⟨p₁, p₂, rfl, hp₁⟩
  rw [List.append_assoc, List.cons_append, path_append hp₁, List.length_append, List.length_cons]
  omega

/-- A path in front of a query decodes to itself exactly if no byte in it has a meaning of
its own. -/
theorem percentDecode_path_iff :
    percentDecode (path (p ++ questionMark :: q)) = some p ↔ questionMark ∉ p ∧ percent ∉ p := by
  by_cases hp : questionMark ∈ p
  · refine ⟨fun h => ?_, fun h => absurd hp h.1⟩
    have hle := (percentDecode_length h).1
    have hlt := @path_length_lt p (questionMark :: q) hp
    omega
  · rw [path_append hp, percentDecode_eq_self_iff]
    exact ⟨fun h => ⟨hp, h⟩, fun h => h.2⟩

end Query

/-- The characters of a path are those of a target that have no meaning of their own. -/
theorem isPathChar_iff {c : UInt8} :
    IsPathChar c ↔ IsTargetChar c ∧ c ≠ questionMark ∧ c ≠ percent := by
  constructor
  · intro h
    refine ⟨Or.inl h, ?_, ?_⟩
    · rintro rfl
      exact absurd h (by decide)
    · rintro rfl
      exact absurd h (by decide)
  · rintro ⟨h | h | h, hquestion, hpercent⟩
    · exact h
    · exact absurd h hquestion
    · exact absurd h hpercent

end Uri
