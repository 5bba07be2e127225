import Cse121.Morse.Inverse
import Mathlib.Data.List.TakeDrop
import Mathlib.Tactic.Common

/-! # The symbol buffer of the receivers

Both receiver tasks collect symbols in `char morse_buffer[10]` with an index
`morse_idx`, and decode them when a letter is over. The tasks are written over
any buffer with these operations: with the array they are the tasks of the
source, with a list they are the same tasks with room for any number of symbols.
-/

namespace Cse121

/-- Conversion of an `int64_t` value to `int`. -/
def toInt (x : Int) : Int := (x + 2147483648) % 4294967296 - 2147483648

theorem toInt_of_range {x : Int} (hlo : -2147483648 ≤ x) (hhi : x < 2147483648) :
    toInt x = x := by
  unfold toInt
  omega

/-- What a receiver task does that can be seen from outside its variables. -/
inductive Obs where
  /-- a write to `morse_buffer[i]` -/
  | store (i : Nat)
  /-- a call of `decode_morse` -/
  | decode (pattern : CString)
  /-- text written by `printf` -/
  | printf (s : CString)
  /-- the `ESP_LOGW` of a pulse that is out of range -/
  | warn (pulseUs : Int)
deriving DecidableEq, Repr

/-- The printed text of one observation. -/
def Obs.text : Obs → CString
  | .printf s => s
  | _ => []

/-- The printed text of a run. -/
def text (os : List Obs) : CString := os.flatMap Obs.text

theorem text_append (xs ys : List Obs) : text (xs ++ ys) = text xs ++ text ys := by
  simp [text]

/-- What an observation shows of the letters: the calls of `decode_morse`, their
patterns seen through `cut`, and the text. -/
def Obs.shown (cut : CString → CString) : Obs → List Obs
  | .decode p => [.decode (cut p)]
  | .printf s => [.printf s]
  | _ => []

/-- What a run shows of the letters. -/
def shown (cut : CString → CString) (os : List Obs) : List Obs := os.flatMap (Obs.shown cut)

@[simp] theorem shown_nil (cut : CString → CString) : shown cut [] = [] := rfl

@[simp] theorem shown_append (cut : CString → CString) (xs ys : List Obs) :
    shown cut (xs ++ ys) = shown cut xs ++ shown cut ys := by
  simp [shown]

/-- The text is part of what is shown. -/
theorem text_shown (cut : CString → CString) (os : List Obs) : text (shown cut os) = text os := by
  induction os with
  | nil => rfl
  | cons o os ih => cases o <;> simpa [text, shown, Obs.shown, Obs.text] using ih

/-- Runs that show the same print the same. -/
theorem text_eq_of_shown {cut cut' : CString → CString} {xs ys : List Obs}
    (h : shown cut xs = shown cut' ys) : text xs = text ys := by
  rw [← text_shown cut xs, h, text_shown]

/-- An observation that stays inside the buffer and prints no NUL. -/
def Obs.Safe : Obs → Prop
  | .store i => i ≤ 9
  | .printf s => 0 ∉ s
  | _ => True

/-- The operations on `morse_buffer` and `morse_idx`. -/
class SymbolBuffer (β : Type) where
  /-- `morse_idx` -/
  morseIdx : β → Nat
  /-- `if (morse_idx < sizeof(morse_buffer) - 1) morse_buffer[morse_idx++] = c` -/
  push : β → UInt8 → β × List Obs
  /-- `morse_buffer[morse_idx] = '\0'` -/
  terminate : β → β × List Obs
  /-- the string that starts at `morse_buffer` -/
  contents : β → CString
  /-- `morse_idx = 0` -/
  clear : β → β

export SymbolBuffer (morseIdx push terminate contents clear)

/-- Terminate, decode, print with a separator, and start over. Returns `decoded`. -/
def flushLetter {β : Type} [SymbolBuffer β] (decode : CString → UInt8) (b : β) (sep : CString) :
    UInt8 × β × List Obs :=
  let t := terminate b
  let pattern := contents t.1
  let decoded := decode pattern
  (decoded, clear t.1, t.2 ++ [.decode pattern, .printf (decoded :: sep)])

/-! ## The array -/

/-- `char morse_buffer[10]; int morse_idx`. -/
structure CharBuffer where
  morseBuffer : Vector UInt8 10
  morseIdx : Nat
deriving DecidableEq, Repr

/-- Writing `morse_buffer[i]`; out of bounds nothing sensible happens, the write
itself is observed. -/
def CharBuffer.write (b : CharBuffer) (i : Nat) (c : UInt8) : CharBuffer :=
  { b with morseBuffer := b.morseBuffer.setIfInBounds i c }

instance : SymbolBuffer CharBuffer where
  morseIdx := CharBuffer.morseIdx
  push b c :=
    if b.morseIdx < 10 - 1 then
      ({ b.write b.morseIdx c with morseIdx := b.morseIdx + 1 }, [.store b.morseIdx])
    else (b, [])
  terminate b := (b.write b.morseIdx 0, [.store b.morseIdx])
  contents b := b.morseBuffer.toList.takeWhile (· ≠ 0)
  clear b := { b with morseIdx := 0 }

/-- The buffer of a task that starts: whatever the stack held, no symbol. -/
def CharBuffer.start (junk : Vector UInt8 10) : CharBuffer := ⟨junk, 0⟩

/-- The recorded symbols. -/
def CharBuffer.pending (b : CharBuffer) : CString := b.morseBuffer.toList.take b.morseIdx

/-! ## The unbounded list -/

instance : SymbolBuffer CString where
  morseIdx p := p.length
  push p c := (p ++ [c], [])
  terminate p := (p, [])
  contents p := p
  clear _ := []

@[simp] theorem morseIdx_list (p : CString) : morseIdx p = p.length := rfl

@[simp] theorem push_list (p : CString) (c : UInt8) : push p c = (p ++ [c], []) := rfl

@[simp] theorem flush_list (decode : CString → UInt8) (p sep : CString) :
    flushLetter decode p sep =
      (decode p, ([] : CString), [.decode p, .printf (decode p :: sep)]) := rfl

/-! ## The array represents the list -/

/-- The array holds the first nine of the symbols `p`, none of them NUL. -/
structure Holds (b : CharBuffer) (p : CString) : Prop where
  idx : b.morseIdx = min p.length 9
  pending : b.pending = p.take 9
  noNul : ∀ c ∈ p, c ≠ 0

theorem holds_start (junk : Vector UInt8 10) : Holds (.start junk) [] :=
  ⟨rfl, rfl, by simp⟩

theorem Holds.idx_pos {b : CharBuffer} {p : CString} (h : Holds b p) :
    0 < morseIdx b ↔ 0 < p.length := by
  have hidx : morseIdx b = min p.length 9 := h.idx
  omega

theorem Holds.idx_zero {b : CharBuffer} {p : CString} (h : Holds b p) :
    b.morseIdx = 0 ↔ p = [] := by
  rw [h.idx, ← List.length_eq_zero_iff]
  omega

/-- A write below the index, or at it, does not touch the recorded symbols. -/
theorem write_toList {b : CharBuffer} {c : UInt8} (hb : b.morseIdx < 10) :
    (b.write b.morseIdx c).morseBuffer.toList =
      b.pending ++ c :: b.morseBuffer.toList.drop (b.morseIdx + 1) := by
  have hlen : b.morseIdx < b.morseBuffer.toList.length := by simpa using hb
  simp only [CharBuffer.write, CharBuffer.pending, Vector.toList_setIfInBounds,
    List.set_eq_take_append_cons_drop, if_pos hlen]

theorem length_pending {b : CharBuffer} (hb : b.morseIdx ≤ 10) :
    b.pending.length = b.morseIdx := by
  simp only [CharBuffer.pending, List.length_take, Vector.length_toList]
  omega

/-- A symbol is recorded behind those before it. -/
theorem push_pending {b : CharBuffer} (hb : b.morseIdx < 10 - 1) (c : UInt8) :
    (push b c).1.morseIdx = b.morseIdx + 1 ∧ (push b c).1.pending = b.pending ++ [c] := by
  have hlist := write_toList (b := b) (c := c) (by omega)
  have hlen : b.pending.length = b.morseIdx := length_pending (by omega)
  simp only [push, if_pos hb]
  refine ⟨trivial, ?_⟩
  change ((b.write b.morseIdx c).morseBuffer.toList).take (b.morseIdx + 1) = b.pending ++ [c]
  rw [hlist, ← hlen, List.take_append]
  simp

/-- The tenth and later symbols are dropped by the array. -/
theorem push_full {b : CharBuffer} (hb : ¬ b.morseIdx < 10 - 1) (c : UInt8) :
    (push b c).1 = b := by
  simp only [push, if_neg hb]

/-- The array records what the list records, cut to nine symbols. -/
theorem holds_push {b : CharBuffer} {p : CString} {c : UInt8} (h : Holds b p) (hc : c ≠ 0) :
    Holds (push b c).1 (p ++ [c]) := by
  have hidx := h.idx
  have hnul : ∀ x ∈ p ++ [c], x ≠ 0 := by
    intro x hx
    rcases List.mem_append.1 hx with hx | hx
    · exact h.noNul x hx
    · simpa [List.mem_singleton.1 hx] using hc
  by_cases hroom : b.morseIdx < 10 - 1
  · have hpush := push_pending hroom c
    have hpend : b.pending = p := by rw [h.pending, List.take_of_length_le (by omega)]
    refine ⟨?_, ?_, hnul⟩
    · rw [hpush.1, List.length_append, List.length_singleton]
      omega
    · rw [hpush.2, hpend, List.take_of_length_le]
      rw [List.length_append, List.length_singleton]
      omega
  · rw [push_full hroom]
    refine ⟨?_, ?_, hnul⟩
    · simp only [List.length_append, List.length_singleton]
      omega
    · rw [h.pending, List.take_append_of_le_length (by omega)]

/-- The string handed to `decode_morse` is the first nine symbols. -/
theorem contents_terminate {b : CharBuffer} {p : CString} (h : Holds b p) :
    contents (terminate b).1 = p.take 9 := by
  have hidx := h.idx
  have hlist := write_toList (b := b) (c := 0) (by omega)
  have hnul : ∀ x ∈ p.take 9, x ≠ 0 := fun x hx => h.noNul x (List.mem_of_mem_take hx)
  change ((b.write b.morseIdx 0).morseBuffer.toList).takeWhile (· ≠ 0) = p.take 9
  rw [hlist, h.pending, List.takeWhile_append_of_pos (by simpa using hnul)]
  simp

/-- A flush of the array prints what a flush of the list prints, and empties it. -/
theorem holds_flush (decode : CString → UInt8) (sep : CString) {b : CharBuffer} {p : CString}
    (h : Holds b p) :
    flushLetter decode b sep =
      (decode (p.take 9), clear (terminate b).1,
        [.store b.morseIdx, .decode (p.take 9), .printf (decode (p.take 9) :: sep)]) ∧
      Holds (clear (terminate b).1) [] := by
  refine ⟨?_, ⟨rfl, rfl, by simp⟩⟩
  simp only [flushLetter, contents_terminate h]
  rfl

/-! ## Closed groups -/

/-- What a closed group of symbols prints. -/
def printed (g : CString × CString) : CString := Lab52.decodeMorse g.1 :: g.2

/-- What closing a group shows. -/
def groupShown (cut : CString → CString) (g : CString × CString) : List Obs :=
  [.decode (cut g.1), .printf (printed g)]

theorem text_groups (cut : CString → CString) (gs : List (CString × CString)) :
    text (gs.flatMap (groupShown cut)) = gs.flatMap printed := by
  induction gs with
  | nil => rfl
  | cons g gs ih => simpa [text, groupShown, Obs.text] using ih

/-! ## Safety of single operations -/

/-- Recording a symbol writes below the last byte of the array, and shows nothing. -/
theorem push_safe (b : CharBuffer) (c : UInt8) (cut : CString → CString) :
    (∀ o ∈ (push b c).2, o.Safe) ∧ shown cut (push b c).2 = [] := by
  simp only [push]
  split
  · rename_i hfull
    refine ⟨?_, rfl⟩
    intro o ho
    rw [List.mem_singleton.1 ho]
    change b.morseIdx ≤ 9
    omega
  · exact ⟨by simp, rfl⟩

/-- A flush of pending symbols writes the terminator inside the array, and prints
no NUL unless the separator has one. -/
theorem flush_safe {b : CharBuffer} {p sep : CString} (h : Holds b p) (hp : 0 < p.length)
    (hsep : 0 ∉ sep) : ∀ o ∈ (flushLetter Lab52.decodeMorse b sep).2.2, o.Safe := by
  have hidx := h.idx
  have hne : p ≠ [] := List.length_pos_iff.1 hp
  have hdec : Lab52.decodeMorse (p.take 9) ≠ 0 := by
    rw [decodeMorse_take]
    exact decodeMorse_ne_zero hne
  rw [(holds_flush Lab52.decodeMorse sep h).1]
  intro o ho
  simp only [List.mem_cons, List.not_mem_nil, or_false] at ho
  rcases ho with rfl | rfl | rfl
  · change b.morseIdx ≤ 9
    omega
  · trivial
  · simp only [Obs.Safe, List.mem_cons, not_or]
    exact ⟨fun h0 => hdec h0.symm, hsep⟩

end Cse121
